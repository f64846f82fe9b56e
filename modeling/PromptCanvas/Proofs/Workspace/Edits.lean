import PromptCanvas.Workspace.Session

/-! # What an operation changes

For each edit of a session that can be refused, when it is carried out and what it
then makes of the session (`update_eq_ok`, `remove_eq_ok`, `connect_eq_ok`,
`select_eq_ok`, `arrange_eq_ok`, `draw_eq_ok`), and which operations need no session to
be refused (`task_importText`, `task_reset`). -/

set_option autoImplicit false

namespace PromptCanvas.Workspace

namespace Operation

section Tasks

variable {confirmed : Bool} {task : Task}

theorem task_importText {text : String} (ok : (importText text confirmed).task = .ok task) :
    confirmed = true ∧ ∃ g, graphOfText text = .ok g ∧ task = .replace g := by
  rw [Operation.task] at ok
  split at ok
  · rename_i confirmed
    cases read : graphOfText text with
    | error e =>
        rw [read] at ok
        cases ok
    | ok g =>
        rw [read] at ok
        cases ok
        exact ⟨confirmed, g, rfl, rfl⟩
  · cases ok

theorem task_reset (ok : (reset confirmed).task = .ok task) : confirmed = true ∧ task = .clear := by
  rw [Operation.task] at ok
  split at ok
  · rename_i confirmed
    cases ok
    exact ⟨confirmed, rfl⟩
  · cases ok

end Tasks

end Operation

namespace Session

section Nodes

variable {s : Session} {id : String} {f : Canvas.Node → Canvas.Node} {change : Change}

theorem ids_updateFirst (sameId : ∀ n, (f n).id = n.id) (nodes : List Canvas.Node) :
    (updateFirst id f nodes).map Canvas.Node.id = nodes.map Canvas.Node.id := by
  induction nodes with
  | nil => rfl
  | cons n nodes ih =>
      rw [updateFirst]
      split
      · rw [List.map_cons, List.map_cons, sameId]
      · rw [List.map_cons, List.map_cons, ih]

theorem mem_updateFirst {nodes : List Canvas.Node} {m : Canvas.Node}
    (member : m ∈ updateFirst id f nodes) : m ∈ nodes ∨ ∃ n ∈ nodes, m = f n := by
  induction nodes with
  | nil => cases member
  | cons n nodes ih =>
      rw [updateFirst] at member
      split at member
      · rcases List.mem_cons.mp member with rfl | later
        · exact .inr ⟨n, List.mem_cons_self, rfl⟩
        · exact .inl (List.mem_cons_of_mem n later)
      · rcases List.mem_cons.mp member with rfl | later
        · exact .inl List.mem_cons_self
        · rcases ih later with old | ⟨k, old, new⟩
          · exact .inl (List.mem_cons_of_mem n old)
          · exact .inr ⟨k, List.mem_cons_of_mem n old, new⟩

theorem node_eq_ok {n : Canvas.Node} (ok : s.node id = .ok n) : s.canvas.find? id = some n := by
  unfold node at ok
  split at ok
  · rename_i found
    cases ok
    exact found
  · cases ok

theorem update_eq_ok (ok : s.update id f = .ok change) :
    ∃ n, s.node id = .ok n ∧
      change = ⟨s.withCanvas { s.canvas with nodes := updateFirst id f s.canvas.nodes },
        .node (f n), true⟩ := by
  unfold update at ok
  split at ok
  · cases ok
  · rename_i n found
    cases ok
    exact ⟨n, found, rfl⟩

theorem remove_eq_ok (ok : s.remove id = .ok change) :
    ∃ n, s.node id = .ok n ∧
      change =
        ⟨s.withCanvas ⟨s.canvas.nodes.filter fun m => m.id != id,
            s.canvas.edges.filter fun e => e.source != id && e.target != id, none⟩,
          .nothing, true⟩ := by
  unfold remove at ok
  split at ok
  · cases ok
  · rename_i n found
    cases ok
    exact ⟨n, found, rfl⟩

theorem select_eq_ok {chosen : Option String} (ok : s.select chosen = .ok change) :
    (∀ id, chosen = some id → ∃ n, s.node id = .ok n) ∧
      change = s.showing { s.canvas with selected := chosen } := by
  cases chosen with
  | none =>
      cases ok
      exact ⟨by simp, rfl⟩
  | some id =>
      rw [select] at ok
      cases found : s.node id with
      | error e =>
          rw [found] at ok
          cases ok
      | ok n =>
          rw [found] at ok
          cases ok
          refine ⟨?_, rfl⟩
          intro other same
          cases same
          exact ⟨n, found⟩

end Nodes

section Edges

variable {s : Session} {source target : String} {change : Change}

theorem connect_eq_ok (ok : s.connect source target = .ok change) :
    (∃ n, s.node source = .ok n) ∧ (∃ n, s.node target = .ok n) ∧ source ≠ target ∧
      ((∃ e ∈ s.canvas.edges, change = s.look (.edge e)) ∨
        ∃ e : Canvas.Edge, e.source = source ∧ e.target = target ∧
          change =
            ⟨s.withCanvas { s.canvas with edges := s.canvas.edges ++ [e] }, .edge e, true⟩) := by
  unfold connect at ok
  split at ok
  · cases ok
  · cases ok
  · rename_i n m first second
    split at ok
    · cases ok
    · rename_i different
      refine ⟨⟨n, first⟩, ⟨m, second⟩, different, ?_⟩
      split at ok
      · rename_i e found
        cases ok
        exact .inl ⟨e, List.mem_of_find?_eq_some found, rfl⟩
      · cases ok
        exact .inr ⟨⟨_, source, target⟩, rfl, rfl, rfl⟩

end Edges

section Canvases

variable {s : Session} {change : Change}

theorem arrangeBy_eq_map {mode : Json} {nodes moved : List Canvas.Node} {edges : List Canvas.Edge}
    (ok : Canvas.arrangeBy mode nodes edges = .ok moved) :
    ∃ place : String → Position, moved = nodes.map fun n => { n with position := place n.id } := by
  unfold Canvas.arrangeBy at ok
  split at ok
  · rename_i none
    rw [List.isEmpty_iff.mp none]
    cases ok
    exact ⟨fun _ => .origin, rfl⟩
  · cases read : LayoutMode.ofJson mode with
    | error e =>
        rw [read] at ok
        cases ok
    | ok mode =>
        rw [read] at ok
        cases ok
        exact ⟨_, rfl⟩

theorem arrange_eq_ok {mode : Json} (ok : s.arrange mode = .ok change) :
    ∃ place : String → Position, change = s.showing { s.canvas with
      nodes := s.canvas.nodes.map fun n => { n with position := place n.id } } := by
  unfold arrange at ok
  split at ok
  · cases ok
  · rename_i moved
    cases ok
    obtain ⟨place, rfl⟩ := arrangeBy_eq_map moved
    exact ⟨place, rfl⟩

theorem drawable_eq_ok {confirmed : Bool} {g : Graph} (ok : s.drawable confirmed = .ok g) :
    ∃ generated, s.pending = some generated ∧ Graph.read generated.toJson = .ok g := by
  unfold drawable at ok
  split at ok
  · cases ok
  · rename_i generated pending
    split at ok
    · split at ok
      · rename_i read
        cases ok
        exact ⟨generated, pending, read⟩
      · cases ok
    · cases ok

theorem drawable_ne_store {confirmed : Bool} {fault : StoreFault} :
    s.drawable confirmed ≠ .error (.store fault) := by
  intro failed
  unfold drawable at failed
  split at failed
  · cases failed
  · split at failed
    · split at failed <;> cases failed
    · cases failed

theorem draw_eq_ok {confirmed : Bool} {ids rest : IdSupply}
    (ok : s.draw confirmed ids = (.ok change, rest)) :
    ∃ g, s.drawable confirmed = .ok g ∧ change = (s.supersede.replace g ids).1 := by
  unfold draw at ok
  split at ok
  · cases ok
  · rename_i g drawn
    cases ok
    exact ⟨g, drawn, rfl⟩

theorem draw_eq_error {confirmed : Bool} {ids rest : IdSupply} {e : Failure}
    (failed : s.draw confirmed ids = (.error e, rest)) : s.drawable confirmed = .error e := by
  unfold draw at failed
  split at failed
  · rename_i refused
    cases failed
    exact refused
  · cases failed

end Canvases

end Session

end PromptCanvas.Workspace
