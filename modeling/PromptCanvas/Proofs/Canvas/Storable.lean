import PromptCanvas.Proofs.Canvas.Restoring
import PromptCanvas.Proofs.Number.RoundTrip

/-! # Canvases that a store gives back

A canvas whose positions are numbers of the format is the same in a file as in memory
(`Storage.kept_exact`).  If besides its lists are named and its selection is one of its nodes,
whatever identifiers the nodes have, then a session that opens on its document shows the canvas
again, with a selection (`Storable.complete_restore`).  What is drawn and arranged is such a
canvas. -/

set_option autoImplicit false

namespace PromptCanvas

open Binary64 (representable_ofNat)

structure Position.Exact (p : Position) : Prop where
  x : p.x.Representable
  y : p.y.Representable

namespace Canvas

section Positions

def Exact (c : Canvas) : Prop := ∀ n ∈ c.nodes, n.position.Exact

theorem Exact.reread {c : Canvas} (exact : c.Exact) : c.reread = c := by
  have same : c.nodes.map Node.reread = c.nodes.map id := by
    refine List.map_congr_left fun n member => ?_
    rw [Node.reread, (exact n member).x.reread, (exact n member).y.reread, id]
  rw [Canvas.reread, same, List.map_id]

theorem exact_ofNat (x y : Nat) : Position.Exact ⟨.ofNat x, .ofNat y⟩ := by
  constructor
  case x =>
    dsimp only
    exact representable_ofNat x
  case y =>
    dsimp only
    exact representable_ofNat y

theorem exact_cell (column row : Nat) : (Layout.cell column row).Exact := by
  rw [Layout.cell]
  exact exact_ofNat _ _

theorem exact_tierPosition (mode : LayoutMode) (given : List (String × Nat)) (ids : List String)
    (id : String) : (Layout.tierPosition mode given ids id).Exact := by
  cases mode <;> exact exact_cell _ _

theorem exact_arranged (mode : LayoutMode) (nodes : List Node) (edges : List (String × String))
    (id : String) : (arranged mode nodes edges id).Exact := by
  cases mode with
  | grid => exact exact_cell _ _
  | vertical => exact exact_tierPosition _ _ _ _
  | horizontal => exact exact_tierPosition _ _ _ _

theorem exact_arrangeBy {mode : Json} {nodes moved : List Node} {edges : List Edge}
    (ok : arrangeBy mode nodes edges = .ok moved) : ∀ n ∈ moved, n.position.Exact := by
  unfold arrangeBy at ok
  split at ok
  · cases ok
    simp
  · cases read : LayoutMode.ofJson mode with
    | error e =>
        rw [read] at ok
        cases ok
    | ok mode =>
        rw [read] at ok
        cases ok
        intro n member
        obtain ⟨m, -, rfl⟩ := List.mem_map.mp member
        exact exact_arranged _ _ _ _

end Positions

end Canvas

namespace Workspace

section Files

variable {c : Canvas}

theorem Storage.kept_exact (storage : Storage) (exact : c.Exact) : storage.kept c = c := by
  cases storage with
  | memory => rfl
  | files => exact exact.reread

theorem Document.read_exact (storage : Storage) (exact : c.Exact) :
    (Document.write storage c.toJson).read = c.toJson := by
  rw [Document.read_write, storage.kept_exact exact]

end Files

end Workspace

namespace Canvas

/-- What a store needs of a canvas to give it back. -/
structure Storable (c : Canvas) : Prop where
  chosen : ∀ id, c.selected = some id → id ∈ c.ids
  listed : ∀ n ∈ c.nodes, Listed n.items
  exact : c.Exact

section Canvases

variable {c : Canvas}

theorem storable_empty : empty.Storable := by
  constructor
  case chosen => simp [empty]
  case listed => simp [empty]
  case exact => simp [empty, Exact]

theorem Storable.withNodes (storable : c.Storable) {nodes : List Node}
    (sameIds : nodes.map Node.id = c.ids) (listed : ∀ n ∈ nodes, Listed n.items)
    (exact : ∀ n ∈ nodes, n.position.Exact) : Storable { c with nodes := nodes } := by
  refine ⟨?_, listed, exact⟩
  intro id same
  rw [ids]
  dsimp only
  rw [sameIds]
  exact storable.chosen id same

theorem Storable.select (storable : c.Storable) {chosen : Option String}
    (known : ∀ id, chosen = some id → id ∈ c.ids) : Storable { c with selected := chosen } :=
  ⟨known, storable.listed, storable.exact⟩

theorem Storable.withSelection (storable : c.Storable) : c.withSelection.Storable :=
  storable.select (chosen_withSelection storable.chosen)

theorem withSelection_withSelection (c : Canvas) :
    c.withSelection.withSelection = c.withSelection := by
  rw [withSelection, withSelection]
  dsimp only
  rw [Option.or_assoc, Option.or_self]

/-- A session that opens on the document of a canvas shows the canvas, with a selection. -/
theorem Storable.complete_restore (storable : c.Storable) (ids : IdSupply) :
    (restore c.toJson).complete ids = (c.withSelection, ids) := by
  rw [restore_toJson storable.listed storable.chosen, complete_sketch]

end Canvases

structure Sketch.Storable (s : Sketch) : Prop where
  chosen : ∀ id, s.selected = some id → id ∈ s.nodes.map NodeDraft.id
  nonempty : ∀ d ∈ s.nodes, d.items ≠ []
  named : ∀ d ∈ s.nodes, ∀ i ∈ d.items, i.id ≠ some ""
  exact : ∀ d ∈ s.nodes, d.position.Exact

section Sketches

theorem positions_completeNodes (ds : List NodeDraft) :
    ∀ ids, (completeNodes ds ids).1.map Node.position = ds.map NodeDraft.position := by
  induction ds with
  | nil => intro ids; rfl
  | cons d ds ih =>
      intro ids
      simp only [completeNodes, List.map_cons, ih]
      rfl

theorem Sketch.Storable.complete {s : Sketch} (storable : s.Storable) (ids : IdSupply) :
    (s.complete ids).1.Storable := by
  constructor
  case chosen =>
    have sameIds : (s.complete ids).1.ids = s.nodes.map NodeDraft.id :=
      ids_completeNodes s.nodes ids
    rw [sameIds]
    exact storable.chosen
  case listed => exact listed_completeNodes s.nodes storable.nonempty storable.named ids
  case exact =>
    intro n member
    have placed : n.position ∈ (completeNodes s.nodes ids).1.map Node.position :=
      List.mem_map_of_mem member
    rw [positions_completeNodes] at placed
    obtain ⟨d, drafted, same⟩ := List.mem_map.mp placed
    exact same ▸ storable.exact d drafted

theorem storable_initial : initial.Storable := by
  constructor
  case chosen => exact wellFormed_initial.wired.chosen
  case nonempty => exact wellFormed_initial.nonempty
  case named => exact wellFormed_initial.named
  case exact =>
    intro d member
    simp only [initial, List.mem_cons, List.not_mem_nil, or_false] at member
    rcases member with rfl | rfl
    · exact exact_ofNat 120 120
    · exact exact_ofNat 420 300

theorem exact_place (g : Graph) (id : String) : (g.place id).Exact := by
  rw [Graph.place]
  exact exact_tierPosition _ _ _ _

theorem storable_layOut (g : Graph) : g.layOut.Storable := by
  constructor
  case chosen => exact fun id same => Graph.chosen_layOut g same
  case nonempty => exact fun d member => (Graph.items_layOut member).1
  case named => exact fun d member => (Graph.items_layOut member).2
  case exact =>
    intro d member
    obtain ⟨n, id, rfl⟩ := Graph.mem_nodes_layOut member
    exact exact_place g id

end Sketches

end Canvas

end PromptCanvas
