import PromptCanvas.Proofs.Canvas.Storage

/-! # Edges without ends

`attached` are the edges of a canvas whose two ends are nodes that there are.  The others never
change the tiers (`tiers_attached`), nor where the walk goes from a node (`successors_attached`);
they can change where it begins, because a node that an edge from nowhere leads to is no node to
begin with.  `Grounded` says that no node is led to from nowhere only, which is exactly when the
transcript does not show them (`of_attached_iff`). -/

set_option autoImplicit false

namespace PromptCanvas

namespace Canvas

section Ends

variable {nodes : List Node} {edges : List Edge}

def attached (nodes : List Node) (edges : List Edge) : List Edge :=
  edges.filter fun e =>
    (nodes.map Node.id).contains e.source && (nodes.map Node.id).contains e.target

/-- A node that an edge leads to is led to from a node. -/
def Grounded (nodes : List Node) (edges : List Edge) : Prop :=
  ∀ n ∈ nodes, ∀ e ∈ edges, e.target = n.id →
    ∃ e' ∈ edges, e'.target = n.id ∧ e'.source ∈ nodes.map Node.id

theorem Grounded.congr {others : List Node} (grounded : Grounded nodes edges)
    (same : (others.map Node.id).Perm (nodes.map Node.id)) : Grounded others edges := by
  intro n listed e member into
  obtain ⟨m, onM, named⟩ := List.mem_map.mp (same.mem_iff.mp (List.mem_map_of_mem listed))
  obtain ⟨e', member', into', source⟩ := grounded m onM e member (into.trans named.symm)
  exact ⟨e', member', into'.trans named, same.mem_iff.mpr source⟩

theorem map_pair_attached (nodes : List Node) (edges : List Edge) :
    (attached nodes edges).map Edge.pair =
      Sweep.known (nodes.map Node.id) (edges.map Edge.pair) := by
  rw [Sweep.known, List.filter_map, attached]
  rfl

theorem tiers_attached (nodes : List Node) (edges : List Edge) :
    tiers (nodes.map Node.id) ((attached nodes edges).map Edge.pair) =
      tiers (nodes.map Node.id) (edges.map Edge.pair) := by
  have again : Sweep.known (nodes.map Node.id)
      (Sweep.known (nodes.map Node.id) (edges.map Edge.pair)) =
        Sweep.known (nodes.map Node.id) (edges.map Edge.pair) := by
    rw [Sweep.known, Sweep.known, List.filter_filter]
    simp only [Bool.and_self]
  rw [map_pair_attached, tiers, tiers, Sweep.finish, Sweep.finish, again]

theorem mem_attached {e : Edge} :
    e ∈ attached nodes edges ↔
      e ∈ edges ∧ e.source ∈ nodes.map Node.id ∧ e.target ∈ nodes.map Node.id := by
  rw [attached, List.mem_filter, Bool.and_eq_true, List.contains_iff_mem, List.contains_iff_mem]

theorem placesOf_eq_nil {id : String} (unknown : id ∉ nodes.map Node.id) :
    placesOf nodes id = [] := by
  rw [List.eq_nil_iff_forall_not_mem]
  intro i member
  obtain ⟨n, here, rfl⟩ := mem_placesOf.mp member
  exact unknown (List.mem_map_of_mem (List.mem_of_getElem? here))

theorem flatMap_filter_of_nil {α β : Type} {p : α → Bool} {f : α → List β} {l : List α}
    (none : ∀ a ∈ l, p a = false → f a = []) : (l.filter p).flatMap f = l.flatMap f := by
  induction l with
  | nil => rfl
  | cons a l ih =>
      obtain ⟨here, rest⟩ := List.forall_mem_cons.mp none
      rw [List.flatMap_cons, ← ih rest]
      cases kept : p a with
      | true => rw [List.filter_cons_of_pos kept, List.flatMap_cons]
      | false => rw [List.filter_cons_of_neg (by simp [kept]), here kept, List.nil_append]

theorem namedFrom_attached (nodes : List Node) (edges : List Edge) (place : Nat) :
    namedFrom nodes (attached nodes edges) place = namedFrom nodes edges place := by
  rw [namedFrom, namedFrom]
  cases here : nodes[place]? with
  | none => rfl
  | some n =>
      have listed := List.mem_map_of_mem (f := Node.id) (List.mem_of_getElem? here)
      simp only [attached, List.filter_comm (p := fun e : Edge => e.source == n.id)]
      refine flatMap_filter_of_nil fun e out dangling => placesOf_eq_nil fun known => ?_
      have source : e.source = n.id := beq_iff_eq.mp (List.mem_filter.mp out).2
      rw [source, List.contains_iff_mem.mpr listed, List.contains_iff_mem.mpr known] at dangling
      cases dangling

theorem successors_attached (nodes : List Node) (edges : List Edge) (place : Nat) :
    successors nodes (attached nodes edges) place = successors nodes edges place := by
  rw [successors_eq_sortPlaces, successors_eq_sortPlaces, namedFrom_attached]

theorem unaimed_attached (grounded : Grounded nodes edges) :
    unaimed nodes (attached nodes edges) = unaimed nodes edges := by
  refine List.filter_congr fun i inside => ?_
  have here := List.getElem?_eq_getElem (List.mem_range.mp inside)
  have listed := List.getElem_mem (List.mem_range.mp inside)
  rw [here, Option.any_some, Option.any_some, Bool.eq_iff_iff, List.all_eq_true, List.all_eq_true]
  constructor
  · intro free e member
    rw [bne_iff_ne]
    intro into
    obtain ⟨e', member', into', source⟩ := grounded _ listed e member into
    have known : e'.target ∈ nodes.map Node.id := into' ▸ List.mem_map_of_mem listed
    have apart := free e' (mem_attached.mpr ⟨member', source, known⟩)
    exact bne_iff_ne.mp apart into'
  · exact fun free e member => free e (mem_attached.mp member).1

theorem walk_attached (grounded : Grounded nodes edges) :
    walk nodes (attached nodes edges) = walk nodes edges := by
  have begun : roots nodes (attached nodes edges) = roots nodes edges := by
    rw [roots_eq, roots_eq]
    exact congrArg (sortPlaces nodes · ++ _) (unaimed_attached grounded)
  rw [walk, walk, begun, walkFrom_eq_search, walkFrom_eq_search,
    funext (successors_attached nodes edges)]

end Ends

section Beginning

/-- The walk begins with a node that no edge leads to, or if there is none with the first node. -/
theorem head?_walk (nodes : List Node) (edges : List Edge) :
    (walk nodes edges).head? = (entrances nodes edges ++ nodes).head? := by
  have begun : nodesAt nodes (roots nodes edges) = entrances nodes edges ++ nodes := by
    rw [roots_eq, nodesAt, List.filterMap_append, filterMap_range_getElem?]
    rfl
  have inside : ∀ i ∈ roots nodes edges, i ∈ List.range nodes.length := by
    intro i member
    rw [roots_eq] at member
    rcases List.mem_append.mp member with first | later
    · exact (List.mem_filter.mp (mem_sortPlaces.mp first)).1
    · exact later
  rw [walk, ← begun]
  cases stack : roots nodes edges with
  | nil => rw [walkFrom]
           rfl
  | cons i rest =>
      have new := inside i (stack ▸ List.mem_cons_self)
      have here := List.getElem?_eq_getElem (List.mem_range.mp new)
      rw [walkFrom, if_pos new, nodesAt, List.filterMap_cons_some here,
        List.filterMap_cons_some here]
      rfl

def summit (id : String) : Node := ⟨id, .user, "summit", [], .origin⟩

def foothill (id : String) : Node := ⟨id, .user, "", [], ⟨.zero, .finite false 1⟩⟩

def mountain (others : List String) (id : String) : List Node := others.map foothill ++ [summit id]

theorem ids_mountain (others : List String) (id : String) :
    (mountain others id).map Node.id = others ++ [id] := by
  rw [mountain, List.map_append, List.map_map]
  exact congrArg (· ++ [id]) (List.map_id others)

theorem heights_mountain {others : List String} {id : String} :
    ∀ n ∈ mountain others id, n.position.y.isNan = false := by
  intro n member
  rcases List.mem_append.mp member with low | top
  · obtain ⟨_, -, rfl⟩ := List.mem_map.mp low
    rfl
  · rw [List.mem_singleton.mp top]
    rfl

variable {edges : List Edge} {others : List String} {id : String}

theorem label_head_aimed (several : others ≠ []) (aimed : ∃ e ∈ edges, e.target = id) :
    (walk (mountain others id) edges).head?.map Node.label = some "" := by
  obtain ⟨other, more, rfl⟩ := List.exists_cons_of_ne_nil several
  rw [head?_walk]
  cases begun : entrances (mountain (other :: more) id) edges with
  | nil => rfl
  | cons n rest =>
      obtain ⟨listed, untouched⟩ := mem_entrances.mp (begun ▸ List.mem_cons_self)
      rcases List.mem_append.mp listed with low | top
      · obtain ⟨_, -, rfl⟩ := List.mem_map.mp low
        rfl
      · obtain ⟨e, member, into⟩ := aimed
        have named : n.id = id := by
          rw [List.mem_singleton.mp top]
          rfl
        have edge : Joins (edges.map Edge.pair) e.source n.id :=
          List.mem_map.mpr ⟨e, member, Prod.ext rfl (into.trans named.symm)⟩
        exact absurd edge (untouched e.source)

theorem label_head_unaimed (free : ∀ e ∈ edges, e.target ≠ id) :
    (walk (mountain others id) edges).head?.map Node.label = some "summit" := by
  have top : summit id ∈ entrances (mountain others id) edges := by
    refine mem_entrances.mpr ⟨List.mem_append_right _ (List.mem_singleton_self _), ?_⟩
    intro source edge
    obtain ⟨e, member, ends⟩ := List.mem_map.mp edge
    exact free e member (congrArg Prod.snd ends)
  have sorted : (entrances (mountain others id) edges).Pairwise fun a b =>
      a.position.rank ≤ b.position.rank := pairwise_entrances heights_mountain
  rw [head?_walk]
  cases begun : entrances (mountain others id) edges with
  | nil =>
      rw [begun] at top
      cases top
  | cons n rest =>
      rw [begun] at top sorted
      have first : n.position.rank ≤ (summit id).position.rank := by
        rcases List.mem_cons.mp top with same | later
        · exact same ▸ le_refl _
        · exact (List.pairwise_cons.mp sorted).1 _ later
      obtain ⟨listed, -⟩ := mem_entrances.mp (begun ▸ List.mem_cons_self)
      rcases List.mem_append.mp listed with low | high
      · obtain ⟨_, -, rfl⟩ := List.mem_map.mp low
        have below : ¬ Position.rank ⟨.zero, .finite false 1⟩ ≤ Position.origin.rank := by decide
        exact absurd first below
      · rw [List.mem_singleton.mp high]
        rfl

end Beginning

end Canvas

namespace Transcript

section Ends

open Canvas (Node Edge attached Grounded mountain)

theorem label_head_of_steps {nodes : List Node} {edges more : List Edge}
    (same : (of nodes more).steps = (of nodes edges).steps) :
    (Canvas.walk nodes more).head?.map Node.label =
      (Canvas.walk nodes edges).head?.map Node.label := by
  have labels : ∀ walked : List Node,
      ((walked.mapIdx stepAt).head?).map Step.label = walked.head?.map Node.label := by
    intro walked
    cases walked with
    | nil => rfl
    | cons n rest =>
        rw [List.mapIdx_cons]
        rfl
  rw [← labels, ← labels, ← steps_of, ← steps_of, same]

/-- Where the transcript does not show the edges that miss an end, they do not touch the top. -/
theorem exists_source_of_unseen {others : List String} {id : String} {edges : List Edge}
    (several : others ≠ []) (aimed : ∃ e ∈ edges, e.target = id)
    (unseen : (of (mountain others id) (attached (mountain others id) edges)).steps =
      (of (mountain others id) edges).steps) :
    ∃ e ∈ edges, e.target = id ∧ e.source ∈ others ++ [id] := by
  by_contra lost
  push Not at lost
  have free : ∀ e ∈ attached (mountain others id) edges, e.target ≠ id := by
    intro e kept into
    obtain ⟨listed, source, -⟩ := Canvas.mem_attached.mp kept
    exact lost e listed into (Canvas.ids_mountain others id ▸ source)
  have labels := label_head_of_steps unseen
  rw [Canvas.label_head_unaimed free, Canvas.label_head_aimed several aimed] at labels
  exact absurd labels (by decide)

/-- Edges that miss an end never change the tiers or where the walk goes on, and the transcripts
of nodes with some identifiers do not show them, however the nodes are placed and stored, exactly
if there is but one node or an edge from nowhere leads only to what another edge leads to from a
node. -/
theorem of_attached_iff (nodes : List Node) (edges : List Edge) :
    (tiers (nodes.map Node.id) ((attached nodes edges).map Edge.pair) =
        tiers (nodes.map Node.id) (edges.map Edge.pair) ∧
      ∀ place, Canvas.successors nodes (attached nodes edges) place =
        Canvas.successors nodes edges place) ∧
      ((∀ others : List Node, (others.map Node.id).Perm (nodes.map Node.id) →
          (of others (attached others edges)).steps = (of others edges).steps ∧
            (of others (attached others edges)).prompt = (of others edges).prompt) ↔
        nodes.length ≤ 1 ∨ Grounded nodes edges) := by
  refine ⟨⟨Canvas.tiers_attached nodes edges, Canvas.successors_attached nodes edges⟩, ?_, ?_⟩
  · intro unseen
    rw [or_iff_not_imp_left]
    intro several n listed e member into
    -- the node goes to the top of a mountain of the others
    have ids := List.perm_cons_erase (List.mem_map_of_mem (f := Node.id) listed)
    have rest : (nodes.map Node.id).erase n.id ≠ [] := by
      intro none
      have count := ids.length_eq
      rw [none, List.length_map, List.length_singleton] at count
      omega
    have same := (List.perm_append_singleton n.id ((nodes.map Node.id).erase n.id)).trans ids.symm
    have hidden := unseen (mountain ((nodes.map Node.id).erase n.id) n.id)
      ((Canvas.ids_mountain _ _).symm ▸ same)
    obtain ⟨e', member', into', source⟩ := exists_source_of_unseen rest ⟨e, member, into⟩ hidden.1
    exact ⟨e', member', into', same.mem_iff.mp source⟩
  · rintro (few | grounded) others same
    · have count := same.length_eq
      rw [List.length_map, List.length_map] at count
      exact of_congr (Canvas.walk_of_few (count ▸ few) (.refl others))
    · exact of_congr (Canvas.walk_attached (grounded.congr same))

def haunted : List Node :=
  [⟨"a", .user, "A", [⟨⟨"a text", .one⟩, "ia"⟩], .origin⟩,
    ⟨"b", .user, "B", [⟨⟨"b text", .one⟩, "ib"⟩], .origin⟩]

def ghostly : List Edge := [⟨"e", "ghost", "a"⟩]

/-- The edge lets the walk begin with the second node. -/
theorem of_haunted :
    (of haunted ghostly).steps.map Step.id = ["b", "a"] ∧
      (of haunted (attached haunted ghostly)).steps.map Step.id = ["a", "b"] := by
  have kept : attached haunted ghostly = [] := by decide
  have aimed : Canvas.roots haunted ghostly = [1, 0, 1] := by
    rw [Canvas.roots_eq]
    exact congrArg (· ++ [0, 1]) (Canvas.sortPlaces_singleton 1)
  have free : Canvas.roots haunted [] = [0, 1, 0, 1] := by
    have level : Canvas.sortPlaces haunted [0, 1] = [0, 1] :=
      List.mergeSort_of_pairwise (by decide)
    rw [Canvas.roots_eq]
    exact congrArg (· ++ [0, 1]) level
  have stops : ∀ i, Canvas.successors haunted [] i = [] := by
    intro i
    rw [Canvas.successors_eq_sortPlaces, Canvas.namedFrom]
    cases haunted[i]? with
    | none => exact List.mergeSort_nil
    | some n => exact List.mergeSort_nil
  have ends : ∀ i, Canvas.successors haunted ghostly i = [] := by
    intro i
    rw [← Canvas.successors_attached, kept, stops]
  have second : Canvas.walkFrom haunted ghostly [0, 1] [1, 0, 1] = [1, 0] := by
    simp [Canvas.walkFrom, ends]
  have first : Canvas.walkFrom haunted [] [0, 1] [0, 1, 0, 1] = [0, 1] := by
    simp [Canvas.walkFrom, stops]
  have ids : ∀ edges, (of haunted edges).steps.map Step.id =
      (Canvas.walk haunted edges).map Node.id := fun edges => map_id_stepsFrom _ _
  have places : List.range haunted.length = [0, 1] := by decide
  rw [kept, ids, ids, Canvas.walk, Canvas.walk, places, aimed, free, second, first]
  exact ⟨rfl, rfl⟩

end Ends

end Transcript

end PromptCanvas
