import Mathlib.Data.Prod.Lex
import PromptCanvas.Proofs.Canvas.Walk
import PromptCanvas.Proofs.Order.StableSort

/-! # The walk as a depth-first search

`search`: the search that emits a place before it goes on, one after another, from the
places that it leads to.  The walk with its stack is that search (`walkFrom_append`): the
stack holds what the search still has to come back to.  In reading order the search
begins with the nodes that no edge leads to and then tries all, so the transcript has a
step for every node (`walk_depthFirst`). -/

set_option autoImplicit false

namespace PromptCanvas

section Searching

/-- What a search has emitted, and what it has left of the places that were unvisited. -/
structure Search (unvisited : List Nat) where
  emitted : List Nat
  left : List Nat
  shrinks : left.length ≤ unvisited.length

variable (next : Nat → List Nat)

/-- Goes to the places of a list in turn and skips those that were visited meanwhile; a place
is emitted, and the search goes on from it, before the rest of the list. -/
def search (unvisited places : List Nat) : Search unvisited :=
  match places with
  | [] => ⟨[], unvisited, Nat.le_refl _⟩
  | place :: rest =>
      if place ∈ unvisited then
        let below := search (unvisited.erase place) (next place)
        let after := search below.left rest
        have shrinks := after.shrinks.trans (below.shrinks.trans List.length_erase_le)
        ⟨place :: (below.emitted ++ after.emitted), after.left, shrinks⟩
      else search unvisited rest
termination_by (unvisited.length, places.length)
decreasing_by
  · have := List.length_erase_of_mem ‹place ∈ unvisited›
    have := List.length_pos_of_mem ‹place ∈ unvisited›
    exact Prod.Lex.left _ _ (by omega)
  · have := List.length_erase_of_mem ‹place ∈ unvisited›
    have := List.length_pos_of_mem ‹place ∈ unvisited›
    exact Prod.Lex.left _ _ (Nat.lt_of_le_of_lt (Search.shrinks _) (by omega))
  · exact Prod.Lex.right _ (by simp)

theorem search_perm (unvisited places : List Nat) :
    ((search next unvisited places).emitted ++ (search next unvisited places).left).Perm
      unvisited := by
  fun_induction search next unvisited places with
  | case1 unvisited => exact .refl _
  | case2 unvisited place rest fresh below after shrinks inner outer =>
      have kept : (below.emitted ++ (after.emitted ++ after.left)).Perm (unvisited.erase place) :=
        (outer.append_left below.emitted).trans inner
      rw [← List.append_assoc] at kept
      exact (kept.cons place).trans (List.perm_cons_erase fresh).symm
  | case3 unvisited place rest old ih => exact ih

theorem not_mem_left {unvisited : List Nat} (distinct : unvisited.Nodup) (places : List Nat) :
    ∀ place ∈ places, place ∉ (search next unvisited places).left := by
  fun_induction search next unvisited places with
  | case1 unvisited => simp
  | case2 unvisited place rest fresh below after shrinks inner outer =>
      have part := (search_perm next (unvisited.erase place) (next place)).nodup_iff.mpr
        (distinct.erase place)
      have remains : after.left ⊆ below.left := fun p member =>
        (search_perm next below.left rest).subset (List.mem_append_right _ member)
      have remained : below.left ⊆ unvisited.erase place := fun p member =>
        (search_perm next (unvisited.erase place) (next place)).subset
          (List.mem_append_right _ member)
      intro p member
      rcases List.mem_cons.mp member with rfl | later
      · exact fun still => distinct.not_mem_erase (remained (remains still))
      · exact outer (List.nodup_append.mp part).2.1 p later
  | case3 unvisited place rest old ih =>
      intro p member
      rcases List.mem_cons.mp member with rfl | later
      · intro still
        exact old ((search_perm next unvisited rest).subset (List.mem_append_right _ still))
      · exact ih distinct p later

theorem next_not_mem_left {unvisited : List Nat} (distinct : unvisited.Nodup)
    (places : List Nat) : ∀ place ∈ (search next unvisited places).emitted, ∀ led ∈ next place,
      led ∉ (search next unvisited places).left := by
  fun_induction search next unvisited places with
  | case1 unvisited => simp
  | case2 unvisited place rest fresh below after shrinks inner outer =>
      have part := (search_perm next (unvisited.erase place) (next place)).nodup_iff.mpr
        (distinct.erase place)
      have remains : after.left ⊆ below.left := fun p member =>
        (search_perm next below.left rest).subset (List.mem_append_right _ member)
      intro p member led goes still
      rcases List.mem_cons.mp member with rfl | later
      · exact not_mem_left next (distinct.erase p) (next p) led goes (remains still)
      · rcases List.mem_append.mp later with deeper | later
        · exact inner (distinct.erase place) p deeper led goes (remains still)
        · exact outer (List.nodup_append.mp part).2.1 p later led goes still
  | case3 unvisited place rest old ih => exact ih distinct

theorem search_emits_all {unvisited : List Nat} (distinct : unvisited.Nodup) (places : List Nat) :
    (search next unvisited (places ++ unvisited)).emitted.Perm unvisited := by
  have whole := search_perm next unvisited (places ++ unvisited)
  have none : (search next unvisited (places ++ unvisited)).left = [] := by
    rw [List.eq_nil_iff_forall_not_mem]
    intro place still
    have member := whole.subset (List.mem_append_right _ still)
    exact not_mem_left next distinct _ place (List.mem_append_right _ member) still
  rwa [none, List.append_nil] at whole

end Searching

section Reading

def Position.rank (p : Position) : Int ×ₗ Int := toLex (p.y.key, p.x.key)

theorem Position.rank_lt_iff {p q : Position} :
    p.rank < q.rank ↔ p.y.key < q.y.key ∨ p.y.key = q.y.key ∧ p.x.key < q.x.key := by
  rw [rank, rank, Prod.Lex.toLex_lt_toLex]

structure Position.IsNumber (p : Position) : Prop where
  x : p.x.isNan = false
  y : p.y.isNan = false

theorem Position.before_eq {p q : Position} (first : p.y.isNan = false)
    (second : q.y.isNan = false) : p.before q = decide (p.rank ≤ q.rank) := by
  have level : p.y.eq q.y = decide (p.y.key = q.y.key) := by
    simp [Binary64.eq, first, second]
  rw [Position.before, level]
  by_cases same : p.y.key = q.y.key
  · simp [same, Position.rank, Prod.Lex.toLex_le_toLex, Binary64.le]
  · have above : p.y.key ≤ q.y.key ↔ p.y.key < q.y.key := by omega
    simp [same, Position.rank, Prod.Lex.toLex_le_toLex, Binary64.le, above]

end Reading

namespace Canvas

section Walking

variable (nodes : List Node) (edges : List Edge)

/-- The walk comes to what is deeper in its stack when the search is done with what is above. -/
theorem walkFrom_append (unvisited places : List Nat) :
    ∀ rest, walkFrom nodes edges unvisited (places ++ rest) =
      (search (successors nodes edges) unvisited places).emitted ++
        walkFrom nodes edges (search (successors nodes edges) unvisited places).left rest := by
  fun_induction search (successors nodes edges) unvisited places with
  | case1 unvisited => exact fun rest => rfl
  | case2 unvisited place others fresh below after shrinks inner outer =>
      intro rest
      rw [List.cons_append, walkFrom, if_pos fresh, inner, outer]
      simp only [below, after, List.cons_append, List.append_assoc]
  | case3 unvisited place others old ih =>
      intro rest
      rw [List.cons_append, walkFrom, if_neg old, ih]

theorem walkFrom_eq_search (unvisited places : List Nat) :
    walkFrom nodes edges unvisited places =
      (search (successors nodes edges) unvisited places).emitted := by
  have whole := walkFrom_append nodes edges unvisited places []
  rwa [List.append_nil, walkFrom, List.append_nil] at whole

end Walking

section Order

variable (nodes : List Node) (edges : List Edge)

/-- The rank of the node at a place; a place beyond the last counts as the origin. -/
def rankAt (place : Nat) : Int ×ₗ Int :=
  match nodes[place]? with
  | some n => n.position.rank
  | none => Position.origin.rank

def namedFrom (place : Nat) : List Nat :=
  match nodes[place]? with
  | some n => (edges.filter fun e => e.source == n.id).flatMap fun e => placesOf nodes e.target
  | none => []

def unaimed : List Nat :=
  (List.range nodes.length).filter fun place =>
    (nodes[place]?).any fun n => edges.all fun e => e.target != n.id

/-- The search that begins at the unaimed nodes and then tries all nodes as they stand. -/
def depthFirst (sort : List Nat → List Nat) : List Nat :=
  (search (fun place => sort (namedFrom nodes edges place)) (List.range nodes.length)
    (sort (unaimed nodes edges) ++ List.range nodes.length)).emitted

variable {nodes}

theorem sortedBy_sortPlaces (heights : ∀ n ∈ nodes, n.position.y.isNan = false)
    {places : List Nat} (inside : ∀ place ∈ places, place < nodes.length) :
    SortedBy (rankAt nodes) places (sortPlaces nodes places) := by
  apply sortedBy_mergeSort
  intro i first j second
  have onI := List.getElem?_eq_getElem (inside i first)
  have onJ := List.getElem?_eq_getElem (inside j second)
  simp only [onI, onJ, rankAt]
  exact Position.before_eq (heights _ (List.getElem_mem _)) (heights _ (List.getElem_mem _))

theorem successors_eq_sortPlaces (place : Nat) :
    successors nodes edges place = sortPlaces nodes (namedFrom nodes edges place) := by
  rw [successors, namedFrom]
  cases nodes[place]? with
  | none => exact List.mergeSort_nil.symm
  | some n => rfl

theorem lt_of_mem_namedFrom {place i : Nat} (member : i ∈ namedFrom nodes edges place) :
    i < nodes.length := by
  unfold namedFrom at member
  split at member
  · obtain ⟨e, -, named⟩ := List.mem_flatMap.mp member
    exact List.mem_range.mp (List.mem_filter.mp named).1
  · cases member

variable (numbers : ∀ n ∈ nodes, n.position.IsNumber) {sort : List Nat → List Nat}
  (stable : ∀ places, SortedBy (rankAt nodes) places (sort places))

include numbers stable in
theorem successors_eq_sort (place : Nat) :
    successors nodes edges place = sort (namedFrom nodes edges place) := by
  have inside : ∀ i ∈ namedFrom nodes edges place, i < nodes.length := fun i =>
    lt_of_mem_namedFrom edges
  have heights := fun n member => (numbers n member).y
  rw [← (sortedBy_sortPlaces heights inside).unique (stable _)]
  exact successors_eq_sortPlaces edges place

include numbers stable in
theorem roots_eq_sort :
    roots nodes edges = sort (unaimed nodes edges) ++ List.range nodes.length := by
  have inside : ∀ place ∈ unaimed nodes edges, place < nodes.length := fun place member =>
    List.mem_range.mp (List.mem_filter.mp member).1
  have heights := fun n member => (numbers n member).y
  rw [← (sortedBy_sortPlaces heights inside).unique (stable _)]
  exact roots_eq

end Order

end Canvas

namespace Transcript

section Steps

def stepAt (index : Nat) (n : Canvas.Node) : Step :=
  ⟨index + 1, n.id, n.role, n.label, n.content⟩

theorem stepsFrom_eq_mapIdx (nodes : List Canvas.Node) :
    ∀ first, stepsFrom (first + 1) nodes = nodes.mapIdx fun index => stepAt (first + index) := by
  induction nodes with
  | nil => intro first; rfl
  | cons n nodes ih =>
      intro first
      rw [stepsFrom, ih, List.mapIdx_cons]
      simp only [stepAt, Nat.add_zero, Nat.add_assoc, Nat.add_comm 1]

theorem steps_of (nodes : List Canvas.Node) (edges : List Canvas.Edge) :
    (of nodes edges).steps = (Canvas.walk nodes edges).mapIdx stepAt := by
  have steps := stepsFrom_eq_mapIdx (Canvas.walk nodes edges) 0
  simp only [Nat.zero_add] at steps
  cases nodes with
  | nil =>
      rw [Canvas.walk, List.length_nil, List.range_zero, Canvas.walkFrom_nil]
      rfl
  | cons n nodes => exact steps

end Steps

end Transcript

namespace Canvas

section Search

/-- The walk is the depth-first search in reading order, whichever way is taken to sort by it, and
its transcript has one step for every node of the list. -/
theorem walk_depthFirst {nodes : List Node} (numbers : ∀ n ∈ nodes, n.position.IsNumber)
    (edges : List Edge) {sort : List Nat → List Nat}
    (stable : ∀ places, SortedBy (rankAt nodes) places (sort places)) :
    walkFrom nodes edges (List.range nodes.length) (roots nodes edges) =
        depthFirst nodes edges sort ∧
      (depthFirst nodes edges sort).Perm (List.range nodes.length) ∧
        (Transcript.of nodes edges).steps =
            ((depthFirst nodes edges sort).filterMap (nodes[·]?)).mapIdx Transcript.stepAt ∧
          (Transcript.of nodes edges).steps.map Transcript.Step.step =
            List.range' 1 nodes.length := by
  have next : successors nodes edges = fun place => sort (namedFrom nodes edges place) :=
    funext (successors_eq_sort edges numbers stable)
  have same : walkFrom nodes edges (List.range nodes.length) (roots nodes edges) =
      depthFirst nodes edges sort := by
    rw [walkFrom_eq_search, next, roots_eq_sort edges numbers stable, depthFirst]
  have all : (depthFirst nodes edges sort).Perm (List.range nodes.length) :=
    search_emits_all _ List.nodup_range _
  have steps := Transcript.steps_of nodes edges
  rw [walk, same] at steps
  have count : ((depthFirst nodes edges sort).filterMap (nodes[·]?)).length = nodes.length := by
    have nodesPerm := all.filterMap (nodes[·]?)
    rw [filterMap_range_getElem?] at nodesPerm
    exact nodesPerm.length_eq
  refine ⟨same, all, steps, ?_⟩
  rw [steps, List.range'_eq_map_range, ← count]
  apply List.ext_getElem (by simp)
  intro i _ _
  simp [Transcript.stepAt, Nat.add_comm]

def doubled : List Node :=
  [⟨"a", .user, "", [], .origin⟩, ⟨"b", .user, "", [], .origin⟩, ⟨"a", .user, "", [], .origin⟩]

def returning : List Edge := [⟨"1", "a", "b"⟩, ⟨"2", "b", "a"⟩, ⟨"3", "a", "a"⟩, ⟨"4", "a", "c"⟩]

def mergeByRank (nodes : List Node) (places : List Nat) : List Nat :=
  places.mergeSort fun i j => rankAt nodes i ≤ rankAt nodes j

theorem walk_depthFirst_returning :
    walkFrom doubled returning [0, 1, 2] (roots doubled returning) =
        depthFirst doubled returning (mergeByRank doubled) ∧
      (depthFirst doubled returning (mergeByRank doubled)).Perm [0, 1, 2] ∧
        (Transcript.of doubled returning).steps =
            ((depthFirst doubled returning (mergeByRank doubled)).filterMap (doubled[·]?)).mapIdx
              Transcript.stepAt ∧
          (Transcript.of doubled returning).steps.map Transcript.Step.step = [1, 2, 3] := by
  have numbers : ∀ n ∈ doubled, n.position.IsNumber := by
    intro n member
    have here : n.position = .origin := by
      simp only [doubled, List.mem_cons, List.not_mem_nil, or_false] at member
      rcases member with rfl | rfl | rfl <;> rfl
    rw [here]
    exact ⟨rfl, rfl⟩
  have stable : ∀ places, SortedBy (rankAt doubled) places (mergeByRank doubled places) :=
    fun places => sortedBy_mergeSort fun _ _ _ _ => rfl
  exact walk_depthFirst numbers returning stable

end Search

end Canvas

end PromptCanvas
