import PromptCanvas.Proofs.Canvas.Search
import PromptCanvas.Proofs.Order.Preorder

/-! # The order of storage

On a canvas without cycles the walk comes to every node from the nodes that no edge leads to
(`walkFrom_roots`), so it never falls back on the order in which the nodes are stored; and
where reading order tells all positions apart, it settles what is visited next.  So the
transcript is the same however nodes and edges are stored (`of_restored`). -/

set_option autoImplicit false

namespace PromptCanvas

section Places

def Binary64.Less (a b : Binary64) : Prop :=
  a.isNan = false ∧ b.isNan = false ∧ a.key < b.key

instance (a b : Binary64) : Decidable (a.Less b) :=
  inferInstanceAs (Decidable (a.isNan = false ∧ b.isNan = false ∧ a.key < b.key))

namespace Position

/-- The one position is above the other, or on its height and to the left. -/
def Precedes (p q : Position) : Prop := p.y.Less q.y ∨ p.y.eq q.y = true ∧ p.x.Less q.x

instance (p q : Position) : Decidable (p.Precedes q) :=
  inferInstanceAs (Decidable (p.y.Less q.y ∨ p.y.eq q.y = true ∧ p.x.Less q.x))

/-- Reading order tells the positions apart. -/
def Apart (p q : Position) : Prop := p.Precedes q ∨ q.Precedes p

instance (p q : Position) : Decidable (p.Apart q) :=
  inferInstanceAs (Decidable (p.Precedes q ∨ q.Precedes p))

variable {p q : Position}

theorem Apart.symm (apart : p.Apart q) : q.Apart p := Or.symm apart

theorem Precedes.heights (first : p.Precedes q) : p.y.isNan = false ∧ q.y.isNan = false := by
  rcases first with ⟨onP, onQ, -⟩ | ⟨level, -⟩
  · exact ⟨onP, onQ⟩
  · simp only [Binary64.eq, Bool.and_eq_true, Bool.not_eq_true'] at level
    exact level.1

theorem Precedes.rank_lt (first : p.Precedes q) : p.rank < q.rank := by
  rw [rank_lt_iff]
  rcases first with ⟨-, -, above⟩ | ⟨level, -, -, left⟩
  · exact Or.inl above
  · simp only [Binary64.eq, Bool.and_eq_true, decide_eq_true_eq] at level
    exact Or.inr ⟨level.2, left⟩

theorem Precedes.of_rank_lt (first : p.IsNumber) (second : q.IsNumber) (less : p.rank < q.rank) :
    p.Precedes q := by
  rcases rank_lt_iff.mp less with above | ⟨level, left⟩
  · exact Or.inl ⟨first.y, second.y, above⟩
  · refine Or.inr ⟨?_, first.x, second.x, left⟩
    simp [Binary64.eq, first.y, second.y, level]

theorem Apart.height (apart : p.Apart q) : p.y.isNan = false := by
  rcases apart with first | second
  · exact first.heights.1
  · exact second.heights.2

theorem Apart.rank_ne (apart : p.Apart q) : p.rank ≠ q.rank := by
  rcases apart with first | second
  · exact first.rank_lt.ne
  · exact second.rank_lt.ne'

end Position

end Places

namespace Canvas

section Reaching

variable {nodes : List Node} {edges : List Edge}

theorem mem_sortPlaces {i : Nat} {places : List Nat} : i ∈ sortPlaces nodes places ↔ i ∈ places :=
  (List.mergeSort_perm _ _).mem_iff

theorem mem_placesOf {i : Nat} {id : String} :
    i ∈ placesOf nodes id ↔ ∃ n, nodes[i]? = some n ∧ n.id = id := by
  rw [placesOf, List.mem_filter, beq_iff_eq, Option.map_eq_some_iff, List.mem_range]
  constructor
  · exact And.right
  · rintro ⟨n, here, named⟩
    exact ⟨(List.getElem?_eq_some_iff.mp here).1, n, here, named⟩

theorem mem_successors {i j : Nat} {n : Node} (place : nodes[i]? = some n) :
    j ∈ successors nodes edges i ↔
      ∃ m, nodes[j]? = some m ∧ Joins (edges.map Edge.pair) n.id m.id := by
  rw [successors_eq place, mem_sortPlaces, List.mem_flatMap]
  simp only [Sweep.mem_targets, mem_placesOf]
  constructor
  · rintro ⟨_, edge, m, there, rfl⟩
    exact ⟨m, there, edge⟩
  · rintro ⟨m, there, edge⟩
    exact ⟨m.id, edge, m, there, rfl⟩

theorem mem_unaimed {i : Nat} :
    i ∈ unaimed nodes edges ↔
      ∃ n, nodes[i]? = some n ∧ ∀ id, ¬ Joins (edges.map Edge.pair) id n.id := by
  rw [unaimed, List.mem_filter, List.mem_range, Option.any_eq_true]
  simp only [List.all_eq_true, bne_iff_ne]
  constructor
  · rintro ⟨-, n, here, untouched⟩
    refine ⟨n, here, fun id edge => ?_⟩
    obtain ⟨e, member, ends⟩ := List.mem_map.mp edge
    exact untouched e member (congrArg Prod.snd ends)
  · rintro ⟨n, here, untouched⟩
    refine ⟨(List.getElem?_eq_some_iff.mp here).1, n, here, fun e member into => ?_⟩
    exact untouched e.source (List.mem_map.mpr ⟨e, member, Prod.ext rfl into⟩)

variable (closed : ∀ e ∈ edges, e.source ∈ nodes.map Node.id ∧ e.target ∈ nodes.map Node.id)
  (acyclic : Acyclic (edges.map Edge.pair))

include closed acyclic in
/-- From the nodes that no edge leads to, the search comes to all of them. -/
theorem left_search_unaimed :
    (search (successors nodes edges) (List.range nodes.length)
      (sortPlaces nodes (unaimed nodes edges))).left = [] := by
  have ends : ∀ e ∈ edges.map Edge.pair, e.1 ∈ nodes.map Node.id ∧ e.2 ∈ nodes.map Node.id :=
    List.forall_mem_map.mpr closed
  have whole := search_perm (successors nodes edges) (List.range nodes.length)
    (sortPlaces nodes (unaimed nodes edges))
  have visited : ∀ id i n, nodes[i]? = some n → n.id = id →
      i ∉ (search (successors nodes edges) (List.range nodes.length)
        (sortPlaces nodes (unaimed nodes edges))).left := by
    intro id
    -- along the edges into a node one comes to a node that no edge leads to
    induction id using (acyclic.wellFounded ends).induction with
    | _ id ih =>
        rintro i n here rfl
        by_cases entered : ∃ id, Joins (edges.map Edge.pair) id n.id
        · obtain ⟨id, edge⟩ := entered
          obtain ⟨m, member, named⟩ := List.mem_map.mp (ends _ edge).1
          obtain ⟨j, inside, there⟩ := List.getElem_of_mem member
          have place : nodes[j]? = some m := by rw [List.getElem?_eq_getElem inside, there]
          have before := ih id edge j m place named
          have emitted := (List.mem_append.mp (whole.mem_iff.mpr (List.mem_range.mpr inside))).resolve_right
            before
          refine next_not_mem_left _ List.nodup_range _ j emitted i ?_
          exact (mem_successors place).mpr ⟨n, here, named ▸ edge⟩
        · refine not_mem_left _ List.nodup_range _ i (mem_sortPlaces.mpr (mem_unaimed.mpr ?_))
          exact ⟨n, here, not_exists.mp entered⟩
  rw [List.eq_nil_iff_forall_not_mem]
  intro i still
  have inside := List.mem_range.mp (whole.subset (List.mem_append_right _ still))
  exact visited _ i nodes[i] (List.getElem?_eq_getElem inside) rfl still

include closed acyclic in
/-- The walk is at its end before it comes to the nodes as they are stored. -/
theorem walkFrom_roots :
    walkFrom nodes edges (List.range nodes.length) (roots nodes edges) =
      walkFrom nodes edges (List.range nodes.length) (sortPlaces nodes (unaimed nodes edges)) := by
  have sorted : roots nodes edges =
      sortPlaces nodes (unaimed nodes edges) ++ List.range nodes.length := roots_eq
  rw [sorted, walkFrom_append, left_search_unaimed closed acyclic, walkFrom_nil, List.append_nil,
    walkFrom_eq_search]

end Reaching

section Naming

variable (nodes : List Node) (edges : List Edge)

def nodesAt (places : List Nat) : List Node := places.filterMap (nodes[·]?)

def following (n : Node) : List Node := nodesAt nodes (successors nodes edges (nodes.idxOf n))

def entrances : List Node := nodesAt nodes (sortPlaces nodes (unaimed nodes edges))

variable {nodes}

theorem mem_nodesAt {n : Node} {places : List Nat} :
    n ∈ nodesAt nodes places ↔ ∃ i ∈ places, nodes[i]? = some n := List.mem_filterMap

theorem nodesAt_erase (distinct : nodes.Nodup) {places : List Nat} (once : places.Nodup) {i : Nat}
    {n : Node} (here : nodes[i]? = some n) :
    (nodesAt nodes (places.erase i)).toFinset = (nodesAt nodes places).toFinset.erase n := by
  ext m
  rw [List.mem_toFinset, mem_nodesAt, Finset.mem_erase, List.mem_toFinset, mem_nodesAt]
  constructor
  · rintro ⟨j, member, there⟩
    obtain ⟨other, listed⟩ := once.mem_erase_iff.mp member
    refine ⟨?_, j, listed, there⟩
    rintro rfl
    obtain ⟨inside, -⟩ := List.getElem?_eq_some_iff.mp there
    exact other ((List.getElem?_inj inside distinct).mp (there.trans here.symm))
  · rintro ⟨other, j, listed, there⟩
    refine ⟨j, once.mem_erase_iff.mpr ⟨?_, listed⟩, there⟩
    rintro rfl
    exact other (Option.some.inj (there.symm.trans here))

/-- The walk over places is the search among nodes. -/
theorem nodesAt_walkFrom (distinct : nodes.Nodup) (unvisited stack : List Nat) :
    unvisited.Nodup → (∀ i ∈ unvisited, i < nodes.length) →
      nodesAt nodes (walkFrom nodes edges unvisited stack) =
        preorder (following nodes edges) (nodesAt nodes unvisited).toFinset
          (nodesAt nodes stack) := by
  fun_induction walkFrom nodes edges unvisited stack with
  | case1 =>
      intro _ _
      exact (preorder.eq_1 _ _).symm
  | case2 unvisited i rest new ih =>
      intro once inside
      have within := inside i new
      have here : nodes[i]? = some nodes[i] := List.getElem?_eq_getElem within
      have remaining : ∀ j ∈ unvisited.erase i, j < nodes.length := fun j member =>
        inside j (List.mem_of_mem_erase member)
      have led : nodesAt nodes (successors nodes edges i ++ rest) =
          following nodes edges nodes[i] ++ nodesAt nodes rest := by
        rw [nodesAt, List.filterMap_append, following, distinct.idxOf_getElem i within]
        rfl
      have fresh : nodes[i] ∈ (nodesAt nodes unvisited).toFinset :=
        List.mem_toFinset.mpr (mem_nodesAt.mpr ⟨i, new, here⟩)
      have emitted : ∀ places, nodesAt nodes (i :: places) = nodes[i] :: nodesAt nodes places :=
        fun places => List.filterMap_cons_some here
      rw [emitted, emitted, preorder, if_pos fresh, ih (once.erase i) remaining, led,
        nodesAt_erase distinct once here]
  | case3 unvisited i rest old ih =>
      intro once inside
      rw [ih once inside]
      cases here : nodes[i]? with
      | none => rw [show nodesAt nodes (i :: rest) = nodesAt nodes rest from
          List.filterMap_cons_none here]
      | some n =>
          have visited : n ∉ (nodesAt nodes unvisited).toFinset := by
            rw [List.mem_toFinset, mem_nodesAt]
            rintro ⟨j, member, there⟩
            have same := (List.getElem?_inj (inside j member) distinct).mp (there.trans here.symm)
            exact old (same ▸ member)
          rw [show nodesAt nodes (i :: rest) = n :: nodesAt nodes rest from
            List.filterMap_cons_some here, preorder, if_neg visited]

end Naming

section Storing

variable {nodes : List Node} {edges : List Edge}

theorem walk_perm (nodes : List Node) (edges : List Edge) : (walk nodes edges).Perm nodes := by
  have all := search_emits_all (successors nodes edges)
    (List.nodup_range : (List.range nodes.length).Nodup) (sortPlaces nodes (unaimed nodes edges))
  have visited := all.filterMap (nodes[·]?)
  rw [filterMap_range_getElem?, ← walkFrom_eq_search] at visited
  rwa [walk, roots_eq]

theorem mem_following (edges : List Edge) {n : Node} (distinct : nodes.Nodup) (member : n ∈ nodes)
    (m : Node) : m ∈ following nodes edges n ↔ m ∈ nodes ∧ Joins (edges.map Edge.pair) n.id m.id := by
  obtain ⟨i, inside, rfl⟩ := List.getElem_of_mem member
  rw [following, mem_nodesAt, distinct.idxOf_getElem i inside]
  simp only [mem_successors (List.getElem?_eq_getElem inside)]
  constructor
  · rintro ⟨j, ⟨m', there, edge⟩, here⟩
    cases here.symm.trans there
    exact ⟨List.mem_of_getElem? here, edge⟩
  · rintro ⟨listed, edge⟩
    obtain ⟨j, there⟩ := List.getElem?_of_mem listed
    exact ⟨j, ⟨m, there, edge⟩, there⟩

theorem mem_entrances {m : Node} :
    m ∈ entrances nodes edges ↔ m ∈ nodes ∧ ∀ id, ¬ Joins (edges.map Edge.pair) id m.id := by
  rw [entrances, mem_nodesAt]
  simp only [mem_sortPlaces, mem_unaimed]
  constructor
  · rintro ⟨j, ⟨m', there, untouched⟩, here⟩
    cases here.symm.trans there
    exact ⟨List.mem_of_getElem? here, untouched⟩
  · rintro ⟨listed, untouched⟩
    obtain ⟨j, there⟩ := List.getElem?_of_mem listed
    exact ⟨j, ⟨m, there, untouched⟩, there⟩

section Heights

variable (heights : ∀ n ∈ nodes, n.position.y.isNan = false)

include heights in
theorem pairwise_sortPlaces {places : List Nat} (inside : ∀ i ∈ places, i < nodes.length) :
    (nodesAt nodes (sortPlaces nodes places)).Pairwise fun a b =>
      a.position.rank ≤ b.position.rank := by
  rw [nodesAt, List.pairwise_filterMap]
  apply (sortedBy_sortPlaces heights inside).ordered.imp
  intro i j le a onI b onJ
  simpa only [rankAt, onI, onJ] using le

include heights in
theorem pairwise_entrances :
    (entrances nodes edges).Pairwise fun a b => a.position.rank ≤ b.position.rank := by
  refine pairwise_sortPlaces heights fun i member => ?_
  exact List.mem_range.mp (List.mem_filter.mp member).1

include heights in
theorem pairwise_following (n : Node) :
    (following nodes edges n).Pairwise fun a b => a.position.rank ≤ b.position.rank := by
  rw [following, successors_eq_sortPlaces]
  exact pairwise_sortPlaces heights fun i => lt_of_mem_namedFrom edges

end Heights

theorem heights_of_apart (apart : nodes.Pairwise fun a b => a.position.Apart b.position) :
    nodes.length ≤ 1 ∨ ∀ n ∈ nodes, n.position.y.isNan = false := by
  match nodes, apart with
  | [], _ => exact Or.inl (Nat.zero_le _)
  | [_], _ => exact Or.inl (Nat.le_refl _)
  | a :: b :: rest, apart =>
      refine Or.inr fun n member => ?_
      have first := (List.pairwise_cons.mp apart).1
      rcases List.mem_cons.mp member with rfl | later
      · exact (first b (by simp)).height
      · exact (first n later).symm.height

theorem eq_of_rank_eq (apart : nodes.Pairwise fun a b => a.position.Apart b.position) :
    ∀ a ∈ nodes, ∀ b ∈ nodes, a.position.rank = b.position.rank → a = b := by
  have ranks : (nodes.map fun n => n.position.rank).Nodup :=
    List.pairwise_map.mpr (apart.imp Position.Apart.rank_ne)
  exact fun a first b second same => List.inj_on_of_nodup_map ranks first second same

/-- Without a cycle the walk is the search from the nodes that no edge leads to. -/
theorem walk_eq_preorder (distinct : nodes.Nodup)
    (closed : ∀ e ∈ edges, e.source ∈ nodes.map Node.id ∧ e.target ∈ nodes.map Node.id)
    (acyclic : Acyclic (edges.map Edge.pair)) :
    walk nodes edges =
      preorder (following nodes edges) nodes.toFinset (entrances nodes edges) := by
  have named := nodesAt_walkFrom edges distinct (List.range nodes.length)
    (sortPlaces nodes (unaimed nodes edges)) List.nodup_range fun i => List.mem_range.mp
  rw [← walkFrom_roots closed acyclic, nodesAt, nodesAt, filterMap_range_getElem?] at named
  exact named

variable {others : List Node} {more : List Edge}

theorem walk_of_few (few : nodes.length ≤ 1) (same : nodes.Perm others) :
    walk others more = walk nodes edges := by
  have visited := (walk_perm others more).trans (same.symm.trans (walk_perm nodes edges).symm)
  have length := (walk_perm nodes edges).length_eq
  match walked : walk nodes edges, length with
  | [], _ => exact List.perm_nil.mp (walked ▸ visited)
  | [n], _ => exact List.perm_singleton.mp (walked ▸ visited)
  | _ :: _ :: _, length =>
      rw [List.length_cons, List.length_cons] at length
      omega

section Restored

variable (apart : nodes.Pairwise fun a b => a.position.Apart b.position)
  (heights : ∀ n ∈ nodes, n.position.y.isNan = false) (same : nodes.Perm others)
  (joined : ∀ p, p ∈ more.map Edge.pair ↔ p ∈ edges.map Edge.pair)

include apart heights same joined

/-- The nodes to begin with come in one order, whatever order they are stored in. -/
theorem fresh_entrances (unvisited : Finset Node) :
    fresh unvisited (entrances nodes edges) = fresh unvisited (entrances others more) := by
  have heightsOthers : ∀ n ∈ others, n.position.y.isNan = false := fun n member =>
    heights n (same.mem_iff.mpr member)
  refine fresh_eq_of_pairwise ?_ ?_ (pairwise_entrances heights)
    (pairwise_entrances heightsOthers) unvisited
  · intro m
    simp only [mem_entrances, Joins, joined, same.mem_iff]
  · exact fun a first b second =>
      eq_of_rank_eq apart a (mem_entrances.mp first).1 b (mem_entrances.mp second).1

theorem fresh_following (distinct : nodes.Nodup) {n : Node} (member : n ∈ nodes)
    (unvisited : Finset Node) :
    fresh unvisited (following nodes edges n) = fresh unvisited (following others more n) := by
  have heightsOthers : ∀ n ∈ others, n.position.y.isNan = false := fun n member =>
    heights n (same.mem_iff.mpr member)
  have here := mem_following edges distinct member
  have there := mem_following more (same.nodup_iff.mp distinct) (same.mem_iff.mp member)
  refine fresh_eq_of_pairwise ?_ ?_ (pairwise_following heights n)
    (pairwise_following heightsOthers n) unvisited
  · intro m
    rw [here, there]
    simp only [Joins, joined, same.mem_iff]
  · exact fun a first b second =>
      eq_of_rank_eq apart a ((here a).mp first).1 b ((here b).mp second).1

end Restored

/-- The walk is the same over the same nodes and pairs in any other order. -/
theorem walk_restored (distinct : (nodes.map Node.id).Nodup)
    (apart : nodes.Pairwise fun a b => a.position.Apart b.position)
    (closed : ∀ e ∈ edges, e.source ∈ nodes.map Node.id ∧ e.target ∈ nodes.map Node.id)
    (acyclic : Acyclic (edges.map Edge.pair)) (same : nodes.Perm others)
    (joined : ∀ p, p ∈ more.map Edge.pair ↔ p ∈ edges.map Edge.pair) :
    walk others more = walk nodes edges := by
  rcases heights_of_apart apart with few | heights
  · exact walk_of_few few same
  · have once : nodes.Nodup := distinct.of_map
    have names : ∀ {id}, id ∈ nodes.map Node.id ↔ id ∈ others.map Node.id :=
      (same.map Node.id).mem_iff
    have closedOthers : ∀ e ∈ more,
        e.source ∈ others.map Node.id ∧ e.target ∈ others.map Node.id := by
      intro e member
      obtain ⟨e', listed, ends⟩ := List.mem_map.mp ((joined _).mp (List.mem_map_of_mem member))
      obtain ⟨source, target⟩ := Prod.mk.inj ends
      have known := closed e' listed
      rw [source, target] at known
      exact known.imp names.mp names.mp
    have acyclicOthers : Acyclic (more.map Edge.pair) := acyclic.mono fun p => (joined p).mp
    have begun := fresh_entrances apart heights same joined nodes.toFinset
    have led : ∀ n ∈ nodes.toFinset, ∀ v,
        fresh v (following nodes edges n) = fresh v (following others more n) :=
      fun n listed => fresh_following apart heights same joined once (List.mem_toFinset.mp listed)
    rw [walk_eq_preorder (same.nodup_iff.mp once) closedOthers acyclicOthers,
      walk_eq_preorder once closed acyclic, preorder_congr led begun,
      List.toFinset_eq_of_perm _ _ same]

end Storing

end Canvas

namespace Transcript

section Storing

open Canvas (Node Edge)

theorem of_congr {nodes others : List Node} {edges more : List Edge}
    (walked : Canvas.walk others more = Canvas.walk nodes edges) :
    (of others more).steps = (of nodes edges).steps ∧
      (of others more).prompt = (of nodes edges).prompt := by
  have count : others.length = nodes.length := by
    rw [← (Canvas.walk_perm others more).length_eq, walked, (Canvas.walk_perm nodes edges).length_eq]
  have empty : others.isEmpty = nodes.isEmpty := by
    rw [Bool.eq_iff_iff, List.isEmpty_iff_length_eq_zero, List.isEmpty_iff_length_eq_zero, count]
  constructor
  · rw [steps_of, steps_of, walked]
  · rw [of, of, walked, empty]
    split <;> rfl

/-- The transcript of a canvas without cycles on which all positions are apart does not depend on
the order in which its nodes are stored, nor on the order in which its edges are, or how often. -/
theorem of_restored {nodes others : List Node} {edges more : List Edge}
    (distinct : (nodes.map Node.id).Nodup)
    (apart : nodes.Pairwise fun a b => a.position.Apart b.position)
    (closed : ∀ e ∈ edges, e.source ∈ nodes.map Node.id ∧ e.target ∈ nodes.map Node.id)
    (acyclic : Acyclic (edges.map Edge.pair)) (same : nodes.Perm others)
    (joined : ∀ p, p ∈ more.map Edge.pair ↔ p ∈ edges.map Edge.pair) :
    (of others more).steps = (of nodes edges).steps ∧
      (of others more).prompt = (of nodes edges).prompt :=
  of_congr (Canvas.walk_restored distinct apart closed acyclic same joined)

def diamond : List Node :=
  [⟨"a", .user, "", [], .origin⟩, ⟨"b", .user, "", [], ⟨.ofNat 320, .ofNat 220⟩⟩,
    ⟨"c", .user, "", [], ⟨.zero, .ofNat 220⟩⟩, ⟨"d", .user, "", [], ⟨.zero, .ofNat 440⟩⟩]

def restored : List Node :=
  [⟨"d", .user, "", [], ⟨.zero, .ofNat 440⟩⟩, ⟨"c", .user, "", [], ⟨.zero, .ofNat 220⟩⟩,
    ⟨"a", .user, "", [], .origin⟩, ⟨"b", .user, "", [], ⟨.ofNat 320, .ofNat 220⟩⟩]

def diamondEdges : List Edge :=
  [⟨"1", "a", "b"⟩, ⟨"2", "a", "c"⟩, ⟨"3", "b", "d"⟩, ⟨"4", "c", "d"⟩]

def restoredEdges : List Edge :=
  [⟨"4", "c", "d"⟩, ⟨"3", "b", "d"⟩, ⟨"2", "a", "c"⟩, ⟨"5", "a", "c"⟩, ⟨"1", "a", "b"⟩]

theorem of_restored_diamond :
    (of restored restoredEdges).steps = (of diamond diamondEdges).steps ∧
      (of restored restoredEdges).prompt = (of diamond diamondEdges).prompt := by
  have distinct : (diamond.map Node.id).Nodup := by decide
  have apart : diamond.Pairwise fun a b => a.position.Apart b.position := by decide +kernel
  have closed : ∀ e ∈ diamondEdges,
      e.source ∈ diamond.map Node.id ∧ e.target ∈ diamond.map Node.id := by decide
  have acyclic : Acyclic (diamondEdges.map Edge.pair) :=
    (length_settled_iff distinct (diamondEdges.map Edge.pair)).mp (by decide)
  have same : diamond.Perm restored := by decide +kernel
  have kept : ∀ p ∈ restoredEdges.map Edge.pair, p ∈ diamondEdges.map Edge.pair := by decide
  have found : ∀ p ∈ diamondEdges.map Edge.pair, p ∈ restoredEdges.map Edge.pair := by decide
  exact of_restored distinct apart closed acyclic same fun p => ⟨kept p, found p⟩

end Storing

end Transcript

end PromptCanvas
