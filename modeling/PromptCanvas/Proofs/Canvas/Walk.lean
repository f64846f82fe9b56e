import PromptCanvas.Canvas.Transcript
import PromptCanvas.Proofs.Canvas.WellFormed
import PromptCanvas.Proofs.Graph.Chain

/-! # The walk along a chain

The depth-first walk over nodes that are joined one to the next, whatever their
positions, visits them as they are listed (`walk_linked`): the first node is the only
one to begin at, and each node has no successor but the next.  So the transcript of a
drawn chain tells its steps in order (`Valid.transcript_linked`). -/

set_option autoImplicit false

namespace PromptCanvas

namespace Canvas

section Places

theorem filter_range_eq {p : Nat → Bool} {n i : Nat} (inside : i < n)
    (only : ∀ j < n, p j = true ↔ j = i) : (List.range n).filter p = [i] := by
  have same : (List.range n).filter p = (List.range n).filter (· == i) := by
    refine List.filter_congr fun j member => ?_
    rw [Bool.eq_iff_iff, beq_iff_eq]
    exact only j (List.mem_range.mp member)
  rw [same, List.filter_beq, List.count_eq_one_of_mem List.nodup_range (List.mem_range.mpr inside)]
  rfl

variable {nodes : List Node} {edges : List Edge}

theorem sortPlaces_singleton (i : Nat) : sortPlaces nodes [i] = [i] := List.mergeSort_singleton i

theorem placesOf_eq (distinct : (nodes.map Node.id).Nodup) {i : Nat} {id : String}
    (place : (nodes.map Node.id)[i]? = some id) : placesOf nodes id = [i] := by
  obtain ⟨inside, -⟩ := List.getElem?_eq_some_iff.mp place
  refine filter_range_eq (by simpa using inside) fun j _ => ?_
  rw [beq_iff_eq, ← List.getElem?_map, ← place, eq_comm, List.getElem?_inj inside distinct, eq_comm]

theorem successors_eq {i : Nat} {n : Node} (place : nodes[i]? = some n) :
    successors nodes edges i =
      sortPlaces nodes ((Sweep.targets (edges.map Edge.pair) n.id).flatMap (placesOf nodes)) := by
  rw [Sweep.targets, List.filter_map, List.map_map, List.flatMap_map]
  simp only [successors, place]
  rfl

end Places

section Chains

variable {nodes : List Node} {edges : List Edge}

theorem successors_linked (distinct : (nodes.map Node.id).Nodup)
    (joined : edges.map Edge.pair = linked (nodes.map Node.id)) {i : Nat}
    (inside : i < nodes.length) :
    successors nodes edges i = if i + 1 < nodes.length then [i + 1] else [] := by
  have here : nodes[i]? = some nodes[i] := List.getElem?_eq_getElem inside
  have place : (nodes.map Node.id)[i]? = some nodes[i].id := by
    rw [List.getElem?_map, here]
    rfl
  rw [successors_eq here, joined, targets_linked distinct place]
  by_cases further : i + 1 < nodes.length
  · have next : (nodes.map Node.id)[i + 1]? = some nodes[i + 1].id := by
      rw [List.getElem?_map, List.getElem?_eq_getElem further]
      rfl
    rw [if_pos further, next, Option.toList_some, List.flatMap_singleton,
      placesOf_eq distinct next, sortPlaces_singleton]
  · have last : (nodes.map Node.id)[i + 1]? = none := by
      rw [List.getElem?_eq_none_iff]
      simpa using further
    rw [if_neg further, last, Option.toList_none, List.flatMap_nil]
    exact List.mergeSort_nil

theorem roots_eq : roots nodes edges =
    sortPlaces nodes ((List.range nodes.length).filter fun i =>
      (nodes[i]?).any fun n => edges.all fun e => e.target != n.id) ++ List.range nodes.length := by
  rw [roots]
  congr 2
  refine List.filter_congr fun i _ => ?_
  cases nodes[i]? <;> rfl

theorem roots_linked (distinct : (nodes.map Node.id).Nodup)
    (joined : edges.map Edge.pair = linked (nodes.map Node.id)) (nonempty : nodes ≠ []) :
    roots nodes edges = 0 :: List.range nodes.length := by
  obtain ⟨first, more, rfl⟩ := List.exists_cons_of_ne_nil nonempty
  have into : edges.map Edge.target = more.map Node.id := by
    have ends := congrArg (List.map Prod.snd) joined
    rw [map_snd_linked, List.map_map] at ends
    exact ends
  have untouched : ∀ id : String,
      (edges.all fun e => e.target != id) = true ↔ id ∉ more.map Node.id := by
    intro id
    rw [← into, List.all_eq_true, List.mem_map]
    simp only [bne_iff_ne, ne_eq, not_exists, not_and]
  have fresh := (List.nodup_cons.mp distinct).1
  have sources : (List.range (first :: more).length).filter (fun i =>
      ((first :: more)[i]?).any fun n => edges.all fun e => e.target != n.id) = [0] := by
    apply filter_range_eq (by simp)
    intro j inside
    cases j with
    | zero => exact iff_of_true ((untouched first.id).mpr fresh) rfl
    | succ j =>
        have later : j < more.length := by simpa using inside
        rw [List.getElem?_cons_succ, List.getElem?_eq_getElem later, Option.any_some, untouched]
        refine iff_of_false ?_ (Nat.succ_ne_zero j)
        exact not_not_intro (List.mem_map_of_mem (List.getElem_mem later))
  rw [roots_eq, sources, sortPlaces_singleton]
  rfl

theorem walkFrom_nil (stack : List Nat) : walkFrom nodes edges [] stack = [] := by
  induction stack with
  | nil => rw [walkFrom]
  | cons place rest ih =>
      rw [walkFrom, if_neg List.not_mem_nil]
      exact ih

/-- The walk that stands at a node and has visited none of the nodes from it on goes on
to the last one. -/
theorem walkFrom_linked (distinct : (nodes.map Node.id).Nodup)
    (joined : edges.map Edge.pair = linked (nodes.map Node.id)) (k : Nat) :
    ∀ (i : Nat) (rest : List Nat), i + k + 1 = nodes.length →
      walkFrom nodes edges (List.range' i (k + 1)) (i :: rest) = List.range' i (k + 1) := by
  induction k with
  | zero =>
      intro i rest whole
      have last : ¬ i + 1 < nodes.length := by omega
      have alone : List.range' i (0 + 1) = [i] := rfl
      rw [alone, walkFrom, if_pos (List.mem_singleton_self i), List.erase_cons_head,
        walkFrom_nil]
  | succ k ih =>
      intro i rest whole
      have further : i + 1 < nodes.length := by omega
      rw [List.range'_succ, walkFrom, if_pos List.mem_cons_self, List.erase_cons_head,
        successors_linked distinct joined (by omega), if_pos further, List.singleton_append,
        ih (i + 1) rest (by omega)]

theorem filterMap_range_getElem? (nodes : List Node) :
    (List.range nodes.length).filterMap (nodes[·]?) = nodes := by
  have places : (List.range nodes.length).map (nodes[·]?) = nodes.map some := by
    apply List.ext_getElem (by simp)
    intro i inside _
    have within : i < nodes.length := by simpa using inside
    simp [within]
  have shown := congrArg (List.filterMap id) places
  rwa [List.filterMap_map, List.filterMap_map, Function.id_comp, Function.id_comp,
    List.filterMap_some] at shown

theorem walk_linked (distinct : (nodes.map Node.id).Nodup)
    (joined : edges.map Edge.pair = linked (nodes.map Node.id)) : walk nodes edges = nodes := by
  by_cases nonempty : nodes = []
  · rw [nonempty, walk, List.length_nil, List.range_zero, walkFrom_nil]
    rfl
  · have whole : 0 + (nodes.length - 1) + 1 = nodes.length := by
      have := List.length_pos_iff.mpr nonempty
      omega
    have visited := walkFrom_linked distinct joined _ 0 (List.range nodes.length) whole
    rw [Nat.zero_add] at whole
    rw [whole, ← List.range_eq_range'] at visited
    rw [walk, roots_linked distinct joined nonempty, visited, filterMap_range_getElem?]

end Chains

end Canvas

namespace Transcript

section Steps

/-- What does not depend on the numbers of the steps is read off the nodes. -/
theorem map_stepsFrom {β : Type} {f : Step → β} {g : Canvas.Node → β}
    (same : ∀ k node, f ⟨k, node.id, node.role, node.label, node.content⟩ = g node)
    (nodes : List Canvas.Node) : ∀ k, (stepsFrom k nodes).map f = nodes.map g := by
  induction nodes with
  | nil => intro k; rfl
  | cons node nodes ih =>
      intro k
      rw [stepsFrom, List.map_cons, List.map_cons, same, ih]

theorem map_id_stepsFrom (nodes : List Canvas.Node) (k : Nat) :
    (stepsFrom k nodes).map Step.id = nodes.map Canvas.Node.id :=
  map_stepsFrom (fun _ _ => rfl) nodes k

end Steps

end Transcript

namespace Graph

section Drawings

variable {g : Graph}

theorem Valid.transcript_linked (valid : g.Valid) (chain : g.pairs = linked g.ids)
    (ids : IdSupply) :
    (Transcript.of (g.layOut.complete ids).1.nodes (g.layOut.complete ids).1.edges).steps.map
      Transcript.Step.id = g.ids := by
  have drawn : (g.layOut.complete ids).1.nodes.map Canvas.Node.id = g.ids := by
    have listed := Canvas.ids_completeNodes g.layOut.nodes ids
    rw [ids_layOut valid.distinct, valid.drawnIds_linked chain] at listed
    exact listed
  have joined : (g.layOut.complete ids).1.edges.map Canvas.Edge.pair = linked g.ids := by
    rw [← chain, ← pairs_exported g, pairs, Canvas.Sketch.exported, List.map_map]
    rfl
  have some : (g.layOut.complete ids).1.nodes.isEmpty = false := by
    rw [List.isEmpty_eq_false_iff, ne_eq, ← List.map_eq_nil_iff, drawn, Graph.ids,
      List.map_eq_nil_iff]
    exact valid.nonempty
  rw [← drawn] at joined
  rw [Transcript.of, some, if_neg Bool.false_ne_true, Transcript.map_id_stepsFrom,
    Canvas.walk_linked (drawn ▸ valid.distinct) joined, drawn]

end Drawings

end Graph

end PromptCanvas
