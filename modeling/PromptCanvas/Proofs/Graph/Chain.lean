import PromptCanvas.Proofs.Graph.Drawing

/-! # Chains

`linked ids`: the edges that join each identifier of a list to the next.  Such edges
have no cycle (`acyclic_linked`), and a valid graph with no others is drawn in the order
in which its nodes are listed (`Valid.drawnIds_linked`), because every node lies on a
deeper tier than the one before it. -/

set_option autoImplicit false

namespace PromptCanvas

section Links

def linked (ids : List String) : List (String × String) := ids.zip ids.tail

theorem linked_cons_cons (a b : String) (ids : List String) :
    linked (a :: b :: ids) = (a, b) :: linked (b :: ids) := rfl

theorem map_snd_linked (ids : List String) : (linked ids).map Prod.snd = ids.tail :=
  List.map_snd_zip (by simp)

theorem mem_of_mem_linked {ids : List String} {e : String × String} (edge : e ∈ linked ids) :
    e.1 ∈ ids ∧ e.2 ∈ ids :=
  ⟨(List.of_mem_zip edge).1, List.mem_of_mem_tail (List.of_mem_zip edge).2⟩

theorem mem_linked_iff {ids : List String} {e : String × String} :
    e ∈ linked ids ↔ ∃ i, ids[i]? = some e.1 ∧ ids[i + 1]? = some e.2 := by
  rw [linked, List.mem_iff_getElem?]
  simp only [List.getElem?_zip_eq_some, List.getElem?_tail]

theorem isChain_linked (ids : List String) : ids.IsChain fun a b => (a, b) ∈ linked ids := by
  rw [List.isChain_iff_getElem]
  intro i inside
  exact mem_linked_iff.mpr ⟨i, List.getElem?_eq_getElem _, List.getElem?_eq_getElem inside⟩

variable {ids : List String}

theorem idxOf_lt_of_linked (distinct : ids.Nodup) {a b : String} (edge : Joins (linked ids) a b) :
    ids.idxOf a < ids.idxOf b := by
  obtain ⟨i, first, second⟩ := mem_linked_iff.mp edge
  obtain ⟨inside, rfl⟩ := List.getElem?_eq_some_iff.mp first
  obtain ⟨further, rfl⟩ := List.getElem?_eq_some_iff.mp second
  rw [distinct.idxOf_getElem _ inside, distinct.idxOf_getElem _ further]
  exact Nat.lt_succ_self i

theorem acyclic_linked (distinct : ids.Nodup) : Acyclic (linked ids) := by
  intro v cycle
  have further : ∀ {a b : String}, Relation.TransGen (Joins (linked ids)) a b →
      ids.idxOf a < ids.idxOf b := by
    intro a b path
    induction path with
    | single edge => exact idxOf_lt_of_linked distinct edge
    | tail _ edge ih => exact ih.trans (idxOf_lt_of_linked distinct edge)
  exact absurd (further cycle) (Nat.lt_irrefl _)

theorem targets_linked (distinct : ids.Nodup) {i : Nat} {id : String} (place : ids[i]? = some id) :
    Sweep.targets (linked ids) id = ids[i + 1]?.toList := by
  induction ids generalizing i with
  | nil => cases place
  | cons a ids ih =>
      obtain ⟨fresh, distinct⟩ := List.nodup_cons.mp distinct
      cases ids with
      | nil =>
          cases i <;> rfl
      | cons b ids =>
          rw [linked_cons_cons, Sweep.targets, List.filter_cons]
          cases i with
          | zero =>
              obtain rfl : a = id := Option.some.inj place
              have none : (linked (b :: ids)).filter (fun e => e.1 == a) = [] := by
                refine List.filter_eq_nil_iff.mpr fun e edge => ?_
                rw [beq_iff_eq]
                rintro rfl
                exact fresh (mem_of_mem_linked edge).1
              rw [none, if_pos (beq_self_eq_true a)]
              rfl
          | succ i =>
              have listed : id ∈ b :: ids := List.mem_of_getElem? place
              have other : (a == id) = false := by
                rw [beq_eq_false_iff_ne]
                rintro rfl
                exact fresh listed
              rw [other, if_neg Bool.false_ne_true, List.getElem?_cons_succ]
              exact ih distinct place

end Links

namespace Graph

section Order

variable {g : Graph}

/-- A node stands by the longest path to it. -/
theorem Valid.longest_tierIn (valid : g.Valid) {id : String} (listed : id ∈ g.ids) :
    IsLongest g.pairs id (tierIn (tiers g.ids g.pairs) id) := by
  have longest := PromptCanvas.longest_tierIn valid.distinct id
    (valid.acyclic_known.mem_settled valid.distinct listed)
  rwa [known_eq_pairs valid.closed] at longest

theorem Valid.tierIn_lt (valid : g.Valid) {a b : String} (edge : (a, b) ∈ g.pairs) :
    tierIn (tiers g.ids g.pairs) a < tierIn (tiers g.ids g.pairs) b := by
  obtain ⟨e, member, ends⟩ := List.mem_map.mp edge
  obtain ⟨rfl, rfl⟩ := Prod.mk.inj ends
  obtain ⟨source, target⟩ := valid.closed e member
  have first := valid.longest_tierIn source
  exact (valid.longest_tierIn target).bound _ (first.trail.along edge)

theorem Valid.drawnIds_linked (valid : g.Valid) (chain : g.pairs = linked g.ids) :
    g.drawnIds = g.ids := by
  let below : String → String → Prop := fun a b =>
    tierIn (tiers g.ids g.pairs) a < tierIn (tiers g.ids g.pairs) b
  have steps : g.ids.IsChain below :=
    (isChain_linked g.ids).imp fun a b edge => valid.tierIn_lt (chain ▸ edge)
  have : Trans below below below := ⟨Nat.lt_trans⟩
  have sorted : g.ids.Pairwise below := List.isChain_iff_pairwise.mp steps
  refine List.mergeSort_of_pairwise (sorted.imp fun deeper => ?_)
  exact decide_eq_true (Nat.le_of_lt deeper)

end Order

end Graph

end PromptCanvas
