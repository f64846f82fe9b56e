import Mathlib.Data.List.Nodup
import Mathlib.Data.Prod.Lex

/-! # Stable sorting

`SortedBy`: a list sorted by a rank in which the elements of one rank stand as they stood
before.  There is one such list only (`SortedBy.unique`), and merging gives it
(`sortedBy_mergeSort`).  Sorting by a rank what is sorted by another is sorting by both
(`SortedBy.refine`). -/

set_option autoImplicit false

namespace PromptCanvas

/-- The list by rank, and within a rank as it was. -/
structure SortedBy {α κ : Type} [LinearOrder κ] (rank : α → κ) (l sorted : List α) : Prop where
  ordered : sorted.Pairwise fun a b => rank a ≤ rank b
  stable : ∀ k, (sorted.filter fun a => rank a = k) = l.filter fun a => rank a = k

section Sorting

variable {α κ : Type} [LinearOrder κ] {rank : α → κ} {l s t : List α}

/-- What comes first in a sorted list has the least rank, and is the first of it. -/
theorem eq_of_filter_eq (ordered : s.Pairwise fun a b => rank a ≤ rank b) :
    ∀ {t : List α}, (t.Pairwise fun a b => rank a ≤ rank b) →
      (∀ k, (s.filter fun a => rank a = k) = t.filter fun a => rank a = k) → s = t := by
  induction s with
  | nil =>
      intro t _ same
      cases t with
      | nil => rfl
      | cons b t => simpa using same (rank b)
  | cons a s ih =>
      intro t other same
      cases t with
      | nil => simpa using same (rank a)
      | cons b t =>
          rw [List.pairwise_cons] at ordered other
          have onA : rank b ≤ rank a := by
            have member : a ∈ (b :: t).filter fun c => rank c = rank a := by
              rw [← same]
              simp
            rcases List.mem_cons.mp (List.mem_filter.mp member).1 with rfl | later
            · exact le_refl _
            · exact other.1 a later
          have onB : rank a ≤ rank b := by
            have member : b ∈ (a :: s).filter fun c => rank c = rank b := by
              rw [same]
              simp
            rcases List.mem_cons.mp (List.mem_filter.mp member).1 with rfl | later
            · exact le_refl _
            · exact ordered.1 b later
          have level : rank b = rank a := le_antisymm onA onB
          have first := same (rank a)
          rw [List.filter_cons_of_pos (by simp), List.filter_cons_of_pos (by simp [level]),
            List.cons.injEq] at first
          obtain ⟨rfl, -⟩ := first
          rw [ih ordered.2 other.2]
          intro k
          have rest := same k
          by_cases here : rank a = k
          · rw [List.filter_cons_of_pos (by simpa using here),
              List.filter_cons_of_pos (by simpa using here), List.cons.injEq] at rest
            exact rest.2
          · rwa [List.filter_cons_of_neg (by simpa using here),
              List.filter_cons_of_neg (by simpa using here)] at rest

/-- A list is sorted stably in one way only. -/
theorem SortedBy.unique (first : SortedBy rank l s) (second : SortedBy rank l t) : s = t :=
  eq_of_filter_eq first.ordered second.ordered fun k =>
    (first.stable k).trans (second.stable k).symm

/-- What holds along each rank and from each rank to a greater one holds along the whole list. -/
theorem SortedBy.pairwise {R : α → α → Prop} (sorted : SortedBy rank l s)
    (level : ∀ k, (l.filter fun a => rank a = k).Pairwise R)
    (across : ∀ a ∈ s, ∀ b ∈ s, rank a < rank b → R a b) : s.Pairwise R := by
  rw [List.pairwise_iff_forall_sublist]
  intro a b two
  rcases lt_or_eq_of_le (List.pairwise_iff_forall_sublist.mp sorted.ordered two) with less | same
  · exact across a (two.subset (by simp)) b (two.subset (by simp)) less
  · have kept := two.filter fun c => decide (rank c = rank b)
    rw [List.filter_cons_of_pos (by simpa using same), List.filter_cons_of_pos (by simp),
      List.filter_nil, sorted.stable] at kept
    exact List.pairwise_iff_forall_sublist.mp (level (rank b)) kept

theorem idxOf_lt_of_lt [DecidableEq α] (ordered : s.Pairwise fun a b => rank a ≤ rank b) {a b : α}
    (first : a ∈ s) (second : b ∈ s) (less : rank a < rank b) : s.idxOf a < s.idxOf b := by
  by_contra later
  rcases Nat.lt_or_eq_of_le (Nat.not_lt.mp later) with before | same
  · have le := List.pairwise_iff_getElem.mp ordered _ _ (List.idxOf_lt_length_iff.mpr second)
      (List.idxOf_lt_length_iff.mpr first) before
    rw [List.getElem_idxOf, List.getElem_idxOf] at le
    exact not_lt_of_ge le less
  · rw [(List.idxOf_inj second).mp same] at less
    exact lt_irrefl _ less

/-- A list that stands by another rank already keeps that order in each rank. -/
theorem SortedBy.refine {τ : Type} [LinearOrder τ] {tier : α → τ} (sorted : SortedBy tier l s)
    (before : l.Pairwise fun a b => rank a ≤ rank b) :
    SortedBy (fun a => toLex (tier a, rank a)) l s where
  ordered := by
    refine sorted.pairwise (fun k => ?_) fun a _ b _ less =>
      Prod.Lex.toLex_le_toLex.mpr (Or.inl less)
    refine (before.filter _).imp_of_mem fun {a b} first second le => ?_
    have onA := of_decide_eq_true (List.mem_filter.mp first).2
    have onB := of_decide_eq_true (List.mem_filter.mp second).2
    exact Prod.Lex.toLex_le_toLex.mpr (Or.inr ⟨onA.trans onB.symm, le⟩)
  stable := by
    intro k
    have split : ∀ a, decide (toLex (tier a, rank a) = k) =
        (decide (rank a = (ofLex k).2) && decide (tier a = (ofLex k).1)) := by
      intro a
      rw [← Bool.decide_and, decide_eq_decide, ← ofLex_inj, Prod.ext_iff, and_comm]
      rfl
    simp only [split, ← List.filter_filter, sorted.stable]

/-- Sorted by a rank, a list has one order only if the rank tells its elements apart. -/
theorem eq_of_perm_of_lt (ordered : s.Pairwise fun a b => rank a ≤ rank b)
    (strict : t.Pairwise fun a b => rank a < rank b) (same : s.Perm t) : s = t := by
  have ranks : (t.map rank).Nodup := List.pairwise_map.mpr (strict.imp ne_of_lt)
  refine same.eq_of_pairwise ?_ ordered (strict.imp le_of_lt)
  intro a b onS onT below above
  exact List.inj_on_of_nodup_map ranks (same.mem_iff.mp onS) onT (le_antisymm below above)

/-- Merging by a comparison of ranks sorts stably; the comparison matters on the list only. -/
theorem sortedBy_mergeSort {before : α → α → Bool}
    (compares : ∀ a ∈ l, ∀ b ∈ l, before a b = decide (rank a ≤ rank b)) :
    SortedBy rank l (l.mergeSort before) := by
  have same : l.mergeSort before = l.mergeSort fun a b => decide (rank a ≤ rank b) := by
    have mapped := List.map_mergeSort (f := id) (s := fun a b => decide (rank a ≤ rank b)) compares
    rwa [List.map_id, List.map_id] at mapped
  have trans : ∀ a b c : α, decide (rank a ≤ rank b) = true → decide (rank b ≤ rank c) = true →
      decide (rank a ≤ rank c) = true := by
    intro a b c first second
    rw [decide_eq_true_iff] at first second ⊢
    exact le_trans first second
  have total : ∀ a b : α, (decide (rank a ≤ rank b) || decide (rank b ≤ rank a)) = true := by
    intro a b
    rw [Bool.or_eq_true, decide_eq_true_iff, decide_eq_true_iff]
    exact le_total _ _
  rw [same]
  constructor
  case ordered =>
    exact (List.pairwise_mergeSort trans total l).imp fun le => by simpa using le
  case stable =>
    intro k
    have level : (l.filter fun a => rank a = k).Pairwise fun a b =>
        decide (rank a ≤ rank b) = true := by
      apply List.pairwise_of_forall_mem_list
      intro a first b second
      have onA := (List.mem_filter.mp first).2
      have onB := (List.mem_filter.mp second).2
      rw [decide_eq_true_iff] at onA onB ⊢
      rw [onA, onB]
    have kept := (List.sublist_mergeSort trans total level List.filter_sublist).filter
      fun a => rank a = k
    simp only [List.filter_filter, Bool.and_self] at kept
    have length := ((List.mergeSort_perm l fun a b => decide (rank a ≤ rank b)).filter
      fun a => rank a = k).length_eq
    exact (kept.eq_of_length length.symm).symm

end Sorting

end PromptCanvas
