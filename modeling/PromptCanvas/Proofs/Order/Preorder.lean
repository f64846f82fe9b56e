import Mathlib.Data.Finset.Card
import Mathlib.Data.Finset.SDiff

/-! # Searches with a stack

`preorder next unvisited stack`: what a search emits that takes an element from its stack,
skips it if it was visited, and puts what it leads to above the rest of the stack.  Only where
the unvisited elements of the stack stand first matters to it (`preorder_congr`), and in lists
that are sorted by a rank they stand alike (`fresh_eq_of_pairwise`). -/

set_option autoImplicit false

namespace PromptCanvas

section Fresh

variable {α : Type} [DecidableEq α]

/-- The unvisited elements of a list, each where it stands first. -/
def fresh (unvisited : Finset α) : List α → List α
  | [] => []
  | a :: rest =>
      if a ∈ unvisited then a :: fresh (unvisited.erase a) rest else fresh unvisited rest

theorem mem_fresh {a : α} (l : List α) :
    ∀ unvisited : Finset α, a ∈ fresh unvisited l ↔ a ∈ l ∧ a ∈ unvisited := by
  induction l with
  | nil => simp [fresh]
  | cons b rest ih =>
      intro unvisited
      by_cases new : b ∈ unvisited
      · rw [fresh, if_pos new, List.mem_cons, List.mem_cons, ih, Finset.mem_erase]
        by_cases same : a = b
        · simp [same, new]
        · simp [same]
      · rw [fresh, if_neg new, ih, List.mem_cons]
        by_cases same : a = b
        · simp [same, new]
        · simp [same]

theorem fresh_sublist (l : List α) : ∀ unvisited : Finset α, (fresh unvisited l).Sublist l := by
  induction l with
  | nil => exact fun _ => .refl _
  | cons b rest ih =>
      intro unvisited
      rw [fresh]
      split
      · exact (ih _).cons_cons b
      · exact (ih _).cons b

theorem nodup_fresh (l : List α) : ∀ unvisited : Finset α, (fresh unvisited l).Nodup := by
  induction l with
  | nil => exact fun _ => .nil
  | cons b rest ih =>
      intro unvisited
      rw [fresh]
      split
      · refine List.nodup_cons.mpr ⟨?_, ih _⟩
        rw [mem_fresh]
        simp
      · exact ih _

theorem fresh_sdiff (visited : Finset α) (l : List α) : ∀ unvisited : Finset α,
    fresh (unvisited \ visited) l = (fresh unvisited l).filter (· ∉ visited) := by
  induction l with
  | nil => exact fun _ => rfl
  | cons b rest ih =>
      intro unvisited
      have smaller : (unvisited \ visited).erase b = unvisited.erase b \ visited :=
        (Finset.erase_sdiff_comm ..).symm
      by_cases new : b ∈ unvisited
      · by_cases old : b ∈ visited
        · have gone : unvisited \ visited = unvisited.erase b \ visited := by
            rw [← smaller, Finset.erase_eq_of_notMem (by simp [old])]
          rw [fresh, if_neg (by simp [old]), fresh, if_pos new,
            List.filter_cons_of_neg (by simpa using old), gone, ih]
        · rw [fresh, if_pos (by simp [new, old]), smaller, ih, fresh, if_pos new,
            List.filter_cons_of_pos (by simpa using old)]
      · rw [fresh, if_neg (by simp [new]), ih, fresh, if_neg new]

theorem fresh_append (s t : List α) : ∀ unvisited : Finset α,
    fresh unvisited (s ++ t) = fresh unvisited s ++ fresh (unvisited \ s.toFinset) t := by
  induction s with
  | nil => simp [fresh]
  | cons a s ih =>
      intro unvisited
      have rest : unvisited.erase a \ s.toFinset = unvisited \ (a :: s).toFinset := by
        rw [List.toFinset_cons, Finset.sdiff_insert]
        exact Finset.erase_sdiff_comm ..
      by_cases new : a ∈ unvisited
      · rw [List.cons_append, fresh, if_pos new, ih, fresh, if_pos new, rest, List.cons_append]
      · have kept : unvisited \ s.toFinset = unvisited \ (a :: s).toFinset := by
          rw [← rest, Finset.erase_eq_of_notMem new]
        rw [List.cons_append, fresh, if_neg new, ih, fresh, if_neg new, kept]

/-- Sorted by a rank that tells elements apart, two lists of the same elements differ only in
how often these are repeated. -/
theorem fresh_eq_of_pairwise {κ : Type} [PartialOrder κ] {rank : α → κ} {s t : List α}
    (same : ∀ a, a ∈ s ↔ a ∈ t) (apart : ∀ a ∈ s, ∀ b ∈ s, rank a = rank b → a = b)
    (first : s.Pairwise fun a b => rank a ≤ rank b) (second : t.Pairwise fun a b => rank a ≤ rank b)
    (unvisited : Finset α) : fresh unvisited s = fresh unvisited t := by
  have perm : (fresh unvisited s).Perm (fresh unvisited t) := by
    rw [List.perm_ext_iff_of_nodup (nodup_fresh _ _) (nodup_fresh _ _)]
    intro a
    rw [mem_fresh, mem_fresh, same]
  refine perm.eq_of_pairwise ?_ (first.sublist (fresh_sublist _ _))
    (second.sublist (fresh_sublist _ _))
  intro a b onS onT below above
  have member := ((mem_fresh _ _).mp onS).1
  have other := (same b).mpr ((mem_fresh _ _).mp onT).1
  exact apart a member b other (le_antisymm below above)

end Fresh

section Searching

variable {α : Type} [DecidableEq α] (next : α → List α)

def preorder (unvisited : Finset α) (stack : List α) : List α :=
  match stack with
  | [] => []
  | a :: rest =>
      if a ∈ unvisited then a :: preorder (unvisited.erase a) (next a ++ rest)
      else preorder unvisited rest
termination_by (unvisited.card, stack.length)
decreasing_by
  · exact Prod.Lex.left _ _ (Finset.card_erase_lt_of_mem ‹a ∈ unvisited›)
  · exact Prod.Lex.right _ (by simp)

theorem preorder_of_fresh_nil {unvisited : Finset α} {stack : List α}
    (none : fresh unvisited stack = []) : preorder next unvisited stack = [] := by
  induction stack with
  | nil => rw [preorder]
  | cons a rest ih =>
      rw [fresh] at none
      split at none
      · cases none
      · next old => rw [preorder, if_neg old, ih none]

/-- A search skips what was visited and goes on from the first element that was not. -/
theorem preorder_of_fresh_cons {unvisited : Finset α} {stack later : List α} {a : α}
    (first : fresh unvisited stack = a :: later) :
    ∃ rest, fresh (unvisited.erase a) rest = later ∧
      preorder next unvisited stack = a :: preorder next (unvisited.erase a) (next a ++ rest) := by
  induction stack with
  | nil => cases first
  | cons b rest ih =>
      rw [fresh] at first
      split at first
      · next new =>
          obtain ⟨rfl, rfl⟩ := List.cons.inj first
          exact ⟨rest, rfl, by rw [preorder, if_pos new]⟩
      · next old =>
          obtain ⟨others, same, found⟩ := ih first
          exact ⟨others, same, by rw [preorder, if_neg old, found]⟩

variable {next}

theorem preorder_congr {other : α → List α} {unvisited : Finset α} {stack : List α}
    (agree : ∀ a ∈ unvisited, ∀ v, fresh v (next a) = fresh v (other a)) :
    ∀ {pile : List α}, fresh unvisited stack = fresh unvisited pile →
      preorder next unvisited stack = preorder other unvisited pile := by
  fun_induction preorder next unvisited stack with
  | case1 unvisited =>
      intro pile same
      exact (preorder_of_fresh_nil other same.symm).symm
  | case2 unvisited a rest new ih =>
      intro pile same
      rw [fresh, if_pos new] at same
      obtain ⟨others, later, found⟩ := preorder_of_fresh_cons other same.symm
      have smaller : ∀ b ∈ unvisited.erase a, ∀ v, fresh v (next b) = fresh v (other b) :=
        fun b member => agree b (Finset.mem_of_mem_erase member)
      have led : unvisited.erase a \ (next a).toFinset = unvisited.erase a \ (other a).toFinset := by
        ext b
        have onB := mem_fresh (a := b) (next a) (unvisited.erase a)
        rw [agree a new, mem_fresh] at onB
        simp only [Finset.mem_sdiff, List.mem_toFinset]
        tauto
      rw [found, ih smaller]
      rw [fresh_append, fresh_append, agree a new, led, fresh_sdiff, fresh_sdiff, later]
  | case3 unvisited a rest old ih =>
      intro pile same
      rw [fresh, if_neg old] at same
      exact ih agree same

end Searching

end PromptCanvas
