import Mathlib.Data.List.Infix
import PromptCanvas.Proofs.Text.Trim
import PromptCanvas.Text.Lines

/-! # Searching texts

Where a text is cut at the first occurrence of a pattern: inside of its beginning if the pattern
occurs there (`exists_cut?_append`), and otherwise, where another character follows, at the
pattern behind that (`cut?_append`).  What is found first in a text is found first in the trimmed
text, unless it is a blank (`find?_trim`). -/

set_option autoImplicit false

namespace PromptCanvas.Text

section Cutting

variable {pattern cs rest : List Char} {c : Char}

theorem cut?_self (pattern rest : List Char) : cut? pattern (pattern ++ rest) = some ([], rest) := by
  have found : pattern.isPrefixOf? (pattern ++ rest) = some rest :=
    List.isPrefixOf?_eq_some_iff_append_eq.mpr rfl
  cases whole : pattern ++ rest with
  | nil =>
      rw [whole] at found
      rw [cut?, found]
      rfl
  | cons d more =>
      rw [whole] at found
      rw [cut?, found]

theorem isPrefixOf?_eq_none (other : ¬ pattern <+: cs) : pattern.isPrefixOf? cs = none := by
  rw [Option.eq_none_iff_forall_ne_some]
  intro rest found
  exact other ⟨rest, List.isPrefixOf?_eq_some_iff_append_eq.mp found⟩

theorem cut?_cons_of_not (other : ¬ pattern <+: c :: cs) :
    cut? pattern (c :: cs) = (cut? pattern cs).map fun found => (c :: found.1, found.2) := by
  rw [cut?, isPrefixOf?_eq_none other]
  cases cut? pattern cs <;> rfl

/-- A pattern at the start does not reach a character that it does not hold. -/
theorem prefix_of_prefix_append (cs : List Char) (foreign : c ∉ pattern)
    (begins : pattern <+: cs ++ c :: rest) : pattern <+: cs := by
  rcases Nat.le_total pattern.length cs.length with short | long
  · exact List.prefix_of_prefix_length_le begins (List.prefix_append cs _) short
  · obtain ⟨back, rfl⟩ := List.prefix_of_prefix_length_le (List.prefix_append cs _) begins long
    rw [List.prefix_append_right_inj] at begins
    cases back with
    | nil => exact List.prefix_rfl.trans (by simp)
    | cons d back =>
        obtain ⟨rfl, -⟩ := List.cons_prefix_cons.mp begins
        exact absurd (List.mem_append_right _ List.mem_cons_self) foreign

theorem infix_of_infix_append (foreign : c ∉ pattern) (inside : pattern <:+: cs ++ c :: rest) :
    pattern <:+: cs ∨ pattern <:+: rest := by
  induction cs with
  | nil =>
      rcases List.infix_cons_iff.mp inside with begins | later
      · exact .inl (prefix_of_prefix_append [] foreign begins).isInfix
      · exact .inr later
  | cons d cs ih =>
      rcases List.infix_cons_iff.mp inside with begins | later
      · exact .inl (prefix_of_prefix_append (d :: cs) foreign begins).isInfix
      · exact (ih later).imp_left fun found => List.infix_cons found

theorem eq_append_of_cut? {before after : List Char}
    (found : cut? pattern cs = some (before, after)) : cs = before ++ (pattern ++ after) := by
  induction cs generalizing before with
  | nil =>
      obtain ⟨rest, begins, same⟩ := Option.map_eq_some_iff.mp found
      cases same
      exact (List.isPrefixOf?_eq_some_iff_append_eq.mp begins).symm
  | cons d cs ih =>
      by_cases begins : pattern <+: d :: cs
      · obtain ⟨rest, whole⟩ := begins
        rw [← whole, cut?_self] at found
        cases found
        exact whole.symm
      · rw [cut?_cons_of_not begins] at found
        obtain ⟨⟨front, rest⟩, later, same⟩ := Option.map_eq_some_iff.mp found
        cases same
        rw [ih later]
        rfl

/-- Behind a text without the pattern, and a character that the pattern does not hold. -/
theorem cut?_append (nonempty : pattern ≠ []) (foreign : c ∉ pattern)
    (without : ¬ pattern <:+: cs) (rest : List Char) :
    cut? pattern (cs ++ c :: (pattern ++ rest)) = some (cs ++ [c], rest) := by
  induction cs with
  | nil =>
      have other : ¬ pattern <+: c :: (pattern ++ rest) := fun begins =>
        nonempty (List.prefix_nil.mp (prefix_of_prefix_append [] foreign begins))
      rw [List.nil_append, cut?_cons_of_not other, cut?_self]
      rfl
  | cons d cs ih =>
      obtain ⟨front, inside⟩ := not_or.mp (List.infix_cons_iff.not.mp without)
      have other : ¬ pattern <+: d :: (cs ++ c :: (pattern ++ rest)) := fun begins =>
        front (prefix_of_prefix_append (d :: cs) foreign begins)
      rw [List.cons_append, cut?_cons_of_not other, ih inside]
      rfl

theorem exists_cut?_append (inside : pattern <:+: cs) (rest : List Char) :
    ∃ front back, cs = front ++ (pattern ++ back) ∧
      cut? pattern (cs ++ rest) = some (front, back ++ rest) := by
  induction cs with
  | nil =>
      rw [List.infix_nil.mp inside]
      exact ⟨[], [], rfl, cut?_self [] rest⟩
  | cons d cs ih =>
      by_cases begins : pattern <+: d :: cs
      · obtain ⟨back, whole⟩ := begins
        refine ⟨[], back, whole.symm, ?_⟩
        rw [← whole, List.append_assoc, cut?_self]
      · have later := (List.infix_cons_iff.mp inside).resolve_left begins
        have long : pattern.length ≤ (d :: cs).length := inside.length_le
        have other : ¬ pattern <+: d :: (cs ++ rest) := fun reaches =>
          begins (List.prefix_of_prefix_length_le reaches (List.prefix_append (d :: cs) rest) long)
        obtain ⟨front, back, rfl, found⟩ := ih later
        refine ⟨d :: front, back, rfl, ?_⟩
        rw [List.cons_append, cut?_cons_of_not other, found]
        rfl

end Cutting

section Finding

variable {q : Char → Bool} {front : List Char}

theorem find?_append_of_not (none : ∀ c ∈ front, q c = false) (cs : List Char) :
    (front ++ cs).find? q = cs.find? q := by
  have nothing : front.find? q = .none := List.find?_eq_none.mpr fun c member => by
    simp [none c member]
  rw [List.find?_append, nothing, Option.none_or]

/-- What is no blank is found in a trimmed text where it is found in the whole. -/
theorem find?_trim (solid : ∀ c, isBlank c = true → q c = false) (cs : List Char) :
    (trim cs).find? q = cs.find? q := by
  obtain ⟨before, after, blank, blankAfter, whole⟩ := exists_trim cs
  have nothing : after.find? q = none := List.find?_eq_none.mpr fun c member => by
    simp [solid c (blankAfter c member)]
  conv_rhs => rw [whole]
  rw [find?_append_of_not fun c member => solid c (blank c member), List.find?_append, nothing,
    Option.or_none]

/-- The first character that is no blank is the first that trimming leaves. -/
theorem head?_trim (cs : List Char) : (trim cs).head? = cs.find? fun c => !isBlank c := by
  rw [← find?_trim fun c blank => by rw [blank, Bool.not_true]]
  cases text : trim cs with
  | nil => rfl
  | cons c more =>
      have solid : isBlank c = false := solidHead_trim cs c (by rw [text]; rfl)
      rw [List.find?_cons, solid]
      rfl

theorem getLast?_trim {cs : List Char} (last : SolidLast cs) :
    (trim cs).getLast? = cs.getLast? := by
  have ends : trim cs = trimStart cs := trimEnd_eq_self (last.back (List.dropWhile_suffix _))
  by_cases none : trimStart cs = []
  · have blank := List.dropWhile_eq_nil_iff.mp none
    cases final : cs.getLast? with
    | none => rw [ends, none, List.getLast?_nil]
    | some c =>
        have solid := last c final
        rw [blank c (List.mem_of_getLast? final)] at solid
        cases solid
  · conv_rhs => rw [← List.takeWhile_append_dropWhile (p := isBlank) (l := cs)]
    rw [ends]
    exact (List.getLast?_append_of_ne_nil _ none).symm

end Finding

end PromptCanvas.Text
