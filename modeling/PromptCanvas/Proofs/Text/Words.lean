import Mathlib.Data.List.Basic
import PromptCanvas.Text.Blank
import PromptCanvas.Text.Caseless

/-! # Words in any case

What is read as a word folds to it (`word?_eq_some`).  Folding takes three letters for
ASCII letters that lower case does not turn into them (`foreignLetters`); without them the
lower case of a word is what it folds to, and with one of them it is not ASCII. -/

set_option autoImplicit false

namespace PromptCanvas.Text

section Reading

theorem word?_eq_some {word : List Char} : ∀ {cs read rest : List Char},
    word? word cs = some (read, rest) → cs = read ++ rest ∧ read.map fold = word := by
  induction word with
  | nil =>
      intro cs read rest found
      obtain ⟨rfl, rfl⟩ := Prod.mk.inj (Option.some.inj found)
      exact ⟨rfl, rfl⟩
  | cons w word ih =>
      intro cs read rest found
      cases cs with
      | nil => cases found
      | cons c cs =>
          rw [word?] at found
          by_cases same : fold c = w
          · rw [if_pos same] at found
            split at found
            · next more rest' further =>
                obtain ⟨rfl, rfl⟩ := Prod.mk.inj (Option.some.inj found)
                obtain ⟨rfl, rfl⟩ := ih further
                exact ⟨rfl, by rw [List.map_cons, same]⟩
            · cases found
          · rw [if_neg same] at found
            cases found

theorem oneOf?_eq_some {words : List (List Char)} {cs read rest : List Char}
    (found : oneOf? words cs = some (read, rest)) :
    cs = read ++ rest ∧ read.map fold ∈ words := by
  obtain ⟨word, listed, reads⟩ := List.exists_of_findSome?_eq_some found
  obtain ⟨whole, rfl⟩ := word?_eq_some reads
  exact ⟨whole, listed⟩

theorem word?_append {word : List Char} : ∀ {read : List Char}, read.map fold = word →
    ∀ rest, word? word (read ++ rest) = some (read, rest) := by
  induction word with
  | nil =>
      intro read same rest
      rw [List.map_eq_nil_iff.mp same]
      rfl
  | cons w word ih =>
      intro read same rest
      obtain ⟨c, read, rfl, folds, more⟩ := List.map_eq_cons_iff.mp same
      rw [List.cons_append, word?, if_pos folds, ih more]

theorem word?_of_head {w : Char} {word cs : List Char} (other : ∀ c ∈ cs.head?, fold c ≠ w) :
    word? (w :: word) cs = none := by
  cases cs with
  | nil => rfl
  | cons c cs => rw [word?, if_neg (other c rfl)]

/-- A whole text is read as the word that it folds to, if no other word begins it. -/
theorem oneOf?_of_fold {words : List (List Char)} {cs : List Char} (listed : cs.map fold ∈ words)
    (apart : ∀ word ∈ words, word <+: cs.map fold → word = cs.map fold) :
    oneOf? words cs = some (cs, []) := by
  have whole := word?_append (rfl : cs.map fold = cs.map fold) []
  rw [List.append_nil] at whole
  have reads : (oneOf? words cs).isSome :=
    List.findSome?_isSome_iff.mpr ⟨_, listed, by rw [whole]; rfl⟩
  obtain ⟨⟨read, rest⟩, found⟩ := Option.isSome_iff_exists.mp reads
  obtain ⟨parts, member⟩ := oneOf?_eq_some found
  have begins : read.map fold <+: cs.map fold := by
    rw [parts, List.map_append]
    exact List.prefix_append _ _
  have lengths := congrArg List.length (apart _ member begins)
  rw [List.length_map, List.length_map, parts, List.length_append] at lengths
  obtain rfl : rest = [] := List.eq_nil_of_length_eq_zero (by omega)
  rw [found, parts, List.append_nil]

end Reading

section Casing

/-- The letters that folding takes for ASCII letters and lower case does not. -/
def foreignLetters : List Char := ['\u017f', '\u0130', '\u0131']

theorem fold_eq_self {c : Char} (noCapital : ¬ (0x41 ≤ c.toNat ∧ c.toNat ≤ 0x5a))
    (plain : c ∉ foreignLetters) : fold c = c := by
  have small : c.toLower = c := by
    unfold Char.toLower
    split
    · next capital => exact absurd capital noCapital
    · rfl
  simp only [foreignLetters, List.mem_cons, List.not_mem_nil, or_false, not_or] at plain
  simp [fold, plain, small]

theorem fold_of_isDigit {c : Char} (digit : c.isDigit = true) : fold c = c := by
  have bounds : 48 ≤ c.toNat ∧ c.toNat ≤ 57 := Char.isDigit_iff_toNat.mp digit
  refine fold_eq_self (by omega) fun foreign => ?_
  simp only [foreignLetters, List.mem_cons, List.not_mem_nil, or_false] at foreign
  rcases foreign with rfl | rfl | rfl <;> cases digit

theorem fold_of_isBlank {c : Char} (blank : isBlank c = true) : fold c = c := by
  refine fold_eq_self ?_ fun foreign => ?_
  · simp only [isBlank, isSpace, inRanges, spaceRanges, List.any_cons, List.any_nil,
      Bool.or_false, Bool.or_eq_true, Bool.and_eq_true, decide_eq_true_eq] at blank
    omega
  · simp only [foreignLetters, List.mem_cons, List.not_mem_nil, or_false] at foreign
    rcases foreign with rfl | rfl | rfl <;> cases blank

variable {word : List Char}

theorem lower_eq_map_fold (plain : ∀ c ∈ word, c ∉ foreignLetters) :
    lower word = word.map fold := by
  rw [lower, List.map_eq_flatMap]
  refine List.flatMap_congr fun c member => ?_
  have other := plain c member
  simp only [foreignLetters, List.mem_cons, List.not_mem_nil, or_false, not_or] at other
  simp [fold, other.1, other.2.1, other.2.2]

/-- A foreign letter leaves a character in the lower case that is not ASCII. -/
theorem exists_mem_lower {c : Char} (member : c ∈ word) (foreign : c ∈ foreignLetters) :
    ∃ d ∈ lower word, 0x80 ≤ d.toNat := by
  have inside : ∀ d ∈ lower [c], d ∈ lower word := by
    intro d kept
    rw [lower, List.flatMap_singleton] at kept
    exact List.mem_flatMap.mpr ⟨c, member, kept⟩
  simp only [foreignLetters, List.mem_cons, List.not_mem_nil, or_false] at foreign
  rcases foreign with rfl | rfl | rfl
  · exact ⟨'\u017f', inside _ (by decide), by decide⟩
  · exact ⟨'\u0307', inside _ (by decide), by decide⟩
  · exact ⟨'\u0131', inside _ (by decide), by decide⟩

end Casing

end PromptCanvas.Text
