import Mathlib.Data.Bool.AllAny
import PromptCanvas.Proofs.Json.Grammar
import PromptCanvas.Proofs.Text.Searching

/-! # Edges of JSON texts

What spells a value begins and ends with a printed character that marks no fence
(`Spells.edged`), so that trimming a text that is read leaves the spelling in it
(`spells_trim_of_read`). -/

set_option autoImplicit false

namespace PromptCanvas

namespace Text

section Printed

/-- A printed ASCII character other than the mark of a fence. -/
def IsPrinted (c : Char) : Prop := 0x20 < c.toNat ∧ c.toNat < 0x7f ∧ c ≠ '\x60'

instance (c : Char) : Decidable (IsPrinted c) :=
  inferInstanceAs (Decidable (0x20 < c.toNat ∧ c.toNat < 0x7f ∧ c ≠ '\x60'))

theorem IsPrinted.solid {c : Char} (printed : IsPrinted c) : isBlank c = false := by
  obtain ⟨low, high, -⟩ := printed
  simp only [isBlank, isSpace, inRanges, spaceRanges, List.any_cons, List.any_nil, Bool.or_false,
    Bool.or_eq_false_iff, Bool.and_eq_false_iff, decide_eq_false_iff_not]
  omega

theorem isPrinted_of_isDigit {c : Char} (digit : c.isDigit = true) : IsPrinted c := by
  have bounds := Numeral.toNat_of_isDigit digit
  refine ⟨by omega, by omega, ?_⟩
  rintro rfl
  exact absurd digit (by decide)

structure Edged (cs : List Char) : Prop where
  nonempty : cs ≠ []
  head : ∀ c ∈ cs.head?, IsPrinted c
  last : ∀ c ∈ cs.getLast?, IsPrinted c

namespace Edged

variable {cs other : List Char}

theorem congr (edged : Edged cs) (head : other.head? = cs.head?)
    (last : other.getLast? = cs.getLast?) : Edged other where
  nonempty := by
    rintro rfl
    exact edged.nonempty (List.head?_eq_none_iff.mp head.symm)
  head := head ▸ edged.head
  last := last ▸ edged.last

theorem solidHead (edged : Edged cs) : SolidHead cs := fun c head => (edged.head c head).solid

theorem solidLast (edged : Edged cs) : SolidLast cs := fun c last => (edged.last c last).solid

theorem trim_eq (edged : Edged cs) : trim cs = cs :=
  (trim_eq_self_iff cs).mpr ⟨edged.solidHead, edged.solidLast⟩

theorem isBlankText_eq (edged : Edged cs) : isBlankText cs = false := by
  rw [← Bool.not_eq_true, isBlankText_iff, edged.trim_eq]
  exact edged.nonempty

end Edged

end Printed

end Text

namespace Json

open Text (IsPrinted)

section Edges

theorem SpellsScalar.printed {v : Json} {cs : List Char} (spelled : SpellsScalar v cs) :
    ∀ c ∈ cs, IsPrinted c :=
  spelled.forall_mem (fun _ digit => Text.isPrinted_of_isDigit digit)
    (List.all_iff_forall_prop.mp (by decide))

variable {strict : Bool} {v : Json} {cs : List Char}

theorem Spells.printed (spelled : Spells strict v cs) :
    (∀ c ∈ cs.head?, IsPrinted c) ∧ ∀ c ∈ cs.getLast?, IsPrinted c := by
  have marked : ∀ {first last : Char} (inner : List Char), IsPrinted first → IsPrinted last →
      (∀ c ∈ (first :: (inner ++ [last])).head?, IsPrinted c) ∧
        ∀ c ∈ (first :: (inner ++ [last])).getLast?, IsPrinted c := by
    intro first last inner firstPrinted lastPrinted
    constructor
    · rintro c ⟨⟩
      exact firstPrinted
    · rw [← List.cons_append, List.getLast?_append_of_ne_nil _ (List.cons_ne_nil _ _)]
      rintro c ⟨⟩
      exact lastPrinted
  cases spelled with
  | scalar spelled =>
      exact ⟨fun c head => spelled.printed c (List.mem_of_mem_head? head),
        fun c last => spelled.printed c (List.mem_of_mem_getLast? last)⟩
  | string spelled =>
      cases spelled
      exact marked _ (by decide) (by decide)
  | noItems => exact marked _ (by decide) (by decide)
  | array =>
      rw [← List.append_assoc]
      exact marked _ (by decide) (by decide)
  | noFields => exact marked _ (by decide) (by decide)
  | object =>
      rw [← List.append_assoc]
      exact marked _ (by decide) (by decide)

theorem Spells.edged (spelled : Spells strict v cs) : Text.Edged cs :=
  ⟨List.length_pos_iff.mp spelled.length_pos, spelled.printed.1, spelled.printed.2⟩

theorem isBlank_of_isJsonSpace {c : Char} (space : isJsonSpace c = true) :
    Text.isBlank c = true := by
  simp only [isJsonSpace, Bool.or_eq_true, decide_eq_true_iff] at space
  rcases space with ((rfl | rfl) | rfl) | rfl <;> decide

theorem trim_spaced {before after : List Char} (spaces : Spaces before) (afterSpaces : Spaces after)
    (edged : Text.Edged cs) : Text.trim (before ++ (cs ++ after)) = cs :=
  Text.trim_surrounded (fun c member => isBlank_of_isJsonSpace (spaces c member))
    (fun c member => isBlank_of_isJsonSpace (afterSpaces c member)) edged.solidHead edged.solidLast
    edged.nonempty

theorem spells_trim_of_read (reading : read strict cs = .ok v) :
    Spells strict v (Text.trim cs) := by
  obtain ⟨before, text, after, spaces, afterSpaces, spelled, rfl⟩ :=
    (read_eq_ok_iff strict cs v).mp reading
  rw [trim_spaced spaces afterSpaces spelled.edged]
  exact spelled

theorem read_of_load (loaded : load cs = .ok v) : read true cs = .ok v := by
  unfold load at loaded
  split at loaded
  · cases loaded
  · exact loaded

theorem Spells.read_eq (spelled : Spells strict v cs) : read strict cs = .ok v :=
  (read_eq_ok_iff strict cs v).mpr ⟨[], cs, [], List.forall_mem_nil _, List.forall_mem_nil _,
    spelled, by simp⟩

end Edges

end Json

end PromptCanvas
