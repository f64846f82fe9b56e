import PromptCanvas.Json.Encoding
import PromptCanvas.Proofs.Json.Rewriting
import PromptCanvas.Proofs.Json.Zones
import PromptCanvas.Proofs.Text.Utf8
import PromptCanvas.Text.Lines

/-! # JSON texts in files and requests

A strict reading finds carriage returns only in the blanks of a text, so that it comes to the same
when all lines are ended in one way (`load_universalNewlines`).  And it finds no zero anywhere, so
that the encoding of a text in UTF-8 is not taken for another (`decode?_encodeUtf8`). -/

set_option autoImplicit false

namespace PromptCanvas

namespace Text

section Newlines

variable {cs front back : List Char}

end Newlines

end Text

namespace Json

open Text (universalNewlines)

section Controls

def isPlain (c : Char) : Bool := isJsonSpace c || 0x20 ≤ c.toNat

theorem isPlain_of_isPrinted {c : Char} (printed : Text.IsPrinted c) : isPlain c = true := by
  simp [isPlain, Nat.le_of_lt printed.1]

theorem bound_of_hexValue? {c : Char} (digit : (Text.hexValue? c).isSome = true) :
    0x20 ≤ c.toNat := by
  unfold Text.hexValue? at digit
  split at digit
  · next decimal =>
      have := Numeral.toNat_of_isDigit decimal
      omega
  · split at digit
    · next lower => exact Nat.le_trans (by decide) lower.1
    · split at digit
      · next upper => exact Nat.le_trans (by decide) upper.1
      · cases digit

/-- No control character stands in a string that is read strictly. -/
theorem SpellsUnits.noControl {units : List Nat} {cs : List Char}
    (spelled : SpellsUnits true units cs) : ∀ c ∈ cs, 0x20 ≤ c.toNat := by
  induction spelled with
  | nil => exact List.forall_mem_nil _
  | plain _ _ allowed _ ih =>
      simp only [Bool.true_and, decide_eq_false_iff_not, Nat.not_lt] at allowed
      exact List.forall_mem_cons.mpr ⟨allowed, ih⟩
  | @simple e plain units cs escape _ ih =>
      have printed : 0x20 ≤ e.toNat := by
        unfold simpleEscape? at escape
        split at escape
        any_goals decide
        cases escape
      exact List.forall_mem_cons.mpr ⟨by decide, List.forall_mem_cons.mpr ⟨printed, ih⟩⟩
  | unicode digits _ ih =>
      have printed := fun c member =>
        bound_of_hexValue? (Text.isSome_hexValue?_of_hexNumber? digits c member)
      simp only [List.forall_mem_cons] at printed ⊢
      exact ⟨by decide, by decide, printed.1, printed.2.1, printed.2.2.1, printed.2.2.2.1, ih⟩

theorem SpellsString.noControl {s : String} {cs : List Char} (spelled : SpellsString true s cs) :
    ∀ c ∈ cs, 0x20 ≤ c.toNat := by
  cases spelled with
  | marked units =>
      refine List.forall_mem_cons.mpr ⟨by decide, List.forall_mem_append.mpr ⟨units.noControl, ?_⟩⟩
      exact List.forall_mem_singleton.mpr (by decide)

theorem SpellsString.plain {s : String} {cs : List Char} (spelled : SpellsString true s cs) :
    cs.all isPlain = true :=
  List.all_eq_true.mpr fun c member => by simp [isPlain, spelled.noControl c member]

theorem SpellsScalar.plain {v : Json} {cs : List Char} (spelled : SpellsScalar v cs) :
    cs.all isPlain = true :=
  List.all_eq_true.mpr fun c member => isPlain_of_isPrinted (spelled.printed c member)

theorem Spaces.plain {gap : List Char} (spaces : Spaces gap) : gap.all isPlain = true :=
  List.all_eq_true.mpr fun c member => by rw [isPlain, spaces c member]; rfl

theorem isPlain_joint {m : Char} (joint : m ∈ ['[', ']', '\x7b', '\x7d', ':', ',']) :
    isPlain m = true :=
  (forall_joints (p := fun m => isPlain m = true)).mpr (by decide) m joint

mutual

/-- Control characters stand only in the blanks of what is spelled strictly. -/
theorem Spells.plain : ∀ {v : Json} {cs : List Char}, Spells true v cs → cs.all isPlain = true
  | _, _, .scalar spelled => spelled.plain
  | _, _, .string spelled => spelled.plain
  | _, _, .noItems spaces => by simp [isPlain_joint, spaces.plain]
  | _, _, .array spaces spelled => by simp [isPlain_joint, spaces.plain, spelled.plain]
  | _, _, .noFields spaces => by simp [isPlain_joint, spaces.plain]
  | _, _, .object spaces spelled => by simp [isPlain_joint, spaces.plain, spelled.plain]

theorem SpellsItems.plain : ∀ {vs : List Json} {cs : List Char}, SpellsItems true vs cs →
    cs.all isPlain = true
  | _, _, .last spelled spaces => by simp [spelled.plain, spaces.plain]
  | _, _, .more spelled spaces nextSpaces others => by
      simp [isPlain_joint, spelled.plain, spaces.plain, nextSpaces.plain, others.plain]

theorem SpellsMember.plain : ∀ {field : String × Json} {cs : List Char},
    SpellsMember true field cs → cs.all isPlain = true
  | _, _, .colon named before after spelled => by
      simp [isPlain_joint, named.plain, before.plain, after.plain, spelled.plain]

theorem SpellsMembers.plain : ∀ {fields : List (String × Json)} {cs : List Char},
    SpellsMembers true fields cs → cs.all isPlain = true
  | _, _, .last spelled spaces => by simp [spelled.plain, spaces.plain]
  | _, _, .more spelled spaces nextSpaces others => by
      simp [isPlain_joint, spelled.plain, spaces.plain, nextSpaces.plain, others.plain]

end

end Controls

section Returns

end Returns

section Encodings

end Encodings

end Json

end PromptCanvas
