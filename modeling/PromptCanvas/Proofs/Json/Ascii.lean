import PromptCanvas.Proofs.Json.Numbers
import PromptCanvas.Proofs.Json.Strings

/-! # ASCII texts of values

A style that escapes every other character writes ASCII characters only
(`ascii_textAt`). -/

set_option autoImplicit false

namespace PromptCanvas

namespace Text

def Ascii (cs : List Char) : Prop := ∀ c ∈ cs, c.toNat < 0x80

instance (cs : List Char) : Decidable (Ascii cs) :=
  decidable_of_iff (cs.all (fun c => c.toNat < 0x80) = true) (by simp [Ascii])

section Lists

theorem ascii_append {front back : List Char} :
    Ascii (front ++ back) ↔ Ascii front ∧ Ascii back := List.forall_mem_append

theorem ascii_cons {c : Char} {cs : List Char} :
    Ascii (c :: cs) ↔ c.toNat < 0x80 ∧ Ascii cs := List.forall_mem_cons

theorem ascii_nil : Ascii [] := List.forall_mem_nil _

theorem ascii_replicate (k : Nat) {c : Char} (small : c.toNat < 0x80) :
    Ascii (List.replicate k c) := by
  intro d member
  rwa [List.eq_of_mem_replicate member]

theorem ascii_digits {ds : List Char} (digits : ds.all Char.isDigit = true) : Ascii ds := by
  intro c member
  have := Numeral.toNat_of_isDigit (List.all_eq_true.mp digits c member)
  omega

theorem ascii_hexText (width n : Nat) : Ascii (hexText width n) := by
  have digit : ∀ d < 16, (Nat.digitChar d).toNat < 0x80 := by decide
  refine ascii_append.mpr ⟨ascii_replicate _ (by decide), fun c member => ?_⟩
  obtain ⟨d, small, rfl⟩ := Numeral.mem_toDigits (by decide) n member
  exact digit d small

end Lists

end Text

namespace Json

open Text (Ascii ascii_append ascii_cons ascii_nil)

section Scalars

theorem ascii_unicodeEscape (n : Nat) : Ascii (unicodeEscape n) :=
  ascii_cons.mpr ⟨by decide, ascii_cons.mpr ⟨by decide, Text.ascii_hexText 4 n⟩⟩

theorem ascii_escapedUnits (n : Nat) : Ascii (escapedUnits n) := by
  unfold escapedUnits
  split
  · exact ascii_unicodeEscape _
  · exact ascii_append.mpr ⟨ascii_unicodeEscape _, ascii_unicodeEscape _⟩

theorem ascii_escapeChar (c : Char) : Ascii (escapeChar true c) := by
  have escape : ∀ d : Char, d.toNat < 0x80 → Ascii ['\\', d] := fun d small =>
    ascii_cons.mpr ⟨by decide, ascii_cons.mpr ⟨small, ascii_nil⟩⟩
  unfold escapeChar
  split_ifs with quote backslash newline ret tab back feed coded
  · exact escape '"' (by decide)
  · exact escape '\\' (by decide)
  · exact escape 'n' (by decide)
  · exact escape 'r' (by decide)
  · exact escape 't' (by decide)
  · exact escape 'b' (by decide)
  · exact escape 'f' (by decide)
  · exact ascii_escapedUnits c.toNat
  · simp only [Bool.true_and, Bool.or_eq_true, decide_eq_true_iff, not_or] at coded
    exact ascii_cons.mpr ⟨by omega, ascii_nil⟩

theorem ascii_stringText (s : String) : Ascii (stringText true s) := by
  refine ascii_append.mpr ⟨ascii_cons.mpr ⟨by decide, fun c member => ?_⟩,
    ascii_cons.mpr ⟨by decide, ascii_nil⟩⟩
  obtain ⟨d, -, inside⟩ := List.mem_flatMap.mp member
  exact ascii_escapeChar d c inside

theorem ascii_intText (n : Int) : Ascii (intText n) := by
  have digits := Text.ascii_digits (Numeral.all_isDigit_toDigits n.natAbs)
  unfold intText
  split
  · exact ascii_cons.mpr ⟨by decide, digits⟩
  · exact digits

theorem ascii_jsonText (x : Binary64) : Ascii x.jsonText := by
  have sign : ∀ negative, Ascii (Binary64.textWith.sign negative) := by
    intro negative
    cases negative <;> decide
  have word : Ascii "NaN".toList ∧ Ascii "Infinity".toList := by decide
  cases x with
  | nan => exact word.1
  | infinite negative => exact ascii_append.mpr ⟨sign negative, word.2⟩
  | finite negative m =>
      obtain ⟨whole, fraction, exponent, written, numeral, -⟩ :=
        Binary64.numeral_jsonText negative m
      rw [written]
      refine ascii_append.mpr ⟨sign negative, ascii_append.mpr ⟨?_, ascii_append.mpr ⟨?_, ?_⟩⟩⟩
      · cases numeral.whole with
        | zero => exact ascii_cons.mpr ⟨by decide, ascii_nil⟩
        | digits _ all => exact Text.ascii_digits all
      · cases numeral.fraction with
        | absent => exact ascii_nil
        | digits _ all => exact ascii_cons.mpr ⟨by decide, Text.ascii_digits all⟩
      · cases numeral.exponent with
        | absent => exact ascii_nil
        | digits signed _ all =>
            refine ascii_cons.mpr ⟨by decide, ascii_cons.mpr ⟨?_, Text.ascii_digits all⟩⟩
            rcases signed with rfl | rfl <;> decide

end Scalars

section Values

theorem ascii_lineBreak (style : Style) (depth : Nat) : Ascii (lineBreak style depth) := by
  unfold lineBreak
  split
  · exact ascii_nil
  · exact ascii_cons.mpr ⟨by decide, Text.ascii_replicate _ (by decide)⟩

theorem ascii_separator (style : Style) (depth : Nat) : Ascii (separator style depth) := by
  unfold separator
  split
  · decide
  · exact ascii_cons.mpr ⟨by decide, ascii_lineBreak style depth⟩

variable {style : Style}

mutual

theorem ascii_textAt (escapes : style.asciiOnly = true) :
    ∀ (j : Json) (depth : Nat), Ascii (textAt style depth j)
  | .null, _ => (by decide : Ascii "null".toList)
  | .bool true, _ => (by decide : Ascii "true".toList)
  | .bool false, _ => (by decide : Ascii "false".toList)
  | .int n, _ => ascii_intText n
  | .float x, _ => ascii_jsonText x
  | .string s, _ => by
      rw [textAt, escapes]
      exact ascii_stringText s
  | .array [], _ => (by decide : Ascii ['[', ']'])
  | .array (item :: items), depth => by
      have first := ascii_textAt escapes item (depth + 1)
      have others := ascii_itemsText escapes items (depth + 1)
      simp [textAt, ascii_append, ascii_cons, ascii_nil, ascii_lineBreak, first, others]
  | .object [], _ => (by decide : Ascii ['\x7b', '\x7d'])
  | .object ((key, value) :: fields), depth => by
      have first := ascii_textAt escapes value (depth + 1)
      have others := ascii_fieldsText escapes fields (depth + 1)
      simp [textAt, ascii_append, ascii_cons, ascii_nil, ascii_lineBreak, ascii_stringText,
        escapes, first, others]

theorem ascii_itemsText (escapes : style.asciiOnly = true) :
    ∀ (items : List Json) (depth : Nat), Ascii (itemsText style depth items)
  | [], _ => ascii_nil
  | item :: items, depth => by
      have first := ascii_textAt escapes item depth
      have others := ascii_itemsText escapes items depth
      simp [itemsText, ascii_append, ascii_separator, first, others]

theorem ascii_fieldsText (escapes : style.asciiOnly = true) :
    ∀ (fields : List (String × Json)) (depth : Nat), Ascii (fieldsText style depth fields)
  | [], _ => ascii_nil
  | (key, value) :: fields, depth => by
      have first := ascii_textAt escapes value depth
      have others := ascii_fieldsText escapes fields depth
      simp [fieldsText, ascii_append, ascii_cons, ascii_separator, ascii_stringText, escapes, first,
        others]

end

end Values

end Json

end PromptCanvas
