import Mathlib.Data.List.Basic
import Mathlib.Tactic.SplitIfs
import PromptCanvas.Json.Printer
import PromptCanvas.Json.Reader
import PromptCanvas.Proofs.Text.Digits

/-! # Strings in JSON texts

A written string is read back as it was, by the strict reading as by the other
(`scanString_escaped`): every escape is read as the code units of its
character, and the code units of characters make up these characters again
(`charsOfUnits_unitsOf`). -/

set_option autoImplicit false

namespace PromptCanvas.Json

section Units

/-- The code units that a written character is read as: a character beyond the
first plane is two surrogates if it was escaped. -/
def unitsOf (asciiOnly : Bool) (c : Char) : List Nat :=
  if asciiOnly && decide (0xffff < c.toNat) then
    [0xd800 + (c.toNat - 0x10000) / 0x400, 0xdc00 + (c.toNat - 0x10000) % 0x400]
  else [c.toNat]

theorem toNat_bounds (c : Char) : c.toNat < 0xd800 ∨ 0xdfff < c.toNat ∧ c.toNat < 0x110000 :=
  c.valid

theorem charOfValue_toNat (c : Char) : Text.charOfValue c.toNat = c := by
  have bounds := toNat_bounds c
  have plain : Text.isSurrogate c.toNat = false := by
    simp only [Text.isSurrogate, Text.isHighSurrogate, Text.isLowSurrogate, Bool.or_eq_false_iff,
      Bool.and_eq_false_iff, decide_eq_false_iff_not]
    omega
  rw [Text.charOfValue, plain]
  exact Char.ofNat_toNat c

theorem charsOfUnits_cons {n : Nat} (plain : Text.isHighSurrogate n = false) (units : List Nat) :
    Text.charsOfUnits (n :: units) = Text.charOfValue n :: Text.charsOfUnits units := by
  cases units with
  | nil => rfl
  | cons next rest => rw [Text.charsOfUnits, plain, Bool.false_and]; rfl

theorem charsOfUnits_pair {high low : Nat} (isHigh : Text.isHighSurrogate high = true)
    (isLow : Text.isLowSurrogate low = true) (units : List Nat) :
    Text.charsOfUnits (high :: low :: units) =
      Char.ofNat (0x10000 + (high - 0xd800) * 0x400 + (low - 0xdc00)) ::
        Text.charsOfUnits units := by
  rw [Text.charsOfUnits, isHigh, isLow]
  rfl

theorem charsOfUnits_unitsOf (asciiOnly : Bool) (cs : List Char) :
    Text.charsOfUnits (cs.flatMap (unitsOf asciiOnly)) = cs := by
  induction cs with
  | nil => rfl
  | cons c cs ih =>
      have bounds := toNat_bounds c
      rw [List.flatMap_cons, unitsOf]
      split
      case isTrue wide =>
        have beyond : 0xffff < c.toNat := by
          rw [Bool.and_eq_true, decide_eq_true_iff] at wide
          exact wide.2
        rw [List.cons_append, List.cons_append, List.nil_append, charsOfUnits_pair, ih]
        · have value : 0x10000 + (0xd800 + (c.toNat - 0x10000) / 0x400 - 0xd800) * 0x400 +
              (0xdc00 + (c.toNat - 0x10000) % 0x400 - 0xdc00) = c.toNat := by omega
          rw [value, Char.ofNat_toNat]
        · simp only [Text.isHighSurrogate, Bool.and_eq_true, decide_eq_true_iff]
          omega
        · simp only [Text.isLowSurrogate, Bool.and_eq_true, decide_eq_true_iff]
          omega
      case isFalse =>
        rw [List.cons_append, List.nil_append, charsOfUnits_cons, ih, charOfValue_toNat]
        simp only [Text.isHighSurrogate, Bool.and_eq_false_iff, decide_eq_false_iff_not]
        omega

end Units

section Escapes

variable (strict : Bool) (start : List Char)

theorem stringUnits_quote (rest : List Char) :
    stringUnits strict start ('"' :: rest) = .ok ([], rest) := by
  rw [stringUnits.eq_def]
  exact if_pos rfl

theorem stringUnits_simple {e plain : Char} (escape : simpleEscape? e = some plain)
    (rest : List Char) :
    stringUnits strict start ('\\' :: e :: rest) =
      consUnit plain.toNat (stringUnits strict start rest) := by
  have other : e ≠ 'u' := by
    rintro rfl
    cases escape
  rw [stringUnits, if_neg (by decide), if_pos rfl, escape]
  exact other

theorem stringUnits_unicode {n : Nat} (fits : n < 0x10000) {rest : List Char}
    (more : rest ≠ []) :
    stringUnits strict start (unicodeEscape n ++ rest) =
      consUnit n (stringUnits strict start rest) := by
  have digits := Text.hexNumber?_hexText 4 n
  have four : (Text.hexText 4 n).length = 4 := Text.length_hexText (by decide) fits
  obtain ⟨a, b, c, d, written⟩ := List.length_eq_four.mp four
  obtain ⟨e, others, rfl⟩ := List.exists_cons_of_ne_nil more
  rw [written] at digits
  rw [unicodeEscape, written]
  simp only [List.cons_append, List.nil_append]
  rw [stringUnits, if_neg (by decide), if_pos rfl, digits]

theorem stringUnits_plain {c : Char} (noQuote : c ≠ '"') (noEscape : c ≠ '\\')
    (printable : ¬ c.toNat < 0x20) (rest : List Char) :
    stringUnits strict start (c :: rest) = consUnit c.toNat (stringUnits strict start rest) := by
  have accepted : (strict && decide (c.toNat < 0x20)) ≠ true := by
    simp only [ne_eq, Bool.and_eq_true, decide_eq_true_iff, not_and]
    exact fun _ => printable
  rw [stringUnits.eq_def]
  simp only [if_neg noQuote, if_neg noEscape, if_neg accepted]

theorem stringUnits_escapedUnits {asciiOnly : Bool} {c : Char}
    (escaped : c.toNat < 0x20 ∨ asciiOnly = true) {rest : List Char} (more : rest ≠ []) :
    stringUnits strict start (escapedUnits c.toNat ++ rest) =
      (unitsOf asciiOnly c).foldr consUnit (stringUnits strict start rest) := by
  have bounds := toNat_bounds c
  rw [escapedUnits, unitsOf]
  split
  case isTrue narrow =>
    have single : (asciiOnly && decide (0xffff < c.toNat)) ≠ true := by
      simp only [ne_eq, Bool.and_eq_true, decide_eq_true_iff]
      omega
    rw [stringUnits_unicode strict start narrow more, if_neg single, List.foldr_cons,
      List.foldr_nil]
  case isFalse wide =>
    have beyond : 0xffff < c.toNat := by omega
    have double : (asciiOnly && decide (0xffff < c.toNat)) = true := by
      simp only [Bool.and_eq_true, decide_eq_true_iff]
      exact ⟨escaped.resolve_left (by omega), beyond⟩
    have high : 0xd800 + (c.toNat - 0x10000) / 0x400 < 0x10000 := by omega
    have low : 0xdc00 + (c.toNat - 0x10000) % 0x400 < 0x10000 := by omega
    have between := List.append_ne_nil_of_right_ne_nil (unicodeEscape
      (0xdc00 + (c.toNat - 0x10000) % 0x400)) more
    rw [if_pos double, List.append_assoc, stringUnits_unicode strict start high between,
      stringUnits_unicode strict start low more, List.foldr_cons, List.foldr_cons, List.foldr_nil]

theorem stringUnits_escapeChar (asciiOnly : Bool) (c : Char) {rest : List Char}
    (more : rest ≠ []) :
    stringUnits strict start (escapeChar asciiOnly c ++ rest) =
      (unitsOf asciiOnly c).foldr consUnit (stringUnits strict start rest) := by
  have simple : ∀ e plain : Char, simpleEscape? e = some plain → plain.toNat < 0x10000 →
      stringUnits strict start (['\\', e] ++ rest) =
        (unitsOf asciiOnly plain).foldr consUnit (stringUnits strict start rest) := by
    intro e plain escape narrow
    have single : (asciiOnly && decide (0xffff < plain.toNat)) ≠ true := by
      simp only [ne_eq, Bool.and_eq_true, decide_eq_true_iff]
      omega
    rw [unitsOf, if_neg single]
    exact stringUnits_simple strict start escape rest
  unfold escapeChar
  split_ifs with quote backslash newline ret tab back feed coded
  · subst quote; exact simple '"' _ rfl (by decide)
  · subst backslash; exact simple '\\' _ rfl (by decide)
  · subst newline; exact simple 'n' _ rfl (by decide)
  · subst ret; exact simple 'r' _ rfl (by decide)
  · subst tab; exact simple 't' _ rfl (by decide)
  · subst back; exact simple 'b' _ rfl (by decide)
  · subst feed; exact simple 'f' _ rfl (by decide)
  · refine stringUnits_escapedUnits strict start ?_ more
    simp only [Bool.or_eq_true, Bool.and_eq_true, decide_eq_true_iff] at coded
    exact coded.imp id And.left
  · simp only [Bool.or_eq_true, Bool.and_eq_true, decide_eq_true_iff, not_or, not_and] at coded
    have single : (asciiOnly && decide (0xffff < c.toNat)) ≠ true := by
      simp only [ne_eq, Bool.and_eq_true, decide_eq_true_iff]
      rintro ⟨only, beyond⟩
      exact absurd (coded.2 only) (by omega)
    rw [unitsOf, if_neg single]
    exact stringUnits_plain strict start quote backslash coded.1 rest

end Escapes

section Strings

theorem foldr_consUnit_ok (units more : List Nat) (rest : List Char) :
    units.foldr consUnit (.ok (more, rest)) = .ok (units ++ more, rest) := by
  induction units with
  | nil => rfl
  | cons unit units ih => rw [List.foldr_cons, ih]; rfl

theorem stringUnits_escaped (strict : Bool) (start : List Char) (asciiOnly : Bool)
    (cs rest : List Char) :
    stringUnits strict start (cs.flatMap (escapeChar asciiOnly) ++ '"' :: rest) =
      .ok (cs.flatMap (unitsOf asciiOnly), rest) := by
  induction cs with
  | nil => exact stringUnits_quote strict start rest
  | cons c cs ih =>
      rw [List.flatMap_cons, List.append_assoc,
        stringUnits_escapeChar strict start asciiOnly c (by simp), ih, foldr_consUnit_ok,
        List.flatMap_cons]

/-- What stands after the opening mark of a written string is read as that string. -/
theorem scanString_escaped (strict : Bool) (start : List Char) (asciiOnly : Bool) (s : String)
    (rest : List Char) :
    scanString strict start (s.toList.flatMap (escapeChar asciiOnly) ++ '"' :: rest) =
      .ok (s, rest) := by
  rw [scanString, stringUnits_escaped]
  simp only [charsOfUnits_unitsOf, String.ofList_toList]

end Strings

end PromptCanvas.Json
