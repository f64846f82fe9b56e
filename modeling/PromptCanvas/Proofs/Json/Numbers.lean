import PromptCanvas.Json.Printer
import PromptCanvas.Json.Reader
import PromptCanvas.Proofs.Number.Spelling

/-! # Numbers in JSON texts

A written integer of not too many digits is read back as it was (`scanScalar_intText`),
and a written binary64 number as a binary64 number (`scanScalar_jsonText`), the one that
its text stands for (`Binary64.reread`), as long as nothing follows that could belong
to a number. -/

set_option autoImplicit false

namespace PromptCanvas

namespace Json

open Numeral (NoDigitHead Whole Fraction Exponent IsNumeral)

section Parts

/-- A text that cannot go on a number before it. -/
def NumberEnds (cs : List Char) : Prop :=
  ∀ c ∈ cs.head?, c.isDigit = false ∧ c ≠ '.' ∧ c ≠ 'e' ∧ c ≠ 'E'

theorem numberEnds_nil : NumberEnds [] := by
  rintro c ⟨⟩

theorem NumberEnds.noDigitHead {cs : List Char} (ends : NumberEnds cs) : NoDigitHead cs :=
  fun c head => (ends c head).1

theorem wholeDigits?_append {whole rest : List Char} (numeral : Whole whole)
    (stop : NoDigitHead rest) : wholeDigits? (whole ++ rest) = some (whole, rest) := by
  cases numeral with
  | zero => rfl
  | @digits d ds nonzero all =>
      have cut := Numeral.span_digits all stop
      rw [List.cons_append] at cut ⊢
      rw [wholeDigits?]
      · rw [cut]
      · intro others same
        exact nonzero (List.cons.inj same).1

theorem fractionDigits_of_ne {cs : List Char} (noPoint : ∀ c ∈ cs.head?, c ≠ '.') :
    fractionDigits cs = ([], cs) := by
  cases cs with
  | nil => rfl
  | cons c cs =>
      rw [fractionDigits]
      intro after same
      exact noPoint c rfl (List.cons.inj same).1

theorem fractionDigits_append {ds rest : List Char} (nonempty : ds ≠ [])
    (all : ds.all Char.isDigit = true) (stop : NoDigitHead rest) :
    fractionDigits ('.' :: ds ++ rest) = (ds, rest) := by
  obtain ⟨d, more, rfl⟩ := List.exists_cons_of_ne_nil nonempty
  rw [List.cons_append, fractionDigits, Numeral.span_digits all stop]

theorem exponentPart?_of_ne {cs : List Char} (noMark : ∀ c ∈ cs.head?, c ≠ 'e' ∧ c ≠ 'E') :
    exponentPart? cs = none := by
  cases cs with
  | nil => rfl
  | cons c cs =>
      have other := noMark c rfl
      simp [exponentPart?, other.1, other.2]

theorem exponentPart?_append {sign : Char} {ds rest : List Char}
    (signed : sign = '+' ∨ sign = '-') (nonempty : ds ≠ []) (all : ds.all Char.isDigit = true)
    (stop : NoDigitHead rest) :
    exponentPart? ('e' :: sign :: ds ++ rest) =
      some (if sign = '-' then -(Numeral.natOf ds : Int) else Numeral.natOf ds, rest) := by
  obtain ⟨d, others, rfl⟩ := List.exists_cons_of_ne_nil nonempty
  have cut := Numeral.span_digits all stop
  rcases signed with rfl | rfl <;>
    · simp only [exponentPart?, List.cons_append, Numeral.signOf] at cut ⊢
      rw [cut]
      rfl

end Parts

section Numerals

open Binary64.textWith (sign)

/-- The reading of a number once its sign and the text after it are known. -/
theorem scanNumber?_signed {negative : Bool} {cs : List Char} (unsigned : ∀ c ∈ cs.head?, c ≠ '-') :
    scanNumber? (sign negative ++ cs) =
      (wholeDigits? cs).map fun parts => afterWhole negative parts.1 parts.2 := by
  unfold scanNumber?
  split
  rename_i _ given text signed
  have same : (given, text) = (negative, cs) := by
    rw [← signed]
    cases negative with
    | true => rfl
    | false =>
        split
        · rename_i rest found
          exact absurd rfl (unsigned '-' ((congrArg List.head? found).trans rfl))
        · rfl
  cases same
  rfl

theorem all_whole {whole : List Char} (numeral : Whole whole) :
    whole.all Char.isDigit = true := by
  cases numeral with
  | zero => rfl
  | digits nonzero all => exact all

theorem head_whole {whole : List Char} (numeral : Whole whole) :
    ∃ d ds, whole = d :: ds ∧ d.isDigit = true := by
  have all := all_whole numeral
  cases numeral with
  | zero => exact ⟨_, _, rfl, rfl⟩
  | @digits d ds nonzero _ =>
      rw [List.all_cons, Bool.and_eq_true] at all
      exact ⟨d, ds, rfl, all.1⟩

theorem ne_of_isDigit {c d : Char} (digit : d.isDigit = true) (other : c.isDigit = false) :
    d ≠ c := by
  rintro rfl
  rw [digit] at other
  cases other

theorem scanNumber?_whole (negative : Bool) {whole rest : List Char} (numeral : Whole whole)
    (stop : NoDigitHead rest) :
    scanNumber? (sign negative ++ (whole ++ rest)) = some (afterWhole negative whole rest) := by
  obtain ⟨d, ds, written, digit⟩ := head_whole numeral
  rw [scanNumber?_signed, wholeDigits?_append numeral stop]
  · rfl
  · rw [written]
    rintro c ⟨⟩
    exact ne_of_isDigit digit rfl

/-- A text that makes no more than an integer of the digits before it. -/
structure IntegerEnds (cs : List Char) : Prop where
  noDigit : NoDigitHead cs
  noFraction : fractionDigits cs = ([], cs)
  noExponent : exponentPart? cs = none

theorem NumberEnds.integerEnds {cs : List Char} (ends : NumberEnds cs) : IntegerEnds cs where
  noDigit := ends.noDigitHead
  noFraction := fractionDigits_of_ne fun c head => (ends c head).2.1
  noExponent := exponentPart?_of_ne fun c head => (ends c head).2.2

theorem afterWhole_ends (negative : Bool) (whole : List Char) {rest : List Char}
    (ends : IntegerEnds rest) :
    afterWhole negative whole rest = (integer negative whole, rest) := by
  rw [afterWhole, ends.noFraction]
  simp only [ends.noExponent, List.append_nil]
  rfl

theorem noDigitHead_exponent {exponent rest : List Char} (mark : Exponent exponent)
    (ends : NumberEnds rest) :
    NoDigitHead (exponent ++ rest) ∧ ∀ c ∈ (exponent ++ rest).head?, c ≠ '.' := by
  cases mark with
  | absent => exact ⟨ends.noDigitHead, fun c head => (ends c head).2.1⟩
  | digits signed nonempty all =>
      constructor <;>
      · rintro c ⟨⟩
        decide

theorem noDigitHead_fraction {fraction exponent rest : List Char} (point : Fraction fraction)
    (mark : Exponent exponent) (ends : NumberEnds rest) :
    NoDigitHead (fraction ++ (exponent ++ rest)) := by
  cases point with
  | absent => exact (noDigitHead_exponent mark ends).1
  | digits nonempty all =>
      rintro c ⟨⟩
      rfl

theorem fraction_exponent {fraction exponent rest : List Char} (point : Fraction fraction)
    (mark : Exponent exponent) (ends : NumberEnds rest) :
    fractionDigits (fraction ++ (exponent ++ rest)) = (fraction.drop 1, exponent ++ rest) := by
  have stop := noDigitHead_exponent mark ends
  cases point with
  | absent => exact fractionDigits_of_ne stop.2
  | digits nonempty all => exact fractionDigits_append nonempty all stop.1

def numeralValue (negative : Bool) (whole fraction exponent : List Char) : Binary64 :=
  let n := Numeral.natOf (whole ++ fraction.drop 1)
  match exponentPart? exponent with
  | some (e, _) => Numeral.scaled negative n (e - (fraction.drop 1).length)
  | none => Numeral.scaled negative n (-((fraction.drop 1).length : Int))

theorem afterWhole_numeral (negative : Bool) {whole fraction exponent rest : List Char}
    (numeral : IsNumeral whole fraction exponent) (ends : NumberEnds rest) :
    afterWhole negative whole (fraction ++ (exponent ++ rest)) =
      (.ok (.float (numeralValue negative whole fraction exponent)), rest) := by
  obtain ⟨-, point, mark, inexact⟩ := numeral
  rw [afterWhole, fraction_exponent point mark ends, numeralValue]
  generalize Numeral.scaled = scaled
  dsimp only
  cases mark with
  | absent =>
      rw [List.nil_append, exponentPart?_of_ne fun c head => (ends c head).2.2]
      cases point with
      | absent => simp at inexact
      | digits nonempty all =>
          simp only [List.drop_succ_cons, List.drop_zero, List.isEmpty_iff, nonempty, exponentPart?,
            if_false]
  | @digits sign ds signed nonempty all =>
      have alone : exponentPart? ('e' :: sign :: ds ++ []) = _ :=
        exponentPart?_append signed nonempty all (by rintro c ⟨⟩)
      rw [List.append_nil] at alone
      rw [exponentPart?_append signed nonempty all ends.noDigitHead, alone]

end Numerals

section Scalars

open Binary64.textWith (sign)

/-- A text that begins a number, with a sign or without, begins no other scalar. -/
theorem scanScalar_of_digit (negative : Bool) {d : Char} {cs : List Char}
    (digit : d.isDigit = true) {found : Except Overlong Json × List Char}
    (number : scanNumber? (sign negative ++ d :: cs) = some found) :
    scanScalar (sign negative ++ d :: cs) = scanned found := by
  have other : ∀ c : Char, c.isDigit = false → c ≠ d :=
    fun c isOther => (ne_of_isDigit digit isOther).symm
  have noLiteral : (literals.findSome? fun l =>
      (l.1.isPrefixOf? (sign negative ++ d :: cs)).map fun rest => (l.2, rest)) = none := by
    cases negative <;>
      simp [literals, sign, List.isPrefixOf?, other 'n' rfl, other 't' rfl, other 'f' rfl,
        other 'N' rfl, other 'I' rfl, other '-' rfl]
  rw [scanScalar, noLiteral, number]

theorem integer_of_short {negative : Bool} {digits : List Char}
    (short : digits.length ≤ digitLimit) :
    integer negative digits =
      .ok (.int (if negative then -(Numeral.natOf digits : Int) else Numeral.natOf digits)) :=
  if_neg (Nat.not_lt.mpr short)

theorem scanScalar_whole (negative : Bool) {whole rest : List Char} (numeral : Whole whole)
    (ends : IntegerEnds rest) :
    scanScalar (sign negative ++ (whole ++ rest)) = scanned (integer negative whole, rest) := by
  have number := scanNumber?_whole negative numeral ends.noDigit
  obtain ⟨d, ds, written, digit⟩ := head_whole numeral
  rw [afterWhole_ends negative whole ends] at number
  rw [written, List.cons_append] at number ⊢
  exact scanScalar_of_digit negative digit number

theorem scans_whole (negative : Bool) {whole rest : List Char} (numeral : Whole whole)
    (ends : IntegerEnds rest) :
    scanScalar (sign negative ++ (whole ++ rest)) ≠
      .error (.expectingValue, sign negative ++ (whole ++ rest)) := by
  rw [scanScalar_whole negative numeral ends]
  cases integer negative whole <;> simp [scanned]

theorem whole_toDigits (n : Nat) : Whole (Nat.toDigits 10 n) := by
  obtain ⟨d, ds, written, digit, digits⟩ := Numeral.toDigits_eq_cons (n := n)
  rcases Nat.eq_zero_or_pos n with zero | positive
  · rw [zero]
    exact .zero
  · have nonzero := Numeral.head_toDigits_ne_zero positive
    rw [written] at nonzero ⊢
    have all : (d :: ds).all Char.isDigit = true := by
      rw [List.all_cons, digit, digits]
      rfl
    exact .digits (fun same => nonzero (congrArg some same)) all

theorem intText_eq (n : Int) :
    intText n = sign (decide (n < 0)) ++ Nat.toDigits 10 n.natAbs := by
  rw [intText]
  split <;> simp [sign, *]

theorem scanScalar_intText (n : Int) {rest : List Char} (ends : NumberEnds rest)
    (short : (Nat.toDigits 10 n.natAbs).length ≤ digitLimit) :
    scanScalar (intText n ++ rest) = .ok (.int n, rest) := by
  have value : (if decide (n < 0) then -(Numeral.natOf (Nat.toDigits 10 n.natAbs) : Int)
      else Numeral.natOf (Nat.toDigits 10 n.natAbs)) = n := by
    rw [Numeral.natOf_toDigits]
    split <;> rename_i negative <;> rw [decide_eq_true_iff] at negative <;> omega
  rw [intText_eq, List.append_assoc, scanScalar_whole _ (whole_toDigits _) ends.integerEnds,
    integer_of_short short, value]
  rfl

theorem scanScalar_numeral (negative : Bool) {whole fraction exponent rest : List Char}
    (numeral : IsNumeral whole fraction exponent) (ends : NumberEnds rest) :
    scanScalar (sign negative ++ (whole ++ (fraction ++ exponent)) ++ rest) =
      .ok (.float (numeralValue negative whole fraction exponent), rest) := by
  have stop := noDigitHead_fraction numeral.fraction numeral.exponent ends
  have number := scanNumber?_whole negative numeral.whole stop
  rw [afterWhole_numeral negative numeral ends] at number
  obtain ⟨d, ds, written, digit⟩ := head_whole numeral.whole
  simp only [written, List.append_assoc, List.cons_append] at number ⊢
  exact scanScalar_of_digit negative digit number

end Scalars

end Json

def Binary64.reread (x : Binary64) : Binary64 :=
  match Json.scanScalar x.jsonText with
  | .ok (.float y, _) => y
  | _ => x

namespace Json

section Floats

theorem exists_scanScalar_jsonText (x : Binary64) :
    ∃ y, ∀ rest, NumberEnds rest → scanScalar (x.jsonText ++ rest) = .ok (.float y, rest) := by
  cases x with
  | nan => exact ⟨.nan, fun rest _ => rfl⟩
  | infinite negative => exact ⟨.infinite negative, fun rest _ => by cases negative <;> rfl⟩
  | finite negative m =>
      obtain ⟨whole, fraction, exponent, written, numeral, -⟩ :=
        Binary64.numeral_jsonText negative m
      exact ⟨numeralValue negative whole fraction exponent,
        fun rest ends => written ▸ scanScalar_numeral negative numeral ends⟩

theorem scanScalar_jsonText (x : Binary64) {rest : List Char} (ends : NumberEnds rest) :
    scanScalar (x.jsonText ++ rest) = .ok (.float x.reread, rest) := by
  obtain ⟨y, read⟩ := exists_scanScalar_jsonText x
  have alone := read [] (by rintro c ⟨⟩)
  rw [List.append_nil] at alone
  rw [read rest ends, Binary64.reread, alone]

end Floats

end Json

end PromptCanvas
