import Mathlib.Algebra.Group.Nat.Defs
import Mathlib.Data.List.Induction
import Mathlib.Data.List.TakeDrop
import PromptCanvas.Number.Numeral
import PromptCanvas.Text.Hex

/-! # Rows of digits

What is written in digits is read back: decimal digits by `Numeral.natOf`
(`natOf_toDigits`) and a fixed count of hexadecimal digits by `Text.hexNumber?`
(`hexNumber?_hexText`).  `span_digits` cuts a row of digits off a text. -/

set_option autoImplicit false

namespace PromptCanvas

namespace Numeral

section Decimal

theorem mem_toDigits {b : Nat} (base : 1 < b) (n : Nat) {c : Char} (member : c ∈ Nat.toDigits b n) :
    ∃ d < b, c = d.digitChar := by
  induction n using Nat.strongRecOn with
  | ind n ih =>
      rw [Nat.toDigits_eq_if base] at member
      split at member
      case isTrue small => exact ⟨n, small, List.mem_singleton.mp member⟩
      case isFalse large =>
        rcases List.mem_append.mp member with higher | last
        · exact ih (n / b) (Nat.div_lt_self (by omega) base) higher
        · exact ⟨n % b, Nat.mod_lt n (by omega), List.mem_singleton.mp last⟩

theorem natOf_eq_ofDigitChars (ds : List Char) : natOf ds = Nat.ofDigitChars 10 ds 0 := by
  have step : (fun (n : Nat) (d : Char) => n * 10 + (d.toNat - 48)) =
      fun n d => 10 * n + (d.toNat - '0'.toNat) := by
    funext n d
    rw [Nat.mul_comm]
    rfl
  rw [natOf, step]
  rfl

theorem natOf_toDigits (n : Nat) : natOf (Nat.toDigits 10 n) = n := by
  rw [natOf_eq_ofDigitChars]
  exact Nat.ofDigitChars_ten_toDigits

theorem natOf_append (ds es : List Char) :
    natOf (ds ++ es) = natOf ds * 10 ^ es.length + natOf es := by
  rw [natOf_eq_ofDigitChars, natOf_eq_ofDigitChars, natOf_eq_ofDigitChars,
    Nat.ofDigitChars_append, Nat.ofDigitChars_eq_ofDigitChars_zero, Nat.mul_comm]

theorem natOf_zeros (k : Nat) : natOf (List.replicate k '0') = 0 := by
  rw [natOf_eq_ofDigitChars, Nat.ofDigitChars_replicate_zero, Nat.mul_zero]

theorem all_isDigit_toDigits (n : Nat) : (Nat.toDigits 10 n).all Char.isDigit = true := by
  rw [List.all_eq_true]
  intro c member
  exact Nat.isDigit_of_mem_toDigits (by decide) (by decide) member

theorem head_toDigits_ne_zero {n : Nat} (positive : 0 < n) :
    (Nat.toDigits 10 n).head? ≠ some '0' := by
  induction n using Nat.strongRecOn with
  | ind n ih =>
      rw [Nat.toDigits_eq_if (by decide)]
      split
      case isTrue small =>
        intro zero
        have : n = 0 := Nat.digitChar_eq_zero.mp (Option.some.inj zero)
        omega
      case isFalse large =>
        obtain ⟨d, ds, front⟩ :=
          List.exists_cons_of_ne_nil (Nat.toDigits_ne_nil (n := n / 10) (b := 10))
        have higher := ih (n / 10) (by omega) (by omega)
        rw [front] at higher ⊢
        exact higher

theorem toNat_of_isDigit {c : Char} (digit : c.isDigit = true) : 48 ≤ c.toNat ∧ c.toNat ≤ 57 :=
  Char.isDigit_iff_toNat.mp digit

theorem not_mem_toDigits {c : Char} (other : c.isDigit = false) (n : Nat) :
    c ∉ Nat.toDigits 10 n := by
  intro member
  rw [List.all_eq_true.mp (all_isDigit_toDigits n) c member] at other
  cases other

theorem toDigits_eq_cons {n : Nat} :
    ∃ d ds, Nat.toDigits 10 n = d :: ds ∧ d.isDigit = true ∧ ds.all Char.isDigit = true := by
  have digits := all_isDigit_toDigits n
  rcases cut : Nat.toDigits 10 n with _ | ⟨d, ds⟩
  · exact absurd cut Nat.toDigits_ne_nil
  · rw [cut, List.all_cons, Bool.and_eq_true] at digits
    exact ⟨d, ds, rfl, digits⟩

end Decimal

section Cutting

def NoDigitHead (cs : List Char) : Prop := ∀ c ∈ cs.head?, c.isDigit = false

theorem span_digits {ds rest : List Char} (digits : ds.all Char.isDigit = true)
    (stop : NoDigitHead rest) : (ds ++ rest).span Char.isDigit = (ds, rest) := by
  induction ds with
  | nil =>
      cases rest with
      | nil => rfl
      | cons c cs =>
          have : c.isDigit = false := stop c rfl
          simp [List.span_eq_takeWhile_dropWhile, this]
  | cons d ds ih =>
      rw [List.all_cons, Bool.and_eq_true] at digits
      have rest := ih digits.2
      simp only [List.span_eq_takeWhile_dropWhile, Prod.mk.injEq] at rest ⊢
      rw [List.cons_append, List.takeWhile_cons_of_pos digits.1,
        List.dropWhile_cons_of_pos digits.1]
      exact ⟨congrArg (d :: ·) rest.1, rest.2⟩

end Cutting

end Numeral

namespace Text

section Hexadecimal

theorem hexValue?_digitChar {d : Nat} (small : d < 16) : hexValue? d.digitChar = some d := by
  revert d
  decide

theorem hexNumber?_snoc {cs : List Char} {n d : Nat} (front : hexNumber? cs = some n)
    (small : d < 16) : hexNumber? (cs ++ [d.digitChar]) = some (n * 16 + d) := by
  unfold hexNumber? at front ⊢
  simp [List.foldl_append, front, hexValue?_digitChar small]

theorem isSome_hexValue?_of_hexNumber? {cs : List Char} {n : Nat}
    (number : hexNumber? cs = some n) : ∀ c ∈ cs, (hexValue? c).isSome := by
  induction cs using List.reverseRecOn generalizing n with
  | nil => exact List.forall_mem_nil _
  | append_singleton cs d ih =>
      rw [hexNumber?, List.foldl_append, List.foldl_cons, List.foldl_nil, ← hexNumber?] at number
      split at number
      · next m value front last =>
          refine List.forall_mem_append.mpr ⟨ih front, List.forall_mem_singleton.mpr ?_⟩
          rw [last]
          rfl
      · cases number

theorem hexNumber?_toDigits (n : Nat) : hexNumber? (Nat.toDigits 16 n) = some n := by
  induction n using Nat.strongRecOn with
  | ind n ih =>
      rw [Nat.toDigits_eq_if (by decide)]
      split
      case isTrue small =>
        have first : hexNumber? ([] ++ [n.digitChar]) = some (0 * 16 + n) :=
          hexNumber?_snoc rfl small
        simpa using first
      case isFalse large =>
        rw [hexNumber?_snoc (ih (n / 16) (by omega)) (Nat.mod_lt n (by decide)),
          Nat.div_add_mod' n 16]

theorem hexNumber?_zeros (k : Nat) (cs : List Char) :
    hexNumber? (List.replicate k '0' ++ cs) = hexNumber? cs := by
  induction k with
  | zero => rfl
  | succ k ih => exact ih

theorem hexNumber?_hexText (width n : Nat) : hexNumber? (hexText width n) = some n := by
  rw [hexText, hexNumber?_zeros]
  exact hexNumber?_toDigits n

theorem length_hexText {width n : Nat} (positive : 0 < width) (fits : n < 16 ^ width) :
    (hexText width n).length = width := by
  have := (Nat.length_toDigits_le_iff (by decide) positive).mpr fits
  rw [hexText, List.length_append, List.length_replicate]
  omega

end Hexadecimal

end Text

end PromptCanvas
