import Mathlib.Algebra.Group.Nat.Defs
import Mathlib.Data.List.DropRight
import PromptCanvas.Number.Numeral
import PromptCanvas.Number.Spelling
import PromptCanvas.Proofs.Text.Digits

/-! # The grammar of written numbers

A finite number is written as a numeral with an integer part without leading
zeros and with a fraction or an exponent (`numeral_text`), so no reader takes it
for an integer, and the numeral stands for the decimal that it was written for
(`Denotes`).  The digits of a nonzero magnitude do not begin with a zero
(`leading_shortest`), because the grid on which they are chosen is finer than
the magnitude. -/

set_option autoImplicit false

namespace PromptCanvas

namespace Numeral

section Grammar

inductive Whole : List Char → Prop
  | zero : Whole ['0']
  | digits {d : Char} {ds : List Char} (nonzero : d ≠ '0')
      (all : (d :: ds).all Char.isDigit = true) : Whole (d :: ds)

inductive Fraction : List Char → Prop
  | absent : Fraction []
  | digits {ds : List Char} (nonempty : ds ≠ []) (all : ds.all Char.isDigit = true) :
      Fraction ('.' :: ds)

inductive Exponent : List Char → Prop
  | absent : Exponent []
  | digits {sign : Char} {ds : List Char} (signed : sign = '+' ∨ sign = '-') (nonempty : ds ≠ [])
      (all : ds.all Char.isDigit = true) : Exponent ('e' :: sign :: ds)

/-- A numeral without sign that has a fraction or an exponent. -/
structure IsNumeral (w f e : List Char) : Prop where
  whole : Whole w
  fraction : Fraction f
  exponent : Exponent e
  inexact : f ≠ [] ∨ e ≠ []

end Grammar

end Numeral

namespace Decimal

open Numeral (Whole Fraction Exponent IsNumeral)

section Digits

/-- Decimal digits of which there is one, and whose first is zero only in the number zero. -/
structure Leading (d : Decimal) : Prop where
  nonempty : d.digits ≠ []
  decimal : ∀ n ∈ d.digits, n < 10
  nonzero : d.digits.head? = some 0 → d.digits = [0] ∧ d.point = 1

theorem isDigit_digitChar {n : Nat} (decimal : n < 10) : n.digitChar.isDigit = true := by
  rw [Nat.isDigit_digitChar, decide_eq_true_iff]
  exact decimal

theorem all_isDigit_digitText {ds : List Nat} (decimal : ∀ n ∈ ds, n < 10) :
    (digitText ds).all Char.isDigit = true := by
  simp only [digitText, List.all_map, List.all_eq_true, Function.comp_apply]
  exact fun n member => isDigit_digitChar (decimal n member)

theorem all_isDigit_zeros (k : Nat) : (List.replicate k '0').all Char.isDigit = true := by
  rw [List.all_eq_true]
  intro c member
  rw [List.eq_of_mem_replicate member]
  rfl

theorem whole_digitText {first : Nat} {rest : List Nat} (decimal : ∀ n ∈ first :: rest, n < 10)
    (nonzero : first ≠ 0) {more : List Char} (digits : more.all Char.isDigit = true) :
    Whole (digitText (first :: rest) ++ more) := by
  refine .digits (by simpa using nonzero) ?_
  change (digitText (first :: rest) ++ more).all Char.isDigit = true
  rw [List.all_append, all_isDigit_digitText decimal, digits]
  rfl

end Digits

section Values

def significand (d : Decimal) : Nat := Numeral.natOf (digitText d.digits)

/-- The parts of a numeral that stands for a decimal, whose digits some zeros may follow. -/
def Denotes (d : Decimal) (whole fraction exponent : List Char) : Prop :=
  ∃ (zeros : Nat) (e : Int), Numeral.exponentOf? exponent = some e ∧
    Numeral.natOf (whole ++ fraction.drop 1) = d.significand * 10 ^ zeros ∧
      e - (fraction.drop 1).length = d.point - d.digits.length - zeros

theorem length_digitText (ds : List Nat) : (digitText ds).length = ds.length := List.length_map _

theorem exponentOf?_exponentText (e : Int) :
    Numeral.exponentOf? ('e' :: exponentText e) = some e := by
  have digits : ∀ k, (List.replicate k '0' ++ Nat.toDigits 10 e.natAbs).all Char.isDigit = true ∧
      (List.replicate k '0' ++ Nat.toDigits 10 e.natAbs).isEmpty = false := by
    intro k
    rw [List.all_append, all_isDigit_zeros, Numeral.all_isDigit_toDigits]
    simp [Nat.toDigits_ne_nil]
  have value : ∀ k, Numeral.natOf (List.replicate k '0' ++ Nat.toDigits 10 e.natAbs) =
      e.natAbs := by
    intro k
    rw [Numeral.natOf_append, Numeral.natOf_zeros, Nat.zero_mul, Nat.zero_add,
      Numeral.natOf_toDigits]
  rw [exponentText]
  split
  all_goals
    simp only [Numeral.exponentOf?, Numeral.signOf, digits, value, decide_true, Bool.true_or,
      Bool.not_false, Bool.and_self, if_true, Bool.false_eq_true, if_false, Option.some.injEq]
    omega

end Values

section Texts

variable {d : Decimal}

theorem numeral_positional (style : NumberStyle) (keeps : style.keepsPoint = true)
    (leading : d.Leading) :
    ∃ whole fraction exponent, positional style d = whole ++ (fraction ++ exponent) ∧
      IsNumeral whole fraction exponent ∧ d.Denotes whole fraction exponent := by
  obtain ⟨nonempty, decimal, nonzero⟩ := leading
  obtain ⟨first, rest, digits⟩ := List.exists_cons_of_ne_nil nonempty
  rw [digits] at decimal nonzero
  unfold positional
  split_ifs with small long
  · refine ⟨['0'], '.' :: (List.replicate (-d.point).toNat '0' ++ digitText d.digits), [],
      by simp, ⟨.zero, .digits (by simp [digits, digitText]) ?_, .absent, .inl (by simp)⟩,
      0, 0, rfl, ?_, ?_⟩
    · rw [List.all_append, all_isDigit_zeros, digits, all_isDigit_digitText decimal]
      rfl
    · have zero : Numeral.natOf ['0'] = 0 := rfl
      rw [List.drop_succ_cons, List.drop_zero, Numeral.natOf_append, Numeral.natOf_append,
        Numeral.natOf_zeros, zero, Nat.zero_mul, Nat.zero_mul, Nat.zero_add, Nat.zero_add,
        Nat.pow_zero, Nat.mul_one, significand]
    · rw [List.drop_succ_cons, List.drop_zero, List.length_append, List.length_replicate,
        length_digitText]
      omega
  · refine ⟨digitText d.digits ++ List.replicate (d.point.toNat - d.digits.length) '0',
      ".0".toList, [], by simp, ⟨?_, .digits (by simp) rfl, .absent, .inl (by simp)⟩,
      d.point.toNat - d.digits.length + 1, 0, rfl, ?_, ?_⟩
    · by_cases zero : first = 0
      · obtain ⟨single, one⟩ := nonzero (by simp [zero])
        rw [digits, single, one]
        exact .zero
      · rw [digits]
        exact whole_digitText decimal zero (all_isDigit_zeros _)
    · have last : ".0".toList.drop 1 = List.replicate 1 '0' := rfl
      rw [last, List.append_assoc, List.replicate_append_replicate, Numeral.natOf_append,
        Numeral.natOf_zeros, List.length_replicate, Nat.add_zero, significand]
    · have last : (".0".toList.drop 1).length = 1 := rfl
      rw [last]
      omega
  · have inside : 0 < d.point.toNat ∧ d.point.toNat < d.digits.length := by omega
    obtain ⟨k, point⟩ := Nat.exists_eq_succ_of_ne_zero inside.1.ne'
    refine ⟨digitText (d.digits.take d.point.toNat),
      '.' :: digitText (d.digits.drop d.point.toNat), [], by simp,
      ⟨?_, .digits ?_ ?_, .absent, .inl (by simp)⟩, 0, 0, rfl, ?_, ?_⟩
    · rw [digits, point, List.take_succ_cons, ← List.append_nil (digitText _)]
      refine whole_digitText (fun n member => decimal n ?_) ?_ rfl
      · exact List.mem_cons.mpr
          ((List.mem_cons.mp member).imp_right List.mem_of_mem_take)
      · intro zero
        have single := (nonzero (by simp [zero])).1
        rw [digits, single] at inside
        simp at inside
        omega
    · rw [digitText, ne_eq, List.map_eq_nil_iff, List.drop_eq_nil_iff]
      omega
    · exact all_isDigit_digitText fun n member => decimal n (digits ▸ List.mem_of_mem_drop member)
    · rw [List.drop_succ_cons, List.drop_zero, digitText, digitText, ← List.map_append,
        List.take_append_drop, Nat.pow_zero, Nat.mul_one, significand, digitText]
    · rw [List.drop_succ_cons, List.drop_zero, length_digitText, List.length_drop]
      omega

theorem exponent_exponentText (e : Int) : Exponent ('e' :: exponentText e) := by
  refine .digits (by split <;> simp) (by simp [Nat.toDigits_ne_nil]) ?_
  rw [List.all_append, all_isDigit_zeros, Numeral.all_isDigit_toDigits]
  rfl

theorem whole_single {n : Nat} (decimal : n < 10) : Whole (digitText [n]) := by
  by_cases zero : n = 0
  · rw [zero]
    exact .zero
  · rw [← List.append_nil (digitText _)]
    exact whole_digitText (by simpa using decimal) zero rfl

theorem numeral_scientific (leading : d.Leading) :
    ∃ whole fraction exponent, scientific d = whole ++ (fraction ++ exponent) ∧
      IsNumeral whole fraction exponent ∧ d.Denotes whole fraction exponent := by
  obtain ⟨nonempty, decimal, -⟩ := leading
  obtain ⟨first, rest, digits⟩ := List.exists_cons_of_ne_nil nonempty
  rw [digits] at decimal
  have whole : Whole (digitText [first]) := whole_single (decimal first (by simp))
  have tail : ∀ n ∈ rest, n < 10 := fun n member => decimal n (List.mem_cons_of_mem _ member)
  cases rest with
  | nil =>
      refine ⟨digitText [first], [], 'e' :: exponentText (d.point - 1), ?_,
        ⟨whole, .absent, exponent_exponentText _, .inr (by simp)⟩, 0, _,
        exponentOf?_exponentText _, ?_, ?_⟩
      · rw [scientific, digits]
        simp
      · rw [significand, digits, List.drop_nil, List.append_nil, Nat.pow_zero, Nat.mul_one]
      · simp [digits]
  | cons second others =>
      refine ⟨digitText [first], '.' :: digitText (second :: others),
        'e' :: exponentText (d.point - 1), ?_,
        ⟨whole, .digits (by simp [digitText]) (all_isDigit_digitText tail),
          exponent_exponentText _, .inr (by simp)⟩, 0, _, exponentOf?_exponentText _, ?_, ?_⟩
      · rw [scientific, digits]
        simp
      · rw [significand, digits, List.drop_succ_cons, List.drop_zero, Nat.pow_zero, Nat.mul_one]
        rfl
      · rw [digits, List.drop_succ_cons, List.drop_zero, length_digitText]
        simp only [List.length_cons]
        omega

theorem numeral_text (style : NumberStyle) (keeps : style.keepsPoint = true)
    (leading : d.Leading) :
    ∃ whole fraction exponent, d.text style = whole ++ (fraction ++ exponent) ∧
      IsNumeral whole fraction exponent ∧ d.Denotes whole fraction exponent := by
  rw [text]
  split
  · exact numeral_positional style keeps leading
  · exact numeral_scientific leading

end Texts

section Grid

theorem unit_pos : 0 < Binary64.unit := by
  decide +kernel

theorem unit_le {shift : Nat} (large : shift = 400) : Binary64.unit ≤ Nat.pow 10 shift := by
  rw [large]
  decide +kernel

theorem places_le {u m : Nat} (unit : 0 < u) (nonzero : u ≤ m) :
    u * 10 ^ ((Nat.toDigits 10 (m / u)).length - 1) ≤ m := by
  rw [Nat.mul_comm, ← Nat.le_div_iff_mul_le unit]
  have whole : 0 < m / u := Nat.div_pos nonzero unit
  rcases Nat.lt_or_ge 1 (Nat.toDigits 10 (m / u)).length with several | single
  · by_contra small
    have fewer := (Nat.length_toDigits_le_iff (by decide : 1 < 10) (by omega)).mpr
      (Nat.lt_of_not_le small)
    omega
  · rw [Nat.sub_eq_zero_of_le single]
    exact whole

/-- A magnitude that reaches the place above a digit is a unit of that digit at least. -/
theorem le_of_places {u m n shift places : Nat} (digit : 0 < n) (some : 0 < places)
    (scaled : u * 10 ^ (places - 1) ≤ m * Nat.pow 10 shift) :
    u * 10 ^ ((places : Int) - shift - n).toNat ≤
      m * 10 ^ ((n : Int) - (places - shift)).toNat := by
  have finer : shift + ((places : Int) - shift - n).toNat ≤
      ((n : Int) - (places - shift)).toNat + (places - 1) := by omega
  refine Nat.le_of_mul_le_mul_right ?_ (Nat.pow_pos (by decide) : 0 < 10 ^ (places - 1))
  calc u * 10 ^ ((places : Int) - shift - n).toNat * 10 ^ (places - 1)
      = u * 10 ^ (places - 1) * 10 ^ ((places : Int) - shift - n).toNat := Nat.mul_right_comm ..
    _ ≤ m * 10 ^ shift * 10 ^ ((places : Int) - shift - n).toNat :=
        Nat.mul_le_mul_right _ scaled
    _ = m * 10 ^ (shift + ((places : Int) - shift - n).toNat) := by
        rw [Nat.pow_add, Nat.mul_assoc]
    _ ≤ m * 10 ^ (((n : Int) - (places - shift)).toNat + (places - 1)) :=
        Nat.mul_le_mul_left _ (Nat.pow_le_pow_right (by decide) finer)
    _ = m * 10 ^ ((n : Int) - (places - shift)).toNat * 10 ^ (places - 1) := by
        rw [Nat.pow_add, Nat.mul_assoc]

/-- The point of a magnitude is found with so many places more that it is no fraction of a unit. -/
theorem exists_pointOf {m : Nat} (nonzero : 0 < m) :
    ∃ shift : Nat, Binary64.unit ≤ m * Nat.pow 10 shift ∧
      pointOf m =
        (Nat.toDigits 10 (m * Nat.pow 10 shift / Binary64.unit)).length - (shift : Int) := by
  -- Named, so that the power is not computed.
  obtain ⟨shift, same⟩ : ∃ shift, shift = 400 := ⟨_, rfl⟩
  have places : (shift : Int) = 400 := congrArg Nat.cast same
  refine ⟨shift, Nat.le_trans (unit_le same) (Nat.le_mul_of_pos_left _ nonzero), ?_⟩
  rw [pointOf, ← same, places]

/-- On the grid of a nonzero magnitude the magnitude is one unit at least. -/
theorem onGrid_pos {m n : Nat} (nonzero : 0 < m) (digit : 0 < n) :
    0 < (onGrid m n (pointOf m)).2 ∧
      (onGrid m n (pointOf m)).2 ≤ (onGrid m n (pointOf m)).1 := by
  obtain ⟨shift, large, point⟩ := exists_pointOf nonzero
  have scaled := places_le unit_pos large
  refine ⟨Nat.mul_pos unit_pos (Nat.pow_pos (by decide)), ?_⟩
  rw [point]
  exact le_of_places digit Nat.length_toDigits_pos scaled

theorem div_le_roundDiv (num den : Nat) : num / den ≤ Binary64.roundDiv num den := by
  unfold Binary64.roundDiv
  dsimp only
  split_ifs <;> omega

theorem nearestOnGrid_pos {m num den units : Nat} (grid : 0 < den ∧ den ≤ num)
    (found : nearestOnGrid m num den = some units) : 0 < units := by
  have whole := Nat.div_pos grid.2 grid.1
  have rounded := div_le_roundDiv num den
  unfold nearestOnGrid at found
  dsimp only at found
  split at found <;> cases found <;> omega

theorem dropTrailingZeros_cons {first : Nat} (nonzero : first ≠ 0) (rest : List Nat) :
    ∃ tail, dropTrailingZeros (first :: rest) = first :: tail ∧ tail ⊆ rest := by
  have kept : dropTrailingZeros (first :: rest) <+: first :: rest := List.rdropWhile_prefix _ _
  have some : dropTrailingZeros (first :: rest) ≠ [] := by
    intro none
    exact nonzero (by simpa using (List.rdropWhile_eq_nil_iff.mp none) first (by simp))
  obtain ⟨d, tail, digits⟩ := List.exists_cons_of_ne_nil some
  rw [digits, List.cons_prefix_cons] at kept
  exact ⟨tail, kept.1 ▸ digits, kept.2.subset⟩

theorem leading_ofGrid {units : Nat} (positive : 0 < units) (n : Nat) (point : Int) :
    (ofGrid units n point).Leading := by
  obtain ⟨d, ds, written, digit, digits⟩ := Numeral.toDigits_eq_cons (n := units)
  have value : ∀ c : Char, c.isDigit = true → c.toNat - 48 < 10 := by
    intro c isDigit
    have := Numeral.toNat_of_isDigit isDigit
    omega
  have nonzero : d.toNat - 48 ≠ 0 := by
    intro zero
    have low := Numeral.toNat_of_isDigit digit
    have isZero : d.toNat = 48 := by omega
    apply Numeral.head_toDigits_ne_zero positive
    rw [written, List.head?_cons, ← Char.ofNat_toNat d, isZero]
  obtain ⟨tail, kept, sub⟩ := dropTrailingZeros_cons nonzero (ds.map fun c => c.toNat - 48)
  have given : (ofGrid units n point).digits = (d.toNat - 48) :: tail := by
    rw [ofGrid, digitsOf, written]
    exact kept
  refine ⟨by simp [given], ?_, by simp [given, nonzero]⟩
  rw [given]
  intro k member
  rcases List.mem_cons.mp member with rfl | inside
  · exact value d digit
  · obtain ⟨c, place, rfl⟩ := List.mem_map.mp (sub inside)
    exact value c (List.all_eq_true.mp digits c place)

theorem leading_shortestFrom {m : Nat} (nonzero : 0 < m) (more : Nat) :
    ∀ n, 0 < n → (shortestFrom m (pointOf m) more n).Leading := by
  induction more with
  | zero =>
      intro n digit
      have grid := onGrid_pos nonzero digit
      have whole := Nat.div_pos grid.2 grid.1
      exact leading_ofGrid (whole.trans_le (div_le_roundDiv _ _)) n _
  | succ more ih =>
      intro n digit
      simp only [shortestFrom]
      split
      · rename_i units found
        exact leading_ofGrid (nearestOnGrid_pos (onGrid_pos nonzero digit) found) n _
      · exact ih (n + 1) (by omega)

theorem leading_shortest {m : Nat} (nonzero : 0 < m) : (shortest m).Leading :=
  leading_shortestFrom nonzero 16 1 (by decide)

theorem leading_zero : (⟨[0], 1⟩ : Decimal).Leading :=
  ⟨by simp, by simp, fun _ => ⟨rfl, rfl⟩⟩

end Grid

end Decimal

namespace Binary64

def decimal (m : Nat) : Decimal := if m = 0 then ⟨[0], 1⟩ else .shortest m

/-- A finite number is written with a sign and a numeral that is no integer. -/
theorem numeral_jsonText (negative : Bool) (m : Nat) :
    ∃ whole fraction exponent,
      jsonText (.finite negative m) =
        textWith.sign negative ++ (whole ++ (fraction ++ exponent)) ∧
      Numeral.IsNumeral whole fraction exponent ∧
        (decimal m).Denotes whole fraction exponent := by
  have leading : (decimal m).Leading := by
    rw [decimal]
    split
    · exact Decimal.leading_zero
    · exact Decimal.leading_shortest (by omega)
  obtain ⟨whole, fraction, exponent, written, numeral⟩ :=
    Decimal.numeral_text .json rfl leading
  exact ⟨whole, fraction, exponent, congrArg _ written, numeral⟩

end Binary64

end PromptCanvas
