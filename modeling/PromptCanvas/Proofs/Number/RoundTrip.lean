import PromptCanvas.Proofs.Json.Numbers
import PromptCanvas.Proofs.Number.Rounding

/-! # Shortest digits read back

The digits that are written for a number of the format lie where quotients round to the number
(`stands_shortest`): the ones that are tried first are checked for it, and seventeen digits
always do, because their last place is finer than the spacing of the numbers.  So the text of
such a number is read as the number (`Representable.reread`). -/

set_option autoImplicit false

namespace PromptCanvas

open Binary64 (Near Representable gapBelow spacing unit overflow)

namespace Decimal

section Standing

/-- Where `digits * 10 ^ exponent` rounds to the magnitude. -/
def Stands (m digits : Nat) (exponent : Int) : Prop :=
  Near m (digits * 10 ^ exponent.toNat * unit) (10 ^ (-exponent).toNat)

theorem pow_ten_pos (k : Nat) : 0 < 10 ^ k := Nat.pow_pos (by decide)

theorem pow_ten_shift (zeros : Nat) (exponent : Int) :
    10 ^ zeros * 10 ^ exponent.toNat * 10 ^ (-(exponent + zeros)).toNat =
      10 ^ (exponent + zeros).toNat * 10 ^ (-exponent).toNat := by
  rw [← Nat.pow_add, ← Nat.pow_add, ← Nat.pow_add]
  congr 1
  omega

theorem stands_zeros {m digits : Nat} {zeros : Nat} {exponent : Int} :
    Stands m (digits * 10 ^ zeros) exponent ↔ Stands m digits (exponent + zeros) := by
  have same : digits * 10 ^ zeros * 10 ^ exponent.toNat * unit *
      10 ^ (-(exponent + zeros)).toNat =
      digits * 10 ^ (exponent + zeros).toNat * unit * 10 ^ (-exponent).toNat := by
    rw [Nat.mul_right_comm, Nat.mul_assoc digits, Nat.mul_assoc digits, pow_ten_shift,
      ← Nat.mul_assoc, Nat.mul_right_comm]
  constructor
  · intro stands
    exact stands.congr (pow_ten_pos _) (pow_ten_pos _) same
  · intro stands
    exact stands.congr (pow_ten_pos _) (pow_ten_pos _) same.symm

/-- A point on the grid of `n` digits that is near a magnitude stands for it. -/
theorem stands_onGrid {m units n : Nat} {point : Int}
    (near : Near m (units * (onGrid m n point).2) (10 ^ (n - point).toNat)) :
    Stands m units (point - n) := by
  rw [Stands, Int.neg_sub, Nat.mul_assoc, Nat.mul_comm (10 ^ _)]
  exact near

end Standing

section Checked

variable {m scale den units : Nat}

theorem near_of_readsBack (positive : 0 < m)
    (reads : readsBack m (m * scale) den units = true) : Near m (units * den) scale := by
  have gap : (if m / Nat.pow 2 (spacing m) = Nat.pow 2 52 ∧ 0 < spacing m then
      Nat.pow 2 (spacing m) else 2 * Nat.pow 2 (spacing m)) = gapBelow m := rfl
  rw [readsBack] at reads
  simp only [gap, Nat.mul_div_cancel_left scale positive, Nat.sub_mul] at reads
  have value : 4 * units * den = 4 * (units * den) := Nat.mul_assoc ..
  split at reads
  case isTrue even =>
    obtain ⟨low, high⟩ := of_decide_eq_true reads
    refine ⟨by omega, value ▸ high, ?_⟩
    intro odd
    exact absurd (even.symm.trans odd) (by decide)
  case isFalse odd =>
    obtain ⟨low, high⟩ := of_decide_eq_true reads
    exact .of_lt (by omega) (value ▸ high)

theorem readsBack_nearestOnGrid {num : Nat} (found : nearestOnGrid m num den = some units) :
    readsBack m num den units = true := by
  unfold nearestOnGrid at found
  dsimp only at found
  split at found
  case h_1 low high =>
    cases found
    rcases Binary64.roundDiv_cases num den with same | next
    · rwa [same]
    · rwa [next]
  case h_2 low high =>
    cases found
    exact low
  case h_3 low high =>
    cases found
    exact high
  case h_4 => cases found

end Checked

section Seventeen

variable {m : Nat}

theorem near_roundDiv {scale den : Nat} (positive : 0 < den)
    (fine : 2 * den < gapBelow m * scale) :
    Near m (Binary64.roundDiv (m * scale) den * den) scale := by
  obtain ⟨low, high⟩ := Binary64.roundDiv_half (m * scale) positive
  have wide := Nat.mul_le_mul_right scale (Binary64.gapBelow_le m)
  refine .of_lt ?_ ?_
  · rw [Nat.mul_assoc 4]
    omega
  · rw [Nat.add_mul, Nat.mul_assoc 4]
    omega

theorem onGrid_refine {n : Nat} {point : Int} (k : Nat)
    (whole : (onGrid m n point).2 ≤ (onGrid m n point).1) :
    (onGrid m (n + k) point).2 * 10 ^ k ≤ (onGrid m (n + k) point).1 := by
  have finer : 10 ^ (point - (n + k : Nat)).toNat * 10 ^ k * 10 ^ (n - point).toNat =
      10 ^ (point - n).toNat * 10 ^ (((n + k : Nat) : Int) - point).toNat := by
    rw [← Nat.pow_add, ← Nat.pow_add, ← Nat.pow_add]
    congr 1
    omega
  simp only [onGrid, Nat.pow_eq] at whole ⊢
  refine Nat.le_of_mul_le_mul_right ?_ (pow_ten_pos (n - point).toNat)
  calc unit * 10 ^ (point - (n + k : Nat)).toNat * 10 ^ k * 10 ^ (n - point).toNat
      = unit * 10 ^ (point - n).toNat * 10 ^ (((n + k : Nat) : Int) - point).toNat := by
        rw [Nat.mul_assoc, Nat.mul_assoc, ← Nat.mul_assoc (10 ^ _), finer, Nat.mul_assoc]
    _ ≤ m * 10 ^ (n - point).toNat * 10 ^ (((n + k : Nat) : Int) - point).toNat :=
        Nat.mul_le_mul_right _ whole
    _ = _ := Nat.mul_right_comm ..

/-- Seventeen digits are finer than the spacing of the numbers. -/
theorem fine_seventeen (positive : 0 < m) :
    2 * (onGrid m 17 (pointOf m)).2 <
      gapBelow m * 10 ^ (((17 : Nat) : Int) - pointOf m).toNat := by
  have places := onGrid_refine 16 (onGrid_pos positive Nat.one_pos).2
  generalize pointOf m = point at places ⊢
  simp only [onGrid, Nat.pow_eq] at places ⊢
  generalize unit * 10 ^ (point - ((1 + 16 : Nat) : Int)).toNat = den at places ⊢
  have scaled := pow_ten_pos (((1 + 16 : Nat) : Int) - point).toNat
  generalize 10 ^ (((1 + 16 : Nat) : Int) - point).toNat = scale at places scaled ⊢
  have spaced := Nat.mul_pos (Binary64.pow_spacing_pos m) scaled
  -- Both `2 * (2 ^ 52 + 1)` and `2 ^ 53` are less than `10 ^ 16`.
  rw [gapBelow]
  split
  case isTrue power =>
    have few := Nat.lt_mul_div_succ m (Binary64.pow_spacing_pos m)
    rw [power.1, Nat.mul_comm] at few
    have bound := Nat.mul_le_mul_right scale few.le
    rw [Nat.mul_assoc] at bound
    omega
  case isFalse =>
    have few := Binary64.spacing_le.mp (le_refl (spacing m))
    have bound := Nat.mul_le_mul_right scale few.le
    rw [Nat.pow_add, Nat.mul_assoc] at bound
    rw [Nat.mul_assoc]
    omega

end Seventeen

section Shortest

theorem digitText_digitsOf (n : Nat) : digitText (digitsOf n) = Nat.toDigits 10 n := by
  have digit : ∀ d < 10, (d.digitChar.toNat - 48).digitChar = d.digitChar := by decide
  rw [digitText, digitsOf, List.map_map]
  conv_rhs => rw [← List.map_id (Nat.toDigits 10 n)]
  refine List.map_congr_left fun c member => ?_
  obtain ⟨d, small, rfl⟩ := Numeral.mem_toDigits (by decide) n member
  exact digit d small

theorem dropTrailingZeros_append (ds : List Nat) :
    ∃ zeros, dropTrailingZeros ds ++ List.replicate zeros 0 = ds := by
  have zero : ∀ d ∈ ds.rtakeWhile (· == 0), d = 0 := by
    intro d member
    have kept := List.mem_rtakeWhile_imp member
    exact beq_iff_eq.mp kept
  refine ⟨(ds.rtakeWhile (· == 0)).length, ?_⟩
  rw [← List.eq_replicate_of_mem zero]
  exact List.rdropWhile_append_rtakeWhile

theorem stands_ofGrid {m units n : Nat} {point : Int} (stands : Stands m units (point - n)) :
    Stands m (ofGrid units n point).significand
      ((ofGrid units n point).point - (ofGrid units n point).digits.length) := by
  obtain ⟨zeros, digits⟩ := dropTrailingZeros_append (digitsOf units)
  have value : (ofGrid units n point).significand * 10 ^ zeros = units := by
    have read := Numeral.natOf_toDigits units
    have zero : Nat.digitChar 0 = '0' := rfl
    rw [← digitText_digitsOf, ← digits, digitText, List.map_append, List.map_replicate, zero,
      Numeral.natOf_append, Numeral.natOf_zeros, List.length_replicate] at read
    exact read
  have places : point - n + zeros =
      (ofGrid units n point).point - (ofGrid units n point).digits.length := by
    have length := congrArg List.length digits
    rw [List.length_append, List.length_replicate] at length
    simp only [ofGrid]
    omega
  rw [← value, stands_zeros, places] at stands
  exact stands

theorem stands_shortestFrom {m : Nat} (positive : 0 < m) (more : Nat) :
    ∀ n, 0 < n → more + n = 17 →
      Stands m (shortestFrom m (pointOf m) more n).significand
        ((shortestFrom m (pointOf m) more n).point -
          (shortestFrom m (pointOf m) more n).digits.length) := by
  induction more with
  | zero =>
      intro n digit last
      rw [Nat.zero_add] at last
      subst last
      -- The last grid is not checked for reading back.
      exact stands_ofGrid (stands_onGrid
        (near_roundDiv (onGrid_pos positive digit).1 (fine_seventeen positive)))
  | succ more ih =>
      intro n digit last
      simp only [shortestFrom]
      split
      · rename_i units found
        have reads := readsBack_nearestOnGrid found
        exact stands_ofGrid (stands_onGrid (near_of_readsBack positive reads))
      · exact ih (n + 1) (by omega) (by omega)

/-- The shortest digits of a magnitude round to the magnitude. -/
theorem stands_shortest {m : Nat} (positive : 0 < m) :
    Stands m (shortest m).significand ((shortest m).point - (shortest m).digits.length) :=
  stands_shortestFrom positive 16 1 Nat.one_pos rfl

end Shortest

end Decimal

namespace Numeral

section Scaling

open Decimal (Stands pow_ten_pos)

variable {m digits : Nat} {exponent : Int}

/-- A decimal that is not too large has no digits that begin too far before the point. -/
theorem place_le {u places : Nat} (nonzero : digits ≠ 0)
    (small : digits * 10 ^ exponent.toNat * u ≤ 2 * (m * 10 ^ (-exponent).toNat))
    (limit : 2 * m < 10 ^ places * u) :
    exponent + ((Nat.toDigits 10 digits).length : Int) ≤ places := by
  by_contra large
  have lower : 10 ^ ((Nat.toDigits 10 digits).length - 1) ≤ digits := by
    have least := Decimal.places_le Nat.one_pos (Nat.one_le_iff_ne_zero.mpr nonzero)
    rwa [Nat.div_one, Nat.one_mul] at least
  have before : places + (-exponent).toNat ≤
      (Nat.toDigits 10 digits).length - 1 + exponent.toNat := by omega
  have reached := calc 10 ^ places * u * 10 ^ (-exponent).toNat
      = 10 ^ (places + (-exponent).toNat) * u := by rw [Nat.pow_add, Nat.mul_right_comm]
    _ ≤ 10 ^ ((Nat.toDigits 10 digits).length - 1 + exponent.toNat) * u :=
        Nat.mul_le_mul_right _ (Nat.pow_le_pow_right (by decide) before)
    _ ≤ digits * 10 ^ exponent.toNat * u := by
        rw [Nat.pow_add]
        exact Nat.mul_le_mul_right _ (Nat.mul_le_mul_right _ lower)
    _ ≤ 2 * m * 10 ^ (-exponent).toNat := by rwa [Nat.mul_assoc 2]
  exact Nat.not_le.mpr limit (Nat.le_of_mul_le_mul_right reached (pow_ten_pos _))

/-- A decimal that is not too small has no digits that begin too far behind the point. -/
theorem le_place {u places : Nat}
    (large : 10 ^ (-exponent).toNat ≤ 2 * (digits * 10 ^ exponent.toNat * u))
    (limit : 2 * u < 10 ^ places) :
    -(places : Int) ≤ exponent + ((Nat.toDigits 10 digits).length : Int) := by
  by_contra small
  have upper : digits < 10 ^ (Nat.toDigits 10 digits).length :=
    (Nat.length_toDigits_le_iff (by decide) Nat.length_toDigits_pos).mp le_rfl
  have behind : places + (Nat.toDigits 10 digits).length ≤ (-exponent).toNat := by omega
  have whole : exponent.toNat = 0 := by omega
  rw [whole, Nat.pow_zero, Nat.mul_one] at large
  have reached := calc 10 ^ places * 10 ^ (Nat.toDigits 10 digits).length
      = 10 ^ (places + (Nat.toDigits 10 digits).length) := (Nat.pow_add ..).symm
    _ ≤ 10 ^ (-exponent).toNat := Nat.pow_le_pow_right (by decide) behind
    _ ≤ 2 * (digits * u) := large
    _ ≤ 2 * u * 10 ^ (Nat.toDigits 10 digits).length := by
        rw [Nat.mul_comm digits, ← Nat.mul_assoc]
        exact Nat.mul_le_mul_left _ upper.le
  exact Nat.not_le.mpr limit (Nat.le_of_mul_le_mul_right reached (pow_ten_pos _))

/-- The numbers of the format are within the places that are computed. -/
theorem limits {m : Nat} (small : m < overflow) :
    2 * m < 10 ^ 310 * unit ∧ 2 * unit < 10 ^ 330 := by
  have most : 2 * overflow ≤ 10 ^ 310 * unit ∧ 2 * unit < 10 ^ 330 := by decide +kernel
  exact ⟨(Nat.mul_lt_mul_of_pos_left small (by decide)).trans_le most.1, most.2⟩

theorem scaled_of_stands {negative : Bool} (positive : 0 < m)
    (number : Representable (.finite negative m)) (stands : Stands m digits exponent) :
    scaled negative digits exponent = .finite negative m := by
  obtain ⟨small, exact⟩ := number.parts
  have power := pow_ten_pos (-exponent).toNat
  obtain ⟨low, high⟩ := stands.bounds positive exact
  have least := (Nat.le_mul_of_pos_left (10 ^ (-exponent).toNat) positive).trans low
  have nonzero : digits ≠ 0 := by
    rintro rfl
    rw [Nat.zero_mul, Nat.zero_mul] at least
    exact Nat.not_le.mpr power least
  obtain ⟨largest, smallest⟩ := limits small
  have most := place_le nonzero high largest
  have fewest := le_place least smallest
  rw [scaled, if_neg nonzero, if_neg (by omega), if_neg (by omega)]
  exact Binary64.ofRatio_of_near power number stands

end Scaling

end Numeral

namespace Binary64

section Texts

theorem numeralValue_of_denotes {d : Decimal} {whole fraction exponent : List Char}
    (mark : Numeral.Exponent exponent) (denotes : d.Denotes whole fraction exponent)
    (negative : Bool) :
    ∃ zeros : Nat, Json.numeralValue negative whole fraction exponent =
      Numeral.scaled negative (d.significand * 10 ^ zeros)
        (d.point - d.digits.length - zeros) := by
  obtain ⟨zeros, e, read, digits, places⟩ := denotes
  refine ⟨zeros, ?_⟩
  rw [← digits, ← places, Json.numeralValue]
  cases mark with
  | absent =>
      cases read
      simp only [Json.exponentPart?, Int.zero_sub]
  | @digits sign ds signed nonempty all =>
      have part : Json.exponentPart? ('e' :: sign :: ds ++ []) = _ :=
        Json.exponentPart?_append signed nonempty all (by rintro c ⟨⟩)
      rw [List.append_nil] at part
      have value : e = if sign = '-' then -(Numeral.natOf ds : Int) else Numeral.natOf ds := by
        rcases signed with rfl | rfl <;>
          simpa [Numeral.exponentOf?, Numeral.signOf, nonempty, all] using read.symm
      rw [part, value]

/-- The text of a number of the format is read as the number. -/
theorem Representable.reread {x : Binary64} (number : x.Representable) : x.reread = x := by
  cases number with
  | nan => rfl
  | infinite negative => cases negative <;> rfl
  | @finite negative m small exact =>
      obtain ⟨whole, fraction, exponent, written, numeral, denotes⟩ :=
        numeral_jsonText negative m
      obtain ⟨zeros, value⟩ := numeralValue_of_denotes numeral.exponent denotes negative
      have ends : Json.NumberEnds [] := by rintro c ⟨⟩
      have scanned := Json.scanScalar_numeral negative numeral ends
      rw [List.append_nil, ← written, value] at scanned
      rw [Binary64.reread, scanned]
      dsimp only
      rcases Nat.eq_zero_or_pos m with rfl | positive
      · have zero : Decimal.significand ⟨[0], 1⟩ = 0 := rfl
        rw [decimal, if_pos rfl, zero, Nat.zero_mul, Numeral.scaled, if_pos rfl]
      · have stands := Decimal.stands_shortest positive
        rw [decimal, if_neg positive.ne']
        refine Numeral.scaled_of_stands positive (.finite negative small exact) ?_
        rwa [Decimal.stands_zeros, Int.sub_add_cancel]

end Texts

end Binary64

end PromptCanvas
