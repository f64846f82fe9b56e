import Mathlib.Tactic.Linarith
import Mathlib.Tactic.Ring
import PromptCanvas.Number.Binary64

/-! # Rounding to the nearest number

A quotient that lies nearer to a number of the format than to its neighbours, or half way
and the number is even, rounds to that number (`ofRatio_of_near`), and every quotient rounds
to a number of the format (`representable_ofRatio`).  Below a power of two the neighbour is
at half the distance, so there the quotient may round on the finer grid of the powers
below. -/

set_option autoImplicit false

namespace PromptCanvas.Binary64

section Division

variable {n d q : Nat}

theorem roundDiv_cases (num den : Nat) :
    roundDiv num den = num / den ∨ roundDiv num den = num / den + 1 := by
  unfold roundDiv
  dsimp only
  split_ifs <;> omega

theorem roundDiv_half (num : Nat) {den : Nat} (positive : 0 < den) :
    2 * (roundDiv num den * den) ≤ 2 * num + den ∧
      2 * num ≤ 2 * (roundDiv num den * den) + den := by
  have parts : num / den * den + num % den = num := Nat.div_add_mod' num den
  have rest := Nat.mod_lt num positive
  have next : (num / den + 1) * den = num / den * den + den := Nat.succ_mul ..
  unfold roundDiv
  dsimp only
  split_ifs with below above
  · omega
  · omega
  · rcases Nat.mod_two_eq_zero_or_one (num / den) with even | odd
    · rw [even, Nat.add_zero]
      omega
    · rw [odd]
      omega

theorem roundDiv_eq (positive : 0 < d) (low : 2 * (q * d) ≤ 2 * n + d)
    (high : 2 * n ≤ 2 * (q * d) + d)
    (odd : q % 2 = 1 → 2 * (q * d) < 2 * n + d ∧ 2 * n < 2 * (q * d) + d) :
    roundDiv n d = q := by
  have parts : n / d * d + n % d = n := Nat.div_add_mod' n d
  have rest := Nat.mod_lt n positive
  have least : n / d < q + 1 := by
    refine Nat.lt_of_mul_lt_mul_right (a := d) ?_
    rw [Nat.succ_mul]
    omega
  have greatest : q < n / d + 2 := by
    refine Nat.lt_of_mul_lt_mul_right (a := d) ?_
    rw [Nat.add_mul]
    omega
  have either : q = n / d ∨ q = n / d + 1 := by omega
  unfold roundDiv
  dsimp only
  rcases either with same | next
  · rw [same] at low high odd
    rw [same]
    split_ifs <;> omega
  · have product : (n / d + 1) * d = n / d * d + d := Nat.succ_mul ..
    rw [next, product] at low high odd
    rw [next]
    split_ifs <;> omega

end Division

section Spacing

theorem bitLength_le {t k : Nat} : bitLength t ≤ k ↔ t < 2 ^ k := by
  rw [bitLength]
  split
  case isTrue zero =>
    rw [zero]
    exact ⟨fun _ => Nat.pow_pos (by decide), fun _ => Nat.zero_le k⟩
  case isFalse nonzero => rw [Nat.succ_le_iff, Nat.log2_lt nonzero]

theorem spacing_le {t k : Nat} : spacing t ≤ k ↔ t < 2 ^ (53 + k) := by
  rw [← bitLength_le, spacing]
  omega

theorem lt_spacing {t k : Nat} : k < spacing t ↔ 2 ^ (53 + k) ≤ t := by
  rw [← Nat.not_le, spacing_le, Nat.not_lt]

theorem pow_spacing_pos (m : Nat) : 0 < 2 ^ spacing m := Nat.pow_pos (by decide)

end Spacing

/-- A number that the format has: a finite one is not too large, and its binary digits after
the first fifty-three are zeros. -/
inductive Representable : Binary64 → Prop
  | nan : Representable nan
  | infinite (negative : Bool) : Representable (infinite negative)
  | finite (negative : Bool) {m : Nat} (small : m < overflow) (exact : 2 ^ spacing m ∣ m) :
      Representable (finite negative m)

theorem Representable.parts {negative : Bool} {m : Nat}
    (number : Representable (.finite negative m)) : m < overflow ∧ 2 ^ spacing m ∣ m := by
  cases number with
  | finite _ small exact => exact ⟨small, exact⟩

section Near

/-- Four times the half of the distance to the number below. -/
def gapBelow (m : Nat) : Nat :=
  if m / 2 ^ spacing m = 2 ^ 52 ∧ 0 < spacing m then 2 ^ spacing m else 2 * 2 ^ spacing m

/-- The quotient is no farther from the magnitude than half way to its neighbours, and nearer if
the magnitude is odd. -/
structure Near (m num den : Nat) : Prop where
  low : 4 * m * den ≤ 4 * num + gapBelow m * den
  high : 4 * num ≤ (4 * m + 2 * 2 ^ spacing m) * den
  odd : m / 2 ^ spacing m % 2 = 1 →
    4 * m * den < 4 * num + gapBelow m * den ∧ 4 * num < (4 * m + 2 * 2 ^ spacing m) * den

theorem gapBelow_le (m : Nat) : gapBelow m ≤ 2 * 2 ^ spacing m := by
  rw [gapBelow]
  split <;> omega

variable {m num den : Nat}

theorem Near.congr (near : Near m num den) {num' den' : Nat} (positive : 0 < den)
    (positive' : 0 < den') (same : num * den' = num' * den) : Near m num' den' := by
  have scale : ∀ x, x * den * den' = x * den' * den := fun x => Nat.mul_right_comm ..
  have value : 4 * num * den' = 4 * num' * den := by rw [Nat.mul_assoc, same, Nat.mul_assoc]
  constructor
  case low =>
    refine Nat.le_of_mul_le_mul_right ?_ positive
    calc 4 * m * den' * den = 4 * m * den * den' := (scale _).symm
      _ ≤ (4 * num + gapBelow m * den) * den' := Nat.mul_le_mul_right _ near.low
      _ = (4 * num' + gapBelow m * den') * den := by rw [Nat.add_mul, Nat.add_mul, value, scale]
  case high =>
    refine Nat.le_of_mul_le_mul_right ?_ positive
    calc 4 * num' * den = 4 * num * den' := value.symm
      _ ≤ (4 * m + 2 * 2 ^ spacing m) * den * den' := Nat.mul_le_mul_right _ near.high
      _ = _ := scale _
  case odd =>
    intro odd
    obtain ⟨low, high⟩ := near.odd odd
    constructor
    · refine Nat.lt_of_mul_lt_mul_right (a := den) ?_
      calc 4 * m * den' * den = 4 * m * den * den' := (scale _).symm
        _ < (4 * num + gapBelow m * den) * den' := Nat.mul_lt_mul_of_pos_right low positive'
        _ = (4 * num' + gapBelow m * den') * den := by rw [Nat.add_mul, Nat.add_mul, value, scale]
    · refine Nat.lt_of_mul_lt_mul_right (a := den) ?_
      calc 4 * num' * den = 4 * num * den' := value.symm
        _ < (4 * m + 2 * 2 ^ spacing m) * den * den' := Nat.mul_lt_mul_of_pos_right high positive'
        _ = _ := scale _

theorem Near.of_lt (low : 4 * m * den < 4 * num + gapBelow m * den)
    (high : 4 * num < (4 * m + 2 * 2 ^ spacing m) * den) : Near m num den :=
  ⟨low.le, high.le, fun _ => ⟨low, high⟩⟩

end Near

section Rounding

variable {m num den : Nat}

theorem significand_spec (exact : 2 ^ spacing m ∣ m) :
    m / 2 ^ spacing m * 2 ^ spacing m = m ∧ m / 2 ^ spacing m < 2 ^ 53 ∧
      (0 < spacing m → 2 ^ 52 ≤ m / 2 ^ spacing m) := by
  refine ⟨Nat.div_mul_cancel exact, ?_, ?_⟩
  · rw [Nat.div_lt_iff_lt_mul (pow_spacing_pos m), ← Nat.pow_add]
    exact spacing_le.mp le_rfl
  · intro positive
    obtain ⟨k, spaced⟩ := Nat.exists_eq_succ_of_ne_zero positive.ne'
    rw [Nat.le_div_iff_mul_le (pow_spacing_pos m), ← Nat.pow_add, spaced]
    have large := lt_spacing.mp (spaced ▸ Nat.lt_succ_self k)
    rwa [show 52 + k.succ = 53 + k by omega]

/-- A near quotient is not so far from the magnitude that it doubles or halves it. -/
theorem Near.bounds (near : Near m num den) (positive : 0 < m) (exact : 2 ^ spacing m ∣ m) :
    m * den ≤ 2 * num ∧ num ≤ 2 * (m * den) := by
  have spaced := Nat.mul_le_mul_right den (Nat.le_of_dvd positive exact)
  have gap := Nat.mul_le_mul_right den (gapBelow_le m)
  obtain ⟨low, high, -⟩ := near
  simp only [Nat.add_mul, Nat.mul_assoc] at low high gap
  omega

theorem spacing_div_le (positive : 0 < den) {k : Nat} :
    spacing (num / den) ≤ k ↔ num < 2 ^ 53 * (2 ^ k * den) := by
  rw [spacing_le, Nat.div_lt_iff_lt_mul positive, Nat.pow_add, Nat.mul_assoc]

theorem Near.spacing_le (near : Near m num den) (positive : 0 < den)
    (exact : 2 ^ spacing m ∣ m) : spacing (num / den) ≤ spacing m := by
  obtain ⟨whole, small, -⟩ := significand_spec exact
  have unit : 0 < 2 ^ spacing m * den := Nat.mul_pos (pow_spacing_pos m) positive
  have high := near.high
  have bound : (4 * m + 2 * 2 ^ spacing m) * den =
      (4 * (m / 2 ^ spacing m) + 2) * (2 ^ spacing m * den) := by
    rw [← Nat.mul_assoc, Nat.add_mul (4 * _) 2, Nat.mul_assoc 4, whole]
  have most : (4 * (m / 2 ^ spacing m) + 2) * (2 ^ spacing m * den) <
      4 * 2 ^ 53 * (2 ^ spacing m * den) := Nat.mul_lt_mul_of_pos_right (by omega) unit
  rw [spacing_div_le positive]
  omega

theorem Near.roundDiv_eq (near : Near m num den) (positive : 0 < den)
    (exact : 2 ^ spacing m ∣ m) : roundDiv num (den * 2 ^ spacing m) = m / 2 ^ spacing m := by
  obtain ⟨whole, -, -⟩ := significand_spec exact
  have gap := Nat.mul_le_mul_right den (gapBelow_le m)
  have product : m / 2 ^ spacing m * (den * 2 ^ spacing m) = m * den := by
    rw [Nat.mul_left_comm, Nat.mul_comm den, whole]
  have half : den * 2 ^ spacing m = 2 ^ spacing m * den := Nat.mul_comm _ _
  obtain ⟨low, high, odd⟩ := near
  simp only [Nat.add_mul, Nat.mul_assoc] at low high odd gap
  refine Binary64.roundDiv_eq (Nat.mul_pos positive (pow_spacing_pos m)) ?_ ?_ ?_
  · rw [product, half]
    omega
  · rw [product, half]
    omega
  · intro isOdd
    have strict := odd isOdd
    rw [product, half]
    omega

/-- A near quotient below the spacing of the magnitude: the magnitude is the least of its spacing,
so that the distance to the number below is but half of the spacing. -/
theorem Near.least (near : Near m num den) (positive : 0 < den) (exact : 2 ^ spacing m ∣ m)
    {k : Nat} (spaced : spacing m = k + 1) (finer : spacing (num / den) ≤ k) :
    m = 2 ^ 53 * 2 ^ k ∧ gapBelow m = 2 * 2 ^ k := by
  obtain ⟨whole, -, large⟩ := significand_spec exact
  have above := large (spaced ▸ Nat.succ_pos k)
  have double : 2 ^ spacing m = 2 * 2 ^ k := by rw [spaced, Nat.pow_succ, Nat.mul_comm]
  have low := near.low
  have power : m / 2 ^ spacing m = 2 ^ 52 := by
    by_contra other
    have below := (spacing_div_le positive).mp finer
    have gap := Nat.mul_le_mul_right den (gapBelow_le m)
    rw [double, ← Nat.mul_assoc, Nat.mul_assoc] at gap
    have value : 4 * m * den = 8 * (m / 2 ^ spacing m) * (2 ^ k * den) := by
      conv_lhs => rw [← whole]
      generalize m / 2 ^ spacing m = s
      rw [double]
      ring
    have most : 8 * (2 ^ 52 + 1) * (2 ^ k * den) ≤ 8 * (m / 2 ^ spacing m) * (2 ^ k * den) :=
      Nat.mul_le_mul_right _ (by omega)
    omega
  constructor
  · rw [← whole, power, double]
    omega
  · rw [gapBelow, if_pos ⟨power, spaced ▸ Nat.succ_pos k⟩, double]

/-- There the quotient is spaced half as widely, and still rounds to the magnitude. -/
theorem Near.finer (near : Near m num den) (positive : 0 < den) (exact : 2 ^ spacing m ∣ m)
    (finer : spacing (num / den) < spacing m) :
    roundDiv num (den * 2 ^ spacing (num / den)) * 2 ^ spacing (num / den) = m := by
  obtain ⟨k, spaced⟩ := Nat.exists_eq_succ_of_ne_zero (Nat.ne_of_gt (Nat.zero_lt_of_lt finer))
  have closer : spacing (num / den) ≤ k := Nat.le_of_lt_succ (spaced ▸ finer)
  obtain ⟨value, gap⟩ := near.least positive exact spaced closer
  have unit : 0 < 2 ^ k * den := Nat.mul_pos (Nat.pow_pos (by decide)) positive
  have below := (spacing_div_le positive).mp closer
  have low := near.low
  rw [gap, value, Nat.mul_assoc, Nat.mul_assoc (2 ^ 53), Nat.mul_assoc 2] at low
  have same : spacing (num / den) = k := by
    refine Nat.le_antisymm closer ?_
    -- A quotient that is spaced more closely still would be below the half of the magnitude.
    by_contra less
    obtain ⟨j, rfl⟩ : ∃ j, k = j + 1 := ⟨k - 1, by omega⟩
    have small := (spacing_div_le positive).mp (Nat.le_of_lt_succ (Nat.lt_of_not_le less))
    have double : 2 ^ (j + 1) * den = 2 * (2 ^ j * den) := by
      rw [Nat.pow_succ, Nat.mul_comm (2 ^ j), Nat.mul_assoc]
    omega
  have comm : den * 2 ^ k = 2 ^ k * den := Nat.mul_comm _ _
  have rounded : roundDiv num (2 ^ k * den) = 2 ^ 53 :=
    Binary64.roundDiv_eq unit (by omega) (by omega) (by omega)
  rw [same, comm, rounded, ← value]

theorem ofRatio_of_near {negative : Bool} (positive : 0 < den)
    (number : Representable (.finite negative m)) (near : Near m (num * unit) den) :
    ofRatio negative num den = .finite negative m := by
  obtain ⟨small, exact⟩ := number.parts
  have rounded : roundDiv (num * unit) (den * 2 ^ spacing (num * unit / den)) *
      2 ^ spacing (num * unit / den) = m := by
    rcases Nat.lt_or_eq_of_le (near.spacing_le positive exact) with finer | same
    · exact near.finer positive exact finer
    · rw [same, near.roundDiv_eq positive exact, Nat.div_mul_cancel exact]
  rw [ofRatio]
  simp only [Nat.pow_eq, rounded]
  rw [if_neg (Nat.not_le.mpr small)]

/-- What a quotient is rounded to is a number of the format. -/
theorem representable_ofRatio (negative : Bool) (num den : Nat) :
    (ofRatio negative num den).Representable := by
  have few : roundDiv (num * unit) (den * 2 ^ spacing (num * unit / den)) ≤ 2 ^ 53 := by
    have small := spacing_le.mp (le_refl (spacing (num * unit / den)))
    rw [Nat.pow_add, ← Nat.div_lt_iff_lt_mul (Nat.pow_pos (by decide)),
      Nat.div_div_eq_div_mul] at small
    rcases roundDiv_cases (num * unit) (den * 2 ^ spacing (num * unit / den)) with same | next
    · exact same ▸ small.le
    · exact next ▸ small
  rw [ofRatio]
  simp only [Nat.pow_eq]
  generalize roundDiv (num * unit) (den * 2 ^ spacing (num * unit / den)) = q at few
  generalize spacing (num * unit / den) = e
  split_ifs with large
  · exact .infinite negative
  · refine .finite negative (Nat.lt_of_not_le large) ?_
    rcases Nat.lt_or_eq_of_le few with fewer | full
    · have closer : spacing (q * 2 ^ e) ≤ e := by
        rw [spacing_le, Nat.pow_add]
        exact Nat.mul_lt_mul_of_pos_right fewer (Nat.pow_pos (by decide))
      exact (Nat.pow_dvd_pow 2 closer).trans (Nat.dvd_mul_left _ _)
    · have closer : spacing (q * 2 ^ e) ≤ e + 1 := by
        rw [spacing_le, full, ← Nat.pow_add]
        exact Nat.pow_lt_pow_right (by decide) (by omega)
      rw [full] at closer ⊢
      rw [← Nat.pow_add] at closer ⊢
      exact Nat.pow_dvd_pow 2 (by omega)

theorem representable_ofNat (n : Nat) : (ofNat n).Representable := by
  rw [ofNat, ofInt]
  exact representable_ofRatio _ _ _

end Rounding

end PromptCanvas.Binary64
