import PromptCanvas.Proofs.Number.Integers

/-! # Integers beyond the format

An integer is rounded to a finite number exactly if its distance from zero is less than `limit`,
which is half way between the greatest finite number and the next power of two; the tie goes
to the latter (`ofInt_cases`).  The finite number is an integer again (`rounded_integer`), and
rounding does not go below a power of two (`pow_le_rounded`). -/

set_option autoImplicit false

namespace PromptCanvas.Binary64

section Magnitudes

/-- The magnitude nearest to a multiple of the least subnormal, were there no greatest one. -/
def rounded (s : Nat) : Nat := roundDiv s (2 ^ spacing s) * 2 ^ spacing s

theorem rounded_half (s : Nat) :
    2 * rounded s ≤ 2 * s + 2 ^ spacing s ∧ 2 * s ≤ 2 * rounded s + 2 ^ spacing s :=
  roundDiv_half s (pow_spacing_pos s)

/-- Rounding does not go below a power of two, as the multiples of the spacing do not. -/
theorem pow_le_rounded {s k : Nat} (large : 2 ^ (53 + k) ≤ s) : 2 ^ (53 + k) ≤ rounded s := by
  obtain ⟨e, spaced⟩ := Nat.exists_eq_succ_of_ne_zero (Nat.ne_zero_of_lt (lt_spacing.mpr large))
  have wide : k ≤ e := Nat.le_of_lt_succ (spaced ▸ lt_spacing.mpr large)
  have whole : 2 ^ (53 + e) ≤ s := lt_spacing.mp (spaced ▸ Nat.lt_succ_self e)
  have digits : 2 ^ 52 ≤ s / 2 ^ (e + 1) := by
    rw [Nat.le_div_iff_mul_le (Nat.pow_pos (by decide)), ← Nat.pow_add]
    rwa [show 52 + (e + 1) = 53 + e by omega]
  have kept : 2 ^ 52 ≤ roundDiv s (2 ^ (e + 1)) := by
    rcases roundDiv_cases s (2 ^ (e + 1)) with same | next <;> omega
  rw [rounded, spaced]
  calc 2 ^ (53 + k) ≤ 2 ^ (52 + (e + 1)) := Nat.pow_le_pow_right (by decide) (by omega)
    _ = 2 ^ 52 * 2 ^ (e + 1) := Nat.pow_add ..
    _ ≤ roundDiv s (2 ^ (e + 1)) * 2 ^ (e + 1) := Nat.mul_le_mul_right _ kept

/-- Rounding goes up to a power of two from half of the spacing below it, with the tie. -/
theorem pow_le_rounded_iff (s k : Nat) : 2 ^ (54 + k) ≤ rounded s ↔ (2 ^ 54 - 1) * 2 ^ k ≤ s := by
  have step : 2 ^ (k + 1) = 2 * 2 ^ k := Nat.pow_succ'
  have last : 2 ^ (53 + k) = 2 ^ 53 * 2 ^ k := Nat.pow_add ..
  have top : 2 ^ (53 + (k + 1)) = 2 ^ 54 * 2 ^ k := by rw [Nat.pow_add, step]; omega
  have fine : spacing s ≤ k + 1 ↔ s < 2 ^ 54 * 2 ^ k := by rw [spacing_le, top]
  have wide : k < spacing s ↔ 2 ^ 53 * 2 ^ k ≤ s := by rw [lt_spacing, last]
  rw [show 54 + k = 53 + (k + 1) by omega]
  constructor
  · intro large
    by_contra small
    have below := (rounded_half s).1
    have bound : 2 ^ spacing s ≤ 2 * 2 ^ k :=
      step ▸ Nat.pow_le_pow_right (by decide) (fine.mpr (by omega))
    omega
  · intro large
    by_cases beyond : 2 ^ (53 + (k + 1)) ≤ s
    · exact pow_le_rounded beyond
    · have spaced : spacing s = k + 1 :=
        Nat.le_antisymm (fine.mpr (by omega)) (wide.mpr (by omega))
      -- a tie goes to the even one of the two multiples
      have even : roundDiv s (2 ^ (k + 1)) = 2 ^ 53 :=
        roundDiv_eq (Nat.pow_pos (by decide)) (by omega) (by omega) (by omega)
      rw [rounded, spaced, even, ← Nat.pow_add]

/-- The integers that are counted in full are kept, and the others stay beyond them. -/
theorem rounded_integer (n : Nat) :
    rounded (n * unit) = n * unit ∨ 2 ^ 53 ≤ n ∧ 2 ^ 53 * unit ≤ rounded (n * unit) := by
  rcases Nat.lt_or_ge n (2 ^ 53) with small | large
  · have kept : 2 ^ spacing (n * unit) ∣ n * unit := pow_spacing_dvd_integer small
    have exact := (near_self (n * unit)).roundDiv_eq Nat.one_pos kept
    rw [Nat.one_mul] at exact
    exact .inl (by rw [rounded, exact, Nat.div_mul_cancel kept])
  · have product := Nat.mul_le_mul_right unit large
    obtain ⟨k, power⟩ := exists_unit_eq
    refine .inr ⟨large, ?_⟩
    rw [show 2 ^ 53 * unit = 2 ^ (53 + k) by rw [power, Nat.pow_add]] at product ⊢
    exact pow_le_rounded product

end Magnitudes

section Integers

/-- The least integer that is too large to round to a finite number. -/
def limit : Nat := 2 ^ 1024 - 2 ^ 970

/-- In multiples of the least subnormal the limit is half way to the power of two. -/
theorem limit_mul_unit : limit * unit = (2 ^ 54 - 1) * 2 ^ 2044 ∧ overflow = 2 ^ (54 + 2044) := by
  decide +kernel

theorem ofInt_cases (n : Int) :
    (limit ≤ n.natAbs ∧ ofInt n = .infinite (decide (n < 0))) ∨
      n.natAbs < limit ∧ ofInt n = .finite (decide (n < 0)) (rounded (n.natAbs * unit)) := by
  have magnitude : roundDiv (n.natAbs * unit) (1 * 2 ^ spacing (n.natAbs * unit / 1)) *
      2 ^ spacing (n.natAbs * unit / 1) = rounded (n.natAbs * unit) := by
    rw [Nat.div_one, Nat.one_mul, rounded]
  have scaled : overflow ≤ rounded (n.natAbs * unit) ↔ limit ≤ n.natAbs := by
    rw [limit_mul_unit.2, pow_le_rounded_iff, ← limit_mul_unit.1,
      Nat.mul_le_mul_right_iff unit_pos]
  rw [ofInt, ofRatio]
  simp only [Nat.pow_eq, magnitude]
  rcases Nat.lt_or_ge n.natAbs limit with small | large
  · exact .inr ⟨small, if_neg (Nat.not_le.mpr small ∘ scaled.mp)⟩
  · exact .inl ⟨large, if_pos (scaled.mpr large)⟩

end Integers

end PromptCanvas.Binary64
