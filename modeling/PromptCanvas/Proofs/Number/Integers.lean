import PromptCanvas.Proofs.Number.Rounding

/-! # Integers of the format

An integer of at most fifty-three binary digits is a number of the format, so it is rounded
to itself (`ofNat_eq`) and read back as it was (`toInt_ofNat`). -/

set_option autoImplicit false

namespace PromptCanvas.Binary64

section Integers

theorem exists_exponent : ∃ k, unit = 2 ^ k ∧ overflow = 2 ^ (1024 + k) :=
  ⟨1074, by decide +kernel⟩

theorem exists_unit_eq : ∃ k, unit = 2 ^ k := by
  obtain ⟨k, power, -⟩ := exists_exponent
  exact ⟨k, power⟩

theorem unit_pos : 0 < unit := by
  obtain ⟨k, power⟩ := exists_unit_eq
  exact power ▸ Nat.two_pow_pos k

theorem integers_lt_overflow : 2 ^ 53 * unit < overflow := by
  obtain ⟨k, power, top⟩ := exists_exponent
  rw [power, top, ← Nat.pow_add]
  exact Nat.pow_lt_pow_right Nat.one_lt_two (by omega)

variable {n : Nat}

/-- Between integers of so few digits there are no gaps. -/
theorem pow_spacing_dvd_integer (small : n < 2 ^ 53) : 2 ^ spacing (n * unit) ∣ n * unit := by
  obtain ⟨k, power⟩ := exists_unit_eq
  rw [power]
  have close : spacing (n * 2 ^ k) ≤ k := by
    rw [spacing_le, Nat.pow_add]
    exact Nat.mul_lt_mul_of_pos_right small (Nat.pow_pos (by decide))
  exact (Nat.pow_dvd_pow 2 close).trans (Nat.dvd_mul_left _ _)

theorem representable_integer (small : n < 2 ^ 53) :
    Representable (.finite false (n * unit)) := by
  have below := Nat.mul_le_mul_right unit small.le
  exact .finite false (below.trans_lt integers_lt_overflow) (pow_spacing_dvd_integer small)

theorem near_self (m : Nat) : Near m m 1 := by
  have above := pow_spacing_pos m
  have below : 0 < gapBelow m := by
    rw [gapBelow]
    split <;> omega
  exact Near.of_lt (by omega) (by omega)

theorem ofNat_eq (small : n < 2 ^ 53) : ofNat n = .finite false (n * unit) := by
  have positive : decide ((n : Int) < 0) = false := decide_eq_false (by omega)
  rw [ofNat, ofInt, positive, Int.natAbs_natCast]
  exact ofRatio_of_near Nat.one_pos (representable_integer small) (near_self _)

theorem isNan_ofNat (small : n < 2 ^ 53) : (ofNat n).isNan = false := by
  rw [ofNat_eq small]
  rfl

theorem key_ofNat_lt {m : Nat} (less : m < n) (small : n < 2 ^ 53) :
    (ofNat m).key < (ofNat n).key := by
  rw [ofNat_eq small, ofNat_eq (less.trans small), key, key, Int.ofNat_lt]
  exact Nat.mul_lt_mul_of_pos_right less unit_pos

theorem toInt_ofNat (small : n < 2 ^ 53) : (ofNat n).toInt = some (n : Int) := by
  rw [ofNat_eq small, toInt, if_pos (Nat.mul_mod_left n unit), truncate,
    Nat.mul_div_cancel n unit_pos]

end Integers

end PromptCanvas.Binary64
