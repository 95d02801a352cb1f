import CustomsClaims.Proofs.Number.Interval

/-!
# Errors of rounding

`Near n x y`: the numbers differ by no more than `n` roundings can make them differ. Rounding is one
of these steps (`Binary.Rounds.near`), products and quotients add up the steps of their parts, and
so a number in scientific form is read with an error of four (`Binary.near_ofScientific`).
-/

namespace CustomsClaims

/-- Rounding multiplies or divides a number by no more than this. -/
def roundingFactor : ℚ := 1 + 1 / (2 ^ 53 - 1)

theorem one_le_roundingFactor_pow (n : Nat) : 1 ≤ roundingFactor ^ n :=
  one_le_pow₀ (by norm_num [roundingFactor])

/-- The numbers are apart by at most `n` roundings. -/
structure Near (n : Nat) (x y : ℚ) : Prop where
  le : x ≤ y * roundingFactor ^ n
  ge : y ≤ x * roundingFactor ^ n

namespace Near

variable {m n : Nat} {x y z x' y' : ℚ}

theorem symm (h : Near n x y) : Near n y x := ⟨h.ge, h.le⟩

theorem trans (h : Near m x y) (h' : Near n y z) : Near (m + n) x z := by
  have hm := zero_le_one.trans (one_le_roundingFactor_pow m)
  have hn := zero_le_one.trans (one_le_roundingFactor_pow n)
  constructor
  · calc x ≤ y * roundingFactor ^ m := h.le
      _ ≤ z * roundingFactor ^ n * roundingFactor ^ m := mul_le_mul_of_nonneg_right h'.le hm
      _ = z * roundingFactor ^ (m + n) := by ring
  · calc z ≤ y * roundingFactor ^ n := h'.ge
      _ ≤ x * roundingFactor ^ m * roundingFactor ^ n := mul_le_mul_of_nonneg_right h.ge hn
      _ = x * roundingFactor ^ (m + n) := by ring

section
variable (hx : 0 ≤ x) (hy : 0 ≤ y) (hx' : 0 ≤ x') (hy' : 0 ≤ y')
include hx hy hx' hy'

theorem mul (h : Near m x y) (h' : Near n x' y') : Near (m + n) (x * x') (y * y') := by
  have hm := zero_le_one.trans (one_le_roundingFactor_pow m)
  constructor
  · calc x * x' ≤ y * roundingFactor ^ m * (y' * roundingFactor ^ n) :=
          mul_le_mul h.le h'.le hx' (mul_nonneg hy hm)
      _ = y * y' * roundingFactor ^ (m + n) := by ring
  · calc y * y' ≤ x * roundingFactor ^ m * (x' * roundingFactor ^ n) :=
          mul_le_mul h.ge h'.ge hy' (mul_nonneg hx hm)
      _ = x * x' * roundingFactor ^ (m + n) := by ring

end

theorem inv (hx : 0 < x) (hy : 0 < y) (h : Near n x y) : Near n x⁻¹ y⁻¹ := by
  constructor
  · rw [inv_mul_eq_div, inv_eq_one_div, div_le_div_iff₀ hx hy, one_mul, mul_comm]
    exact h.ge
  · rw [inv_mul_eq_div, inv_eq_one_div, div_le_div_iff₀ hy hx, one_mul, mul_comm]
    exact h.le

/-- Six roundings change a number by less than its `2 ^ 50`-th part. -/
theorem abs_sub_le (hy : 0 ≤ y) (h : Near 6 x y) : |x - y| ≤ y / 2 ^ 50 := by
  have hfactor : roundingFactor ^ 6 ≤ 1 + 1 / 2 ^ 50 := by norm_num [roundingFactor]
  have hle : x ≤ y * (1 + 1 / 2 ^ 50) := h.le.trans (mul_le_mul_of_nonneg_left hfactor hy)
  have hx : 0 ≤ x := by
    by_contra hneg
    have hge := h.ge
    have hpos := one_le_roundingFactor_pow 6
    nlinarith
  have hge : y ≤ x * (1 + 1 / 2 ^ 50) := h.ge.trans (mul_le_mul_of_nonneg_left hfactor hx)
  rw [abs_le]
  constructor
  · linarith
  · linarith

end Near

namespace Binary

variable {b : Binary} {q : ℚ} {s : Nat} {t : Int} {y : Binary}

/-- **Rounding is one rounding.** -/
theorem Rounds.near (hfull : 2 ^ 52 ≤ b.mantissa) (h : b.Rounds q) : Near 1 b.value q := by
  have hplace : (0 : ℚ) < 2 ^ b.exponent := by positivity
  have hfull : (2 : ℚ) ^ 52 ≤ b.mantissa := by exact_mod_cast hfull
  have hlast : 2 ^ 52 * 2 ^ b.exponent ≤ b.value := mul_le_mul_of_nonneg_right hfull hplace.le
  have hlow := b.le_lower.trans h.low
  have hhigh := h.high
  rw [sub_mul, ← value] at hlow
  rw [upper, add_mul, ← value] at hhigh
  constructor
  · rw [pow_one, roundingFactor]
    linarith
  · rw [pow_one, roundingFactor]
    linarith

/-- What is not too near to zero is rounded to a number that fills its mantissa. -/
theorem Rounds.mantissa_ge (hb : b.Normal) (h : b.Rounds q) (hq : 1 / 10 ^ 40 ≤ q) :
    2 ^ 52 ≤ b.mantissa := by
  refine hb.mantissa_ge ?_
  have hge : -200 ≤ b.exponent := by
    refine le_exponent hb h ?_
    norm_num at hq ⊢
    linarith
  omega

/-! ## Numbers in scientific form -/

theorem near_nearest_whole (hs : s ≠ 0) : Near 1 (nearest s 1).value s := by
  have hone : (1 : ℚ) ≤ s := by exact_mod_cast Nat.one_le_iff_ne_zero.2 hs
  have hrounds := rounds_nearest_whole s
  exact hrounds.near (hrounds.mantissa_ge (normal_nearest Nat.one_pos) (by linarith))

theorem near_tenPower (n : Nat) : Near 1 (tenPower n).value (10 ^ n) := by
  have hpow : 0 < 10 ^ n := Nat.pow_pos (by decide)
  have hnear := near_nearest_whole hpow.ne'
  rw [Nat.cast_pow, Nat.cast_ofNat] at hnear
  exact hnear

/-- A number that is rounded after two roundings. -/
theorem Rounds.near_third {x : ℚ} (hy : y.Normal) (hx : 1 / 10 ^ 30 ≤ x) (hq : Near 2 q x)
    (h : y.Rounds q) : 2 ^ 52 ≤ y.mantissa ∧ Near 3 y.value x := by
  have hfactor : roundingFactor ^ 2 ≤ 2 := by norm_num [roundingFactor]
  have hge := hq.ge
  have hfull : 2 ^ 52 ≤ y.mantissa := by
    refine h.mantissa_ge hy ?_
    have hpos := one_le_roundingFactor_pow 2
    by_contra hlt
    nlinarith
  exact ⟨hfull, (h.near hfull).trans hq⟩

/-- **A number in scientific form is read with three roundings**: of its significand, of the power
of ten and of their product or quotient. -/
theorem near_ofScientific (hs : s ≠ 0) (ht : -300 ≤ t) (hsize : 1 / 10 ^ 30 ≤ (s : ℚ) * 10 ^ t)
    (h : ofScientific s t = some y) :
    y.Normal ∧ 2 ^ 52 ≤ y.mantissa ∧ Near 3 y.value (s * 10 ^ t) := by
  have hsignificand := near_nearest_whole hs
  have hs0 : (0 : ℚ) ≤ s := by positivity
  unfold ofScientific at h
  dsimp only at h
  cases t with
  | ofNat n =>
    have hzero : ¬(nearest s 1).isZero := by
      intro hzero
      have hone : (1 : ℚ) ≤ s := by exact_mod_cast Nat.one_le_iff_ne_zero.2 hs
      have hge := hsignificand.ge
      rw [value, of_decide_eq_true hzero, Nat.cast_zero, zero_mul, zero_mul] at hge
      linarith
    have hproduct : Near 2 ((nearest s 1).value * (tenPower n).value) (s * 10 ^ Int.ofNat n) := by
      rw [Int.ofNat_eq_natCast, zpow_natCast]
      exact hsignificand.mul (value_nonneg _) hs0 (value_nonneg _) (by positivity) (near_tenPower n)
    have hnormal := normal_mul (nearest s 1) (tenPower n)
    dsimp only at h
    split at h
    · split at h
      · cases h
        exact ⟨hnormal, (rounds_mul _ _).near_third hnormal hsize hproduct⟩
      · cases h
    · cases h
  | negSucc n =>
    have hpower := near_tenPower (n + 1)
    have hten : (0 : ℚ) < 10 ^ (n + 1) := by positivity
    have hpos : 0 < (tenPower (n + 1)).value := lt_of_lt_of_le one_pos (one_le_tenPower _)
    dsimp only at h
    rw [Nat.mod_eq_of_lt (by rw [maxTenPower]; omega),
      Nat.div_eq_of_lt (by rw [maxTenPower]; omega),
      divTenPower] at h
    cases h
    have hnormal := (div_le (normal_nearest Nat.one_pos : (nearest s 1).Normal)
      (one_le_tenPower (n + 1))).1
    have hquotient :
        Near 2 ((nearest s 1).value / (tenPower (n + 1)).value) (s * 10 ^ Int.negSucc n) := by
      rw [div_eq_mul_inv, zpow_negSucc]
      exact hsignificand.mul (value_nonneg _) hs0 (by positivity) (by positivity)
        (hpower.inv hpos hten)
    exact ⟨hnormal, (rounds_div (nearest s 1) hpos).near_third hnormal hsize hquotient⟩

end Binary
end CustomsClaims
