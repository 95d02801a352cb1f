import CustomsClaims.Proofs.Number.Decimal
import CustomsClaims.Proofs.Number.Interval

/-!
# The size of shortest digits

`Binary.shortest` gives a decimal number in the interval of numbers that round to `b`
(`Binary.inside_iff`), on the coarsest grid that reaches into it. The first bounds its value
(`Binary.value_shortest_le`), the second its coefficient, because the grids that were tried before are
finer than the interval is wide otherwise (`Binary.coefficient_shortest_lt`).
-/

namespace CustomsClaims

/-- The number that a coefficient and an exponent stand for. -/
def Digits.value (d : Digits) : ℚ := d.coefficient * 10 ^ d.exponent

namespace Binary

/-! ## Grids -/

/-- The unit in which the interval of `b` is compared with the grid `10 ^ k`. -/
def gridUnit (b : Binary) (k : Int) : Nat := 2 ^ (b.exponent - 2).toNat * 10 ^ (-k).toNat

/-- The step of the grid `10 ^ k` in this unit. -/
def gridStep (b : Binary) (k : Int) : Nat := 2 ^ (2 - b.exponent).toNat * 10 ^ k.toNat

/-- Does the grid point `d · 10 ^ k` round to `b`? -/
def inside (b : Binary) (k : Int) (d : Nat) : Bool :=
  if b.mantissa % 2 = 0 then
    b.lowEnd * b.gridUnit k ≤ d * b.gridStep k ∧ d * b.gridStep k ≤ b.highEnd * b.gridUnit k
  else b.lowEnd * b.gridUnit k < d * b.gridStep k ∧ d * b.gridStep k < b.highEnd * b.gridUnit k

section
variable {b : Binary} {tie : Tie} {k : Int} {d : Nat}

/-- What the grid gives rounds to `b`; if it gives nothing, the points before and after `b` do not. -/
theorem onGrid?_cases (b : Binary) (tie : Tie) (k : Int) :
    (∃ d, b.onGrid? tie k = some d ∧ b.inside k d) ∨
      b.onGrid? tie k = none ∧
        b.inside k (4 * b.mantissa * b.gridUnit k / b.gridStep k) = false ∧
        b.inside k (4 * b.mantissa * b.gridUnit k / b.gridStep k + 1) = false := by
  unfold onGrid?
  dsimp only
  split
  case h_1 hlow hhigh =>
    left
    split
    · exact ⟨_, rfl, hlow⟩
    · split
      · exact ⟨_, rfl, hhigh⟩
      · cases tie with
        | even =>
          dsimp only
          split
          · exact ⟨_, rfl, hlow⟩
          · exact ⟨_, rfl, hhigh⟩
        | up => exact ⟨_, rfl, hhigh⟩
  case h_2 hlow _ => exact .inl ⟨_, rfl, hlow⟩
  case h_3 _ hhigh => exact .inl ⟨_, rfl, hhigh⟩
  case h_4 hlow hhigh => exact .inr ⟨rfl, hlow, hhigh⟩

theorem inside_of_onGrid? (h : b.onGrid? tie k = some d) : b.inside k d := by
  rcases b.onGrid?_cases tie k with ⟨d', hd', hinside⟩ | ⟨hnone, -⟩
  · rw [h] at hd'
    cases hd'
    exact hinside
  · rw [h] at hnone
    cases hnone

theorem gridUnit_pos (b : Binary) (k : Int) : 0 < b.gridUnit k := by
  unfold gridUnit
  positivity

theorem gridStep_pos (b : Binary) (k : Int) : 0 < b.gridStep k := by
  unfold gridStep
  positivity

/-- Step and unit have the ratio of `10 ^ k` and the unit of the interval's ends. -/
theorem gridStep_mul (b : Binary) (k : Int) :
    (b.gridStep k : ℚ) * 2 ^ (b.exponent - 2) = b.gridUnit k * 10 ^ k := by
  unfold gridStep gridUnit
  rw [zpow_eq_div 2, zpow_eq_div 10, neg_sub]
  push_cast
  field_simp

theorem highEnd_mul (b : Binary) : (b.highEnd : ℚ) * 2 ^ (b.exponent - 2) = b.upper := by
  rw [zpow_sub₀ (by norm_num), upper, highEnd]
  push_cast
  ring

/-- What the unit is for `2 ^ (b.exponent - 2)`, the step is for `10 ^ k`. -/
def gridScale (b : Binary) (k : Int) : ℚ := b.gridUnit k / 2 ^ (b.exponent - 2)

theorem gridScale_pos (b : Binary) (k : Int) : 0 < b.gridScale k := by
  have hunit : (0 : ℚ) < b.gridUnit k := by exact_mod_cast b.gridUnit_pos k
  unfold gridScale
  positivity

theorem cast_gridUnit (b : Binary) (k : Int) (n : Nat) :
    ((n * b.gridUnit k : Nat) : ℚ) = b.gridScale k * (n * 2 ^ (b.exponent - 2)) := by
  unfold gridScale
  push_cast
  field_simp

theorem cast_gridStep (b : Binary) (k : Int) (d : Nat) :
    ((d * b.gridStep k : Nat) : ℚ) = b.gridScale k * (d * 10 ^ k) := by
  have htwo : (0 : ℚ) < 2 ^ (b.exponent - 2) := by positivity
  unfold gridScale
  push_cast
  rw [div_mul_eq_mul_div, eq_div_iff htwo.ne', mul_assoc, gridStep_mul]
  ring

/-- **The grid points in question are those that round to `b`.** -/
theorem inside_iff : b.inside k d ↔ b.Rounds (d * 10 ^ k) := by
  have hscale := b.gridScale_pos k
  have hlow : b.lowEnd * b.gridUnit k ≤ d * b.gridStep k ↔ b.lower ≤ d * 10 ^ k := by
    rw [← @Nat.cast_le ℚ, cast_gridUnit, cast_gridStep, mul_le_mul_iff_right₀ hscale, lower]
  have hlow' : b.lowEnd * b.gridUnit k < d * b.gridStep k ↔ b.lower < d * 10 ^ k := by
    rw [← @Nat.cast_lt ℚ, cast_gridUnit, cast_gridStep, mul_lt_mul_iff_right₀ hscale, lower]
  have hhigh : d * b.gridStep k ≤ b.highEnd * b.gridUnit k ↔ (d : ℚ) * 10 ^ k ≤ b.upper := by
    rw [← @Nat.cast_le ℚ, cast_gridUnit, cast_gridStep, mul_le_mul_iff_right₀ hscale, highEnd_mul]
  have hhigh' : d * b.gridStep k < b.highEnd * b.gridUnit k ↔ (d : ℚ) * 10 ^ k < b.upper := by
    rw [← @Nat.cast_lt ℚ, cast_gridUnit, cast_gridStep, mul_lt_mul_iff_right₀ hscale, highEnd_mul]
  unfold inside
  split
  case isTrue heven =>
    rw [decide_eq_true_iff, hlow, hhigh]
    exact ⟨fun h => ⟨h.1, h.2, fun hodd => absurd heven hodd⟩, fun h => ⟨h.low, h.high⟩⟩
  case isFalse hodd =>
    rw [decide_eq_true_iff, hlow', hhigh']
    exact ⟨fun h => rounds_of_lt h.1 h.2, fun h => h.odd hodd⟩

/-- On a grid as fine as the unit the point before `b` rounds to `b`. -/
theorem inside_of_gridStep_le (hb : b.mantissa ≠ 0) (hle : b.gridStep k ≤ b.gridUnit k) :
    b.inside k (4 * b.mantissa * b.gridUnit k / b.gridStep k) := by
  have hdiv := Nat.div_add_mod (4 * b.mantissa * b.gridUnit k) (b.gridStep k)
  have hmod := Nat.mod_lt (4 * b.mantissa * b.gridUnit k) (b.gridStep_pos k)
  have hpos := b.gridUnit_pos k
  rw [Nat.mul_comm] at hdiv
  have hlow : (b.lowEnd + 1) * b.gridUnit k ≤ 4 * b.mantissa * b.gridUnit k := by
    refine Nat.mul_le_mul_right _ ?_
    unfold lowEnd
    split <;> omega
  have hhigh : b.highEnd * b.gridUnit k = 4 * b.mantissa * b.gridUnit k + 2 * b.gridUnit k := by
    rw [highEnd, Nat.add_mul]
  rw [Nat.succ_mul] at hlow
  unfold inside
  split
  · rw [decide_eq_true_iff]
    omega
  · rw [decide_eq_true_iff]
    omega

/-- A grid without a point in the interval is coarser than half of it. -/
theorem lt_ten_zpow_of_onGrid? (hb : b.mantissa ≠ 0) (h : b.onGrid? tie k = none) :
    (2 : ℚ) ^ (b.exponent - 2) < 10 ^ k := by
  have hstep : b.gridUnit k < b.gridStep k := by
    by_contra hle
    have hinside := inside_of_gridStep_le hb (not_lt.1 hle)
    rcases b.onGrid?_cases tie k with ⟨d, hd, -⟩ | ⟨-, hnot, -⟩
    · rw [h] at hd
      cases hd
    · rw [hinside] at hnot
      cases hnot
  have hunit : (0 : ℚ) < b.gridUnit k := by exact_mod_cast b.gridUnit_pos k
  have htwo : (0 : ℚ) < 2 ^ (b.exponent - 2) := by positivity
  refine lt_of_mul_lt_mul_left ?_ hunit.le
  rw [← gridStep_mul]
  exact mul_lt_mul_of_pos_right (by exact_mod_cast hstep) htwo

/-! ## The search -/

theorem searchGrid_some {tries : Nat} {found : Digits}
    (h : b.searchGrid tie k tries = some found) :
    b.onGrid? tie found.exponent = some found.coefficient ∧
      found.exponent ≤ k ∧ k - tries < found.exponent ∧
      (found.exponent = k ∨ b.onGrid? tie (found.exponent + 1) = none) := by
  induction tries generalizing k with
  | zero => cases h
  | succ tries ih =>
    unfold searchGrid at h
    split at h
    case h_1 c hc =>
      cases h
      exact ⟨hc, Int.le_refl _, by dsimp only; omega, .inl rfl⟩
    case h_2 hnone =>
      obtain ⟨hfound, hle, hlt, hlast⟩ := ih h
      refine ⟨hfound, by omega, by omega, .inr ?_⟩
      rcases hlast with heq | hlast
      · rw [heq, Int.sub_add_cancel]
        exact hnone
      · exact hlast

/-- The start is so coarse that the number is less than a tenth of a step. -/
theorem value_lt_startGrid (b : Binary) : b.value < 10 ^ (b.startGrid - 1) := by
  have hnum : (b.fraction.1 : ℚ) < 10 ^ (decimalLength b.fraction.1 : Int) := by
    exact_mod_cast lt_pow_decimalLength b.fraction.1
  have hlength : 0 < decimalLength b.fraction.2 := Nat.length_toDigits_pos
  have hden : (10 : ℚ) ^ ((decimalLength b.fraction.2 : Int) - 1) ≤ b.fraction.2 := by
    have hexponent : (decimalLength b.fraction.2 : Int) - 1 =
        (decimalLength b.fraction.2 - 1 : Nat) := by omega
    rw [hexponent]
    exact_mod_cast pow_decimalLength_le b.fraction_snd_pos
  have hpos : (0 : ℚ) < b.fraction.2 := by exact_mod_cast b.fraction_snd_pos
  rw [value_eq_fraction, div_lt_iff₀ hpos]
  calc (b.fraction.1 : ℚ) < 10 ^ (decimalLength b.fraction.1 : Int) := hnum
    _ = 10 ^ (b.startGrid - 1) * 10 ^ ((decimalLength b.fraction.2 : Int) - 1) := by
      rw [← zpow_add₀ (by norm_num), startGrid]
      congr 1
      ring
    _ ≤ 10 ^ (b.startGrid - 1) * b.fraction.2 := mul_le_mul_of_nonneg_left hden (by positivity)

end

/-! ## The shortest digits -/

section
variable {b : Binary} (tie : Tie)

/-- Zeros apart, the search succeeds or its result is replaced by zero. -/
theorem shortest_cases (b : Binary) :
    b.shortest tie = ⟨0, 0⟩ ∨
      b.mantissa ≠ 0 ∧ b.searchGrid tie b.startGrid 22 = some (b.shortest tie) := by
  unfold shortest
  by_cases hzero : b.isZero
  · exact .inl (if_pos hzero)
  rw [if_neg hzero]
  cases hsearch : b.searchGrid tie b.startGrid 22 with
  | none => exact .inl rfl
  | some d => exact .inr ⟨by simpa [isZero] using hzero, rfl⟩

theorem value_shortest_le (b : Binary) :
    (b.shortest tie).value ≤ b.upper ∧
      (b.mantissa % 2 ≠ 0 → (b.shortest tie).value < b.upper) := by
  rcases b.shortest_cases tie with hzero | ⟨-, hsearch⟩
  · have hupper : 0 < b.upper := lt_of_le_of_lt b.value_nonneg b.value_lt_upper
    have hvalue : (b.shortest tie).value = 0 := by rw [hzero, Digits.value, Nat.cast_zero, zero_mul]
    rw [hvalue]
    exact ⟨hupper.le, fun _ => hupper⟩
  · have hrounds := inside_iff.1 (inside_of_onGrid? (searchGrid_some hsearch).1)
    exact ⟨hrounds.high, fun hodd => (hrounds.odd hodd).2⟩

/-- **The coefficient is below `2 ^ 59`.** -/
theorem coefficient_shortest_lt (hb : b.Normal) : (b.shortest tie).coefficient < 2 ^ 59 := by
  rcases b.shortest_cases tie with hzero | ⟨hmantissa, hsearch⟩
  · rw [hzero]
    decide
  have hle := (b.value_shortest_le tie).1
  obtain ⟨-, -, -, hlast⟩ := searchGrid_some hsearch
  generalize b.shortest tie = d at *
  have hten : (0 : ℚ) < 10 ^ d.exponent := by positivity
  have hmantissa1 : (1 : ℚ) ≤ b.mantissa := by exact_mod_cast Nat.one_le_iff_ne_zero.2 hmantissa
  have hmantissa2 : (b.mantissa : ℚ) + 1 ≤ 2 ^ 53 := by exact_mod_cast hb.mantissa_lt
  have hcoefficient : (d.coefficient : ℚ) < 40 * b.mantissa + 20 := by
    refine lt_of_mul_lt_mul_right (lt_of_le_of_lt hle ?_) hten.le
    rcases hlast with hstart | hnone
    · -- on the first grid even one step would be too far
      have hvalue := b.value_lt_startGrid
      have htwo : (0 : ℚ) < 2 ^ b.exponent := by positivity
      rw [← hstart, zpow_sub₀ (by norm_num), zpow_one, value] at hvalue
      have hupper : b.upper ≤ 2 * (b.mantissa * 2 ^ b.exponent) := by
        unfold upper
        nlinarith
      nlinarith
    · have hcoarse := lt_ten_zpow_of_onGrid? hmantissa hnone
      rw [zpow_add₀ (by norm_num), zpow_one] at hcoarse
      rw [← highEnd_mul, highEnd]
      push_cast
      nlinarith
  have hlimit : (d.coefficient : ℚ) < 2 ^ 59 := by
    calc (d.coefficient : ℚ) < 40 * b.mantissa + 20 := hcoefficient
      _ ≤ 40 * (2 ^ 53 - 1) + 20 := by linarith
      _ < 2 ^ 59 := by norm_num
  exact_mod_cast hlimit

/-- The exponent, for numbers of a moderate size. -/
theorem exponent_shortest (hb : b.Normal) (hexponent : b.exponent ≤ 44) :
    -400 < (b.shortest tie).exponent ∧ (b.shortest tie).exponent < 40 := by
  rcases b.shortest_cases tie with hzero | ⟨-, hsearch⟩
  · rw [hzero]
    decide
  obtain ⟨-, hle, hlt, -⟩ := searchGrid_some hsearch
  have hge := hb.exponent_ge
  have hnum : decimalLength b.fraction.1 ≤ 30 := by
    refine decimalLength_le (by decide) ?_
    calc b.mantissa * 2 ^ b.exponent.toNat < 2 ^ 53 * 2 ^ b.exponent.toNat :=
          Nat.mul_lt_mul_of_pos_right hb.mantissa_lt (Nat.two_pow_pos _)
      _ ≤ 2 ^ 53 * 2 ^ 44 :=
          Nat.mul_le_mul_left _ (Nat.pow_le_pow_right (by decide) (by omega))
      _ < 10 ^ 30 := by norm_num
  have hden : decimalLength b.fraction.2 ≤ 324 := by
    refine decimalLength_le (by decide) ?_
    calc 2 ^ (-b.exponent).toNat ≤ 2 ^ 1074 := Nat.pow_le_pow_right (by decide) (by omega)
      _ < 10 ^ 324 := by decide +kernel
  have hnum0 : 0 < decimalLength b.fraction.1 := Nat.length_toDigits_pos
  have hden0 : 0 < decimalLength b.fraction.2 := Nat.length_toDigits_pos
  unfold startGrid at hle hlt
  dsimp only at hle hlt
  omega

end
end Binary
end CustomsClaims
