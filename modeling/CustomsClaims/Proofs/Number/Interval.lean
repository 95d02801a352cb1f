import CustomsClaims.Number.Digits
import CustomsClaims.Proofs.Number.Rounding

/-!
# The numbers that round to a binary number

`Binary.Rounds b q`: the number `q` is in the interval of those that round to `b`, from the midpoint
below `b` to the midpoint above it; the midpoints belong to it if the mantissa is even. These intervals
overlap nowhere, so that `Binary.nearest` gives `b` exactly for the numbers of its interval
(`Binary.nearest_eq_iff`), and products and quotients are rounded in the same way.
-/

namespace CustomsClaims

namespace Binary

/-! ## Intervals -/

/-- The lower end of the interval of numbers that round to `b`. -/
def lower (b : Binary) : ℚ := b.lowEnd * 2 ^ (b.exponent - 2)

/-- The number is in the interval of those that round to `b`. -/
structure Rounds (b : Binary) (q : ℚ) : Prop where
  low : b.lower ≤ q
  high : q ≤ b.upper
  odd : b.mantissa % 2 ≠ 0 → b.lower < q ∧ q < b.upper

theorem two_zpow_sub_two (e : Int) : (2 : ℚ) ^ (e - 2) = 2 ^ e / 4 := by
  rw [zpow_sub₀ (by norm_num)]
  norm_num

/-- Below a power of two the interval reaches half as far. -/
theorem lower_of_power {b : Binary} (h : b.mantissa = 2 ^ 52) (he : -1074 < b.exponent) :
    b.lower = (b.mantissa - 1 / 4) * 2 ^ b.exponent := by
  rw [lower, lowEnd, if_pos ⟨h, he⟩, two_zpow_sub_two, h]
  push_cast
  ring

theorem lower_eq {b : Binary} (h0 : b.mantissa ≠ 0)
    (h : ¬(b.mantissa = 2 ^ 52 ∧ -1074 < b.exponent)) :
    b.lower = (b.mantissa - 1 / 2) * 2 ^ b.exponent := by
  rw [lower, lowEnd, if_neg h, two_zpow_sub_two, Nat.cast_sub (by omega)]
  push_cast
  ring

theorem lower_lt_value {b : Binary} (h0 : b.mantissa ≠ 0) : b.lower < b.value := by
  have hpos : (0 : ℚ) < 2 ^ b.exponent := by positivity
  have hlt : b.lowEnd < 4 * b.mantissa := by
    unfold lowEnd
    split <;> omega
  have hlt : (b.lowEnd : ℚ) < 4 * b.mantissa := by exact_mod_cast hlt
  rw [lower, value, two_zpow_sub_two]
  nlinarith

theorem lower_le_value (b : Binary) : b.lower ≤ b.value := by
  by_cases h0 : b.mantissa = 0
  · simp [lower, lowEnd, value, h0]
  · exact (lower_lt_value h0).le

theorem lower_zero {b : Binary} (h : b.mantissa = 0) : b.lower = 0 := by
  simp [lower, lowEnd, h]

/-- The interval reaches at most half of the last place down. -/
theorem le_lower (b : Binary) : (b.mantissa - 1 / 2) * 2 ^ b.exponent ≤ b.lower := by
  have hpos : (0 : ℚ) < 2 ^ b.exponent := by positivity
  by_cases h0 : b.mantissa = 0
  · rw [lower_zero h0, h0, Nat.cast_zero]
    linarith
  by_cases hpower : b.mantissa = 2 ^ 52 ∧ -1074 < b.exponent
  · rw [lower_of_power hpower.1 hpower.2]
    exact mul_le_mul_of_nonneg_right (by linarith) hpos.le
  · rw [lower_eq h0 hpower]

theorem rounds_of_lt {b : Binary} {q : ℚ} (hlow : b.lower < q) (hhigh : q < b.upper) :
    b.Rounds q :=
  ⟨hlow.le, hhigh.le, fun _ => ⟨hlow, hhigh⟩⟩

theorem rounds_value (b : Binary) : b.Rounds b.value :=
  ⟨b.lower_le_value, b.value_lt_upper.le,
    fun hodd => ⟨lower_lt_value (by omega), b.value_lt_upper⟩⟩

theorem Rounds.between {b : Binary} {p q r : ℚ} (hp : b.Rounds p) (hr : b.Rounds r) (hpq : p ≤ q)
    (hqr : q ≤ r) : b.Rounds q :=
  ⟨hp.low.trans hpq, hqr.trans hr.high,
    fun hodd => ⟨(hp.odd hodd).1.trans_le hpq, hqr.trans_lt (hr.odd hodd).2⟩⟩

/-- Powers of two apart, the interval is symmetric. -/
theorem Rounds.reflect {b : Binary} {q : ℚ} (h : b.Rounds q) (h0 : b.mantissa ≠ 0)
    (hpower : b.mantissa ≠ 2 ^ 52) : b.Rounds (2 * b.value - q) := by
  have hsum : b.lower + b.upper = 2 * b.value := by
    rw [lower_eq h0 (fun h => hpower h.1), upper, value]
    ring
  refine ⟨by linarith [h.high], by linarith [h.low], fun hodd => ?_⟩
  obtain ⟨hlow, hhigh⟩ := h.odd hodd
  exact ⟨by linarith, by linarith⟩

/-! ## Rounding -/

/-- A number is in the interval of the binary number that it is rounded to. -/
theorem rounds_nearest (num : Nat) {den : Nat} (hden : 0 < den) :
    (nearest num den).Rounds (num / den) := by
  by_cases hnum : num = 0
  · have hzero := rounds_value zero
    rw [value, zero, Nat.cast_zero, zero_mul] at hzero
    rwa [hnum, nearest, if_pos rfl, Nat.cast_zero, zero_div]
  have hround := isNearest_roundHalfEven (num * 2 ^ (-roundingExponent num den).toNat)
    (Nat.mul_pos hden (Nat.two_pow_pos (roundingExponent num den).toNat))
  rw [scaled_eq_div hden] at hround
  have hlow := le_div_of_roundingExponent hnum hden
  have hhigh := div_lt_of_roundingExponent hnum hden
  have hexponent : -1074 ≤ roundingExponent num den := Int.le_max_right _ _
  rw [nearest_eq hnum]
  rw [← roundedMantissa] at hround
  generalize roundedMantissa num den = m at *
  generalize roundingExponent num den = e at *
  have hnonneg : (0 : ℚ) ≤ num / den := by positivity
  generalize (num : ℚ) / den = q at *
  have hpos : (0 : ℚ) < 2 ^ e := by positivity
  obtain ⟨hbelow, habove, hodd⟩ := hround
  rw [le_div_iff₀ hpos] at hbelow
  rw [div_le_iff₀ hpos] at habove
  rw [lt_div_iff₀ hpos, div_lt_iff₀ hpos] at hodd
  split
  case isTrue hfull =>
    have hsucc : (2 : ℚ) ^ (e + 1) = 2 * 2 ^ e := by
      rw [zpow_add₀ (by norm_num), zpow_one, mul_comm]
    rw [zpow_add₀ (by norm_num)] at hhigh
    rw [hfull] at hbelow
    refine ⟨?_, ?_, fun h => absurd (by norm_num) h⟩
    · rw [lower_of_power rfl (by dsimp only; omega)]
      dsimp only
      rw [hsucc]
      norm_num at hbelow ⊢
      linarith
    · rw [upper]
      dsimp only
      rw [hsucc]
      norm_num at hhigh ⊢
      linarith
  case isFalse =>
    by_cases h0 : m = 0
    · refine ⟨?_, habove, fun h => absurd (congrArg (· % 2) h0) h⟩
      rw [lower_zero h0]
      exact hnonneg
    by_cases hpower : m = 2 ^ 52 ∧ -1074 < e
    · refine ⟨?_, habove, fun h => absurd (congrArg (· % 2) hpower.1) h⟩
      have hlow := hlow (by omega)
      rw [lower_of_power hpower.1 hpower.2]
      rw [zpow_add₀ (by norm_num)] at hlow
      dsimp only
      rw [hpower.1]
      norm_num at hlow ⊢
      linarith
    · refine ⟨?_, habove, fun h => ?_⟩
      · rw [lower_eq h0 hpower]
        exact hbelow
      · rw [lower_eq h0 hpower]
        exact hodd h

/-! ## One number for each interval -/

section
variable {b b' : Binary} {q : ℚ}

/-- The interval of a number ends where that of a later one begins, or before; where they touch, one
of the two numbers is odd. -/
theorem upper_le_lower (hb : b.Normal) (hb' : b'.Normal)
    (h : b.exponent < b'.exponent ∨ b.exponent = b'.exponent ∧ b.mantissa < b'.mantissa) :
    b.upper ≤ b'.lower ∧
      (b.upper = b'.lower → b.mantissa % 2 ≠ 0 ∨ b'.mantissa % 2 ≠ 0) := by
  have hpos : (0 : ℚ) < 2 ^ b.exponent := by positivity
  have hlower := b'.le_lower
  rcases h with hlt | ⟨heq, hlt⟩
  · have hexponent := hb.exponent_ge
    have hstep : (2 : ℚ) * 2 ^ b.exponent ≤ 2 ^ b'.exponent := by
      rw [← zpow_one_add₀ (by norm_num)]
      exact zpow_le_zpow_right₀ (by norm_num) (by omega)
    have hmantissa : (b.mantissa : ℚ) + 1 ≤ 2 ^ 53 := by exact_mod_cast hb.mantissa_lt
    rcases (hb'.mantissa_ge (by omega)).eq_or_lt with hpower | hgt
    · have hend : (2 ^ 53 - 1 / 2) * (2 : ℚ) ^ b.exponent ≤ b'.lower := by
        rw [lower_of_power hpower.symm (by omega), ← hpower]
        norm_num at hstep ⊢
        linarith
      have hle : b.upper ≤ (2 ^ 53 - 1 / 2) * 2 ^ b.exponent :=
        mul_le_mul_of_nonneg_right (by linarith) hpos.le
      refine ⟨hle.trans hend, fun heq => .inl ?_⟩
      have hfull : (b.mantissa : ℚ) + 1 / 2 = 2 ^ 53 - 1 / 2 :=
        mul_right_cancel₀ hpos.ne' (le_antisymm hle (hend.trans_eq heq.symm))
      have hfull : (b.mantissa : ℚ) + 1 = 2 ^ 53 := by linarith
      have hfull : b.mantissa + 1 = 2 ^ 53 := by exact_mod_cast hfull
      omega
    · have hgt : (2 : ℚ) ^ 52 + 1 ≤ b'.mantissa := by exact_mod_cast hgt
      have hlt : b.upper < b'.lower := by
        refine lt_of_lt_of_le ?_ hlower
        calc b.upper ≤ (2 ^ 53 - 1 / 2) * 2 ^ b.exponent :=
              mul_le_mul_of_nonneg_right (by linarith) hpos.le
          _ < (2 ^ 52 + 1 / 2) * (2 * 2 ^ b.exponent) := by linarith
          _ ≤ (b'.mantissa - 1 / 2) * 2 ^ b'.exponent :=
              mul_le_mul (by linarith) hstep (by positivity) (by linarith)
      exact ⟨hlt.le, fun heq => absurd heq hlt.ne⟩
  · rw [← heq] at hlower
    have hnext : (b.mantissa : ℚ) + 1 ≤ b'.mantissa := by exact_mod_cast hlt
    have hle : b.upper ≤ (b'.mantissa - 1 / 2) * 2 ^ b.exponent :=
      mul_le_mul_of_nonneg_right (by linarith) hpos.le
    refine ⟨hle.trans hlower, fun h => ?_⟩
    have hmantissa : (b'.mantissa : ℚ) - 1 / 2 ≤ b.mantissa + 1 / 2 :=
      le_of_mul_le_mul_right (hlower.trans_eq h.symm) hpos
    have hmantissa : (b'.mantissa : ℚ) ≤ b.mantissa + 1 := by linarith
    have hmantissa : b'.mantissa ≤ b.mantissa + 1 := by exact_mod_cast hmantissa
    omega

/-- **A number is in the interval of one binary number only.** -/
theorem Rounds.unique (hb : b.Normal) (hb' : b'.Normal) (h : b.Rounds q) (h' : b'.Rounds q) :
    b = b' := by
  have apart {x y : Binary} (hx : x.Normal) (hy : y.Normal) (hq : x.Rounds q) (hq' : y.Rounds q) :
      ¬(x.exponent < y.exponent ∨ x.exponent = y.exponent ∧ x.mantissa < y.mantissa) := by
    intro hlt
    obtain ⟨hle, htouch⟩ := upper_le_lower hx hy hlt
    rcases htouch (le_antisymm hle (hq'.low.trans hq.high)) with hodd | hodd
    · linarith [(hq.odd hodd).2, hq'.low]
    · linarith [(hq'.odd hodd).1, hq.high]
  have hlt := apart hb hb' h h'
  have hgt := apart hb' hb h' h
  obtain ⟨m, e⟩ := b
  obtain ⟨m', e'⟩ := b'
  dsimp only at hlt hgt
  congr 1 <;> omega

/-- **Rounding gives `b` exactly for the numbers of its interval.** -/
theorem nearest_eq_iff (hb : b.Normal) {num den : Nat} (hden : 0 < den) :
    nearest num den = b ↔ b.Rounds (num / den) := by
  constructor
  · rintro rfl
    exact rounds_nearest num hden
  · exact Rounds.unique (normal_nearest hden) hb (rounds_nearest num hden)

end

theorem rounds_nearest_whole (s : Nat) : (nearest s 1).Rounds s := by
  have hrounds := rounds_nearest s Nat.one_pos
  rwa [Nat.cast_one, div_one] at hrounds

/-! ## The exponent -/

section
variable {b : Binary} {q : ℚ} {e : Int} (hb : b.Normal) (h : b.Rounds q)
include hb h

theorem exponent_lt (he : -1074 < e) (hq : q < (2 ^ 52 - 1 / 2) * 2 ^ e) : b.exponent < e := by
  by_contra hge
  have hmantissa : (2 : ℚ) ^ 52 ≤ b.mantissa := by exact_mod_cast hb.mantissa_ge (by omega)
  have hpow : (2 : ℚ) ^ e ≤ 2 ^ b.exponent := zpow_le_zpow_right₀ (by norm_num) (by omega)
  have hlow := b.le_lower.trans h.low
  have hprod : (2 ^ 52 - 1 / 2 : ℚ) * 2 ^ e ≤ (b.mantissa - 1 / 2) * 2 ^ b.exponent :=
    mul_le_mul (by linarith) hpow (by positivity) (by linarith)
  linarith

theorem le_exponent (hq : (2 ^ 53 - 1 / 2) * 2 ^ e < 2 * q) : e ≤ b.exponent := by
  by_contra hlt
  have hmantissa : (b.mantissa : ℚ) + 1 ≤ 2 ^ 53 := by exact_mod_cast hb.mantissa_lt
  have hpow : (2 : ℚ) * 2 ^ b.exponent ≤ 2 ^ e := by
    rw [← zpow_one_add₀ (by norm_num)]
    exact zpow_le_zpow_right₀ (by norm_num) (by omega)
  have hhigh := h.high
  have hprod : (b.mantissa + 1 / 2 : ℚ) * (2 * 2 ^ b.exponent) ≤ (2 ^ 53 - 1 / 2) * 2 ^ e :=
    mul_le_mul (by linarith) hpow (by positivity) (by norm_num)
  rw [upper] at hhigh
  linarith

/-- What is rounded from between two powers of two has the exponent there, or is the upper one. -/
theorem exponent_of_bounds (he : -1074 ≤ e)
    (hlow : 2 ^ 52 * 2 ^ e ≤ q) (hhigh : q < (2 ^ 53 + 1) * 2 ^ e) :
    b.exponent = e ∨ b.exponent = e + 1 ∧ b.mantissa = 2 ^ 52 := by
  have hpos : (0 : ℚ) < 2 ^ e := by positivity
  have hge : e ≤ b.exponent := le_exponent hb h (by linarith)
  have hlt : b.exponent < e + 2 := by
    refine exponent_lt hb h (by omega) ?_
    rw [zpow_add₀ (by norm_num)]
    norm_num
    linarith
  rcases hge.eq_or_lt with heq | hgt
  · exact .inl heq.symm
  have hsucc : b.exponent = e + 1 := by omega
  refine .inr ⟨hsucc, ?_⟩
  by_contra hpower
  have hfull : 2 ^ 52 + 1 ≤ b.mantissa := by
    have := hb.mantissa_ge (by omega)
    omega
  have hfull : (2 : ℚ) ^ 52 + 1 ≤ b.mantissa := by exact_mod_cast hfull
  have hlower := b.le_lower.trans h.low
  rw [hsucc, zpow_add₀ (by norm_num), zpow_one] at hlower
  have hprod : (2 ^ 52 + 1 - 1 / 2) * (2 ^ e * 2) ≤ ((b.mantissa : ℚ) - 1 / 2) * (2 ^ e * 2) :=
    mul_le_mul_of_nonneg_right (by linarith) (by positivity)
  linarith

end

/-! ## Products and quotients -/

theorem rounds_mul (a b : Binary) : (a.mul b).Rounds (a.value * b.value) := by
  have h := rounds_nearest (a.fraction.1 * b.fraction.1)
    (Nat.mul_pos a.fraction_snd_pos b.fraction_snd_pos)
  rw [value_eq_fraction, value_eq_fraction, div_mul_div_comm]
  exact_mod_cast h

theorem rounds_div (a : Binary) {b : Binary} (hb : 0 < b.value) :
    (a.div b).Rounds (a.value / b.value) := by
  have hb1 : 0 < b.fraction.1 := by
    by_contra hzero
    rw [value_eq_fraction, Nat.eq_zero_of_not_pos hzero, Nat.cast_zero, zero_div] at hb
    exact lt_irrefl _ hb
  have h := rounds_nearest (a.fraction.1 * b.fraction.2) (Nat.mul_pos a.fraction_snd_pos hb1)
  rw [value_eq_fraction, value_eq_fraction, div_div_div_eq]
  exact_mod_cast h

end Binary
end CustomsClaims
