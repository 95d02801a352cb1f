import CustomsClaims.Number.Binary
import Mathlib.Algebra.Order.Field.Power
import Mathlib.Algebra.Order.Ring.Rat
import Mathlib.Tactic.FieldSimp
import Mathlib.Tactic.Linarith
import Mathlib.Tactic.NormNum
import Mathlib.Tactic.Positivity
import Mathlib.Tactic.Ring

/-!
# Rounding to binary numbers

`IsNearest` says which whole number a rational number is rounded to (`isNearest_roundHalfEven`).
`Binary.value` is the rational number that a binary number stands for, and `Binary.Normal` the form in
which the format holds it. `Binary.nearest` gives numbers in this form, and does not round across
another one: what is below the upper end of the interval of `b` (`Binary.upper`) is rounded to at
most `b` (`Binary.nearest_le`), and what is at least `b` to at least `b` (`Binary.le_nearest`).
-/

namespace CustomsClaims

/-! ## Whole numbers -/

/-- The number `n` is nearest to `q`, and even if another one is as near. -/
structure IsNearest (n : Nat) (q : ℚ) : Prop where
  low : n - 1 / 2 ≤ q
  high : q ≤ n + 1 / 2
  odd : n % 2 ≠ 0 → n - 1 / 2 < q ∧ q < n + 1 / 2

theorem isNearest_self (n : Nat) : IsNearest n n :=
  ⟨by linarith, by linarith, fun _ => ⟨by linarith, by linarith⟩⟩

/-- Two numbers with their mean on one side of a whole number are rounded to numbers with their mean
on that side: of two neighbours that are both rounded across it, one is odd. -/
theorem IsNearest.add_le {a c n : Nat} {p q : ℚ} (ha : IsNearest a p) (hc : IsNearest c q)
    (h : p + q ≤ 2 * n) : a + c ≤ 2 * n := by
  have hle : (a : ℚ) + c ≤ 2 * n + 1 := by linarith [ha.low, hc.low]
  have hle : a + c ≤ 2 * n + 1 := by exact_mod_cast hle
  by_contra hlt
  have heq : a + c = 2 * n + 1 := by omega
  have hsum : (a : ℚ) + c = 2 * n + 1 := by exact_mod_cast heq
  rcases (by omega : a % 2 ≠ 0 ∨ c % 2 ≠ 0) with hodd | hodd
  · linarith [(ha.odd hodd).1, hc.low]
  · linarith [(hc.odd hodd).1, ha.low]

theorem IsNearest.le_add {a c n : Nat} {p q : ℚ} (ha : IsNearest a p) (hc : IsNearest c q)
    (h : 2 * n ≤ p + q) : 2 * n ≤ a + c := by
  have hle : 2 * (n : ℚ) ≤ a + c + 1 := by linarith [ha.high, hc.high]
  have hle : 2 * n ≤ a + c + 1 := by exact_mod_cast hle
  by_contra hlt
  have heq : 2 * n = a + c + 1 := by omega
  have hsum : 2 * (n : ℚ) = a + c + 1 := by exact_mod_cast heq
  rcases (by omega : a % 2 ≠ 0 ∨ c % 2 ≠ 0) with hodd | hodd
  · linarith [(ha.odd hodd).2, hc.high]
  · linarith [(hc.odd hodd).2, ha.high]

theorem isNearest_roundHalfEven (num : Nat) {den : Nat} (hden : 0 < den) :
    IsNearest (roundHalfEven num den) (num / den) := by
  have hpos : (0 : ℚ) < den := by exact_mod_cast hden
  have hsplit : (num : ℚ) / den = (num / den : Nat) + (num % den : Nat) / den := by
    rw [div_eq_iff hpos.ne', add_mul, div_mul_cancel₀ _ hpos.ne']
    exact_mod_cast (Nat.div_add_mod' num den).symm
  have hlt : ((num % den : Nat) : ℚ) / den < 1 := by
    rw [div_lt_one hpos]
    exact_mod_cast Nat.mod_lt num hden
  have hnonneg : (0 : ℚ) ≤ (num % den : Nat) / den := by positivity
  rw [hsplit]
  unfold roundHalfEven
  dsimp only
  generalize num / den = q at *
  have hsucc : ((q + 1 : Nat) : ℚ) = q + 1 := Nat.cast_succ q
  have hhalf : ((num % den : Nat) : ℚ) / den < 1 / 2 ↔ 2 * (num % den) < den := by
    rw [div_lt_div_iff₀ hpos (by norm_num)]
    norm_cast
    omega
  have hhalf' : 1 / 2 < ((num % den : Nat) : ℚ) / den ↔ den < 2 * (num % den) := by
    rw [div_lt_div_iff₀ (by norm_num) hpos]
    norm_cast
    omega
  generalize ((num % den : Nat) : ℚ) / den = f at *
  split
  case isTrue h =>
    have hf := hhalf.2 h
    exact ⟨by linarith, by linarith, fun _ => ⟨by linarith, by linarith⟩⟩
  case isFalse h =>
    rw [← hhalf, not_lt] at h
    split
    case isTrue h' =>
      have hf := hhalf'.2 h'
      exact ⟨by linarith, by linarith, fun _ => ⟨by linarith, by linarith⟩⟩
    case isFalse h' =>
      rw [← hhalf', not_lt] at h'
      split
      case isTrue heven => exact ⟨by linarith, by linarith, fun hodd => absurd heven hodd⟩
      case isFalse hodd =>
        exact ⟨by linarith, by linarith, fun h => absurd (by omega) h⟩

section
variable {num den m : Nat} (hden : 0 < den)
include hden

theorem roundHalfEven_le_add_half : (roundHalfEven num den : ℚ) ≤ num / den + 1 / 2 := by
  linarith [(isNearest_roundHalfEven num hden).low]

theorem roundHalfEven_le (h : (num : ℚ) / den < m + 1 / 2) : roundHalfEven num den ≤ m := by
  have hlt : (roundHalfEven num den : ℚ) < m + 1 := by
    linarith [@roundHalfEven_le_add_half num den hden]
  have hlt : roundHalfEven num den < m + 1 := by exact_mod_cast hlt
  omega

theorem le_roundHalfEven (h : (m : ℚ) ≤ num / den) : m ≤ roundHalfEven num den := by
  have hlt : (m : ℚ) < roundHalfEven num den + 1 := by
    linarith [(isNearest_roundHalfEven num hden).high]
  have hlt : m < roundHalfEven num den + 1 := by exact_mod_cast hlt
  omega

end

/-! ## Powers of two -/

theorem zpow_eq_div (a : ℚ) (e : Int) : a ^ e = a ^ e.toNat / a ^ (-e).toNat := by
  rcases Int.le_total 0 e with h | h
  · obtain ⟨n, rfl⟩ := Int.eq_ofNat_of_zero_le h
    simp
  · obtain ⟨n, hn⟩ := Int.eq_ofNat_of_zero_le (Int.neg_nonneg_of_nonpos h)
    obtain rfl : e = -(n : Int) := by omega
    simp

theorem two_zpow_le_div_iff {num den : Nat} (hden : 0 < den) (e : Int) :
    (2 : ℚ) ^ e ≤ num / den ↔ den * 2 ^ e.toNat ≤ num * 2 ^ (-e).toNat := by
  have hden : (0 : ℚ) < den := by exact_mod_cast hden
  rw [zpow_eq_div, div_le_div_iff₀ (by positivity) hden, mul_comm]
  norm_cast

theorem floorLog2_spec {num den : Nat} (hnum : num ≠ 0) (hden : 0 < den) :
    (2 : ℚ) ^ floorLog2 num den ≤ num / den ∧
      (num : ℚ) / den < 2 ^ (floorLog2 num den + 1) := by
  have hden0 : (0 : ℚ) < den := by exact_mod_cast hden
  have hnumlow : (2 : ℚ) ^ (num.log2 : Int) ≤ num := by
    exact_mod_cast Nat.log2_self_le hnum
  have hnumhigh : (num : ℚ) < 2 ^ (num.log2 + 1 : Int) := by
    exact_mod_cast Nat.lt_log2_self (n := num)
  have hdenlow : (2 : ℚ) ^ (den.log2 : Int) ≤ den := by
    exact_mod_cast Nat.log2_self_le (by omega : den ≠ 0)
  have hdenhigh : (den : ℚ) < 2 ^ (den.log2 + 1 : Int) := by
    exact_mod_cast Nat.lt_log2_self (n := den)
  unfold floorLog2
  dsimp only
  split
  case isTrue h =>
    refine ⟨(two_zpow_le_div_iff hden _).2 h, ?_⟩
    rw [div_lt_iff₀ hden0]
    calc (num : ℚ) < 2 ^ (num.log2 + 1 : Int) := hnumhigh
      _ = 2 ^ ((num.log2 : Int) - den.log2 + 1) * 2 ^ (den.log2 : Int) := by
        rw [← zpow_add₀ (by norm_num)]
        congr 1
        ring
      _ ≤ 2 ^ ((num.log2 : Int) - den.log2 + 1) * den :=
        mul_le_mul_of_nonneg_left hdenlow (by positivity)
  case isFalse h =>
    rw [← two_zpow_le_div_iff hden] at h
    refine ⟨?_, by rw [Int.sub_add_cancel]; exact not_le.1 h⟩
    rw [le_div_iff₀ hden0]
    calc (2 : ℚ) ^ ((num.log2 : Int) - den.log2 - 1) * den
        ≤ 2 ^ ((num.log2 : Int) - den.log2 - 1) * 2 ^ (den.log2 + 1 : Int) :=
        mul_le_mul_of_nonneg_left hdenhigh.le (by positivity)
      _ = 2 ^ (num.log2 : Int) := by
        rw [← zpow_add₀ (by norm_num)]
        congr 1
        ring
      _ ≤ num := hnumlow

namespace Binary

/-! ## Binary numbers as rational numbers -/

/-- The number that a binary number stands for. -/
def value (b : Binary) : ℚ := b.mantissa * 2 ^ b.exponent

/-- The upper end of the interval of numbers that round to `b`. -/
def upper (b : Binary) : ℚ := (b.mantissa + 1 / 2) * 2 ^ b.exponent

/-- The form in which the format holds a number: the mantissa fills its place, except at the
smallest exponent. -/
structure Normal (b : Binary) : Prop where
  mantissa_lt : b.mantissa < 2 ^ 53
  exponent_ge : -1074 ≤ b.exponent
  mantissa_ge : b.exponent ≠ -1074 → 2 ^ 52 ≤ b.mantissa

theorem value_nonneg (b : Binary) : 0 ≤ b.value := by
  unfold value
  positivity

theorem value_lt_upper (b : Binary) : b.value < b.upper := by
  unfold value upper
  have hpos : (0 : ℚ) < 2 ^ b.exponent := by positivity
  nlinarith

theorem fraction_snd_pos (b : Binary) : 0 < b.fraction.2 := Nat.two_pow_pos _

theorem value_eq_fraction (b : Binary) : b.value = b.fraction.1 / b.fraction.2 := by
  unfold value fraction
  rw [zpow_eq_div]
  push_cast
  ring

/-! ## Where a number is rounded -/

/-- The exponent at which `num / den` is rounded. -/
def roundingExponent (num den : Nat) : Int := max (floorLog2 num den - 52) (-1074)

/-- The rounded mantissa of `num / den`. It is `2 ^ 53` if that exponent turns out too small. -/
def roundedMantissa (num den : Nat) : Nat :=
  roundHalfEven (num * 2 ^ (-roundingExponent num den).toNat)
    (den * 2 ^ (roundingExponent num den).toNat)

section
variable {num den : Nat} (hnum : num ≠ 0) (hden : 0 < den)
include hnum

theorem nearest_eq : nearest num den =
    if roundedMantissa num den = 2 ^ 53 then ⟨2 ^ 52, roundingExponent num den + 1⟩
    else ⟨roundedMantissa num den, roundingExponent num den⟩ :=
  if_neg hnum

theorem value_nearest :
    (nearest num den).value = roundedMantissa num den * 2 ^ roundingExponent num den := by
  rw [nearest_eq hnum]
  split
  case isTrue h =>
    rw [h, value, zpow_add₀ (by norm_num)]
    push_cast
    ring
  case isFalse => rfl

include hden

theorem le_div_of_roundingExponent (h : roundingExponent num den ≠ -1074) :
    (2 : ℚ) ^ (roundingExponent num den + 52) ≤ num / den := by
  have hexponent : roundingExponent num den + 52 = floorLog2 num den := by
    unfold roundingExponent at h ⊢
    omega
  rw [hexponent]
  exact (floorLog2_spec hnum hden).1

theorem div_lt_of_roundingExponent :
    (num : ℚ) / den < 2 ^ (roundingExponent num den + 53) := by
  refine (floorLog2_spec hnum hden).2.trans_le (zpow_le_zpow_right₀ (by norm_num) ?_)
  unfold roundingExponent
  omega

omit hnum in
theorem scaled_eq_div : ((num * 2 ^ (-roundingExponent num den).toNat : Nat) : ℚ) /
    (den * 2 ^ (roundingExponent num den).toNat : Nat) =
      num / den / 2 ^ roundingExponent num den := by
  have hden : (den : ℚ) ≠ 0 := by
    have : den ≠ 0 := by omega
    exact_mod_cast this
  rw [zpow_eq_div]
  push_cast
  field_simp

omit hnum in
theorem roundedMantissa_le {m : Nat}
    (h : (num : ℚ) / den < (m + 1 / 2) * 2 ^ roundingExponent num den) :
    roundedMantissa num den ≤ m := by
  refine roundHalfEven_le (Nat.mul_pos hden (Nat.two_pow_pos _)) ?_
  rwa [scaled_eq_div hden, div_lt_iff₀ (by positivity)]

omit hnum in
theorem le_roundedMantissa {m : Nat} (h : m * 2 ^ roundingExponent num den ≤ (num : ℚ) / den) :
    m ≤ roundedMantissa num den := by
  refine le_roundHalfEven (Nat.mul_pos hden (Nat.two_pow_pos _)) ?_
  rwa [scaled_eq_div hden, le_div_iff₀ (by positivity)]

theorem roundedMantissa_le_full : roundedMantissa num den ≤ 2 ^ 53 := by
  refine roundedMantissa_le hden ?_
  refine (div_lt_of_roundingExponent hnum hden).trans ?_
  rw [zpow_add₀ (by norm_num)]
  have hpos : (0 : ℚ) < 2 ^ roundingExponent num den := by positivity
  push_cast
  norm_num
  linarith

theorem le_roundedMantissa_full (h : roundingExponent num den ≠ -1074) :
    2 ^ 52 ≤ roundedMantissa num den := by
  refine le_roundedMantissa hden ?_
  have hle := le_div_of_roundingExponent hnum hden h
  rw [zpow_add₀ (by norm_num), mul_comm] at hle
  exact_mod_cast hle

end

/-! ## Rounding and other binary numbers -/

theorem normal_zero : zero.Normal := ⟨by decide, by decide, by decide⟩

theorem normal_nearest {num den : Nat} (hden : 0 < den) : (nearest num den).Normal := by
  by_cases hnum : num = 0
  · rw [nearest, if_pos hnum]
    exact normal_zero
  rw [nearest_eq hnum]
  have hexponent : -1074 ≤ roundingExponent num den := Int.le_max_right _ _
  split
  case isTrue => exact ⟨by norm_num, by dsimp only; omega, fun _ => Nat.le_refl _⟩
  case isFalse h =>
    have hle := roundedMantissa_le_full hnum hden
    exact ⟨by dsimp only; omega, hexponent, le_roundedMantissa_full hnum hden⟩

section
variable {num den : Nat} {b : Binary} (hb : b.Normal)
include hb

theorem upper_lt : b.upper < 2 ^ (b.exponent + 53) := by
  have hmantissa : (b.mantissa : ℚ) + 1 ≤ 2 ^ 53 := by exact_mod_cast hb.mantissa_lt
  rw [zpow_add₀ (by norm_num), upper, mul_comm]
  refine mul_lt_mul_of_pos_left ?_ (by positivity)
  norm_num at hmantissa ⊢
  linarith

/-- A number that is not at the smallest exponent fills its mantissa. -/
theorem le_value (h : b.exponent ≠ -1074) : 2 ^ (b.exponent + 52) ≤ b.value := by
  have hmantissa : (2 ^ 52 : ℚ) ≤ b.mantissa := by exact_mod_cast hb.mantissa_ge h
  rw [zpow_add₀ (by norm_num), value, mul_comm]
  exact mul_le_mul_of_nonneg_right (by exact_mod_cast hmantissa) (by positivity)

/-- **Nothing below the upper end of the interval of `b` is rounded to more than `b`.** -/
theorem nearest_le (hden : 0 < den) (h : (num : ℚ) / den < b.upper) :
    (nearest num den).value ≤ b.value := by
  by_cases hnum : num = 0
  · rw [nearest, if_pos hnum]
    exact le_trans (by simp [value, zero]) b.value_nonneg
  rw [value_nearest hnum]
  have hge : -1074 ≤ roundingExponent num den := Int.le_max_right _ _
  rcases lt_trichotomy (roundingExponent num den) b.exponent with hlt | heq | hgt
  · have hmantissa : (roundedMantissa num den : ℚ) ≤ 2 ^ (53 : Int) := by
      exact_mod_cast roundedMantissa_le_full hnum hden
    calc (roundedMantissa num den : ℚ) * 2 ^ roundingExponent num den
        ≤ 2 ^ (53 : Int) * 2 ^ roundingExponent num den :=
          mul_le_mul_of_nonneg_right hmantissa (by positivity)
      _ = 2 ^ (53 + roundingExponent num den) := by rw [zpow_add₀ (by norm_num)]
      _ ≤ 2 ^ (b.exponent + 52) := zpow_le_zpow_right₀ (by norm_num) (by omega)
      _ ≤ b.value := le_value hb (by omega)
  · rw [heq]
    refine mul_le_mul_of_nonneg_right ?_ (by positivity)
    exact_mod_cast roundedMantissa_le hden (by rw [heq]; exact h)
  · have hge' := hb.exponent_ge
    have hlow := le_div_of_roundingExponent hnum hden (by omega)
    have hhigh : (2 : ℚ) ^ (b.exponent + 53) ≤ 2 ^ (roundingExponent num den + 52) :=
      zpow_le_zpow_right₀ (by norm_num) (by omega)
    have hupper := upper_lt hb
    linarith

/-- **Nothing from `b` on is rounded to less than `b`.** -/
theorem le_nearest (hden : 0 < den) (h : b.value ≤ num / den) :
    b.value ≤ (nearest num den).value := by
  by_cases hnum : num = 0
  · rw [hnum, Nat.cast_zero, zero_div] at h
    exact h.trans (value_nonneg _)
  rw [value_nearest hnum]
  rcases lt_trichotomy b.exponent (roundingExponent num den) with hlt | heq | hgt
  · have hge := hb.exponent_ge
    have hmantissa : (2 : ℚ) ^ (52 : Int) ≤ roundedMantissa num den := by
      exact_mod_cast le_roundedMantissa_full hnum hden (by omega)
    calc b.value ≤ 2 ^ (b.exponent + 53) := (b.value_lt_upper.trans (upper_lt hb)).le
      _ ≤ 2 ^ (52 + roundingExponent num den) := zpow_le_zpow_right₀ (by norm_num) (by omega)
      _ = 2 ^ (52 : Int) * 2 ^ roundingExponent num den := by rw [zpow_add₀ (by norm_num)]
      _ ≤ roundedMantissa num den * 2 ^ roundingExponent num den :=
          mul_le_mul_of_nonneg_right hmantissa (by positivity)
  · rw [← heq]
    refine mul_le_mul_of_nonneg_right ?_ (by positivity)
    exact_mod_cast le_roundedMantissa hden (by rw [← heq]; exact h)
  · have hge : -1074 ≤ roundingExponent num den := Int.le_max_right _ _
    have hlow := le_value hb (by omega)
    have hhigh := div_lt_of_roundingExponent hnum hden
    have hle : (2 : ℚ) ^ (roundingExponent num den + 53) ≤ 2 ^ (b.exponent + 52) :=
      zpow_le_zpow_right₀ (by norm_num) (by omega)
    linarith

end

/-- Rounding adds at most half of the last place of the mantissa. -/
theorem value_nearest_le {num den : Nat} (hden : 0 < den) (h : 1 ≤ (num : ℚ) / den) :
    (nearest num den).value ≤ num / den * (1 + 1 / 2 ^ 53) := by
  have hnum : num ≠ 0 := by
    rintro rfl
    rw [Nat.cast_zero, zero_div] at h
    linarith
  have hexponent : roundingExponent num den ≠ -1074 := by
    intro hlow
    have hlt := div_lt_of_roundingExponent hnum hden
    have hone : (2 : ℚ) ^ (roundingExponent num den + 53) ≤ 1 :=
      zpow_le_one_of_nonpos₀ (by norm_num) (by omega)
    linarith
  have hlow := le_div_of_roundingExponent hnum hden hexponent
  have hround : (roundedMantissa num den : ℚ) ≤
      num / den / 2 ^ roundingExponent num den + 1 / 2 := by
    rw [← scaled_eq_div hden]
    exact roundHalfEven_le_add_half (Nat.mul_pos hden (Nat.two_pow_pos _))
  have hpos : (0 : ℚ) < 2 ^ roundingExponent num den := by positivity
  rw [value_nearest hnum]
  rw [zpow_add₀ (by norm_num)] at hlow
  calc (roundedMantissa num den : ℚ) * 2 ^ roundingExponent num den
      ≤ (num / den / 2 ^ roundingExponent num den + 1 / 2) * 2 ^ roundingExponent num den :=
        mul_le_mul_of_nonneg_right hround hpos.le
    _ = num / den + 2 ^ roundingExponent num den / 2 := by field_simp
    _ ≤ num / den * (1 + 1 / 2 ^ 53) := by
      norm_num at hlow ⊢
      linarith

theorem value_nearest_whole_le {n : Nat} (hn : 1 ≤ n) :
    (nearest n 1).value ≤ n * (1 + 1 / 2 ^ 53) := by
  have hone : 1 ≤ (n : ℚ) / (1 : Nat) := by
    rw [Nat.cast_one, div_one]
    exact_mod_cast hn
  have hle := value_nearest_le Nat.one_pos hone
  rwa [Nat.cast_one, div_one] at hle

/-- A whole number that the mantissa has room for is not rounded. -/
theorem value_nearest_whole {n : Nat} (h : n < 2 ^ 53) : (nearest n 1).value = n := by
  by_cases hn : n = 0
  · rw [hn, nearest, if_pos rfl]
    simp [value, zero]
  have hexponent : roundingExponent n 1 ≤ 0 := by
    by_contra hpos
    have hlow := le_div_of_roundingExponent hn Nat.one_pos (by omega)
    have hfull : (2 : ℚ) ^ (53 : Int) ≤ 2 ^ (roundingExponent n 1 + 52) :=
      zpow_le_zpow_right₀ (by norm_num) (by omega)
    have hlt : (n : ℚ) < 2 ^ (53 : Int) := by exact_mod_cast h
    rw [Nat.cast_one, div_one] at hlow
    linarith
  have hmantissa : roundedMantissa n 1 = n * 2 ^ (-roundingExponent n 1).toNat := by
    have hzero : (roundingExponent n 1).toNat = 0 := by omega
    rw [roundedMantissa, hzero]
    simp [roundHalfEven, Nat.mod_one]
  rw [value_nearest hn, hmantissa, zpow_eq_div]
  have hzero : (roundingExponent n 1).toNat = 0 := by omega
  rw [hzero]
  push_cast
  field_simp

/-! ## Products and quotients -/

theorem normal_mul (a b : Binary) : (a.mul b).Normal :=
  normal_nearest (Nat.mul_pos a.fraction_snd_pos b.fraction_snd_pos)

theorem mul_le {a b c : Binary} (hc : c.Normal) (h : a.value * b.value < c.upper) :
    (a.mul b).value ≤ c.value := by
  refine nearest_le hc (Nat.mul_pos a.fraction_snd_pos b.fraction_snd_pos) ?_
  rw [value_eq_fraction, value_eq_fraction, div_mul_div_comm] at h
  exact_mod_cast h

theorem div_le {a b : Binary} (ha : a.Normal) (hb : 1 ≤ b.value) :
    (a.div b).Normal ∧ (a.div b).value ≤ a.value := by
  have hb1 : 0 < b.fraction.1 := by
    by_contra hzero
    rw [value_eq_fraction, Nat.eq_zero_of_not_pos hzero, Nat.cast_zero, zero_div] at hb
    linarith
  have hden := Nat.mul_pos a.fraction_snd_pos hb1
  refine ⟨normal_nearest hden, nearest_le ha hden ?_⟩
  have hquotient : ((a.fraction.1 * b.fraction.2 : Nat) : ℚ) / (a.fraction.2 * b.fraction.1 : Nat) =
      a.value / b.value := by
    rw [value_eq_fraction, value_eq_fraction, div_div_div_eq]
    push_cast
    rfl
  exact hquotient.trans_lt ((div_le_self a.value_nonneg hb).trans_lt a.value_lt_upper)

theorem one_le_tenPower (n : Nat) : 1 ≤ (tenPower n).value := by
  have hone : (⟨2 ^ 52, -52⟩ : Binary).Normal := ⟨by decide, by decide, fun _ => Nat.le_refl _⟩
  have hvalue : (⟨2 ^ 52, -52⟩ : Binary).value = 1 := by norm_num [value]
  rw [← hvalue]
  refine le_nearest hone Nat.one_pos ?_
  rw [hvalue, Nat.cast_one, div_one]
  exact_mod_cast Nat.one_le_pow _ _ (by decide)

theorem divTenPower_le {b : Binary} (hb : b.Normal) (n rounds : Nat) :
    (b.divTenPower n rounds).Normal ∧ (b.divTenPower n rounds).value ≤ b.value := by
  induction rounds generalizing b with
  | zero => exact div_le hb (one_le_tenPower n)
  | succ rounds ih =>
    unfold divTenPower
    split
    · exact ⟨hb, le_rfl⟩
    · obtain ⟨hdiv, hle⟩ := div_le hb (one_le_tenPower maxTenPower)
      obtain ⟨hrest, hle'⟩ := ih hdiv
      exact ⟨hrest, hle'.trans hle⟩

end Binary
end CustomsClaims
