import CustomsClaims.Proofs.Amount.Storable
import CustomsClaims.Proofs.Number.Grid

/-!
# What written numbers are read as

A number is read as its rounded significand, times or divided by a power of ten, and rounded again
(`Binary.Medium.reread?_eq_some`). From about `10 ^ -6` to about `10 ^ 22` that power is a binary number
itself. Then a number is read as it was, or its significand has no room in a mantissa and is the number
rounded to a multiple of a power of ten (`Binary.Medium.reread?_or_fine`). Powers of two, whose interval
is lopsided, are few enough to try them all (`Binary.fixed_power`).
-/

namespace CustomsClaims

/-- The significand and the exponent that a number is read with make its value. -/
theorem Digits.scientific_value (d : Digits) :
    (d.scientific.1 : ℚ) * 10 ^ d.scientific.2 = d.value := by
  unfold scientific value
  split
  case isTrue h0 => simp [h0]
  case isFalse =>
    split
    case isTrue hwhole =>
      obtain ⟨n, hn⟩ := Int.eq_ofNat_of_zero_le hwhole.2
      rw [hn, Int.toNat_natCast, zpow_natCast]
      push_cast
      rw [pow_succ]
      norm_num
      ring
    case isFalse => rfl

/-- A whole number is read with a digit more than it has, the zero of its fraction. -/
theorem Digits.scientific_whole {d : Digits} {n : Nat} (h0 : d.coefficient ≠ 0)
    (hpositional : d.IsPositional) (hn : d.exponent = .ofNat n) :
    d.scientific = (d.coefficient * 10 ^ n * 10, -1) ∧ d.coefficient * 10 ^ n * 10 < 10 ^ 17 := by
  have hlt := coefficient_mul_lt hn (hpositional.resolve_left h0).2
  have hwhole : d.IsPositional ∧ 0 ≤ d.exponent :=
    ⟨hpositional, by rw [hn]; exact Int.natCast_nonneg n⟩
  rw [Nat.mul_assoc, ← Nat.pow_succ]
  refine ⟨?_, hlt⟩
  rw [scientific, if_neg h0, if_pos hwhole, hn]
  rfl

namespace Binary

/-- What the text of the number is read as. -/
def reread? (b : Binary) : Option Binary := (b.shortest .even).numeral.value?

variable {b y : Binary} {s : Nat} {t : Int}

theorem reread?_eq (hb : b.Normal) (he : b.exponent ≤ 44) :
    b.reread? = ofScientific (b.shortest .even).scientific.1 (b.shortest .even).scientific.2 := by
  have hcoefficient := coefficient_shortest_lt .even hb
  have hexponent := exponent_shortest .even hb he
  exact Digits.value?_numeral (by omega) (by omega)

/-- Where powers of ten are binary numbers, reading rounds the significand and its product or quotient
with the power. -/
theorem ofScientific_rounds (hlow : -22 ≤ t) (hhigh : t ≤ 22) (h : ofScientific s t = some y) :
    y.Normal ∧ y.Rounds ((nearest s 1).value * 10 ^ t) := by
  unfold ofScientific at h
  dsimp only at h
  cases t with
  | ofNat n =>
    have hn : (n : Int) ≤ 22 := hhigh
    have hpower := @value_tenPower n (by omega)
    have hrounds := rounds_mul (nearest s 1) (tenPower n)
    have hmax : n ≤ maxTenPower := by
      rw [maxTenPower]
      omega
    dsimp only at h
    rw [if_pos hmax] at h
    split at h
    · cases h
      rw [hpower] at hrounds
      exact ⟨normal_mul _ _, hrounds⟩
    · cases h
  | negSucc n =>
    have hn : n < 22 := by omega
    have hpower := @value_tenPower (n + 1) (by omega)
    have hrounds := @rounds_div (nearest s 1) (tenPower (n + 1)) (by rw [hpower]; positivity)
    cases h
    rw [Nat.mod_eq_of_lt (by rw [maxTenPower]; omega), Nat.div_eq_of_lt (by rw [maxTenPower]; omega),
      divTenPower]
    rw [hpower, div_eq_mul_inv] at hrounds
    refine ⟨(div_le (normal_nearest Nat.one_pos) (one_le_tenPower _)).1, ?_⟩
    rw [zpow_negSucc]
    exact hrounds

/-- **What a number is read as is its rounded significand, scaled and rounded again.** -/
theorem reread?_eq_some (hb : b.Normal) (hle : b.value ≤ top.value)
    (hd : (b.shortest .even).scientific = (s, t)) (hlow : -22 ≤ t) (hhigh : t ≤ 22) :
    ∃ y, b.reread? = some y ∧ y.Normal ∧ y.Rounds ((nearest s 1).value * 10 ^ t) := by
  have hexponent := exponent_le_top hb hle
  obtain ⟨y, hy, -, -⟩ := value?_shortest hb hle
  have hread := reread?_eq hb (by omega)
  rw [hd] at hread
  obtain ⟨hnormal, hrounds⟩ := ofScientific_rounds hlow hhigh (hread.symm.trans hy)
  exact ⟨y, hy, hnormal, hrounds⟩

/-! ## Numbers of a medium size -/

/-- A number from about `10 ^ -6` to about `10 ^ 22`. -/
structure Medium (b : Binary) : Prop where
  normal : b.Normal
  exponent_ge : -72 ≤ b.exponent
  exponent_le : b.exponent ≤ 22

/-- The number is read as itself. -/
def Fixed (b : Binary) : Prop :=
  ofScientific (b.shortest .even).scientific.1 (b.shortest .even).scientific.2 = some b

instance (b : Binary) : Decidable b.Fixed := inferInstanceAs (Decidable (_ = _))

theorem Medium.reread?_of_fixed (hb : b.Medium) (h : b.Fixed) : b.reread? = some b := by
  have hle := hb.exponent_le
  rw [reread?_eq hb.normal (by omega)]
  exact h

/-- A power of two is read as itself, or as the number before it; then this and the number after it
are read as themselves. -/
theorem fixed_power : ∀ n : Nat, n < 95 → (⟨2 ^ 52, n - 72⟩ : Binary).Fixed ∨
    0 < n ∧ ofScientific ((⟨2 ^ 52, n - 72⟩ : Binary).shortest .even).scientific.1
      ((⟨2 ^ 52, n - 72⟩ : Binary).shortest .even).scientific.2 = some ⟨2 ^ 53 - 1, n - 72 - 1⟩ ∧
    (⟨2 ^ 53 - 1, n - 72 - 1⟩ : Binary).Fixed ∧ (⟨2 ^ 52 + 1, n - 72⟩ : Binary).Fixed := by
  decide +kernel

theorem Medium.reread?_power (hb : b.Medium) (h : b.mantissa = 2 ^ 52) :
    b.reread? = some b ∨
      -72 < b.exponent ∧ b.reread? = some ⟨2 ^ 53 - 1, b.exponent - 1⟩ ∧
      (⟨2 ^ 53 - 1, b.exponent - 1⟩ : Binary).Fixed ∧ (⟨2 ^ 52 + 1, b.exponent⟩ : Binary).Fixed := by
  obtain ⟨hnormal, hge, hle⟩ := hb
  obtain ⟨m, e⟩ := b
  dsimp only at h hge hle
  obtain rfl := h
  obtain ⟨n, hn⟩ := Int.eq_ofNat_of_zero_le (by omega : 0 ≤ e + 72)
  obtain rfl : e = n - 72 := by omega
  rw [reread?_eq hnormal (by dsimp only; omega)]
  obtain hfixed | ⟨hn, hrest⟩ := fixed_power n (by omega)
  · exact .inl hfixed
  · exact .inr ⟨by dsimp only; omega, hrest⟩

section
variable (hb : b.Medium)
include hb

theorem Medium.mantissa_ge : 2 ^ 52 ≤ b.mantissa :=
  hb.normal.mantissa_ge (by have := hb.exponent_ge; omega)

theorem Medium.mantissa_ne_zero : b.mantissa ≠ 0 := by
  have := hb.mantissa_ge
  omega

theorem Medium.upper_lt : b.upper < 2 ^ 75 := by
  refine (Binary.upper_lt hb.normal).trans_le ?_
  have hle := hb.exponent_le
  have hpow : (2 : ℚ) ^ (b.exponent + 53) ≤ 2 ^ (75 : Int) :=
    zpow_le_zpow_right₀ (by norm_num) (by omega)
  exact_mod_cast hpow

theorem Medium.coefficient_pos (tie : Tie) : 0 < (b.shortest tie).coefficient :=
  coefficient_shortest_pos hb.normal hb.mantissa_ne_zero tie

variable (hpower : b.mantissa ≠ 2 ^ 52) (hd : (b.shortest .even).scientific = (s, t))
include hd

theorem Medium.rounds_scientific : b.Rounds (s * 10 ^ t) := by
  have hvalue := (b.shortest .even).scientific_value
  rw [hd] at hvalue
  rw [hvalue]
  exact rounds_shortest hb.normal hb.mantissa_ne_zero .even

include hpower

/-- The power of ten is a binary number. -/
theorem Medium.exponent_scientific : -22 ≤ t ∧ t ≤ 22 := by
  have hrounds := rounds_shortest hb.normal hb.mantissa_ne_zero .even
  have hplace := (last_place_le hb.normal hb.mantissa_ne_zero .even).2 hpower
  have hge := hb.exponent_ge
  have hlow : -22 ≤ (b.shortest .even).exponent := by
    have hpow : (10 : ℚ) ^ (-22 : Int) < 10 ^ ((b.shortest .even).exponent + 1) := by
      calc (10 : ℚ) ^ (-22 : Int) < 2 ^ (-72 : Int) := by norm_num
        _ ≤ 2 ^ b.exponent := zpow_le_zpow_right₀ (by norm_num) hge
        _ ≤ 10 ^ ((b.shortest .even).exponent + 1) := hplace
    have hlt := (zpow_lt_zpow_iff_right₀ (by norm_num)).1 hpow
    omega
  have hhigh : (b.shortest .even).exponent ≤ 22 := by
    have hcoefficient : (1 : ℚ) ≤ (b.shortest .even).coefficient := by
      exact_mod_cast hb.coefficient_pos .even
    have hpow : (10 : ℚ) ^ (b.shortest .even).exponent < 10 ^ (23 : Int) := by
      calc (10 : ℚ) ^ (b.shortest .even).exponent ≤ (b.shortest .even).value :=
            le_mul_of_one_le_left (by positivity) hcoefficient
        _ ≤ b.upper := hrounds.high
        _ < 2 ^ 75 := hb.upper_lt
        _ < 10 ^ (23 : Int) := by norm_num
    have hlt := (zpow_lt_zpow_iff_right₀ (by norm_num)).1 hpow
    omega
  unfold Digits.scientific at hd
  split at hd
  · cases hd
    omega
  · split at hd
    · cases hd
      omega
    · cases hd
      exact ⟨hlow, hhigh⟩

/-- What the number is read as: it is far from the largest one. -/
theorem Medium.reread?_eq_some : ∃ y, b.reread? = some y ∧ y.Normal ∧
    y.Rounds ((nearest s 1).value * 10 ^ t) := by
  have hle : b.value ≤ top.value := by
    have htop : top.value = (2 ^ 53 - 1) * 2 ^ 43 := by norm_num [top, value]
    have hupper := hb.upper_lt
    have hvalue := b.value_lt_upper
    rw [htop]
    norm_num at hupper ⊢
    linarith
  obtain ⟨hlow, hhigh⟩ := hb.exponent_scientific hpower hd
  exact Binary.reread?_eq_some hb.normal hle hd hlow hhigh

/-- A significand that the mantissa has room for is not rounded. -/
theorem Medium.reread?_of_lt (hs : s < 2 ^ 53) : b.reread? = some b := by
  obtain ⟨y, hy, hnormal, hrounds⟩ := hb.reread?_eq_some hpower hd
  rw [value_nearest_whole hs] at hrounds
  rw [hy, hrounds.unique hnormal hb.normal (hb.rounds_scientific hd)]

end

/-! ## Whole numbers -/

/-- The last place of a significand of seventeen digits is at most 16. -/
theorem exponent_nearest_lt (hs : s < 10 ^ 17) : (nearest s 1).exponent < 5 := by
  refine exponent_lt (normal_nearest Nat.one_pos) (rounds_nearest_whole s) (by decide) ?_
  have hs : (s : ℚ) < 10 ^ 17 := by exact_mod_cast hs
  norm_num at hs ⊢
  linarith

theorem value_nearest_near (hs : s < 10 ^ 17) :
    (nearest s 1).value ≤ s + 8 ∧ s ≤ (nearest s 1).value + 8 := by
  have hrounds := rounds_nearest_whole s
  have hlow := (nearest s 1).le_lower.trans hrounds.low
  have hhigh := hrounds.high
  have hpow : (2 : ℚ) ^ (nearest s 1).exponent ≤ 2 ^ (4 : Int) :=
    zpow_le_zpow_right₀ (by norm_num) (by have := exponent_nearest_lt hs; omega)
  rw [upper] at hhigh
  rw [value]
  norm_num at hpow
  constructor <;> linarith

section
variable (hb : b.Medium) (hpower : b.mantissa ≠ 2 ^ 52)
include hb hpower

theorem Medium.isNearest : IsNearest (b.shortest .even).coefficient
    (b.value / 10 ^ (b.shortest .even).exponent) := by
  have hsearch := searchGrid_shortest hb.normal hb.mantissa_ne_zero .even
  rw [onGrid?_even hb.mantissa_ne_zero hpower (searchGrid_some hsearch).1, ← units_div_gridStep]
  exact isNearest_roundHalfEven _ (b.gridStep_pos _)

variable {n : Nat} (hpositional : (b.shortest .even).IsPositional)
  (hn : (b.shortest .even).exponent = .ofNat n)
include hpositional hn

omit hpower in
theorem Medium.scientific_whole :
    (b.shortest .even).scientific = ((b.shortest .even).coefficient * 10 ^ n * 10, -1) ∧
      (b.shortest .even).coefficient * 10 ^ n * 10 < 10 ^ 17 :=
  Digits.scientific_whole (hb.coefficient_pos .even).ne' hpositional hn

omit hpower in
theorem Medium.exponent_whole : b.exponent ≤ 1 := by
  obtain ⟨hd, hlt⟩ := hb.scientific_whole hpositional hn
  have hrounds := hb.rounds_scientific hd
  have hlt : (((b.shortest .even).coefficient * 10 ^ n * 10 : Nat) : ℚ) < 10 ^ 17 := by
    exact_mod_cast hlt
  have hexponent : b.exponent < 2 := by
    refine exponent_lt hb.normal hrounds (by decide) ?_
    norm_num at hlt ⊢
    linarith
  omega

/-- A number that is written without a fraction has none. -/
theorem Medium.value_whole : b.value = ((b.shortest .even).coefficient * 10 ^ n : Nat) := by
  have hexponent := hb.exponent_whole hpositional hn
  have hrounds := rounds_shortest hb.normal hb.mantissa_ne_zero .even
  have hnear := hb.isNearest hpower
  rw [Digits.value, hn, Int.ofNat_eq_natCast, zpow_natCast] at hrounds
  rw [hn, Int.ofNat_eq_natCast, zpow_natCast] at hnear
  generalize (b.shortest .even).coefficient = c at *
  have hrounds : b.Rounds (c * 10 ^ n : Nat) := by exact_mod_cast hrounds
  rcases hexponent.eq_or_lt with hone | hle
  · -- an even number, at most one away from another one
    have hlow := b.le_lower.trans hrounds.low
    have hhigh := hrounds.high
    have hvalue : b.value = (2 * b.mantissa : Nat) := by
      rw [value, hone]
      push_cast
      ring
    rw [hone, zpow_one] at hlow
    rw [upper, hone, zpow_one] at hhigh
    have hlow : 2 * (b.mantissa : ℚ) ≤ (c * 10 ^ n : Nat) + 1 := by linarith
    have hlow : 2 * b.mantissa ≤ c * 10 ^ n + 1 := by exact_mod_cast hlow
    have hhigh : ((c * 10 ^ n : Nat) : ℚ) ≤ 2 * b.mantissa + 1 := by linarith
    have hhigh : c * 10 ^ n ≤ 2 * b.mantissa + 1 := by exact_mod_cast hhigh
    rw [hvalue]
    congr 1
    cases n with
    | zero =>
      rw [hvalue, pow_zero, div_one] at hnear
      have hbelow : 2 * (c : ℚ) ≤ 2 * (2 * b.mantissa : Nat) + 1 := by linarith [hnear.low]
      have hbelow : 2 * c ≤ 2 * (2 * b.mantissa) + 1 := by exact_mod_cast hbelow
      have habove : 2 * ((2 * b.mantissa : Nat) : ℚ) ≤ 2 * c + 1 := by linarith [hnear.high]
      have habove : 2 * (2 * b.mantissa) ≤ 2 * c + 1 := by exact_mod_cast habove
      omega
    | succ n =>
      rw [Nat.pow_succ, ← Nat.mul_assoc] at *
      omega
  · -- few enough digits for the mantissa
    have hlt : c * 10 ^ n < 2 ^ 53 := by
      have hpow : (2 : ℚ) ^ (b.exponent + 53) ≤ 2 ^ (53 : Int) :=
        zpow_le_zpow_right₀ (by norm_num) (by omega)
      have hlt : ((c * 10 ^ n : Nat) : ℚ) < 2 ^ (53 : Int) :=
        (hrounds.high.trans_lt (Binary.upper_lt hb.normal)).trans_le hpow
      exact_mod_cast hlt
    have hnearest : nearest (c * 10 ^ n) 1 = b := by
      rw [nearest_eq_iff hb.normal Nat.one_pos, Nat.cast_one, div_one]
      exact hrounds
    rw [← hnearest]
    exact value_nearest_whole hlt

/-- A whole number with the last place 2 is read as it was: the rounded significand is too near. -/
theorem Medium.reread?_whole (he : 1 ≤ b.exponent) : b.reread? = some b := by
  have hexponent := hb.exponent_whole hpositional hn
  have hvalue := hb.value_whole hpower hpositional hn
  obtain ⟨hd, hlt⟩ := hb.scientific_whole hpositional hn
  obtain ⟨y, hy, hnormal, hread⟩ := hb.reread?_eq_some hpower hd
  obtain ⟨hlow, hhigh⟩ := value_nearest_near hlt
  have hone : b.exponent = 1 := by omega
  have hlower := lower_eq hb.mantissa_ne_zero fun h => hpower h.1
  rw [value, hone, zpow_one] at hvalue
  rw [hone, zpow_one] at hlower
  rw [Nat.cast_mul _ 10, ← hvalue, Nat.cast_ofNat] at hlow hhigh
  rw [hy]
  congr 1
  refine hread.unique hnormal hb.normal (rounds_of_lt ?_ ?_)
  · rw [hlower]
    norm_num
    linarith
  · rw [upper, hone]
    norm_num
    linarith

end

/-! ## Significands without room -/

/-- The number, rounded to a multiple of the coarsest power of ten below its last place. -/
structure Fine (b : Binary) (s : Nat) (t : Int) : Prop where
  step_lt : (10 : ℚ) ^ t < 2 ^ b.exponent
  le_step : (2 : ℚ) ^ b.exponent ≤ 10 ^ (t + 1)
  near : IsNearest s (b.value / 10 ^ t)

/-- **A number is read as it was, or its significand has no room in a mantissa.** -/
theorem Medium.reread?_or_fine (hb : b.Medium) (hpower : b.mantissa ≠ 2 ^ 52)
    (hd : (b.shortest .even).scientific = (s, t)) :
    b.reread? = some b ∨ 2 ^ 53 ≤ s ∧ b.Fine s t := by
  by_cases hs : s < 2 ^ 53
  · exact .inl (hb.reread?_of_lt hpower hd hs)
  have hs : 2 ^ 53 ≤ s := Nat.le_of_not_lt hs
  have hstep : (10 : ℚ) ^ t < 2 ^ b.exponent := by
    have hupper := (hb.rounds_scientific hd).high.trans_lt (Binary.upper_lt hb.normal)
    have hs : (2 : ℚ) ^ 53 ≤ s := by exact_mod_cast hs
    have hle : (2 : ℚ) ^ 53 * 10 ^ t ≤ s * 10 ^ t := mul_le_mul_of_nonneg_right hs (by positivity)
    rw [zpow_add₀ (by norm_num)] at hupper
    norm_num at hupper hle
    linarith
  have hdigits := hd
  unfold Digits.scientific at hd
  split at hd
  case isTrue h0 => exact absurd h0 (hb.coefficient_pos .even).ne'
  case isFalse =>
    split at hd
    case isTrue hwhole =>
      obtain ⟨hpositional, hexponent⟩ := hwhole
      obtain ⟨n, hn⟩ := Int.eq_ofNat_of_zero_le hexponent
      by_cases he : 1 ≤ b.exponent
      · exact .inl (hb.reread?_whole hpower hpositional hn he)
      have hvalue := hb.value_whole hpower hpositional hn
      rw [(hb.scientific_whole hpositional hn).1] at hdigits
      cases hdigits
      have hone : (2 : ℚ) ^ b.exponent ≤ 1 := zpow_le_one_of_nonpos₀ (by norm_num) (by omega)
      refine .inr ⟨hs, hstep, hone, ?_⟩
      have hself := isNearest_self ((b.shortest .even).coefficient * 10 ^ n * 10)
      rw [Nat.cast_mul _ 10, ← hvalue] at hself
      rw [zpow_neg_one, div_inv_eq_mul]
      exact hself
    case isFalse =>
      cases hd
      exact .inr ⟨hs, hstep, (last_place_le hb.normal hb.mantissa_ne_zero .even).2 hpower,
        hb.isNearest hpower⟩

end Binary
end CustomsClaims
