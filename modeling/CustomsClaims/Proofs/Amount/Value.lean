import CustomsClaims.Proofs.Amount.Storable
import CustomsClaims.Proofs.Claim.Exact

/-!
# The number that an amount stands for

`Amount.value` is an amount as a rational number. In lowest terms a number has one form only, so
that amounts of the same value differ at most in the sign of a zero (`Amount.value_eq_iff`). It is
rounded to the binary number that the amount is written as (`Amount.rounds_nearestBinary`). An
amount made of decimal digits has their value, up to half of its last place where digits are dropped
(`Amount.ofDigits?_spec`).
-/

namespace CustomsClaims
namespace Amount

/-- The number without its sign. -/
def magnitude (a : Amount) : ℚ := a.coefficient / 10 ^ a.places

/-- The number that the amount stands for. -/
def value (a : Amount) : ℚ := if a.negative then -a.magnitude else a.magnitude

variable {a b : Amount}

theorem magnitude_nonneg (a : Amount) : 0 ≤ a.magnitude := by
  unfold magnitude
  positivity

theorem abs_value (a : Amount) : |a.value| = a.magnitude := by
  unfold value
  split
  · rw [abs_neg, abs_of_nonneg a.magnitude_nonneg]
  · exact abs_of_nonneg a.magnitude_nonneg

theorem magnitude_eq_zero : a.magnitude = 0 ↔ a.coefficient = 0 := by
  have hpos : (0 : ℚ) < 10 ^ a.places := by positivity
  rw [magnitude, div_eq_zero_iff, or_iff_left hpos.ne', Nat.cast_eq_zero]

theorem magnitude_pos (h : a.coefficient ≠ 0) : 0 < a.magnitude :=
  lt_of_le_of_ne a.magnitude_nonneg fun h0 => h (magnitude_eq_zero.1 h0.symm)

theorem value_eq_zero : a.value = 0 ↔ a.coefficient = 0 := by
  rw [← abs_eq_zero, abs_value, magnitude_eq_zero]

theorem value_eq_of_magnitude (h : a.magnitude = b.magnitude)
    (hsign : a.negative = (b.negative && a.coefficient ≠ 0)) : a.value = b.value := by
  unfold value
  rw [h, hsign]
  by_cases h0 : a.coefficient = 0
  · have hzero : b.magnitude = 0 := h.symm.trans (magnitude_eq_zero.2 h0)
    simp [hzero]
  · rw [decide_eq_true h0, Bool.and_true]

/-! ## One form for each value -/

/-- A whole number has no places. -/
theorem places_of_magnitude {n : Nat} (h : a.magnitude = n) :
    a.places = 0 ∧ a.coefficient = n := by
  have hpos : (0 : ℚ) < 10 ^ a.places := by positivity
  rw [magnitude, div_eq_iff hpos.ne'] at h
  have hcoefficient : a.coefficient = n * 10 ^ a.places := by exact_mod_cast h
  have hplaces : a.places = 0 := by
    by_contra hne
    obtain ⟨k, hk⟩ := Nat.exists_eq_succ_of_ne_zero hne
    rw [hk, Nat.pow_succ, ← Nat.mul_assoc] at hcoefficient
    have hlowest := a.lowest.resolve_left hne
    omega
  rw [hplaces, Nat.pow_zero, Nat.mul_one] at hcoefficient
  exact ⟨hplaces, hcoefficient⟩

/-- Of two forms of a number the one in lowest terms does not have more places. -/
theorem places_le_of_magnitude (h : a.magnitude = b.magnitude) : a.places ≤ b.places := by
  by_contra hlt
  obtain ⟨n, hn⟩ := Nat.exists_eq_add_of_lt (not_le.1 hlt)
  have hpos (m : Nat) : (0 : ℚ) < 10 ^ m := by positivity
  rw [magnitude, magnitude, div_eq_div_iff (hpos _).ne' (hpos _).ne', hn, pow_succ, pow_add] at h
  have hcoefficient : (a.coefficient : ℚ) = (b.coefficient * 10 ^ n * 10 : Nat) := by
    push_cast
    refine mul_right_cancel₀ (hpos b.places).ne' (h.trans ?_)
    ring
  have hcoefficient : a.coefficient = b.coefficient * 10 ^ n * 10 := by exact_mod_cast hcoefficient
  rcases a.lowest with hplaces | hdigit <;> omega

theorem magnitude_inj (h : a.magnitude = b.magnitude) :
    a.coefficient = b.coefficient ∧ a.places = b.places := by
  have hplaces := le_antisymm (places_le_of_magnitude h) (places_le_of_magnitude h.symm)
  have hpos : (0 : ℚ) < 10 ^ b.places := by positivity
  rw [magnitude, magnitude, hplaces, div_left_inj' hpos.ne'] at h
  exact ⟨by exact_mod_cast h, hplaces⟩

/-- **Amounts of the same value are the same** but for the sign of a zero. -/
theorem value_eq_iff : a.value = b.value ↔ a.plain = b.plain := by
  constructor
  · intro h
    have hmagnitude : a.magnitude = b.magnitude := by rw [← abs_value, ← abs_value, h]
    obtain ⟨hcoefficient, hplaces⟩ := magnitude_inj hmagnitude
    have hsign : (a.negative && decide (a.coefficient ≠ 0)) =
        (b.negative && decide (b.coefficient ≠ 0)) := by
      rw [hcoefficient]
      by_cases h0 : b.coefficient = 0
      · simp [h0]
      have hpos := magnitude_pos h0
      rw [value, value, hmagnitude] at h
      cases hn : a.negative <;> cases hn' : b.negative <;> simp [hn, hn'] at h ⊢ <;> linarith
    obtain ⟨n, c, p, _, _, _⟩ := a
    obtain ⟨n', c', p', _, _, _⟩ := b
    simp only [plain, mk.injEq]
    exact ⟨hsign, hcoefficient, hplaces⟩
  · intro h
    rcases eq_or_zero h with rfl | ⟨ha, hb⟩
    · rfl
    · rw [value_eq_zero.2 ha, value_eq_zero.2 hb]

/-! ## The nearest binary number -/

theorem rounds_nearestBinary (a : Amount) : a.nearestBinary.Rounds a.magnitude := by
  have hden : 0 < 10 ^ a.places := Nat.pow_pos (by decide)
  have hrounds := Binary.rounds_nearest a.coefficient hden
  rwa [Nat.cast_pow, Nat.cast_ofNat] at hrounds

theorem normal_nearestBinary (a : Amount) : a.nearestBinary.Normal :=
  Binary.normal_nearest (Nat.pow_pos (by decide))

theorem le_magnitude (h0 : a.coefficient ≠ 0) : 1 / 10 ^ 28 ≤ a.magnitude := by
  have hone : (1 : ℚ) ≤ a.coefficient := by exact_mod_cast Nat.one_le_iff_ne_zero.2 h0
  exact div_le_div₀ (by positivity) hone (by positivity)
    (pow_le_pow_right₀ (by norm_num) a.places_le)

theorem le_exponent_nearestBinary (h0 : a.coefficient ≠ 0) : -200 ≤ a.nearestBinary.exponent := by
  have hmagnitude := le_magnitude h0
  refine Binary.le_exponent a.normal_nearestBinary a.rounds_nearestBinary ?_
  norm_num at hmagnitude ⊢
  linarith

/-- No amount is so small that its mantissa does not fill its place. -/
theorem mantissa_nearestBinary (h0 : a.coefficient ≠ 0) : 2 ^ 52 ≤ a.nearestBinary.mantissa := by
  have hexponent := le_exponent_nearestBinary h0
  exact a.normal_nearestBinary.mantissa_ge (by omega)

theorem Storable.value_le_top (h : a.Storable) : a.nearestBinary.value ≤ Binary.top.value := by
  refine Binary.le_top (Nat.pow_pos (by decide)) ?_
  have hpos : (0 : ℚ) < (10 ^ a.places : Nat) := by positivity
  rw [div_lt_iff₀ hpos]
  exact_mod_cast h

/-! ## Amounts made of parts and digits -/

theorem ofParts?_spec {negative : Bool} {c places : Nat} (h : ofParts? negative c places = some a) :
    a.negative = negative ∧ a.magnitude = c / 10 ^ places := by
  unfold ofParts? at h
  split at h
  case isTrue =>
    obtain rfl := Option.some.inj h
    have hvalue := lowestTerms_value c places
    have hpos (n : Nat) : (0 : ℚ) < 10 ^ n := by positivity
    refine ⟨rfl, ?_⟩
    rw [magnitude, div_eq_div_iff (hpos _).ne' (hpos _).ne']
    exact_mod_cast hvalue
  case isFalse => cases h

/-- Digits are dropped with an error of at most half of the last digit kept. -/
theorem dropDigits_near (c x : Nat) :
    |((c / 10 ^ x / 10 + if 5 ≤ c / 10 ^ x % 10 then 1 else 0 : Nat) : ℚ) -
      c / 10 ^ (x + 1)| ≤ 1 / 2 := by
  have hp : 0 < 10 ^ x := Nat.pow_pos (by decide)
  have hdiv := Nat.div_add_mod c (10 ^ x)
  have hmod := Nat.mod_lt c hp
  have hdigit := Nat.div_add_mod (c / 10 ^ x) 10
  have hdigit' := Nat.mod_lt (c / 10 ^ x) (by decide : 0 < 10)
  have hpow : (10 : ℚ) ^ (x + 1) = (10 * 10 ^ x : Nat) := by
    push_cast
    rw [pow_succ, mul_comm]
  rw [hpow]
  rw [← hdigit] at hdiv
  generalize c / 10 ^ x / 10 = q at *
  generalize c / 10 ^ x % 10 = r at *
  generalize c % 10 ^ x = rest at *
  generalize 10 ^ x = p at *
  -- whole numbers throughout, in the unit of the digits that are dropped
  have hbounds : 2 * (10 * p * (q + if 5 ≤ r then 1 else 0)) ≤ 2 * c + 10 * p ∧
      2 * c ≤ 2 * (10 * p * (q + if 5 ≤ r then 1 else 0)) + 10 * p := by
    have hc : c = 10 * p * q + p * r + rest := by
      rw [← hdiv]
      ring
    split
    case isTrue h =>
      have hlow := Nat.mul_le_mul_left p h
      have hhigh := Nat.mul_le_mul_left p (Nat.le_of_lt_succ hdigit')
      rw [Nat.mul_add]
      omega
    case isFalse h =>
      have hhigh := Nat.mul_le_mul_left p (Nat.le_of_lt_succ (not_le.1 h))
      rw [Nat.add_zero]
      omega
  generalize (q + if 5 ≤ r then 1 else 0) = k at *
  obtain ⟨hlow, hhigh⟩ := hbounds
  have hpos : (0 : ℚ) < (10 * p : Nat) := by exact_mod_cast Nat.mul_pos (by decide) hp
  have hlow : 2 * ((10 * p : Nat) * (k : ℚ)) ≤ 2 * c + (10 * p : Nat) := by exact_mod_cast hlow
  have hhigh : 2 * (c : ℚ) ≤ 2 * ((10 * p : Nat) * k) + (10 * p : Nat) := by exact_mod_cast hhigh
  rw [abs_le, le_sub_iff_add_le, sub_le_iff_le_add, ← sub_le_iff_le_add', le_div_iff₀ hpos,
    ← le_sub_iff_add_le', div_le_iff₀ hpos]
  constructor
  · linarith
  · linarith

/-- **An amount made of decimal digits** has their value if it has the places, and is at most half
of its last place away from it otherwise. -/
theorem ofDigits?_spec {negative : Bool} {d : Digits} (h : ofDigits? negative d = some a) :
    a.negative = (negative && a.coefficient ≠ 0) ∧
      (-28 ≤ d.exponent → a.magnitude = d.value) ∧
      |a.magnitude - d.value| ≤ 1 / 2 / 10 ^ 28 := by
  have hexact (hvalue : a.magnitude = d.value) : |a.magnitude - d.value| ≤ 1 / 2 / 10 ^ 28 := by
    rw [hvalue, sub_self, abs_zero]
    norm_num
  have hsign {c places : Nat} (hp : ofParts? (negative && c ≠ 0) c places = some a) :
      a.negative = (negative && a.coefficient ≠ 0) := by
    obtain ⟨hnegative, hmagnitude⟩ := ofParts?_spec hp
    have hzero : a.coefficient = 0 ↔ c = 0 := by
      have hpos : (0 : ℚ) < 10 ^ places := by positivity
      rw [← magnitude_eq_zero, hmagnitude, div_eq_zero_iff, or_iff_left hpos.ne', Nat.cast_eq_zero]
    rw [hnegative]
    simp only [ne_eq, hzero]
  unfold ofDigits? at h
  cases hx : d.exponent with
  | ofNat n =>
    rw [hx] at h
    have hvalue : a.magnitude = d.value := by
      rw [(ofParts?_spec h).2, Digits.value, hx, Int.ofNat_eq_natCast, zpow_natCast]
      push_cast
      rw [pow_zero, div_one]
    exact ⟨hsign h, fun _ => hvalue, hexact hvalue⟩
  | negSucc n =>
    rw [hx] at h
    dsimp only at h
    split at h
    case isTrue =>
      have hvalue : a.magnitude = d.value := by
        rw [(ofParts?_spec h).2, Digits.value, hx, zpow_negSucc, div_eq_mul_inv]
      exact ⟨hsign h, fun _ => hvalue, hexact hvalue⟩
    case isFalse hexcess =>
      refine ⟨hsign h, fun hplaces => ?_, ?_⟩
      · rw [maxPlaces] at hexcess
        omega
      · obtain ⟨x, hx'⟩ : ∃ x, n + 1 - maxPlaces = x + 1 := Nat.exists_eq_succ_of_ne_zero hexcess
        have hn : n + 1 = x + 1 + maxPlaces := by omega
        have hvalue : d.value = d.coefficient / 10 ^ (x + 1) / 10 ^ maxPlaces := by
          rw [Digits.value, hx, zpow_negSucc, hn, pow_add _ (x + 1), mul_inv, ← mul_assoc,
            ← div_eq_mul_inv, ← div_eq_mul_inv]
        have hpos : (0 : ℚ) < 10 ^ maxPlaces := by positivity
        have hnear := dropDigits_near d.coefficient x
        rw [hx', Nat.add_sub_cancel] at h
        rw [(ofParts?_spec h).2, hvalue, ← sub_div, abs_div, abs_of_pos hpos]
        exact div_le_div_of_nonneg_right hnear hpos.le

end Amount
end CustomsClaims
