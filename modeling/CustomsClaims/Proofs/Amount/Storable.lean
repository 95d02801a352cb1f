import CustomsClaims.Proofs.Amount.ReadBack
import CustomsClaims.Proofs.Json.Scientific
import CustomsClaims.Proofs.Number.Shortest

/-!
# Which amounts read back

The largest binary number below `2 ^ 96` is `Binary.top`, and amounts from the upper end of its interval
on are rounded to `2 ^ 96`, which is no amount. `Amount.readBack?_of_storable`: all amounts below that
end read back, as amounts below it, and so do these in turn. `Amount.readBack?_eq_none`: the others do
not.
-/

namespace CustomsClaims

/-- From here on amounts are rounded to `2 ^ 96`: halfway between that and the largest binary number
below it. -/
def storableLimit : Nat := 2 ^ 96 - 2 ^ 42

/-- Is the amount rounded to a number below `2 ^ 96`? -/
def Amount.Storable (a : Amount) : Prop := a.coefficient < storableLimit * 10 ^ a.places

instance (a : Amount) : Decidable a.Storable := inferInstanceAs (Decidable (_ < _))

namespace Binary

/-- The largest binary number below `2 ^ 96`. -/
def top : Binary := ⟨2 ^ 53 - 1, 43⟩

theorem normal_top : top.Normal := ⟨by decide, by decide, by decide⟩

theorem upper_top : top.upper = storableLimit := by
  norm_num [top, upper, storableLimit]

/-! ## Numbers up to the largest one -/

section
variable {b : Binary} (hb : b.Normal) (hle : b.value ≤ top.value)
include hb hle

theorem exponent_le_top : b.exponent ≤ 43 := by
  by_contra hlt
  have hlow := le_value hb (by omega)
  have hhigh : (2 : ℚ) ^ (43 + 53 : Int) ≤ 2 ^ (b.exponent + 52) :=
    zpow_le_zpow_right₀ (by norm_num) (by omega)
  have htop := top.value_lt_upper.trans (upper_lt normal_top)
  exact absurd (hhigh.trans (hlow.trans hle)) (not_le.2 htop)

/-- The interval of any other number ends well below the limit. -/
theorem upper_le_of_ne_top (hne : b ≠ top) : b.upper ≤ storableLimit - 2 ^ 43 := by
  have hexponent := exponent_le_top hb hle
  have hlimit : (storableLimit : ℚ) = 2 ^ 96 - 2 ^ 42 := by norm_num [storableLimit]
  rw [hlimit]
  rcases hexponent.lt_or_eq with hlt | heq
  · have hhigh : (2 : ℚ) ^ (b.exponent + 53) ≤ 2 ^ (95 : Int) :=
      zpow_le_zpow_right₀ (by norm_num) (by omega)
    refine (upper_lt hb).le.trans (hhigh.trans ?_)
    norm_num
  · have hmantissa : b.mantissa + 2 ≤ 2 ^ 53 := by
      have hlt := hb.mantissa_lt
      have hother : b.mantissa ≠ 2 ^ 53 - 1 := by
        intro h
        obtain ⟨m, e⟩ := b
        exact hne (by rw [top]; congr)
      omega
    have hmantissa : (b.mantissa : ℚ) + 2 ≤ 2 ^ 53 := by exact_mod_cast hmantissa
    rw [upper, heq]
    norm_num at hmantissa ⊢
    linarith

theorem value_shortest_lt (tie : Tie) : (b.shortest tie).value < storableLimit := by
  by_cases htop : b = top
  · have hlt := (b.value_shortest_le tie).2 (by rw [htop]; decide)
    rwa [htop, upper_top, ← htop] at hlt
  · have hupper := upper_le_of_ne_top hb hle htop
    have hvalue := (b.value_shortest_le tie).1
    linarith

end

/-! ## Reading below the limit -/

theorem le_top {num den : Nat} (hden : 0 < den) (h : (num : ℚ) / den < storableLimit) :
    (nearest num den).value ≤ top.value :=
  nearest_le normal_top hden (by rw [upper_top]; exact h)

/-- A significand with room is divided without coming near the limit. -/
theorem ofScientific_negSucc {c : Nat} (hc : c < 2 ^ 59) (n : Nat) :
    ∃ r, ofScientific c (.negSucc n) = some r ∧ r.Normal ∧ r.value ≤ top.value := by
  have hnearest : (nearest c 1).value ≤ top.value := by
    refine le_top Nat.one_pos ?_
    rw [Nat.cast_one, div_one]
    exact_mod_cast hc.trans (by decide)
  have hsignificand : (nearest c 1).Normal := normal_nearest Nat.one_pos
  obtain ⟨hnormal, hle⟩ :=
    divTenPower_le hsignificand (n % maxTenPower + 1) (n / maxTenPower)
  exact ⟨_, rfl, hnormal, hle.trans hnearest⟩

theorem ofScientific_ofNat {c n : Nat} (hn : n ≤ maxTenPower)
    (h : (nearest c 1).value * (tenPower n).value < storableLimit) :
    ∃ r, ofScientific c (.ofNat n) = some r ∧ r.Normal ∧ r.value ≤ top.value := by
  have hnormal := normal_mul (nearest c 1) (tenPower n)
  have hle : ((nearest c 1).mul (tenPower n)).value ≤ top.value :=
    mul_le normal_top (by rw [upper_top]; exact h)
  have hexponent := exponent_le_top hnormal hle
  have hfinite : ((nearest c 1).mul (tenPower n)).isFinite := by
    rw [isFinite, decide_eq_true_iff]
    omega
  refine ⟨_, ?_, hnormal, hle⟩
  rw [ofScientific]
  dsimp only
  rw [if_pos hn, if_pos hfinite]

/-- The powers of ten up to the twenty-second are binary numbers. -/
theorem value_tenPower {n : Nat} (hn : n ≤ 22) : (tenPower n).value = 10 ^ n := by
  have hfraction : ∀ n ≤ 22, (tenPower n).fraction.1 = 10 ^ n * (tenPower n).fraction.2 := by
    decide +kernel
  have hpos : ((tenPower n).fraction.2 : ℚ) ≠ 0 := by
    exact_mod_cast (tenPower n).fraction_snd_pos.ne'
  rw [value_eq_fraction, hfraction n hn]
  push_cast
  exact mul_div_cancel_right₀ _ hpos

/-- One of significand and power of ten is exact, and rounding the other does not reach the limit. -/
theorem nearest_mul_tenPower_lt {c n : Nat} (hc0 : c ≠ 0)
    (h : (c : ℚ) * 10 ^ n ≤ storableLimit - 2 ^ 43) :
    (nearest c 1).value * (tenPower n).value < storableLimit := by
  have hlimit : (storableLimit : ℚ) = 2 ^ 96 - 2 ^ 42 := by norm_num [storableLimit]
  have hrounded : (c : ℚ) * 10 ^ n * (1 + 1 / 2 ^ 53) < storableLimit := by
    calc (c : ℚ) * 10 ^ n * (1 + 1 / 2 ^ 53) ≤ (storableLimit - 2 ^ 43) * (1 + 1 / 2 ^ 53) :=
          mul_le_mul_of_nonneg_right h (by norm_num)
      _ < storableLimit := by
        rw [hlimit]
        norm_num
  by_cases hc : c < 2 ^ 53
  · have hpower : (tenPower n).value ≤ 10 ^ n * (1 + 1 / 2 ^ 53) := by
      exact_mod_cast value_nearest_whole_le (Nat.one_le_pow n 10 (by decide))
    rw [value_nearest_whole hc]
    refine lt_of_le_of_lt (mul_le_mul_of_nonneg_left hpower (by positivity)) ?_
    rwa [← mul_assoc]
  · have hcoefficient : (nearest c 1).value ≤ c * (1 + 1 / 2 ^ 53) :=
      value_nearest_whole_le (Nat.one_le_iff_ne_zero.2 hc0)
    have hn : n ≤ 22 := by
      by_contra hn
      have hc : (2 : ℚ) ^ 53 ≤ c := by exact_mod_cast Nat.le_of_not_lt hc
      have hten : (10 : ℚ) ^ 22 ≤ 10 ^ n := pow_le_pow_right₀ (by norm_num) (by omega)
      have hproduct := mul_le_mul hc hten (by positivity) (by positivity)
      have hlarge : (storableLimit : ℚ) < 2 ^ 53 * 10 ^ 22 := by
        rw [hlimit]
        norm_num
      linarith
    rw [value_tenPower hn]
    refine lt_of_le_of_lt (mul_le_mul_of_nonneg_right hcoefficient (by positivity)) ?_
    rwa [mul_right_comm]

/-- The digits of the largest number are at the end of its interval, but there are few of them. -/
theorem shortest_mul_tenPower_lt {b : Binary} (hb : b.Normal) (hle : b.value ≤ top.value) {n : Nat}
    (hn : (b.shortest .even).exponent = .ofNat n) (h0 : (b.shortest .even).coefficient ≠ 0) :
    (nearest (b.shortest .even).coefficient 1).value * (tenPower n).value < storableLimit := by
  by_cases htop : b = top
  · have hdigits : top.shortest .even = ⟨7922816251426433, 13⟩ := by decide +kernel
    rw [htop, hdigits] at hn ⊢
    obtain rfl : 13 = n := Int.ofNat.inj hn
    rw [value_nearest_whole (by decide), value_tenPower (by decide)]
    norm_num [storableLimit]
  · have hvalue := (b.value_shortest_le .even).1
    rw [Digits.value, hn, Int.ofNat_eq_natCast, zpow_natCast] at hvalue
    exact nearest_mul_tenPower_lt h0 (hvalue.trans (upper_le_of_ne_top hb hle htop))

/-- **What is written below the limit is read below it.** -/
theorem value?_shortest {b : Binary} (hb : b.Normal) (hle : b.value ≤ top.value) :
    ∃ r, (b.shortest .even).numeral.value? = some r ∧ r.Normal ∧ r.value ≤ top.value := by
  have hcoefficient := coefficient_shortest_lt .even hb
  have hsize := exponent_le_top hb hle
  have hexponent := exponent_shortest .even hb (by omega)
  have hproduct (n : Nat) := shortest_mul_tenPower_lt (n := n) hb hle
  rw [Digits.value?_numeral (by omega) (by omega), Digits.scientific]
  generalize b.shortest .even = d at *
  by_cases h0 : d.coefficient = 0
  · rw [if_pos h0]
    exact ofScientific_negSucc (by decide) 0
  rw [if_neg h0]
  cases hx : d.exponent with
  | ofNat n =>
    by_cases hp : d.IsPositional
    · rw [if_pos ⟨hp, Int.natCast_nonneg n⟩]
      have hlt := Digits.coefficient_mul_lt hx (hp.resolve_left h0).2
      exact ofScientific_negSucc (hlt.trans (by decide)) 0
    · rw [if_neg (fun h => hp h.1)]
      refine ofScientific_ofNat ?_ (hproduct n hx h0)
      rw [hx] at hexponent
      have hn : (n : Int) < 40 := hexponent.2
      rw [maxTenPower]
      omega
  | negSucc n =>
    rw [if_neg (fun h => absurd h.2 (Int.not_le.2 (Int.negSucc_lt_zero n)))]
    exact ofScientific_negSucc hcoefficient n

end Binary

/-! ## Amounts -/

theorem lowestTerms_value (c places : Nat) :
    (lowestTerms c places).1 * 10 ^ places = c * 10 ^ (lowestTerms c places).2 := by
  induction places generalizing c with
  | zero => rfl
  | succ places ih =>
    unfold lowestTerms
    split
    case isTrue hzero =>
      rw [Nat.pow_succ, ← Nat.mul_assoc, ih, Nat.mul_right_comm]
      congr 1
      omega
    case isFalse => rfl

namespace Amount

theorem ofParts?_storable {negative : Bool} {c places : Nat} (hplaces : places ≤ maxPlaces)
    (hc : c < coefficientLimit) (h : c < storableLimit * 10 ^ places) :
    ∃ a, ofParts? negative c places = some a ∧ a.Storable := by
  refine ⟨_, dif_pos ⟨hc, hplaces⟩, ?_⟩
  have hvalue := lowestTerms_value c places
  refine Nat.lt_of_mul_lt_mul_right (a := 10 ^ places) ?_
  dsimp only
  rw [hvalue, Nat.mul_right_comm]
  exact Nat.mul_lt_mul_of_pos_right h (Nat.pow_pos (by decide))

theorem ofDigits?_storable {negative : Bool} {d : Digits} (hc : d.coefficient < 2 ^ 59)
    (h : d.value < storableLimit) : ∃ a, ofDigits? negative d = some a ∧ a.Storable := by
  have hsmall {c : Nat} (hlt : c ≤ 2 ^ 59) (places : Nat) : c < storableLimit * 10 ^ places :=
    calc c < storableLimit * 1 := lt_of_le_of_lt hlt (by decide)
      _ ≤ storableLimit * 10 ^ places := Nat.mul_le_mul_left _ (Nat.one_le_pow _ _ (by decide))
  unfold ofDigits?
  cases hx : d.exponent with
  | ofNat n =>
    dsimp only
    rw [Digits.value, hx, Int.ofNat_eq_natCast, zpow_natCast] at h
    have h : d.coefficient * 10 ^ n < storableLimit := by exact_mod_cast h
    exact ofParts?_storable (by decide) (h.trans (by decide)) (by rwa [Nat.pow_zero, Nat.mul_one])
  | negSucc n =>
    dsimp only
    split
    case isTrue hexcess =>
      exact ofParts?_storable (by omega) (hc.trans (by decide)) (hsmall hc.le _)
    case isFalse =>
      have hdropped : d.coefficient / 10 ^ (n + 1 - maxPlaces - 1) ≤ d.coefficient :=
        Nat.div_le_self _ _
      have hrounded : d.coefficient / 10 ^ (n + 1 - maxPlaces - 1) / 10 +
          (if 5 ≤ d.coefficient / 10 ^ (n + 1 - maxPlaces - 1) % 10 then 1 else 0) ≤ 2 ^ 59 := by
        split <;> omega
      exact ofParts?_storable (Nat.le_refl _) (lt_of_le_of_lt hrounded (by decide))
        (hsmall hrounded _)

/-- **A storable amount reads back**, as an amount that is storable again. -/
theorem readBack?_of_storable {a : Amount} (h : a.Storable) :
    ∃ a', a.readBack? = some a' ∧ a'.Storable := by
  have hden : 0 < 10 ^ a.places := Nat.pow_pos (by decide)
  have hle : a.nearestBinary.value ≤ Binary.top.value := by
    refine Binary.le_top hden ?_
    rw [div_lt_iff₀ (by exact_mod_cast hden)]
    exact_mod_cast h
  obtain ⟨r, hr, hnormal, hrle⟩ := Binary.value?_shortest (Binary.normal_nearest hden) hle
  rw [readBack?_eq, writtenBinary?, nearestBinary, hr]
  exact ofDigits?_storable (Binary.coefficient_shortest_lt .up hnormal)
    (Binary.value_shortest_lt hnormal hrle .up)

/-- An amount that is not storable is rounded to `2 ^ 96`. -/
theorem nearestBinary_of_not_storable {a : Amount} (h : ¬a.Storable) :
    a.nearestBinary = ⟨2 ^ 52, 44⟩ := by
  have hlt := a.coefficient_lt
  have hplaces : a.places = 0 := by
    by_contra hne
    refine h (hlt.trans ?_)
    calc coefficientLimit < storableLimit * 10 ^ 1 := by decide
      _ ≤ storableLimit * 10 ^ a.places :=
        Nat.mul_le_mul_left _ (Nat.pow_le_pow_right (by decide) (by omega))
  rw [Storable, hplaces, Nat.pow_zero, Nat.mul_one, storableLimit] at h
  rw [coefficientLimit] at hlt
  rw [nearestBinary, hplaces]
  generalize a.coefficient = c at *
  have hlog : c.log2 = 95 := by
    have hhigh : c.log2 < 96 := (Nat.log2_lt (by omega)).2 hlt
    have hlow : 95 ≤ c.log2 := (Nat.le_log2 (by omega)).2 (by omega)
    omega
  have hfloor : floorLog2 c 1 = 95 := by
    have hle : 1 * 2 ^ (95 : Int).toNat ≤ c * 2 ^ (-95 : Int).toNat := by
      show 1 * 2 ^ 95 ≤ c * 2 ^ 0
      omega
    rw [floorLog2, hlog]
    exact if_pos hle
  have hround : roundHalfEven c (2 ^ 43) = 2 ^ 53 := by
    have hquotient : c / 2 ^ 43 = 2 ^ 53 - 1 := by omega
    have hhalf : ¬2 * (c % 2 ^ 43) < 2 ^ 43 := by omega
    rw [roundHalfEven, if_neg hhalf, hquotient]
    norm_num
  have hmantissa : Binary.roundedMantissa c 1 = 2 ^ 53 := by
    rw [Binary.roundedMantissa, Binary.roundingExponent, hfloor]
    show roundHalfEven (c * 2 ^ 0) (1 * 2 ^ 43) = 2 ^ 53
    rw [Nat.pow_zero, Nat.mul_one, Nat.one_mul, hround]
  rw [Nat.pow_zero, Binary.nearest_eq (by omega), if_pos hmantissa, Binary.roundingExponent, hfloor]
  rfl

/-- **An amount that is not storable does not read back**: it is written as a number that is too
large for an amount. -/
theorem readBack?_eq_none {a : Amount} (h : ¬a.Storable) : a.readBack? = none := by
  rw [readBack?_eq, writtenBinary?, nearestBinary_of_not_storable h]
  cases a.negative <;> decide +kernel

end Amount
end CustomsClaims
