import CustomsClaims.Proofs.Amount.Settling
import CustomsClaims.Proofs.Amount.Value

/-!
# Claims that settle when they are read

An amount that is zero or from a millionth to `10 ^ 22` is read back as one that is read back unchanged
(`Amount.readBack?_settles`): the shortest digits of a binary number of this size need no more places
than an amount has (`Amount.ofDigits?_medium`). So is a claim with two such amounts.
-/

namespace CustomsClaims

/-! ## Amounts -/

namespace Amount

/-- Is the amount zero, or from a millionth to `10 ^ 22`? -/
def Moderate (a : Amount) : Prop :=
  a.coefficient = 0 ∨
    10 ^ a.places ≤ a.coefficient * 10 ^ 6 ∧ a.coefficient ≤ 10 ^ 22 * 10 ^ a.places

instance (a : Amount) : Decidable a.Moderate := inferInstanceAs (Decidable (_ ∨ _))

theorem medium_nearestBinary {a : Amount} (h : a.Moderate) (h0 : a.coefficient ≠ 0) :
    a.nearestBinary.Medium ∧ a.nearestBinary.exponent ≠ 22 := by
  obtain ⟨hlow, hhigh⟩ := h.resolve_left h0
  have hpos : (0 : ℚ) < 10 ^ a.places := by positivity
  have hnormal := a.normal_nearestBinary
  have hrounds := a.rounds_nearestBinary
  have hlow : 1 / 10 ^ 6 ≤ a.magnitude := by
    rw [magnitude, div_le_div_iff₀ (by norm_num) hpos, one_mul]
    exact_mod_cast hlow
  have hhigh : a.magnitude ≤ 10 ^ 22 := by
    rw [magnitude, div_le_iff₀ hpos]
    exact_mod_cast hhigh
  have hge : -72 ≤ a.nearestBinary.exponent := by
    refine Binary.le_exponent hnormal hrounds ?_
    norm_num at hlow ⊢
    linarith
  have hlt : a.nearestBinary.exponent < 22 := by
    refine Binary.exponent_lt hnormal hrounds (by decide) ?_
    norm_num at hhigh ⊢
    linarith
  exact ⟨⟨hnormal, hge, by omega⟩, by omega⟩

/-- The digits of a medium number are those of an amount that is written as this number. -/
theorem ofDigits?_medium {y : Binary} (hy : y.Medium) (negative : Bool) :
    ∃ a, ofDigits? negative (y.shortest .up) = some a ∧ a.negative = negative ∧
      a.nearestBinary = y := by
  have hrounds := Binary.rounds_shortest hy.normal hy.mantissa_ne_zero .up
  have hplaces : -28 ≤ (y.shortest .up).exponent := by
    have hpow : (10 : ℚ) ^ (-28 : Int) < 10 ^ ((y.shortest .up).exponent + 1) := by
      calc (10 : ℚ) ^ (-28 : Int) < 2 ^ (-74 : Int) := by norm_num
        _ ≤ 2 ^ (y.exponent - 2) :=
          zpow_le_zpow_right₀ (by norm_num) (by have := hy.exponent_ge; omega)
        _ < 10 ^ ((y.shortest .up).exponent + 1) :=
          (Binary.last_place_le hy.normal hy.mantissa_ne_zero .up).1
    have hlt := (zpow_lt_zpow_iff_right₀ (by norm_num)).1 hpow
    omega
  have hlimit : (y.shortest .up).value < storableLimit := by
    have hvalue := hrounds.high.trans_lt hy.upper_lt
    norm_num [storableLimit] at hvalue ⊢
    linarith
  obtain ⟨a, ha, -⟩ :=
    @ofDigits?_storable negative _ (Binary.coefficient_shortest_lt .up hy.normal) hlimit
  obtain ⟨hsign, hvalue, -⟩ := ofDigits?_spec ha
  have hvalue := hvalue hplaces
  have hne : a.coefficient ≠ 0 := by
    have hcoefficient : (0 : ℚ) < (y.shortest .up).coefficient := by
      exact_mod_cast hy.coefficient_pos .up
    rw [ne_eq, ← magnitude_eq_zero, hvalue, Digits.value]
    positivity
  refine ⟨a, ha, ?_, ?_⟩
  · rw [hsign, decide_eq_true hne, Bool.and_true]
  · rw [nearestBinary, Binary.nearest_eq_iff hy.normal (Nat.pow_pos (by decide)), Nat.cast_pow,
      Nat.cast_ofNat, ← magnitude, hvalue]
    exact hrounds

/-- **After one reading an amount stays as it is.** -/
theorem readBack?_settles {a : Amount} (h : a.Moderate) :
    ∃ a', a.readBack? = some a' ∧ a'.readBack? = some a' := by
  by_cases h0 : a.coefficient = 0
  · exact ⟨zero, readBack?_zero h0, readBack?_zero rfl⟩
  obtain ⟨hmedium, hexponent⟩ := medium_nearestBinary h h0
  obtain ⟨y, hread, hy, hagain⟩ := hmedium.settles hexponent
  obtain ⟨a', ha', hsign, hwritten⟩ := ofDigits?_medium hy a.negative
  have hread : a.writtenBinary? = some y := hread
  have hagain : a'.writtenBinary? = some y := by
    rw [← hwritten] at hagain
    rw [← hwritten]
    exact hagain
  refine ⟨a', ?_, ?_⟩
  · rw [readBack?_eq, hread]
    exact ha'
  · rw [readBack?_eq, hagain, hsign]
    exact ha'

end Amount

namespace Claim

/-- Are both amounts zero or of a moderate size? -/
def Moderate (c : Claim) : Prop :=
  c.dutiesPaid.Moderate ∧ c.drawbackClaimed.Moderate

instance (c : Claim) : Decidable c.Moderate := inferInstanceAs (Decidable (_ ∧ _))

/-- **After one reading a claim stays as it is.** -/
theorem readBack?_settles {c : Claim} (h : c.Moderate) :
    ∃ c', c.readBack? = some c' ∧ c'.readBack? = some c' := by
  obtain ⟨duties, hduties, hduties'⟩ := Amount.readBack?_settles h.1
  obtain ⟨drawback, hdrawback, hdrawback'⟩ := Amount.readBack?_settles h.2
  refine ⟨{ c with dutiesPaid := duties, drawbackClaimed := drawback }, ?_, ?_⟩
  · rw [readBack?, hduties, hdrawback]
    rfl
  · rw [readBack?, hduties', hdrawback']
    rfl

end Claim

end CustomsClaims
