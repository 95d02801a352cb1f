import CustomsClaims.Proofs.Amount.Reread
import CustomsClaims.Proofs.Amount.Value
import CustomsClaims.Proofs.Number.Error
import Mathlib.Data.Sign.Defs

/-!
# How accurately an amount is read back

From the amount to the digits that it is read with, a number is rounded six times: to the binary
number that is written, to its digits, thrice when these are read (`Binary.near_ofScientific`), and
to the digits of the outcome. `Amount.readBack?_accurate`: so an amount that can be stored is read
as one that differs by less than a `2 ^ 50`-th part, and by what is lost when digits beyond the last
place are dropped.
-/

namespace CustomsClaims

namespace Binary

variable {b : Binary}

/-- The digits of a number that fills its mantissa are a rounding away from it. -/
theorem near_shortest (hb : b.Normal) (hfull : 2 ^ 52 ≤ b.mantissa) (tie : Tie) :
    Near 1 b.value (b.shortest tie).value :=
  (rounds_shortest hb (by omega) tie).near hfull

/-- **What is written is read with three roundings.** -/
theorem near_reread? {y : Binary} (hb : b.Normal) (hfull : 2 ^ 52 ≤ b.mantissa)
    (hlow : -200 ≤ b.exponent) (hhigh : b.exponent ≤ 44)
    (hsize : 1 / 10 ^ 30 ≤ (b.shortest .even).value) (hy : b.reread? = some y) :
    y.Normal ∧ 2 ^ 52 ≤ y.mantissa ∧ Near 3 y.value (b.shortest .even).value := by
  have hexponent : -100 ≤ (b.shortest .even).exponent := by
    have hpow : (10 : ℚ) ^ (-100 : Int) < 10 ^ ((b.shortest .even).exponent + 1) := by
      calc (10 : ℚ) ^ (-100 : Int) < 2 ^ (-202 : Int) := by norm_num
        _ ≤ 2 ^ (b.exponent - 2) := zpow_le_zpow_right₀ (by norm_num) (by omega)
        _ < 10 ^ ((b.shortest .even).exponent + 1) := (last_place_le hb (by omega) .even).1
    have hlt := (zpow_lt_zpow_iff_right₀ (by norm_num)).1 hpow
    omega
  have hvalue := (b.shortest .even).scientific_value
  have ht : -300 ≤ (b.shortest .even).scientific.2 := by
    unfold Digits.scientific
    split
    · decide
    · split
      · exact (by decide : (-300 : Int) ≤ -1)
      · dsimp only
        omega
  rw [reread?_eq hb hhigh] at hy
  rw [← hvalue] at hsize ⊢
  refine near_ofScientific ?_ ht hsize hy
  intro hzero
  rw [hzero, Nat.cast_zero, zero_mul] at hsize
  norm_num at hsize

end Binary

namespace Amount

variable {a a' : Amount}

/-- The amounts have the same sign, or one that was made of digits lost it with them. -/
theorem abs_value_sub (h : a'.negative = (a.negative && a'.coefficient ≠ 0)) :
    |a'.value - a.value| = |a'.magnitude - a.magnitude| := by
  unfold value
  rw [h]
  by_cases h0 : a'.coefficient = 0
  · have hzero := magnitude_eq_zero.2 h0
    cases a.negative <;> simp [hzero]
  · rw [decide_eq_true h0, Bool.and_true]
    cases a.negative with
    | false => rfl
    | true => rw [if_pos rfl, if_pos rfl, neg_sub_neg, abs_sub_comm]

theorem sign_value (h : a'.negative = (a.negative && a'.coefficient ≠ 0)) (h0 : a.coefficient ≠ 0) :
    a'.value = 0 ∨ SignType.sign a'.value = SignType.sign a.value := by
  by_cases h0' : a'.coefficient = 0
  · exact .inl (value_eq_zero.2 h0')
  right
  have hpos := magnitude_pos h0
  have hpos' := magnitude_pos h0'
  unfold value
  rw [h, decide_eq_true h0', Bool.and_true]
  cases a.negative with
  | false =>
    rw [if_neg Bool.false_ne_true, if_neg Bool.false_ne_true, sign_pos hpos', sign_pos hpos]
  | true =>
    rw [if_pos rfl, if_pos rfl, sign_neg (neg_neg_of_pos hpos'), sign_neg (neg_neg_of_pos hpos)]

theorem storable_iff : a.Storable ↔ |a.value| < 2 ^ 96 - 2 ^ 42 := by
  have hpos : (0 : ℚ) < 10 ^ a.places := by positivity
  have hlimit : (2 : ℚ) ^ 96 - 2 ^ 42 = storableLimit := by norm_num [storableLimit]
  rw [abs_value, hlimit, magnitude, div_lt_iff₀ hpos, Storable]
  exact_mod_cast Iff.rfl

/-- The digits that an amount is read with are six roundings away from it. -/
theorem near_writtenBinary? (h : a.Storable) (h0 : a.coefficient ≠ 0) :
    ∃ y, a.writtenBinary? = some y ∧ y.Normal ∧ y.value ≤ Binary.top.value ∧
      Near 6 (y.shortest .up).value a.magnitude := by
  have hnormal := a.normal_nearestBinary
  have hfull := mantissa_nearestBinary h0
  have hle := h.value_le_top
  have hexponent := Binary.exponent_le_top hnormal hle
  have hamount := a.rounds_nearestBinary.near hfull
  have hdigits := Binary.near_shortest hnormal hfull .even
  have hsize : 1 / 10 ^ 30 ≤ (a.nearestBinary.shortest .even).value := by
    have hge := (hdigits.symm.trans hamount).ge
    have hleast := le_magnitude h0
    have hfactor : roundingFactor ^ (1 + 1) ≤ 2 := by norm_num [roundingFactor]
    have hone := one_le_roundingFactor_pow (1 + 1)
    by_contra hlt
    nlinarith
  obtain ⟨y, hy, -, hyle⟩ := Binary.value?_shortest hnormal hle
  obtain ⟨hynormal, hyfull, hread⟩ := Binary.near_reread? hnormal hfull
    (le_exponent_nearestBinary h0) (by omega) hsize hy
  have hdone := (Binary.near_shortest hynormal hyfull .up).symm
  exact ⟨y, hy, hynormal, hyle, ((hdone.trans hread).trans hdigits.symm).trans hamount⟩

/-- **Amounts read back accurately**, with their sign. -/
theorem readBack?_accurate (h : |a.value| < 2 ^ 96 - 2 ^ 42) :
    ∃ a', a.readBack? = some a' ∧ |a'.value - a.value| ≤ |a.value| / 2 ^ 50 + 1 / 10 ^ 28 ∧
      (a'.value = 0 ∨ SignType.sign a'.value = SignType.sign a.value) := by
  by_cases h0 : a.coefficient = 0
  · refine ⟨zero, readBack?_zero h0, ?_, .inl (value_eq_zero.2 rfl)⟩
    rw [value_eq_zero.2 h0, value_eq_zero.2 rfl]
    norm_num
  obtain ⟨y, hy, hnormal, hle, hnear⟩ := near_writtenBinary? (storable_iff.2 h) h0
  have hlength := Binary.coefficient_shortest_lt .up hnormal
  obtain ⟨a', ha', -⟩ :=
    @ofDigits?_storable a.negative _ hlength (Binary.value_shortest_lt hnormal hle .up)
  obtain ⟨hsign, -, hdropped⟩ := ofDigits?_spec ha'
  refine ⟨a', by rw [readBack?_eq, hy]; exact ha', ?_, sign_value hsign h0⟩
  rw [abs_value_sub hsign, abs_value]
  have hrounded := hnear.abs_sub_le a.magnitude_nonneg
  calc |a'.magnitude - a.magnitude|
      ≤ |a'.magnitude - (y.shortest .up).value| + |(y.shortest .up).value - a.magnitude| :=
        abs_sub_le _ _ _
    _ ≤ 1 / 2 / 10 ^ 28 + a.magnitude / 2 ^ 50 := add_le_add hdropped hrounded
    _ ≤ a.magnitude / 2 ^ 50 + 1 / 10 ^ 28 := by linarith

/-- An amount of 28 digits is read as one of seventeen. -/
theorem readBack?_accurate_long :
    let a : Amount := ⟨true, 1234567890123456789012345678, 9, by decide, by decide, .inr (by decide)⟩
    |a.value| < 2 ^ 96 - 2 ^ 42 ∧ ∃ a', a.readBack? = some a' ∧
      |a'.value - a.value| ≤ |a.value| / 2 ^ 50 + 1 / 10 ^ 28 ∧
      (a'.value = 0 ∨ SignType.sign a'.value = SignType.sign a.value) := by
  intro a
  have hlt : |a.value| < 2 ^ 96 - 2 ^ 42 := storable_iff.1 (by decide)
  exact ⟨hlt, readBack?_accurate hlt⟩

end Amount
end CustomsClaims
