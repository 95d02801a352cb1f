import CustomsClaims.Proofs.Amount.Value
import CustomsClaims.Proofs.Claim.Settled
import CustomsClaims.Proofs.Number.Short

/-!
# Amounts of at most fifteen digits

A whole number is written with a fraction of zero and read with ten times the number as significand.
Of an amount of at most fifteen digits this may be the one significand that has no room in a
mantissa; it is then rounded, and the rounded one divided by ten is another number for the amounts
of `Binary.Slips` (`Amount.Short.reread?_iff`).
-/

namespace CustomsClaims
namespace Binary

variable {b y : Binary} {s m N : Nat} {e t : Int}

/-! ## Significands without room -/

/-- **What a whole number is rounded to**: the nearest multiple of the last place. -/
theorem nearest_whole_spec {F : Nat} (hlow : 2 ^ (52 + F) ≤ s) (hhigh : s < 2 ^ (53 + F)) :
    ∃ n : Nat, (nearest s 1).value = n ∧ 2 ^ F ∣ n ∧ 2 * n ≤ 2 * s + 2 ^ F ∧
      2 * s ≤ 2 * n + 2 ^ F := by
  have hrounds := rounds_nearest_whole s
  have hnormal := @normal_nearest s 1 Nat.one_pos
  have hpos : (0 : ℚ) < 2 ^ F := by positivity
  have hlow : (2 : ℚ) ^ 52 * 2 ^ (F : Int) ≤ s := by
    rw [zpow_natCast, ← pow_add]
    exact_mod_cast hlow
  have hhigh : (s : ℚ) < 2 ^ 53 * 2 ^ F := by
    rw [← pow_add]
    exact_mod_cast hhigh
  have hexponent := exponent_of_bounds hnormal hrounds (by omega) hlow (by
    rw [zpow_natCast]
    linarith)
  generalize nearest s 1 = f at *
  rcases hexponent with heq | ⟨hsucc, hpower⟩
  · have hbelow := f.le_lower.trans hrounds.low
    have habove := hrounds.high
    rw [heq, zpow_natCast] at hbelow
    rw [upper, heq, zpow_natCast] at habove
    refine ⟨f.mantissa * 2 ^ F, ?_, Nat.dvd_mul_left _ _, ?_, ?_⟩
    · rw [value, heq, zpow_natCast]
      push_cast
      rfl
    · rw [← @Nat.cast_le ℚ]
      push_cast
      linarith
    · rw [← @Nat.cast_le ℚ]
      push_cast
      linarith
  · -- the next power of two
    have hbelow := hrounds.low
    rw [lower_of_power hpower (by omega), hpower, hsucc, zpow_add₀ (by norm_num), zpow_natCast,
      zpow_one] at hbelow
    refine ⟨2 ^ 53 * 2 ^ F, ?_, Nat.dvd_mul_left _ _, ?_, ?_⟩
    · rw [value, hpower, hsucc, zpow_add₀ (by norm_num), zpow_natCast, zpow_one]
      push_cast
      ring
    · rw [← @Nat.cast_le ℚ]
      push_cast at hbelow ⊢
      linarith
    · rw [← @Nat.cast_le ℚ]
      push_cast
      linarith

/-- Is ten times the number halfway between two numbers of the format, with the number itself in a
place finer by more than a tenth? -/
def Slips (N : Nat) : Prop :=
  2 ^ 55 ≤ 10 * N ∧ N < 2 ^ 52 ∧ N % 20 = 10 ∨ 2 ^ 56 ≤ 10 * N ∧ N < 2 ^ 53 ∧ N % 40 = 20

instance (N : Nat) : Decidable (Slips N) := inferInstanceAs (Decidable (_ ∨ _))

/-- **How far ten times a number moves when it is rounded**, for numbers below `2 ^ 53` that are
multiples of ten or have at most fifteen digits. -/
theorem nearest_tenfold (hten : 10 ∣ N ∨ N < 10 ^ 15) (hN : N < 2 ^ 53) :
    ∃ n : Nat, (nearest (10 * N) 1).value = n ∧
      (Slips N → 4 ≤ (n - 10 * N : Int).natAbs ∧ (2 ^ 52 ≤ N → 8 ≤ (n - 10 * N : Int).natAbs)) ∧
      (¬Slips N → n = 10 * N ∨ 2 ^ 52 ≤ N ∧ (n - 10 * N : Int).natAbs ≤ 4) := by
  unfold Slips
  have hten : 2 ^ 54 ≤ 10 * N → 10 ∣ N := by omega
  rcases Nat.lt_or_ge (10 * N) (2 ^ 53) with h53 | h53
  · exact ⟨10 * N, value_nearest_whole h53, by omega, by omega⟩
  rcases Nat.lt_or_ge (10 * N) (2 ^ 54) with h54 | h54
  · obtain ⟨n, hn, hdvd, hlow, hhigh⟩ := nearest_whole_spec (F := 1) h53 h54
    exact ⟨n, hn, by omega, by omega⟩
  rcases Nat.lt_or_ge (10 * N) (2 ^ 55) with h55 | h55
  · obtain ⟨n, hn, hdvd, hlow, hhigh⟩ := nearest_whole_spec (F := 2) h54 h55
    exact ⟨n, hn, by omega, by omega⟩
  rcases Nat.lt_or_ge (10 * N) (2 ^ 56) with h56 | h56
  · obtain ⟨n, hn, hdvd, hlow, hhigh⟩ := nearest_whole_spec (F := 3) h55 h56
    exact ⟨n, hn, by omega, by omega⟩
  · obtain ⟨n, hn, hdvd, hlow, hhigh⟩ := nearest_whole_spec (F := 4) h56 (by omega)
    exact ⟨n, hn, by omega, by omega⟩

/-! ## What short numbers are read as -/

section
variable (hb : b.Normal) (hrounds : b.Rounds N) (hN : N < 2 ^ 53)
include hb hrounds hN

/-- A whole number that the mantissa has room for is the only one that rounds to it. -/
theorem value_of_rounds_whole : b.value = N := by
  have hnearest : nearest N 1 = b := by
    rw [nearest_eq_iff hb Nat.one_pos, Nat.cast_one, div_one]
    exact hrounds
  rw [← hnearest]
  exact value_nearest_whole hN

/-- Where the number has whole places, what is less than half of one away rounds to it. -/
theorem rounds_tenth_of_near {n : Nat} (hfull : 2 ^ 52 < N) (hn : (n - 10 * N : Int).natAbs ≤ 4) :
    b.Rounds (n / 10) := by
  have hvalue := value_of_rounds_whole hb hrounds hN
  have hN : (N : ℚ) < 2 ^ 53 := by exact_mod_cast hN
  have hfull : (2 : ℚ) ^ 52 < N := by exact_mod_cast hfull
  have hexponent : b.exponent = 0 := by
    rcases exponent_of_bounds (e := 0) hb hrounds (by decide) (by linarith) (by linarith) with
      hzero | ⟨hone, hpower⟩
    · exact hzero
    · rw [← hvalue, value, hone, hpower] at hN
      norm_num at hN
  rw [value, hexponent, zpow_zero, mul_one] at hvalue
  have hpower : b.mantissa ≠ 2 ^ 52 := by
    intro hpower
    rw [← hvalue, hpower] at hfull
    norm_num at hfull
  have hpos : b.mantissa ≠ 0 := by
    intro hzero
    rw [← hvalue, hzero] at hfull
    norm_num at hfull
  have hlow : 10 * N ≤ n + 4 := by omega
  have hhigh : n ≤ 10 * N + 4 := by omega
  have hlow : 10 * (N : ℚ) ≤ n + 4 := by exact_mod_cast hlow
  have hhigh : (n : ℚ) ≤ 10 * N + 4 := by exact_mod_cast hhigh
  refine rounds_of_lt ?_ ?_
  · rw [lower_eq hpos fun h => hpower h.1, hexponent, zpow_zero, hvalue]
    linarith
  · rw [upper, hexponent, zpow_zero, hvalue]
    linarith

/-- What is more than half of a place away does not. -/
theorem near_of_rounds_tenth {n : Nat} (hfull : 2 ^ 52 ≤ b.mantissa) (hn : b.Rounds (n / 10)) :
    (n - 10 * N : Int).natAbs ≤ 5 ∧ (N < 2 ^ 52 → (n - 10 * N : Int).natAbs ≤ 2) := by
  have hvalue := value_of_rounds_whole hb hrounds hN
  have hpos : (0 : ℚ) < 2 ^ b.exponent := by positivity
  have hfull : (2 : ℚ) ^ 52 ≤ b.mantissa := by exact_mod_cast hfull
  have hplace : 2 ^ 52 * 2 ^ b.exponent ≤ (N : ℚ) := by
    rw [← hvalue, value]
    exact mul_le_mul_of_nonneg_right hfull hpos.le
  have hlow := b.le_lower.trans hn.low
  have hhigh := hn.high
  rw [upper] at hhigh
  rw [value] at hvalue
  have hexponent {i : Nat} (hi : N < 2 ^ (52 + i)) : (2 : ℚ) * 2 ^ b.exponent ≤ 2 ^ i := by
    have hi : (N : ℚ) < 2 ^ 52 * 2 ^ (i : Int) := by
      rw [zpow_natCast, ← pow_add]
      exact_mod_cast hi
    have hlt : (2 : ℚ) ^ b.exponent < 2 ^ (i : Int) := by linarith
    have hlt := (zpow_lt_zpow_iff_right₀ (by norm_num)).1 hlt
    rw [← zpow_natCast, ← zpow_one_add₀ (by norm_num)]
    exact zpow_le_zpow_right₀ (by norm_num) (by omega)
  constructor
  · have hone := hexponent (i := 1) hN
    rw [pow_one] at hone
    have hbelow : 10 * (N : ℚ) ≤ n + 5 := by linarith
    have hbelow : 10 * N ≤ n + 5 := by exact_mod_cast hbelow
    have habove : (n : ℚ) ≤ 10 * N + 5 := by linarith
    have habove : n ≤ 10 * N + 5 := by exact_mod_cast habove
    omega
  · intro hsmall
    have hhalf := hexponent (i := 0) hsmall
    rw [pow_zero] at hhalf
    have hbelow : 10 * (N : ℚ) < n + 3 := by linarith
    have hbelow : 10 * N < n + 3 := by exact_mod_cast hbelow
    have habove : (n : ℚ) < 10 * N + 3 := by linarith
    have habove : n < 10 * N + 3 := by exact_mod_cast habove
    omega

end

namespace Short

variable (h : b.Short m e)
include h

theorem coefficient_pos (tie : Tie) : 0 < (b.shortest tie).coefficient :=
  coefficient_shortest_pos h.normal h.mantissa_ne_zero tie

/-- A whole number of at most fifteen digits has no more, or ends in a zero. -/
theorem whole (hN : (m : ℚ) * 10 ^ e = N) : 10 ∣ N ∨ N < 10 ^ 15 := by
  have hm : (m : ℚ) < 10 ^ 15 := by exact_mod_cast h.lt
  rcases Int.lt_or_le 0 e with hpos | hneg
  · obtain ⟨k, hk⟩ := Int.eq_ofNat_of_zero_le (by omega : 0 ≤ e - 1)
    obtain rfl : e = (k + 1 : Nat) := by omega
    left
    rw [zpow_natCast] at hN
    have hN : m * 10 ^ (k + 1) = N := by exact_mod_cast hN
    exact ⟨m * 10 ^ k, by rw [← hN, pow_succ]; ring⟩
  · right
    have hone : (10 : ℚ) ^ e ≤ 1 := zpow_le_one_of_nonpos₀ (by norm_num) hneg
    have hle : (m : ℚ) * 10 ^ e ≤ m := mul_le_of_le_one_right (by positivity) hone
    have hlt : (N : ℚ) < 10 ^ 15 := by linarith
    exact_mod_cast hlt

variable (hle : b.value ≤ top.value)
include hle

/-- **A whole number of at most fifteen digits is read as it was unless it slips.** -/
theorem reread?_whole {n : Nat} (hpositional : (b.shortest .even).IsPositional)
    (hn : (b.shortest .even).exponent = .ofNat n) :
    b.reread? = some b ↔ ¬Slips ((b.shortest .even).coefficient * 10 ^ n) := by
  obtain ⟨hdigits, hlt⟩ :=
    Digits.scientific_whole (h.coefficient_pos .even).ne' hpositional hn
  have hrounds := rounds_shortest h.normal h.mantissa_ne_zero .even
  have hvalue := h.value_shortest .even
  obtain ⟨y, hy, hnormal, hread⟩ := reread?_eq_some h.normal hle hdigits (by decide) (by decide)
  rw [Digits.value, hn, Int.ofNat_eq_natCast, zpow_natCast] at hrounds hvalue
  generalize hc : (b.shortest .even).coefficient * 10 ^ n = N at *
  have hcast : ((b.shortest .even).coefficient : ℚ) * 10 ^ n = N := by exact_mod_cast hc
  rw [hcast] at hrounds hvalue
  have hten := h.whole hvalue.symm
  rcases Nat.lt_or_ge N (2 ^ 53) with hN | hN
  · obtain ⟨x, hx, hslips, hkeeps⟩ := nearest_tenfold hten hN
    rw [Nat.mul_comm, hx, zpow_neg_one, ← div_eq_mul_inv] at hread
    rw [hy, Option.some_inj]
    constructor
    · rintro rfl hslip
      have hfar := hslips hslip
      have hnear := near_of_rounds_tenth hnormal hrounds hN h.mantissa_ge hread
      omega
    · intro hslip
      refine hread.unique hnormal h.normal ?_
      rcases hkeeps hslip with rfl | ⟨hfull, hnear⟩
      · have hself := b.rounds_value
        rw [value_of_rounds_whole h.normal hrounds hN] at hself
        push_cast
        rwa [mul_div_cancel_left₀ _ (by norm_num)]
      · exact rounds_tenth_of_near h.normal hrounds hN (by omega) hnear
  · -- the last place is two, and tenths do not matter
    have hslips : ¬Slips N := by
      unfold Slips
      omega
    have hfull : (2 : ℚ) ^ 53 ≤ N := by exact_mod_cast hN
    have hlt : (N : ℚ) * 10 < 10 ^ 17 := by exact_mod_cast hlt
    have hone : b.exponent = 1 := by
      rcases exponent_of_bounds (e := 1) h.normal hrounds (by decide) (by linarith) (by linarith)
        with hone | ⟨htwo, hpower⟩
      · exact hone
      · have hlow := hrounds.low
        rw [lower_of_power hpower (by omega), hpower, htwo] at hlow
        norm_num at hlow
        linarith
    have hpower : b.mantissa ≠ 2 ^ 52 := by
      intro hpower
      have hhigh := hrounds.high
      rw [upper, hpower, hone] at hhigh
      have hhigh : (N : ℚ) ≤ 2 ^ 53 + 1 := by
        norm_num at hhigh ⊢
        linarith
      have hhigh : N ≤ 2 ^ 53 + 1 := by exact_mod_cast hhigh
      omega
    have hmedium : b.Medium := ⟨h.normal, by omega, by omega⟩
    exact iff_of_true (hmedium.reread?_whole hpower hpositional hn (by omega)) hslips

/-- A number that is not written as a whole number is read as it was. -/
theorem reread?_of_exponent (hlow : -22 ≤ (b.shortest .even).exponent)
    (hhigh : (b.shortest .even).exponent ≤ 22)
    (hwhole : ¬((b.shortest .even).IsPositional ∧ 0 ≤ (b.shortest .even).exponent)) :
    b.reread? = some b := by
  have hd : (b.shortest .even).scientific =
      ((b.shortest .even).coefficient, (b.shortest .even).exponent) := by
    rw [Digits.scientific, if_neg (h.coefficient_pos .even).ne', if_neg hwhole]
  have hlt : (b.shortest .even).coefficient < 2 ^ 53 :=
    ((h.coefficient_le .even).trans_lt h.lt).trans (by decide)
  obtain ⟨y, hy, hnormal, hread⟩ := reread?_eq_some h.normal hle hd hlow hhigh
  rw [value_nearest_whole hlt] at hread
  rw [hy, hread.unique hnormal h.normal (rounds_shortest h.normal h.mantissa_ne_zero .even)]

end Short

end Binary

namespace Amount

variable {a a' : Amount}

/-- Can the amount be written with at most fifteen significant digits? -/
def Short (a : Amount) : Prop :=
  ∃ (m : Nat) (e : Int), m < 10 ^ 15 ∧ a.magnitude = m * 10 ^ e

/-- Is the amount a whole number that is read as another one? -/
def Slips (a : Amount) : Prop := a.places = 0 ∧ Binary.Slips a.coefficient

instance (a : Amount) : Decidable a.Slips := inferInstanceAs (Decidable (_ ∧ _))

/-- The power of ten that a short amount has beside its digits is one that the format holds. -/
def ScalesExactly (a : Amount) : Prop := a.places ≤ 22 ∧ ¬10 ^ 23 ∣ a.coefficient

instance (a : Amount) : Decidable a.ScalesExactly := inferInstanceAs (Decidable (_ ∧ _))

namespace Short

/-- The digits of a short amount are on the grid of its places, or on a coarser one. -/
theorem digits (h : a.Short) :
    ∃ (m : Nat) (e : Int), m < 10 ^ 15 ∧ -(a.places : Int) ≤ e ∧ a.magnitude = m * 10 ^ e := by
  obtain ⟨m, e, hm, hvalue⟩ := h
  rcases Int.le_total (-(a.places : Int)) e with hle | hge
  · exact ⟨m, e, hm, hle, hvalue⟩
  have hmagnitude : a.magnitude = a.coefficient * 10 ^ (-(a.places : Int)) := by
    rw [magnitude, zpow_neg, zpow_natCast, div_eq_mul_inv]
  have hten : (0 : ℚ) < 10 ^ (-(a.places : Int)) := by positivity
  refine ⟨a.coefficient, _, lt_of_le_of_lt ?_ hm, le_rfl, hmagnitude⟩
  have hle : (a.coefficient : ℚ) * 10 ^ (-(a.places : Int)) ≤ m * 10 ^ (-(a.places : Int)) := by
    rw [← hmagnitude, hvalue]
    exact mul_le_mul_of_nonneg_left (zpow_le_zpow_right₀ (by norm_num) hge) (by positivity)
  exact_mod_cast le_of_mul_le_mul_right hle hten

theorem nearestBinary (h : a.Short) (h0 : a.coefficient ≠ 0) : ∃ (m : Nat) (e : Int),
    -(a.places : Int) ≤ e ∧ a.magnitude = m * 10 ^ e ∧ a.nearestBinary.Short m e := by
  obtain ⟨m, e, hm, hplaces, hvalue⟩ := h.digits
  exact ⟨m, e, hplaces, hvalue, a.normal_nearestBinary, mantissa_nearestBinary h0,
    hvalue ▸ a.rounds_nearestBinary, hm⟩

/-- The shortest digits of a short amount are its digits. -/
theorem shortest (h : a.Short) (h0 : a.coefficient ≠ 0) (tie : Tie) :
    (a.nearestBinary.shortest tie).value = a.magnitude ∧
      -(a.places : Int) ≤ (a.nearestBinary.shortest tie).exponent := by
  obtain ⟨m, e, hplaces, hvalue, hshort⟩ := h.nearestBinary h0
  exact ⟨(hshort.value_shortest tie).trans hvalue.symm, hplaces.trans (hshort.exponent_le tie)⟩

/-- The upper end of the amounts is no short number. -/
theorem storable (h : a.Short) : a.Storable := by
  by_contra hlarge
  have h0 : a.coefficient ≠ 0 := by
    intro hzero
    refine hlarge ?_
    rw [Storable, hzero]
    exact Nat.mul_pos (by decide) (Nat.pow_pos (by decide))
  have hvalue := (h.shortest h0 .even).1
  have hdigits : (⟨2 ^ 52, 44⟩ : Binary).shortest .even = ⟨7922816251426434, 13⟩ := by
    decide +kernel
  rw [nearestBinary_of_not_storable hlarge, hdigits, Digits.value] at hvalue
  have hlimit : (a.coefficient : ℚ) < 2 ^ 96 := by exact_mod_cast a.coefficient_lt
  have hle : a.magnitude ≤ a.coefficient :=
    div_le_self (by positivity) (one_le_pow₀ (by norm_num))
  rw [← hvalue] at hle
  norm_num at hle hlimit
  linarith

/-- Shortest digits without places are those of a whole number. -/
theorem coefficient_eq (h : a.Short) (h0 : a.coefficient ≠ 0) {n : Nat}
    (hn : (a.nearestBinary.shortest .even).exponent = .ofNat n) :
    a.places = 0 ∧ a.coefficient = (a.nearestBinary.shortest .even).coefficient * 10 ^ n := by
  refine places_of_magnitude ?_
  rw [← (h.shortest h0 .even).1, Digits.value, hn, Int.ofNat_eq_natCast, zpow_natCast]
  push_cast
  rfl

theorem exponent_le (h : a.Short) (h0 : a.coefficient ≠ 0) (hscales : a.ScalesExactly) :
    (a.nearestBinary.shortest .even).exponent ≤ 22 := by
  by_contra hlt
  obtain ⟨n, hn⟩ := Int.eq_ofNat_of_zero_le
    (by omega : 0 ≤ (a.nearestBinary.shortest .even).exponent)
  refine hscales.2 ?_
  rw [(h.coefficient_eq h0 hn).2]
  exact Dvd.dvd.mul_left (Nat.pow_dvd_pow 10 (by omega)) _

/-- A whole number that slips is short enough to be written in full. -/
theorem positional_of_slips (h : a.Short) (h0 : a.coefficient ≠ 0) (hslips : a.Slips) :
    (a.nearestBinary.shortest .even).IsPositional ∧
      0 ≤ (a.nearestBinary.shortest .even).exponent := by
  obtain ⟨hplaces, hslips⟩ := hslips
  have hexponent := (h.shortest h0 .even).2
  rw [hplaces] at hexponent
  obtain ⟨n, hn⟩ := Int.eq_ofNat_of_zero_le
    (by omega : 0 ≤ (a.nearestBinary.shortest .even).exponent)
  have hcoefficient := (h.coefficient_eq h0 hn).2
  have hpos : (a.nearestBinary.shortest .even).coefficient ≠ 0 := by
    intro hzero
    rw [hzero, Nat.zero_mul] at hcoefficient
    exact h0 hcoefficient
  have hlength : decimalLength (a.nearestBinary.shortest .even).coefficient - 1 + n < 16 := by
    refine (Nat.pow_lt_pow_iff_right (by decide : 1 < 10)).1 ?_
    calc 10 ^ (decimalLength (a.nearestBinary.shortest .even).coefficient - 1 + n)
        ≤ (a.nearestBinary.shortest .even).coefficient * 10 ^ n := by
          rw [Nat.pow_add]
          exact Nat.mul_le_mul_right _ (pow_decimalLength_le (Nat.pos_of_ne_zero hpos))
      _ < 10 ^ 16 := by
        rw [← hcoefficient]
        unfold Binary.Slips at hslips
        omega
  have hlength0 : 0 < decimalLength (a.nearestBinary.shortest .even).coefficient :=
    Nat.length_toDigits_pos
  refine ⟨.inr ?_, by omega⟩
  rw [Digits.leadingExponent, hn]
  omega

/-- **What a short amount is written as is read as it was unless the amount slips.** -/
theorem reread?_iff (h : a.Short) (h0 : a.coefficient ≠ 0) (hscales : a.ScalesExactly) :
    a.nearestBinary.reread? = some a.nearestBinary ↔ ¬a.Slips := by
  obtain ⟨m, e, -, -, hshort⟩ := h.nearestBinary h0
  by_cases hwhole : (a.nearestBinary.shortest .even).IsPositional ∧
      0 ≤ (a.nearestBinary.shortest .even).exponent
  · obtain ⟨n, hn⟩ := Int.eq_ofNat_of_zero_le hwhole.2
    obtain ⟨hplaces, hcoefficient⟩ := h.coefficient_eq h0 hn
    rw [hshort.reread?_whole h.storable.value_le_top hwhole.1 hn, ← hcoefficient, Slips,
      and_iff_right hplaces]
  · have hplaces := hscales.1
    have hlow := (h.shortest h0 .even).2
    refine iff_of_true ?_ (mt (h.positional_of_slips h0) hwhole)
    have hexponent := h.exponent_le h0 hscales
    exact hshort.reread?_of_exponent h.storable.value_le_top (by omega) hexponent hwhole

/-- **A short amount is read with its value** if what it is written as is read as it was. -/
theorem readBack?_of_reread? (h : a.Short) (h0 : a.coefficient ≠ 0)
    (hfixed : a.nearestBinary.reread? = some a.nearestBinary) :
    ∃ a', a.readBack? = some a' ∧ a'.value = a.value := by
  obtain ⟨hvalue, hplaces⟩ := h.shortest h0 .up
  have hle := a.places_le
  rw [maxPlaces] at hle
  obtain ⟨a', ha', -⟩ := @ofDigits?_storable a.negative _
    (Binary.coefficient_shortest_lt .up a.normal_nearestBinary)
    (Binary.value_shortest_lt a.normal_nearestBinary h.storable.value_le_top .up)
  obtain ⟨hsign, hmagnitude, -⟩ := ofDigits?_spec ha'
  have hmagnitude := hmagnitude (by omega)
  refine ⟨a', ?_, value_eq_of_magnitude (hmagnitude.trans hvalue) hsign⟩
  have hwritten : a.writtenBinary? = some a.nearestBinary := hfixed
  rw [readBack?_eq, hwritten]
  exact ha'

/-- Short amounts that do not slip read back. -/
theorem readBack?_of_not_slips (h : a.Short) (hscales : a.coefficient ≠ 0 → a.ScalesExactly)
    (hslips : ¬a.Slips) : ∃ a', a.readBack? = some a' ∧ a'.value = a.value := by
  by_cases h0 : a.coefficient = 0
  · refine ⟨zero, readBack?_zero h0, ?_⟩
    rw [value_eq_zero.2 h0]
    exact value_eq_zero.2 rfl
  · exact h.readBack?_of_reread? h0 ((h.reread?_iff h0 (hscales h0)).2 hslips)

end Short

/-- What slips is read with another value. -/
theorem readBack?_of_slips (h : a.Short) (hslips : a.Slips) (ha' : a.readBack? = some a') :
    a'.value ≠ a.value := by
  intro hvalue
  obtain ⟨hplaces, hwhole⟩ := id hslips
  have h0 : a.coefficient ≠ 0 := by
    unfold Binary.Slips at hwhole
    omega
  have hmoderate : a.Moderate := by
    unfold Binary.Slips at hwhole
    refine .inr ⟨?_, ?_⟩
    · rw [hplaces]
      omega
    · rw [hplaces]
      omega
  have hscales : a.ScalesExactly := by
    refine ⟨by omega, fun hdvd => ?_⟩
    have hle := Nat.le_of_dvd (Nat.pos_of_ne_zero h0) hdvd
    unfold Binary.Slips at hwhole
    omega
  obtain ⟨hmedium, hexponent⟩ := medium_nearestBinary hmoderate h0
  obtain ⟨y, hread, hy, -⟩ := hmedium.settles hexponent
  obtain ⟨x, hx, -, hwritten⟩ := ofDigits?_medium hy a.negative
  have hread' : a.writtenBinary? = some y := hread
  rw [readBack?_eq, hread', Option.bind_some, hx] at ha'
  obtain rfl := Option.some.inj ha'
  have hsame : x.nearestBinary = a.nearestBinary := by
    rcases eq_or_zero (value_eq_iff.1 hvalue) with rfl | ⟨-, hzero⟩
    · rfl
    · exact absurd hzero h0
  refine (h.reread?_iff h0 hscales).1 ?_ hslips
  rw [hread, ← hwritten, hsame]

/-- **Which amounts of at most fifteen digits read back unchanged**, as long as the format holds the
power of ten beside their digits: those that do not slip. -/
theorem readBack?_short_iff (h : a.Short) (hscales : a.coefficient ≠ 0 → a.ScalesExactly) :
    (∃ a', a.readBack? = some a' ∧ a'.value = a.value) ↔ ¬a.Slips := by
  refine ⟨?_, h.readBack?_of_not_slips hscales⟩
  rintro ⟨a', ha', hvalue⟩ hslips
  exact readBack?_of_slips h hslips ha' hvalue

/-- An amount of 1234.56 reads back. -/
theorem readBack?_short_six_digits :
    let a : Amount := ⟨false, 123456, 2, by decide, by decide, .inr (by decide)⟩
    a.Short ∧ ∃ a', a.readBack? = some a' ∧ a'.value = a.value := by
  intro a
  have hshort : a.Short := ⟨123456, -2, by decide, by norm_num [magnitude, a]⟩
  exact ⟨hshort, (readBack?_short_iff hshort fun _ => by decide).2 (by decide)⟩

/-- An amount of fifteen digits, 7205759403792820, is written as 7205759403792820.0 and read as
7205759403792819. -/
theorem readBack?_slipping :
    let a : Amount := ⟨false, 7205759403792820, 0, by decide, by decide, .inl rfl⟩
    let a' : Amount := ⟨false, 7205759403792819, 0, by decide, by decide, .inl rfl⟩
    a.Short ∧ a.readBack? = some a' ∧ a'.value ≠ a.value := by
  intro a a'
  refine ⟨⟨720575940379282, 1, by decide, by norm_num [magnitude, a]⟩, by decide +kernel, ?_⟩
  norm_num [value, magnitude, a, a']

end Amount
end CustomsClaims
