import CustomsClaims.Proofs.Number.Shortest

/-!
# Where the search for shortest digits ends

The search finds digits for every number (`Binary.searchGrid_shortest`), and they round to it
(`Binary.rounds_shortest`). Powers of two apart, where the interval is lopsided, they are the number
rounded to the grid (`Binary.onGrid?_even`), and every grid with steps below the last place has a point
in the interval (`Binary.onGrid?_ne_none`).
-/

namespace CustomsClaims
namespace Binary

variable {b : Binary} {tie : Tie} {k : Int}

/-! ## Grids -/

/-- The number, measured in steps of the grid. -/
theorem units_div_gridStep (b : Binary) (k : Int) :
    ((4 * b.mantissa * b.gridUnit k : Nat) : ℚ) / b.gridStep k = b.value / 10 ^ k := by
  have hscale := b.gridScale_pos k
  have hstep := b.cast_gridStep k 1
  rw [Nat.one_mul, Nat.cast_one, one_mul] at hstep
  rw [cast_gridUnit, hstep, mul_div_mul_left _ _ hscale.ne', two_zpow_sub_two, value]
  push_cast
  ring

/-- Does the interval of `b` reach as far from `b`, but for powers of two? -/
def Reaches (b : Binary) (k : Int) (distance : Nat) : Prop :=
  if b.mantissa % 2 = 0 then distance ≤ 2 * b.gridUnit k else distance < 2 * b.gridUnit k

theorem lt_of_reaches {x y : Nat} (hx : b.Reaches k x) (hy : ¬b.Reaches k y) : x < y := by
  unfold Reaches at hx hy
  by_cases heven : b.mantissa % 2 = 0
  · rw [if_pos heven] at hx hy
    omega
  · rw [if_neg heven] at hx hy
    omega

section
variable (h0 : b.mantissa ≠ 0) (hpower : b.mantissa ≠ 2 ^ 52)
include h0 hpower

/-- Whether the points before and after `b` round to it is a matter of their distance. -/
theorem inside_neighbours :
    (b.inside k (4 * b.mantissa * b.gridUnit k / b.gridStep k) ↔
      b.Reaches k (4 * b.mantissa * b.gridUnit k % b.gridStep k)) ∧
    (b.inside k (4 * b.mantissa * b.gridUnit k / b.gridStep k + 1) ↔
      b.Reaches k (b.gridStep k - 4 * b.mantissa * b.gridUnit k % b.gridStep k)) := by
  have hlow : b.lowEnd * b.gridUnit k + 2 * b.gridUnit k = 4 * b.mantissa * b.gridUnit k := by
    rw [← Nat.add_mul, lowEnd, if_neg fun h => hpower h.1]
    congr 1
    omega
  have hhigh : b.highEnd * b.gridUnit k = 4 * b.mantissa * b.gridUnit k + 2 * b.gridUnit k := by
    rw [highEnd, Nat.add_mul]
  generalize 4 * b.mantissa * b.gridUnit k = v at *
  have hdiv := Nat.div_add_mod' v (b.gridStep k)
  have hmod := Nat.mod_lt v (b.gridStep_pos k)
  have hnext : (v / b.gridStep k + 1) * b.gridStep k = v / b.gridStep k * b.gridStep k +
      b.gridStep k := Nat.succ_mul _ _
  unfold inside Reaches
  constructor
  · split
    all_goals
      rw [decide_eq_true_iff]
      omega
  · split
    all_goals
      rw [decide_eq_true_iff]
      omega

/-- **The digits on a grid are those of the number rounded to it.** -/
theorem onGrid?_even {c : Nat} (h : b.onGrid? .even k = some c) :
    c = roundHalfEven (4 * b.mantissa * b.gridUnit k) (b.gridStep k) := by
  obtain ⟨hbelow, habove⟩ := inside_neighbours (k := k) h0 hpower
  unfold onGrid? at h
  dsimp only at h
  rw [← gridUnit, ← gridStep] at h
  generalize 4 * b.mantissa * b.gridUnit k = v at *
  have hdiv := Nat.div_add_mod' v (b.gridStep k)
  have hmod := Nat.mod_lt v (b.gridStep_pos k)
  have hnext : (v / b.gridStep k + 1) * b.gridStep k = v / b.gridStep k * b.gridStep k +
      b.gridStep k := Nat.succ_mul _ _
  rw [roundHalfEven]
  split at h
  case h_1 =>
    split at h
    · cases h
      exact (if_pos (by omega)).symm
    · rw [if_neg (by omega)]
      split at h
      · cases h
        exact (if_pos (by omega)).symm
      · rw [if_neg (by omega)]
        split at h
        · cases h
          exact (if_pos ‹_›).symm
        · cases h
          exact (if_neg ‹_›).symm
  case h_2 hlow hhigh =>
    have hnear := lt_of_reaches (hbelow.1 hlow) (mt habove.2 (Bool.eq_false_iff.1 hhigh))
    cases h
    exact (if_pos (by omega)).symm
  case h_3 hlow hhigh =>
    have hnear := lt_of_reaches (habove.1 hhigh) (mt hbelow.2 (Bool.eq_false_iff.1 hlow))
    cases h
    rw [if_neg (by omega)]
    exact (if_pos (by omega)).symm
  case h_4 => cases h

/-- **There is a point in the interval on every grid with steps below the last place.** -/
theorem onGrid?_ne_none (hk : (10 : ℚ) ^ k < 2 ^ b.exponent) : b.onGrid? tie k ≠ none := by
  have hstep : b.gridStep k < 4 * b.gridUnit k := by
    have hone := b.cast_gridStep k 1
    rw [Nat.one_mul] at hone
    rw [← @Nat.cast_lt ℚ, hone, cast_gridUnit, mul_lt_mul_iff_right₀ (b.gridScale_pos k),
      two_zpow_sub_two]
    push_cast
    linarith
  intro hnone
  obtain ⟨hbelow, habove⟩ := inside_neighbours (k := k) h0 hpower
  rcases b.onGrid?_cases tie k with ⟨d, hd, -⟩ | ⟨-, hlow, hhigh⟩
  · rw [hnone] at hd
    cases hd
  · rw [hlow, Bool.false_eq_true, false_iff, Reaches] at hbelow
    rw [hhigh, Bool.false_eq_true, false_iff, Reaches] at habove
    by_cases heven : b.mantissa % 2 = 0
    · rw [if_pos heven] at hbelow habove
      omega
    · rw [if_neg heven] at hbelow habove
      omega

end

/-! ## The search -/

/-- The start is not much too coarse. -/
theorem startGrid_lt_value (h0 : b.mantissa ≠ 0) : (10 : ℚ) ^ (b.startGrid - 3) < b.value := by
  have hden : (b.fraction.2 : ℚ) < 10 ^ (decimalLength b.fraction.2 : Int) := by
    exact_mod_cast lt_pow_decimalLength b.fraction.2
  have hpos : 0 < b.fraction.1 := Nat.mul_pos (Nat.pos_of_ne_zero h0) (Nat.two_pow_pos _)
  have hlength : 0 < decimalLength b.fraction.1 := Nat.length_toDigits_pos
  have hnum : (10 : ℚ) ^ ((decimalLength b.fraction.1 : Int) - 1) ≤ b.fraction.1 := by
    have hexponent : (decimalLength b.fraction.1 : Int) - 1 =
        (decimalLength b.fraction.1 - 1 : Nat) := by omega
    rw [hexponent]
    exact_mod_cast pow_decimalLength_le hpos
  have hden0 : (0 : ℚ) < b.fraction.2 := by exact_mod_cast b.fraction_snd_pos
  rw [value_eq_fraction, lt_div_iff₀ hden0]
  calc (10 : ℚ) ^ (b.startGrid - 3) * b.fraction.2
      < 10 ^ (b.startGrid - 3) * 10 ^ (decimalLength b.fraction.2 : Int) :=
        mul_lt_mul_of_pos_left hden (by positivity)
    _ = 10 ^ ((decimalLength b.fraction.1 : Int) - 1) := by
      rw [← zpow_add₀ (by norm_num), startGrid]
      congr 1
      ring
    _ ≤ b.fraction.1 := hnum

theorem searchGrid_eq_none {tries : Nat} (h : b.searchGrid tie k tries = none) {j : Int}
    (hj : j ≤ k) (hlt : k - tries < j) : b.onGrid? tie j = none := by
  induction tries generalizing k with
  | zero => omega
  | succ tries ih =>
    unfold searchGrid at h
    split at h
    case h_1 => cases h
    case h_2 hnone =>
      by_cases heq : j = k
      · rw [heq]
        exact hnone
      · exact ih h (by omega) (by omega)

/-- **The search succeeds**, at the latest on a grid with steps of a quarter of the last place. -/
theorem searchGrid_shortest (hb : b.Normal) (h0 : b.mantissa ≠ 0) (tie : Tie) :
    b.searchGrid tie b.startGrid 22 = some (b.shortest tie) := by
  unfold shortest
  rw [if_neg (by simpa [isZero] using h0)]
  cases hsearch : b.searchGrid tie b.startGrid 22 with
  | some d => rfl
  | none =>
    have hnone := searchGrid_eq_none hsearch (j := b.startGrid - 21) (by omega) (by omega)
    have hfine := lt_ten_zpow_of_onGrid? h0 hnone
    have hcoarse := (startGrid_lt_value h0).trans (b.value_lt_upper.trans (upper_lt hb))
    have htwo : (2 : ℚ) ^ (b.exponent + 53) = 2 ^ (b.exponent - 2) * 2 ^ 55 := by
      rw [← zpow_natCast, ← zpow_add₀ (by norm_num)]
      congr 1
      push_cast
      ring
    have hten : (10 : ℚ) ^ (b.startGrid - 3) = 10 ^ (b.startGrid - 21) * 10 ^ 18 := by
      rw [← zpow_natCast, ← zpow_add₀ (by norm_num)]
      congr 1
      push_cast
      ring
    have hpos : (0 : ℚ) < 2 ^ (b.exponent - 2) := by positivity
    rw [htwo, hten] at hcoarse
    norm_num at hcoarse
    linarith

/-- **The shortest digits round to the number.** -/
theorem rounds_shortest (hb : b.Normal) (h0 : b.mantissa ≠ 0) (tie : Tie) :
    b.Rounds (b.shortest tie).value :=
  inside_iff.1 (inside_of_onGrid? (searchGrid_some (searchGrid_shortest hb h0 tie)).1)

/-- Only zero has the digit zero. -/
theorem coefficient_shortest_pos (hb : b.Normal) (h0 : b.mantissa ≠ 0) (tie : Tie) :
    0 < (b.shortest tie).coefficient := by
  have hrounds := rounds_shortest hb h0 tie
  have hone : (1 : ℚ) ≤ b.mantissa := by exact_mod_cast Nat.one_le_iff_ne_zero.2 h0
  have hlower : (0 : ℚ) < (b.mantissa - 1 / 2) * 2 ^ b.exponent :=
    mul_pos (by linarith) (by positivity)
  refine Nat.pos_of_ne_zero ?_
  intro hzero
  have hlow := b.le_lower.trans hrounds.low
  rw [Digits.value, hzero, Nat.cast_zero, zero_mul] at hlow
  exact absurd hlow (not_le.2 hlower)

/-- The grid is fine enough to have a point in the interval, but no finer, if it is not the first. -/
theorem last_place_le (hb : b.Normal) (h0 : b.mantissa ≠ 0) (tie : Tie) :
    (2 : ℚ) ^ (b.exponent - 2) < 10 ^ ((b.shortest tie).exponent + 1) ∧
      (b.mantissa ≠ 2 ^ 52 → (2 : ℚ) ^ b.exponent ≤ 10 ^ ((b.shortest tie).exponent + 1)) := by
  obtain ⟨-, -, -, hlast⟩ := searchGrid_some (searchGrid_shortest hb h0 tie)
  rcases hlast with hstart | hnone
  · have hvalue := b.value_lt_startGrid
    have hone : (1 : ℚ) ≤ b.mantissa := by exact_mod_cast Nat.one_le_iff_ne_zero.2 h0
    have hpos : (0 : ℚ) < 2 ^ b.exponent := by positivity
    have hle : (2 : ℚ) ^ b.exponent ≤ 10 ^ ((b.shortest tie).exponent + 1) := by
      calc (2 : ℚ) ^ b.exponent ≤ b.value := by
            rw [value]
            nlinarith
        _ ≤ 10 ^ (b.startGrid - 1) := hvalue.le
        _ ≤ 10 ^ ((b.shortest tie).exponent + 1) :=
            zpow_le_zpow_right₀ (by norm_num) (by omega)
    refine ⟨lt_of_lt_of_le ?_ hle, fun _ => hle⟩
    rw [two_zpow_sub_two]
    linarith
  · refine ⟨lt_ten_zpow_of_onGrid? h0 hnone, fun hpower => ?_⟩
    by_contra hlt
    exact onGrid?_ne_none h0 hpower (not_le.1 hlt) hnone

end Binary
end CustomsClaims
