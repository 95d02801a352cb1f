import CustomsClaims.Proofs.Number.Grid

/-!
# Decimal numbers of at most fifteen digits

`Binary.Short b m e`: the decimal number `m · 10 ^ e` of at most fifteen digits rounds to `b`. The
interval of `b` is then narrower than a step of the grid `10 ^ e`, and no other point of that grid
lies in it. So the shortest digits of `b` are those of the decimal number itself, however ties are
broken (`Binary.Short.value_shortest`).
-/

namespace CustomsClaims
namespace Binary

variable {b : Binary} {tie : Tie} {k : Int} {d : Nat}

/-- A grid with a point in the interval has one next to `b`. -/
theorem onGrid?_ne_none_of_rounds (h : b.Rounds (d * 10 ^ k)) : b.onGrid? tie k ≠ none := by
  intro hnone
  rcases b.onGrid?_cases tie k with ⟨c, hc, -⟩ | ⟨-, hlow, hhigh⟩
  · rw [hnone] at hc
    cases hc
  have hten : (0 : ℚ) < 10 ^ k := by positivity
  have hvalue := b.units_div_gridStep k
  have hstep : (0 : ℚ) < b.gridStep k := by exact_mod_cast b.gridStep_pos k
  rw [eq_div_iff hten.ne'] at hvalue
  generalize hc : 4 * b.mantissa * b.gridUnit k / b.gridStep k = c at hlow hhigh
  have hbelow : (c : ℚ) * 10 ^ k ≤ b.value := by
    rw [← hvalue, mul_le_mul_iff_left₀ hten, le_div_iff₀ hstep, ← hc]
    exact_mod_cast Nat.div_mul_le_self _ _
  have habove : b.value ≤ (c + 1 : Nat) * 10 ^ k := by
    have hlt := Nat.lt_mul_div_succ (4 * b.mantissa * b.gridUnit k) (b.gridStep_pos k)
    rw [Nat.mul_comm (b.gridStep k)] at hlt
    rw [← hvalue, mul_le_mul_iff_left₀ hten, div_le_iff₀ hstep, ← hc]
    exact_mod_cast hlt.le
  rcases Nat.lt_or_ge c d with hlt | hge
  · have hd : ((c + 1 : Nat) : ℚ) ≤ d := by exact_mod_cast hlt
    have hinside := b.rounds_value.between h habove (mul_le_mul_of_nonneg_right hd hten.le)
    rw [inside_iff.2 hinside] at hhigh
    cases hhigh
  · have hd : (d : ℚ) ≤ c := by exact_mod_cast hge
    have hinside := h.between b.rounds_value (mul_le_mul_of_nonneg_right hd hten.le) hbelow
    rw [inside_iff.2 hinside] at hlow
    cases hlow

/-- The interval is as wide as the last place at most. -/
theorem Rounds.sub_le {p q : ℚ} (hp : b.Rounds p) (hq : b.Rounds q) : p - q ≤ 2 ^ b.exponent := by
  have hlow := b.le_lower.trans hq.low
  have hhigh := hp.high
  rw [upper] at hhigh
  linarith

/-- The number `m · 10 ^ e` of at most fifteen digits rounds to `b`. -/
structure Short (b : Binary) (m : Nat) (e : Int) : Prop where
  normal : b.Normal
  mantissa_ge : 2 ^ 52 ≤ b.mantissa
  rounds : b.Rounds (m * 10 ^ e)
  lt : m < 10 ^ 15

namespace Short

variable {m : Nat} {e : Int} (h : b.Short m e)
include h

theorem mantissa_ne_zero : b.mantissa ≠ 0 := by
  have hge := h.mantissa_ge
  omega

/-- Fifteen digits are less than a mantissa holds. -/
theorem place_lt : 4 * 2 ^ b.exponent < (10 : ℚ) ^ e := by
  have hten : (0 : ℚ) < 10 ^ e := by positivity
  have htwo : (0 : ℚ) < 2 ^ b.exponent := by positivity
  have hmantissa : (2 : ℚ) ^ 52 ≤ b.mantissa := by exact_mod_cast h.mantissa_ge
  have hm : (m : ℚ) ≤ 10 ^ 15 := by exact_mod_cast h.lt.le
  have hlow := b.le_lower.trans h.rounds.low
  have hplace : (2 ^ 52 - 1 / 2 : ℚ) * 2 ^ b.exponent ≤ 10 ^ 15 * 10 ^ e :=
    calc (2 ^ 52 - 1 / 2 : ℚ) * 2 ^ b.exponent ≤ (b.mantissa - 1 / 2) * 2 ^ b.exponent :=
          mul_le_mul_of_nonneg_right (by linarith) htwo.le
      _ ≤ m * 10 ^ e := hlow
      _ ≤ 10 ^ 15 * 10 ^ e := mul_le_mul_of_nonneg_right hm hten.le
  norm_num at hplace
  linarith

/-- **No other point of the grid rounds to the number.** -/
theorem eq_of_rounds (hk : e ≤ k) (hd : b.Rounds (d * 10 ^ k)) : (d : ℚ) * 10 ^ k = m * 10 ^ e := by
  obtain ⟨n, hn⟩ := Int.eq_ofNat_of_zero_le (Int.sub_nonneg_of_le hk)
  have hten : (0 : ℚ) < 10 ^ e := by positivity
  have hpoint : (d : ℚ) * 10 ^ k = (d * 10 ^ n : Nat) * 10 ^ e := by
    obtain rfl : k = n + e := by omega
    rw [zpow_add₀ (by norm_num), zpow_natCast, ← mul_assoc]
    push_cast
    rfl
  rw [hpoint] at hd ⊢
  generalize d * 10 ^ n = c at *
  have hplace := h.place_lt
  have htwo : (0 : ℚ) < 2 ^ b.exponent := by positivity
  have habove : (c : ℚ) < m + 1 := by
    have hle := hd.sub_le h.rounds
    refine lt_of_mul_lt_mul_right ?_ hten.le
    linarith
  have hbelow : (m : ℚ) < c + 1 := by
    have hle := h.rounds.sub_le hd
    refine lt_of_mul_lt_mul_right ?_ hten.le
    linarith
  have habove : c < m + 1 := by exact_mod_cast habove
  have hbelow : m < c + 1 := by exact_mod_cast hbelow
  rw [show c = m by omega]

/-- The search does not pass the grid of the number. -/
theorem exponent_le (tie : Tie) : e ≤ (b.shortest tie).exponent := by
  obtain ⟨-, -, -, hlast⟩ := searchGrid_some (searchGrid_shortest h.normal h.mantissa_ne_zero tie)
  by_contra hlt
  rcases hlast with hstart | hnone
  · -- the grid that the search starts from is coarser than the number
    have hm : (1 : ℚ) ≤ m := by
      have hpos : (0 : ℚ) < m * 10 ^ e := by
        refine lt_of_lt_of_le ?_ (b.le_lower.trans h.rounds.low)
        have hmantissa : (2 : ℚ) ^ 52 ≤ b.mantissa := by exact_mod_cast h.mantissa_ge
        have htwo : (0 : ℚ) < 2 ^ b.exponent := by positivity
        exact mul_pos (by linarith) htwo
      have hm : (0 : ℚ) < m := pos_of_mul_pos_left hpos (by positivity)
      exact_mod_cast hm
    have hvalue := b.value_lt_startGrid
    have hwide := h.rounds.sub_le b.rounds_value
    have hplace := h.place_lt
    have hten : (0 : ℚ) < 10 ^ e := by positivity
    have hstep : (10 : ℚ) ^ e ≤ m * 10 ^ e := le_mul_of_one_le_left hten.le hm
    have hcoarse : (10 : ℚ) ^ (b.startGrid - 1) ≤ 10 ^ e / 10 := by
      rw [div_eq_mul_inv, ← zpow_sub_one₀ (by norm_num)]
      exact zpow_le_zpow_right₀ (by norm_num) (by omega)
    linarith
  · obtain ⟨n, hn⟩ := Int.eq_ofNat_of_zero_le (by omega : 0 ≤ e - ((b.shortest tie).exponent + 1))
    refine onGrid?_ne_none_of_rounds (d := m * 10 ^ n) ?_ hnone
    have hpoint : ((m * 10 ^ n : Nat) : ℚ) * 10 ^ ((b.shortest tie).exponent + 1) = m * 10 ^ e := by
      obtain rfl : e = n + ((b.shortest tie).exponent + 1) := by omega
      rw [zpow_add₀ (by norm_num) (n : Int), zpow_natCast, ← mul_assoc]
      push_cast
      rfl
    rw [hpoint]
    exact h.rounds

/-- **The shortest digits are those of the number.** -/
theorem value_shortest (tie : Tie) : (b.shortest tie).value = m * 10 ^ e :=
  h.eq_of_rounds (h.exponent_le tie) (rounds_shortest h.normal h.mantissa_ne_zero tie)

theorem coefficient_le (tie : Tie) : (b.shortest tie).coefficient ≤ m := by
  have hten : (0 : ℚ) < 10 ^ e := by positivity
  have hle : ((b.shortest tie).coefficient : ℚ) * 10 ^ e ≤ m * 10 ^ e := by
    rw [← h.value_shortest tie, Digits.value]
    exact mul_le_mul_of_nonneg_left (zpow_le_zpow_right₀ (by norm_num) (h.exponent_le tie))
      (by positivity)
  exact_mod_cast le_of_mul_le_mul_right hle hten

end Short
end Binary
end CustomsClaims
