import CustomsClaims.Proofs.Amount.Reread

/-!
# Written numbers settle when they are read

A significand without room in a mantissa is rounded before it is scaled, and the number may be read as
another one, `y`. `Binary.Medium.settles`: `y` is then read as itself. The rounded significand stands for
a number that is rounded to `y`; the significand of `y` is no further from it than the first one was
(`Binary.Fine.rounds_again`) and is therefore rounded to it again.
-/

namespace CustomsClaims
namespace Binary

variable {b y : Binary} {s : Nat} {t : Int}

/-! ## Significands of seventeen digits -/

theorem value_eq_natCast (h : 0 ≤ b.exponent) :
    b.value = (b.mantissa * 2 ^ b.exponent.toNat : Nat) := by
  obtain ⟨n, hn⟩ := Int.eq_ofNat_of_zero_le h
  rw [value, hn, Int.toNat_natCast, zpow_natCast]
  push_cast
  rfl

theorem one_le_exponent_nearest (hs : 2 ^ 53 ≤ s) : 1 ≤ (nearest s 1).exponent := by
  refine le_exponent (normal_nearest Nat.one_pos) (rounds_nearest_whole s) ?_
  have hs : (2 : ℚ) ^ 53 ≤ s := by exact_mod_cast hs
  rw [zpow_one]
  linarith

section
variable (hb : b.Medium) (h : b.Fine s t)
include hb h

theorem Fine.lt : s < 10 ^ 17 := by
  have hlow := h.near.low
  have hpos : (0 : ℚ) < 10 ^ t := by positivity
  have hstep := h.le_step
  have hmantissa : (b.mantissa : ℚ) ≤ 2 ^ 53 := by exact_mod_cast hb.normal.mantissa_lt.le
  have hvalue : b.value ≤ 2 ^ 53 * (10 * 10 ^ t) := by
    rw [zpow_add₀ (by norm_num), zpow_one, mul_comm] at hstep
    exact mul_le_mul hmantissa hstep (by positivity) (by positivity)
  have hvalue : b.value / 10 ^ t ≤ 2 ^ 53 * 10 := by
    rw [div_le_iff₀ hpos]
    linarith
  have hlt : (s : ℚ) < 10 ^ 17 := by linarith
  exact_mod_cast hlt

theorem Fine.exponent_le : t ≤ 6 := by
  have hpow : (10 : ℚ) ^ t < 10 ^ (7 : Int) := by
    calc (10 : ℚ) ^ t < 2 ^ b.exponent := h.step_lt
      _ ≤ 2 ^ (22 : Int) := zpow_le_zpow_right₀ (by norm_num) hb.exponent_le
      _ < 10 ^ (7 : Int) := by norm_num
  have hlt := (zpow_lt_zpow_iff_right₀ (by norm_num)).1 hpow
  omega

omit hb in
/-- Rounding the significand changes the number by half of the last place at most, and the grid is finer
than that place. -/
theorem Fine.scaled (hs : 2 ^ 53 ≤ s) :
    (nearest s 1).value * 10 ^ t * (1 - 1 / 2 ^ 53) < (b.mantissa + 1 / 2) * 2 ^ b.exponent ∧
      (b.mantissa - 1 / 2) * 2 ^ b.exponent < (nearest s 1).value * 10 ^ t * (1 + 1 / 2 ^ 53) := by
  have hexponent := one_le_exponent_nearest hs
  have hrounds := rounds_nearest_whole s
  have hnormal := @normal_nearest s 1 Nat.one_pos
  generalize nearest s 1 = f at *
  have hten : (0 : ℚ) < 10 ^ t := by positivity
  have hplace : (0 : ℚ) < 2 ^ f.exponent := by positivity
  have hfull : (2 : ℚ) ^ 52 ≤ f.mantissa := by exact_mod_cast hnormal.mantissa_ge (by omega)
  have hlast : 2 ^ 52 * 2 ^ f.exponent ≤ f.value := mul_le_mul_of_nonneg_right hfull hplace.le
  have hlow := f.le_lower.trans hrounds.low
  have hhigh := hrounds.high
  rw [upper] at hhigh
  rw [value] at hlast ⊢
  have hbelow : (f.mantissa : ℚ) * 2 ^ f.exponent * (1 - 1 / 2 ^ 53) ≤ s := by linarith
  have habove : (s : ℚ) ≤ f.mantissa * 2 ^ f.exponent * (1 + 1 / 2 ^ 53) := by linarith
  have hbelow := mul_le_mul_of_nonneg_right hbelow hten.le
  have habove := mul_le_mul_of_nonneg_right habove hten.le
  have hnearlow := h.near.low
  have hnearhigh := h.near.high
  have hstep := h.step_lt
  rw [le_div_iff₀ hten, value] at hnearlow
  rw [div_le_iff₀ hten, value] at hnearhigh
  constructor
  · linarith
  · linarith

variable (hs : 2 ^ 53 ≤ s) (hpower : b.mantissa ≠ 2 ^ 52)
include hs hpower

theorem Fine.bounds :
    2 ^ 52 * 2 ^ b.exponent ≤ (nearest s 1).value * 10 ^ t ∧
      (nearest s 1).value * 10 ^ t < (2 ^ 53 + 1) * 2 ^ b.exponent := by
  obtain ⟨hbelow, habove⟩ := h.scaled hs
  have htwo : (0 : ℚ) < 2 ^ b.exponent := by positivity
  have hge := hb.mantissa_ge
  have hmin : (2 : ℚ) ^ 52 + 1 ≤ b.mantissa := by
    have hmin : 2 ^ 52 + 1 ≤ b.mantissa := by omega
    exact_mod_cast hmin
  have hmax : (b.mantissa : ℚ) + 1 ≤ 2 ^ 53 := by exact_mod_cast hb.normal.mantissa_lt
  have hmin := mul_le_mul_of_nonneg_right hmin htwo.le
  have hmax := mul_le_mul_of_nonneg_right hmax htwo.le
  constructor
  · linarith
  · linarith

/-- Only from the numbers beside it a power of two is reached. -/
theorem Fine.beside_power (hmantissa : y.mantissa = 2 ^ 52)
    (hexponent : y.exponent = b.exponent ∨ y.exponent = b.exponent + 1)
    (hrounds : y.Rounds ((nearest s 1).value * 10 ^ t)) :
    b = ⟨2 ^ 52 + 1, y.exponent⟩ ∨ b = ⟨2 ^ 53 - 1, y.exponent - 1⟩ := by
  obtain ⟨hbelow, habove⟩ := h.scaled hs
  have htwo : (0 : ℚ) < 2 ^ b.exponent := by positivity
  have hge := hb.mantissa_ge
  have hlt := hb.normal.mantissa_lt
  have hlow := hrounds.low
  have hhigh := hrounds.high
  obtain ⟨m, e⟩ := b
  dsimp only at *
  rcases hexponent with heq | hsucc
  · left
    rw [upper, hmantissa, heq] at hhigh
    have hle : (m : ℚ) < 2 ^ 52 + 2 := by
      refine lt_of_mul_lt_mul_right ?_ htwo.le
      push_cast at hhigh
      linarith
    have hle : m < 2 ^ 52 + 2 := by exact_mod_cast hle
    rw [heq]
    congr 1
    omega
  · right
    have hlarge := hb.exponent_ge
    dsimp only at hlarge
    rw [lower_of_power hmantissa (by omega), hmantissa, hsucc, zpow_add₀ (by norm_num), zpow_one]
      at hlow
    have hle : (2 : ℚ) ^ 53 < m + 2 := by
      refine lt_of_mul_lt_mul_right ?_ htwo.le
      push_cast at hlow
      linarith
    have hle : 2 ^ 53 < m + 2 := by exact_mod_cast hle
    rw [hsucc, Int.add_sub_cancel]
    congr 1
    omega

end

/-! ## The second reading -/

/-- What significands that are powers of two are rounded to is read as itself. -/
theorem fixed_nearest_power : ∀ i : Nat, i < 4 → ∀ n : Nat, n < 29 →
    (nearest (2 ^ (53 + i) * 10 ^ n) (10 ^ 22)).Fixed := by
  decide +kernel

theorem Medium.reread?_nearest_power {f : Binary} (hy : y.Medium) (hf : f.mantissa = 2 ^ 52)
    (hlow : 1 ≤ f.exponent) (hhigh : f.exponent < 5) (hge : -22 ≤ t) (hle : t ≤ 6)
    (h : y.Rounds (f.value * 10 ^ t)) : y.reread? = some y := by
  obtain ⟨i, hi⟩ := Int.eq_ofNat_of_zero_le (by omega : 0 ≤ f.exponent - 1)
  obtain ⟨n, hn⟩ := Int.eq_ofNat_of_zero_le (by omega : 0 ≤ t + 22)
  have hvalue : f.value * 10 ^ t =
      (2 ^ (53 + i) * 10 ^ n : Nat) / (10 ^ 22 : Nat) := by
    obtain rfl : t = n - 22 := by omega
    have hexponent : f.exponent = i + 1 := by omega
    rw [value, hf, hexponent, zpow_sub₀ (by norm_num), zpow_add₀ (by norm_num)]
    push_cast
    rw [pow_add]
    norm_num
    ring
  rw [hvalue] at h
  have hnearest := (nearest_eq_iff hy.normal (by norm_num)).2 h
  refine hy.reread?_of_fixed ?_
  rw [← hnearest]
  exact fixed_nearest_power i (by omega) n (by omega)

/-- Of two numbers with the same last place, the larger one has the larger significand. -/
theorem Fine.gap {s' : Nat} (h : b.Fine s t) (h' : y.Fine s' t) (hexponent : y.exponent = b.exponent)
    (hlt : b.mantissa < y.mantissa) : b.value + 2 ^ b.exponent ≤ y.value ∧ s ≤ s' := by
  have hten : (0 : ℚ) < 10 ^ t := by positivity
  have htwo : (0 : ℚ) < 2 ^ b.exponent := by positivity
  have hmantissa : (b.mantissa : ℚ) + 1 ≤ y.mantissa := by exact_mod_cast hlt
  have hgap : b.value + 2 ^ b.exponent ≤ y.value := by
    rw [value, value, hexponent, ← add_one_mul]
    exact mul_le_mul_of_nonneg_right hmantissa htwo.le
  have hsteps : b.value / 10 ^ t + 1 ≤ y.value / 10 ^ t := by
    rw [div_add_one hten.ne', div_le_div_iff_of_pos_right hten]
    linarith [h.step_lt]
  have hle : (s : ℚ) ≤ s' := by linarith [h.near.low, h'.near.high]
  exact ⟨hgap, by exact_mod_cast hle⟩

/-- **The significand of the second reading is rounded like that of the first.** The number that the
rounded significand `n` stands for is rounded to `y`, away from `b`; the significand of `y` is then no
further from `n` than that of `b`. -/
theorem Fine.rounds_again {f : Binary} {s' n : Nat} (h : b.Fine s t) (h' : y.Fine s' t)
    (hexponent : y.exponent = b.exponent) (hne : y.mantissa ≠ b.mantissa)
    (hy : y.Rounds (f.value * 10 ^ t)) (hf : f.Rounds s) (hn : f.value = n) (h0 : f.mantissa ≠ 0)
    (hpower : f.mantissa ≠ 2 ^ 52) : f.Rounds s' := by
  have hreflect := hf.reflect h0 hpower
  have hten : (0 : ℚ) < 10 ^ t := by positivity
  have hlow := y.le_lower.trans hy.low
  have hhigh := hy.high
  have hvalue : y.value = y.mantissa * 2 ^ y.exponent := rfl
  rw [hn] at hreflect hlow hhigh
  rw [upper] at hhigh
  rcases Nat.lt_or_gt_of_ne hne with hlt | hgt
  · obtain ⟨hgap, hle⟩ := h'.gap h hexponent.symm hlt
    have hmean : 2 * (n : ℚ) ≤ b.value / 10 ^ t + y.value / 10 ^ t := by
      rw [← add_div, le_div_iff₀ hten]
      linarith
    have hsum := h.near.le_add h'.near hmean
    have hsum : 2 * (n : ℚ) ≤ s + s' := by exact_mod_cast hsum
    exact hreflect.between hf (by linarith) (by exact_mod_cast hle)
  · obtain ⟨hgap, hle⟩ := h.gap h' hexponent hgt
    have hmean : b.value / 10 ^ t + y.value / 10 ^ t ≤ 2 * (n : ℚ) := by
      rw [← add_div, div_le_iff₀ hten]
      rw [← hexponent] at hgap
      linarith
    have hsum := h.near.add_le h'.near hmean
    have hsum : (s : ℚ) + s' ≤ 2 * n := by exact_mod_cast hsum
    exact hf.between hreflect (by exact_mod_cast hle) (by linarith)

/-- The power of ten that suits a number depends on its last place only. -/
theorem Fine.exponent_unique {s' : Nat} {t' : Int} (h : b.Fine s t) (h' : y.Fine s' t')
    (hexponent : y.exponent = b.exponent) : t' = t := by
  have hlt := h.step_lt.trans_le (hexponent ▸ h'.le_step)
  have hgt := h'.step_lt.trans_le (hexponent ▸ h.le_step)
  have hlt := (zpow_lt_zpow_iff_right₀ (by norm_num)).1 hlt
  have hgt := (zpow_lt_zpow_iff_right₀ (by norm_num)).1 hgt
  omega

/-- A number that is read as a power of two is that power, or the power is read as itself. -/
theorem Fine.settles_power (hb : b.Medium) (hpower : b.mantissa ≠ 2 ^ 52) (hs : 2 ^ 53 ≤ s)
    (h : b.Fine s t) (hy : y.Medium) (hmantissa : y.mantissa = 2 ^ 52)
    (hexponent : y.exponent = b.exponent ∨ y.exponent = b.exponent + 1)
    (hread : b.reread? = some y) (hrounds : y.Rounds ((nearest s 1).value * 10 ^ t)) :
    y.reread? = some y := by
  obtain hfixed | ⟨-, -, hbefore, hafter⟩ := hy.reread?_power hmantissa
  · exact hfixed
  -- a number beside the power is read as itself
  have hfixed : b.Fixed := by
    rcases h.beside_power hb hs hpower hmantissa hexponent hrounds with heq | heq
    · rw [heq]
      exact hafter
    · rw [heq]
      exact hbefore
  obtain rfl : b = y := Option.some.inj ((hb.reread?_of_fixed hfixed).symm.trans hread)
  exact hread

/-- Where the second significand is rounded like the first, the second reading gives the same. -/
theorem Fine.settles_beside (hs : 2 ^ 53 ≤ s) (h : b.Fine s t) (hy : y.Medium)
    (hpower : y.mantissa ≠ 2 ^ 52) (hexponent : y.exponent = b.exponent)
    (hne : y.mantissa ≠ b.mantissa) (hfull : (nearest s 1).mantissa ≠ 2 ^ 52)
    (hrounds : y.Rounds ((nearest s 1).value * 10 ^ t)) : y.reread? = some y := by
  obtain ⟨s', t', hd'⟩ : ∃ s' t', (y.shortest .even).scientific = (s', t') := ⟨_, _, rfl⟩
  rcases hy.reread?_or_fine hpower hd' with hfixed | ⟨-, h'⟩
  · exact hfixed
  obtain rfl := h.exponent_unique h' hexponent
  have hlarge := one_le_exponent_nearest hs
  have hsignificand := @normal_nearest s 1 Nat.one_pos
  have hge := hsignificand.mantissa_ge (by omega)
  have hagain : (nearest s 1).Rounds s' := h.rounds_again h' hexponent hne hrounds
    (rounds_nearest_whole s) (value_eq_natCast (by omega)) (by omega) hfull
  have hnearest : nearest s' 1 = nearest s 1 := by
    rw [nearest_eq_iff hsignificand Nat.one_pos, Nat.cast_one, div_one]
    exact hagain
  obtain ⟨z, hz, hnormal, hrounds'⟩ := hy.reread?_eq_some hpower hd'
  rw [hnearest] at hrounds'
  rw [hz, hrounds'.unique hnormal hy.normal hrounds]

/-- What a number with a significand without room is read as reads back. -/
theorem Fine.settles (hb : b.Medium) (hpower : b.mantissa ≠ 2 ^ 52) (hs : 2 ^ 53 ≤ s)
    (h : b.Fine s t) (ht : -22 ≤ t) (hy : y.Medium) (hread : b.reread? = some y)
    (hrounds : y.Rounds ((nearest s 1).value * 10 ^ t)) : y.reread? = some y := by
  obtain ⟨hlow, hhigh⟩ := h.bounds hb hs hpower
  have hge := hb.exponent_ge
  have hexponents := exponent_of_bounds hy.normal hrounds (by omega) hlow hhigh
  by_cases hpower' : y.mantissa = 2 ^ 52
  · exact h.settles_power hb hpower hs hy hpower' (by omega) hread hrounds
  have hexponent := hexponents.resolve_right fun h => hpower' h.2
  by_cases hfull : (nearest s 1).mantissa = 2 ^ 52
  · have hsmall := exponent_nearest_lt (h.lt hb)
    exact hy.reread?_nearest_power hfull (one_le_exponent_nearest hs) hsmall ht (h.exponent_le hb)
      hrounds
  by_cases hsame : y.mantissa = b.mantissa
  · obtain rfl : y = b := by
      obtain ⟨m, e⟩ := b
      obtain ⟨m', e'⟩ := y
      dsimp only at hsame hexponent
      rw [hsame, hexponent]
    exact hread
  · exact h.settles_beside hs hy hpower' hexponent hsame hfull hrounds

/-- **After one reading a number stays as it is.** -/
theorem Medium.settles (hb : b.Medium) (he : b.exponent ≠ 22) :
    ∃ y, b.reread? = some y ∧ y.Medium ∧ y.reread? = some y := by
  by_cases hpower : b.mantissa = 2 ^ 52
  · obtain hfixed | ⟨hge, hread, hbefore, -⟩ := hb.reread?_power hpower
    · exact ⟨b, hfixed, hb, hfixed⟩
    · have hle := hb.exponent_le
      have hy : (⟨2 ^ 53 - 1, b.exponent - 1⟩ : Binary).Medium :=
        ⟨⟨by norm_num, by dsimp only; omega, by norm_num⟩, by dsimp only; omega,
          by dsimp only; omega⟩
      exact ⟨_, hread, hy, hy.reread?_of_fixed hbefore⟩
  obtain ⟨s, t, hd⟩ : ∃ s t, (b.shortest .even).scientific = (s, t) := ⟨_, _, rfl⟩
  rcases hb.reread?_or_fine hpower hd with hfixed | ⟨hs, h⟩
  · exact ⟨b, hfixed, hb, hfixed⟩
  obtain ⟨y, hread, hnormal, hrounds⟩ := hb.reread?_eq_some hpower hd
  obtain ⟨hlow, hhigh⟩ := h.bounds hb hs hpower
  have hge := hb.exponent_ge
  have hle := hb.exponent_le
  have hexponent := exponent_of_bounds hnormal hrounds (by omega) hlow hhigh
  have hy : y.Medium := ⟨hnormal, by omega, by omega⟩
  exact ⟨y, hread, hy, h.settles hb hpower hs (hb.exponent_scientific hpower hd).1 hy hread hrounds⟩

end Binary
end CustomsClaims
