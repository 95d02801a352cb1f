import CustomsClaims.Number.Layout
import CustomsClaims.Number.Numeral

/-!
# Decimal digits

The digits that `Nat.toDigits` writes start with no zero unless they are a single one
(`eq_zero_of_head?_toDigits`), and how many there are says how large the number is
(`lt_pow_decimalLength`, `pow_decimalLength_le`). What `number` spells is what the library makes of
digits (`number_eq`).
-/

namespace CustomsClaims

theorem head?_toDigits {n : Nat} (h : 0 < n) : (Nat.toDigits 10 n).head? ≠ some '0' := by
  induction n using Nat.strongRecOn with
  | ind n ih =>
    rw [Nat.toDigits_eq_if (by decide)]
    split
    case isTrue hlt =>
      have hall : ∀ d < 10, 0 < d → ([Nat.digitChar d].head? ≠ some '0') := by decide
      exact hall n hlt h
    case isFalse hge =>
      obtain ⟨d, ds, hd⟩ := List.exists_cons_of_ne_nil (Nat.toDigits_ne_nil (n := n / 10) (b := 10))
      have hrec := ih (n / 10) (by omega) (by omega)
      rw [hd] at hrec ⊢
      exact hrec

theorem eq_zero_of_head?_toDigits {n : Nat} (h : (Nat.toDigits 10 n).head? = some '0') :
    n = 0 := by
  rcases Nat.eq_zero_or_pos n with rfl | hn
  · rfl
  · exact absurd h (head?_toDigits hn)

theorem le_ofDigitChars (ds : List Char) (n : Nat) : n ≤ Nat.ofDigitChars 10 ds n := by
  induction ds generalizing n with
  | nil => simp
  | cons d ds ih =>
    rw [Nat.ofDigitChars_cons]
    exact Nat.le_trans (by omega) (ih _)

theorem number_eq (ds : List Char) : number ds = Nat.ofDigitChars 10 ds 0 := by
  have h (n : Nat) : ds.foldl (fun n c => n * 10 + (c.toNat - '0'.toNat)) n =
      Nat.ofDigitChars 10 ds n := by
    induction ds generalizing n with
    | nil => simp
    | cons d ds ih => rw [List.foldl_cons, ih, Nat.ofDigitChars_cons, Nat.mul_comm]
  exact h 0

/-! ## How many digits a number has -/

theorem lt_pow_decimalLength (n : Nat) : n < 10 ^ decimalLength n :=
  (Nat.length_toDigits_le_iff (by decide) Nat.length_toDigits_pos).1 (Nat.le_refl _)

theorem decimalLength_le {n k : Nat} (hk : 0 < k) (h : n < 10 ^ k) : decimalLength n ≤ k :=
  (Nat.length_toDigits_le_iff (by decide) hk).2 h

theorem pow_decimalLength_le {n : Nat} (hn : 0 < n) : 10 ^ (decimalLength n - 1) ≤ n := by
  have hpos : 0 < decimalLength n := Nat.length_toDigits_pos
  by_cases hone : decimalLength n = 1
  · rw [hone]
    exact hn
  · refine Nat.le_of_not_lt ?_
    intro hlt
    have hle := decimalLength_le (by omega) hlt
    omega

end CustomsClaims
