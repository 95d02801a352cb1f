import CustomsClaims.Proofs.Json.Number

/-!
# What a written number is read as

The text of a decimal number is read with a significand and an exponent (`Digits.scientific`), which
are those of the number itself unless it is written with a fraction of zero. `value?_numeral`: as long
as the significand has room, the reading is the binary number that they make.
-/

namespace CustomsClaims

open Json

namespace Json.Numeral

/-- A numeral whose digits have room is scaled by the places of its fraction. -/
theorem value?_of_chars {whole fraction : List Char} (hne : whole ≠ [])
    (hwhole : ∀ c ∈ whole, c.isDigit) (hfraction : ∀ c ∈ fraction, c.isDigit)
    (hn : Nat.ofDigitChars 10 (whole ++ fraction) 0 < significandLimit)
    (exponent : Option (Bool × Bytes)) :
    (Numeral.mk (Utf8.encodeChars whole) (Utf8.encodeChars fraction) exponent).value? =
      (Numeral.mk (Utf8.encodeChars whole) (Utf8.encodeChars fraction) exponent).scale?
        (Nat.ofDigitChars 10 (whole ++ fraction) 0) (-(fraction.length : Int)) := by
  obtain ⟨c, cs, rfl⟩ := List.exists_cons_of_ne_nil hne
  have hc : c.isDigit := hwhole c (by simp)
  have hcs : ∀ x ∈ cs, x.isDigit := fun x hx => hwhole x (by simp [hx])
  rw [Nat.ofDigitChars_append] at hn ⊢
  have htake := takeDigits_after hc hcs (Nat.lt_of_le_of_lt (le_ofDigitChars fraction _) hn)
  rw [value?, encodeChars_cons_digit hc]
  dsimp only
  rw [htake, takeDigits_encodeChars hfraction hn]
  simp only [List.length_nil, Nat.zero_add]
  congr 1
  omega

end Json.Numeral

namespace Digits

/-- The significand and the exponent that the text of a decimal number is read with. -/
def scientific (d : Digits) : Nat × Int :=
  if d.coefficient = 0 then (0, -1)
  else if d.IsPositional ∧ 0 ≤ d.exponent then (d.coefficient * 10 ^ (d.exponent.toNat + 1), -1)
  else (d.coefficient, d.exponent)

section
variable {d : Digits} {n : Nat}

/-- The digits of the positional form, all together, and how many stand after the point. -/
theorem pointed_ofNat (h : d.exponent = .ofNat n) :
    Nat.ofDigitChars 10 (d.pointed.1 ++ d.pointed.2) 0 = d.coefficient * 10 ^ (n + 1) ∧
      d.pointed.2.length = 1 := by
  have hpointed : d.pointed = (Nat.toDigits 10 d.coefficient ++ List.replicate n '0', ['0']) := by
    rw [pointed, h]
  have hdigits : Nat.toDigits 10 d.coefficient ++ List.replicate n '0' ++ ['0'] =
      Nat.toDigits 10 d.coefficient ++ List.replicate (n + 1) '0' := by
    rw [List.append_assoc, List.replicate_succ']
  rw [hpointed]
  refine ⟨?_, rfl⟩
  rw [hdigits, Nat.ofDigitChars_append, Nat.ofDigitChars_ten_toDigits,
    Nat.ofDigitChars_replicate_zero, Nat.mul_comm]

theorem pointed_negSucc (h : d.exponent = .negSucc n) :
    Nat.ofDigitChars 10 (d.pointed.1 ++ d.pointed.2) 0 = d.coefficient ∧
      d.pointed.2.length = n + 1 := by
  rw [pointed, h]
  dsimp only
  split
  case isTrue hlt =>
    refine ⟨?_, by rw [List.length_drop]; omega⟩
    rw [List.take_append_drop, Nat.ofDigitChars_ten_toDigits]
  case isFalse hge =>
    refine ⟨?_, by rw [List.length_append, List.length_replicate]; omega⟩
    rw [Nat.ofDigitChars_append, Nat.ofDigitChars_append, Nat.ofDigitChars_replicate_zero]
    exact Nat.ofDigitChars_ten_toDigits

/-- A whole number is written in full only while it is short. -/
theorem coefficient_mul_lt (h : d.exponent = .ofNat n) (hlead : d.leadingExponent < 16) :
    d.coefficient * 10 ^ (n + 1) < 10 ^ 17 := by
  have hlength : decimalLength d.coefficient + (n + 1) ≤ 17 := by
    rw [leadingExponent, h] at hlead
    dsimp only [Int.ofNat_eq_natCast] at hlead
    omega
  calc d.coefficient * 10 ^ (n + 1) < 10 ^ decimalLength d.coefficient * 10 ^ (n + 1) :=
        Nat.mul_lt_mul_of_pos_right (lt_pow_decimalLength _) (Nat.pow_pos (by decide))
    _ = 10 ^ (decimalLength d.coefficient + (n + 1)) := (Nat.pow_add _ _ _).symm
    _ ≤ 10 ^ 17 := Nat.pow_le_pow_right (by decide) hlength

end

section
variable {d : Digits} (h0 : d.coefficient ≠ 0) (hc : d.coefficient < 10 ^ 18)
include h0 hc

theorem value?_positional (hp : d.IsPositional) :
    d.numeral.value? = Binary.ofScientific d.scientific.1 d.scientific.2 := by
  obtain ⟨hwhole, hfraction⟩ := d.pointed_digits
  rw [numeral, if_neg h0, if_pos hp, scientific, if_neg h0]
  cases hx : d.exponent with
  | ofNat n =>
    obtain ⟨hdigits, hlength⟩ := pointed_ofNat hx
    have hlt := coefficient_mul_lt hx (hp.resolve_left h0).2
    rw [if_pos ⟨hp, Int.natCast_nonneg n⟩, Numeral.value?_of_chars d.pointed_ne_nil.1 hwhole hfraction
      (by rw [hdigits, significandLimit]; omega), hdigits, hlength]
    rfl
  | negSucc n =>
    obtain ⟨hdigits, hlength⟩ := pointed_negSucc hx
    rw [if_neg (fun h => absurd h.2 (Int.not_le.2 (Int.negSucc_lt_zero n))),
      Numeral.value?_of_chars d.pointed_ne_nil.1 hwhole hfraction
      (by rw [hdigits, significandLimit]; omega), hdigits, hlength]
    rfl

theorem value?_exponential (hp : ¬d.IsPositional) (he : d.exponent.natAbs < 2 ^ 30) :
    d.numeral.value? = Binary.ofScientific d.scientific.1 d.scientific.2 := by
  have hdigits := isDigit_toDigits d.coefficient
  have hpos : 0 < (Nat.toDigits 10 d.coefficient).length := Nat.length_toDigits_pos
  have hvalue : Nat.ofDigitChars 10 ((Nat.toDigits 10 d.coefficient).take 1 ++
      (Nat.toDigits 10 d.coefficient).drop 1) 0 = d.coefficient := by
    rw [List.take_append_drop, Nat.ofDigitChars_ten_toDigits]
  have hlength : decimalLength d.coefficient ≤ 18 := decimalLength_le (by decide) hc
  have hlead : d.leadingExponent.natAbs < exponentLimit := by
    rw [leadingExponent, exponentLimit]
    omega
  have htake := takeExponent_encodeChars (isDigit_toDigits d.leadingExponent.natAbs)
    (by rw [Nat.ofDigitChars_ten_toDigits]; exact hlead)
  rw [Nat.ofDigitChars_ten_toDigits] at htake
  have hsum : -(((Nat.toDigits 10 d.coefficient).drop 1).length : Int) + d.leadingExponent =
      d.exponent := by
    rw [List.length_drop, leadingExponent, decimalLength]
    omega
  rw [numeral, if_neg h0, if_neg hp, scientific, if_neg h0, if_neg (fun h => hp h.1)]
  dsimp only
  rw [Numeral.value?_of_chars (by simp) (fun c hc => hdigits c (List.mem_of_mem_take hc))
    (fun c hc => hdigits c (List.mem_of_mem_drop hc)) (by rw [hvalue, significandLimit]; omega),
    hvalue, Numeral.scale?]
  dsimp only
  rw [decimalText, Utf8.encode_ofList, htake]
  dsimp only
  congr 1
  by_cases hneg : d.leadingExponent < 0
  · rw [if_pos (by simpa using hneg)]
    omega
  · rw [if_neg (by simpa using hneg)]
    omega

end

/-- **What the text of a decimal number is read as**, if its significand has room. -/
theorem value?_numeral {d : Digits} (hc : d.coefficient < 10 ^ 18)
    (he : d.exponent.natAbs < 2 ^ 30) :
    d.numeral.value? = Binary.ofScientific d.scientific.1 d.scientific.2 := by
  by_cases h0 : d.coefficient = 0
  · rw [numeral, if_pos h0, scientific, if_pos h0]
    rfl
  · by_cases hp : d.IsPositional
    · exact value?_positional h0 hc hp
    · exact value?_exponential h0 hc hp he

end Digits
end CustomsClaims
