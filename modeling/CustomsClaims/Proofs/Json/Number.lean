import CustomsClaims.Proofs.Json.Numeral
import CustomsClaims.Proofs.Number.Decimal
import CustomsClaims.Proofs.Text.Utf8

/-!
# Written numbers

The numbers that are written into a JSON text, as the reader sees them:

* `readNumber_signedText`: a whole number of 64 bits with a sign reads back as it was;
* `Digits.encode_jsonText`: the text of a decimal number is that of the well-formed numeral
  `Digits.numeral` (`Digits.numeral_wellFormed`), so it is read in full.
-/

namespace CustomsClaims.Json

/-! ## Digits as bytes -/

section
variable {ds : List Char}

theorem encodeChars_digits (h : ∀ c ∈ ds, c.isDigit) :
    Utf8.encodeChars ds = ds.map fun c => UInt8.ofNat c.toNat := by
  induction ds with
  | nil => rfl
  | cons c ds ih =>
    have hc : c.isDigit := h c (by simp)
    have hlt : c.toNat < 0x80 := by
      simp [Char.isDigit, UInt32.le_iff_toNat_le] at hc
      have : c.val.toNat = c.toNat := rfl
      omega
    rw [← List.singleton_append, Utf8.encodeChars_append, ih fun x hx => h x (by simp [hx])]
    simp [Utf8.encodeChars, Utf8.encodeChar_ascii hlt]

theorem isDigit_byte {c : Char} (h : c.isDigit) :
    isDigit (UInt8.ofNat c.toNat) ∧ digitValue (UInt8.ofNat c.toNat) = c.toNat - '0'.toNat := by
  have hc : 48 ≤ c.toNat ∧ c.toNat ≤ 57 := by
    simpa [Char.isDigit, UInt32.le_iff_toNat_le] using h
  have hn : (UInt8.ofNat c.toNat).toNat = c.toNat := Utf8.toNat_byte (by omega)
  constructor
  · simp [isDigit, UInt8.le_iff_toNat_le, hn]
    omega
  · simp [digitValue, hn]

theorem isDigit_of_mem_encodeChars (h : ∀ c ∈ ds, c.isDigit) :
    ∀ b ∈ Utf8.encodeChars ds, isDigit b := by
  intro b hb
  rw [encodeChars_digits h, List.mem_map] at hb
  obtain ⟨c, hc, rfl⟩ := hb
  exact (isDigit_byte (h c hc)).1

theorem length_encodeChars_digits (h : ∀ c ∈ ds, c.isDigit) :
    (Utf8.encodeChars ds).length = ds.length := by
  rw [encodeChars_digits h, List.length_map]

theorem takeDigits_encodeChars (h : ∀ c ∈ ds, c.isDigit) {n : Nat}
    (hn : Nat.ofDigitChars 10 ds n < significandLimit) (k : Nat) :
    takeDigits n k (Utf8.encodeChars ds) = (Nat.ofDigitChars 10 ds n, k + ds.length, []) := by
  rw [encodeChars_digits h]
  induction ds generalizing n k with
  | nil => simp [takeDigits]
  | cons c ds ih =>
    obtain ⟨hc, hv⟩ := isDigit_byte (h c (by simp))
    rw [Nat.ofDigitChars_cons] at hn ⊢
    have hle := Nat.lt_of_le_of_lt (le_ofDigitChars ds _) hn
    simp only [List.map_cons, takeDigits]
    rw [if_pos ⟨hc, by rw [hv, Nat.mul_comm]; exact hle⟩, hv, Nat.mul_comm n,
      ih (fun x hx => h x (by simp [hx])) hn]
    simp only [List.length_cons, Prod.mk.injEq, true_and, and_true]
    omega

theorem takeExponent_encodeChars (h : ∀ c ∈ ds, c.isDigit) {e : Nat}
    (he : Nat.ofDigitChars 10 ds e < exponentLimit) :
    takeExponent e (Utf8.encodeChars ds) = .ok (Nat.ofDigitChars 10 ds e, []) := by
  rw [encodeChars_digits h]
  induction ds generalizing e with
  | nil => simp [takeExponent]
  | cons c ds ih =>
    obtain ⟨hc, hv⟩ := isDigit_byte (h c (by simp))
    rw [Nat.ofDigitChars_cons] at he ⊢
    have hle := Nat.lt_of_le_of_lt (le_ofDigitChars ds _) he
    simp only [List.map_cons, takeExponent]
    rw [if_pos hc, if_pos (by rw [hv, Nat.mul_comm]; exact hle), hv, Nat.mul_comm e,
      ih (fun x hx => h x (by simp [hx])) he]

theorem encodeChars_cons_digit {c : Char} (h : c.isDigit) (ds : List Char) :
    Utf8.encodeChars (c :: ds) = UInt8.ofNat c.toNat :: Utf8.encodeChars ds := by
  have hc : ∀ x ∈ [c], x.isDigit := by simpa using h
  rw [← List.singleton_append, Utf8.encodeChars_append, encodeChars_digits hc]
  rfl

theorem head?_encodeChars_zero (h : ∀ c ∈ ds, c.isDigit)
    (h0 : (Utf8.encodeChars ds).head? = some 0x30) : ds.head? = some '0' := by
  cases ds with
  | nil => simp [Utf8.encodeChars] at h0
  | cons c cs =>
    have hc : 48 ≤ c.toNat ∧ c.toNat ≤ 57 := by
      have hc : c.isDigit := h c (by simp)
      simpa [Char.isDigit, UInt32.le_iff_toNat_le] using hc
    rw [encodeChars_cons_digit (h c (by simp)), List.head?_cons, Option.some.injEq,
      ← UInt8.toNat_inj, Utf8.toNat_byte (by omega)] at h0
    rw [List.head?_cons, Char.toNat_inj.1 (show c.toNat = '0'.toNat from h0)]

/-- All digits after the first one are taken if the number has room. -/
theorem takeDigits_after {c : Char} (hc : c.isDigit) (h : ∀ x ∈ ds, x.isDigit)
    (hn : Nat.ofDigitChars 10 (c :: ds) 0 < significandLimit) :
    takeDigits (digitValue (UInt8.ofNat c.toNat)) 0 (Utf8.encodeChars ds) =
      (Nat.ofDigitChars 10 (c :: ds) 0, ds.length, []) := by
  have hv : Nat.ofDigitChars 10 (c :: ds) 0 =
      Nat.ofDigitChars 10 ds (digitValue (UInt8.ofNat c.toNat)) := by
    rw [Nat.ofDigitChars_cons, (isDigit_byte hc).2, Nat.mul_zero, Nat.zero_add]
  rw [hv] at hn ⊢
  rw [takeDigits_encodeChars h hn, Nat.zero_add]

end

theorem isDigit_toDigits (n : Nat) : ∀ c ∈ Nat.toDigits 10 n, c.isDigit :=
  fun _ hc => Nat.isDigit_of_mem_toDigits (by decide) (by decide) hc

/-! ## Whole numbers -/

theorem readUnsigned_decimalText {n : Nat} (hn : n < significandLimit) {r : Bytes}
    (hr : Delimited r) (negative : Bool) :
    readUnsigned negative (Utf8.encode (decimalText n) ++ r) = .ok (wholeNumber negative n, r) := by
  obtain ⟨c, cs, hcs⟩ := List.exists_cons_of_ne_nil (Nat.toDigits_ne_nil (n := n) (b := 10))
  have hall := isDigit_toDigits n
  rw [hcs] at hall
  have hc : c.isDigit := hall c (by simp)
  have hds : ∀ x ∈ cs, x.isDigit := fun x hx => hall x (by simp [hx])
  have hval : Nat.ofDigitChars 10 (c :: cs) 0 = n := by
    rw [← hcs, Nat.ofDigitChars_ten_toDigits]
  have htake := takeDigits_after hc hds (by rw [hval]; exact hn)
  have hlead : UInt8.ofNat c.toNat = 0x30 → Utf8.encodeChars cs = [] := by
    intro h0
    have hzero := head?_encodeChars_zero hall (by rw [encodeChars_cons_digit hc, h0]; rfl)
    have hn0 : n = 0 := eq_zero_of_head?_toDigits (by rw [hcs, hzero])
    rw [hn0, Nat.toDigits_zero] at hcs
    rw [(List.cons.inj hcs).2.symm]
    rfl
  have htext : Utf8.encode (decimalText n) ++ r =
      UInt8.ofNat c.toNat :: (Utf8.encodeChars cs ++ r) := by
    rw [decimalText, Utf8.encode_ofList, hcs, encodeChars_cons_digit hc, List.cons_append]
  rw [htext, readUnsigned_whole (isDigit_byte hc).1 (isDigit_of_mem_encodeChars hds) hlead
    hr.noDigit, htake, hval, readAfter_delimited hr]
  rfl

/-- A number starts with a digit, after a minus sign at most. -/
theorem readNumber_sign (negative : Bool) {t : Bytes} (h : ∃ b r, t = b :: r ∧ isDigit b) :
    readNumber ((if negative then [0x2D] else []) ++ t) = readUnsigned negative t := by
  obtain ⟨b, r, rfl, hb⟩ := h
  cases negative with
  | true => rfl
  | false =>
    have hne : b ≠ 0x2D := by
      rintro rfl
      revert hb
      decide
    simp [readNumber, hne]

theorem decimalText_starts (n : Nat) :
    ∃ b r, Utf8.encode (decimalText n) = b :: r ∧ isDigit b := by
  obtain ⟨c, cs, hcs⟩ := List.exists_cons_of_ne_nil (Nat.toDigits_ne_nil (n := n) (b := 10))
  have hc : c.isDigit := isDigit_toDigits n c (by simp [hcs])
  refine ⟨UInt8.ofNat c.toNat, Utf8.encodeChars cs, ?_, (isDigit_byte hc).1⟩
  rw [decimalText, Utf8.encode_ofList, hcs, encodeChars_cons_digit hc]

theorem encode_signedText (i : Int) :
    Utf8.encode (signedText i) =
      (if i < 0 then [0x2D] else []) ++ Utf8.encode (decimalText i.natAbs) := by
  cases i with
  | ofNat n =>
    rw [if_neg (show ¬Int.ofNat n < 0 from Int.not_lt.2 (Int.natCast_nonneg n))]
    rfl
  | negSucc n =>
    rw [if_pos (Int.negSucc_lt_zero n), signedText, Utf8.encode_append]
    rfl

theorem readNumber_signedText {i : Int} (hl : -2 ^ 63 ≤ i) (hh : i < 2 ^ 63) {r : Bytes}
    (hr : Delimited r) :
    readNumber (Utf8.encode (signedText i) ++ r) = .ok (.integer i, r) := by
  obtain ⟨b, t, ht, hb⟩ := decimalText_starts i.natAbs
  have hstart : ∃ b' t', Utf8.encode (decimalText i.natAbs) ++ r = b' :: t' ∧ isDigit b' :=
    ⟨b, t ++ r, by rw [ht, List.cons_append], hb⟩
  have hlt : i.natAbs < significandLimit := by
    simp only [significandLimit]
    omega
  have hsign : (if i < 0 then [0x2D] else [] : Bytes) =
      if decide (i < 0) then [0x2D] else [] := by simp
  rw [encode_signedText, List.append_assoc, hsign, readNumber_sign _ hstart,
    readUnsigned_decimalText hlt hr]
  by_cases hneg : i < 0
  · have h0 : ¬(i.natAbs = 0 ∨ 2 ^ 63 < i.natAbs) := by omega
    have hvalue : -(i.natAbs : Int) = i := by omega
    rw [decide_eq_true hneg, wholeNumber, if_neg (by decide), if_neg h0, hvalue]
  · have hvalue : (i.natAbs : Int) = i := by omega
    rw [decide_eq_false hneg, wholeNumber, if_pos (by decide), hvalue]

end CustomsClaims.Json

/-! ## Decimal numbers -/

namespace CustomsClaims.Digits

open Json

/-- The digits before and after the point of the positional form. -/
def pointed (d : Digits) : List Char × List Char :=
  let ds := Nat.toDigits 10 d.coefficient
  match d.exponent with
  | .ofNat n => (ds ++ List.replicate n '0', ['0'])
  | .negSucc n =>
    if n + 1 < ds.length then (ds.take (ds.length - (n + 1)), ds.drop (ds.length - (n + 1)))
    else (['0'], List.replicate (n + 1 - ds.length) '0' ++ ds)

/-- Is the number written with all digits in their places? -/
def IsPositional (d : Digits) : Prop :=
  d.coefficient = 0 ∨ -5 ≤ d.leadingExponent ∧ d.leadingExponent < 16

instance (d : Digits) : Decidable d.IsPositional :=
  inferInstanceAs (Decidable (_ ∨ _))

/-- The numeral that the JSON text of a decimal number is. -/
def numeral (d : Digits) : Numeral :=
  if d.coefficient = 0 then ⟨[0x30], [0x30], none⟩
  else if d.IsPositional then
    ⟨Utf8.encodeChars d.pointed.1, Utf8.encodeChars d.pointed.2, none⟩
  else
    let ds := Nat.toDigits 10 d.coefficient
    ⟨Utf8.encodeChars (ds.take 1), Utf8.encodeChars (ds.drop 1),
      some (decide (d.leadingExponent < 0), Utf8.encode (decimalText d.leadingExponent.natAbs))⟩

theorem isDigit_replicate (n : Nat) : ∀ c ∈ List.replicate n '0', c.isDigit := by
  intro c hc
  rw [List.eq_of_mem_replicate hc]
  decide

theorem pointed_digits (d : Digits) :
    (∀ c ∈ d.pointed.1, c.isDigit) ∧ ∀ c ∈ d.pointed.2, c.isDigit := by
  have hds := isDigit_toDigits d.coefficient
  have h0 : ∀ c ∈ ['0'], c.isDigit := List.forall_mem_singleton.2 (by decide)
  unfold pointed
  cases d.exponent with
  | ofNat n => exact ⟨List.forall_mem_append.2 ⟨hds, isDigit_replicate n⟩, h0⟩
  | negSucc n =>
    dsimp only
    split
    · exact ⟨fun c hc => hds c (List.mem_of_mem_take hc), fun c hc => hds c (List.mem_of_mem_drop hc)⟩
    · exact ⟨h0, List.forall_mem_append.2 ⟨isDigit_replicate _, hds⟩⟩

theorem pointed_ne_nil (d : Digits) : d.pointed.1 ≠ [] ∧ d.pointed.2 ≠ [] := by
  unfold pointed
  cases d.exponent with
  | ofNat n => simp
  | negSucc n =>
    dsimp only
    split
    · rename_i h
      simp only [ne_eq, List.take_eq_nil_iff, List.drop_eq_nil_iff, Nat.toDigits_ne_nil, or_false]
      omega
    · simp

theorem pointed_lead {d : Digits} (h0 : d.coefficient ≠ 0) (h : d.pointed.1.head? = some '0') :
    d.pointed.1.length = 1 := by
  have hne : (Nat.toDigits 10 d.coefficient).head? ≠ some '0' := head?_toDigits (by omega)
  obtain ⟨c, cs, hcs⟩ :=
    List.exists_cons_of_ne_nil (Nat.toDigits_ne_nil (n := d.coefficient) (b := 10))
  unfold pointed at h ⊢
  cases hx : d.exponent with
  | ofNat n =>
    simp only [hx, hcs] at h hne
    exact absurd h hne
  | negSucc n =>
    simp only [hx] at h ⊢
    split at h
    · rename_i hlt
      rw [hcs] at h hne hlt
      have hpos : 0 < (c :: cs).length - (n + 1) := by omega
      obtain ⟨m, hm⟩ := Nat.exists_eq_add_of_le' hpos
      rw [hm] at h
      exact absurd h hne
    · rename_i hge
      rw [if_neg hge]
      rfl

theorem encode_positional (d : Digits) :
    Utf8.encode (if 0 ≤ d.exponent then d.positional ++ ".0" else d.positional) =
      Utf8.encodeChars d.pointed.1 ++ (0x2E :: Utf8.encodeChars d.pointed.2) := by
  have hpoint : Utf8.encode "." = [0x2E] := by decide
  unfold positional pointed
  cases hx : d.exponent with
  | ofNat n =>
    rw [if_pos (show 0 ≤ Int.ofNat n from Int.natCast_nonneg n)]
    simp only [Utf8.encode_append, Utf8.encode_ofList, zeros, Utf8.encodeChars_append]
    rfl
  | negSucc n =>
    rw [if_neg (show ¬0 ≤ Int.negSucc n from Int.not_le.2 (Int.negSucc_lt_zero n))]
    dsimp only
    split
    · simp only [Utf8.encode_append, Utf8.encode_ofList, hpoint]
      simp
    · simp only [Utf8.encode_append, Utf8.encode_ofList, zeros, Utf8.encodeChars_append,
        show Utf8.encode "0." = Utf8.encodeChars ['0'] ++ [0x2E] from by decide]
      simp

/-- **The JSON text of a decimal number** is that of its numeral. -/
theorem encode_jsonText (d : Digits) : Utf8.encode d.jsonText = d.numeral.text := by
  unfold jsonText numeral
  split
  case isTrue => rfl
  case isFalse h0 =>
  split
  case isTrue hp =>
    have hne : Utf8.encodeChars d.pointed.2 ≠ [] :=
      fun hnil => d.pointed_ne_nil.2 (Utf8.encodeChars_eq_nil.1 hnil)
    rw [if_pos (show d.IsPositional from Or.inr hp), encode_positional]
    simp [Numeral.text, Numeral.fractionText, Numeral.exponentText, hne]
  case isFalse hp =>
    rw [if_neg (show ¬d.IsPositional from fun hpos => hpos.elim h0 hp)]
    have hsign : Utf8.encode (if 0 ≤ d.leadingExponent then "+" else "-") =
        [if decide (d.leadingExponent < 0) then 0x2D else 0x2B] := by
      by_cases h : 0 ≤ d.leadingExponent
      · rw [if_pos h, if_neg (by simpa using h)]
        rfl
      · rw [if_neg h, if_pos (by simpa using h)]
        rfl
    have hmark : Utf8.encode "e" = [0x65] := by decide
    have hchar (c : Char) : Utf8.encode c.toString = Utf8.encodeChars [c] := by
      rw [Utf8.encode, Char.toString, String.toList_singleton]
    unfold exponential
    simp only [Utf8.encode_append, hsign, hmark]
    rcases hds : Nat.toDigits 10 d.coefficient with _ | ⟨c, _ | ⟨c', cs⟩⟩
    · exact absurd hds Nat.toDigits_ne_nil
    · simp only [hchar]
      simp [Numeral.text, Numeral.fractionText, Numeral.exponentText, Utf8.encodeChars]
    · have hne : Utf8.encodeChars (c' :: cs) ≠ [] := by simp [Utf8.encodeChars_eq_nil]
      have hpoint : Utf8.encode "." = [0x2E] := by decide
      simp only [Utf8.encode_append, Utf8.encode_ofList, hchar, hpoint]
      simp [Numeral.text, Numeral.fractionText, Numeral.exponentText, hne]

theorem numeral_wellFormed (d : Digits) : d.numeral.WellFormed := by
  unfold numeral
  split
  case isTrue =>
    have hzero : ∀ b ∈ ([0x30] : Bytes), Json.isDigit b := List.forall_mem_singleton.2 (by decide)
    exact ⟨⟨by simp, hzero⟩, fun _ => rfl, hzero, by simp, .inl (by simp)⟩
  case isFalse h0 =>
  obtain ⟨hd1, hd2⟩ := d.pointed_digits
  obtain ⟨hn1, hn2⟩ := d.pointed_ne_nil
  split
  case isTrue =>
    refine ⟨⟨fun h => hn1 (Utf8.encodeChars_eq_nil.1 h), isDigit_of_mem_encodeChars hd1⟩, fun h => ?_,
      isDigit_of_mem_encodeChars hd2, by simp, .inl fun h => hn2 (Utf8.encodeChars_eq_nil.1 h)⟩
    rw [length_encodeChars_digits hd1]
    exact pointed_lead h0 (head?_encodeChars_zero hd1 h)
  case isFalse =>
    have hds := isDigit_toDigits d.coefficient
    have hwhole : ∀ c ∈ (Nat.toDigits 10 d.coefficient).take 1, c.isDigit :=
      fun c hc => hds c (List.mem_of_mem_take hc)
    refine ⟨⟨fun h => ?_, isDigit_of_mem_encodeChars hwhole⟩, fun _ => ?_,
      isDigit_of_mem_encodeChars fun c hc => hds c (List.mem_of_mem_drop hc), ?_, .inr rfl⟩
    · simp [Utf8.encodeChars_eq_nil] at h
    · have hpos := Nat.length_toDigits_pos (b := 10) (n := d.coefficient)
      rw [length_encodeChars_digits hwhole, List.length_take]
      omega
    · rintro down ds hx
      cases hx
      rw [decimalText, Utf8.encode_ofList]
      exact ⟨by simp [Utf8.encodeChars_eq_nil], isDigit_of_mem_encodeChars (isDigit_toDigits _)⟩

end CustomsClaims.Digits
