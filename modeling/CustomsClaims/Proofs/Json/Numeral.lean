import CustomsClaims.Json.Number

/-!
# Numerals are read in full

A `Numeral` is a number as it is written after its sign: digits, and a fraction, an exponent or
both. `readsAs_readUnsigned`: the reader takes all of a well-formed numeral, whatever comes next
that no number goes on with (`Delimited`), and what it makes of it is `Numeral.value?`, which does
not depend on what comes next. Digits without room and exponents out of range are included.
-/

namespace CustomsClaims.Json

/-- The reading of a value ended with `a?` before the rest `r`; `none` stands for a refusal. -/
def ReadsAs {ε α : Type} (x : Except ε (α × Bytes)) (a? : Option α) (r : Bytes) : Prop :=
  match a? with
  | some a => x = .ok (a, r)
  | none => ∃ e, x = .error e

theorem ReadsAs.map {ε α β : Type} {x : Except ε (α × Bytes)} {a? : Option α} {r : Bytes}
    (h : ReadsAs x a? r) (f : α → β) :
    ReadsAs ((fun y : α × Bytes => (f y.1, y.2)) <$> x) (a?.map f) r := by
  cases a? with
  | none =>
    obtain ⟨e, rfl⟩ := h
    exact ⟨e, rfl⟩
  | some a =>
    have h : x = .ok (a, r) := h
    subst h
    rfl

/-- Can no number go on with the rest `r`? -/
def Delimited (r : Bytes) : Prop :=
  ∀ b, r.head? = some b → isDigit b = false ∧ b ≠ 0x2E ∧ isExponentMark b = false

/-- Does the rest `r` not start with a digit? -/
def NoDigit (r : Bytes) : Prop := ∀ b, r.head? = some b → isDigit b = false

theorem Delimited.nil : Delimited [] := by simp [Delimited]

theorem Delimited.cons {b : UInt8} (h : isDigit b = false ∧ b ≠ 0x2E ∧ isExponentMark b = false)
    (r : Bytes) : Delimited (b :: r) := by
  rintro b' hb'
  cases hb'
  exact h

theorem Delimited.noDigit {r : Bytes} (h : Delimited r) : NoDigit r := fun b hb => (h b hb).1

theorem NoDigit.cons {b : UInt8} (h : isDigit b = false) (r : Bytes) : NoDigit (b :: r) := by
  simp [NoDigit, h]

/-! ## Runs of digits -/

section
variable {ds r : Bytes}

theorem dropWhile_digits (hd : ∀ b ∈ ds, isDigit b) (hr : NoDigit r) :
    (ds ++ r).dropWhile isDigit = r := by
  rw [List.dropWhile_append_of_pos hd]
  cases r with
  | nil => rfl
  | cons b r => rw [List.dropWhile_cons_of_neg (by simp [hr b rfl])]

theorem takeWhile_digits (hd : ∀ b ∈ ds, isDigit b) (hr : NoDigit r) :
    (ds ++ r).takeWhile isDigit = ds := by
  rw [List.takeWhile_append_of_pos hd]
  cases r with
  | nil => simp
  | cons b r => rw [List.takeWhile_cons_of_neg (by simp [hr b rfl]), List.append_nil]

theorem takeDigits_append (hr : NoDigit r) (n k : Nat) :
    takeDigits n k (ds ++ r) =
      ((takeDigits n k ds).1, (takeDigits n k ds).2.1, (takeDigits n k ds).2.2 ++ r) := by
  induction ds generalizing n k with
  | nil =>
    cases r with
    | nil => rfl
    | cons b r => simp [takeDigits, hr b rfl]
  | cons d ds ih =>
    simp only [List.cons_append, takeDigits]
    split
    · exact ih _ _
    · rfl

theorem mem_takeDigits_rest {b : UInt8} {n k : Nat} (h : b ∈ (takeDigits n k ds).2.2) :
    b ∈ ds := by
  induction ds generalizing n k with
  | nil => exact h
  | cons d ds ih =>
    simp only [takeDigits] at h
    split at h
    · exact List.mem_cons_of_mem _ (ih h)
    · exact h

theorem takeExponent_append (hd : ∀ b ∈ ds, isDigit b) (hr : NoDigit r) (e : Nat) :
    takeExponent e (ds ++ r) =
      match takeExponent e ds with
      | .ok (n, _) => .ok (n, r)
      | .error left => .error (left ++ r) := by
  induction ds generalizing e with
  | nil =>
    cases r with
    | nil => rfl
    | cons b r => simp [takeExponent, hr b rfl]
  | cons d ds ih =>
    have hd' : isDigit d := hd d (by simp)
    simp only [List.cons_append, takeExponent, hd', if_true]
    split
    · exact ih (fun b hb => hd b (List.mem_cons_of_mem _ hb)) _
    · rfl

theorem mem_takeExponent_rest {b : UInt8} {e : Nat} {left : Bytes}
    (h : takeExponent e ds = .error left) (hb : b ∈ left) : b ∈ ds := by
  induction ds generalizing e with
  | nil => simp [takeExponent] at h
  | cons d ds ih =>
    simp only [takeExponent] at h
    split at h
    · split at h
      · exact List.mem_cons_of_mem _ (ih h)
      · cases h
        exact List.mem_cons_of_mem _ hb
    · cases h

end

/-! ## Numerals -/

/-- A number as it is written after its sign: digits, and a fraction, an exponent or both. The
exponent has a sign of its own. -/
structure Numeral where
  whole : Bytes
  fraction : Bytes
  exponent : Option (Bool × Bytes)

namespace Numeral

def fractionText (n : Numeral) : Bytes :=
  if n.fraction = [] then [] else 0x2E :: n.fraction

def exponentText (n : Numeral) : Bytes :=
  match n.exponent with
  | none => []
  | some (down, ds) => 0x65 :: (if down then 0x2D else 0x2B) :: ds

def text (n : Numeral) : Bytes :=
  n.whole ++ (n.fractionText ++ n.exponentText)

/-- Digits where digits belong, no zero before another digit of the whole part, and a fraction or an
exponent. -/
structure WellFormed (n : Numeral) : Prop where
  whole : n.whole ≠ [] ∧ ∀ b ∈ n.whole, isDigit b
  lead : n.whole.head? = some 0x30 → n.whole.length = 1
  fraction : ∀ b ∈ n.fraction, isDigit b
  exponent : ∀ down ds, n.exponent = some (down, ds) → ds ≠ [] ∧ ∀ b ∈ ds, isDigit b
  broken : n.fraction ≠ [] ∨ n.exponent.isSome

/-- The binary number that the exponent of the numeral makes of `c · 10 ^ e`. -/
def scale? (n : Numeral) (c : Nat) (e : Int) : Option Binary :=
  match n.exponent with
  | none => Binary.ofScientific c e
  | some (down, ds) =>
    match takeExponent 0 ds with
    | .ok (x, _) => Binary.ofScientific c (if down then e - x else e + x)
    | .error _ => if c ≠ 0 ∧ !down then none else some Binary.zero

/-- The binary number that is read from a numeral; none if it is too large. Digits of the whole part
without room raise the exponent. -/
def value? (n : Numeral) : Option Binary :=
  match n.whole with
  | [] => none
  | d :: ds =>
    let whole := takeDigits (digitValue d) 0 ds
    let fraction := takeDigits whole.1 0 n.fraction
    n.scale? fraction.1 ((whole.2.2.length : Int) - fraction.2.1)

end Numeral

/-! ## Reading a numeral -/

theorem readsAs_scaled (c : Nat) (e : Int) (r : Bytes) :
    ReadsAs (scaled c e r) (Binary.ofScientific c e) r := by
  unfold scaled
  cases h : Binary.ofScientific c e with
  | none => exact ⟨_, rfl⟩
  | some b => rfl

theorem readsAs_readExponent {ds r : Bytes} (hne : ds ≠ []) (hd : ∀ b ∈ ds, isDigit b)
    (hr : NoDigit r) (down : Bool) (c : Nat) (e : Int) :
    ReadsAs (readExponent c e ((if down then 0x2D else 0x2B) :: (ds ++ r)))
      (match takeExponent 0 ds with
        | .ok (x, _) => Binary.ofScientific c (if down then e - x else e + x)
        | .error _ => if c ≠ 0 ∧ !down then none else some Binary.zero) r := by
  obtain ⟨d, ds, rfl⟩ := List.exists_cons_of_ne_nil hne
  have hd' : isDigit d := hd d (by simp)
  have hds : ∀ b ∈ ds, isDigit b := fun b hb => hd b (List.mem_cons_of_mem _ hb)
  have hlt : digitValue d < exponentLimit := by
    simp [isDigit, UInt8.le_iff_toNat_le] at hd'
    simp [digitValue, exponentLimit]
    omega
  have h0 : takeExponent 0 (d :: ds) = takeExponent (digitValue d) ds := by
    simp [takeExponent, hd', hlt]
  have hread : readExponent c e ((if down then 0x2D else 0x2B) :: (d :: ds ++ r)) =
      match takeExponent (digitValue d) (ds ++ r) with
      | .ok (x, r) => scaled c (if down then e - x else e + x) r
      | .error r =>
        if c ≠ 0 ∧ !down then fault .numberTooLarge r
        else .ok (Binary.zero, r.dropWhile isDigit) := by
    have hnot : ¬(!isDigit d) = true := by simp [hd']
    cases down with
    | false => exact if_neg hnot
    | true => exact if_neg hnot
  rw [hread, h0, takeExponent_append hds hr]
  cases h : takeExponent (digitValue d) ds with
  | ok x => exact readsAs_scaled _ _ _
  | error left =>
    have hl : ∀ b ∈ left, isDigit b := fun b hb => hds b (mem_takeExponent_rest h hb)
    simp only [dropWhile_digits hl hr]
    split
    · exact ⟨_, rfl⟩
    · rfl

/-- What is read after the digits before the point: these were taken as `n`, and `excess` of them
had no room. -/
def readAfter (negative : Bool) (n excess : Nat) (r : Bytes) : Except Fault (Item × Bytes) :=
  let signed (x : Binary × Bytes) : Item × Bytes := (.binary negative x.1, x.2)
  match r with
  | [] => if excess = 0 then .ok (wholeNumber negative n, []) else signed <$> scaled n excess []
  | c :: r' =>
    if c = 0x2E then signed <$> readFraction n excess r'
    else if isExponentMark c then signed <$> readExponent n excess r'
    else if excess = 0 then .ok (wholeNumber negative n, r)
    else signed <$> scaled n excess r

/-- Where the number ends after these digits, it is whole if all of them had room. -/
theorem readAfter_delimited {r : Bytes} (hr : Delimited r) (negative : Bool) (n excess : Nat) :
    readAfter negative n excess r =
      if excess = 0 then .ok (wholeNumber negative n, r)
      else (fun x : Binary × Bytes => (.binary negative x.1, x.2)) <$> scaled n excess r := by
  cases r with
  | nil => rfl
  | cons b r => simp [readAfter, (hr b rfl).2.1, (hr b rfl).2.2]

theorem no_leading_zero {d : UInt8} {ds r : Bytes} (hlead : d = 0x30 → ds = [])
    (hr : NoDigit r) : ¬(d = 0x30 ∧ (ds ++ r).head?.any isDigit) := by
  rintro ⟨h0, hx⟩
  rw [hlead h0, List.nil_append, Option.any_eq_true] at hx
  obtain ⟨b, hb, hb'⟩ := hx
  simp [hr b hb] at hb'

/-- The digits before the point are taken first, those without room are counted. -/
theorem readUnsigned_whole {d : UInt8} {ds r : Bytes} (hd : isDigit d) (hds : ∀ b ∈ ds, isDigit b)
    (hlead : d = 0x30 → ds = []) (hr : NoDigit r) (negative : Bool) :
    readUnsigned negative (d :: (ds ++ r)) =
      readAfter negative (takeDigits (digitValue d) 0 ds).1
        (takeDigits (digitValue d) 0 ds).2.2.length r := by
  have hzero := no_leading_zero hlead hr
  have hleft : ∀ b ∈ (takeDigits (digitValue d) 0 ds).2.2, isDigit b :=
    fun b hb => hds b (mem_takeDigits_rest hb)
  unfold readUnsigned readAfter
  simp only [hd, Bool.not_true, hzero, takeDigits_append hr, dropWhile_digits hleft hr,
    takeWhile_digits hleft hr, List.length_eq_zero_iff]
  rfl

namespace Numeral

variable {n : Numeral}

theorem noDigit_exponentText {r : Bytes} (hr : Delimited r) : NoDigit (n.exponentText ++ r) := by
  unfold exponentText
  split
  · exact hr.noDigit
  · exact NoDigit.cons (by decide) _

theorem readsAs_readScale (h : n.WellFormed) {r : Bytes} (hr : Delimited r) (c : Nat) (e : Int) :
    ReadsAs (readScale c e (n.exponentText ++ r)) (n.scale? c e) r := by
  unfold exponentText scale?
  cases hx : n.exponent with
  | none =>
    have hs : readScale c e r = scaled c e r := by
      cases r with
      | nil => rfl
      | cons b r => simp [readScale, (hr b rfl).2.2]
    simpa only [List.nil_append, hs] using readsAs_scaled c e r
  | some x =>
    obtain ⟨down, ds⟩ := x
    obtain ⟨hne, hd⟩ := h.exponent down ds hx
    exact readsAs_readExponent hne hd hr.noDigit down c e

theorem readsAs_readFraction (h : n.WellFormed) {r : Bytes} (hr : Delimited r)
    (hf : n.fraction ≠ []) (c : Nat) (e : Int) :
    ReadsAs (readFraction c e (n.fraction ++ (n.exponentText ++ r)))
      (n.scale? (takeDigits c 0 n.fraction).1 (e - (takeDigits c 0 n.fraction).2.1)) r := by
  have hx := noDigit_exponentText (n := n) hr
  have hleft : ∀ b ∈ (takeDigits c 0 n.fraction).2.2, isDigit b :=
    fun b hb => h.fraction b (mem_takeDigits_rest hb)
  obtain ⟨d, ds, hds⟩ := List.exists_cons_of_ne_nil hf
  have hd : isDigit d := h.fraction d (by simp [hds])
  have hread : readFraction c e (n.fraction ++ (n.exponentText ++ r)) =
      readScale (takeDigits c 0 n.fraction).1 (e - (takeDigits c 0 n.fraction).2.1)
        (n.exponentText ++ r) := by
    unfold readFraction
    simp only [takeDigits_append hx, dropWhile_digits hleft hx]
    simp [hds, hd]
  rw [hread]
  exact readsAs_readScale h hr _ _

/-- **A numeral is read in full**, whatever follows it that no number goes on with. -/
theorem readsAs_readUnsigned (h : n.WellFormed) {r : Bytes} (hr : Delimited r) (negative : Bool) :
    ReadsAs (readUnsigned negative (n.text ++ r)) (n.value?.map (Item.binary negative)) r := by
  obtain ⟨d, ds, hw⟩ := List.exists_cons_of_ne_nil h.whole.1
  have hd : isDigit d := h.whole.2 d (by simp [hw])
  have hds : ∀ b ∈ ds, isDigit b := fun b hb => h.whole.2 b (by simp [hw, hb])
  have hlead : d = 0x30 → ds = [] := by
    intro h0
    have hl := h.lead (by simp [hw, h0])
    simpa [hw] using hl
  have hrest : NoDigit (n.fractionText ++ (n.exponentText ++ r)) := by
    unfold fractionText
    split
    · exact noDigit_exponentText hr
    · exact NoDigit.cons (by decide) _
  have htext : n.text ++ r = d :: (ds ++ (n.fractionText ++ (n.exponentText ++ r))) := by
    simp [text, hw]
  rw [htext, readUnsigned_whole hd hds hlead hrest]
  unfold value?
  simp only [hw]
  generalize takeDigits (digitValue d) 0 ds = whole
  by_cases hf : n.fraction = []
  · -- without a fraction there is an exponent
    obtain ⟨⟨down, es⟩, hx⟩ := Option.isSome_iff_exists.1 (h.broken.resolve_left (by simp [hf]))
    obtain ⟨hne, hes⟩ := h.exponent down es hx
    have hr' := readsAs_readExponent hne hes hr.noDigit down whole.1 whole.2.2.length
    have hmap := hr'.map (Item.binary negative)
    simpa [readAfter, fractionText, exponentText, scale?, takeDigits, hf, hx, isExponentMark]
      using hmap
  · have hr' := readsAs_readFraction h hr hf whole.1 whole.2.2.length
    have hmap := hr'.map (Item.binary negative)
    simpa [readAfter, fractionText, hf] using hmap

end Numeral
end CustomsClaims.Json
