import CustomsClaims.Proofs.Json.Grammar

/-!
# Literals are read and passed over

Every number of the grammar is taken in full, whatever follows it that no number goes on with, and
what it is read as does not depend on that (`NumberText.reads`). A whole number that fits 64 bits is
read as itself, and nothing else is read as a whole number. `ScalarText.yields` says so of all
values without brackets: what they are read as is an `Item.Of` their text. `ScalarText.skip` says
that they are passed over.
-/

namespace CustomsClaims.Json

/-- Whatever delimiter follows `text`, the reader takes all of it and ends with `a?`. -/
def ReadsWhole {ε α : Type} (read : Bytes → Except ε (α × Bytes)) (text : Bytes)
    (a? : Option α) : Prop :=
  ∀ r, Delimited r → ReadsAs (read (text ++ r)) a? r

/-! ## Parts of numbers -/

theorem DigitsText.split {ds : Bytes} (h : DigitsText ds) :
    ∃ d ds', ds = d :: ds' ∧ isDigit d ∧ ∀ b ∈ ds', isDigit b := by
  obtain ⟨d, ds', rfl⟩ := List.exists_cons_of_ne_nil h.ne_nil
  exact ⟨d, ds', rfl, h.digits d List.mem_cons_self,
    fun b hb => h.digits b (List.mem_cons_of_mem d hb)⟩

theorem WholeText.split {ds : Bytes} (h : WholeText ds) :
    ∃ d ds', ds = d :: ds' ∧ isDigit d ∧ (∀ b ∈ ds', isDigit b) ∧ (d = 0x30 → ds' = []) := by
  obtain ⟨d, ds', rfl, hd, hds⟩ := h.toDigitsText.split
  refine ⟨d, ds', rfl, hd, hds, ?_⟩
  rintro rfl
  exact (List.cons.inj (h.lead rfl)).2

theorem isDigit_ne {b c : UInt8} (h : isDigit b) (hc : isDigit c = false) : b ≠ c := by
  rintro rfl
  rw [hc] at h
  cases h

theorem ExponentText.noDigit {x r : Bytes} (hx : ExponentText x) (hr : Delimited r) :
    NoDigit (x ++ r) := by
  cases hx with
  | none => exact hr.noDigit
  | some hmark _ _ =>
    refine NoDigit.cons ?_ _
    rcases hmark with rfl | rfl <;> decide

theorem FractionText.noDigit {f x r : Bytes} (hf : FractionText f) (hx : ExponentText x)
    (hr : Delimited r) : NoDigit (f ++ (x ++ r)) := by
  cases hf with
  | none => exact hx.noDigit hr
  | some _ => exact NoDigit.cons (by decide) _

/-! ## Reading numbers -/

/-- An exponent without a sign is one with a plus sign. -/
theorem readExponent_bare {ds : Bytes} (h : DigitsText ds) (c : Nat) (e : Int) (r : Bytes) :
    readExponent c e (ds ++ r) = readExponent c e (0x2B :: (ds ++ r)) := by
  obtain ⟨d, ds', rfl, hd, -⟩ := h.split
  have hplus : d ≠ 0x2B := isDigit_ne hd (by decide)
  have hminus : d ≠ 0x2D := isDigit_ne hd (by decide)
  simp [readExponent, hplus, hminus]

theorem readsAs_signedExponent {sign ds : Bytes}
    (hsign : sign = [] ∨ sign = [0x2B] ∨ sign = [0x2D]) (h : DigitsText ds) (c : Nat) (e : Int) :
    ∃ b?, ReadsWhole (readExponent c e) (sign ++ ds) b? := by
  obtain ⟨down, hdown⟩ : ∃ down : Bool, ∀ r, readExponent c e (sign ++ ds ++ r) =
      readExponent c e ((if down then 0x2D else 0x2B) :: (ds ++ r)) := by
    rcases hsign with rfl | rfl | rfl
    · exact ⟨false, fun r => readExponent_bare h c e r⟩
    · exact ⟨false, fun r => rfl⟩
    · exact ⟨true, fun r => rfl⟩
  have hread (r : Bytes) (hr : Delimited r) :=
    readsAs_readExponent h.ne_nil h.digits hr.noDigit down c e
  simp only [← hdown] at hread
  exact ⟨_, hread⟩

theorem isExponentMark_of {mark : UInt8} (h : mark = 0x65 ∨ mark = 0x45) :
    isExponentMark mark = true ∧ mark ≠ 0x2E := by
  rcases h with rfl | rfl <;> decide

theorem readsAs_scale {x : Bytes} (hx : ExponentText x) (c : Nat) (e : Int) :
    ∃ b?, ReadsWhole (readScale c e) x b? := by
  cases hx with
  | none =>
    refine ⟨Binary.ofScientific c e, fun r hr => ?_⟩
    have hscale : readScale c e r = scaled c e r := by
      cases r with
      | nil => rfl
      | cons b r => simp [readScale, (hr b rfl).2.2]
    rw [List.nil_append, hscale]
    exact readsAs_scaled c e r
  | some hmark hsign h =>
    obtain ⟨b?, hread⟩ := readsAs_signedExponent hsign h c e
    refine ⟨b?, fun r hr => ?_⟩
    simpa [readScale, isExponentMark_of hmark] using hread r hr

theorem readsAs_fraction {ds x : Bytes} (h : DigitsText ds) (hx : ExponentText x) (c : Nat)
    (e : Int) : ∃ b?, ReadsWhole (readFraction c e) (ds ++ x) b? := by
  obtain ⟨b?, hread⟩ :=
    readsAs_scale hx (takeDigits c 0 ds).1 (e - (takeDigits c 0 ds).2.1)
  refine ⟨b?, fun r hr => ?_⟩
  have hleft : ∀ b ∈ (takeDigits c 0 ds).2.2, isDigit b :=
    fun b hb => h.digits b (mem_takeDigits_rest hb)
  have hfraction : readFraction c e (ds ++ (x ++ r)) =
      readScale (takeDigits c 0 ds).1 (e - (takeDigits c 0 ds).2.1) (x ++ r) := by
    obtain ⟨d, ds', rfl, hd, -⟩ := h.split
    unfold readFraction
    simp only [takeDigits_append (hx.noDigit hr), dropWhile_digits hleft (hx.noDigit hr)]
    simp [hd]
  rw [List.append_assoc, hfraction]
  exact hread r hr

/-- Digits that fit 64 bits are all taken, others are not. -/
theorem takeDigits_value {ds : Bytes} (h : ∀ b ∈ ds, isDigit b) (n k : Nat) :
    (takeDigits n k ds).2.2 = [] → (takeDigits n k ds).1 = digitsValue n ds := by
  induction ds generalizing n k with
  | nil => exact fun _ => rfl
  | cons d ds ih =>
    have hds : ∀ b ∈ ds, isDigit b := fun b hb => h b (List.mem_cons_of_mem d hb)
    simp only [takeDigits]
    split
    · exact ih hds _ _
    · intro hnil
      cases hnil

theorem le_digitsValue (ds : Bytes) (n : Nat) : n ≤ digitsValue n ds := by
  induction ds generalizing n with
  | nil => exact Nat.le_refl n
  | cons d ds ih =>
    have hstep : n * 10 + digitValue d ≤ digitsValue n (d :: ds) := ih _
    omega

theorem takeDigits_of_lt {ds : Bytes} (h : ∀ b ∈ ds, isDigit b) {n : Nat}
    (hlt : digitsValue n ds < significandLimit) (k : Nat) : (takeDigits n k ds).2.2 = [] := by
  induction ds generalizing n k with
  | nil => rfl
  | cons d ds ih =>
    have hd : isDigit d := h d List.mem_cons_self
    have hroom : n * 10 + digitValue d < significandLimit :=
      Nat.lt_of_le_of_lt (le_digitsValue ds _) hlt
    rw [takeDigits, if_pos ⟨hd, hroom⟩]
    exact ih (fun b hb => h b (List.mem_cons_of_mem d hb)) hlt _

theorem digitsValue_cons (d : UInt8) (ds : Bytes) :
    digitsValue 0 (d :: ds) = digitsValue (digitValue d) ds := by
  rw [digitsValue, List.foldl_cons, Nat.zero_mul, Nat.zero_add]
  rfl

/-- A whole number of 64 bits with a sign, as it is read. -/
theorem IntegerText.of_wholeNumber {negative : Bool} {ds : Bytes} (h : WholeText ds) {i : Int}
    (hi : wholeNumber negative (digitsValue 0 ds) = .integer i) :
    IntegerText i ((if negative then [0x2D] else []) ++ ds) := by
  unfold wholeNumber at hi
  cases negative with
  | false =>
    rw [← Item.integer.inj hi]
    exact .natural h
  | true =>
    rw [if_neg (by decide)] at hi
    split at hi
    case isTrue => cases hi
    case isFalse hrange =>
      rw [← Item.integer.inj hi]
      exact .negative h fun h0 => hrange (.inl h0)

/-- What a number may be read as: a whole number that it spells, or a binary number. -/
def Item.OfNumber (text : Bytes) : Item → Prop
  | .integer i => IntegerText i text
  | .binary _ _ => True
  | _ => False

theorem wholeNumber_cases (negative : Bool) (n : Nat) :
    (∃ i, wholeNumber negative n = .integer i) ∨
      ∃ b, wholeNumber negative n = .binary negative b := by
  unfold wholeNumber
  cases negative with
  | false => exact .inl ⟨_, rfl⟩
  | true =>
    rw [if_neg (by decide)]
    split
    · exact .inr ⟨_, rfl⟩
    · exact .inl ⟨_, rfl⟩

/-- What follows the digits before the point, in any spelling. -/
theorem readsAs_after {f x : Bytes} (hf : FractionText f) (hx : ExponentText x)
    (negative : Bool) (n excess : Nat) :
    ∃ item?, ReadsWhole (readAfter negative n excess) (f ++ x) item? ∧
      ∀ item ∈ item?, (f = [] ∧ x = [] ∧ excess = 0 ∧ item = wholeNumber negative n) ∨
        ∃ b, item = .binary negative b := by
  have hbinary (b? : Option Binary) : ∀ item ∈ b?.map (Item.binary negative),
      (f = [] ∧ x = [] ∧ excess = 0 ∧ item = wholeNumber negative n) ∨
        ∃ b, item = .binary negative b := by
    intro item hitem
    obtain ⟨b, -, rfl⟩ := Option.map_eq_some_iff.1 hitem
    exact .inr ⟨b, rfl⟩
  cases hf with
  | some h =>
    obtain ⟨b?, hread⟩ := readsAs_fraction h hx n excess
    refine ⟨_, fun r hr => ?_, hbinary b?⟩
    simpa [readAfter] using (hread r hr).map (Item.binary negative)
  | none =>
    cases hx with
    | some hmark hsign h =>
      obtain ⟨b?, hread⟩ := readsAs_signedExponent hsign h n excess
      refine ⟨_, fun r hr => ?_, hbinary b?⟩
      simpa [readAfter, isExponentMark_of hmark] using (hread r hr).map (Item.binary negative)
    | none =>
      by_cases hexcess : excess = 0
      · refine ⟨some (wholeNumber negative n), fun r hr => ?_, fun item hitem => ?_⟩
        · rw [List.nil_append, List.nil_append, readAfter_delimited hr, if_pos hexcess]
          rfl
        · exact .inl ⟨rfl, rfl, hexcess, (Option.some.inj hitem).symm⟩
      · refine ⟨_, fun r hr => ?_, hbinary (Binary.ofScientific n excess)⟩
        rw [List.nil_append, List.nil_append, readAfter_delimited hr, if_neg hexcess]
        exact (readsAs_scaled n excess r).map (Item.binary negative)

/-- **A number is read in full**, whatever its spelling, as a whole number that it spells or as a
binary number, or refused. -/
theorem NumberText.reads {t : Bytes} (h : NumberText t) :
    ∃ item?, ReadsWhole readNumber t item? ∧ ∀ item ∈ item?, item.OfNumber t := by
  obtain ⟨negative, hw, hf, hx⟩ := h
  rename_i whole f x
  obtain ⟨d, ds, rfl, hd, hds, hlead⟩ := hw.split
  obtain ⟨item?, hread, hitem⟩ := readsAs_after hf hx negative (takeDigits (digitValue d) 0 ds).1
    (takeDigits (digitValue d) 0 ds).2.2.length
  refine ⟨item?, fun r hr => ?_, fun item hmem => ?_⟩
  · have hread := hread r hr
    rw [List.append_assoc,
      ← readUnsigned_whole hd hds hlead (hf.noDigit hx hr) negative] at hread
    have hstart : ∃ b u, d :: (ds ++ (f ++ (x ++ r))) = b :: u ∧ isDigit b := ⟨d, _, rfl, hd⟩
    rw [← readNumber_sign negative hstart] at hread
    simpa using hread
  · rcases hitem item hmem with ⟨rfl, rfl, hall, rfl⟩ | ⟨b, rfl⟩
    · rw [List.append_nil, List.append_nil]
      rw [takeDigits_value hds _ _ (List.length_eq_zero_iff.1 hall), ← digitsValue_cons]
      rcases wholeNumber_cases negative (digitsValue 0 (d :: ds)) with ⟨i, hi⟩ | ⟨b, hb⟩
      · rw [hi]
        exact .of_wholeNumber hw hi
      · rw [hb]
        trivial
    · trivial

theorem IntegerText.number {i : Int} {t : Bytes} (h : IntegerText i t) : NumberText t := by
  cases h with
  | natural h =>
    have hnumber := NumberText.mk false h .none .none
    rwa [List.append_nil, List.append_nil] at hnumber
  | negative h _ =>
    have hnumber := NumberText.mk true h .none .none
    rwa [List.append_nil, List.append_nil] at hnumber

/-- Digits that fit 64 bits, after a sign at most. -/
theorem readNumber_whole {ds r : Bytes} (h : WholeText ds)
    (hlt : digitsValue 0 ds < significandLimit) (hr : Delimited r) (negative : Bool) :
    readNumber ((if negative then [0x2D] else []) ++ (ds ++ r)) =
      .ok (wholeNumber negative (digitsValue 0 ds), r) := by
  obtain ⟨d, ds, rfl, hd, hds, hlead⟩ := h.split
  rw [digitsValue_cons] at hlt ⊢
  have hall := takeDigits_of_lt hds hlt 0
  rw [List.cons_append, readNumber_sign negative ⟨d, _, rfl, hd⟩,
    readUnsigned_whole hd hds hlead hr.noDigit, takeDigits_value hds _ _ hall, hall,
    readAfter_delimited hr]
  rfl

/-- **A whole number of 64 bits with a sign is read as itself.** -/
theorem IntegerText.reads {i : Int} {t : Bytes} (h : IntegerText i t) (hl : -2 ^ 63 ≤ i)
    (hh : i < 2 ^ 63) : ReadsWhole readNumber t (some (.integer i)) := by
  intro r hr
  cases h with
  | natural h =>
    have hlt : digitsValue 0 t < significandLimit := by unfold significandLimit; omega
    exact readNumber_whole h hlt hr false
  | @negative ds h h0 =>
    have hlt : digitsValue 0 ds < significandLimit := by unfold significandLimit; omega
    have hread := readNumber_whole h hlt hr true
    have hitem : wholeNumber true (digitsValue 0 ds) = .integer (-(digitsValue 0 ds : Int)) := by
      unfold wholeNumber
      rw [if_neg (by decide), if_neg (by omega)]
    rw [hitem] at hread
    exact hread

/-! ## Passing over numbers -/

theorem skip_exponent {sign ds r : Bytes} (hsign : sign = [] ∨ sign = [0x2B] ∨ sign = [0x2D])
    (h : DigitsText ds) (hr : NoDigit r) : skipExponent (sign ++ (ds ++ r)) = .ok r := by
  obtain ⟨d, ds', rfl, hd, hds⟩ := h.split
  have hplus : d ≠ 0x2B := isDigit_ne hd (by decide)
  have hminus : d ≠ 0x2D := isDigit_ne hd (by decide)
  rcases hsign with rfl | rfl | rfl
  · simp [skipExponent, hplus, hminus, hd, dropWhile_digits hds hr]
  · simp [skipExponent, hd, dropWhile_digits hds hr]
  · simp [skipExponent, hd, dropWhile_digits hds hr]

theorem skip_fraction {ds x r : Bytes} (h : DigitsText ds) (hx : ExponentText x)
    (hr : Delimited r) : skipFraction (ds ++ (x ++ r)) = .ok r := by
  have hdrop := dropWhile_digits h.digits (hx.noDigit hr)
  obtain ⟨d, ds', rfl, hd, -⟩ := h.split
  rw [List.cons_append] at hdrop ⊢
  simp only [skipFraction, hd, hdrop, Bool.not_true]
  cases hx with
  | none =>
    cases r with
    | nil => rfl
    | cons b r => simp [(hr b rfl).2.2]
  | some hmark hsign hds =>
    simp [isExponentMark_of hmark, skip_exponent hsign hds hr.noDigit]

/-- Passes over what follows the digits before the point. -/
def skipAfter : Bytes → Except Fault Bytes
  | c :: r =>
    if c = 0x2E then skipFraction r
    else if isExponentMark c then skipExponent r
    else .ok (c :: r)
  | [] => .ok []

theorem skipUnsigned_whole {ds r : Bytes} (h : WholeText ds) (hr : NoDigit r) :
    skipUnsigned (ds ++ r) = skipAfter r := by
  obtain ⟨d, ds, rfl, hd, hds, hlead⟩ := h.split
  have hzero := no_leading_zero hlead hr
  have hrest : (if d = 0x30 then ds ++ r else (ds ++ r).dropWhile isDigit) = r := by
    split
    case isTrue h0 => rw [hlead h0, List.nil_append]
    case isFalse => exact dropWhile_digits hds hr
  simp only [List.cons_append, skipUnsigned, hd, Bool.not_true, hzero, hrest]
  cases r <;> rfl

theorem skipUnsigned_number {ds f x r : Bytes} (h : WholeText ds) (hf : FractionText f)
    (hx : ExponentText x) (hr : Delimited r) :
    skipUnsigned (ds ++ (f ++ (x ++ r))) = .ok r := by
  rw [skipUnsigned_whole h (hf.noDigit hx hr)]
  cases hf with
  | some hds => exact skip_fraction hds hx hr
  | none =>
    cases hx with
    | some hmark hsign hds =>
      simp [skipAfter, isExponentMark_of hmark, skip_exponent hsign hds hr.noDigit]
    | none =>
      cases r with
      | nil => rfl
      | cons b r => simp [skipAfter, (hr b rfl).2.1, (hr b rfl).2.2]

theorem NumberText.head {t : Bytes} (h : NumberText t) :
    ∃ b u, t = b :: u ∧ (b = 0x2D ∨ isDigit b) := by
  obtain ⟨negative, hw, -, -⟩ := h
  obtain ⟨d, ds, rfl, hd, -⟩ := hw.split
  cases negative with
  | true => exact ⟨0x2D, _, rfl, .inl rfl⟩
  | false => exact ⟨d, _, rfl, .inr hd⟩

/-- **A number is passed over**, whatever its spelling. -/
theorem NumberText.skip {b : UInt8} {u : Bytes} (h : NumberText (b :: u)) {r : Bytes}
    (hr : Delimited r) : skipScalar b (u ++ r) = .ok r := by
  generalize ht : b :: u = t at h
  obtain ⟨negative, hw, hf, hx⟩ := h
  rename_i whole f x
  have hskip := skipUnsigned_number hw hf hx hr
  cases negative with
  | true =>
    obtain ⟨rfl, rfl⟩ := List.cons.inj ht
    simpa [skipScalar] using hskip
  | false =>
    have ht : b :: u = whole ++ (f ++ x) := ht
    obtain ⟨d, ds, rfl, hd, -⟩ := hw.split
    obtain ⟨rfl, rfl⟩ := List.cons.inj ht
    have hquote : b ≠ 0x22 := isDigit_ne hd (by decide)
    have hminus : b ≠ 0x2D := isDigit_ne hd (by decide)
    simpa [skipScalar, hquote, hminus, hd] using hskip

/-! ## Scalars -/

/-- What a value may be read as, from its first bracket or as a whole. -/
def Item.Of (text : Bytes) : Item → Prop
  | .null => True
  | .boolean _ => True
  | .integer i => IntegerText i text ∧ readNumber text = .ok (.integer i, [])
  | .binary negative b => NumberText text ∧ readNumber text = .ok (.binary negative b, [])
  | .text s => StringText s text
  | .list => False
  | .object => False

theorem NumberText.yields {t : Bytes} (h : NumberText t) :
    ∃ item?, Yields readItem t item? ∧ ∀ item ∈ item?, item.Of t := by
  obtain ⟨item?, hread, hitem⟩ := h.reads
  refine ⟨item?, yields_number h.head hread, ?_⟩
  intro item hmem
  have hwhole := hread [] .nil
  rw [List.append_nil, hmem] at hwhole
  have hof := hitem item hmem
  cases item with
  | integer i => exact ⟨hof, hwhole⟩
  | binary negative b => exact ⟨h, hwhole⟩
  | _ => exact hof.elim

theorem readWord_self (word r : Bytes) : readWord word (word ++ r) = .ok r := by
  induction word with
  | nil => rfl
  | cons b word ih => rw [List.cons_append, readWord, if_pos rfl, ih]

theorem readItem_blanks {w : Bytes} (hw : Blanks w) (r : Bytes) :
    readItem (w ++ r) = readItem r := by
  simp only [readItem, skipBlanks_append hw]

theorem yields_word {word : Bytes} {item : Item} (hstart : StartsValue word)
    (h : ∀ r, readItem (word ++ r) = .ok (item, r)) : Yields readItem word (some item) := by
  refine ⟨hstart, ?_⟩
  intro w r hw _
  rw [readItem_blanks hw]
  exact h r

theorem yields_null : Yields readItem (Utf8.encode "null") (some .null) := by
  apply yields_word ⟨0x6E, nullTail, rfl, by decide, by decide⟩
  intro r
  rw [List.cons_append]
  simp only [readItem, skipBlanks_cons (b := 0x6E) (by decide), readWord_self]
  rfl

theorem yields_true : Yields readItem (Utf8.encode "true") (some (.boolean true)) := by
  apply yields_word ⟨0x74, trueTail, rfl, by decide, by decide⟩
  intro r
  rw [List.cons_append]
  simp only [readItem, skipBlanks_cons (b := 0x74) (by decide), readWord_self]
  rfl

theorem yields_false : Yields readItem (Utf8.encode "false") (some (.boolean false)) := by
  apply yields_word ⟨0x66, falseTail, rfl, by decide, by decide⟩
  intro r
  rw [List.cons_append]
  simp only [readItem, skipBlanks_cons (b := 0x66) (by decide), readWord_self]
  rfl

/-- **A scalar is read in full**, whatever its spelling, or refused. -/
theorem ScalarText.yields {t : Bytes} (h : ScalarText t) :
    ∃ item?, Yields readItem t item? ∧ ∀ item ∈ item?, item.Of t := by
  cases h with
  | null => exact ⟨_, yields_null, fun item h => by cases h; trivial⟩
  | true => exact ⟨_, yields_true, fun item h => by cases h; trivial⟩
  | false => exact ⟨_, yields_false, fun item h => by cases h; trivial⟩
  | number h => exact h.yields
  | text h => exact ⟨_, h.yields, fun item hitem => by cases hitem; exact h⟩

/-- The bytes that scalars start with are neither white space nor brackets. -/
def StartsScalar (b : UInt8) : Prop :=
  isBlank b = false ∧ b ≠ 0x5B ∧ b ≠ 0x5D ∧ b ≠ 0x7B

theorem startsScalar_number {b : UInt8} (h : b = 0x2D ∨ isDigit b) : StartsScalar b := by
  rcases h with rfl | h
  · unfold StartsScalar
    decide
  · exact ⟨(number_start (.inr h)).1, isDigit_ne h (by decide), isDigit_ne h (by decide),
      isDigit_ne h (by decide)⟩

/-- **A scalar is passed over**, whatever its spelling. -/
theorem ScalarText.skip {t : Bytes} (h : ScalarText t) :
    ∃ b u, t = b :: u ∧ StartsScalar b ∧
      ∀ r, Delimited r → skipScalar b (u ++ r) = .ok r := by
  cases h with
  | null => exact ⟨0x6E, nullTail, rfl, by unfold StartsScalar; decide,
      fun r _ => readWord_self nullTail r⟩
  | true => exact ⟨0x74, trueTail, rfl, by unfold StartsScalar; decide,
      fun r _ => readWord_self trueTail r⟩
  | false => exact ⟨0x66, falseTail, rfl, by unfold StartsScalar; decide,
      fun r _ => readWord_self falseTail r⟩
  | number h =>
    obtain ⟨b, u, rfl, hb⟩ := h.head
    exact ⟨b, u, rfl, startsScalar_number hb, fun r hr => h.skip hr⟩
  | text h =>
    obtain ⟨h⟩ := h
    refine ⟨0x22, _, rfl, by unfold StartsScalar; decide, fun r _ => ?_⟩
    rw [List.append_assoc]
    exact h.skip r

end CustomsClaims.Json
