import CustomsClaims.Json.Printer
import CustomsClaims.Json.Text
import CustomsClaims.Proofs.Text.Utf8

/-!
# JSON strings

How strings are spelled in JSON, as predicates on bytes that do not mention any reader: character by
character, each as its UTF-8 bytes or as an escape (`CharText`). A character beyond U+FFFF is
escaped as a pair of surrogates, and no surrogate stands alone.

Whatever its spelling, a string is read as the string it spells (`CharsText.read`), and passed over
(`CharsText.skip`). What `writeText` writes is one of the spellings (`stringText_writeText`), so
that every Unicode string reads back.
-/

namespace CustomsClaims.Json

/-! ## Spellings -/

/-- The letters that stand for a character after a backslash. -/
def shortEscapes : List (UInt8 × Char) :=
  [(0x22, '"'), (0x5C, '\\'), (0x2F, '/'), (0x62, '\x08'), (0x66, '\x0C'), (0x6E, '\n'),
    (0x72, '\r'), (0x74, '\t')]

/-- Is the byte the hexadecimal digit of that value, in either case? -/
def IsHex (b : UInt8) (n : Nat) : Prop :=
  n < 10 ∧ b.toNat = 0x30 + n ∨
    10 ≤ n ∧ n < 16 ∧ (b.toNat = 0x41 + (n - 10) ∨ b.toNat = 0x61 + (n - 10))

/-- A code unit of UTF-16, escaped in four hexadecimal digits. -/
inductive UnitText : Nat → Bytes → Prop
  | mk {a b c d : UInt8} {i j k l : Nat} (ha : IsHex a i) (hb : IsHex b j) (hc : IsHex c k)
      (hd : IsHex d l) :
      UnitText (((i * 16 + j) * 16 + k) * 16 + l) [0x5C, 0x75, a, b, c, d]

/-- How a character may be spelled inside a string. -/
inductive CharText : Char → Bytes → Prop
  | plain {c : Char} (hcontrol : 0x20 ≤ c.toNat) (hquote : c ≠ '"') (hbackslash : c ≠ '\\') :
      CharText c (String.utf8EncodeChar c)
  | short {b : UInt8} {c : Char} (h : (b, c) ∈ shortEscapes) : CharText c [0x5C, b]
  | unit {c : Char} {t : Bytes} (hc : c.toNat < 0x10000) (h : UnitText c.toNat t) : CharText c t
  | pair {c : Char} {t u : Bytes} (hc : 0x10000 ≤ c.toNat)
      (high : UnitText (0xD800 + (c.toNat - 0x10000) / 0x400) t)
      (low : UnitText (0xDC00 + (c.toNat - 0x10000) % 0x400) u) : CharText c (t ++ u)

/-- How the characters of a string may be spelled. -/
inductive CharsText : List Char → Bytes → Prop
  | nil : CharsText [] []
  | cons {c : Char} {cs : List Char} {t u : Bytes} (h : CharText c t) (hs : CharsText cs u) :
      CharsText (c :: cs) (t ++ u)

/-- How a string may be spelled. -/
inductive StringText : String → Bytes → Prop
  | mk {s : String} {t : Bytes} (h : CharsText s.toList t) : StringText s (0x22 :: (t ++ [0x22]))

/-! ## Scanning -/

theorem scanText_plain {b : UInt8} (hq : b ≠ 0x22) (hb : b ≠ 0x5C) (hc : 0x20 ≤ b)
    (acc r : Bytes) : scanText acc (b :: r) = scanText (b :: acc) r := by
  rw [scanText.eq_7 acc b r hq (by simp [hb]) (by simp [hb]) (by simp [hb]) (by simp [hb]),
    if_neg (by simpa using hc)]

theorem scanText_plains {bs : Bytes} (h : ∀ b ∈ bs, b ≠ 0x22 ∧ b ≠ 0x5C ∧ 0x20 ≤ b)
    (acc r : Bytes) : scanText acc (bs ++ r) = scanText (bs.reverse ++ acc) r := by
  induction bs generalizing acc with
  | nil => rfl
  | cons b bs ih =>
    obtain ⟨hq, hb, hc⟩ := h b (by simp)
    rw [List.cons_append, scanText_plain hq hb hc, ih fun x hx => h x (by simp [hx])]
    simp

theorem scanText_short {b e : UInt8} (hb : b ≠ 0x75) (he : shortEscape? b = some e)
    (acc r : Bytes) : scanText acc (0x5C :: b :: r) = scanText (e :: acc) r := by
  rw [scanText.eq_5 acc b r (by simp [hb]) (by simp [hb]), he]

/-- No byte of a character that may stand for itself ends the string or begins an escape. -/
theorem plain_bytes {c : Char} (hcontrol : 0x20 ≤ c.toNat) (hquote : c ≠ '"')
    (hbackslash : c ≠ '\\') :
    ∀ b ∈ String.utf8EncodeChar c, b ≠ 0x22 ∧ b ≠ 0x5C ∧ 0x20 ≤ b := by
  intro b hb
  rcases Nat.lt_or_ge c.toNat 0x80 with hlt | hge
  · rw [Utf8.encodeChar_ascii hlt, List.mem_singleton] at hb
    have hn : b.toNat = c.toNat := by rw [hb, UInt8.toNat_ofNat']; omega
    have hchar (d : Char) (k : UInt8) (hk : d.toNat = k.toNat) (hd : c ≠ d) : b ≠ k := by
      rintro rfl
      exact hd (Char.toNat_inj.1 (hn.symm.trans hk.symm))
    exact ⟨hchar '"' 0x22 rfl hquote, hchar '\\' 0x5C rfl hbackslash,
      UInt8.le_iff_toNat_le.2 (by rw [hn]; exact hcontrol)⟩
  · have hge' := Utf8.le_of_mem_encodeChar hge hb
    refine ⟨?_, ?_, UInt8.le_iff_toNat_le.2 (by simp; omega)⟩ <;>
    · rintro rfl
      simp at hge'

theorem hexDigit?_of_isHex {b : UInt8} {n : Nat} (h : IsHex b n) : hexDigit? b = some n := by
  simp only [hexDigit?, UInt8.le_iff_toNat_le]
  rcases h with ⟨hn, hb⟩ | ⟨hn, hn', hb | hb⟩
  · rw [if_pos (by simp [hb]; omega), hb]
    simp
  · rw [if_neg (by simp [hb]; omega), if_pos (by simp [hb]; omega), hb]
    simp
    omega
  · rw [if_neg (by simp [hb]; omega), if_neg (by simp [hb]; omega), if_pos (by simp [hb]; omega),
      hb]
    simp
    omega

/-- An escaped code unit is one of four digits, which have its value. -/
theorem UnitText.four {n : Nat} {t : Bytes} (h : UnitText n t) :
    ∃ a b c d, t = [0x5C, 0x75, a, b, c, d] ∧ hexFour? a b c d = some n := by
  obtain ⟨ha, hb, hc, hd⟩ := h
  refine ⟨_, _, _, _, rfl, ?_⟩
  simp [hexFour?, hexDigit?_of_isHex ha, hexDigit?_of_isHex hb, hexDigit?_of_isHex hc,
    hexDigit?_of_isHex hd]

/-- The letter of a short escape stands for the one byte of its character. -/
theorem shortEscape?_of_mem : ∀ x ∈ shortEscapes,
    x.1 ≠ 0x75 ∧ ∃ e, shortEscape? x.1 = some e ∧ String.utf8EncodeChar x.2 = [e] := by
  decide

theorem char_cases (c : Char) :
    c.toNat < 0xD800 ∨ 0xDFFF < c.toNat ∧ c.toNat < 0x110000 := c.valid

/-- **A spelled character is scanned** as its bytes. -/
theorem CharText.scan {c : Char} {t : Bytes} (h : CharText c t) (acc r : Bytes) :
    scanText acc (t ++ r) = scanText ((String.utf8EncodeChar c).reverse ++ acc) r := by
  cases h with
  | plain hcontrol hquote hbackslash =>
    exact scanText_plains (plain_bytes hcontrol hquote hbackslash) acc r
  | short h =>
    obtain ⟨hne, e, he, hbytes⟩ := shortEscape?_of_mem _ h
    rw [hbytes]
    exact scanText_short hne he acc r
  | unit hc h =>
    obtain ⟨a, b, c', d, rfl, hfour⟩ := h.four
    have hlow : isLowSurrogate c.toNat = false := by
      have := char_cases c
      simp [isLowSurrogate]
      omega
    have hhigh : isHighSurrogate c.toNat = false := by
      have := char_cases c
      simp [isHighSurrogate]
      omega
    simp [scanText, hfour, hlow, hhigh]
  | pair hc high low =>
    obtain ⟨a, b, c', d, rfl, hfour⟩ := high.four
    obtain ⟨a', b', c'', d', rfl, hfour'⟩ := low.four
    have hc' := char_cases c
    generalize hn : 0xD800 + (c.toNat - 0x10000) / 0x400 = n at *
    generalize hm : 0xDC00 + (c.toNat - 0x10000) % 0x400 = m at *
    have hlow : isLowSurrogate n = false := by simp [isLowSurrogate]; omega
    have hhigh : isHighSurrogate n = true := by simp [isHighSurrogate]; omega
    have hlow' : isLowSurrogate m = true := by simp [isLowSurrogate]; omega
    have hchar : ofSurrogates n m = c := by
      have hvalue : (n - 0xD800) * 0x400 + (m - 0xDC00) + 0x10000 = c.toNat := by omega
      rw [ofSurrogates, hvalue, Char.ofNat_toNat]
    simp [scanText, hfour, hfour', hlow, hhigh, hlow', hchar]

theorem CharsText.scan {cs : List Char} {t : Bytes} (h : CharsText cs t) (acc r : Bytes) :
    scanText acc (t ++ r) = scanText ((Utf8.encodeChars cs).reverse ++ acc) r := by
  induction h generalizing acc with
  | nil => rfl
  | cons h _ ih =>
    rw [List.append_assoc, h.scan, ih]
    simp [Utf8.encodeChars]

/-- **A spelled string is read** after its opening quote, whatever its spelling. -/
theorem CharsText.read {s : String} {t : Bytes} (h : CharsText s.toList t) (r : Bytes) :
    readText (t ++ 0x22 :: r) = .ok (s, r) := by
  have hscan : scanText [] (t ++ 0x22 :: r) = .ok (Utf8.encode s, r) := by
    rw [h.scan, scanText, List.append_nil, List.reverse_reverse, Utf8.encode]
  simp only [readText, hscan, bind, Except.bind, Utf8.decode?_encode]
  rfl

/-! ## Passing over strings -/

theorem skipText_plain {b : UInt8} (hq : b ≠ 0x22) (hb : b ≠ 0x5C) (hc : 0x20 ≤ b) (r : Bytes) :
    skipText (b :: r) = skipText r := by
  rw [skipText.eq_7 b r hq (by simp [hb]) (by simp [hb]) (by simp [hb]) (by simp [hb]),
    if_neg (by simpa using hc)]

theorem skipText_plains {bs : Bytes} (h : ∀ b ∈ bs, b ≠ 0x22 ∧ b ≠ 0x5C ∧ 0x20 ≤ b) (r : Bytes) :
    skipText (bs ++ r) = skipText r := by
  induction bs with
  | nil => rfl
  | cons b bs ih =>
    obtain ⟨hq, hb, hc⟩ := h b (by simp)
    rw [List.cons_append, skipText_plain hq hb hc, ih fun x hx => h x (by simp [hx])]

theorem UnitText.skip {n : Nat} {t : Bytes} (h : UnitText n t) (r : Bytes) :
    skipText (t ++ r) = skipText r := by
  obtain ⟨a, b, c, d, rfl, hfour⟩ := h.four
  simp [skipText, hfour]

theorem CharText.skip {c : Char} {t : Bytes} (h : CharText c t) (r : Bytes) :
    skipText (t ++ r) = skipText r := by
  cases h with
  | plain hcontrol hquote hbackslash =>
    exact skipText_plains (plain_bytes hcontrol hquote hbackslash) r
  | short h =>
    obtain ⟨hne, e, he, -⟩ := shortEscape?_of_mem _ h
    rw [List.cons_append, List.singleton_append,
      skipText.eq_5 _ r (by simp [hne]) (by simp [hne]), he]
    rfl
  | unit _ h => exact h.skip r
  | pair _ high low => rw [List.append_assoc, high.skip, low.skip]

/-- **A spelled string is passed over** after its opening quote. -/
theorem CharsText.skip {cs : List Char} {t : Bytes} (h : CharsText cs t) (r : Bytes) :
    skipText (t ++ 0x22 :: r) = .ok r := by
  induction h with
  | nil => rw [List.nil_append, skipText]
  | cons h _ ih => rw [List.append_assoc, h.skip, ih]

/-! ## Strings are UTF-8 -/

theorem IsHex.lt {b : UInt8} {n : Nat} (h : IsHex b n) : b < 0x80 := by
  rw [UInt8.lt_iff_toNat_lt]
  rcases h with ⟨hn, hb⟩ | ⟨hn, hn', hb | hb⟩ <;> simp <;> omega

theorem UnitText.isText {n : Nat} {t : Bytes} (h : UnitText n t) : Utf8.IsText t := by
  obtain ⟨ha, hb, hc, hd⟩ := h
  refine .ascii ?_
  simp only [List.forall_mem_cons, List.not_mem_nil]
  exact ⟨by decide, by decide, ha.lt, hb.lt, hc.lt, hd.lt, by simp⟩

theorem CharText.isText {c : Char} {t : Bytes} (h : CharText c t) : Utf8.IsText t := by
  cases h with
  | plain _ _ _ => exact .encodeChar c
  | short h =>
    have hb : ∀ x ∈ shortEscapes, x.1 < 0x80 := by decide
    exact (Utf8.IsText.nil.cons (hb _ h)).cons (by decide)
  | unit _ h => exact h.isText
  | pair _ high low => exact high.isText.append low.isText

theorem CharsText.isText {cs : List Char} {t : Bytes} (h : CharsText cs t) : Utf8.IsText t := by
  induction h with
  | nil => exact .nil
  | cons h _ ih => exact h.isText.append ih

theorem StringText.isText {s : String} {t : Bytes} (h : StringText s t) : Utf8.IsText t := by
  obtain ⟨h⟩ := h
  exact (h.isText.append (Utf8.IsText.nil.cons (by decide))).cons (by decide)

/-! ## Writing -/

instance (b : UInt8) (n : Nat) : Decidable (IsHex b n) :=
  inferInstanceAs (Decidable (_ ∨ _))

theorem isHex_digitChar : ∀ n < 16,
    Utf8.encodeChars [Nat.digitChar n] = [UInt8.ofNat (Nat.digitChar n).toNat] ∧
      IsHex (UInt8.ofNat (Nat.digitChar n).toNat) n := by
  decide

/-- **A written character is one of its spellings.** -/
theorem charText_writeChar (c : Char) : CharText c (writeChar c) := by
  unfold writeChar
  split
  case isTrue h => subst h; exact .short (b := 0x22) (by decide)
  split
  case isTrue h => subst h; exact .short (b := 0x5C) (by decide)
  split
  case isTrue h => subst h; exact .short (b := 0x62) (by decide)
  split
  case isTrue h => subst h; exact .short (b := 0x66) (by decide)
  split
  case isTrue h => subst h; exact .short (b := 0x6E) (by decide)
  split
  case isTrue h => subst h; exact .short (b := 0x72) (by decide)
  split
  case isTrue h => subst h; exact .short (b := 0x74) (by decide)
  split
  case isTrue h =>
    have hn : c.toNat < 32 := h
    obtain ⟨h1, h1'⟩ := isHex_digitChar (c.toNat / 16) (by omega)
    obtain ⟨h2, h2'⟩ := isHex_digitChar (c.toNat % 16) (by omega)
    have h0 : IsHex 0x30 0 := by decide
    have hbytes : Utf8.encode "\\u00" ++ Utf8.encodeChars
        [Nat.digitChar (c.toNat / 16), Nat.digitChar (c.toNat % 16)] =
        [0x5C, 0x75, 0x30, 0x30, UInt8.ofNat (Nat.digitChar (c.toNat / 16)).toNat,
          UInt8.ofNat (Nat.digitChar (c.toNat % 16)).toNat] := by
      rw [← List.singleton_append, Utf8.encodeChars_append, h1, h2]
      rfl
    have hvalue : ((0 * 16 + 0) * 16 + c.toNat / 16) * 16 + c.toNat % 16 = c.toNat := by omega
    have hunit := UnitText.mk h0 h0 h1' h2'
    rw [hvalue] at hunit
    rw [hbytes]
    exact .unit (by omega) hunit
  case isFalse hq hb _ _ _ _ _ hctl =>
    have hctl' : ¬ c.toNat < 32 := hctl
    exact .plain (by omega) hq hb

theorem charsText_writeChars (cs : List Char) : CharsText cs (cs.flatMap writeChar) := by
  induction cs with
  | nil => exact .nil
  | cons c cs ih => exact .cons (charText_writeChar c) ih

/-- A written string is one of its spellings. -/
theorem stringText_writeText (s : String) : StringText s (writeText s) :=
  .mk (charsText_writeChars s.toList)

/-- **A written string reads back** after its opening quote. -/
theorem readText_writeChars (s : String) (r : Bytes) :
    readText (s.toList.flatMap writeChar ++ 0x22 :: r) = .ok (s, r) :=
  (charsText_writeChars s.toList).read r

end CustomsClaims.Json
