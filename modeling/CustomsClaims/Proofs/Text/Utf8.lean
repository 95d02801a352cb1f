import CustomsClaims.Text.Utf8

/-!
# UTF-8 reads back

`decode?_encode`: the bytes of a string decode to that string. The proof follows the machine over
the bytes of one character (`piecesFrom_encodeChar`): its lead byte leaves the machine owing exactly
the continuation bytes that `String.utf8EncodeChar` writes, and the last of them completes the
character. `IsText bs` says that `bs` is the encoding of some characters; it is kept by
concatenation, which is how longer texts are seen to decode.

Nothing else decodes (`decode?_eq_some`): whatever bytes the machine owes inside a character, with
them the bytes that it has read make a text (`State.Owes`), so that every character it completes was
spelled by its encoding.
-/

namespace CustomsClaims.Utf8

/-! ## Single bytes -/

section
variable {b : UInt8} {n : Nat} {l h : UInt8} {m v w : Nat}

theorem begin_one (hb : b.toNat = n) (hn : n < 0x80) :
    begin b = ([.char (Char.ofNat n)], .between) := by
  simp [begin, UInt8.lt_iff_toNat_lt, hb, hn]

theorem begin_two (hb : b.toNat = n + 0xC0) (hn : 2 ≤ n) (hn' : n < 0x20) :
    begin b = ([], .within 0x80 0xBF 0 n 1) := by
  have hlt (k : UInt8) : b < k ↔ n + 0xC0 < k.toNat := by rw [UInt8.lt_iff_toNat_lt, hb]
  unfold begin
  rw [if_neg (by simp [hlt]), if_neg (by simp [hlt]; omega), if_pos (by simp [hlt]; omega), hb,
    Nat.add_sub_cancel]

theorem begin_three (hb : b.toNat = n + 0xE0) (hn : n < 0x10) :
    begin b =
      ([], .within (if n = 0 then 0xA0 else 0x80) (if n = 0xD then 0x9F else 0xBF) 1 n 1) := by
  have hlt (k : UInt8) : b < k ↔ n + 0xE0 < k.toNat := by rw [UInt8.lt_iff_toNat_lt, hb]
  have h0 : b = 0xE0 ↔ n = 0 := by rw [← UInt8.toNat_inj, hb]; simp
  have h13 : b = 0xED ↔ n = 0xD := by rw [← UInt8.toNat_inj, hb]; simp
  unfold begin
  rw [if_neg (by simp [hlt]), if_neg (by simp [hlt]), if_neg (by simp [hlt]),
    if_pos (by simp [hlt]; omega), hb]
  simp [h0, h13]

theorem begin_four (hb : b.toNat = n + 0xF0) (hn : n < 5) :
    begin b =
      ([], .within (if n = 0 then 0x90 else 0x80) (if n = 4 then 0x8F else 0xBF) 2 n 1) := by
  have hlt (k : UInt8) : b < k ↔ n + 0xF0 < k.toNat := by rw [UInt8.lt_iff_toNat_lt, hb]
  have h0 : b = 0xF0 ↔ n = 0 := by rw [← UInt8.toNat_inj, hb]; simp
  have h4 : b = 0xF4 ↔ n = 4 := by rw [← UInt8.toNat_inj, hb]; simp
  unfold begin
  rw [if_neg (by simp [hlt]), if_neg (by simp [hlt]), if_neg (by simp [hlt]),
    if_neg (by simp [hlt]), if_pos (by simp [hlt]; omega), hb]
  simp [h0, h4]

theorem step_within (hb : b.toNat = n + 0x80) (hl : l.toNat ≤ n + 0x80)
    (hh : n + 0x80 ≤ h.toNat) :
    (State.within l h (m + 1) v w).step b = ([], .within 0x80 0xBF m (v * 64 + n) (w + 1)) := by
  simp [State.step, UInt8.le_iff_toNat_le, hb, hl, hh]

theorem step_last (hb : b.toNat = n + 0x80) (hl : l.toNat ≤ n + 0x80)
    (hh : n + 0x80 ≤ h.toNat) :
    (State.within l h 0 v w).step b = ([.char (Char.ofNat (v * 64 + n))], .between) := by
  simp [State.step, UInt8.le_iff_toNat_le, hb, hl, hh]

end

/-! ## Characters -/

theorem toNat_byte {n : Nat} (h : n < 256) : (UInt8.ofNat n).toNat = n := by
  rw [UInt8.toNat_ofNat']
  omega

theorem val_ofNat {n : Nat} (h : n.isValidChar) : (Char.ofNat n).val.toNat = n := by
  rw [Char.ofNat, dif_pos h]
  rfl

/-- The bytes of a character complete exactly that character. -/
theorem piecesFrom_encodeChar (c : Char) (acc : List Piece) (bs : Bytes) :
    piecesFrom .between acc (String.utf8EncodeChar c ++ bs) =
      piecesFrom .between (.char c :: acc) bs := by
  have hv : c.val.toNat < 0xD800 ∨ 0xDFFF < c.val.toNat ∧ c.val.toNat < 0x110000 := c.valid
  have hc : Char.ofNat c.val.toNat = c := Char.ofNat_toNat c
  generalize hw : c.val.toNat = v at hv hc
  simp only [String.utf8EncodeChar, hw]
  -- one case for each length; surrogates and overlong forms are what the ranges exclude
  split
  case isTrue h =>
    have h1 := begin_one (toNat_byte (show v < 256 by omega)) (by omega)
    simp only [List.cons_append, List.nil_append, piecesFrom, State.step.eq_1, h1, hc,
      List.reverse_cons, List.reverse_nil]
  case isFalse h =>
  split
  case isTrue h' =>
    have h1 := begin_two (n := v / 64 % 32) (toNat_byte (by omega)) (by omega) (by omega)
    have h2 := step_last (n := v % 64) (l := 0x80) (h := 0xBF) (v := v / 64 % 32)
      (w := 1) (toNat_byte (by omega)) (by simp) (by simp; omega)
    have hval : v / 64 % 32 * 64 + v % 64 = v := by omega
    simp only [List.cons_append, List.nil_append, piecesFrom, State.step.eq_1, h1, h2, hval, hc,
      List.reverse_cons, List.reverse_nil]
  case isFalse h' =>
  split
  case isTrue h'' =>
    have h1 := begin_three (n := v / 4096 % 16) (toNat_byte (by omega)) (by omega)
    have h2 := step_within (n := v / 64 % 64) (l := if v / 4096 % 16 = 0 then 0xA0 else 0x80)
      (h := if v / 4096 % 16 = 0xD then 0x9F else 0xBF) (m := 0) (v := v / 4096 % 16)
      (w := 1) (toNat_byte (by omega)) (by split <;> simp; omega) (by split <;> simp <;> omega)
    have h3 := step_last (n := v % 64) (l := 0x80) (h := 0xBF)
      (v := v / 4096 % 16 * 64 + v / 64 % 64) (w := 2) (toNat_byte (by omega)) (by simp)
      (by simp; omega)
    have hval : (v / 4096 % 16 * 64 + v / 64 % 64) * 64 + v % 64 = v := by omega
    simp only [List.cons_append, List.nil_append, piecesFrom, State.step.eq_1, h1, h2, h3, hval,
      hc, List.reverse_cons, List.reverse_nil]
  case isFalse h'' =>
    have h1 := begin_four (n := v / 262144 % 8) (toNat_byte (by omega)) (by omega)
    have h2 := step_within (n := v / 4096 % 64) (l := if v / 262144 % 8 = 0 then 0x90 else 0x80)
      (h := if v / 262144 % 8 = 4 then 0x8F else 0xBF) (m := 1) (v := v / 262144 % 8)
      (w := 1) (toNat_byte (by omega)) (by split <;> simp; omega) (by split <;> simp <;> omega)
    have h3 := step_within (n := v / 64 % 64) (l := 0x80) (h := 0xBF) (m := 0)
      (v := v / 262144 % 8 * 64 + v / 4096 % 64) (w := 2) (toNat_byte (by omega)) (by simp)
      (by simp; omega)
    have h4 := step_last (n := v % 64) (l := 0x80) (h := 0xBF)
      (v := (v / 262144 % 8 * 64 + v / 4096 % 64) * 64 + v / 64 % 64) (w := 3)
      (toNat_byte (by omega)) (by simp) (by simp; omega)
    have hval :
        ((v / 262144 % 8 * 64 + v / 4096 % 64) * 64 + v / 64 % 64) * 64 + v % 64 = v := by omega
    simp only [List.cons_append, List.nil_append, piecesFrom, State.step.eq_1, h1, h2, h3, h4,
      hval, hc, List.reverse_cons, List.reverse_nil]

theorem encodeChar_ascii {c : Char} (h : c.toNat < 0x80) :
    String.utf8EncodeChar c = [UInt8.ofNat c.toNat] := by
  have hv : c.val.toNat ≤ 0x7F := Nat.le_of_lt_succ h
  simp only [String.utf8EncodeChar, if_pos hv]
  rfl

/-- The bytes of any other character are 0x80 or more. -/
theorem le_of_mem_encodeChar {c : Char} (h : 0x80 ≤ c.toNat) {b : UInt8}
    (hb : b ∈ String.utf8EncodeChar c) : 0x80 ≤ b.toNat := by
  have hv : ¬ c.val.toNat ≤ 0x7F := fun hc => by
    have : c.toNat ≤ 0x7F := hc
    omega
  simp only [String.utf8EncodeChar, if_neg hv] at hb
  have key (k n : Nat) (hk : 0x80 ≤ k) (hn : n + k < 256) : 0x80 ≤ (UInt8.ofNat (n + k)).toNat := by
    rw [UInt8.toNat_ofNat']; omega
  split at hb
  · simp only [List.mem_cons, List.not_mem_nil, or_false] at hb
    rcases hb with rfl | rfl <;> exact key _ _ (by omega) (by omega)
  · split at hb
    · simp only [List.mem_cons, List.not_mem_nil, or_false] at hb
      rcases hb with rfl | rfl | rfl <;> exact key _ _ (by omega) (by omega)
    · simp only [List.mem_cons, List.not_mem_nil, or_false] at hb
      rcases hb with rfl | rfl | rfl | rfl <;> exact key _ _ (by omega) (by omega)

/-! ## Texts -/

theorem encodeChars_append (cs ds : List Char) :
    encodeChars (cs ++ ds) = encodeChars cs ++ encodeChars ds := by
  simp [encodeChars]

theorem encodeChars_eq_nil {cs : List Char} : encodeChars cs = [] ↔ cs = [] := by
  cases cs with
  | nil => simp [encodeChars]
  | cons c cs => simp [encodeChars, String.utf8EncodeChar_ne_nil]

theorem encode_append (s t : String) : encode (s ++ t) = encode s ++ encode t := by
  simp [encode, encodeChars_append]

theorem encode_ofList (cs : List Char) : encode (String.ofList cs) = encodeChars cs := by
  rw [encode, String.toList_ofList]

theorem piecesFrom_encodeChars (cs : List Char) (acc : List Piece) :
    piecesFrom .between acc (encodeChars cs) = acc.reverse ++ cs.map .char := by
  induction cs generalizing acc with
  | nil => simp [encodeChars, piecesFrom, State.finish]
  | cons c cs ih =>
    have hcons : encodeChars (c :: cs) = String.utf8EncodeChar c ++ encodeChars cs := rfl
    rw [hcons, piecesFrom_encodeChar, ih]
    simp

theorem mapM_char? (cs : List Char) : (cs.map Piece.char).mapM Piece.char? = some cs := by
  induction cs with
  | nil => rfl
  | cons c cs ih => simp [Piece.char?, ih]

theorem decode?_encodeChars (cs : List Char) :
    decode? (encodeChars cs) = some (String.ofList cs) := by
  have hp : pieces (encodeChars cs) = cs.map .char := by
    simp [pieces, piecesFrom_encodeChars]
  rw [decode?, hp, mapM_char?, Option.map_some]

/-- The bytes of a string decode to that string. -/
theorem decode?_encode (s : String) : decode? (encode s) = some s := by
  rw [encode, decode?_encodeChars, String.ofList_toList]

/-- Are the bytes the encoding of some characters? -/
def IsText (bs : Bytes) : Prop := ∃ cs, bs = encodeChars cs

namespace IsText

theorem nil : IsText [] := ⟨[], rfl⟩

theorem encodeChars (cs : List Char) : IsText (encodeChars cs) := ⟨cs, rfl⟩

theorem encode (s : String) : IsText (encode s) := ⟨s.toList, rfl⟩

theorem encodeChar (c : Char) : IsText (String.utf8EncodeChar c) :=
  ⟨[c], by simp [Utf8.encodeChars]⟩

theorem append {as bs : Bytes} (ha : IsText as) (hb : IsText bs) : IsText (as ++ bs) := by
  obtain ⟨cs, rfl⟩ := ha
  obtain ⟨ds, rfl⟩ := hb
  exact ⟨cs ++ ds, by simp [Utf8.encodeChars]⟩

theorem cons {b : UInt8} {bs : Bytes} (hb : b < 0x80) (h : IsText bs) : IsText (b :: bs) := by
  have hn : b.toNat < 128 := UInt8.lt_iff_toNat_lt.1 hb
  have hv : (Char.ofNat b.toNat).val.toNat = b.toNat := val_ofNat (.inl (by omega))
  have hc : String.utf8EncodeChar (Char.ofNat b.toNat) = [b] := by
    simp only [String.utf8EncodeChar, hv]
    rw [if_pos (by omega), UInt8.ofNat_toNat]
  have ht := (IsText.encodeChar (Char.ofNat b.toNat)).append h
  rwa [hc] at ht

theorem ascii {bs : Bytes} (h : ∀ b ∈ bs, b < 0x80) : IsText bs := by
  induction bs with
  | nil => exact nil
  | cons b bs ih => exact (ih fun x hx => h x (by simp [hx])).cons (h b (by simp))

/-- A text decodes, and encodes to the same bytes again. -/
theorem decode {bs : Bytes} (h : IsText bs) : ∃ s, decode? bs = some s ∧ Utf8.encode s = bs := by
  obtain ⟨cs, rfl⟩ := h
  exact ⟨String.ofList cs, decode?_encodeChars cs, by rw [Utf8.encode, String.toList_ofList]⟩

end IsText

/-! ## Nothing else is read -/

section
variable {a b c d : UInt8} {v : Nat}

theorem isText_two (hv : v.isValidChar) (hlow : 0x7F < v) (hhigh : v ≤ 0x7FF)
    (ha : a.toNat = v / 64 % 32 + 0xC0) (hb : b.toNat = v % 64 + 0x80) : IsText [a, b] := by
  have htext := IsText.encodeChar (Char.ofNat v)
  simp only [String.utf8EncodeChar, val_ofNat hv] at htext
  rwa [if_neg (by omega), if_pos hhigh, ← ha, ← hb, UInt8.ofNat_toNat, UInt8.ofNat_toNat] at htext

theorem isText_three (hv : v.isValidChar) (hlow : 0x7FF < v) (hhigh : v ≤ 0xFFFF)
    (ha : a.toNat = v / 4096 % 16 + 0xE0) (hb : b.toNat = v / 64 % 64 + 0x80)
    (hc : c.toNat = v % 64 + 0x80) : IsText [a, b, c] := by
  have htext := IsText.encodeChar (Char.ofNat v)
  simp only [String.utf8EncodeChar, val_ofNat hv] at htext
  rwa [if_neg (by omega), if_neg (by omega), if_pos hhigh, ← ha, ← hb, ← hc, UInt8.ofNat_toNat,
    UInt8.ofNat_toNat, UInt8.ofNat_toNat] at htext

theorem isText_four (hv : v.isValidChar) (hlow : 0xFFFF < v)
    (ha : a.toNat = v / 262144 % 8 + 0xF0) (hb : b.toNat = v / 4096 % 64 + 0x80)
    (hc : c.toNat = v / 64 % 64 + 0x80) (hd : d.toNat = v % 64 + 0x80) : IsText [a, b, c, d] := by
  have htext := IsText.encodeChar (Char.ofNat v)
  simp only [String.utf8EncodeChar, val_ofNat hv] at htext
  rwa [if_neg (by omega), if_neg (by omega), if_neg (by omega), ← ha, ← hb, ← hc, ← hd,
    UInt8.ofNat_toNat, UInt8.ofNat_toNat, UInt8.ofNat_toNat, UInt8.ofNat_toNat] at htext

end

/-- The bytes that complete a character: one between `low` and `high`, and `more` after it. -/
def Completes (low high : UInt8) : (more : Nat) → Bytes → Prop
  | 0, bs => ∃ b, bs = [b] ∧ low ≤ b ∧ b ≤ high
  | more + 1, bs => ∃ b cs, bs = b :: cs ∧ (low ≤ b ∧ b ≤ high) ∧ Completes 0x80 0xBF more cs

/-- **A lead byte** is a character, belongs to none, or owes bytes that make a character of it. -/
theorem begin_cases (b : UInt8) :
    (∃ c, begin b = ([.char c], .between) ∧ IsText [b]) ∨ begin b = ([.bad 1], .between) ∨
      ∃ low high more value, begin b = ([], .within low high more value 1) ∧
        ∀ bs, Completes low high more bs → IsText (b :: bs) := by
  simp only [begin, UInt8.lt_iff_toNat_lt]
  split
  case isTrue h => exact .inl ⟨_, rfl, IsText.nil.cons (UInt8.lt_iff_toNat_lt.2 h)⟩
  split
  case isTrue => exact .inr (.inl rfl)
  split
  case isTrue h2 h1 h =>
    refine .inr (.inr ⟨_, _, _, _, rfl, ?_⟩)
    rintro _ ⟨c, rfl, hc⟩
    simp only [UInt8.le_iff_toNat_le, UInt8.reduceToNat] at hc h h1 h2
    refine isText_two (v := (b.toNat - 0xC0) * 64 + (c.toNat - 0x80)) (.inl ?_) ?_ ?_ ?_ ?_ <;>
      omega
  split
  case isTrue h3 h2 h1 h =>
    refine .inr (.inr ⟨_, _, _, _, rfl, ?_⟩)
    rintro _ ⟨c, _, rfl, hc, d, rfl, hd⟩
    simp only [UInt8.le_iff_toNat_le, UInt8.reduceToNat, ← UInt8.toNat_inj] at hc hd h h1 h2 h3
    -- the second byte keeps out overlong forms and surrogates
    have hc : (0x80 ≤ c.toNat ∧ c.toNat ≤ 0xBF) ∧ (b.toNat = 0xE0 → 0xA0 ≤ c.toNat) ∧
        (b.toNat = 0xED → c.toNat ≤ 0x9F) := by
      split at hc <;> split at hc <;> simp at hc <;> omega
    obtain ⟨v, hv⟩ : ∃ v, v = ((b.toNat - 0xE0) * 64 + (c.toNat - 0x80)) * 64 + (d.toNat - 0x80) :=
      ⟨_, rfl⟩
    have hvalid : v < 0xD800 ∨ 0xDFFF < v ∧ v < 0x110000 := by omega
    refine isText_three hvalid ?_ ?_ ?_ ?_ ?_ <;> omega
  split
  case isTrue h4 h3 h2 h1 h =>
    refine .inr (.inr ⟨_, _, _, _, rfl, ?_⟩)
    rintro _ ⟨c, _, rfl, hc, d, _, rfl, hd, e, rfl, he⟩
    simp only [UInt8.le_iff_toNat_le, UInt8.reduceToNat, ← UInt8.toNat_inj]
      at hc hd he h h1 h2 h3 h4
    have hc : (0x80 ≤ c.toNat ∧ c.toNat ≤ 0xBF) ∧ (b.toNat = 0xF0 → 0x90 ≤ c.toNat) ∧
        (b.toNat = 0xF4 → c.toNat ≤ 0x8F) := by
      split at hc <;> split at hc <;> simp at hc <;> omega
    obtain ⟨v, hv⟩ : ∃ v, v = (((b.toNat - 0xF0) * 64 + (c.toNat - 0x80)) * 64 +
        (d.toNat - 0x80)) * 64 + (e.toNat - 0x80) := ⟨_, rfl⟩
    have hvalid : v < 0xD800 ∨ 0xDFFF < v ∧ v < 0x110000 := by omega
    refine isText_four hvalid ?_ ?_ ?_ ?_ ?_ <;> omega
  case isFalse => exact .inr (.inl rfl)

/-- What the machine owes for the bytes `p` since the last character: whatever completes them makes
a text of them. -/
def State.Owes : State → Bytes → Prop
  | .between, p => p = []
  | .within low high more _ _, p => ∀ bs, Completes low high more bs → IsText (p ++ bs)

theorem mem_piecesFrom {x : Piece} {acc : List Piece} (s : State) (h : x ∈ acc) (bs : Bytes) :
    x ∈ piecesFrom s acc bs := by
  induction bs generalizing s acc with
  | nil => exact List.mem_append_left _ (List.mem_reverse.2 h)
  | cons b bs ih => exact ih _ (List.mem_append_right _ h)

/-- **What leaves no ill-formed piece is a text.** -/
theorem isText_of_piecesFrom {s : State} {p bs : Bytes} {acc : List Piece} (hs : s.Owes p)
    (h : ∀ w, .bad w ∉ piecesFrom s acc bs) : IsText (p ++ bs) := by
  induction bs generalizing s p acc with
  | nil =>
    cases s with
    | between => rw [show p = [] from hs]; exact .nil
    | within low high more value width =>
      exact absurd (List.mem_append_right _ (List.mem_singleton_self _)) (h width)
  | cons b bs ih =>
    cases s with
    | between =>
      obtain rfl : p = [] := hs
      simp only [piecesFrom, State.step] at h
      obtain ⟨c, hb, htext⟩ | hb | ⟨low, high, more, value, hb, htext⟩ := begin_cases b
      · rw [hb] at h
        have hrest : State.between.Owes [] := rfl
        exact htext.append (ih hrest h)
      · rw [hb] at h
        exact absurd (mem_piecesFrom _ (by simp) bs) (h 1)
      · rw [hb] at h
        have howes : (State.within low high more value 1).Owes [b] := htext
        exact ih howes h
    | within low high more value width =>
      rw [← List.singleton_append, ← List.append_assoc]
      simp only [piecesFrom, State.step] at h
      split at h
      case isTrue hrange =>
        cases more with
        | zero =>
          have hrest : State.between.Owes [] := rfl
          exact (hs [b] ⟨b, rfl, hrange⟩).append (ih hrest h)
        | succ more =>
          have howes : (State.within 0x80 0xBF more (value * 64 + (b.toNat - 0x80))
              (width + 1)).Owes (p ++ [b]) := by
            intro cs hcs
            rw [List.append_assoc]
            exact hs (b :: cs) ⟨b, cs, rfl, hrange, hcs⟩
          exact ih howes h
      case isFalse => exact absurd (mem_piecesFrom _ (by simp) bs) (h width)

theorem eq_map_of_mapM {ps : List Piece} {cs : List Char} (h : ps.mapM Piece.char? = some cs) :
    ps = cs.map .char := by
  induction ps generalizing cs with
  | nil =>
    obtain rfl := Option.some.inj h
    rfl
  | cons p ps ih =>
    rw [List.mapM_cons] at h
    obtain ⟨c, hc, h⟩ := Option.bind_eq_some_iff.1 h
    obtain ⟨cs', hcs, h⟩ := Option.bind_eq_some_iff.1 h
    obtain rfl := Option.some.inj h
    cases p with
    | char c' => rw [ih hcs, List.map_cons, Option.some.inj hc]
    | bad width => cases hc

theorem isText_of_decode? {bs : Bytes} {s : String} (h : decode? bs = some s) : IsText bs := by
  obtain ⟨cs, hcs, -⟩ := Option.map_eq_some_iff.1 h
  have hpieces : piecesFrom .between [] bs = cs.map .char := eq_map_of_mapM hcs
  have hgood : ∀ w, .bad w ∉ piecesFrom .between [] bs := by simp [hpieces]
  have howes : State.between.Owes [] := rfl
  exact isText_of_piecesFrom howes hgood

/-- **The bytes that decode to a string are its encoding.** -/
theorem decode?_eq_some {bs : Bytes} {s : String} : decode? bs = some s ↔ encode s = bs := by
  constructor
  · intro h
    obtain ⟨s', hs', hencode⟩ := (isText_of_decode? h).decode
    rw [← hencode, Option.some.inj (h.symm.trans hs')]
  · rintro rfl
    exact decode?_encode s

theorem decode?_eq_none {bs : Bytes} : decode? bs = none ↔ ¬IsText bs := by
  constructor
  · intro h htext
    obtain ⟨s, hs, -⟩ := htext.decode
    cases h.symm.trans hs
  · intro h
    cases hs : decode? bs with
    | none => rfl
    | some s => exact absurd (isText_of_decode? hs) h

end CustomsClaims.Utf8
