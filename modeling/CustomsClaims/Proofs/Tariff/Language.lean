import CustomsClaims.Proofs.Tariff.Grammar
import CustomsClaims.Tariff.Matching

/-!
# The codes that a pattern describes

`Pattern.Describes p code`: the code has four sections between points, and each splits, in order and
completely, into pieces that the tokens of the pattern's section match (`Token.Matches`). This says
nothing about how a code is compared with a pattern; that is place by place
(`Pattern.accepts_iff`), and for a pattern that was read the two are the same.
-/

namespace CustomsClaims.Tariff

/-! ## The language -/

/-- The number that a digit stands for. -/
def digitValue (c : Char) : Nat := c.toNat - '0'.toNat

/-- The pieces of a code that a token matches in a section of `width` digits. -/
inductive Token.Matches (width : Nat) : Token → List Char → Prop where
  | digit (c : Char) : Matches width (.digit c) [c]
  | range {low high : Nat} {c : Char} (h : isDigit c) (hlow : low ≤ digitValue c)
    (hhigh : digitValue c ≤ high) : Matches width (.range low high) [c]
  | anyDigit {c : Char} (h : isDigit c) : Matches width .anyDigit [c]
  | wildcard {cs : List Char} (hlen : cs.length = width) (h : cs.all isDigit) :
    Matches width .wildcard cs

/-- The section splits into pieces that the tokens match. -/
def MatchesSection (width : Nat) (ts : List Token) (text : List Char) : Prop :=
  ∃ pieces, List.Forall₂ (Token.Matches width) ts pieces ∧ pieces.flatten = text

/-- The codes of a pattern. -/
def Pattern.Describes (p : Pattern) (code : List Char) : Prop :=
  ∃ a b c d, code = a ++ '.' :: (b ++ '.' :: (c ++ '.' :: d)) ∧ MatchesSection 4 p.first a ∧
    MatchesSection 2 p.second b ∧ MatchesSection 2 p.third c ∧ MatchesSection 2 p.fourth d

/-- A token as it comes from a text. -/
def Token.Valid : Token → Prop
  | .digit c => isDigit c
  | .range low high => low ≤ high ∧ high ≤ 9
  | .anyDigit | .wildcard => True

theorem Token.Spells.valid {t : Token} {text : List Char} (h : t.Spells text) : t.Valid := by
  cases h with
  | digit h => exact h
  | range ha hb h => exact ⟨h, hb.1⟩
  | anyDigit => trivial

theorem SpellsSection.valid {ts : List Token} {text : List Char} (h : SpellsSection ts text) :
    ∀ t ∈ ts, t.Valid := by
  cases h with
  | wildcard => simp [Token.Valid]
  | tokens hne h =>
    clear hne
    induction h with
    | nil => simp
    | cons ht _ ih => exact List.forall_mem_cons.2 ⟨ht.valid, ih⟩

/-! ## Sections -/

theorem matchesSection_nil {width : Nat} {text : List Char} :
    MatchesSection width [] text ↔ text = [] := by
  constructor
  · rintro ⟨pieces, hall, rfl⟩
    cases hall
    rfl
  · rintro rfl
    exact ⟨[], .nil, rfl⟩

theorem matchesSection_cons {width : Nat} {t : Token} {ts : List Token} {text : List Char} :
    MatchesSection width (t :: ts) text ↔
      ∃ piece rest, text = piece ++ rest ∧ t.Matches width piece ∧ MatchesSection width ts rest := by
  constructor
  · rintro ⟨pieces, hall, rfl⟩
    cases hall with
    | cons ht hts => exact ⟨_, _, rfl, ht, _, hts, rfl⟩
  · rintro ⟨piece, rest, rfl, ht, pieces, hts, rfl⟩
    exact ⟨piece :: pieces, .cons ht hts, rfl⟩

/-! ## Place by place -/

theorem Pattern.fits_nil {cs : List Char} : fits [] cs ↔ cs = [] := by
  cases cs <;> simp [fits]

theorem Pattern.fits_cons {p : Place} {ps : List Place} {cs : List Char} :
    fits (p :: ps) cs ↔ ∃ c rest, cs = c :: rest ∧ p.allows c ∧ fits ps rest := by
  cases cs with
  | nil => simp [fits]
  | cons c cs => simp [fits]

theorem Pattern.fits_append {ps qs : List Place} {cs : List Char} :
    fits (ps ++ qs) cs ↔ ∃ a b, cs = a ++ b ∧ fits ps a ∧ fits qs b := by
  induction ps generalizing cs with
  | nil => simp [fits_nil]
  | cons p ps ih =>
    simp only [List.cons_append, fits_cons, ih]
    constructor
    · rintro ⟨c, rest, rfl, hc, a, b, rfl, ha, hb⟩
      exact ⟨c :: a, b, rfl, ⟨c, a, rfl, hc, ha⟩, hb⟩
    · rintro ⟨a, b, rfl, ⟨c, rest, rfl, hc, hrest⟩, hb⟩
      exact ⟨c, rest ++ b, rfl, hc, rest, b, rfl, hrest, hb⟩

theorem Pattern.fits_replicate {p : Place} {n : Nat} {cs : List Char} :
    fits (List.replicate n p) cs ↔ cs.length = n ∧ cs.all p.allows := by
  induction n generalizing cs with
  | zero => cases cs <;> simp [fits]
  | succ n ih =>
    cases cs with
    | nil => simp [fits, List.replicate_succ]
    | cons c cs =>
      simp only [List.replicate_succ, fits, Bool.and_eq_true, ih, List.length_cons,
        Nat.add_right_cancel_iff, List.all_cons]
      tauto

theorem Place.allows_anyDigit (c : Char) : (Place.digit '0' '9').allows c = isDigit c := rfl

theorem Place.allows_same {x c : Char} : (Place.digit x x).allows c ↔ c = x := by
  simp only [allows, Bool.and_eq_true, decide_eq_true_eq]
  exact ⟨fun h => Char.le_antisymm h.2 h.1, fun h => by rw [h]; exact ⟨Char.le_refl x, Char.le_refl x⟩⟩

theorem toNat_digitChar {n : Nat} (h : n ≤ 9) : (digitChar n).toNat = '0'.toNat + n := by
  have hall : ∀ n, n < 10 → (digitChar n).toNat = '0'.toNat + n := by decide
  exact hall n (by omega)

theorem Place.allows_range {low high : Nat} (hlow : low ≤ high) (hhigh : high ≤ 9) {c : Char} :
    (Place.digit (digitChar low) (digitChar high)).allows c ↔
      isDigit c ∧ low ≤ digitValue c ∧ digitValue c ≤ high := by
  have hl := toNat_digitChar (n := low) (by omega)
  have hh := toNat_digitChar hhigh
  simp only [allows, isDigit, digitValue, Bool.and_eq_true, decide_eq_true_eq, Char.le_def,
    UInt32.le_iff_toNat_le]
  change (digitChar low).toNat ≤ c.toNat ∧ c.toNat ≤ (digitChar high).toNat ↔
    ('0'.toNat ≤ c.toNat ∧ c.toNat ≤ '9'.toNat) ∧ low ≤ c.toNat - '0'.toNat ∧
      c.toNat - '0'.toNat ≤ high
  rw [hl, hh]
  have h0 : '0'.toNat = 48 := rfl
  have h9 : '9'.toNat = 57 := rfl
  omega

theorem Pattern.fits_singleton {p : Place} {cs : List Char} :
    fits [p] cs ↔ ∃ c, cs = [c] ∧ p.allows c := by
  rw [fits_cons]
  constructor
  · rintro ⟨c, rest, rfl, hc, hrest⟩
    exact ⟨c, by rw [fits_nil.1 hrest], hc⟩
  · rintro ⟨c, rfl, hc⟩
    exact ⟨c, [], rfl, hc, rfl⟩

/-- A token matches what its places allow. -/
theorem Pattern.fits_places {t : Token} (ht : t.Valid) {width : Nat} {cs : List Char} :
    fits (t.places width) cs ↔ t.Matches width cs := by
  cases t with
  | digit x =>
    simp only [Token.places, fits_singleton, Place.allows_same]
    constructor
    · rintro ⟨c, rfl, rfl⟩
      exact .digit c
    · rintro ⟨⟩
      exact ⟨x, rfl, rfl⟩
  | range low high =>
    simp only [Token.places, fits_singleton, Place.allows_range ht.1 ht.2]
    constructor
    · rintro ⟨c, rfl, hc, hlow, hhigh⟩
      exact .range hc hlow hhigh
    · rintro ⟨⟩
      rename_i c hc hlow hhigh
      exact ⟨c, rfl, hc, hlow, hhigh⟩
  | anyDigit =>
    simp only [Token.places, fits_singleton, Place.allows_anyDigit]
    constructor
    · rintro ⟨c, rfl, hc⟩
      exact .anyDigit hc
    · rintro ⟨⟩
      rename_i c hc
      exact ⟨c, rfl, hc⟩
  | wildcard =>
    rw [Token.places, fits_replicate]
    constructor
    · rintro ⟨hlen, hall⟩
      exact .wildcard hlen hall
    · rintro ⟨⟩
      rename_i hlen hall
      exact ⟨hlen, hall⟩

theorem Pattern.fits_section {width : Nat} {ts : List Token} (hts : ∀ t ∈ ts, t.Valid)
    {cs : List Char} : fits (ts.flatMap (Token.places width)) cs ↔ MatchesSection width ts cs := by
  induction ts generalizing cs with
  | nil => rw [List.flatMap_nil, fits_nil, matchesSection_nil]
  | cons t ts ih =>
    obtain ⟨ht, hts⟩ := List.forall_mem_cons.1 hts
    simp only [List.flatMap_cons, fits_append, matchesSection_cons, fits_places ht, ih hts]

theorem Pattern.fits_point {ps : List Place} {cs : List Char} :
    fits (.point :: ps) cs ↔ ∃ rest, cs = '.' :: rest ∧ fits ps rest := by
  simp [fits_cons, Place.allows]

/-- The tokens of all sections. -/
def Pattern.tokens (p : Pattern) : List Token := p.first ++ p.second ++ p.third ++ p.fourth

theorem Pattern.Spells.valid {p : Pattern} {text : List Char} (h : p.Spells text) :
    ∀ t ∈ p.tokens, t.Valid := by
  obtain ⟨a, b, c, d, -, ha, hb, hc, hd⟩ := h
  simp only [tokens, List.forall_mem_append]
  exact ⟨⟨⟨ha.valid, hb.valid⟩, hc.valid⟩, hd.valid⟩

/-- **A pattern accepts the codes that it describes.** -/
theorem Pattern.accepts_iff {p : Pattern} (hp : ∀ t ∈ p.tokens, t.Valid) {code : String} :
    p.accepts code ↔ p.Describes code.toList := by
  simp only [tokens, List.forall_mem_append] at hp
  obtain ⟨⟨⟨hfirst, hsecond⟩, hthird⟩, hfourth⟩ := hp
  simp only [accepts, places, List.append_assoc, List.cons_append, fits_append, fits_point,
    fits_section hfirst, fits_section hsecond, fits_section hthird, fits_section hfourth]
  constructor
  · rintro ⟨a, _, hcode, ha, _, rfl, b, _, rfl, hb, _, rfl, c, _, rfl, hc, d, rfl, hd⟩
    exact ⟨a, b, c, d, hcode, ha, hb, hc, hd⟩
  · rintro ⟨a, b, c, d, hcode, ha, hb, hc, hd⟩
    exact ⟨a, _, hcode, ha, _, rfl, b, _, rfl, hb, _, rfl, c, _, rfl, hc, d, rfl, hd⟩

end CustomsClaims.Tariff
