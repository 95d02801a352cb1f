import CustomsClaims.Proofs.Tariff.Language

/-!
# The regular expression of a pattern

A pattern has a regular expression (`Pattern.expression`), which is anchored at both ends of a text.
`Regex.read?` reads regular expressions of its kind, and `Regex.Finds` says in which texts one is found.
`Pattern.parse_describes`: the expression is found in exactly the codes that the pattern describes, and
these are the codes that it accepts.
-/

namespace CustomsClaims.Tariff

/-! ## Regular expressions -/

/-- A part of a regular expression. -/
inductive Part where
  /-- The start of the text. -/
  | start
  /-- The end of the text. -/
  | finish
  | char (c : Char)
  /-- A character between two others. -/
  | range (low high : Char)
  /-- `n` times the part. -/
  | times (part : Part) (n : Nat)
deriving DecidableEq, Repr

/-- Parts that follow each other. -/
abbrev Regex := List Part

namespace Regex

/-- Does the character stand for something else than itself? -/
def isSpecial (c : Char) : Bool := "\\.+*?()|[]\x7b\x7d^$".toList.contains c

/-- Reads a regular expression of literal characters, ranges between letters or digits, numbers of
repetitions up to nine, and the ends of the text; `done` has the parts that were read, the last first. -/
def read (done : List Part) : List Char → Option Regex
  | [] => some done.reverse
  | '^' :: cs => read (.start :: done) cs
  | '$' :: cs => read (.finish :: done) cs
  | '\\' :: c :: cs => if isSpecial c then read (.char c :: done) cs else none
  | '[' :: low :: '-' :: high :: ']' :: cs =>
    if low.isAlphanum ∧ high.isAlphanum ∧ low ≤ high then read (.range low high :: done) cs else none
  | '{' :: n :: '}' :: cs =>
    match done with
    | part :: done => if isDigit n then read (.times part (digitValue n) :: done) cs else none
    | [] => none
  | c :: cs => if isSpecial c then none else read (.char c :: done) cs

/-- The regular expression that a text spells. -/
def read? (text : List Char) : Option Regex := read [] text

/-- Which piece of a text is covered, between what stands before it and after it. -/
abbrev Spanning := (before piece after : List Char) → Prop

/-- One after the other. -/
def InTurn : List Spanning → Spanning
  | [], _, piece, _ => piece = []
  | s :: ss, before, piece, after =>
    ∃ x y, piece = x ++ y ∧ s before x (y ++ after) ∧ InTurn ss (before ++ x) y after

/-- The pieces of a text that a part covers. -/
def Spans : Part → Spanning
  | .start, before, piece, _ => before = [] ∧ piece = []
  | .finish, _, piece, after => piece = [] ∧ after = []
  | .char c, _, piece, _ => piece = [c]
  | .range low high, _, piece, _ => ∃ c, piece = [c] ∧ low ≤ c ∧ c ≤ high
  | .times part n, before, piece, after => InTurn (List.replicate n (Spans part)) before piece after

/-- The regular expression covers some piece of the text. -/
def Finds (r : Regex) (text : List Char) : Prop :=
  ∃ before piece after, text = before ++ (piece ++ after) ∧ InTurn (r.map Spans) before piece after

end Regex

/-! ## The expression of a pattern -/

/-- The expression of a token in a section of `width` digits. -/
def Token.expression (width : Nat) : Token → List Char
  | .digit c => [c]
  | .range low high =>
    '[' :: ((decimalText low).toList ++ '-' :: ((decimalText high).toList ++ [']']))
  | .anyDigit => "[0-9]".toList
  | .wildcard => "[0-9]".toList ++ '{' :: ((decimalText width).toList ++ ['}'])

/-- The expression of a pattern: those of its tokens, a point between sections, and the ends of the text
around them. -/
def Pattern.expression (p : Pattern) : List Char :=
  '^' :: (p.first.flatMap (Token.expression 4) ++ "\\.".toList ++
    (p.second.flatMap (Token.expression 2) ++ "\\.".toList ++
      (p.third.flatMap (Token.expression 2) ++ "\\.".toList ++
        (p.fourth.flatMap (Token.expression 2) ++ ['$']))))

/-- What the expression of a token reads as. -/
def Token.parts (width : Nat) : Token → Regex
  | .digit c => [.char c]
  | .range low high => [.range (digitChar low) (digitChar high)]
  | .anyDigit => [.range '0' '9']
  | .wildcard => [.times (.range '0' '9') width]

/-- What the expression of a pattern reads as. -/
def Pattern.regex (p : Pattern) : Regex :=
  .start :: ((p.first.flatMap (Token.parts 4) ++ .char '.' ::
    (p.second.flatMap (Token.parts 2) ++ .char '.' ::
      (p.third.flatMap (Token.parts 2) ++ .char '.' ::
        p.fourth.flatMap (Token.parts 2)))) ++ [.finish])

/-! ## Reading -/

namespace Regex

theorem toList_decimalText {n : Nat} (h : n ≤ 9) : (decimalText n).toList = [digitChar n] := by
  have hall : ∀ n, n < 10 → Nat.toDigits 10 n = [digitChar n] := by decide
  rw [decimalText, String.toList_ofList, hall n (by omega)]

theorem isSpecial_digit {c : Char} (h : isDigit c) : isSpecial c = false := by
  have hall : "\\.+*?()|[]\x7b\x7d^$".toList.all (!isDigit ·) := by decide
  rw [isSpecial, Bool.eq_false_iff]
  intro hmem
  have hnot := List.all_eq_true.1 hall c (List.contains_iff_mem.1 hmem)
  rw [h] at hnot
  cases hnot

theorem read_digit {done : List Part} {c : Char} (h : isDigit c) (cs : List Char) :
    read done (c :: cs) = read (.char c :: done) cs := by
  have hne {x : Char} (hx : isDigit x = false) : c ≠ x := by
    rintro rfl
    rw [hx] at h
    cases h
  rw [read, isSpecial_digit h]
  · rfl
  · exact hne rfl
  · exact hne rfl
  · exact fun _ _ hc => absurd hc (hne rfl)
  · exact fun _ _ _ hc => absurd hc (hne rfl)
  · exact fun _ _ hc => absurd hc (hne rfl)

theorem read_range {done : List Part} {low high : Nat} (h : low ≤ high) (hhigh : high ≤ 9)
    (cs : List Char) :
    read done ('[' :: digitChar low :: '-' :: digitChar high :: ']' :: cs) =
      read (.range (digitChar low) (digitChar high) :: done) cs := by
  have hall : ∀ high, high ≤ 9 → ∀ low, low ≤ high → (digitChar low).isAlphanum ∧
      (digitChar high).isAlphanum ∧ digitChar low ≤ digitChar high := by decide
  rw [read, if_pos (hall high hhigh low h)]

theorem digitValue_digitChar {n : Nat} (h : n ≤ 9) : digitValue (digitChar n) = n := by
  rw [digitValue, toNat_digitChar h, Nat.add_sub_cancel_left]

theorem isDigit_digitChar {n : Nat} (h : n ≤ 9) : isDigit (digitChar n) := by
  have hall : ∀ n, n ≤ 9 → isDigit (digitChar n) := by decide
  exact hall n h

theorem read_times {part : Part} {done : List Part} {n : Nat} (h : n ≤ 9) (cs : List Char) :
    read (part :: done) ('{' :: digitChar n :: '}' :: cs) = read (.times part n :: done) cs := by
  rw [read, if_pos (isDigit_digitChar h), digitValue_digitChar h]

/-- What comes of a token. -/
theorem read_token {t : Token} (ht : t.Valid) {width : Nat} (hw : width ≤ 9) {done : List Part}
    (cs : List Char) :
    read done (t.expression width ++ cs) = read ((t.parts width).reverse ++ done) cs := by
  cases t with
  | digit c => exact read_digit ht cs
  | range low high =>
    obtain ⟨hlow, hhigh⟩ := ht
    rw [Token.expression, toList_decimalText (by omega), toList_decimalText hhigh]
    exact read_range hlow hhigh cs
  | anyDigit => exact read_range (Nat.zero_le 9) (Nat.le_refl 9) cs
  | wildcard =>
    rw [Token.expression, toList_decimalText hw]
    refine (read_range (Nat.zero_le 9) (Nat.le_refl 9) _).trans ?_
    exact read_times hw cs

theorem read_section {ts : List Token} (hts : ∀ t ∈ ts, t.Valid) {width : Nat} (hw : width ≤ 9)
    {done : List Part} (cs : List Char) :
    read done (ts.flatMap (Token.expression width) ++ cs) =
      read ((ts.flatMap (Token.parts width)).reverse ++ done) cs := by
  induction ts generalizing done with
  | nil => rfl
  | cons t ts ih =>
    obtain ⟨ht, hts⟩ := List.forall_mem_cons.1 hts
    rw [List.flatMap_cons, List.append_assoc, read_token ht hw, ih hts, List.flatMap_cons,
      List.reverse_append, List.append_assoc]

theorem read_escape {done : List Part} {c : Char} (h : isSpecial c) (cs : List Char) :
    read done ('\\' :: c :: cs) = read (.char c :: done) cs := by
  rw [read, if_pos h]

/-- **The expression of a pattern reads as it should.** -/
theorem read?_expression {p : Pattern} (hp : ∀ t ∈ p.tokens, t.Valid) :
    read? p.expression = some p.regex := by
  simp only [Pattern.tokens, List.forall_mem_append] at hp
  obtain ⟨⟨⟨hfirst, hsecond⟩, hthird⟩, hfourth⟩ := hp
  -- A point stands for any character unless it is escaped.
  have hpoint (done : List Part) (cs : List Char) :
      read done ("\\.".toList ++ cs) = read (.char '.' :: done) cs := read_escape (by decide) cs
  rw [read?, Pattern.expression, read]
  simp only [List.append_assoc, read_section hfirst (by decide : 4 ≤ 9),
    read_section hsecond (by decide : 2 ≤ 9), read_section hthird (by decide : 2 ≤ 9),
    read_section hfourth (by decide : 2 ≤ 9), hpoint]
  rw [read, read, Pattern.regex]
  simp

/-! ## Finding -/

section
variable {before piece after : List Char}

theorem inTurn_nil : InTurn [] before piece after ↔ piece = [] := Iff.rfl

theorem inTurn_cons {s : Spanning} {ss : List Spanning} :
    InTurn (s :: ss) before piece after ↔
      ∃ x y, piece = x ++ y ∧ s before x (y ++ after) ∧ InTurn ss (before ++ x) y after := Iff.rfl

theorem inTurn_append {ss ss' : List Spanning} :
    InTurn (ss ++ ss') before piece after ↔
      ∃ x y, piece = x ++ y ∧ InTurn ss before x (y ++ after) ∧
        InTurn ss' (before ++ x) y after := by
  induction ss generalizing before piece with
  | nil => simp [inTurn_nil]
  | cons s ss ih =>
    simp only [List.cons_append, inTurn_cons, ih]
    constructor
    · rintro ⟨x, _, rfl, hs, y, z, rfl, hss, hss'⟩
      exact ⟨x ++ y, z, by rw [List.append_assoc], ⟨x, y, rfl, by rwa [← List.append_assoc], hss⟩,
        by rwa [← List.append_assoc]⟩
    · rintro ⟨_, z, rfl, ⟨x, y, rfl, hs, hss⟩, hss'⟩
      exact ⟨x, y ++ z, by rw [List.append_assoc], by rwa [List.append_assoc], y, z, rfl, hss,
        by rwa [List.append_assoc]⟩

theorem inTurn_singleton {s : Spanning} : InTurn [s] before piece after ↔ s before piece after := by
  simp [inTurn_cons, inTurn_nil]

theorem spans_range {low high : Char} :
    Spans (.range low high) before piece after ↔ Pattern.fits [.digit low high] piece := by
  simp only [Spans, Pattern.fits_singleton, Place.allows, Bool.and_eq_true, decide_eq_true_eq]

theorem inTurn_replicate {part : Part} {place : Place} {n : Nat}
    (h : ∀ before piece after, Spans part before piece after ↔ Pattern.fits [place] piece) :
    InTurn (List.replicate n (Spans part)) before piece after ↔
      Pattern.fits (List.replicate n place) piece := by
  induction n generalizing before piece with
  | zero => exact Pattern.fits_nil.symm
  | succ n ih =>
    rw [List.replicate_succ, List.replicate_succ,
      ← List.singleton_append (l := List.replicate n place)]
    simp only [inTurn_cons, Pattern.fits_append, h, ih]

/-- The parts of a token cover what its places allow. -/
theorem inTurn_parts {t : Token} {width : Nat} :
    InTurn ((t.parts width).map Spans) before piece after ↔ Pattern.fits (t.places width) piece := by
  cases t with
  | digit x =>
    simp only [Token.parts, Token.places, List.map_cons, List.map_nil, inTurn_singleton, Spans,
      Pattern.fits_singleton, Place.allows_same, exists_eq_right]
  | range low high => exact inTurn_singleton.trans spans_range
  | anyDigit => exact inTurn_singleton.trans spans_range
  | wildcard => exact inTurn_singleton.trans (inTurn_replicate fun _ _ _ => spans_range)

theorem inTurn_section {ts : List Token} {width : Nat} :
    InTurn ((ts.flatMap (Token.parts width)).map Spans) before piece after ↔
      Pattern.fits (ts.flatMap (Token.places width)) piece := by
  induction ts generalizing before piece after with
  | nil => exact Pattern.fits_nil.symm
  | cons t ts ih =>
    simp only [List.flatMap_cons, List.map_append, inTurn_append, Pattern.fits_append, inTurn_parts,
      ih]

theorem inTurn_point {ss : List Spanning} :
    InTurn (Spans (.char '.') :: ss) before piece after ↔
      ∃ rest, piece = '.' :: rest ∧ InTurn ss (before ++ ['.']) rest after := by
  simp only [inTurn_cons, Spans]
  constructor
  · rintro ⟨_, rest, rfl, rfl, hss⟩
    exact ⟨rest, rfl, hss⟩
  · rintro ⟨rest, rfl, hss⟩
    exact ⟨['.'], rest, rfl, rfl, hss⟩

/-- Between the ends of the text, the whole text is covered. -/
theorem finds_anchored {r : Regex} {text : List Char} :
    Finds (.start :: (r ++ [.finish])) text ↔ InTurn (r.map Spans) [] text [] := by
  simp only [Finds, List.map_cons, List.map_append, List.map_nil, inTurn_cons, inTurn_append,
    inTurn_nil, Spans]
  constructor
  · rintro ⟨_, _, _, rfl, _, _, rfl, ⟨rfl, rfl⟩, x, _, rfl, hr, _, _, rfl, ⟨rfl, hafter⟩, rfl⟩
    obtain rfl := hafter
    simpa using hr
  · intro h
    exact ⟨[], text, [], by simp, [], text, rfl, ⟨rfl, rfl⟩, text, [], by simp, by simpa using h, [],
      [], rfl, ⟨rfl, rfl⟩, rfl⟩

/-- **The expression of a pattern is found in the codes that the pattern accepts.** -/
theorem finds_iff {p : Pattern} {code : String} : Finds p.regex code.toList ↔ p.accepts code := by
  rw [Pattern.regex, finds_anchored, Pattern.accepts, Pattern.places]
  simp only [List.map_append, List.map_cons, List.append_assoc, List.cons_append, inTurn_append,
    inTurn_section, inTurn_point, Pattern.fits_append, Pattern.fits_point]

end

end Regex

/-! ## Patterns that were read -/

namespace Pattern

/-- **What a pattern means.** Let a pattern be read from a text. In the normal form of the text its
sections stand between points, spelled token by token. It accepts exactly the codes that split into
pieces that these tokens match, and these are the codes in which its regular expression is found. -/
theorem parse_describes (s : String) (p : Pattern) (h : parse s = .ok p) :
    p.Spells (normalize s).toList ∧
      (∀ code : String, p.accepts code ↔ p.Describes code.toList) ∧
      ∃ r, Regex.read? p.expression = some r ∧
        ∀ code : String, Regex.Finds r code.toList ↔ p.Describes code.toList := by
  have hspells := parse_spells h
  have haccepts (code : String) : p.accepts code ↔ p.Describes code.toList :=
    accepts_iff hspells.valid
  exact ⟨hspells, haccepts, p.regex, Regex.read?_expression hspells.valid,
    fun code => Regex.finds_iff.trans (haccepts code)⟩

/-- A pattern with every kind of token: a code that it describes, one that is out of its range, and one
with a line end behind it. -/
theorem parse_describes_all_kinds :
    ∃ p, parse " 8471.\x7b+3-05\x7d0.%D1.* " = .ok p ∧
      p.expression = "^8471\\.[3-5]0\\.[0-9]1\\.[0-9]\x7b2\x7d$".toList ∧
      p.Describes "8471.50.91.07".toList ∧ ¬ p.Describes "8471.60.91.07".toList ∧
      ¬ p.Describes "8471.50.91.07\n".toList := by
  let p : Pattern := ⟨"8471.\x7b+3-05\x7d0.%d1.*", [.digit '8', .digit '4', .digit '7', .digit '1'],
    [.range 3 5, .digit '0'], [.anyDigit, .digit '1'], [.wildcard]⟩
  have hp : parse " 8471.\x7b+3-05\x7d0.%D1.* " = .ok p := by decide +kernel
  obtain ⟨-, haccepts, -⟩ := parse_describes _ p hp
  refine ⟨p, hp, by decide +kernel, ?_, ?_, ?_⟩
  · exact (haccepts _).1 (by decide +kernel)
  · exact fun h => absurd ((haccepts _).2 h) (by decide +kernel)
  · exact fun h => absurd ((haccepts _).2 h) (by decide +kernel)

end Pattern
end CustomsClaims.Tariff
