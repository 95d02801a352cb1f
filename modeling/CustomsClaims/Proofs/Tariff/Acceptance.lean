import CustomsClaims.Proofs.Tariff.Grammar

/-!
# Which texts are patterns

The reader refuses nothing that the grammar allows: a text of a token is read as the token, whatever
comes next (`readTokens_token`), so a text of a section is read as its tokens (`readSection_ok`).
A text is read as a pattern exactly if the pattern spells its normal form
(`Pattern.parse_eq_ok_iff`), and it is read at all exactly if its normal form has four sections of
the grammar (`Pattern.parse_accepts`).
-/

namespace CustomsClaims.Tariff

/-! ## Bounds and ranges -/

theorem wholeNumber?_of_digits {cs ds : List Char} (hcs : cs = ds ∨ cs = '+' :: ds) (hne : ds ≠ [])
    (hall : ds.all isDigit) : wholeNumber? cs = some (number ds) := by
  have hgood : ¬ (ds = [] ∨ !ds.all isDigit) := by simp [hne, hall]
  rcases hcs with rfl | rfl
  · obtain ⟨d, ds, rfl⟩ := List.exists_cons_of_ne_nil hne
    have hplus : d ≠ '+' := by
      rintro rfl
      revert hall
      simp [isDigit]
    unfold wholeNumber?
    dsimp only
    split
    case h_1 heq => exact absurd (List.cons.inj heq).1 hplus
    case h_2 => exact if_neg hgood
  · exact if_neg hgood

namespace SpellsBound

variable {n : Nat} {text : List Char}

theorem bound?_eq (h : SpellsBound n text) : bound? text = some n := by
  obtain ⟨hn, ds, htext, hne, hall, rfl⟩ := h
  rw [bound?, wholeNumber?_of_digits htext hne hall, Option.filter_some, if_pos]
  simp
  omega

theorem ne_nil (h : SpellsBound n text) : text ≠ [] := by
  obtain ⟨-, ds, rfl | rfl, hne, -⟩ := h
  · exact hne
  · simp

theorem mem (h : SpellsBound n text) {c : Char} (hc : c ∈ text) : c = '+' ∨ isDigit c := by
  obtain ⟨-, ds, htext, -, hall, -⟩ := h
  rw [List.all_eq_true] at hall
  rcases htext with rfl | rfl
  · exact .inr (hall c hc)
  · rcases List.mem_cons.1 hc with rfl | hc
    · exact .inl rfl
    · exact .inr (hall c hc)

/-- Only digits and the plus sign stand in a bound. -/
theorem not_mem (h : SpellsBound n text) {c : Char} (hplus : c ≠ '+') (hdigit : isDigit c = false) :
    c ∉ text := by
  intro hc
  rcases h.mem hc with rfl | hd
  · exact hplus rfl
  · rw [hdigit] at hd
    cases hd

end SpellsBound

/-- What is spelled between braces is read. -/
theorem readRange_spelled {low high : Nat} {a b : List Char} (ha : SpellsBound low a)
    (hb : SpellsBound high b) (h : low ≤ high) :
    readRange (a ++ '-' :: b) = .ok (.range low high) := by
  have hhyphen : ∀ c ∈ a, decide (c ≠ '-') = true := by
    intro c hc
    rw [decide_eq_true_eq]
    rintro rfl
    exact ha.not_mem (by decide) (by decide) hc
  have hdrop : (a ++ '-' :: b).dropWhile (· ≠ '-') = '-' :: b := by
    rw [List.dropWhile_append_of_pos hhyphen]
    rfl
  have htake : (a ++ '-' :: b).takeWhile (· ≠ '-') = a := by
    rw [List.takeWhile_append_of_pos hhyphen]
    simp
  obtain ⟨c, cs, rfl⟩ := List.exists_cons_of_ne_nil hb.ne_nil
  have hhigh := hb.1
  simp only [readRange, hdrop, htake, ha.bound?_eq, hb.bound?_eq]
  rw [if_neg (by omega), if_neg (by omega)]

/-! ## Tokens -/

/-- The reader takes what stands before the closing brace. -/
theorem readTokens_inside {text inside : List Char} (h : '}' ∉ inside) (o : OpenRange)
    (rest : List Char) : readTokens text (some o) (inside ++ '}' :: rest) =
      readTokens text (some { o with inside := inside.reverse ++ o.inside }) ('}' :: rest) := by
  induction inside generalizing o with
  | nil => rfl
  | cons c cs ih =>
    rw [List.mem_cons, not_or] at h
    rw [List.cons_append, readTokens, if_neg (Ne.symm h.1), ih h.2]
    simp

/-- The tokens after one that was read. -/
def after (t : Token) (ts : Except Objection (List Token)) : Except Objection (List Token) := do
  let ts ← ts
  return t :: ts

/-- **A token is read from its text**, whatever comes next. -/
theorem readTokens_token {t : Token} {token : List Char} (h : t.Spells token)
    (text rest : List Char) :
    readTokens text none (token ++ rest) = after t (readTokens text none rest) := by
  cases h with
  | @digit c hc =>
    have hbrace : c ≠ '{' := by rintro rfl; revert hc; decide
    have hpercent : c ≠ '%' := by rintro rfl; revert hc; decide
    have hstar : c ≠ '*' := by rintro rfl; revert hc; decide
    rw [List.singleton_append, readTokens, if_neg hbrace, if_neg hpercent, if_neg hstar, if_pos hc]
    · rfl
    · rintro cs rfl
      exact absurd rfl hpercent
  | @range low high a b ha hb hle =>
    have hinside : '}' ∉ a ++ '-' :: b := by
      have hina := ha.not_mem (c := '}') (by decide) (by decide)
      have hinb := hb.not_mem (c := '}') (by decide) (by decide)
      simp [hina, hinb]
    have htext :
        '{' :: (a ++ '-' :: (b ++ ['}'])) ++ rest = '{' :: ((a ++ '-' :: b) ++ '}' :: rest) := by
      simp
    rw [htext, readTokens, if_pos rfl, readTokens_inside hinside, readTokens, if_pos rfl,
      List.append_nil, List.reverse_reverse, readRange_spelled ha hb hle]
    · rfl
    · intro cs hpercent
      cases hpercent
  | anyDigit => rfl

theorem readTokens_tokens {ts : List Token} {tokens : List (List Char)}
    (h : List.Forall₂ Token.Spells ts tokens) (text : List Char) :
    readTokens text none tokens.flatten = .ok ts := by
  induction h with
  | nil => rfl
  | cons ht _ ih =>
    rw [List.flatten_cons, readTokens_token ht, ih]
    rfl

/-! ## Sections -/

theorem Token.Spells.ne_nil {t : Token} {text : List Char} (h : t.Spells text) : text ≠ [] := by
  cases h <;> simp

/-- **A section is read from its text.** -/
theorem readSection_ok {ts : List Token} {text : List Char} (h : SpellsSection ts text)
    (number : Nat) : readSection number text = .ok ts := by
  cases h with
  | wildcard => rfl
  | @tokens ts texts hne h =>
    have hfull : texts.flatten ≠ [] := by
      cases h with
      | nil => exact absurd rfl hne
      | cons ht _ => simp [ht.ne_nil]
    rw [readSection, if_neg hfull, readTokens_tokens h]

theorem Token.Spells.no_point {t : Token} {text : List Char} (h : t.Spells text) : '.' ∉ text := by
  cases h with
  | digit hc =>
    intro hmem
    rw [← List.mem_singleton.1 hmem] at hc
    revert hc
    decide
  | range ha hb _ =>
    have hina := ha.not_mem (c := '.') (by decide) (by decide)
    have hinb := hb.not_mem (c := '.') (by decide) (by decide)
    simp [hina, hinb]
  | anyDigit => decide

theorem SpellsSection.no_point {ts : List Token} {text : List Char} (h : SpellsSection ts text) :
    '.' ∉ text := by
  cases h with
  | wildcard => decide
  | tokens hne h =>
    clear hne
    induction h with
    | nil => simp
    | cons ht _ ih =>
      rw [List.flatten_cons, List.mem_append]
      exact fun hmem => hmem.elim ht.no_point ih

/-- A text of a section: the star, or tokens one after the other. -/
def IsSection (text : List Char) : Prop := ∃ ts, SpellsSection ts text

/-! ## Patterns -/

namespace Pattern

theorem ofNormalForm_ok {text : String} {p : Pattern} (h : p.Spells text.toList) :
    ofNormalForm text = .ok { p with text := text } := by
  obtain ⟨a, b, c, d, htext, ha, hb, hc, hd⟩ := h
  have hpieces : ∀ piece ∈ [a, b, c, d], '.' ∉ piece := by
    simp [ha.no_point, hb.no_point, hc.no_point, hd.no_point]
  have hsplit : splitAtChar '.' text.toList = [a, b, c, d] := by
    rw [htext, ← List.splitOn_intercalate '.' hpieces (by simp)]
    simp [List.intercalate]
  simp only [ofNormalForm, hsplit, readSection_ok ha, readSection_ok hb, readSection_ok hc,
    readSection_ok hd]
  rfl

theorem ofNormalForm_text {text : String} {p : Pattern} (h : ofNormalForm text = .ok p) :
    p.text = text := by
  have hp := ofNormalForm_ok (ofNormalForm_spells h)
  rw [h] at hp
  rw [Except.ok.inj hp]

/-- **A text is read as the pattern that spells its normal form.** -/
theorem parse_eq_ok_iff {s : String} {p : Pattern} :
    parse s = .ok p ↔ p.text = normalize s ∧ p.Spells (normalize s).toList := by
  constructor
  · intro h
    refine ⟨?_, parse_spells h⟩
    unfold parse at h
    cases hform : ofNormalForm (normalize s) with
    | error e => rw [hform] at h; cases h
    | ok q =>
      rw [hform] at h
      obtain rfl := Except.ok.inj h
      exact ofNormalForm_text hform
  · rintro ⟨htext, hspells⟩
    rw [parse, ofNormalForm_ok hspells, ← htext]
    rfl

theorem parse_error {s : String} {e : InvalidPattern} (h : parse s = .error e) :
    e.pattern = normalize s := by
  unfold parse at h
  cases hform : ofNormalForm (normalize s) with
  | ok p => rw [hform] at h; cases h
  | error reason =>
    rw [hform] at h
    rw [← Except.error.inj h]

/-- **A text is read as a pattern exactly if its normal form falls, at its points, into four
sections of the grammar.** A text that is refused is reported in its normal form. -/
theorem parse_accepts (s : String) :
    ((∃ p, parse s = .ok p) ↔
      ∃ sections : List (List Char), ['.'].intercalate sections = (normalize s).toList ∧
        (∀ text ∈ sections, '.' ∉ text) ∧ sections.length = 4 ∧ ∀ text ∈ sections, IsSection text) ∧
    ∀ e, parse s = .error e → e.pattern = normalize s := by
  refine ⟨⟨?_, ?_⟩, fun e => parse_error⟩
  · rintro ⟨p, hp⟩
    obtain ⟨a, b, c, d, htext, ha, hb, hc, hd⟩ := parse_spells hp
    refine ⟨[a, b, c, d], ?_, ?_, rfl, ?_⟩
    · rw [htext]
      simp [List.intercalate]
    · simp [ha.no_point, hb.no_point, hc.no_point, hd.no_point]
    · simp only [List.forall_mem_cons, List.not_mem_nil, false_implies, implies_true, and_true]
      exact ⟨⟨_, ha⟩, ⟨_, hb⟩, ⟨_, hc⟩, ⟨_, hd⟩⟩
  · rintro ⟨sections, htext, -, hlength, hall⟩
    obtain ⟨a, b, c, d, rfl⟩ : ∃ a b c d, sections = [a, b, c, d] := by
      match sections, hlength with
      | [a, b, c, d], _ => exact ⟨a, b, c, d, rfl⟩
    simp only [List.forall_mem_cons, List.not_mem_nil, false_implies, implies_true,
      and_true] at hall
    obtain ⟨⟨first, ha⟩, ⟨second, hb⟩, ⟨third, hc⟩, ⟨fourth, hd⟩⟩ := hall
    have hspells :
        Pattern.Spells ⟨normalize s, first, second, third, fourth⟩ (normalize s).toList := by
      refine ⟨a, b, c, d, ?_, ha, hb, hc, hd⟩
      rw [← htext]
      simp [List.intercalate]
    exact ⟨_, parse_eq_ok_iff.2 ⟨rfl, hspells⟩⟩

end Pattern
end CustomsClaims.Tariff
