import CustomsClaims.Tariff.Pattern
import Mathlib.Data.List.Forall2

/-!
# The texts of patterns

What the tokens and the sections of a pattern look like in its normal form (`Token.Spells`,
`SpellsSection`), apart from how they are read. `Pattern.parse_spells`: a pattern that was read stands
in the normal form of the text, section by section.
-/

namespace CustomsClaims.Tariff

/-! ## The grammar -/

/-- A bound of a range: digits, after a plus sign at most, that spell a number below ten. -/
def SpellsBound (n : Nat) (text : List Char) : Prop :=
  n ≤ 9 ∧ ∃ ds, (text = ds ∨ text = '+' :: ds) ∧ ds ≠ [] ∧ ds.all isDigit ∧ number ds = n

/-- The texts of a token, except for the star. -/
inductive Token.Spells : Token → List Char → Prop where
  | digit {c : Char} (h : isDigit c) : Spells (.digit c) [c]
  | range {low high : Nat} {a b : List Char} (ha : SpellsBound low a) (hb : SpellsBound high b)
    (h : low ≤ high) : Spells (.range low high) ('{' :: (a ++ '-' :: (b ++ ['}'])))
  | anyDigit : Spells .anyDigit ['%', 'd']

/-- The texts of a section: the star, or tokens one after the other. -/
inductive SpellsSection : List Token → List Char → Prop where
  | wildcard : SpellsSection [.wildcard] ['*']
  | tokens {ts : List Token} {texts : List (List Char)} (hne : ts ≠ [])
    (h : List.Forall₂ Token.Spells ts texts) : SpellsSection ts texts.flatten

/-- The texts of a pattern: four sections between points. -/
def Pattern.Spells (p : Pattern) (text : List Char) : Prop :=
  ∃ a b c d, text = a ++ '.' :: (b ++ '.' :: (c ++ '.' :: d)) ∧ SpellsSection p.first a ∧
    SpellsSection p.second b ∧ SpellsSection p.third c ∧ SpellsSection p.fourth d

/-! ## Ranges -/

theorem wholeNumber?_eq_some {cs : List Char} {n : Nat} (h : wholeNumber? cs = some n) :
    ∃ ds, (cs = ds ∨ cs = '+' :: ds) ∧ ds ≠ [] ∧ ds.all isDigit ∧ number ds = n := by
  have key : ∀ ds : List Char,
      (if ds = [] ∨ !ds.all isDigit then none else some (number ds)) = some n →
        ds ≠ [] ∧ ds.all isDigit ∧ number ds = n := by
    intro ds hds
    split at hds
    case isTrue => cases hds
    case isFalse hgood =>
      rw [not_or, Bool.not_eq_true', Bool.not_eq_false] at hgood
      exact ⟨hgood.1, hgood.2, Option.some.inj hds⟩
  unfold wholeNumber? at h
  dsimp only at h
  split at h
  · exact ⟨_, .inr rfl, key _ h⟩
  · exact ⟨_, .inl rfl, key _ h⟩

theorem spellsBound_of_bound? {cs : List Char} {n : Nat} (h : bound? cs = some n) (hn : n ≤ 9) :
    SpellsBound n cs :=
  ⟨hn, wholeNumber?_eq_some (Option.filter_eq_some_iff.1 h).1⟩

/-- The text around the first hyphen. -/
theorem split_at_hyphen {inside rest : List Char} {c : Char}
    (h : inside.dropWhile (· ≠ '-') = c :: rest) :
    inside = inside.takeWhile (· ≠ '-') ++ '-' :: rest := by
  obtain rfl : c = '-' := by
    have hstop := List.head?_dropWhile_not (· ≠ '-') inside
    rw [h] at hstop
    simpa using hstop
  rw [← h]
  exact List.takeWhile_append_dropWhile.symm

theorem readRange_ok {inside : List Char} {t : Token} (h : readRange inside = .ok t) :
    t.Spells ('{' :: (inside ++ ['}'])) := by
  unfold readRange at h
  split at h
  · cases h
  · cases h
  · rename_i high _ hdrop
    split at h
    case h_2 => cases h
    case h_1 low high' hlow hhigh =>
      split at h
      · cases h
      split at h
      · cases h
      obtain rfl := Except.ok.inj h
      rw [split_at_hyphen hdrop, List.append_assoc, List.cons_append]
      exact .range (spellsBound_of_bound? hlow (by omega)) (spellsBound_of_bound? hhigh (by omega))
        (by omega)

/-! ## Sections -/

theorem cons_of_bind_ok {x : Except Objection (List Token)} {t : Token} {ts : List Token}
    (h : (do let ts ← x; return t :: ts) = Except.ok ts) : ∃ ts', x = .ok ts' ∧ ts = t :: ts' := by
  cases x with
  | error e => cases h
  | ok ts' => exact ⟨ts', rfl, (Except.ok.inj h).symm⟩

/-- What was read of an open range, with its brace. -/
def pending : Option OpenRange → List Char
  | none => []
  | some o => '{' :: o.inside.reverse

/-- The tokens of a section that is no star. -/
theorem readTokens_spells {text cs : List Char} {o? : Option OpenRange} {ts : List Token}
    (hstar : text.length = 1 → '*' ∉ cs) (h : readTokens text o? cs = .ok ts) :
    ∃ texts, List.Forall₂ Token.Spells ts texts ∧ texts.flatten = pending o? ++ cs := by
  -- The cases are those of the reader. A star is read only where it is the whole section, which `hstar`
  -- rules out.
  fun_induction readTokens text o? cs generalizing ts with
  | case1 =>
    obtain rfl := Except.ok.inj h
    exact ⟨[], .nil, rfl⟩
  | case2 o => cases h
  | case3 o cs ih =>
    cases ht : readRange o.inside.reverse with
    | error e =>
      rw [ht] at h
      cases h
    | ok t =>
      rw [ht] at h
      obtain ⟨ts', hts, rfl⟩ := cons_of_bind_ok h
      obtain ⟨texts, hall, hcs⟩ := ih (fun hl hmem => hstar hl (List.mem_cons_of_mem _ hmem)) hts
      refine ⟨_, .cons (readRange_ok ht) hall, ?_⟩
      simp [pending, hcs]
  | case4 o c cs hc ih =>
    obtain ⟨texts, hall, hcs⟩ := ih (fun hl hmem => hstar hl (List.mem_cons_of_mem _ hmem)) h
    exact ⟨texts, hall, by simp [pending, hcs]⟩
  | case5 cs ih =>
    obtain ⟨ts', hts, rfl⟩ := cons_of_bind_ok h
    obtain ⟨texts, hall, hcs⟩ := ih (fun hl hmem => hstar hl (by simp [hmem])) hts
    exact ⟨_, .cons .anyDigit hall, by simp [pending, hcs]⟩
  | case6 cs hd ih =>
    obtain ⟨texts, hall, hcs⟩ := ih (fun hl hmem => hstar hl (List.mem_cons_of_mem _ hmem)) h
    exact ⟨texts, hall, by simp [pending, hcs]⟩
  | case7 cs hd hbrace => cases h
  | case8 cs hcrowded hd hbrace hpercent => cases h
  | case9 cs halone hd hbrace hpercent ih =>
    exact absurd (List.mem_cons_self ..) (hstar (Decidable.not_not.1 halone))
  | case10 c cs hd hbrace hpercent hstar' hdigit ih =>
    obtain ⟨ts', hts, rfl⟩ := cons_of_bind_ok h
    obtain ⟨texts, hall, hcs⟩ := ih (fun hl hmem => hstar hl (List.mem_cons_of_mem _ hmem)) hts
    exact ⟨_, .cons (.digit hdigit) hall, by simp [pending, hcs]⟩
  | case11 c cs hd hbrace hpercent hstar' hdigit => cases h

theorem readSection_spells {number : Nat} {text : List Char} {ts : List Token}
    (h : readSection number text = .ok ts) : SpellsSection ts text := by
  unfold readSection at h
  split at h
  case isTrue => cases h
  case isFalse hne =>
    by_cases hstar : text = ['*']
    · subst hstar
      obtain rfl : [.wildcard] = ts := Except.ok.inj h
      exact .wildcard
    have hno : text.length = 1 → '*' ∉ text := by
      intro hl hmem
      obtain ⟨c, rfl⟩ := List.length_eq_one_iff.1 hl
      exact hstar (congrArg (· :: []) (List.mem_singleton.1 hmem).symm)
    obtain ⟨texts, hall, rfl⟩ := readTokens_spells hno h
    refine .tokens ?_ hall
    rintro rfl
    cases hall
    exact hne rfl

/-! ## Patterns -/

namespace Pattern

theorem ofNormalForm_spells {text : String} {p : Pattern} (h : ofNormalForm text = .ok p) :
    p.Spells text.toList := by
  unfold ofNormalForm at h
  split at h
  case h_2 => cases h
  case h_1 a b c d hsplit =>
    have htext : ['.'].intercalate (splitAtChar '.' text.toList) = text.toList :=
      List.intercalate_splitOn '.'
    rw [hsplit] at htext
    cases ha : readSection 1 a with
    | error e => rw [ha] at h; cases h
    | ok first =>
      cases hb : readSection 2 b with
      | error e => rw [ha, hb] at h; cases h
      | ok second =>
        cases hc : readSection 3 c with
        | error e => rw [ha, hb, hc] at h; cases h
        | ok third =>
          cases hd : readSection 4 d with
          | error e => rw [ha, hb, hc, hd] at h; cases h
          | ok fourth =>
            rw [ha, hb, hc, hd] at h
            obtain rfl := Except.ok.inj h
            exact ⟨a, b, c, d, by simpa [List.intercalate] using htext.symm, readSection_spells ha,
              readSection_spells hb, readSection_spells hc, readSection_spells hd⟩

theorem parse_spells {s : String} {p : Pattern} (h : parse s = .ok p) :
    p.Spells (normalize s).toList := by
  unfold parse at h
  cases hform : ofNormalForm (normalize s) with
  | error e => rw [hform] at h; cases h
  | ok q =>
    rw [hform] at h
    obtain rfl := Except.ok.inj h
    exact ofNormalForm_spells hform

end Pattern
end CustomsClaims.Tariff
