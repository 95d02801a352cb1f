import CustomsClaims.Proofs.Calendar.Text
import CustomsClaims.Proofs.Search.Selection
import CustomsClaims.Proofs.Tariff.Acceptance
import CustomsClaims.Proofs.Text.Upper

/-!
# Patterns that are displayed and read again

The normal form of a pattern is its own normal form (`normalize_idem`): lowering the `D` of each `%D`
is all that a second upper-casing takes back. The text of a pattern has no commas and no blanks
(`Pattern.Spells.plain`), so the texts of a list of patterns, joined with commas, fall into just these
texts. `Pattern.reread` puts this together with how a list is read, entry by entry.
-/

namespace CustomsClaims.Tariff

/-! ## Normal forms -/

/-- Upper-casing takes back what was lowered. -/
theorem upperCase_lowerWildcards {cs : List Char} (h : ∀ c ∈ cs, Upper.ofChar c = [c]) :
    upperCase (lowerWildcards cs) = cs := by
  fun_induction lowerWildcards cs with
  | case1 cs ih =>
    have hrest := ih fun c hc => h c (List.mem_cons_of_mem _ (List.mem_cons_of_mem _ hc))
    show Upper.ofChar '%' ++ (Upper.ofChar 'd' ++ upperCase (lowerWildcards cs)) = _
    rw [hrest]
    rfl
  | case2 c cs _ ih =>
    have hrest := ih fun c hc => h c (List.mem_cons_of_mem _ hc)
    show Upper.ofChar c ++ upperCase (lowerWildcards cs) = _
    rw [hrest, h c List.mem_cons_self]
    rfl
  | case3 => rfl

theorem map_isBlank_lowerWildcards (cs : List Char) :
    (lowerWildcards cs).map isBlank = cs.map isBlank := by
  fun_induction lowerWildcards cs with
  | case1 cs ih =>
    show isBlank '%' :: isBlank 'd' :: (lowerWildcards cs).map isBlank = _
    rw [ih]
    rfl
  | case2 c cs _ ih => rw [List.map_cons, List.map_cons, ih]
  | case3 => rfl

/-- **A normal form is its own normal form.** -/
theorem normalize_idem (s : String) : normalize (normalize s) = normalize s := by
  have htrimmed : Trimmed (lowerWildcards (upperCase (trim s.toList))) :=
    .congr (map_isBlank_lowerWildcards _) (trim_trimmed _).upperCase
  have hupper : upperCase (lowerWildcards (upperCase (trim s.toList))) = upperCase (trim s.toList) :=
    upperCase_lowerWildcards fun _ => settled_of_mem_upperCase
  unfold normalize
  rw [String.toList_ofList, htrimmed.trim_eq, hupper]

theorem Pattern.parse_normalize (s : String) : parse (normalize s) = parse s := by
  rw [parse, normalize_idem]
  rfl

/-! ## The characters of a pattern -/

/-- Neither a comma nor a blank. -/
def Plain (c : Char) : Prop := c ≠ ',' ∧ isBlank c = false

instance : DecidablePred Plain := fun _ => inferInstanceAs (Decidable (_ ∧ _))

theorem plain_of_isDigit {c : Char} (h : isDigit c) : Plain c := by
  refine ⟨?_, isBlank_of_isDigit h⟩
  rintro rfl
  revert h
  decide

theorem SpellsBound.plain {n : Nat} {text : List Char} (h : SpellsBound n text) :
    ∀ c ∈ text, Plain c := by
  intro c hc
  rcases h.mem hc with rfl | hdigit
  · decide
  · exact plain_of_isDigit hdigit

theorem Token.Spells.plain {t : Token} {text : List Char} (h : t.Spells text) :
    ∀ c ∈ text, Plain c := by
  cases h with
  | digit hdigit =>
    rw [List.forall_mem_singleton]
    exact plain_of_isDigit hdigit
  | range ha hb _ =>
    have hbrace : ∀ c ∈ ['}'], Plain c := List.forall_mem_singleton.2 (by decide)
    rw [List.forall_mem_cons, List.forall_mem_append, List.forall_mem_cons, List.forall_mem_append]
    exact ⟨by decide, ha.plain, by decide, hb.plain, hbrace⟩
  | anyDigit =>
    have hletter : ∀ c ∈ ['d'], Plain c := List.forall_mem_singleton.2 (by decide)
    rw [List.forall_mem_cons]
    exact ⟨by decide, hletter⟩

theorem SpellsSection.plain {ts : List Token} {text : List Char} (h : SpellsSection ts text) :
    ∀ c ∈ text, Plain c := by
  cases h with
  | wildcard =>
    rw [List.forall_mem_singleton]
    decide
  | tokens hne h =>
    clear hne
    induction h with
    | nil => simp
    | cons ht _ ih =>
      rw [List.flatten_cons, List.forall_mem_append]
      exact ⟨ht.plain, ih⟩

namespace Pattern

/-- **The text of a pattern has no commas and no blanks.** -/
theorem Spells.plain {p : Pattern} {text : List Char} (h : p.Spells text) :
    ∀ c ∈ text, Plain c := by
  obtain ⟨a, b, c, d, rfl, ha, hb, hc, hd⟩ := h
  simp only [List.forall_mem_append, List.forall_mem_cons]
  have hpoint : Plain '.' := by decide
  exact ⟨ha.plain, hpoint, hb.plain, hpoint, hc.plain, hpoint, hd.plain⟩

theorem Spells.ne_nil {p : Pattern} {text : List Char} (h : p.Spells text) : text ≠ [] := by
  obtain ⟨a, b, c, d, rfl, -⟩ := h
  simp

/-! ## Lists that are joined -/

theorem entries_append (a b : String) : entries (a ++ "," ++ b) = entries a ++ entries b := by
  have htext : (a ++ "," ++ b).toList = a.toList ++ ',' :: b.toList := by simp
  rw [entries, htext, List.splitOn_append_cons_self, List.map_append, List.filter_append, List.map_append]
  rfl

/-- A list of two lists is read as the one and then the other. -/
theorem parseAll_append (a b : String) : parseAll (a ++ "," ++ b) = (do
    let ps ← parseAll a
    let qs ← parseAll b
    return ps ++ qs) := by
  rw [parseAll_eq, parseAll_eq, parseAll_eq, entries_append, List.mapM_append]

/-! ## Entries -/

/-- The pieces that are not blank, trimmed. -/
def trimmedPieces (pieces : List String) : List String :=
  ((pieces.map fun piece => trim piece.toList).filter (· ≠ [])).map String.ofList

/-- The pieces of the text between its commas. -/
structure Between (text : String) (pieces : List String) : Prop where
  ne_nil : pieces ≠ []
  no_comma : ∀ piece ∈ pieces, ',' ∉ piece.toList
  joined : ",".intercalate pieces = text

theorem Between.splitOn_eq {text : String} {pieces : List String} (h : Between text pieces) :
    text.toList.splitOn ',' = pieces.map String.toList := by
  rw [← h.joined, String.toList_intercalate]
  apply List.splitOn_intercalate
  · simpa using h.no_comma
  · simp [h.ne_nil]

theorem Between.entries_eq {text : String} {pieces : List String} (h : Between text pieces) :
    entries text = trimmedPieces pieces := by
  rw [entries, h.splitOn_eq, List.map_map]
  rfl

/-- No piece has a character that was split at. -/
theorem not_mem_of_mem_splitOn {sep : Char} {cs piece : List Char} (h : piece ∈ cs.splitOn sep) :
    sep ∉ piece := by
  induction cs generalizing piece with
  | nil =>
    rw [List.splitOn_nil, List.mem_singleton] at h
    simp [h]
  | cons c cs ih =>
    rw [List.splitOn_cons_eq_if_modifyHead] at h
    split at h
    case isTrue =>
      rcases List.mem_cons.1 h with rfl | h
      · simp
      · exact ih h
    case isFalse hc =>
      obtain ⟨p, ps, hsplit⟩ := List.exists_cons_of_ne_nil (List.splitOn_ne_nil sep cs)
      rw [hsplit, List.modifyHead_cons] at h
      rw [hsplit] at ih
      rcases List.mem_cons.1 h with rfl | h
      · rw [List.mem_cons, not_or]
        exact ⟨fun hsep => hc (by simp [hsep]), ih List.mem_cons_self⟩
      · exact ih (List.mem_cons_of_mem _ h)

/-- Every text has its pieces. -/
theorem exists_between (text : String) : ∃ pieces, Between text pieces := by
  refine ⟨(text.toList.splitOn ',').map String.ofList, ?_, ?_, ?_⟩
  · simp [List.splitOn_ne_nil]
  · intro piece hpiece
    obtain ⟨cs, hcs, rfl⟩ := List.mem_map.1 hpiece
    rw [String.toList_ofList]
    exact not_mem_of_mem_splitOn hcs
  · rw [← String.toList_inj, String.toList_intercalate, List.map_map]
    have hid : String.toList ∘ String.ofList = id := funext fun _ => String.toList_ofList
    rw [hid, List.map_id]
    exact List.intercalate_splitOn ','

section
variable {α β ε : Type} {f : α → Except ε β}

theorem mapM_ok_iff {xs : List α} {ys : List β} :
    xs.mapM f = .ok ys ↔ List.Forall₂ (fun x y => f x = .ok y) xs ys := by
  refine ⟨forall₂_of_mapM, fun h => ?_⟩
  induction h with
  | nil => rfl
  | cons hx _ ih =>
    rw [List.mapM_cons, hx, ih]
    rfl

/-- The error of a list is that of its first bad element. -/
theorem mapM_error_iff {xs : List α} {e : ε} :
    xs.mapM f = .error e ↔ ∃ before x after, xs = before ++ x :: after ∧
      (∀ y ∈ before, ∃ r, f y = .ok r) ∧ f x = .error e := by
  constructor
  · intro h
    induction xs with
    | nil => cases h
    | cons x xs ih =>
      rw [List.mapM_cons] at h
      cases hx : f x with
      | error e' =>
        rw [hx] at h
        obtain rfl : e' = e := Except.error.inj h
        exact ⟨[], x, xs, rfl, by simp, hx⟩
      | ok y =>
        cases hxs : xs.mapM f with
        | ok ys =>
          rw [hx, hxs] at h
          cases h
        | error e' =>
          rw [hx, hxs] at h
          obtain rfl : e' = e := Except.error.inj h
          obtain ⟨before, z, after, rfl, hbefore, hz⟩ := ih hxs
          refine ⟨x :: before, z, after, rfl, ?_, hz⟩
          rw [List.forall_mem_cons]
          exact ⟨⟨y, hx⟩, hbefore⟩
  · rintro ⟨before, x, after, rfl, hbefore, hx⟩
    induction before with
    | nil =>
      rw [List.nil_append, List.mapM_cons, hx]
      rfl
    | cons y before ih =>
      obtain ⟨⟨r, hy⟩, hbefore⟩ := List.forall_mem_cons.1 hbefore
      rw [List.cons_append, List.mapM_cons, hy, ih hbefore]
      rfl

end

/-! ## Lists that are displayed -/

/-- The texts of the patterns, joined with commas. -/
def display (ps : List Pattern) : String :=
  ",".intercalate (ps.map (·.text))

/-- What stands in a list that was read: patterns that are read again from their own texts, which
are plain. -/
theorem mem_of_parseAll {s : String} {ps : List Pattern} (h : parseAll s = .ok ps) :
    ∀ p ∈ ps, parse p.text = .ok p ∧ p.text ≠ "" ∧ ∀ c ∈ p.text.toList, Plain c := by
  rw [parseAll_eq, mapM_ok_iff] at h
  generalize entries s = entries at h
  induction h with
  | nil => simp
  | @cons entry p entries ps hp _ ih =>
    rw [List.forall_mem_cons]
    refine ⟨?_, ih⟩
    obtain ⟨htext, hspells⟩ := parse_eq_ok_iff.1 hp
    rw [htext]
    refine ⟨?_, ?_, hspells.plain⟩
    · rw [parse_normalize, hp]
    · intro hempty
      apply hspells.ne_nil
      rw [hempty]
      rfl

/-- Plain texts are the pieces of their list, all of them its entries. -/
theorem entries_join {texts : List String}
    (h : ∀ text ∈ texts, text ≠ "" ∧ ∀ c ∈ text.toList, Plain c) :
    entries (",".intercalate texts) = texts := by
  by_cases hne : texts = []
  · rw [hne]
    rfl
  have hbetween : Between (",".intercalate texts) texts := by
    refine ⟨hne, ?_, rfl⟩
    intro text htext hcomma
    exact ((h text htext).2 _ hcomma).1 rfl
  rw [hbetween.entries_eq, trimmedPieces]
  have htrim : texts.map (fun text => trim text.toList) = texts.map String.toList := by
    apply List.map_congr_left
    intro text htext
    exact Trimmed.trim_eq (.of_forall fun c hc => ((h text htext).2 c hc).2)
  have hkeep : (texts.map String.toList).filter (· ≠ []) = texts.map String.toList := by
    apply List.filter_eq_self.2
    intro cs hcs
    obtain ⟨text, htext, rfl⟩ := List.mem_map.1 hcs
    simpa using (h text htext).1
  have hid : String.ofList ∘ String.toList = id := funext fun _ => String.ofList_toList
  rw [htrim, hkeep, List.map_map, hid, List.map_id]

/-- **A list that is displayed is read again.** -/
theorem parseAll_display {s : String} {ps : List Pattern} (h : parseAll s = .ok ps) :
    parseAll (display ps) = .ok ps := by
  have hmem := mem_of_parseAll h
  have hentries : entries (display ps) = ps.map (·.text) := by
    apply entries_join
    intro text htext
    obtain ⟨p, hp, rfl⟩ := List.mem_map.1 htext
    exact (hmem p hp).2
  rw [parseAll_eq, hentries, mapM_ok_iff, List.forall₂_map_left_iff, List.forall₂_same]
  exact fun p hp => (hmem p hp).1

/-- **Patterns and their lists are the same after they are displayed.** A pattern is read from its
normal form as from its text; a list is read entry by entry, where the first bad entry decides; two
lists are read one after the other; and from what displays the patterns of a list, these patterns
are read. -/
theorem reread (s : String) :
    normalize (normalize s) = normalize s ∧ parse (normalize s) = parse s ∧
    (∃ pieces, Between s pieces ∧
      (∀ ps, parseAll s = .ok ps ↔
        List.Forall₂ (fun entry p => parse entry = .ok p) (trimmedPieces pieces) ps) ∧
      ∀ e, parseAll s = .error e ↔
        ∃ before entry after, trimmedPieces pieces = before ++ entry :: after ∧
          (∀ good ∈ before, ∃ p, parse good = .ok p) ∧ parse entry = .error e) ∧
    (∀ t, parseAll (s ++ "," ++ t) = (do
      let ps ← parseAll s
      let qs ← parseAll t
      return ps ++ qs)) ∧
    (do let ps ← parseAll s; parseAll (display ps)) = parseAll s := by
  refine ⟨normalize_idem s, parse_normalize s, ?_, parseAll_append s, ?_⟩
  · obtain ⟨pieces, hpieces⟩ := exists_between s
    refine ⟨pieces, hpieces, ?_, ?_⟩
    · intro ps
      rw [parseAll_eq, hpieces.entries_eq, mapM_ok_iff]
    · intro e
      rw [parseAll_eq, hpieces.entries_eq, mapM_error_iff]
  · cases h : parseAll s with
    | error e => rfl
    | ok ps => exact parseAll_display h

/-- Two patterns of three entries, in their normal forms. -/
example : (parseAll " 847%D.{3-5}0.*.01 , ,*.*.*.*").map display =
    .ok "847%d.{3-5}0.*.01,*.*.*.*" := by
  decide +kernel

end Pattern
end CustomsClaims.Tariff
