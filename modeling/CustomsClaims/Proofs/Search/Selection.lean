import CustomsClaims.Proofs.Calendar.Days
import CustomsClaims.Search.Params
import Mathlib.Data.List.Forall2

/-!
# What a search finds

Search parameters ask for no query exactly if one of the entries between the commas of their patterns
is bad, or both their bounds are given in the wrong order; otherwise the query keeps, in order, the
claims that the parameters select (`SearchParams.search_selects`). `SearchParams.Selects` says which
these are from the parameters alone. The parts:

* a list of patterns is read entry by entry, and a bad entry decides (`Pattern.parseAll_ok`,
  `Pattern.parseAll_error`);
* bounds are one range, where a missing bound leaves its side open (`DateRange.ofBounds?_ok`);
* a query keeps what it accepts, also when it is empty (`Query.apply_eq_filter`).
-/

namespace CustomsClaims

/-! ## Lists of patterns -/

section
variable {α β ε : Type} {f : α → Except ε β}

theorem forall₂_of_mapM {xs : List α} {ys : List β} (h : xs.mapM f = .ok ys) :
    List.Forall₂ (fun x y => f x = .ok y) xs ys := by
  induction xs generalizing ys with
  | nil =>
    obtain rfl : [] = ys := Except.ok.inj h
    exact .nil
  | cons x xs ih =>
    rw [List.mapM_cons] at h
    cases hx : f x with
    | error e =>
      rw [hx] at h
      cases h
    | ok y =>
      cases hxs : xs.mapM f with
      | error e =>
        rw [hx, hxs] at h
        cases h
      | ok zs =>
        rw [hx, hxs] at h
        obtain rfl : y :: zs = ys := Except.ok.inj h
        exact .cons hx (ih hxs)

theorem mem_of_mapM_error {xs : List α} {e : ε} (h : xs.mapM f = .error e) :
    ∃ x ∈ xs, f x = .error e := by
  induction xs with
  | nil => cases h
  | cons x xs ih =>
    rw [List.mapM_cons] at h
    cases hx : f x with
    | error e' =>
      rw [hx] at h
      obtain rfl : e' = e := Except.error.inj h
      exact ⟨x, List.mem_cons_self, hx⟩
    | ok y =>
      cases hxs : xs.mapM f with
      | error e' =>
        rw [hx, hxs] at h
        obtain rfl : e' = e := Except.error.inj h
        obtain ⟨z, hz, hfz⟩ := ih hxs
        exact ⟨z, List.mem_cons_of_mem x hz, hfz⟩
      | ok zs =>
        rw [hx, hxs] at h
        cases h

end

namespace Tariff.Pattern

/-- What stands between the commas, trimmed; blank entries are left out. -/
def entries (text : String) : List String :=
  (((text.toList.splitOn ',').map trim).filter (· ≠ [])).map String.ofList

theorem parseAll_eq (text : String) : parseAll text = (entries text).mapM parse := by
  rw [parseAll, entries, List.mapM_map, Function.comp_def]

theorem parseAll_error {text : String} {e : InvalidPattern} (h : parseAll text = .error e) :
    ∃ entry ∈ entries text, parse entry = .error e := by
  rw [parseAll_eq] at h
  exact mem_of_mapM_error h

/-- The patterns that were read, in terms of the entries. -/
theorem parseAll_ok {text : String} {ps : List Pattern} (h : parseAll text = .ok ps) :
    (∀ entry ∈ entries text, (parse entry).isOk) ∧ (ps = [] ↔ entries text = []) ∧
      ∀ code, (∃ p ∈ ps, p.accepts code) ↔
        ∃ entry ∈ entries text, (parse entry).toOption.any (·.accepts code) := by
  rw [parseAll_eq] at h
  have hall := forall₂_of_mapM h
  generalize entries text = es at hall
  clear h
  induction hall with
  | nil => simp
  | @cons e p es ps hp _ ih =>
    obtain ⟨hok, -, haccepts⟩ := ih
    refine ⟨?_, by simp, ?_⟩
    · intro x hx
      rcases List.mem_cons.1 hx with rfl | hx
      · rw [hp]
        rfl
      · exact hok x hx
    · intro code
      simp only [List.exists_mem_cons_iff, haccepts code, hp, Except.toOption, Option.any_some]

end Tariff.Pattern

/-! ## Bounds -/

namespace Date

/-- A missing bound leaves its side open. -/
theorem getD_min_le {a : Option Date} {d : Date} : a.getD min ≤ d ↔ ∀ x ∈ a, x ≤ d := by
  cases a with
  | none => simp [min_le]
  | some x => simp

theorem le_getD_max {b : Option Date} {d : Date} : d ≤ b.getD max ↔ ∀ y ∈ b, d ≤ y := by
  cases b with
  | none => simp [le_max]
  | some y => simp

end Date

namespace DateRange

theorem ofBounds?_eq {a b : Option Date} (h : a ≠ none ∨ b ≠ none) :
    ofBounds? a b = (ofDates (a.getD Date.min) (b.getD Date.max)).map some := by
  cases a with
  | some x => rfl
  | none =>
    cases b with
    | some y => rfl
    | none => simp at h

theorem ofBounds?_error {a b : Option Date} {e : InvalidRange} (h : ofBounds? a b = .error e) :
    ∃ x ∈ a, ∃ y ∈ b, ¬x ≤ y := by
  by_cases hnone : a = none ∧ b = none
  · obtain ⟨rfl, rfl⟩ := hnone
    cases h
  rw [ofBounds?_eq (not_and_or.1 hnone), ofDates] at h
  split at h
  case isTrue => cases h
  case isFalse hle =>
    rw [Date.getD_min_le] at hle
    simpa only [Date.le_getD_max, not_forall, exists_prop] using hle

/-- The range between bounds, in terms of the bounds. -/
theorem ofBounds?_ok {a b : Option Date} {r? : Option DateRange} (h : ofBounds? a b = .ok r?) :
    (∀ x ∈ a, ∀ y ∈ b, x ≤ y) ∧ (r? = none ↔ a = none ∧ b = none) ∧
      ∀ d, (∃ r ∈ r?, r.contains d) ↔
        (a ≠ none ∨ b ≠ none) ∧ (∀ x ∈ a, x ≤ d) ∧ ∀ y ∈ b, d ≤ y := by
  by_cases hnone : a = none ∧ b = none
  · obtain ⟨rfl, rfl⟩ := hnone
    obtain rfl := Except.ok.inj h
    simp
  rw [ofBounds?_eq (not_and_or.1 hnone), ofDates] at h
  split at h
  case isFalse => cases h
  case isTrue hle =>
    obtain rfl := Except.ok.inj h
    rw [Date.getD_min_le] at hle
    simp only [Date.le_getD_max] at hle
    refine ⟨hle, by simp [hnone], ?_⟩
    intro d
    simp only [Option.mem_some_iff, exists_eq_left', contains_iff, Date.getD_min_le,
      Date.le_getD_max, not_and_or.1 hnone, true_and, ne_eq]

end DateRange

/-! ## Queries -/

namespace Query

/-- What a query keeps is what it accepts, also when it is empty. -/
theorem apply_eq_filter (q : Query) (cs : List Claim) : q.apply cs = cs.filter q.accepts := by
  unfold apply
  split
  case isFalse => rfl
  case isTrue h =>
    simp only [isEmpty, Bool.and_eq_true] at h
    obtain ⟨⟨hpatterns, hranges⟩, hname⟩ := h
    refine (List.filter_eq_self.2 ?_).symm
    intro c _
    rw [Option.isNone_iff_eq_none] at hname
    simp [accepts, hpatterns, hranges, hname]

theorem accepts_iff {q : Query} {c : Claim} :
    q.accepts c ↔ (q.patterns = [] ∨ ∃ p ∈ q.patterns, p.accepts c.htsCode) ∧
      (q.ranges = [] ∨ ∃ r ∈ q.ranges, r.contains c.importDate) ∧
      ∀ name ∈ q.importerName, name = c.importerName := by
  simp [accepts, and_assoc, Option.all_eq_true]

end Query

/-! ## What the parameters ask for -/

namespace SearchParams

/-- One of the patterns is bad. -/
def BadPatterns (p : SearchParams) : Prop :=
  ∃ text ∈ p.hts, ∃ entry ∈ Tariff.Pattern.entries text, ¬(Tariff.Pattern.parse entry).isOk

/-- Both bounds are given, the first after the last. -/
def BadBounds (p : SearchParams) : Prop :=
  ∃ a ∈ p.earliest, ∃ b ∈ p.latest, ¬a ≤ b

/-- What the parameters ask of a claim on the day `today`. -/
structure Selects (p : SearchParams) (today : Date) (c : Claim) : Prop where
  code : ∀ text ∈ p.hts, Tariff.Pattern.entries text = [] ∨
    ∃ entry ∈ Tariff.Pattern.entries text,
      (Tariff.Pattern.parse entry).toOption.any (·.accepts c.htsCode)
  date : (p.range = .none ∧ p.earliest = .none ∧ p.latest = .none) ∨
    (∃ r ∈ p.range, (r.resolve today).contains c.importDate) ∨
    ((p.earliest ≠ .none ∨ p.latest ≠ .none) ∧
      (∀ a ∈ p.earliest, a ≤ c.importDate) ∧ ∀ b ∈ p.latest, c.importDate ≤ b)
  importer : ∀ name ∈ p.importerName, name = c.importerName

theorem selects_iff {p : SearchParams} {today : Date} {c : Claim} :
    p.Selects today c ↔
      (∀ text ∈ p.hts, Tariff.Pattern.entries text = [] ∨
        ∃ entry ∈ Tariff.Pattern.entries text,
          (Tariff.Pattern.parse entry).toOption.any (·.accepts c.htsCode)) ∧
      ((p.range = .none ∧ p.earliest = .none ∧ p.latest = .none) ∨
        (∃ r ∈ p.range, (r.resolve today).contains c.importDate) ∨
        ((p.earliest ≠ .none ∨ p.latest ≠ .none) ∧
          (∀ a ∈ p.earliest, a ≤ c.importDate) ∧ ∀ b ∈ p.latest, c.importDate ≤ b)) ∧
      ∀ name ∈ p.importerName, name = c.importerName :=
  ⟨fun h => ⟨h.code, h.date, h.importer⟩, fun ⟨hcode, hdate, himporter⟩ => ⟨hcode, hdate, himporter⟩⟩

instance (p : SearchParams) (today : Date) : DecidablePred (p.Selects today) :=
  fun _ => decidable_of_iff _ selects_iff.symm

/-- The patterns that the parameters give. -/
def readPatterns (p : SearchParams) : Except Tariff.InvalidPattern (List Tariff.Pattern) :=
  match p.hts with
  | some text => Tariff.Pattern.parseAll text
  | .none => .ok []

theorem query_eq (p : SearchParams) (today : Date) :
    p.query today = (do
      let ps ← p.readPatterns.mapError .pattern
      let r? ← (DateRange.ofBounds? p.earliest p.latest).mapError .range
      return ⟨ps, (p.range.map (·.resolve today)).toList ++ r?.toList, p.importerName⟩) := by
  obtain ⟨hts, range, earliest, latest, importerName⟩ := p
  have hbounds (q : Query) : q.addBounds earliest latest = (do
      let r? ← (DateRange.ofBounds? earliest latest).mapError .range
      return { q with ranges := q.ranges ++ r?.toList }) := by
    unfold Query.addBounds
    cases DateRange.ofBounds? earliest latest with
    | error e => rfl
    | ok r? =>
      change _ = Except.ok { q with ranges := q.ranges ++ r?.toList }
      cases r? with
      | none => rw [Option.toList_none, List.append_nil]; rfl
      | some r => rfl
  simp only [query, hbounds, readPatterns]
  cases hts with
  | none => cases range <;> cases DateRange.ofBounds? earliest latest <;> cases importerName <;> rfl
  | some text =>
    simp only [Query.addPatterns]
    cases Tariff.Pattern.parseAll text with
    | error e => rfl
    | ok ps =>
      cases range <;> cases DateRange.ofBounds? earliest latest <;> cases importerName <;> rfl

theorem readPatterns_ok {p : SearchParams} {ps : List Tariff.Pattern}
    (h : p.readPatterns = .ok ps) :
    ¬p.BadPatterns ∧ ∀ code, (ps = [] ∨ ∃ q ∈ ps, q.accepts code) ↔
      ∀ text ∈ p.hts, Tariff.Pattern.entries text = [] ∨
        ∃ entry ∈ Tariff.Pattern.entries text,
          (Tariff.Pattern.parse entry).toOption.any (·.accepts code) := by
  unfold readPatterns at h
  unfold BadPatterns
  cases hhts : p.hts with
  | none =>
    rw [hhts] at h
    obtain rfl := Except.ok.inj h
    simp
  | some text =>
    rw [hhts] at h
    obtain ⟨hok, hempty, haccepts⟩ := Tariff.Pattern.parseAll_ok h
    refine ⟨?_, ?_⟩
    · rintro ⟨text', htext, entry, hentry, hbad⟩
      obtain rfl := Option.some.inj htext
      exact hbad (hok entry hentry)
    · intro code
      rw [hempty, haccepts]
      simp

theorem badPatterns_iff {p : SearchParams} : p.BadPatterns ↔ ∃ e, p.readPatterns = .error e := by
  cases hread : p.readPatterns with
  | ok ps => simp [(readPatterns_ok hread).1]
  | error e =>
    refine ⟨fun _ => ⟨e, rfl⟩, fun _ => ?_⟩
    unfold readPatterns at hread
    split at hread
    case h_1 text htext =>
      obtain ⟨entry, hentry, he⟩ := Tariff.Pattern.parseAll_error hread
      refine ⟨text, htext, entry, hentry, ?_⟩
      rw [he]
      exact Bool.false_ne_true
    case h_2 => cases hread

theorem badBounds_iff {p : SearchParams} :
    p.BadBounds ↔ ∃ e, DateRange.ofBounds? p.earliest p.latest = .error e := by
  constructor
  · rintro ⟨a, ha, b, hb, hlt⟩
    cases hbounds : DateRange.ofBounds? p.earliest p.latest with
    | error e => exact ⟨e, rfl⟩
    | ok r? => exact absurd ((DateRange.ofBounds?_ok hbounds).1 a ha b hb) hlt
  · rintro ⟨e, he⟩
    exact DateRange.ofBounds?_error he

/-! ## The query of the parameters -/

theorem query_error_iff {p : SearchParams} {today : Date} :
    (∃ e, p.query today = .error e) ↔ p.BadPatterns ∨ p.BadBounds := by
  rw [query_eq, badPatterns_iff, badBounds_iff]
  cases p.readPatterns with
  | error e => exact ⟨fun _ => .inl ⟨e, rfl⟩, fun _ => ⟨_, rfl⟩⟩
  | ok ps =>
    cases DateRange.ofBounds? p.earliest p.latest with
    | error e => exact ⟨fun _ => .inr ⟨e, rfl⟩, fun _ => ⟨_, rfl⟩⟩
    | ok r? =>
      constructor
      · rintro ⟨e, he⟩
        cases he
      · rintro (⟨e, he⟩ | ⟨e, he⟩)
        · cases he
        · cases he

/-- Bad patterns are reported before bad bounds. -/
theorem query_of_badPatterns {p : SearchParams} (today : Date) (h : p.BadPatterns) :
    ∃ e, p.query today = .error (.pattern e) := by
  obtain ⟨e, he⟩ := badPatterns_iff.1 h
  refine ⟨e, ?_⟩
  rw [query_eq, he]
  rfl

/-- The ranges of the query, in terms of the parameters. -/
theorem ranges_iff {p : SearchParams} {today : Date} {r? : Option DateRange}
    (h : DateRange.ofBounds? p.earliest p.latest = .ok r?) (d : Date) :
    ((p.range.map (·.resolve today)).toList ++ r?.toList = [] ∨
      ∃ r ∈ (p.range.map (·.resolve today)).toList ++ r?.toList, r.contains d) ↔
    (p.range = .none ∧ p.earliest = .none ∧ p.latest = .none) ∨
      (∃ r ∈ p.range, (r.resolve today).contains d) ∨
      ((p.earliest ≠ .none ∨ p.latest ≠ .none) ∧
        (∀ a ∈ p.earliest, a ≤ d) ∧ ∀ b ∈ p.latest, d ≤ b) := by
  obtain ⟨-, hnone, hcontains⟩ := DateRange.ofBounds?_ok h
  rw [← hnone, ← hcontains]
  cases p.range with
  | none => cases r? <;> simp
  | some r => cases r? <;> simp

theorem accepts_of_query {p : SearchParams} {today : Date} {q : Query}
    (h : p.query today = .ok q) (c : Claim) : q.accepts c ↔ p.Selects today c := by
  rw [query_eq] at h
  cases hpatterns : p.readPatterns with
  | error e =>
    rw [hpatterns] at h
    cases h
  | ok ps =>
    cases hbounds : DateRange.ofBounds? p.earliest p.latest with
    | error e =>
      rw [hpatterns, hbounds] at h
      cases h
    | ok r? =>
      rw [hpatterns, hbounds] at h
      obtain rfl := Except.ok.inj h
      rw [Query.accepts_iff, selects_iff, (readPatterns_ok hpatterns).2, ranges_iff hbounds]

/-- **A search finds what its parameters select.** There is no query exactly if a pattern is bad or the
bounds are, a bad pattern being reported first; otherwise the query keeps the selected claims, each
as often as it is there, in their order. -/
theorem search_selects (p : SearchParams) (today : Date) (cs : List Claim) :
    ((∃ e, p.query today = .error e) ↔ p.BadPatterns ∨ p.BadBounds) ∧
    (p.BadPatterns → ∃ e, p.query today = .error (.pattern e)) ∧
    ∀ q, p.query today = .ok q → q.apply cs = cs.filter (p.Selects today ·) := by
  refine ⟨query_error_iff, query_of_badPatterns today, ?_⟩
  intro q hq
  rw [Query.apply_eq_filter]
  refine List.filter_congr ?_
  intro c _
  rw [Bool.eq_iff_iff, decide_eq_true_iff]
  exact accepts_of_query hq c

/-- Two of three claims are found, by a pattern and an open bound. -/
example :
    let found (date code : String) : Claim :=
      { (default : Claim) with htsCode := code, importDate := (Date.ofText? date).toOption.getD .min }
    let cs := [found "2024-03-15" "8471.30.01.00", found "2023-12-31" "8471.30.01.00",
      found "2024-01-01" "8471.41.01.50"]
    let p : SearchParams :=
      { SearchParams.none with hts := some " , 8471.*.01.*", earliest := Date.ofParts? 2024 1 1 }
    (p.query .max).toOption.map (·.apply cs) = some (cs.filter (p.Selects .max ·)) := by
  decide +kernel

end SearchParams
end CustomsClaims
