import CustomsClaims.Proofs.Calendar.Windows
import CustomsClaims.Proofs.Search.Selection
import Mathlib.Data.List.Induction

/-!
# Building a query step by step

Whether a step succeeds does not depend on the query that it is taken on, and what it adds to the
query does not either (`Query.step_eq_ok`). So a query that was built has the patterns and the ranges
of all its steps and the name of the last step that gives one (`Query.build_eq_ok`), and
`Query.build_reordered` puts together what follows for the order of the steps and for one step more.
-/

namespace CustomsClaims

/-- The ends of the range between bounds are in order. -/
theorem DateRange.ofBounds?_ordered {a b : Option Date} {r : DateRange}
    (h : ofBounds? a b = .ok (some r)) : r.start ≤ r.finish := by
  have hbounds : a ≠ none ∨ b ≠ none := by
    apply not_and_or.1
    rintro ⟨rfl, rfl⟩
    cases h
  rw [ofBounds?_eq hbounds, ofDates] at h
  split at h
  case isFalse => cases h
  case isTrue hle =>
    obtain rfl := Option.some.inj (Except.ok.inj h)
    exact hle

namespace Query

/-! ## Steps -/

/-- What a query restricts claims by. -/
inductive Criterion where
  | code
  | date
  | importer
deriving DecidableEq

namespace Step

/-- What a step is about. -/
def criterion : Step → Criterion
  | .patterns _ => .code
  | .relative .. | .bounds .. => .date
  | .importer _ => .importer

/-- The patterns that the step adds. -/
def newPatterns : Step → List Tariff.Pattern
  | .patterns text => (Tariff.Pattern.parseAll text).toOption.getD []
  | _ => []

/-- The ranges that the step adds. -/
def newRanges : Step → List DateRange
  | .relative r today => [r.resolve today]
  | .bounds earliest latest =>
    ((DateRange.ofBounds? earliest latest).toOption.getD none).toList
  | _ => []

/-- The name that the step asks for. -/
def newName? : Step → Option String
  | .importer name => some name
  | _ => none

/-- Does the step succeed? -/
def Succeeds (s : Step) : Prop := (Query.empty.step s).isOk

variable {s : Step}

theorem newPatterns_of_ne (h : s.criterion ≠ .code) : s.newPatterns = [] := by
  cases s <;> simp_all [criterion, newPatterns]

theorem newRanges_of_ne (h : s.criterion ≠ .date) : s.newRanges = [] := by
  cases s <;> simp_all [criterion, newRanges]

theorem newName?_of_ne (h : s.criterion ≠ .importer) : s.newName? = none := by
  cases s <;> simp_all [criterion, newName?]

/-- **No step adds a range whose ends are in the wrong order.** -/
theorem newRanges_ordered {r : DateRange} (h : r ∈ s.newRanges) : r.start ≤ r.finish := by
  cases s with
  | patterns text => simp [newRanges] at h
  | importer name => simp [newRanges] at h
  | relative range today =>
    obtain rfl : r = range.resolve today := by simpa [newRanges] using h
    exact (range.ordered today).1
  | bounds earliest latest =>
    cases hbounds : DateRange.ofBounds? earliest latest with
    | error e => simp [newRanges, hbounds, Except.toOption] at h
    | ok r? =>
      obtain rfl : r? = some r := by simpa [newRanges, hbounds, Except.toOption] using h
      exact DateRange.ofBounds?_ordered hbounds

end Step

/-- The query with what the step adds. -/
def extend (q : Query) (s : Step) : Query :=
  ⟨q.patterns ++ s.newPatterns, q.ranges ++ s.newRanges, s.newName?.or q.importerName⟩

theorem step_patterns (q : Query) (text : String) :
    q.step (.patterns text) = match Tariff.Pattern.parseAll text with
      | .ok ps => .ok { q with patterns := q.patterns ++ ps }
      | .error e => .error (.pattern e) := by
  rw [step, addPatterns]
  cases Tariff.Pattern.parseAll text <;> rfl

theorem step_bounds (q : Query) (earliest latest : Option Date) :
    q.step (.bounds earliest latest) = match DateRange.ofBounds? earliest latest with
      | .ok r? => .ok { q with ranges := q.ranges ++ r?.toList }
      | .error e => .error (.range e) := by
  rw [step, addBounds]
  cases DateRange.ofBounds? earliest latest with
  | error e => rfl
  | ok r? => cases r? <;> simp [Except.mapError, bind, Except.bind, pure, Except.pure]

/-- **A step does not look at the query**: it succeeds on all queries or on none, and adds the same to
each. -/
theorem step_eq_ok {q q' : Query} {s : Step} : q.step s = .ok q' ↔ s.Succeeds ∧ q' = q.extend s := by
  unfold Step.Succeeds extend
  cases s with
  | patterns text =>
    rw [step_patterns, step_patterns]
    cases hps : Tariff.Pattern.parseAll text <;>
      simp [Step.newPatterns, Step.newRanges, Step.newName?, hps, Except.toOption, Except.isOk,
        Except.toBool, eq_comm]
  | bounds earliest latest =>
    rw [step_bounds, step_bounds]
    cases hr : DateRange.ofBounds? earliest latest <;>
      simp [Step.newPatterns, Step.newRanges, Step.newName?, hr, Except.toOption, Except.isOk,
        Except.toBool, eq_comm]
  | relative r today =>
    simp [step, addRelative, Step.newPatterns, Step.newRanges, Step.newName?, Except.isOk,
      Except.toBool, eq_comm]
  | importer name =>
    simp [step, setImporter, Step.newPatterns, Step.newRanges, Step.newName?, Except.isOk,
      Except.toBool, eq_comm]

/-! ## All steps -/

/-- The query that the steps ask for together. -/
def ofSteps (steps : List Step) : Query :=
  ⟨steps.flatMap Step.newPatterns, steps.flatMap Step.newRanges,
    (steps.filterMap Step.newName?).getLast?⟩

theorem ofSteps_concat (steps : List Step) (s : Step) :
    ofSteps (steps ++ [s]) = (ofSteps steps).extend s := by
  unfold ofSteps extend
  cases hname : s.newName? <;> simp [hname, List.filterMap_append, Option.or]

theorem foldl_extend (steps : List Step) : steps.foldl extend empty = ofSteps steps := by
  induction steps using List.reverseRecOn with
  | nil => rfl
  | append_singleton steps s ih => rw [List.foldl_concat, ih, ofSteps_concat]

theorem build_eq_foldl {q q' : Query} {done : Nat} {steps : List Step} :
    q.build done steps = .ok q' ↔ (∀ s ∈ steps, s.Succeeds) ∧ q' = steps.foldl extend q := by
  induction steps generalizing q done with
  | nil => simp [build, eq_comm]
  | cons s ss ih =>
    rw [build, List.forall_mem_cons, List.foldl_cons]
    cases hs : q.step s with
    | ok q₁ =>
      obtain ⟨hsucceeds, rfl⟩ := step_eq_ok.1 hs
      simp [ih, hsucceeds]
    | error e =>
      have hfails : ¬ s.Succeeds := by
        intro hsucceeds
        rw [step_eq_ok.2 ⟨hsucceeds, rfl⟩] at hs
        cases hs
      simp [hfails]

/-- **A query is built exactly if every step succeeds**, and it is what the steps ask for together. -/
theorem build_eq_ok {q : Query} {done : Nat} {steps : List Step} :
    empty.build done steps = .ok q ↔ (∀ s ∈ steps, s.Succeeds) ∧ q = ofSteps steps := by
  rw [build_eq_foldl, foldl_extend]

theorem ofSteps_ordered (steps : List Step) : ∀ r ∈ (ofSteps steps).ranges, r.start ≤ r.finish := by
  intro r hr
  obtain ⟨s, -, hr⟩ := List.mem_flatMap.1 hr
  exact s.newRanges_ordered hr

/-! ## The order of the steps -/

theorem accepts_of_perm {q q' : Query} (hpatterns : q'.patterns.Perm q.patterns)
    (hranges : q'.ranges.Perm q.ranges) (hname : q'.importerName = q.importerName) (c : Claim) :
    q'.accepts c = q.accepts c := by
  apply Bool.eq_iff_iff.2
  simp only [accepts_iff, ← List.length_eq_zero_iff, hpatterns.length_eq, hranges.length_eq,
    hpatterns.mem_iff, hranges.mem_iff, hname]

/-- The names that are asked for are those of the steps that ask for one. -/
theorem filterMap_newName? (steps : List Step) :
    (steps.filter (·.criterion = .importer)).filterMap Step.newName? =
      steps.filterMap Step.newName? := by
  rw [List.filterMap_filter]
  apply List.filterMap_congr
  intro s _
  by_cases h : s.criterion = .importer
  · simp [h]
  · simp [h, s.newName?_of_ne h]

theorem accepts_ofSteps_perm {steps steps' : List Step} (h : steps'.Perm steps)
    (hnames : steps'.filter (·.criterion = .importer) = steps.filter (·.criterion = .importer))
    (c : Claim) : (ofSteps steps').accepts c = (ofSteps steps).accepts c := by
  apply accepts_of_perm
  · exact h.flatMap_right _
  · exact h.flatMap_right _
  · show (steps'.filterMap _).getLast? = (steps.filterMap _).getLast?
    rw [← filterMap_newName?, hnames, filterMap_newName?]

/-! ## One step more -/

/-- Does the query restrict claims by the criterion? -/
def Restricts (q : Query) : Criterion → Prop
  | .code => q.patterns ≠ []
  | .date => q.ranges ≠ []
  | .importer => q.importerName ≠ none

/-- A criterion that no step is about restricts nothing. -/
theorem not_restricts_ofSteps {steps : List Step} {k : Criterion}
    (h : ∀ s ∈ steps, s.criterion ≠ k) : ¬ (ofSteps steps).Restricts k := by
  cases k with
  | code => simpa [Restricts, ofSteps] using fun s hs => s.newPatterns_of_ne (h s hs)
  | date => simpa [Restricts, ofSteps] using fun s hs => s.newRanges_of_ne (h s hs)
  | importer => simpa [Restricts, ofSteps] using fun s hs => s.newName?_of_ne (h s hs)

variable {q : Query} {s : Step} {c : Claim}

/-- **More of what is asked for already lets more claims pass.** -/
theorem accepts_extend_of_restricts (hs : s.criterion ≠ .importer) (hq : q.Restricts s.criterion)
    (h : q.accepts c) : (q.extend s).accepts c := by
  rw [accepts_iff] at h ⊢
  obtain ⟨hcode, hdate, hname⟩ := h
  simp only [extend, s.newName?_of_ne hs, Option.none_or]
  -- The part that the step adds to has an element already, one of which accepts the claim.
  cases hk : s.criterion with
  | importer => exact absurd hk hs
  | code =>
    rw [hk] at hq
    obtain ⟨p, hp, haccepts⟩ := hcode.resolve_left hq
    rw [s.newRanges_of_ne (by simp [hk]), List.append_nil]
    exact ⟨.inr ⟨p, by simp [hp], haccepts⟩, hdate, hname⟩
  | date =>
    rw [hk] at hq
    obtain ⟨r, hr, hcontains⟩ := hdate.resolve_left hq
    rw [s.newPatterns_of_ne (by simp [hk]), List.append_nil]
    exact ⟨hcode, .inr ⟨r, by simp [hr], hcontains⟩, hname⟩

/-- **What is asked for first lets no more claims pass.** -/
theorem accepts_of_extend (hq : ¬ q.Restricts s.criterion) (h : (q.extend s).accepts c) :
    q.accepts c := by
  rw [accepts_iff] at h ⊢
  obtain ⟨hcode, hdate, hname⟩ := h
  simp only [extend] at hcode hdate hname
  cases hk : s.criterion with
  | code =>
    rw [hk] at hq
    rw [s.newRanges_of_ne (by simp [hk]), List.append_nil] at hdate
    rw [s.newName?_of_ne (by simp [hk]), Option.none_or] at hname
    exact ⟨.inl (Decidable.not_not.1 hq), hdate, hname⟩
  | date =>
    rw [hk] at hq
    rw [s.newPatterns_of_ne (by simp [hk]), List.append_nil] at hcode
    rw [s.newName?_of_ne (by simp [hk]), Option.none_or] at hname
    exact ⟨hcode, .inl (Decidable.not_not.1 hq), hname⟩
  | importer =>
    rw [hk] at hq
    rw [s.newPatterns_of_ne (by simp [hk]), List.append_nil] at hcode
    rw [s.newRanges_of_ne (by simp [hk]), List.append_nil] at hdate
    have hnone : q.importerName = none := Decidable.not_not.1 hq
    exact ⟨hcode, hdate, by simp [hnone]⟩

/-! ## Queries that were built -/

/-- **The order in which a query is built makes no difference**, as long as the names come in the same
order. The ranges of the query have their ends in order, and it keeps exactly the claims that it
accepts. One step more about what the query restricts already, codes or dates, lets more claims pass;
one about what it does not restrict, as the first of its kind is, lets fewer pass. -/
theorem build_reordered {steps : List Step} {q : Query} (h : empty.build 0 steps = .ok q) :
    (∀ r ∈ q.ranges, r.start ≤ r.finish) ∧
    (∀ cs, q.apply cs = cs.filter q.accepts) ∧
    (∀ steps', steps'.Perm steps →
      steps'.filter (·.criterion = .importer) = steps.filter (·.criterion = .importer) →
      ∃ q', empty.build 0 steps' = .ok q' ∧ ∀ c, q'.accepts c = q.accepts c) ∧
    ∀ s q', empty.build 0 (steps ++ [s]) = .ok q' →
      (s.criterion ≠ .importer → q.Restricts s.criterion → ∀ c, q.accepts c → q'.accepts c) ∧
      ((∀ x ∈ steps, x.criterion ≠ s.criterion) → ¬ q.Restricts s.criterion) ∧
      (¬ q.Restricts s.criterion → ∀ c, q'.accepts c → q.accepts c) := by
  obtain ⟨hsucceed, rfl⟩ := build_eq_ok.1 h
  refine ⟨ofSteps_ordered steps, apply_eq_filter _, ?_, ?_⟩
  · intro steps' hperm hnames
    have hsucceed' : ∀ s ∈ steps', s.Succeeds := fun s hs => hsucceed s (hperm.mem_iff.1 hs)
    exact ⟨_, build_eq_ok.2 ⟨hsucceed', rfl⟩, accepts_ofSteps_perm hperm hnames⟩
  · intro s q' h'
    obtain ⟨-, rfl⟩ := build_eq_ok.1 h'
    rw [ofSteps_concat]
    refine ⟨?_, not_restricts_ofSteps, ?_⟩
    · intro hs hq c hc
      exact accepts_extend_of_restricts hs hq hc
    · intro hq c hc
      exact accepts_of_extend hq hc

/-- Five steps, of which one adds nothing and one is overruled, in another order, and a sixth that widens
the dates. -/
theorem build_reordered_five :
    let today : Date := ⟨2024, 3, 15, by decide, by decide, by decide⟩
    let steps : List Step := [.patterns " 8471.*.*.%d1 ,", .importer "Globex", .bounds none none,
      .relative .oneWeek today, .importer "Acme"]
    let steps' : List Step := [.importer "Globex", .relative .oneWeek today, .importer "Acme",
      .patterns " 8471.*.*.%d1 ,", .bounds none none]
    let wider : Step := .bounds none (some today)
    ∃ q q' q'', empty.build 0 steps = .ok q ∧ empty.build 0 steps' = .ok q' ∧
      empty.build 0 (steps ++ [wider]) = .ok q'' ∧ q'.importerName = some "Acme" ∧
      ∀ c, q'.accepts c = q.accepts c ∧ (q.accepts c → q''.accepts c) := by
  intro today steps steps' wider
  have hok : ∀ l ∈ [steps, steps ++ [wider]], (empty.build 0 l).isOk := by decide +kernel
  have hbuilt : ∀ l ∈ [steps, steps ++ [wider]], ∃ q, empty.build 0 l = .ok q := by
    intro l hl
    cases hq : empty.build 0 l with
    | error e => simpa [hq, Except.isOk, Except.toBool] using hok l hl
    | ok q => exact ⟨q, rfl⟩
  obtain ⟨q, hq⟩ := hbuilt steps (by simp)
  obtain ⟨q'', hq''⟩ := hbuilt (steps ++ [wider]) (by simp)
  obtain ⟨-, -, hreordered, hmore⟩ := build_reordered hq
  obtain ⟨q', hq', haccepts⟩ := hreordered steps' (by decide +kernel) (by decide +kernel)
  have hdate : q.Restricts .date := by
    obtain ⟨-, rfl⟩ := build_eq_ok.1 hq
    simp [Restricts, ofSteps, steps, Step.newRanges]
  have hname : q'.importerName = some "Acme" := by
    obtain ⟨-, rfl⟩ := build_eq_ok.1 hq'
    rfl
  obtain ⟨hwider, -⟩ := hmore wider q'' hq''
  exact ⟨q, q', q'', hq, hq', hq'', hname, fun c => ⟨haccepts c, hwider (by decide) hdate c⟩⟩

end Query
end CustomsClaims
