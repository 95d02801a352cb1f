import CustomsClaims.Store.Script
import Mathlib.Logic.Relation

/-!
# Scripts step by step

`Script.Step` carries out one operation of a script, which succeeds, and `Script.Steps` any number of
them. A script of whose operations none fails (`Script.faultless`) gets to its end by such steps
(`Script.steps_of_faultless`), and that is where its run ends (`Script.run_of_steps`). The steps of
two scripts in a row are those of the first and then those of the second (`Script.steps_bind`).
-/

namespace CustomsClaims.Script

variable {α β : Type}

/-- One operation, which succeeds. -/
inductive Step : Script α × Disk → Script α × Disk → Prop
  | note (e : Event) (next : Script α) (d : Disk) : Step (.note e next, d) (next, d)
  | probe {p : Path} {next : Except IoError Bool → Script α} {d : Disk} {b : Bool}
    (h : d.exists? p = .ok b) : Step (.probe p next, d) (next (.ok b), d)
  | makeDirs {p : Path} {next : Except IoError Unit → Script α} {d d' : Disk}
    (h : d.makeDirs p = (.ok (), d')) : Step (.makeDirs p next, d) (next (.ok ()), d')
  | write {p : Path} {c : Bytes} {next : Except IoError Unit → Script α} {d d' : Disk}
    (h : d.write p c = .ok d') : Step (.write p c next, d) (next (.ok ()), d')
  | read {p : Path} {next : Except IoError String → Script α} {d : Disk} {s : String}
    (h : d.readText p = .ok s) : Step (.read p next, d) (next (.ok s), d)
  | rename {s t : Path} {next : Except IoError Unit → Script α} {d d' : Disk}
    (h : d.rename s t = .ok d') : Step (.rename s t next, d) (next (.ok ()), d')

/-- Any number of operations, which all succeed. -/
abbrev Steps : Script α × Disk → Script α × Disk → Prop :=
  Relation.ReflTransGen Step

/-- Does no operation of the script fail when it is carried out on the disk? -/
def faultless : Script α → Disk → Bool
  | .done _, _ => true
  | .note _ next, d => next.faultless d
  | .probe p next, d => (d.exists? p).isOk && (next (d.exists? p)).faultless d
  | .makeDirs p next, d =>
    (d.makeDirs p).1.isOk && (next (d.makeDirs p).1).faultless (d.makeDirs p).2
  | .write p c next, d =>
    (d.write p c).isOk && (next (settle d (d.write p c)).1).faultless (settle d (d.write p c)).2
  | .read p next, d => (d.readText p).isOk && (next (d.readText p)).faultless d
  | .rename s t next, d =>
    (d.rename s t).isOk && (next (settle d (d.rename s t)).1).faultless (settle d (d.rename s t)).2

/-! ## The first step -/

section
variable {d d' : Disk} {a : α}

theorem steps_done {a' : α} (h : Steps (.done a, d) (.done a', d')) : a' = a ∧ d' = d := by
  obtain heq | ⟨s, hs, -⟩ := h.cases_head
  · cases heq
    exact ⟨rfl, rfl⟩
  · cases hs

theorem steps_note {e : Event} {next : Script α}
    (h : Steps (.note e next, d) (.done a, d')) : Steps (next, d) (.done a, d') := by
  obtain heq | ⟨s, hs, h⟩ := h.cases_head
  · cases heq
  · cases hs
    exact h

theorem steps_probe {p : Path} {next : Except IoError Bool → Script α}
    (h : Steps (.probe p next, d) (.done a, d')) :
    ∃ b, d.exists? p = .ok b ∧ Steps (next (.ok b), d) (.done a, d') := by
  obtain heq | ⟨s, hs, h⟩ := h.cases_head
  · cases heq
  · cases hs with
    | probe hb => exact ⟨_, hb, h⟩

theorem steps_makeDirs {p : Path} {next : Except IoError Unit → Script α}
    (h : Steps (.makeDirs p next, d) (.done a, d')) :
    ∃ d₁, d.makeDirs p = (.ok (), d₁) ∧ Steps (next (.ok ()), d₁) (.done a, d') := by
  obtain heq | ⟨s, hs, h⟩ := h.cases_head
  · cases heq
  · cases hs with
    | makeDirs hd => exact ⟨_, hd, h⟩

theorem steps_write {p : Path} {c : Bytes} {next : Except IoError Unit → Script α}
    (h : Steps (.write p c next, d) (.done a, d')) :
    ∃ d₁, d.write p c = .ok d₁ ∧ Steps (next (.ok ()), d₁) (.done a, d') := by
  obtain heq | ⟨s, hs, h⟩ := h.cases_head
  · cases heq
  · cases hs with
    | write hd => exact ⟨_, hd, h⟩

theorem steps_read {p : Path} {next : Except IoError String → Script α}
    (h : Steps (.read p next, d) (.done a, d')) :
    ∃ s, d.readText p = .ok s ∧ Steps (next (.ok s), d) (.done a, d') := by
  obtain heq | ⟨s, hs, h⟩ := h.cases_head
  · cases heq
  · cases hs with
    | read ht => exact ⟨_, ht, h⟩

theorem steps_rename {s t : Path} {next : Except IoError Unit → Script α}
    (h : Steps (.rename s t next, d) (.done a, d')) :
    ∃ d₁, d.rename s t = .ok d₁ ∧ Steps (next (.ok ()), d₁) (.done a, d') := by
  obtain heq | ⟨s, hs, h⟩ := h.cases_head
  · cases heq
  · cases hs with
    | rename hd => exact ⟨_, hd, h⟩

end

/-! ## Runs -/

/-- **A script ends where its steps lead.** -/
theorem run_of_steps {w : Script α} {d d' : Disk} {a : α} (h : Steps (w, d) (.done a, d')) :
    (w.run d).value = a ∧ (w.run d).disk = d' := by
  induction w generalizing d with
  | done a' =>
    obtain ⟨rfl, rfl⟩ := steps_done h
    exact ⟨rfl, rfl⟩
  | note e next ih => exact ih (steps_note h)
  | probe p next ih =>
    obtain ⟨b, hb, h⟩ := steps_probe h
    rw [run, hb]
    exact ih _ h
  | makeDirs p next ih =>
    obtain ⟨d₁, hd, h⟩ := steps_makeDirs h
    rw [run, hd]
    exact ih _ h
  | write p c next ih =>
    obtain ⟨d₁, hd, h⟩ := steps_write h
    rw [run, hd]
    exact ih _ h
  | read p next ih =>
    obtain ⟨s, hs, h⟩ := steps_read h
    rw [run, hs]
    exact ih _ h
  | rename s t next ih =>
    obtain ⟨d₁, hd, h⟩ := steps_rename h
    rw [run, hd]
    exact ih _ h

theorem eq_ok_of_isOk {ε : Type} {x : Except ε α} (h : x.isOk) : ∃ a, x = .ok a := by
  cases x with
  | ok a => exact ⟨a, rfl⟩
  | error e => cases h

theorem steps_of_faultless {w : Script α} {d : Disk} (h : w.faultless d) :
    Steps (w, d) (.done (w.run d).value, (w.run d).disk) := by
  induction w generalizing d with
  | done a => exact .refl
  | note e next ih => exact .head (.note e next d) (ih h)
  | probe p next ih =>
    obtain ⟨hp, h⟩ := Bool.and_eq_true_iff.1 h
    obtain ⟨b, hb⟩ := eq_ok_of_isOk hp
    have hrest := ih _ h
    rw [run]
    rw [hb] at hrest ⊢
    exact .head (.probe hb) hrest
  | makeDirs p next ih =>
    obtain ⟨hp, h⟩ := Bool.and_eq_true_iff.1 h
    obtain ⟨_, hd⟩ := eq_ok_of_isOk hp
    have hrest := ih _ h
    rw [run]
    rw [hd] at hrest ⊢
    exact .head (.makeDirs (Prod.ext hd rfl)) hrest
  | write p c next ih =>
    obtain ⟨hp, h⟩ := Bool.and_eq_true_iff.1 h
    obtain ⟨d₁, hd⟩ := eq_ok_of_isOk hp
    have hrest := ih _ h
    rw [run]
    rw [hd] at hrest ⊢
    exact .head (.write hd) hrest
  | read p next ih =>
    obtain ⟨hp, h⟩ := Bool.and_eq_true_iff.1 h
    obtain ⟨text, htext⟩ := eq_ok_of_isOk hp
    have hrest := ih _ h
    rw [run]
    rw [htext] at hrest ⊢
    exact .head (.read htext) hrest
  | rename s t next ih =>
    obtain ⟨hp, h⟩ := Bool.and_eq_true_iff.1 h
    obtain ⟨d₁, hd⟩ := eq_ok_of_isOk hp
    have hrest := ih _ h
    rw [run]
    rw [hd] at hrest ⊢
    exact .head (.rename hd) hrest

theorem faultless_of_steps {w : Script α} {d d' : Disk} {a : α} (h : Steps (w, d) (.done a, d')) :
    w.faultless d := by
  induction w generalizing d with
  | done a' => rfl
  | note e next ih => exact ih (steps_note h)
  | probe p next ih =>
    obtain ⟨b, hb, h⟩ := steps_probe h
    rw [faultless, hb]
    exact ih _ h
  | makeDirs p next ih =>
    obtain ⟨d₁, hd, h⟩ := steps_makeDirs h
    rw [faultless, hd]
    exact ih _ h
  | write p c next ih =>
    obtain ⟨d₁, hd, h⟩ := steps_write h
    rw [faultless, hd]
    exact ih _ h
  | read p next ih =>
    obtain ⟨s, hs, h⟩ := steps_read h
    rw [faultless, hs]
    exact ih _ h
  | rename s t next ih =>
    obtain ⟨d₁, hd, h⟩ := steps_rename h
    rw [faultless, hd]
    exact ih _ h

/-- **Two scripts in a row.** -/
theorem steps_bind {w : Script α} {f : α → Script β} {d d' : Disk} {b : β}
    (h : Steps (w.bind f, d) (.done b, d')) :
    ∃ a d₁, Steps (w, d) (.done a, d₁) ∧ Steps (f a, d₁) (.done b, d') := by
  induction w generalizing d with
  | done a => exact ⟨a, d, .refl, h⟩
  | note e next ih =>
    obtain ⟨a, d₁, hw, hf⟩ := ih (steps_note h)
    exact ⟨a, d₁, .head (.note e next d) hw, hf⟩
  | probe p next ih =>
    obtain ⟨b, hb, h⟩ := steps_probe h
    obtain ⟨a, d₁, hw, hf⟩ := ih _ h
    exact ⟨a, d₁, .head (.probe hb) hw, hf⟩
  | makeDirs p next ih =>
    obtain ⟨d₀, hd, h⟩ := steps_makeDirs h
    obtain ⟨a, d₁, hw, hf⟩ := ih _ h
    exact ⟨a, d₁, .head (.makeDirs hd) hw, hf⟩
  | write p c next ih =>
    obtain ⟨d₀, hd, h⟩ := steps_write h
    obtain ⟨a, d₁, hw, hf⟩ := ih _ h
    exact ⟨a, d₁, .head (.write hd) hw, hf⟩
  | read p next ih =>
    obtain ⟨s, hs, h⟩ := steps_read h
    obtain ⟨a, d₁, hw, hf⟩ := ih _ h
    exact ⟨a, d₁, .head (.read hs) hw, hf⟩
  | rename s t next ih =>
    obtain ⟨d₀, hd, h⟩ := steps_rename h
    obtain ⟨a, d₁, hw, hf⟩ := ih _ h
    exact ⟨a, d₁, .head (.rename hd) hw, hf⟩

theorem steps_before {w w' : Script α} {d d' : Disk} (f : α → Script β)
    (h : Steps (w, d) (w', d')) : Steps (w.bind f, d) (w'.bind f, d') := by
  refine Relation.ReflTransGen.lift (fun x : Script α × Disk => (x.1.bind f, x.2)) ?_ _ _ h
  intro x y hxy
  cases hxy with
  | note e next d => exact .note e _ d
  | probe h => exact .probe h
  | makeDirs h => exact .makeDirs h
  | write h => exact .write h
  | read h => exact .read h
  | rename h => exact .rename h

theorem run_bind (w : Script α) (f : α → Script β) (d : Disk) :
    ((w.bind f).run d).value = ((f (w.run d).value).run (w.run d).disk).value ∧
      ((w.bind f).run d).disk = ((f (w.run d).value).run (w.run d).disk).disk := by
  induction w generalizing d with
  | done a => exact ⟨rfl, rfl⟩
  | note e next ih => exact ih d
  | probe p next ih => exact ih _ d
  | makeDirs p next ih => exact ih _ _
  | write p c next ih => exact ih _ _
  | read p next ih => exact ih _ d
  | rename s t next ih => exact ih _ _

end CustomsClaims.Script
