import CustomsClaims.Store.File
import CustomsClaims.Store.Memory

/-!
# What stores log

A script logs no other events than those it notes (`Script.Notes.run`), so a claim file tells only
of being created and of being written (`FileStore.mem_list_log`, `FileStore.mem_append_log`).
-/

namespace CustomsClaims

namespace Script

variable {α β : Type} {P : Event → Prop}

/-- Every event that the script may note has the property, whatever comes of its operations. -/
def Notes (P : Event → Prop) : Script α → Prop
  | .done _ => True
  | .note e next => P e ∧ next.Notes P
  | .probe _ next => ∀ x, (next x).Notes P
  | .makeDirs _ next => ∀ x, (next x).Notes P
  | .write _ _ next => ∀ x, (next x).Notes P
  | .read _ next => ∀ x, (next x).Notes P
  | .rename _ _ next => ∀ x, (next x).Notes P

theorem Notes.bind {x : Script α} {f : α → Script β} (hx : x.Notes P) (hf : ∀ a, (f a).Notes P) :
    (x.bind f).Notes P := by
  induction x with
  | done a => exact hf a
  | note e next ih => exact ⟨hx.1, ih hx.2⟩
  | probe p next ih => exact fun y => ih y (hx y)
  | makeDirs p next ih => exact fun y => ih y (hx y)
  | write p c next ih => exact fun y => ih y (hx y)
  | read p next ih => exact fun y => ih y (hx y)
  | rename s t next ih => exact fun y => ih y (hx y)

/-- **A run logs only what its script notes.** -/
theorem Notes.run {x : Script α} (hx : x.Notes P) (d : Disk) : ∀ e ∈ (x.run d).log, P e := by
  induction x generalizing d with
  | done a =>
    intro e he
    cases he
  | note e next ih =>
    intro e' he'
    rcases List.mem_cons.1 he' with rfl | he'
    · exact hx.1
    · exact ih hx.2 d e' he'
  | probe p next ih => exact ih _ (hx _) _
  | makeDirs p next ih => exact ih _ (hx _) _
  | write p c next ih => exact ih _ (hx _) _
  | read p next ih => exact ih _ (hx _) _
  | rename s t next ih => exact ih _ (hx _) _

end Script

namespace FileStore

section
variable {α β : Type} {P : Event → Prop}

theorem notes_bind {x : Work α} {f : α → Work β} (hx : x.run.Notes P)
    (hf : ∀ a, (f a).run.Notes P) : (x >>= f).run.Notes P := by
  apply Script.Notes.bind hx
  intro a
  cases a with
  | ok a => exact hf a
  | error e => trivial

theorem notes_ensureParent (s : FileStore) : s.ensureParent.run.Notes P := by
  unfold ensureParent
  split
  · trivial
  · split
    · trivial
    · intro x
      trivial

/-- An operation on the file system notes nothing. -/
theorem notes_settle {x : Except IoError α} {action : FileAction} {p : Path} :
    (settle action p x).Notes P := trivial

end

/-- The events of a claim file. -/
def IsOwnEvent (s : FileStore) (e : Event) : Prop :=
  e = s.initialized ∨ ∃ count, e = s.wrote count

section
variable {s : FileStore}

theorem notes_load_read : (do
    let text ← read .read s.path
    match ClaimList.parse (Utf8.encode text) with
    | .ok cs => pure cs
    | .error e => throw (.corrupt s.path e) : Work (List Claim)).run.Notes s.IsOwnEvent := by
  apply notes_bind
  · intro x
    exact notes_settle
  · intro text
    split
    · trivial
    · trivial

theorem notes_load : s.load.run.Notes s.IsOwnEvent := by
  unfold load
  apply notes_bind
  · intro x
    exact notes_settle
  · intro found
    cases found with
    | true => exact notes_load_read
    | false =>
      apply notes_bind (notes_ensureParent s)
      intro _
      apply notes_bind
      · intro x
        exact notes_settle
      · intro _
        exact notes_bind ⟨.inl rfl, trivial⟩ fun _ => notes_load_read

theorem notes_save (cs : List Claim) : (s.save cs).run.Notes s.IsOwnEvent := by
  unfold save
  apply notes_bind (notes_ensureParent s)
  intro _
  apply notes_bind
  · intro x
    exact notes_settle
  · intro _
    apply notes_bind
    · intro x
      exact notes_settle
    · intro _
      exact ⟨.inr ⟨cs.length, rfl⟩, trivial⟩

/-- **A claim file tells of nothing but itself** when its claims are listed. -/
theorem mem_list_log {d : Disk} {e : Event} (he : e ∈ (s.store.list d).log) : s.IsOwnEvent e :=
  notes_load.run d e he

/-- **A claim file tells of nothing but itself** when a claim is appended. -/
theorem mem_append_log {c : Claim} {d : Disk} {e : Event} (he : e ∈ (s.store.append c d).log) :
    s.IsOwnEvent e := by
  have hnotes : (s.append c).run.Notes s.IsOwnEvent :=
    notes_bind notes_load fun cs => notes_save (cs ++ [c])
  exact hnotes.run d e he

end
end FileStore
end CustomsClaims
