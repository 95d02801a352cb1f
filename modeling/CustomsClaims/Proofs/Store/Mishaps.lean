import CustomsClaims.Proofs.Disk.Directories
import CustomsClaims.Store.File

/-!
# Scripts that go wrong

Any operation of a script may fail, and the process may die before, during or after it. Either leaves
the operation done in part: some of the directories made, the file cut off somewhere. Only a file is
moved as a whole or not at all. `Script.runUnder` carries a script out under a list of mishaps, one for
each operation on the file system; without any it is `Script.run` (`Script.runUnder_nil`).

What two runs of some work have in common is proved operation by operation: `FileStore.probe_both` and
its like go on with the rest of the work on both disks, or stop on both.
-/

namespace CustomsClaims

namespace Disk

/-! ## Operations done in part

`short` is how much of an operation is left undone. -/

/-- The disk without the last `short` of the directories that `Disk.ensureChain` makes. -/
def ensureOuter (d : Disk) : (short : Nat) → List Path → Disk
  | 0, ps => (d.ensureChain ps).2
  | _ + 1, [] => d
  | short + 1, p :: above =>
    match d.ensureDir p with
    | .error .notFound => d.ensureOuter short above
    | _ => d

def makeDirsPartly (d : Disk) (p : Path) (short : Nat) : Disk :=
  if p.isEmpty ∨ p.parent? = none then d
  else d.ensureOuter short (p :: p.ancestors p.segments.length)

/-- The disk when the last `short` bytes have not been written; if these are more bytes than there are,
the file was not even opened. -/
def writePartly (d : Disk) (p : Path) (content : Bytes) (short : Nat) : Disk :=
  match d.writable p with
  | .ok l =>
    if content.length < short then d
    else d.put l (.file (content.take (content.length - short)))
  | .error _ => d

theorem makeDirsPartly_of_find {d : Disk} {p : Path} {short : Nat} (h : d.find p = .ok .directory) :
    d.makeDirsPartly p short = d := by
  unfold makeDirsPartly
  split
  · rfl
  · cases short with
    | zero => rw [ensureOuter, ensureChain, ensureDir_of_find h]
    | succ short => rw [ensureOuter, ensureDir_of_find h]

def renamePartly (d : Disk) (source target : Path) (short : Nat) : Disk :=
  if short = 0 then (Script.settle d (d.rename source target)).2 else d

end Disk

/-! ## Mishaps -/

/-- What goes wrong with an operation. -/
inductive Mishap where
  /-- It reports a failure. -/
  | fails (e : IoError) (short : Nat)
  /-- The process dies. -/
  | dies (short : Nat)
deriving DecidableEq, Repr

/-- How a script ends: with a value unless the process died. -/
structure Ending (α : Type) where
  value : Option α
  disk : Disk

namespace Ending

variable {α β : Type}

def map (f : α → β) (o : Ending α) : Ending β := ⟨o.value.map f, o.disk⟩

/-- Goes on with the value, if the process still runs. -/
def andThen (o : Ending α) (f : α → Disk → Ending β) : Ending β :=
  match o.value with
  | some a => f a o.disk
  | none => ⟨none, o.disk⟩

theorem andThen_congr {o : Ending α} {f g : α → Disk → Ending β} (h : ∀ a d, f a d = g a d) :
    o.andThen f = o.andThen g :=
  congrArg o.andThen (funext fun a => funext (h a))

theorem map_andThen {γ : Type} {o : Ending α} {f : α → Disk → Ending β} {g : β → γ} :
    (o.andThen fun a d => (f a d).map g) = (o.andThen f).map g := by
  obtain ⟨value, d⟩ := o
  cases value with
  | none => rfl
  | some a => rfl

end Ending

/-- An operation that comes to `works`, or leaves one of the other disks if it meets with a mishap. -/
def Mishap.meet {α : Type} (m : Option Mishap) (works : Except IoError α × Disk)
    (failed died : Nat → Disk) : Ending (Except IoError α) :=
  match m with
  | none => ⟨some works.1, works.2⟩
  | some (.fails e short) => ⟨some (.error e), failed short⟩
  | some (.dies short) => ⟨none, died short⟩

namespace Script

variable {α : Type}

/-- Carries the script out under the mishaps: each is met by one operation on the file system. -/
def runUnder : Script α → List (Option Mishap) → Disk → Ending α
  | .done a, _, d => ⟨some a, d⟩
  | .note _ next, ms, d => next.runUnder ms d
  | .probe p next, ms, d =>
    (Mishap.meet ms.head?.join (d.exists? p, d) (fun _ => d) (fun _ => d)).andThen
      fun x d => (next x).runUnder ms.tail d
  | .makeDirs p next, ms, d =>
    (Mishap.meet ms.head?.join (d.makeDirs p) (d.makeDirsPartly p) (d.makeDirsPartly p)).andThen
      fun x d => (next x).runUnder ms.tail d
  | .write p c next, ms, d =>
    (Mishap.meet ms.head?.join (settle d (d.write p c)) (d.writePartly p c)
      (d.writePartly p c)).andThen
      fun x d => (next x).runUnder ms.tail d
  | .read p next, ms, d =>
    (Mishap.meet ms.head?.join (d.readText p, d) (fun _ => d) (fun _ => d)).andThen
      fun x d => (next x).runUnder ms.tail d
  | .rename s t next, ms, d =>
    (Mishap.meet ms.head?.join (settle d (d.rename s t)) (fun _ => d) (d.renamePartly s t)).andThen
      fun x d => (next x).runUnder ms.tail d

/-- Without mishaps a script runs as it does on the disk alone. -/
theorem runUnder_nil (w : Script α) (d : Disk) :
    w.runUnder [] d = ⟨some (w.run d).value, (w.run d).disk⟩ := by
  induction w generalizing d with
  | done a => rfl
  | note e next ih => exact ih d
  | probe p next ih => exact ih _ d
  | makeDirs p next ih => exact ih _ _
  | write p c next ih => exact ih _ _
  | read p next ih => exact ih _ d
  | rename s t next ih => exact ih _ _

/-- What only computes with the value of a script does not meet with mishaps. -/
theorem runUnder_bind_done {β : Type} (w : Script α) (f : α → β) (ms : List (Option Mishap))
    (d : Disk) : (w.bind fun a => .done (f a)).runUnder ms d = (w.runUnder ms d).map f := by
  induction w generalizing ms d with
  | done a => rfl
  | note e next ih => exact ih ms d
  | probe p next ih => exact (Ending.andThen_congr fun x d => ih x ms.tail d).trans Ending.map_andThen
  | makeDirs p next ih =>
    exact (Ending.andThen_congr fun x d => ih x ms.tail d).trans Ending.map_andThen
  | write p c next ih =>
    exact (Ending.andThen_congr fun x d => ih x ms.tail d).trans Ending.map_andThen
  | read p next ih => exact (Ending.andThen_congr fun x d => ih x ms.tail d).trans Ending.map_andThen
  | rename s t next ih =>
    exact (Ending.andThen_congr fun x d => ih x ms.tail d).trans Ending.map_andThen

theorem bind_assoc' {β γ : Type} (w : Script α) (f : α → Script β) (g : β → Script γ) :
    (w.bind f).bind g = w.bind fun a => (f a).bind g := by
  induction w with
  | done a => rfl
  | note e next ih => exact congrArg _ ih
  | probe p next ih => exact congrArg _ (funext ih)
  | makeDirs p next ih => exact congrArg _ (funext ih)
  | write p c next ih => exact congrArg _ (funext ih)
  | read p next ih => exact congrArg _ (funext ih)
  | rename s t next ih => exact congrArg _ (funext ih)

theorem bind_done (w : Script α) : w.bind .done = w := by
  induction w with
  | done a => rfl
  | note e next ih => exact congrArg _ ih
  | probe p next ih => exact congrArg _ (funext ih)
  | makeDirs p next ih => exact congrArg _ (funext ih)
  | write p c next ih => exact congrArg _ (funext ih)
  | read p next ih => exact congrArg _ (funext ih)
  | rename s t next ih => exact congrArg _ (funext ih)

instance : LawfulMonad Script :=
  LawfulMonad.mk' Script bind_done (fun _ _ => rfl) bind_assoc'

end Script

/-! ## Two runs side by side -/

namespace FileStore

/-- The work has not succeeded. -/
def Stopped {β : Type} (v : Option (Except FileError β)) : Prop := ∀ b, v ≠ some (.ok b)

section
variable {α β : Type} {d d' : Disk} {ms : List (Option Mishap)}
  {Q : Ending (Except FileError β) → Ending (Except FileError β) → Prop}

theorem stopped_none : Stopped (none : Option (Except FileError β)) := by
  intro b h
  cases h

theorem stopped_error (e : FileError) : Stopped (some (.error e) : Option (Except FileError β)) := by
  intro b h
  cases h

/-- Two runs of an operation meet with the same mishap. -/
theorem meet_both {m : Option Mishap} {works works' : Except IoError α × Disk}
    {failed failed' died died' : Nat → Disk}
    {f : Except IoError α → Disk → Ending (Except FileError β)}
    (hworks : Q (f works.1 works.2) (f works'.1 works'.2))
    (hfails : ∀ e short, Q (f (.error e) (failed short)) (f (.error e) (failed' short)))
    (hdies : ∀ short, Q ⟨none, died short⟩ ⟨none, died' short⟩) :
    Q ((Mishap.meet m works failed died).andThen f) ((Mishap.meet m works' failed' died').andThen f) := by
  cases m with
  | none => exact hworks
  | some m =>
    cases m with
    | fails e short => exact hfails e short
    | dies short => exact hdies short

theorem probe_both {action : FileAction} {p : Path} {f : Bool → Work β} {b : Bool}
    (h : d.exists? p = .ok b) (h' : d'.exists? p = .ok b)
    (hgo : ∀ ms, Q ((f b).run.runUnder ms d) ((f b).run.runUnder ms d'))
    (hstop : ∀ v, Stopped v → Q ⟨v, d⟩ ⟨v, d'⟩) :
    Q ((probe action p >>= f).run.runUnder ms d) ((probe action p >>= f).run.runUnder ms d') := by
  refine meet_both ?_ (fun e short => ?_) (fun short => hstop none stopped_none)
  · rw [h, h']
    exact hgo ms.tail
  · exact hstop _ (stopped_error _)

theorem runUnder_probe {action : FileAction} {p : Path} {f : Bool → Work β} {b : Bool}
    (h : d.exists? p = .ok b) :
    (probe action p >>= f).run.runUnder (none :: ms) d = (f b).run.runUnder ms d := by
  show ((settle action p (d.exists? p)).bind (ExceptT.bindCont f)).runUnder ms d = _
  rw [h]
  rfl

theorem runUnder_read {action : FileAction} {p : Path} {f : String → Work β} {text : String}
    (h : d.readText p = .ok text) :
    (read action p >>= f).run.runUnder (none :: ms) d = (f text).run.runUnder ms d := by
  show ((settle action p (d.readText p)).bind (ExceptT.bindCont f)).runUnder ms d = _
  rw [h]
  rfl

theorem read_both {action : FileAction} {p : Path} {f : String → Work β}
    {x : Except IoError String} (h : d.readText p = x) (h' : d'.readText p = x)
    (hgo : ∀ text, x = .ok text → ∀ ms, Q ((f text).run.runUnder ms d) ((f text).run.runUnder ms d'))
    (hstop : ∀ v, Stopped v → Q ⟨v, d⟩ ⟨v, d'⟩) :
    Q ((read action p >>= f).run.runUnder ms d) ((read action p >>= f).run.runUnder ms d') := by
  refine meet_both ?_ (fun e short => ?_) (fun short => hstop none stopped_none)
  · rw [h, h']
    cases x with
    | ok text => exact hgo text rfl ms.tail
    | error e => exact hstop _ (stopped_error _)
  · exact hstop _ (stopped_error _)

theorem makeDirs_both {action : FileAction} {p : Path} {f : Unit → Work β}
    (h : d.find p = .ok .directory) (h' : d'.find p = .ok .directory)
    (hgo : ∀ ms, Q ((f ()).run.runUnder ms d) ((f ()).run.runUnder ms d'))
    (hstop : ∀ v, Stopped v → Q ⟨v, d⟩ ⟨v, d'⟩) :
    Q ((makeDirs action p >>= f).run.runUnder ms d)
      ((makeDirs action p >>= f).run.runUnder ms d') := by
  refine meet_both ?_ (fun e short => ?_) (fun short => ?_)
  · rw [Disk.makeDirs_of_find h, Disk.makeDirs_of_find h']
    exact hgo ms.tail
  · rw [Disk.makeDirsPartly_of_find h, Disk.makeDirsPartly_of_find h']
    exact hstop _ (stopped_error _)
  · rw [Disk.makeDirsPartly_of_find h, Disk.makeDirsPartly_of_find h']
    exact hstop none stopped_none

/-- A write that is cut off leaves the first bytes, or does not open the file. -/
theorem write_both {action : FileAction} {p : Path} {c : Bytes} {f : Unit → Work β}
    {l l' : Location} (h : d.writable p = .ok l) (h' : d'.writable p = .ok l')
    (hgo : ∀ ms, Q ((f ()).run.runUnder ms (d.put l (.file c)))
      ((f ()).run.runUnder ms (d'.put l' (.file c))))
    (hcut : ∀ v, Stopped v → ∀ n,
      Q ⟨v, d.put l (.file (c.take n))⟩ ⟨v, d'.put l' (.file (c.take n))⟩)
    (hstop : ∀ v, Stopped v → Q ⟨v, d⟩ ⟨v, d'⟩) :
    Q ((write action p c >>= f).run.runUnder ms d)
      ((write action p c >>= f).run.runUnder ms d') := by
  have hpartly : ∀ v, Stopped v → ∀ short,
      Q ⟨v, d.writePartly p c short⟩ ⟨v, d'.writePartly p c short⟩ := by
    intro v hv short
    unfold Disk.writePartly
    rw [h, h']
    by_cases hshort : c.length < short
    · simp only [hshort, if_true]
      exact hstop v hv
    · simp only [hshort, if_false]
      exact hcut v hv _
  refine meet_both ?_ (fun e short => ?_) (fun short => hpartly none stopped_none short)
  · rw [Disk.write, Disk.write, h, h']
    exact hgo ms.tail
  · exact hpartly _ (stopped_error _) short

theorem write_refused {action : FileAction} {p : Path} {c : Bytes} {f : Unit → Work β}
    {e : IoError} (h : d.writable p = .error e) (h' : d'.writable p = .error e)
    (hstop : ∀ v, Stopped v → Q ⟨v, d⟩ ⟨v, d'⟩) :
    Q ((write action p c >>= f).run.runUnder ms d)
      ((write action p c >>= f).run.runUnder ms d') := by
  refine meet_both ?_ (fun e short => ?_) (fun short => ?_)
  · rw [Disk.write, Disk.write, h, h']
    exact hstop _ (stopped_error _)
  · rw [Disk.writePartly, Disk.writePartly, h, h']
    exact hstop _ (stopped_error _)
  · rw [Disk.writePartly, Disk.writePartly, h, h']
    exact hstop none stopped_none

/-- A file is moved as a whole or not at all. -/
theorem rename_both {action : FileAction} {source target : Path} {f : Unit → Work β} {e e' : Disk}
    (h : d.rename source target = .ok e) (h' : d'.rename source target = .ok e')
    (hgo : ∀ ms, Q ((f ()).run.runUnder ms e) ((f ()).run.runUnder ms e'))
    (hmoved : Q ⟨none, e⟩ ⟨none, e'⟩) (hstop : ∀ v, Stopped v → Q ⟨v, d⟩ ⟨v, d'⟩) :
    Q ((rename action source target >>= f).run.runUnder ms d)
      ((rename action source target >>= f).run.runUnder ms d') := by
  refine meet_both ?_ (fun e short => hstop _ (stopped_error _)) (fun short => ?_)
  · rw [h, h']
    exact hgo ms.tail
  · unfold Disk.renamePartly
    rw [h, h']
    by_cases hshort : short = 0
    · rw [if_pos hshort, if_pos hshort]
      exact hmoved
    · rw [if_neg hshort, if_neg hshort]
      exact hstop none stopped_none

/-- The directory of a file that is there need not be created. -/
theorem ensureParent_both {s : FileStore} {f : Unit → Work β} {parent parent' : Location}
    {name name' : String} (h : d.resolve s.path = .ok (.name parent name false))
    (h' : d'.resolve s.path = .ok (.name parent' name' false))
    (hgo : ∀ ms, Q ((f ()).run.runUnder ms d) ((f ()).run.runUnder ms d'))
    (hstop : ∀ v, Stopped v → Q ⟨v, d⟩ ⟨v, d'⟩) :
    Q ((s.ensureParent >>= f).run.runUnder ms d) ((s.ensureParent >>= f).run.runUnder ms d') := by
  unfold ensureParent
  cases hparent : s.path.parent? with
  | none => exact hgo ms
  | some p =>
    by_cases hempty : p.isEmpty
    · simp only [hempty, if_true]
      exact hgo ms
    · simp only [hempty]
      exact makeDirs_both (Disk.find_parent h hparent hempty) (Disk.find_parent h' hparent hempty)
        hgo hstop

end
end FileStore
end CustomsClaims
