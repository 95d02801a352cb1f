import CustomsClaims.Disk.Basic
import CustomsClaims.Log.Event

/-!
# Scripts

What a store does with the file system, written down as the operations it asks for, one after the
other, each with what follows on its outcome. `Script.run` carries a script out on a disk where
nothing goes wrong but what the disk itself refuses; the same script can be cut off or interleaved
with others at any operation.
-/

namespace CustomsClaims

/-- Operations on the file system that end with a value. -/
inductive Script (α : Type) where
  | done (a : α)
  /-- Logs an event. -/
  | note (e : Event) (next : Script α)
  /-- Asks whether the path leads to something. -/
  | probe (p : Path) (next : Except IoError Bool → Script α)
  /-- Creates the directory and those above it. -/
  | makeDirs (p : Path) (next : Except IoError Unit → Script α)
  /-- Creates or overwrites the file. -/
  | write (p : Path) (content : Bytes) (next : Except IoError Unit → Script α)
  /-- Reads the file as text. -/
  | read (p : Path) (next : Except IoError String → Script α)
  /-- Moves the file over the target. -/
  | rename (source target : Path) (next : Except IoError Unit → Script α)

namespace Script

variable {α β : Type}

/-- The script, and then what follows on its value. -/
def bind : Script α → (α → Script β) → Script β
  | .done a, f => f a
  | .note e next, f => .note e (next.bind f)
  | .probe p next, f => .probe p fun x => (next x).bind f
  | .makeDirs p next, f => .makeDirs p fun x => (next x).bind f
  | .write p c next, f => .write p c fun x => (next x).bind f
  | .read p next, f => .read p fun x => (next x).bind f
  | .rename s t next, f => .rename s t fun x => (next x).bind f

instance : Monad Script where
  pure := .done
  bind := bind

/-- The outcome of a run. -/
structure Outcome (α : Type) where
  value : α
  log : List Event
  disk : Disk

/-- The outcome with an earlier event. -/
def Outcome.after (o : Outcome α) (e : Event) : Outcome α :=
  { o with log := e :: o.log }

/-- The outcome of an operation that changes the disk if it succeeds. -/
def settle (d : Disk) (x : Except IoError Disk) : Except IoError Unit × Disk :=
  match x with
  | .ok d => (.ok (), d)
  | .error e => (.error e, d)

/-- Carries the script out. -/
def run : Script α → Disk → Outcome α
  | .done a, d => ⟨a, [], d⟩
  | .note e next, d => (next.run d).after e
  | .probe p next, d => (next (d.exists? p)).run d
  | .makeDirs p next, d => (next (d.makeDirs p).1).run (d.makeDirs p).2
  | .write p c next, d => (next (settle d (d.write p c)).1).run (settle d (d.write p c)).2
  | .read p next, d => (next (d.readText p)).run d
  | .rename s t next, d => (next (settle d (d.rename s t)).1).run (settle d (d.rename s t)).2

end Script
end CustomsClaims
