import CustomsClaims.Claim.Json
import CustomsClaims.Store.Basic
import CustomsClaims.Store.Script

/-!
# Claim files

A claim file holds all claims as one indented JSON list. A missing file is created with an empty
list when it is first read (`FileStore.load`). An append reads the list, writes the longer one
to a second file beside the first, and moves that over the first (`FileStore.save`), so that
the claim file holds a complete list at any time.
-/

namespace CustomsClaims

/-- A store that keeps its claims in the file at `path`. -/
structure FileStore where
  path : Path
deriving DecidableEq, Repr

namespace FileStore

/-- Work on a claim file. -/
abbrev Work (α : Type) := ExceptT FileError Script α

/-- Continues with the outcome of an operation, or reports its failure. -/
def settle {α : Type} (action : FileAction) (path : Path) (x : Except IoError α) :
    Script (Except FileError α) :=
  .done (x.mapError (.io action path))

def probe (action : FileAction) (p : Path) : Work Bool :=
  ExceptT.mk (.probe p (settle action p))

def makeDirs (action : FileAction) (p : Path) : Work Unit :=
  ExceptT.mk (.makeDirs p (settle action p))

def write (action : FileAction) (p : Path) (content : Bytes) : Work Unit :=
  ExceptT.mk (.write p content (settle action p))

def read (action : FileAction) (p : Path) : Work String :=
  ExceptT.mk (.read p (settle action p))

/-- A failure is reported for the target. -/
def rename (action : FileAction) (source target : Path) : Work Unit :=
  ExceptT.mk (.rename source target (settle action target))

def note (e : Event) : Work Unit :=
  ExceptT.mk (.note e (.done (.ok ())))

/-! ## Events -/

def initialized (s : FileStore) : Event :=
  ⟨.info, "Initialized empty claim file", [("path", s.path.text)]⟩

def wrote (s : FileStore) (count : Nat) : Event :=
  ⟨.debug, "Wrote claim file", [("path", s.path.text), ("count", decimalText count)]⟩

/-! ## Reading and writing -/

/-- The content of a claim file. -/
def content (cs : List Claim) : Bytes :=
  (ClaimList.tree cs).indented 0

/-- The second file, which replaces the claim file when it is complete. -/
def temporary (s : FileStore) : Path :=
  s.path.sibling ".tmp"

/-- Creates the directory of the claim file. -/
def ensureParent (s : FileStore) : Work Unit :=
  match s.path.parent? with
  | none => pure ()
  | some p => if p.isEmpty then pure () else makeDirs .createDirectory p

/-- Reads all claims; creates a missing file. -/
def load (s : FileStore) : Work (List Claim) := do
  unless ← probe .inspect s.path do
    s.ensureParent
    write .create s.path (content [])
    note s.initialized
  let text ← read .read s.path
  match ClaimList.parse (Utf8.encode text) with
  | .ok cs => pure cs
  | .error e => throw (.corrupt s.path e)

/-- Replaces all claims. -/
def save (s : FileStore) (cs : List Claim) : Work Unit := do
  s.ensureParent
  write .write s.temporary (content cs)
  rename .replace s.temporary s.path
  note (s.wrote cs.length)

/-- Appends a claim. -/
def append (s : FileStore) (c : Claim) : Work Unit := do
  let cs ← s.load
  s.save (cs ++ [c])

/-! ## Claim files as stores -/

/-- Carries out work on a claim file as an operation of a store. -/
def reply {α : Type} (w : Work α) (d : Disk) : Reply Disk α :=
  let o := w.run.run d
  { answer := match o.value with
      | .ok a => .ok a
      | .error e => .failed e.toStoreError
    log := o.log
    state := o.disk }

/-- A claim file as a store on a disk. -/
def store (s : FileStore) : ClaimStore Disk where
  list := reply s.load
  append c := reply (s.append c)

end FileStore
end CustomsClaims
