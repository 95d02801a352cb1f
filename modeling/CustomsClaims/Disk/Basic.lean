import CustomsClaims.Disk.Error
import CustomsClaims.Disk.Path
import CustomsClaims.Text.Utf8

/-!
# The file system

A disk holds files and directories at locations, the lists of names from the root down. Paths are
resolved as the operating system does it: every segment but the last must be a directory, and a
slash at the end asks for one. Operations change the disk only when they succeed, except that
`makeDirs` keeps the directories it made before it failed.
-/

namespace CustomsClaims

/-- The names that lead from the root to a file or directory. -/
abbrev Location := List String

/-- What stands at a location. -/
inductive Entry where
  | file (content : Bytes)
  | directory
deriving DecidableEq, Repr

/-- Files and directories, and the directory that relative paths start from. -/
structure Disk where
  entries : List (Location × Entry)
  workingDirectory : Location
deriving Repr

namespace Disk

/-! ## Locations -/

/-- What stands at the location, if anything; the root is always a directory. -/
def get? (d : Disk) (l : Location) : Option Entry :=
  if l = [] then some .directory
  else (d.entries.find? (·.1 = l)).map (·.2)

/-- The disk with the entry at the location. -/
def put (d : Disk) (l : Location) (e : Entry) : Disk :=
  { d with entries := (l, e) :: d.entries.filter (·.1 ≠ l) }

/-- The disk without the location and all below it. -/
def erase (d : Disk) (l : Location) : Disk :=
  { d with entries := d.entries.filter fun (l', _) => !l.isPrefixOf l' }

@[simp] theorem get?_nil (d : Disk) : d.get? [] = some .directory := rfl

theorem get?_put_same (d : Disk) {l : Location} (h : l ≠ []) (e : Entry) :
    (d.put l e).get? l = some e := by
  simp [get?, put, h]

theorem get?_put_ne (d : Disk) {l l' : Location} (h : l' ≠ l) (e : Entry) :
    (d.put l e).get? l' = d.get? l' := by
  have h' : ¬ l = l' := fun he => h he.symm
  unfold get? put
  by_cases hl : l' = []
  · simp [hl]
  · simp only [hl, if_false, List.find?_cons, h', decide_false, List.find?_filter]
    congr 2
    funext x
    by_cases hx : x.1 = l'
    · simp [hx, h]
    · simp [hx]

/-! ## Resolving paths -/

/-- The longest name of a file or directory, in bytes. -/
def maxName : Nat := 255

/-- The longest path, in bytes. -/
def maxPath : Nat := 4095

/-- Where a path leads: to a directory that it reaches without naming it last, or to a name in a
directory, which a slash may follow. -/
inductive Target where
  | reached (l : Location)
  | name (parent : Location) (name : String) (slash : Bool)
deriving DecidableEq, Repr

/-- What stands under the name in the directory. -/
def lookUp (d : Disk) (parent : Location) (name : String) : Except IoError (Option Entry) :=
  if maxName < name.utf8ByteSize then .error .nameTooLong else .ok (d.get? (parent ++ [name]))

/-- Goes down from the directory `l` along segments that must all be directories. -/
def walk (d : Disk) (l : Location) : List String → Except IoError Location
  | [] => .ok l
  | s :: ss =>
    if Path.isIdle s then d.walk l ss
    else if s = ".." then d.walk l.dropLast ss
    else do
      match ← d.lookUp l s with
      | some .directory => d.walk (l ++ [s]) ss
      | some (.file _) => throw .notADirectory
      | none => throw .notFound

/-- Where the path leads. -/
def resolve (d : Disk) (p : Path) : Except IoError Target := do
  if p.text.toList.contains '\x00' then throw .nulInPath
  if p.isEmpty then throw .notFound
  if maxPath < p.text.utf8ByteSize then throw .nameTooLong
  let start := if p.isAbsolute then [] else d.workingDirectory
  match p.segments.reverse.dropWhile (· = "") with
  | [] => pure (.reached [])
  | last :: before =>
    let l ← d.walk start before.reverse
    if last = "." then pure (.reached l)
    else if last = ".." then pure (.reached l.dropLast)
    else pure (.name l last (p.segments.getLast? = some ""))

/-- What the path leads to. -/
def find (d : Disk) (p : Path) : Except IoError Entry := do
  match ← d.resolve p with
  | .reached _ => pure .directory
  | .name parent name slash =>
    match ← d.lookUp parent name with
    | none => throw .notFound
    | some .directory => pure .directory
    | some (.file content) => if slash then throw .notADirectory else pure (.file content)

/-! ## Operations -/

/-- Does the path lead to something? -/
def exists? (d : Disk) (p : Path) : Except IoError Bool :=
  match d.find p with
  | .ok _ => .ok true
  | .error .notFound => .ok false
  | .error e => .error e

/-- Does the path lead to a directory? -/
def isDirectory (d : Disk) (p : Path) : Bool :=
  match d.find p with
  | .ok .directory => true
  | _ => false

/-- The bytes of the file. -/
def readBytes (d : Disk) (p : Path) : Except IoError Bytes := do
  match ← d.find p with
  | .file content => pure content
  | .directory => throw .isADirectory

/-- The text of the file. -/
def readText (d : Disk) (p : Path) : Except IoError String := do
  match Utf8.decode? (← d.readBytes p) with
  | some s => pure s
  | none => throw .notText

/-- The location of the file that a writer of the path creates or overwrites. -/
def writable (d : Disk) (p : Path) : Except IoError Location := do
  match ← d.resolve p with
  | .reached _ => throw .isADirectory
  | .name parent name slash =>
    if slash then throw .isADirectory
    match ← d.lookUp parent name with
    | some .directory => throw .isADirectory
    | _ => pure (parent ++ [name])

/-- Creates or overwrites the file. -/
def write (d : Disk) (p : Path) (content : Bytes) : Except IoError Disk := do
  return d.put (← d.writable p) (.file content)

/-- Writes at the end of the file, which is created if it is missing. -/
def append (d : Disk) (p : Path) (content : Bytes) : Except IoError Disk := do
  let l ← d.writable p
  let before := match d.get? l with
    | some (.file content) => content
    | _ => []
  return d.put l (.file (before ++ content))

/-- Creates one directory. -/
def makeDir (d : Disk) (p : Path) : Except IoError Disk := do
  match ← d.resolve p with
  | .reached _ => throw .alreadyExists
  | .name parent name _ =>
    match ← d.lookUp parent name with
    | some _ => throw .alreadyExists
    | none => pure (d.put (parent ++ [name]) .directory)

/-- Creates a directory unless it is there already. -/
def ensureDir (d : Disk) (p : Path) : Except IoError Disk :=
  match d.makeDir p with
  | .error .alreadyExists => if d.isDirectory p then .ok d else .error .alreadyExists
  | outcome => outcome

/-- Creates the first of the directories, each of which stands above the one before it: where its
parent is missing, that is created first. -/
def ensureChain (d : Disk) : List Path → Except IoError Unit × Disk
  | [] => (.ok (), d)
  | p :: above =>
    match d.ensureDir p with
    | .ok d => (.ok (), d)
    | .error .notFound =>
      match d.ensureChain above with
      | (.ok (), d) =>
        match d.ensureDir p with
        | .ok d => (.ok (), d)
        | .error e => (.error e, d)
      | failed => failed
    | .error e => (.error e, d)

/-- Creates the directory and the missing ones above it. -/
def makeDirs (d : Disk) (p : Path) : Except IoError Unit × Disk :=
  if p.isEmpty ∨ p.parent? = none then (.ok (), d)
  else d.ensureChain (p :: p.ancestors p.segments.length)

/-- Moves a file to another path, where it replaces a file. -/
def rename (d : Disk) (source target : Path) : Except IoError Disk := do
  match ← d.resolve source, ← d.resolve target with
  | .name parent name slash, .name parent' name' slash' =>
    match ← d.lookUp parent name with
    | none => throw .notFound
    | some .directory => throw .isADirectory
    | some (.file content) =>
      let replaced ← d.lookUp parent' name'
      if slash ∨ slash' then throw .notADirectory
      if replaced = some .directory then throw .isADirectory
      let l := parent ++ [name]
      let l' := parent' ++ [name']
      if l = l' then pure d
      else pure ({ d with entries := d.entries.filter (·.1 ≠ l) }.put l' (.file content))
  | _, _ => throw .busy

/-- Removes the file, or the directory with all in it. -/
def remove (d : Disk) (p : Path) : Except IoError Disk := do
  match ← d.find p, ← d.resolve p with
  | _, .name parent name _ => pure (d.erase (parent ++ [name]))
  | _, .reached _ => throw .busy

/-! ## Listing -/

/-- The files and directories below the directory, by their paths from there, in order; a slash
follows the path of a directory. -/
def below (d : Disk) (l : Location) : List (String × Entry) :=
  let named := d.entries.filterMap fun (l', e) =>
    match l'.drop l.length with
    | [] => none
    | rest =>
      if l.isPrefixOf l' then
        let path := String.intercalate "/" rest
        some (if e = .directory then path ++ "/" else path, e)
      else none
  named.mergeSort fun a b => !(b.1 < a.1)

end Disk
end CustomsClaims
