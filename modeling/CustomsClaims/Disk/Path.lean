import CustomsClaims.Text.Blank

/-!
# Paths

A path is a text whose segments stand between slashes. It keeps the text it was written as, because
messages show it; `Path.parent?` and `Path.sibling` work on the text. Empty segments and points in
the middle of a path lead nowhere.
-/

namespace CustomsClaims

/-- A path, as its segments between slashes. -/
structure Path where
  segments : List String
deriving DecidableEq, Repr, Inhabited

namespace Path

/-- The path that the text spells. -/
def ofText (s : String) : Path :=
  ⟨(splitAtChar '/' s.toList).map String.ofList⟩

def text (p : Path) : String :=
  String.intercalate "/" p.segments

/-- The path inside the directory `p`. -/
def join (p q : Path) : Path :=
  ⟨p.segments ++ q.segments⟩

/-- Does the path start at the root? -/
def isAbsolute (p : Path) : Bool :=
  match p.segments with
  | "" :: _ :: _ => true
  | _ => false

/-- Does the segment lead nowhere? -/
def isIdle (s : String) : Bool := s = "" || s = "."

/-- The path with `ending` written after its last segment. -/
def sibling (p : Path) (ending : String) : Path :=
  match p.segments.reverse with
  | [] => ⟨[ending]⟩
  | s :: ss => ⟨ss.reverse ++ [s ++ ending]⟩

/-- Drops the segments at the end that lead nowhere, except for one at the start of the path. -/
def dropIdle : (reversed : List String) → List String
  | [] => []
  | [s] => [s]
  | s :: ss => if isIdle s then dropIdle ss else s :: ss

/-- The path without its last segment; `none` for the root and the empty path. The parent of a
single segment is the empty path. -/
def parent? (p : Path) : Option Path :=
  match dropIdle p.segments.reverse with
  | [] | [""] => none
  | [_] => some ⟨[""]⟩
  | _ :: ss =>
    let kept := dropIdle ss
    some ⟨if kept = [""] then ["", ""] else kept.reverse⟩

/-- Is it the empty path? -/
def isEmpty (p : Path) : Bool := p.segments = [] || p.segments = [""]

/-- The paths above the path, the nearest first, up to the root or the empty path, which are left
out. `depth` bounds their number. -/
def ancestors (p : Path) : (depth : Nat) → List Path
  | 0 => []
  | depth + 1 =>
    match p.parent? with
    | none => []
    | some q => if q.isEmpty || q.parent?.isNone then [] else q :: q.ancestors depth

end Path
end CustomsClaims
