import CustomsClaims.Calendar.Json
import CustomsClaims.Search.Query
import CustomsClaims.Text.Form

/-!
# Search parameters

The parameters of a search, as a query string gives them (`SearchParams.parse`), and the query that
they ask for on a given day (`SearchParams.query`).
-/

namespace CustomsClaims

/-- The parameters of a search; all may be missing. -/
structure SearchParams where
  hts : Option String
  range : Option RelativeRange
  earliest : Option Date
  latest : Option Date
  importerName : Option String
deriving DecidableEq

namespace SearchParams

/-- No parameters. -/
def none : SearchParams := ⟨.none, .none, .none, .none, .none⟩

/-- The value of a parameter that may be given once. -/
def once {α : Type} (name : String) (old : Option α) (new : Except Json.Cause α) :
    Except Json.Cause (Option α) :=
  if old.isSome then .error (.duplicateField name) else new.map some

/-- The parameters with one more pair; other names are ignored. -/
def add (p : SearchParams) (name value : String) : Except Json.Cause SearchParams :=
  let date := (Date.ofText? value).mapError .badDate
  match name with
  | "hts" => do return { p with hts := ← once name p.hts (.ok value) }
  | "range" => do return { p with range := ← once name p.range (RelativeRange.ofKey value) }
  | "from" => do return { p with earliest := ← once name p.earliest date }
  | "to" => do return { p with latest := ← once name p.latest date }
  | "importerName" => do return { p with importerName := ← once name p.importerName (.ok value) }
  | _ => .ok p

/-- The parameters that a query string gives. -/
def parse (query : Bytes) : Except Json.Cause SearchParams :=
  (Form.parse query).foldlM (fun p (name, value) => p.add name value) none

/-- The query that the parameters ask for on the day `today`. -/
def query (p : SearchParams) (today : Date) : Except QueryError Query := do
  let q ← match p.hts with
    | some text => Query.empty.addPatterns text
    | .none => pure Query.empty
  let q := match p.range with
    | some r => q.addRelative r today
    | .none => q
  let q ← q.addBounds p.earliest p.latest
  return match p.importerName with
    | some name => q.setImporter name
    | .none => q

end SearchParams
end CustomsClaims
