import CustomsClaims.Calendar.Range
import CustomsClaims.Claim.Basic
import CustomsClaims.Tariff.Matching

/-!
# Searching claims

A query restricts claims by tariff code, import date and importer. A claim passes if one of the
patterns accepts its code, one of the ranges contains its date, and its importer has the name asked
for; a query without patterns, ranges or a name does not restrict by them. Queries are built step by
step (`Query.addPatterns` and its neighbours); `Query.apply` keeps the claims that pass, in order.
-/

namespace CustomsClaims

/-- Why a query cannot be built. -/
inductive QueryError where
  | pattern (e : Tariff.InvalidPattern)
  | range (e : InvalidRange)
deriving DecidableEq

def QueryError.message : QueryError → String
  | .pattern e => e.message
  | .range e => e.message

/-- A restriction of claims. -/
structure Query where
  patterns : List Tariff.Pattern
  ranges : List DateRange
  importerName : Option String
deriving DecidableEq

namespace Query

/-- The query that every claim passes. -/
def empty : Query := ⟨[], [], none⟩

/-! ## Building -/

/-- Also lets codes pass that one of the patterns between commas accepts. -/
def addPatterns (q : Query) (text : String) : Except QueryError Query := do
  let ps ← (Tariff.Pattern.parseAll text).mapError .pattern
  return { q with patterns := q.patterns ++ ps }

/-- Also lets dates pass that the relative range contains. -/
def addRelative (q : Query) (r : RelativeRange) (today : Date) : Query :=
  { q with ranges := q.ranges ++ [r.resolve today] }

/-- Also lets dates pass that lie between the bounds; adds nothing without any bound. -/
def addBounds (q : Query) (earliest latest : Option Date) : Except QueryError Query := do
  match ← (DateRange.ofBounds? earliest latest).mapError .range with
  | some r => return { q with ranges := q.ranges ++ [r] }
  | none => return q

/-- Asks for that importer. -/
def setImporter (q : Query) (name : String) : Query :=
  { q with importerName := some name }

/-- A step of building a query. -/
inductive Step where
  | patterns (text : String)
  | relative (r : RelativeRange) (today : Date)
  | bounds (earliest latest : Option Date)
  | importer (name : String)
deriving DecidableEq

/-- The query after one more step. -/
def step (q : Query) : Step → Except QueryError Query
  | .patterns text => q.addPatterns text
  | .relative r today => .ok (q.addRelative r today)
  | .bounds earliest latest => q.addBounds earliest latest
  | .importer name => .ok (q.setImporter name)

/-- The query after all steps; on failure, how many steps came before the failing one. -/
def build (q : Query) (done : Nat) : List Step → Except (Nat × QueryError) Query
  | [] => .ok q
  | s :: ss =>
    match q.step s with
    | .ok q => q.build (done + 1) ss
    | .error e => .error (done, e)

/-! ## Applying -/

def isEmpty (q : Query) : Bool :=
  q.patterns.isEmpty && q.ranges.isEmpty && q.importerName.isNone

/-- Does the claim pass? -/
def accepts (q : Query) (c : Claim) : Bool :=
  (q.patterns.isEmpty || q.patterns.any (·.accepts c.htsCode)) &&
    (q.ranges.isEmpty || q.ranges.any (·.contains c.importDate)) &&
    q.importerName.all (· = c.importerName)

/-- The claims that pass, in their order. -/
def apply (q : Query) (cs : List Claim) : List Claim :=
  if q.isEmpty then cs else cs.filter q.accepts

end Query
end CustomsClaims
