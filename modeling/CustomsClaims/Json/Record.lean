import CustomsClaims.Json.Item

/-!
# Records in JSON

A record is read from an object by the names of its fields, in any order and among members that it
does not know, or from a list with exactly its fields in their order. Every field must occur once.

A record as a whole is refused only after its closing bracket: an objection to it (`Halt.refused`)
is placed where the reading stands once the bracket was looked for.
-/

namespace CustomsClaims.Json

/-- The fields of a record: what each is called and how its value is read. -/
structure Schema (F : Type) (V : F → Type) where
  /-- What messages call the record. -/
  name : String
  fields : List F
  label : F → String
  read : (f : F) → Reader (V f)

/-- Why the reading of a record's content stopped: at a fault, or for an objection to the record. -/
inductive Halt where
  | fault (f : Fault)
  | refused (cause : Cause) (rest : Bytes)

/-- Lets a fault stop the reading of a record's content. -/
def halting {α : Type} (x : Except Fault α) : Except Halt α :=
  x.mapError .fault

/-- Closes a record's bracket after its content. -/
def closing {α : Type} (close : Bytes → Bytes × Option Cause)
    (content : Except Halt (α × Bytes)) : Except Fault (α × Bytes) :=
  match content with
  | .ok (a, r) =>
    match close r with
    | (r, none) => .ok (a, r)
    | (r, some cause) => faultNext cause r
  | .error (.refused cause r) => fault cause (close r).1
  | .error (.fault f) => .error f

/-- The values of a record's fields as far as they are known. -/
abbrev Draft {F : Type} (V : F → Type) := (f : F) → Option (V f)

namespace Draft

variable {F : Type} {V : F → Type}

def empty : Draft V := fun _ => none

/-- The draft with one more value. -/
def set [DecidableEq F] (d : Draft V) (f : F) (v : V f) : Draft V := fun g =>
  if h : f = g then some (h ▸ v) else d g

end Draft

namespace Schema

variable {F : Type} {V : F → Type} [DecidableEq F]

/-- The field of that name. -/
def field? (s : Schema F V) (name : String) : Option F :=
  s.fields.find? (s.label · = name)

/-- Reads up to the closing bracket of an object or past the opening quote of its next key, and
tells whether there is a key. -/
def nextKey (first : Bool) (r : Bytes) : Except Fault (Bool × Bytes) :=
  match skipBlanks r with
  | [] => faultNext .endInObject []
  | b :: r =>
    if b = 0x7D then .ok (false, b :: r)
    else if first then
      if b = 0x22 then .ok (true, r) else faultNext .keyNotText (b :: r)
    else if b = 0x2C then
      match skipBlanks r with
      | [] => faultNext .endInValue []
      | c :: r =>
        if c = 0x22 then .ok (true, r)
        else if c = 0x7D then faultNext .trailingComma (c :: r)
        else faultNext .keyNotText (c :: r)
    else faultNext .noObjectSeparator (b :: r)

/-- Reads a member after the quote of its key: the value of a field that is not known yet, or any
value of a name that is no field. -/
def readMember (s : Schema F V) (d : Draft V) (r : Bytes) : Except Halt (Draft V × Bytes) := do
  let (name, r) ← halting (readText r)
  match s.field? name with
  | some f =>
    if (d f).isSome then throw (.refused (.duplicateField name) r)
    else
      let r ← halting (readColon r)
      let (v, r) ← halting (s.read f r)
      pure (d.set f v, r)
  | none =>
    let r ← halting (readColon r)
    let r ← halting (skipValue r)
    pure (d, r)

/-- Reads the members of an object up to its closing bracket. Each takes one unit of fuel. -/
def readMembers (s : Schema F V) : (fuel : Nat) → (first : Bool) → (d : Draft V) → Bytes →
    Except Halt (Draft V × Bytes)
  | 0, _, _, r => throw (.refused .endInObject r)
  | fuel + 1, first, d, r => do
    let (more, r) ← halting (nextKey first r)
    if more then
      let (d, r) ← s.readMember d r
      s.readMembers fuel false d r
    else pure (d, r)

/-- Reads the fields of a list in their order; `i` of them are read. -/
def readInOrder (s : Schema F V) : (fields : List F) → (i : Nat) → (d : Draft V) → Bytes →
    Except Halt (Draft V × Bytes)
  | [], _, d, r => .ok (d, r)
  | f :: fs, i, d, r => do
    let (more, r) ← halting (nextElement (i = 0) r)
    if more then
      let (v, r) ← halting (s.read f r)
      s.readInOrder fs (i + 1) (d.set f v) r
    else
      let wanted := s.name ++ " with " ++ decimalText s.fields.length ++ " elements"
      throw (.refused (.wrongLength i wanted) r)

/-- The value of a field, or the objection that it is missing. -/
def require (s : Schema F V) (d : Draft V) (r : Bytes) (f : F) : Except Halt (V f) :=
  match d f with
  | some v => .ok v
  | none => throw (.refused (.missingField (s.label f)) r)

/-- Reads a record: `build` takes the values of its fields, each of which it may ask for. -/
def readRecord {α : Type} (s : Schema F V)
    (build : ((f : F) → Except Halt (V f)) → Except Halt α) : Reader α := fun r => do
  let (item, r) ← readItem r
  match item, r with
  | .object, _ :: r =>
    closing closeObject do
      let (d, r) ← s.readMembers (r.length + 1) true .empty r
      let a ← build (s.require d r)
      pure (a, r)
  | .list, _ :: r =>
    closing closeList do
      let (d, r) ← s.readInOrder s.fields 0 .empty r
      let a ← build (s.require d r)
      pure (a, r)
  | item, r => fault (.wrongType item s.name) r

end Schema
end CustomsClaims.Json
