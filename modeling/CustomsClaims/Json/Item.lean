import CustomsClaims.Json.Skip

/-!
# Scalars and lists

`readItem` reads a scalar, or looks at the bracket that a value starts with. The readers of typed
values ask for one item and refuse the others by name. `readList` reads a list of any values.
-/

namespace CustomsClaims.Json

/-- Reads a scalar; an opening bracket is reported and left in place. -/
def readItem : Reader Item := fun r =>
  match skipBlanks r with
  | [] => faultNext .endInValue []
  | b :: r =>
    if b = 0x22 then do
      let (s, r) ← readText r
      pure (.text s, r)
    else if b = 0x2D ∨ isDigit b then readNumber (b :: r)
    else if b = 0x6E then do
      let r ← readWord nullTail r
      pure (.null, r)
    else if b = 0x74 then do
      let r ← readWord trueTail r
      pure (.boolean true, r)
    else if b = 0x66 then do
      let r ← readWord falseTail r
      pure (.boolean false, r)
    else if b = 0x5B then .ok (.list, b :: r)
    else if b = 0x7B then .ok (.object, b :: r)
    else faultNext .noValue (b :: r)

/-- Reads an item and turns it into a value, or refuses it after the item. -/
def readTyped {α : Type} (convert : Item → Except Cause α) : Reader α := fun r => do
  let (item, r) ← readItem r
  match convert item with
  | .ok a => pure (a, r)
  | .error cause => fault cause r

/-- Reads a whole number of 64 bits with a sign. -/
def readInt64 : Reader Int64 :=
  readTyped fun
    | .integer i =>
      if -2 ^ 63 ≤ i ∧ i < 2 ^ 63 then .ok (Int64.ofInt i)
      else .error (.badValue (.integer i) "i64")
    | item => .error (.wrongType item "i64")

/-- Reads a string. -/
def readString (wanted : String) : Reader String :=
  readTyped fun
    | .text s => .ok s
    | item => .error (.wrongType item wanted)

/-- Reads a date from a string. -/
def readDate : Reader Date :=
  readTyped fun
    | .text s => (Date.ofText? s).mapError .badDate
    | item => .error (.wrongType item "a formatted date string")

/-! ## Lists -/

/-- Reads up to the next element of a list or to its closing bracket, and tells whether there is an
element. -/
def nextElement (first : Bool) (r : Bytes) : Except Fault (Bool × Bytes) :=
  match skipBlanks r with
  | [] => faultNext .endInList []
  | b :: r =>
    if b = 0x5D then .ok (false, b :: r)
    else if first then .ok (true, b :: r)
    else if b = 0x2C then
      match skipBlanks r with
      | [] => faultNext .endInValue []
      | c :: r => if c = 0x5D then faultNext .trailingComma (c :: r) else .ok (true, c :: r)
    else faultNext .noListSeparator (b :: r)

/-- Reads the elements of a list up to its closing bracket; `acc` holds the earlier ones, last
first. Each element takes one unit of fuel. -/
def readElements {α : Type} (read : Reader α) : (fuel : Nat) → (acc : List α) → Reader (List α)
  | 0, _, r => fault .endInList r
  | fuel + 1, acc, r => do
    let (more, r) ← nextElement acc.isEmpty r
    if more then
      let (a, r) ← read r
      readElements read fuel (a :: acc) r
    else pure (acc.reverse, r)

/-- Closes a list: the place reached, and why the bracket is not closed there. -/
def closeList (r : Bytes) : Bytes × Option Cause :=
  match skipBlanks r with
  | [] => ([], some .endInList)
  | b :: r =>
    if b = 0x5D then (r, none)
    else if b = 0x2C then
      let r := skipBlanks r
      (r, some (if r.head? = some 0x5D then .trailingComma else .trailingCharacters))
    else (b :: r, some .trailingCharacters)

/-- Closes an object: the place reached, and why the bracket is not closed there. -/
def closeObject (r : Bytes) : Bytes × Option Cause :=
  match skipBlanks r with
  | [] => ([], some .endInObject)
  | b :: r =>
    if b = 0x7D then (r, none)
    else (b :: r, some (if b = 0x2C then .trailingComma else .trailingCharacters))

/-- Reads a list of values. Every element takes a byte, so the fuel lasts. -/
def readList {α : Type} (read : Reader α) : Reader (List α) := fun r => do
  let (item, r) ← readItem r
  match item, r with
  | .list, _ :: r =>
    let (as, r) ← readElements read (r.length + 1) [] r
    match closeList r with
    | (r, none) => pure (as, r)
    | (r, some cause) => faultNext cause r
  | item, r => fault (.wrongType item "a sequence") r

end CustomsClaims.Json
