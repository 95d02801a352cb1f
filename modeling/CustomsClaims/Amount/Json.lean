import CustomsClaims.Amount.Text
import CustomsClaims.Json.Record

/-!
# Amounts in JSON

An amount is written as the shortest number that reads back as the binary number nearest to it, and
read from a number or a string: a whole number is taken as it is, any other number through its
shortest decimal digits, the larger of two equally near ones.
-/

namespace CustomsClaims

namespace Amount

/-- The binary number nearest to the amount, without its sign. -/
def nearestBinary (a : Amount) : Binary :=
  Binary.nearest a.coefficient (10 ^ a.places)

/-- The amount as a JSON number. -/
def jsonText (a : Amount) : String :=
  a.nearestBinary.jsonText a.negative

/-- What messages call an amount. -/
def wanted : String := "a Decimal type representing a fixed-point number"

/-- The amount that a scalar stands for. -/
def ofItem (item : Json.Item) : Except Json.Cause Amount :=
  let value (a? : Option Amount) : Except Json.Cause Amount :=
    match a? with
    | some a => .ok a
    | none => .error (.badValue item wanted)
  match item with
  | .integer i => value (ofInt? i)
  | .binary negative b => value (ofDigits? negative (b.shortest .up))
  | .text s => value (ofText? s)
  | item => .error (.wrongType item wanted)

end Amount

namespace Json

/-- Reads an amount. A list or an object is refused after its opening bracket, where its closing one
is looked for before the place is taken. -/
def readAmount : Reader Amount := fun r => do
  let (item, r) ← readItem r
  match Amount.ofItem item, item, r with
  | .ok a, _, r => .ok (a, r)
  | .error cause, .list, _ :: r => closing closeList (throw (.refused cause r))
  | .error cause, .object, _ :: r => closing closeObject (throw (.refused cause r))
  | .error cause, _, r => fault cause r

end Json
end CustomsClaims
