import CustomsClaims.Calendar.Range
import CustomsClaims.Json.Printer
import CustomsClaims.Json.Record

/-!
# Date ranges in JSON

A date range is an object with the members `start` and `end`; its reader does not ask that they be
in order. A relative range is its key as a string, or an object whose only member has that key and
the value null.
-/

namespace CustomsClaims
namespace DateRange

/-- The fields of a date range. -/
inductive Field where
  | start
  | finish
deriving DecidableEq, Repr

def Field.label : Field → String
  | start => "start"
  | finish => "end"

/-- A date range as a record. -/
def schema : Json.Schema Field (fun _ => Date) where
  name := "struct DateRange"
  fields := [.start, .finish]
  label := Field.label
  read := fun _ => Json.readDate

/-- The date range that a JSON text holds. -/
def parse (text : Bytes) : Except Json.Error DateRange :=
  Json.parse
    (schema.readRecord fun value => do return ⟨← value .start, ← value .finish⟩) text

/-- The date range as a JSON object. -/
def tree (r : DateRange) : Json.Tree :=
  .object [(Field.label .start, .text r.start.text), (Field.label .finish, .text r.finish.text)]

end DateRange

namespace RelativeRange

/-- The relative range of that name, or the objection that there is none. -/
def ofKey (s : String) : Except Json.Cause RelativeRange :=
  match ofKey? s with
  | some r => .ok r
  | none => .error (.unknownVariant s (all.map key))

/-- Reads the key of a relative range. -/
def readKey : Json.Reader RelativeRange :=
  Json.readTyped fun
    | .text s => ofKey s
    | item => .error (.wrongType item "variant identifier")

/-- Reads null. -/
def readUnit : Json.Reader Unit :=
  Json.readTyped fun
    | .null => .ok ()
    | item => .error (.wrongType item "unit")

/-- Reads a relative range. -/
def read : Json.Reader RelativeRange := fun r =>
  match Json.skipBlanks r with
  | [] => Json.faultNext .endInValue []
  | b :: r =>
    if b = 0x22 then readKey (b :: r)
    else if b = 0x7B then do
      let (range, r) ← readKey r
      let r ← Json.readColon r
      let ((), r) ← readUnit r
      match Json.skipBlanks r with
      | [] => Json.fault .endInObject []
      | c :: r => if c = 0x7D then pure (range, r) else Json.fault .noValue (c :: r)
    else Json.faultNext .noValue (b :: r)

/-- The relative range that a JSON text holds. -/
def parse (text : Bytes) : Except Json.Error RelativeRange :=
  Json.parse read text

end RelativeRange
end CustomsClaims
