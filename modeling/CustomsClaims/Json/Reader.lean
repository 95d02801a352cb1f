import CustomsClaims.Json.Error

/-!
# Reading JSON: the common ground

A reader takes the unread bytes and returns what it read and the bytes after it, or a fault. Faults
lie where the reading stopped (`fault`), or one byte further, at a byte that was looked at and does
not fit (`faultNext`).
-/

namespace CustomsClaims.Json

/-- Reads a value off the start of a text. -/
abbrev Reader (α : Type) := Bytes → Except Fault (α × Bytes)

/-- Refuses the text where the rest `r` begins. -/
def fault {α : Type} (cause : Cause) (r : Bytes) : Except Fault α :=
  .error ⟨cause, r.length⟩

/-- Refuses the text because of the first byte of the rest `r`, or of its end. -/
def faultNext {α : Type} (cause : Cause) (r : Bytes) : Except Fault α :=
  .error ⟨cause, r.length - 1⟩

/-- The white space of JSON: space, tab, line feed and carriage return. -/
def isBlank (b : UInt8) : Bool :=
  b = 0x20 || b = 0x09 || b = 0x0A || b = 0x0D

def skipBlanks (r : Bytes) : Bytes :=
  r.dropWhile isBlank

/-- Reads the rest of a word such as `null`. -/
def readWord : (word : Bytes) → Bytes → Except Fault Bytes
  | [], r => .ok r
  | _ :: _, [] => fault .endInValue []
  | w :: ws, b :: r => if b = w then readWord ws r else fault .badWord r

/-- Reads the colon after a key. -/
def readColon (r : Bytes) : Except Fault Bytes :=
  match skipBlanks r with
  | [] => faultNext .endInObject []
  | b :: r => if b = 0x3A then .ok r else faultNext .noColon (b :: r)

/-- Reads a whole text with white space around its value. -/
def parse {α : Type} (read : Reader α) (text : Bytes) : Except Error α :=
  let outcome : Except Fault α := do
    let (a, r) ← read text
    match skipBlanks r with
    | [] => pure a
    | r => faultNext .trailingCharacters r
  outcome.mapError (Error.ofFault text)

end CustomsClaims.Json
