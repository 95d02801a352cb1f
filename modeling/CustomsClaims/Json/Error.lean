import CustomsClaims.Calendar.Text
import CustomsClaims.Number.Layout
import CustomsClaims.Text.Quoted
import CustomsClaims.Text.Utf8

/-!
# Why a JSON text is refused

A refusal has a cause and a place. Causes are of three kinds (`Cause.kind`): the text ends early, it
is no JSON, or it is JSON that does not fit the schema. While reading, a place is the number of
bytes still unread (`Fault`); `Error.ofFault` turns it into a line and a column.
-/

namespace CustomsClaims.Json

/-- What a value starts with: a scalar, read in full, or an opening bracket. -/
inductive Item where
  | null
  | boolean (b : Bool)
  | integer (i : Int)
  | binary (negative : Bool) (b : Binary)
  | text (s : String)
  | list
  | object
deriving DecidableEq, Repr

/-- How a message names a value that it found. -/
def Item.name : Item → String
  | .null => "null"
  | .boolean b => "boolean `" ++ (if b then "true" else "false") ++ "`"
  | .integer i => "integer `" ++ signedText i ++ "`"
  | .binary negative b => "floating point `" ++ b.jsonText negative ++ "`"
  | .text s => "string " ++ quoted s
  | .list => "sequence"
  | .object => "map"

/-- The cause of a refusal. -/
inductive Cause where
  | endInList
  | endInObject
  | endInString
  | endInValue
  | noColon
  | noListSeparator
  | noObjectSeparator
  | badWord
  | noValue
  | badEscape
  | badNumber
  | numberTooLarge
  | badCodePoint
  | controlCharacter
  | keyNotText
  | loneSurrogate
  | trailingComma
  | trailingCharacters
  | unpairedSurrogate
  | missingField (name : String)
  | duplicateField (name : String)
  | wrongType (found : Item) (wanted : String)
  | badValue (found : Item) (wanted : String)
  | wrongLength (length : Nat) (wanted : String)
  | unknownVariant (name : String) (known : List String)
  | badDate (e : DateError)
deriving DecidableEq, Repr

/-- The kinds of causes. -/
inductive Kind where
  | eof
  | malformed
  | data
deriving DecidableEq, Repr

namespace Cause

def kind : Cause → Kind
  | endInList | endInObject | endInString | endInValue => .eof
  | missingField _ | duplicateField _ | wrongType .. | badValue .. | wrongLength ..
  | unknownVariant .. | badDate _ => .data
  | _ => .malformed

/-- A name between backticks. -/
def ticked (s : String) : String := "`" ++ s ++ "`"

def message : Cause → String
  | endInList => "EOF while parsing a list"
  | endInObject => "EOF while parsing an object"
  | endInString => "EOF while parsing a string"
  | endInValue => "EOF while parsing a value"
  | noColon => "expected `:`"
  | noListSeparator => "expected `,` or `]`"
  | noObjectSeparator => "expected `,` or `\x7d`"
  | badWord => "expected ident"
  | noValue => "expected value"
  | badEscape => "invalid escape"
  | badNumber => "invalid number"
  | numberTooLarge => "number out of range"
  | badCodePoint => "invalid unicode code point"
  | controlCharacter => "control character (\\u0000-\\u001F) found while parsing a string"
  | keyNotText => "key must be a string"
  | loneSurrogate => "lone leading surrogate in hex escape"
  | trailingComma => "trailing comma"
  | trailingCharacters => "trailing characters"
  | unpairedSurrogate => "unexpected end of hex escape"
  | missingField name => "missing field " ++ ticked name
  | duplicateField name => "duplicate field " ++ ticked name
  | wrongType found wanted => "invalid type: " ++ found.name ++ ", expected " ++ wanted
  | badValue found wanted => "invalid value: " ++ found.name ++ ", expected " ++ wanted
  | wrongLength n wanted => "invalid length " ++ decimalText n ++ ", expected " ++ wanted
  | unknownVariant name known =>
    "unknown variant " ++ ticked name ++ ", expected one of " ++
      String.intercalate ", " (known.map ticked)
  | badDate e => e.message

end Cause

/-- A refusal: its cause, and how many bytes were still unread. -/
structure Fault where
  cause : Cause
  unread : Nat
deriving DecidableEq, Repr

/-- A refusal with its place: lines count from 1, columns are the bytes read of the line. -/
structure Error where
  cause : Cause
  line : Nat
  column : Nat
deriving DecidableEq, Repr

namespace Error

/-- The place of a fault in its text. -/
def ofFault (text : Bytes) (f : Fault) : Error :=
  let read := text.take (text.length - f.unread)
  ⟨f.cause, read.count 0x0A + 1, (read.reverse.takeWhile (· ≠ 0x0A)).length⟩

def kind (e : Error) : Kind := e.cause.kind

def message (e : Error) : String :=
  e.cause.message ++ " at line " ++ decimalText e.line ++ " column " ++ decimalText e.column

end Error
end CustomsClaims.Json
