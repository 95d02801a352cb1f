import CustomsClaims.Number.Layout
import CustomsClaims.Text.Utf8

/-!
# Writing JSON

A JSON text is written from a tree, without any white space (`Tree.compact`) or with one member or
element a line and four spaces for each open bracket (`Tree.indented`). Strings keep every character
but the quote, the backslash and the control characters below the space.
-/

namespace CustomsClaims.Json

/-- A JSON value to be written; numbers come as their text. -/
inductive Tree where
  | number (text : String)
  | text (s : String)
  | list (elements : List Tree)
  | object (members : List (String × Tree))

/-- A character of a string. -/
def writeChar (c : Char) : Bytes :=
  if c = '"' then Utf8.encode "\\\""
  else if c = '\\' then Utf8.encode "\\\\"
  else if c = '\x08' then Utf8.encode "\\b"
  else if c = '\x0C' then Utf8.encode "\\f"
  else if c = '\n' then Utf8.encode "\\n"
  else if c = '\r' then Utf8.encode "\\r"
  else if c = '\t' then Utf8.encode "\\t"
  else if c.toNat < 0x20 then
    Utf8.encode "\\u00" ++
      Utf8.encodeChars [Nat.digitChar (c.toNat / 16), Nat.digitChar (c.toNat % 16)]
  else String.utf8EncodeChar c

/-- A string between its quotes. -/
def writeText (s : String) : Bytes :=
  0x22 :: s.toList.flatMap writeChar ++ [0x22]

namespace Tree

/-- A whole number. -/
def int (i : Int) : Tree := .number (signedText i)

mutual

/-- The JSON text without white space. -/
def compact : Tree → Bytes
  | .number t => Utf8.encode t
  | .text s => writeText s
  | .list [] => [0x5B, 0x5D]
  | .list (t :: ts) => 0x5B :: t.compact ++ compactElements ts
  | .object [] => [0x7B, 0x7D]
  | .object ((k, t) :: ms) => 0x7B :: writeText k ++ 0x3A :: t.compact ++ compactMembers ms

/-- The further elements of a list, and its bracket. -/
def compactElements : List Tree → Bytes
  | [] => [0x5D]
  | t :: ts => 0x2C :: t.compact ++ compactElements ts

/-- The further members of an object, and its bracket. -/
def compactMembers : List (String × Tree) → Bytes
  | [] => [0x7D]
  | (k, t) :: ms => 0x2C :: writeText k ++ 0x3A :: t.compact ++ compactMembers ms

end

/-- A line break and the indentation inside `depth` brackets. -/
def newLine (depth : Nat) : Bytes :=
  0x0A :: List.replicate (4 * depth) 0x20

mutual

/-- The JSON text with a line for each element and member, inside `depth` brackets. -/
def indented (depth : Nat) : Tree → Bytes
  | .number t => Utf8.encode t
  | .text s => writeText s
  | .list [] => [0x5B, 0x5D]
  | .list (t :: ts) =>
    0x5B :: newLine (depth + 1) ++ t.indented (depth + 1) ++ indentedElements depth ts
  | .object [] => [0x7B, 0x7D]
  | .object ((k, t) :: ms) =>
    0x7B :: newLine (depth + 1) ++ writeText k ++ 0x3A :: 0x20 :: t.indented (depth + 1) ++
      indentedMembers depth ms

/-- The further elements of a list inside `depth` brackets, and its bracket. -/
def indentedElements (depth : Nat) : List Tree → Bytes
  | [] => newLine depth ++ [0x5D]
  | t :: ts => 0x2C :: newLine (depth + 1) ++ t.indented (depth + 1) ++ indentedElements depth ts

/-- The further members of an object inside `depth` brackets, and its bracket. -/
def indentedMembers (depth : Nat) : List (String × Tree) → Bytes
  | [] => newLine depth ++ [0x7D]
  | (k, t) :: ms =>
    0x2C :: newLine (depth + 1) ++ writeText k ++ 0x3A :: 0x20 :: t.indented (depth + 1) ++
      indentedMembers depth ms

end

end Tree
end CustomsClaims.Json
