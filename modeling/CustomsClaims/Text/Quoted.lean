import CustomsClaims.Text.Printable

/-!
# Quoted texts

How a text is shown inside a message: between double quotes, a quote and a backslash after a
backslash, the common controls by their letters, and every other character that is not shown as
itself by its code point.
-/

namespace CustomsClaims

/-- A number in base 16, with lower-case digits and no leading zero. -/
def hexText (n : Nat) : String :=
  String.ofList (Nat.toDigits 16 n)

/-- A character of a quoted text. -/
def quotedChar (c : Char) : String :=
  if c = '"' then "\\\""
  else if c = '\\' then "\\\\"
  else if c = '\t' then "\\t"
  else if c = '\r' then "\\r"
  else if c = '\n' then "\\n"
  else if c = '\x00' then "\\0"
  else if isShown c then c.toString
  else "\\u\x7b" ++ hexText c.toNat ++ "\x7d"

/-- A text between quotes. -/
def quoted (s : String) : String :=
  "\"" ++ String.join (s.toList.map quotedChar) ++ "\""

end CustomsClaims
