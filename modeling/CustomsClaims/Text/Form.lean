import CustomsClaims.Text.Utf8

/-!
# Form-encoded texts

`Form.parse` reads the name and value pairs of a query string: pairs stand between ampersands, a
name ends at the first equals sign, a plus sign is a space, and a percent sign with two hexadecimal
digits is a byte. Empty pairs are left out; what is no UTF-8 is read with U+FFFD.
-/

namespace CustomsClaims.Form

/-- The value of a hexadecimal digit. -/
def hexDigit? (b : UInt8) : Option UInt8 :=
  if 0x30 ≤ b ∧ b ≤ 0x39 then some (b - 0x30)
  else if 0x41 ≤ b ∧ b ≤ 0x46 then some (b - 0x41 + 10)
  else if 0x61 ≤ b ∧ b ≤ 0x66 then some (b - 0x61 + 10)
  else none

/-- The pieces of a byte string between the bytes `sep`: one more than there are such bytes. -/
def splitAtByte (sep : UInt8) : Bytes → List Bytes
  | [] => [[]]
  | b :: bs =>
    if b = sep then [] :: splitAtByte sep bs
    else
      match splitAtByte sep bs with
      | [] => [[b]]
      | p :: ps => (b :: p) :: ps

/-- Replaces percent escapes by their bytes; a percent sign without two digits stays. -/
def unescape : Bytes → Bytes
  | 0x25 :: a :: b :: bs =>
    match hexDigit? a, hexDigit? b with
    | some x, some y => (x * 16 + y) :: unescape bs
    | _, _ => 0x25 :: unescape (a :: b :: bs)
  | b :: bs => b :: unescape bs
  | [] => []

/-- A name or a value. -/
def decode (bs : Bytes) : String :=
  Utf8.decodeLossy (unescape (bs.map fun b => if b = 0x2B then 0x20 else b))

/-- A pair. -/
def readPair (bs : Bytes) : String × String :=
  (decode (bs.takeWhile (· ≠ 0x3D)), decode ((bs.dropWhile (· ≠ 0x3D)).drop 1))

/-- The pairs of a query string, in order. -/
def parse (bs : Bytes) : List (String × String) :=
  ((splitAtByte 0x26 bs).filter (· ≠ [])).map readPair

end CustomsClaims.Form
