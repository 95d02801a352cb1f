/-!
# White space

The characters with the Unicode property White_Space, and texts without them at their ends.
JSON has a narrower rule of its own (`Json.isBlank`).
-/

namespace CustomsClaims

/-- The 25 characters with the property White_Space. -/
def isBlank (c : Char) : Bool :=
  let n := c.toNat
  (0x09 ≤ n && n ≤ 0x0D) || n = 0x20 || n = 0x85 || n = 0xA0 || n = 0x1680
    || (0x2000 ≤ n && n ≤ 0x200A) || n = 0x2028 || n = 0x2029 || n = 0x202F || n = 0x205F
    || n = 0x3000

/-- Drops white space at the start. -/
def trimStart (cs : List Char) : List Char :=
  cs.dropWhile isBlank

/-- Drops white space at the end. -/
def trimEnd (cs : List Char) : List Char :=
  (cs.reverse.dropWhile isBlank).reverse

/-- Drops white space at both ends. -/
def trim (cs : List Char) : List Char :=
  trimEnd (trimStart cs)

/-- The pieces of a text between the characters `sep`: one more than there are such characters. -/
abbrev splitAtChar (sep : Char) (cs : List Char) : List (List Char) :=
  cs.splitOn sep

end CustomsClaims
