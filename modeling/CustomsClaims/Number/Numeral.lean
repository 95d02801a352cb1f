/-!
# Numerals

Decimal digits and the numbers that they spell.
-/

namespace CustomsClaims

-- A power is that of the core library, also in modules that see the powers of monoids.
attribute [scoped instance (high), default_instance high + 1] instPowNat

/-- Is it one of the digits 0 to 9? -/
def isDigit (c : Char) : Bool := '0' ≤ c && c ≤ '9'

/-- The number that a list of digits spells. -/
def number (ds : List Char) : Nat :=
  ds.foldl (fun n c => n * 10 + (c.toNat - '0'.toNat)) 0

/-- The number that a whole text spells: digits, after a plus sign at most. -/
def wholeNumber? (cs : List Char) : Option Nat :=
  let ds := match cs with
    | '+' :: ds => ds
    | ds => ds
  if ds = [] ∨ !ds.all isDigit then none else some (number ds)

end CustomsClaims
