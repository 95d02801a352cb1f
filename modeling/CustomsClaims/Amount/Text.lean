import CustomsClaims.Amount.Basic

/-!
# Amounts in text

`Amount.ofText?` reads an amount: a sign, digits with at most one point among them and underscores
after the first digit, and possibly an exponent. Digits that an amount has no room for are dropped
once the point is passed, and the first of them rounds the amount up from five on.
-/

namespace CustomsClaims
namespace Amount

/-- The value of a decimal digit. -/
def digit? (c : Char) : Option Nat :=
  if '0' ≤ c ∧ c ≤ '9' then some (c.toNat - '0'.toNat) else none

/-- What has been read of an amount: its digits so far, how many of them stand after the point,
whether the point and whether any digit was seen. -/
structure Scan where
  coefficient : Nat
  places : Nat
  point : Bool
  digits : Bool

/-- Ends the reading at a digit without room; `none` if the rounded number has no room either. -/
def Scan.round (s : Scan) (digit : Nat) : Option (Nat × Nat) :=
  if digit < 5 then some (s.coefficient, s.places)
  else if s.coefficient + 1 < coefficientLimit then some (s.coefficient + 1, s.places)
  else if s.places = 0 then none
  else some ((s.coefficient + 5) / 10, s.places - 1)

/-- Coefficients below this one are short. -/
def shortLimit : Nat := 18446744073709549060

/-- Reads the end of an amount whose places are taken or whose next digit has no room. That digit
rounds, and only underscores and digits may follow it. After a short coefficient an underscore
counts as the digit zero; otherwise it makes a `gap`, behind which a digit that the coefficient has
room for is still taken. -/
def Scan.readExcess (s : Scan) (gap : Bool) : List Char → Option (Nat × Nat)
  | [] => some (s.coefficient, s.places)
  | c :: cs =>
    match if c = '_' ∧ s.coefficient < shortLimit then some 0 else digit? c with
    | some d =>
      let next := s.coefficient * 10 + d
      if gap ∧ next < coefficientLimit then
        Scan.readExcess { s with coefficient := next, places := s.places + 1 } false cs
      else if cs.all fun c => (digit? c).isSome || c = '_' then s.round d
      else none
    | none => if c = '_' then s.readExcess true cs else none

/-- Are all decimal places taken? -/
def Scan.isFull (s : Scan) : Bool := s.point && s.places = maxPlaces

/-- Reads the digits of an amount: the coefficient and how many of its digits are places. -/
def Scan.read (s : Scan) : List Char → Option (Nat × Nat)
  | [] => if s.digits then some (s.coefficient, s.places) else none
  | c :: cs =>
    if s.isFull then s.readExcess false (c :: cs)
    else
      match digit? c with
      | some d =>
        let next := s.coefficient * 10 + d
        if next < coefficientLimit then
          Scan.read ⟨next, if s.point then s.places + 1 else 0, s.point, true⟩ cs
        else if s.point then s.readExcess false (c :: cs)
        else none
      | none =>
        if c = '.' ∧ !s.point then Scan.read { s with point := true } cs
        else if c = '_' ∧ s.digits then Scan.read s cs
        else none

/-- A number as it is written: its sign, its digits, and how many of them are places. -/
structure Plain where
  negative : Bool
  coefficient : Nat
  places : Nat
deriving DecidableEq, Repr

/-- Reads a sign and digits. A zero loses its sign, and more places than an amount has are counted
from zero again. -/
def Plain.read (cs : List Char) : Option Plain := do
  let digits := match cs with
    | '-' :: cs => cs
    | '+' :: cs => cs
    | cs => cs
  let (c, places) ← Scan.read ⟨0, 0, false, false⟩ digits
  return ⟨cs.head? = some '-' && c ≠ 0, c, places % (maxPlaces + 1)⟩

/-- Drops the last `n` digits; the first of them rounds up from five on. -/
def Plain.dropDigits (p : Plain) : (n : Nat) → Plain
  | 0 => p
  | n + 1 =>
    let kept := p.coefficient / 10 ^ n
    { p with
      coefficient := kept / 10 + if 5 ≤ kept % 10 then 1 else 0
      places := p.places - (n + 1) }

/-- Divides by `10 ^ n`. Digits beyond the last place are dropped; a number that is rounded to zero
keeps its sign. -/
def Plain.lower (p : Plain) (n : Nat) : Plain :=
  let p := p.dropDigits (p.places + n - maxPlaces)
  { p with places := p.places + n }

/-- Multiplies the digits by `10 ^ n`, without the places. Where the product has no room, zeros are
left off its end, at most as many as there are places. -/
def Plain.raise (p : Plain) : (n : Nat) → Option Plain
  | 0 => some { p with places := 0 }
  | n + 1 =>
    let product := p.coefficient * 10 ^ (n + 1)
    if product < coefficientLimit then some ⟨p.negative, product, 0⟩
    else if p.places = 0 then none
    else Plain.raise { p with places := p.places - 1 } n

/-- Reads an exponent without its minus sign: a plus sign at most, then digits. -/
def readExponent (cs : List Char) : Option Nat :=
  let ds := match cs with
    | '+' :: ds => ds
    | ds => ds
  if ds = [] then none
  else ds.foldlM (fun n c => (digit? c).map (n * 10 + ·)) 0

/-- Reads an amount with an exponent, which may not pass the most places of an amount. -/
def readScientific (cs : List Char) : Option Plain := do
  let isMark (c : Char) : Bool := c = 'e' || c = 'E'
  match cs.dropWhile (!isMark ·) with
  | [] => none
  | _ :: exponent =>
    let p ← Plain.read (cs.takeWhile (!isMark ·))
    let down := exponent.head? = some '-'
    let n ← readExponent (if down then exponent.drop 1 else exponent)
    if maxPlaces < n then none
    else if down then some (p.lower n)
    else if n ≤ p.places then some { p with places := p.places - n }
    else p.raise (n - p.places)

/-- Reads an amount, with or without an exponent. -/
def ofText? (s : String) : Option Amount := do
  let p ← (Plain.read s.toList).or (readScientific s.toList)
  ofParts? p.negative p.coefficient p.places

end Amount
end CustomsClaims
