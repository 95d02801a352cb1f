import CustomsClaims.Number.Numeral

/-!
# Keys

A key says what a variable is about: a setting, or a part of one. The parts of a setting follow its
name, members after a point and places in brackets. `Key.shape?` tells what a value under such a key
makes of the setting.
-/

namespace CustomsClaims

/-- What a setting with parts is. -/
inductive Shape where
  /-- It has members. -/
  | table
  /-- It has places. -/
  | list
deriving DecidableEq, Repr

/-- How messages call it. -/
def Shape.name : Shape → String
  | table => "map"
  | list => "sequence"

namespace Key

/-- May the character stand in the name of a setting or of a member? -/
def isNameChar (c : Char) : Bool :=
  c.isAlphanum || c = '_' || c = '-' || c = ' '

/-- May the character stand beside the number of a place? -/
def isGap (c : Char) : Bool := c = ' ' || c = '\t'

/-- The numbers of places are below this one. -/
def placeLimit : Nat := 2 ^ 63

/-- Where a reader of the parts is. -/
inductive Spot where
  /-- Behind a name or a bracket, where the key may end. -/
  | closed
  /-- Behind a point. -/
  | point
  /-- In the name of a member. -/
  | member
  /-- Behind an opening bracket. -/
  | bracket
  /-- Behind a minus sign in brackets. -/
  | sign
  /-- In the number of a place. -/
  | place (n : Nat)
  /-- Behind that number. -/
  | placed
deriving DecidableEq, Repr

/-- Where the reader is after one more character; `none` if the character cannot stand there. -/
def Spot.step : Spot → Char → Option Spot
  | .point, c => if isNameChar c then some .member else none
  | .bracket, c =>
    if isGap c then some .bracket
    else if c = '-' then some .sign
    else if isDigit c then some (.place (number [c]))
    else none
  | .sign, c => if isDigit c then some (.place (number [c])) else none
  | .place n, c =>
    if isDigit c then
      let n := n * 10 + number [c]
      if n < placeLimit then some (.place n) else none
    else if isGap c then some .placed
    else if c = ']' then some .closed
    else none
  | .placed, c => if isGap c then some .placed else if c = ']' then some .closed else none
  | spot, c =>
    if c = '.' then some .point
    else if c = '[' then some .bracket
    else if spot = .member ∧ isNameChar c then some .member
    else none

/-- Are these the parts that a key has behind its first name? -/
def areParts (cs : List Char) : Bool :=
  match cs.foldlM Spot.step .closed with
  | some .closed | some .member => true
  | _ => false

/-- What a value under the key makes of the setting of that name: nothing if it is about another
one, `none` inside if it is the value of the setting itself. -/
def shape? (name key : List Char) : Option (Option Shape) :=
  if key = name then some none
  else if key.takeWhile isNameChar ≠ name then none
  else
    let parts := key.dropWhile isNameChar
    if areParts parts then some (some (if parts.head? = some '.' then .table else .list))
    else none

end Key
end CustomsClaims
