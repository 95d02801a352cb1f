import CustomsClaims.Json.Number
import CustomsClaims.Json.Text

/-!
# Passing over a JSON value

`skipValue` passes over one value of any nesting without building it. The open brackets are kept in
a list, so that the depth of the value bounds nothing.
-/

namespace CustomsClaims.Json

/-- The byte sequences after the first letter of the three words. -/
def nullTail : Bytes := [0x75, 0x6C, 0x6C]
def trueTail : Bytes := [0x72, 0x75, 0x65]
def falseTail : Bytes := [0x61, 0x6C, 0x73, 0x65]

/-- An open bracket. -/
inductive Bracket where
  | list
  | object
deriving DecidableEq, Repr

namespace Bracket

def closing : Bracket → UInt8
  | list => 0x5D
  | object => 0x7D

/-- The refusal of a text that ends before the bracket is closed. -/
def atEnd : Bracket → Cause
  | list => .endInList
  | object => .endInObject

/-- The refusal of anything but a comma or the closing bracket after an element. -/
def noSeparator : Bracket → Cause
  | list => .noListSeparator
  | object => .noObjectSeparator

end Bracket

/-- What comes next: a value, the first element after an opening bracket or its closing one, or a
comma or the closing bracket after an element. -/
inductive Turn where
  | value
  | first
  | next
deriving DecidableEq, Repr

/-- Passes over the key of a member and its colon. -/
def skipKey (r : Bytes) : Except Fault Bytes :=
  match skipBlanks r with
  | [] => faultNext .endInObject []
  | b :: r =>
    if b = 0x22 then do
      let r ← skipText r
      readColon r
    else faultNext .keyNotText (b :: r)

/-- Passes over a scalar that starts with the byte `b`. -/
def skipScalar (b : UInt8) (r : Bytes) : Except Fault Bytes :=
  if b = 0x22 then skipText r
  else if b = 0x2D then skipUnsigned r
  else if isDigit b then skipUnsigned (b :: r)
  else if b = 0x6E then readWord nullTail r
  else if b = 0x74 then readWord trueTail r
  else if b = 0x66 then readWord falseTail r
  else faultNext .noValue (b :: r)

/-- Passes over a key if the bracket is one of an object. -/
def Bracket.skipKey (k : Bracket) (r : Bytes) : Except Fault Bytes :=
  match k with
  | .list => .ok r
  | .object => Json.skipKey r

/-- Passes over the rest of a value inside the brackets `open_`, innermost first. Each turn takes
one unit of fuel. -/
def skipFrom : (fuel : Nat) → Turn → (open_ : List Bracket) → Bytes → Except Fault Bytes
  | 0, _, _, r => fault .endInValue r
  | fuel + 1, .value, ks, r =>
    match skipBlanks r with
    | [] => faultNext .endInValue []
    | b :: r =>
      if b = 0x5B then skipFrom fuel .first (.list :: ks) r
      else if b = 0x7B then skipFrom fuel .first (.object :: ks) r
      else do
        let r ← skipScalar b r
        skipFrom fuel .next ks r
  | _ + 1, .first, [], r => .ok r
  | fuel + 1, .first, k :: ks, r =>
    match skipBlanks r with
    | [] => faultNext k.atEnd []
    | b :: r =>
      if b = k.closing then skipFrom fuel .next ks r
      else do
        let r ← k.skipKey (b :: r)
        skipFrom fuel .value (k :: ks) r
  | _ + 1, .next, [], r => .ok r
  | fuel + 1, .next, k :: ks, r =>
    match skipBlanks r with
    | [] => faultNext k.atEnd []
    | b :: r =>
      if b = 0x2C then do
        let r ← k.skipKey r
        skipFrom fuel .value (k :: ks) r
      else if b = k.closing then skipFrom fuel .next ks r
      else faultNext k.noSeparator (b :: r)

/-- Passes over one value. Every two turns take a byte, so the fuel lasts. -/
def skipValue (r : Bytes) : Except Fault Bytes :=
  skipFrom (2 * r.length + 2) .value [] r

end CustomsClaims.Json
