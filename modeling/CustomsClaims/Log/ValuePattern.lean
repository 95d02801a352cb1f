import CustomsClaims.Number.Numeral

/-!
# Patterns for values

What a log directive asks of a value in a span is a number or a pattern: characters and escapes,
classes between brackets, groups between parentheses, alternatives, and the repetition signs `*`,
`+` and `?` after what they repeat. `ValuePattern.isWellFormed` tells whether a text is one. A
pattern here holds no comma, no equals sign and no closing brace, so that no counted repetition can
stand in it.
-/

namespace CustomsClaims.ValuePattern

/-- Where a reader of a pattern is. -/
inductive Spot where
  /-- Between characters; `operand` tells whether there is something to repeat. -/
  | plain (operand : Bool)
  /-- Behind a backslash. -/
  | escape
  /-- In the hexadecimal digits of an escape, of which `more` follow. -/
  | hex (more : Nat)
  /-- Before the letter of a property. -/
  | property
  /-- Behind an opening parenthesis. -/
  | group
  /-- In the flags of a group. -/
  | flags (any : Bool)
  /-- In the name of a group. -/
  | label (any : Bool)
  /-- Behind an opening bracket. -/
  | opening (negatable : Bool)
deriving DecidableEq, Repr

/-- How many groups and classes are open, and where the reader is. -/
structure State where
  groups : Nat
  classes : Nat
  spot : Spot
deriving DecidableEq, Repr

def isHexDigit (c : Char) : Bool := isDigit c || c.toLower ∈ "abcdef".toList

/-- Behind the character that a backslash stands before. Boundaries of words are not supported, and
neither are references to groups. -/
def afterEscape (inClass : Bool) (c : Char) : Option Spot :=
  if c = 'x' then some (.hex 1)
  else if c = 'u' then some (.hex 3)
  else if c = 'U' then some (.hex 7)
  else if c = 'p' ∨ c = 'P' then some .property
  else if c ∈ "dDsSwWaftnrv".toList then some (.plain true)
  else if c = 'A' ∨ c = 'z' then if inClass then none else some (.plain true)
  else if c.toNat < 0x80 ∧ !c.isAlphanum ∧ c ≠ '<' ∧ c ≠ '>' then some (.plain true)
  else none

/-- Between the characters of a class. -/
def State.stepClass (s : State) (c : Char) : State :=
  if c = '[' then { s with classes := s.classes + 1, spot := .opening true }
  else if c = ']' then { s with classes := s.classes - 1, spot := .plain true }
  else if c = '\\' then { s with spot := .escape }
  else { s with spot := .plain true }

/-- Between the characters outside of classes. -/
def State.stepPlain (s : State) (operand : Bool) (c : Char) : Option State :=
  if c = '(' then some { s with groups := s.groups + 1, spot := .group }
  else if c = ')' then
    if s.groups = 0 then none
    else some { s with groups := s.groups - 1, spot := .plain true }
  else if c = '|' then some { s with spot := .plain false }
  else if c = '*' ∨ c = '+' ∨ c = '?' then
    if operand then some { s with spot := .plain true } else none
  else if c = '\x7b' then none
  else some (s.stepClass c)

/-- The state after one more character; `none` if the character cannot stand there. -/
def State.step (s : State) (c : Char) : Option State :=
  let go (spot : Spot) : State := { s with spot }
  match s.spot with
  | .plain operand => if s.classes = 0 then s.stepPlain operand c else some (s.stepClass c)
  | .escape => (afterEscape (s.classes ≠ 0) c).map go
  | .hex more =>
    if !isHexDigit c then none
    else if more = 0 then some (go (.plain true))
    else some (go (.hex (more - 1)))
  | .property => if c.toUpper ∈ "CLMNPSZ".toList then some (go (.plain true)) else none
  | .group => if c = '?' then some (go (.flags false)) else s.stepPlain false c
  | .flags any =>
    if c = ':' then some (go (.plain false))
    else if c = ')' ∧ any then some { s with groups := s.groups - 1, spot := .plain false }
    else if c = '<' then some (go (.label false))
    else if c ∈ "imsUuRxP-".toList then some (go (.flags true))
    else none
  | .label any =>
    if c = '>' ∧ any then some (go (.plain false))
    else if c.isAlphanum ∨ c = '_' then some (go (.label true))
    else none
  | .opening negatable =>
    if c = '^' ∧ negatable then some (go (.opening false))
    else if c = ']' then some (go (.plain true))
    else some (s.stepClass c)

/-- Is the text a number or a pattern? -/
def isWellFormed (cs : List Char) : Bool :=
  (wholeNumber? cs).isSome ||
    match cs.foldlM State.step ⟨0, 0, .plain false⟩ with
    | some ⟨0, 0, .plain _⟩ => true
    | _ => false

end CustomsClaims.ValuePattern
