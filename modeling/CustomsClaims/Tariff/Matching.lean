import CustomsClaims.Tariff.Pattern

/-!
# Matching tariff codes

A pattern matches codes of one length only: each of its tokens stands for a fixed number of places,
and each place takes one digit of a range. `Pattern.accepts` compares a code place by place.
-/

namespace CustomsClaims.Tariff

/-- What may stand at one place of a code. -/
inductive Place where
  /-- A digit from `low` to `high`. -/
  | digit (low high : Char)
  /-- The point between two sections. -/
  | point
deriving DecidableEq, Repr

/-- May the character stand at the place? -/
def Place.allows : Place → Char → Bool
  | .digit low high, c => low ≤ c && c ≤ high
  | .point, c => c = '.'

/-- The digit of a number below ten. -/
def digitChar (n : Nat) : Char := Char.ofNat ('0'.toNat + n)

/-- The places that a token stands for in a section of `width` digits. -/
def Token.places (width : Nat) : Token → List Place
  | .digit c => [.digit c c]
  | .range low high => [.digit (digitChar low) (digitChar high)]
  | .anyDigit => [.digit '0' '9']
  | .wildcard => List.replicate width (.digit '0' '9')

namespace Pattern

/-- The places of the codes that the pattern matches. -/
def places (p : Pattern) : List Place :=
  p.first.flatMap (Token.places 4) ++ .point :: p.second.flatMap (Token.places 2) ++
    .point :: p.third.flatMap (Token.places 2) ++ .point :: p.fourth.flatMap (Token.places 2)

/-- Does every place allow its character, with none left over? -/
def fits : List Place → List Char → Bool
  | [], [] => true
  | p :: ps, c :: cs => p.allows c && fits ps cs
  | _, _ => false

/-- Does the pattern match the whole code? -/
def accepts (p : Pattern) (code : String) : Bool :=
  fits p.places code.toList

end Pattern
end CustomsClaims.Tariff
