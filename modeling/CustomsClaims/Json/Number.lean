import CustomsClaims.Json.Reader

/-!
# JSON numbers

`readNumber` reads a number. One without fraction and exponent stays an integer while it fits 64
bits, a negative one while it fits 64 bits with a sign; any other is a binary number. Of its digits
only those count that 64 bits have room for: further digits before the point raise the exponent by
one each, further digits after it are dropped. `skipNumber` checks the grammar alone.
-/

namespace CustomsClaims.Json

def isDigit (b : UInt8) : Bool := 0x30 ≤ b && b ≤ 0x39

def digitValue (b : UInt8) : Nat := b.toNat - 0x30

/-- The significand of a number is below `2 ^ 64`. -/
def significandLimit : Nat := 2 ^ 64

/-- Exponents as written are below `2 ^ 31`. -/
def exponentLimit : Nat := 2 ^ 31

/-- Takes digits as long as the number fits 64 bits: the number, how many digits it took, and the
rest. -/
def takeDigits (n taken : Nat) : Bytes → Nat × Nat × Bytes
  | [] => (n, taken, [])
  | b :: r =>
    if isDigit b ∧ n * 10 + digitValue b < significandLimit then
      takeDigits (n * 10 + digitValue b) (taken + 1) r
    else (n, taken, b :: r)

/-- The digits of an exponent: its value, or the rest after the digit at which it grew too large. -/
def takeExponent (e : Nat) : Bytes → Except Bytes (Nat × Bytes)
  | [] => .ok (e, [])
  | b :: r =>
    if isDigit b then
      if e * 10 + digitValue b < exponentLimit then takeExponent (e * 10 + digitValue b) r
      else .error r
    else .ok (e, b :: r)

/-- The binary number `significand · 10 ^ exponent`, read up to `r`. -/
def scaled (significand : Nat) (exponent : Int) (r : Bytes) : Except Fault (Binary × Bytes) :=
  match Binary.ofScientific significand exponent with
  | some b => .ok (b, r)
  | none => fault .numberTooLarge r

/-- Reads an exponent after its mark. -/
def readExponent (significand : Nat) (exponent : Int) (r : Bytes) :
    Except Fault (Binary × Bytes) :=
  let (negative, r) := match r with
    | 0x2B :: r => (false, r)
    | 0x2D :: r => (true, r)
    | r => (false, r)
  match r with
  | [] => fault .endInValue []
  | b :: r =>
    if !isDigit b then fault .badNumber r
    else
      match takeExponent (digitValue b) r with
      | .ok (e, r) => scaled significand (if negative then exponent - e else exponent + e) r
      | .error r =>
        if significand ≠ 0 ∧ !negative then fault .numberTooLarge r
        else .ok (Binary.zero, r.dropWhile isDigit)

def isExponentMark (b : UInt8) : Bool := b = 0x65 || b = 0x45

/-- Reads what follows a significand: an exponent or nothing. -/
def readScale (significand : Nat) (exponent : Int) (r : Bytes) : Except Fault (Binary × Bytes) :=
  match r with
  | b :: r' => if isExponentMark b then readExponent significand exponent r'
    else scaled significand exponent r
  | [] => scaled significand exponent []

/-- Reads a fraction after its point, and what follows it. -/
def readFraction (significand : Nat) (exponent : Int) (r : Bytes) :
    Except Fault (Binary × Bytes) :=
  let (n, taken, rest) := takeDigits significand 0 r
  let rest' := rest.dropWhile isDigit
  match r with
  | [] => faultNext .endInValue []
  | b :: _ =>
    if isDigit b then readScale n (exponent - taken) rest' else faultNext .badNumber r

/-- The whole number `n` after a sign. -/
def wholeNumber (negative : Bool) (n : Nat) : Item :=
  if !negative then .integer n
  else if n = 0 ∨ 2 ^ 63 < n then .binary true (Binary.nearest n 1)
  else .integer (-n)

/-- Reads a number after its sign. -/
def readUnsigned (negative : Bool) (r : Bytes) : Except Fault (Item × Bytes) :=
  match r with
  | [] => fault .endInValue []
  | b :: r =>
    if !isDigit b then fault .badNumber r
    else if b = 0x30 ∧ (r.head?.any isDigit) then faultNext .badNumber r
    else
      let (n, _, rest) := takeDigits (digitValue b) 0 r
      let excess := rest.takeWhile isDigit
      let rest := rest.dropWhile isDigit
      let signed (x : Binary × Bytes) : Item × Bytes := (.binary negative x.1, x.2)
      match rest with
      | [] =>
        if excess = [] then .ok (wholeNumber negative n, [])
        else signed <$> scaled n excess.length []
      | c :: rest' =>
        if c = 0x2E then signed <$> readFraction n excess.length rest'
        else if isExponentMark c then signed <$> readExponent n excess.length rest'
        else if excess = [] then .ok (wholeNumber negative n, rest)
        else signed <$> scaled n excess.length rest

/-- Reads a number. -/
def readNumber : Reader Item
  | 0x2D :: r => readUnsigned true r
  | r => readUnsigned false r

/-! ## Passing over a number -/

/-- Passes over an exponent after its mark. -/
def skipExponent (r : Bytes) : Except Fault Bytes :=
  let r := match r with
    | 0x2B :: r => r
    | 0x2D :: r => r
    | r => r
  match r with
  | [] => fault .badNumber []
  | b :: r => if isDigit b then .ok (r.dropWhile isDigit) else fault .badNumber r

/-- Passes over a fraction after its point, and an exponent. -/
def skipFraction (r : Bytes) : Except Fault Bytes :=
  match r with
  | [] => faultNext .badNumber []
  | b :: _ =>
    if !isDigit b then faultNext .badNumber r
    else
      match r.dropWhile isDigit with
      | c :: r' => if isExponentMark c then skipExponent r' else .ok (c :: r')
      | [] => .ok []

/-- Passes over a number after its sign. -/
def skipUnsigned (r : Bytes) : Except Fault Bytes :=
  match r with
  | [] => fault .badNumber []
  | b :: r =>
    if !isDigit b then fault .badNumber r
    else if b = 0x30 ∧ (r.head?.any isDigit) then faultNext .badNumber r
    else
      match (if b = 0x30 then r else r.dropWhile isDigit) with
      | c :: r' =>
        if c = 0x2E then skipFraction r'
        else if isExponentMark c then skipExponent r'
        else .ok (c :: r')
      | [] => .ok []

end CustomsClaims.Json
