import CustomsClaims.Number.Numeral

/-!
# Binary numbers

Finite numbers of the 64-bit binary format without their sign: `mantissa · 2 ^ exponent`, with a
mantissa below `2 ^ 53` and an exponent from -1074 on. Arithmetic is exact on natural numbers and
rounds once, to the nearest such number, a half to the even mantissa (`Binary.nearest`). The
exponent has no upper end here; `Binary.isFinite` says where the format ends.
-/

namespace CustomsClaims

/-- The natural number nearest to `num / den`, a half going to the even one. -/
def roundHalfEven (num den : Nat) : Nat :=
  let q := num / den
  let r := num % den
  if 2 * r < den then q
  else if den < 2 * r then q + 1
  else if q % 2 = 0 then q
  else q + 1

/-- The largest `e` with `2 ^ e ≤ num / den`, for positive `num` and `den`. -/
def floorLog2 (num den : Nat) : Int :=
  let e : Int := (num.log2 : Int) - (den.log2 : Int)
  if den * 2 ^ e.toNat ≤ num * 2 ^ (-e).toNat then e else e - 1

/-- A binary number `mantissa · 2 ^ exponent`. -/
structure Binary where
  mantissa : Nat
  exponent : Int
deriving DecidableEq, Repr

namespace Binary

/-- Zero. -/
def zero : Binary := ⟨0, -1074⟩

def isZero (b : Binary) : Bool := b.mantissa = 0

/-- The binary number nearest to `num / den`. -/
def nearest (num den : Nat) : Binary :=
  if num = 0 then zero
  else
    let e := max (floorLog2 num den - 52) (-1074)
    let m := roundHalfEven (num * 2 ^ (-e).toNat) (den * 2 ^ e.toNat)
    if m = 2 ^ 53 then ⟨2 ^ 52, e + 1⟩ else ⟨m, e⟩

/-- Does the format hold the number? Its largest exponent is 971. -/
def isFinite (b : Binary) : Bool := b.exponent ≤ 971

/-- The number as a fraction: numerator and denominator. -/
def fraction (b : Binary) : Nat × Nat :=
  (b.mantissa * 2 ^ b.exponent.toNat, 2 ^ (-b.exponent).toNat)

/-- The rounded product. -/
def mul (a b : Binary) : Binary :=
  let (n, d) := a.fraction
  let (n', d') := b.fraction
  nearest (n * n') (d * d')

/-- The rounded quotient, for a divisor other than zero. -/
def div (a b : Binary) : Binary :=
  let (n, d) := a.fraction
  let (n', d') := b.fraction
  nearest (n * d') (d * n')

/-- The binary number nearest to `10 ^ n`. -/
def tenPower (n : Nat) : Binary := nearest (10 ^ n) 1

/-! ## Numbers in scientific form -/

/-- The largest power of ten that one multiplication or division goes by. -/
def maxTenPower : Nat := 308

/-- Divides by `10 ^ (n + 308 · rounds)`: `rounds` times by `10 ^ 308` as long as the value is not
zero, then by `10 ^ n`. -/
def divTenPower (b : Binary) (n : Nat) : (rounds : Nat) → Binary
  | 0 => b.div (tenPower n)
  | rounds + 1 => if b.isZero then b else (b.div (tenPower maxTenPower)).divTenPower n rounds

/-- A significand of up to 64 bits times a power of ten: the significand is rounded, then multiplied
or divided by the rounded power, and rounded again. `none` if the value is beyond the format. -/
def ofScientific (significand : Nat) (exponent : Int) : Option Binary :=
  let b := nearest significand 1
  match exponent with
  | .ofNat n =>
    if n ≤ maxTenPower then
      let p := b.mul (tenPower n)
      if p.isFinite then some p else none
    else if b.isZero then some b
    else none
  | .negSucc n => some (b.divTenPower (n % maxTenPower + 1) (n / maxTenPower))

end Binary
end CustomsClaims
