import CustomsClaims.Number.Binary

/-!
# Shortest decimal digits

`Binary.shortest` finds the decimal number on the coarsest decimal grid that still rounds to a given
binary number; of two such grid points the nearer, and of two equally near ones the one that the
caller's `Tie` names. A decimal number is a coefficient times a power of ten (`Digits`).
-/

namespace CustomsClaims

/-- The decimal number `coefficient · 10 ^ exponent`. -/
structure Digits where
  coefficient : Nat
  exponent : Int
deriving DecidableEq, Repr

/-- Which of two equally near decimal numbers is taken. -/
inductive Tie where
  /-- The one with the even last digit. -/
  | even
  /-- The larger one. -/
  | up
deriving DecidableEq, Repr

/-- How many decimal digits a number has; zero has one. -/
def decimalLength (n : Nat) : Nat :=
  (Nat.toDigits 10 n).length

namespace Binary

/-- The ends of the interval of numbers that round to `b`, and `b` itself, in units of
`2 ^ (b.exponent - 2)`. Below a power of two the interval reaches half as far. -/
def lowEnd (b : Binary) : Nat :=
  if b.mantissa = 2 ^ 52 ∧ -1074 < b.exponent then 4 * b.mantissa - 1 else 4 * b.mantissa - 2

def highEnd (b : Binary) : Nat := 4 * b.mantissa + 2

/-- The multiple of `10 ^ k` that rounds to `b`, divided by `10 ^ k`; the nearer one if there are
two neighbours of `b`. The ends of the interval belong to it if the mantissa is even. -/
def onGrid? (b : Binary) (tie : Tie) (k : Int) : Option Nat :=
  let unit := 2 ^ (b.exponent - 2).toNat * 10 ^ (-k).toNat
  let step := 2 ^ (2 - b.exponent).toNat * 10 ^ k.toNat
  let low := b.lowEnd * unit
  let high := b.highEnd * unit
  let value := 4 * b.mantissa * unit
  let inside (d : Nat) : Bool :=
    if b.mantissa % 2 = 0 then low ≤ d * step ∧ d * step ≤ high
    else low < d * step ∧ d * step < high
  let d := value / step
  match inside d, inside (d + 1) with
  | true, true =>
    let below := value - d * step
    let above := (d + 1) * step - value
    if below < above then some d
    else if above < below then some (d + 1)
    else
      match tie with
      | .even => if d % 2 = 0 then some d else some (d + 1)
      | .up => some (d + 1)
  | true, false => some d
  | false, true => some (d + 1)
  | false, false => none

/-- Tries the grids `10 ^ k`, `10 ^ (k - 1)`, … -/
def searchGrid (b : Binary) (tie : Tie) (k : Int) : (tries : Nat) → Option Digits
  | 0 => none
  | tries + 1 =>
    match b.onGrid? tie k with
    | some d => some ⟨d, k⟩
    | none => b.searchGrid tie (k - 1) tries

/-- The grid to start from: every number that rounds to `b` is below one step of it. -/
def startGrid (b : Binary) : Int :=
  let (n, d) := b.fraction
  (decimalLength n : Int) - decimalLength d + 2

/-- The shortest decimal number that rounds to `b`. Twenty-two grids suffice: seventeen digits tell
any two numbers of the format apart, and the start is at most four grids too coarse. -/
def shortest (b : Binary) (tie : Tie) : Digits :=
  if b.isZero then ⟨0, 0⟩
  else (b.searchGrid tie b.startGrid 22).getD ⟨0, 0⟩

end Binary
end CustomsClaims
