import CustomsClaims.Number.Digits

/-!
# Decimal numbers in text

`Digits.positional` writes every digit in its place; `Digits.jsonText` is the form of a JSON number:
positional with at least one fractional digit while the first digit stands between the fifth place
after the point and the sixteenth before it, and with an exponent of explicit sign elsewhere.
-/

namespace CustomsClaims

/-- The decimal digits of a number. -/
def decimalText (n : Nat) : String :=
  String.ofList (Nat.toDigits 10 n)

/-- The decimal digits of a number after a minus sign if it is negative. -/
def signedText (i : Int) : String :=
  match i with
  | .ofNat n => decimalText n
  | .negSucc n => "-" ++ decimalText (n + 1)

/-- `n` times the digit zero. -/
def zeros (n : Nat) : String :=
  String.ofList (List.replicate n '0')

namespace Digits

/-- All digits in their places, with a point only before fractional digits. -/
def positional (d : Digits) : String :=
  let ds := Nat.toDigits 10 d.coefficient
  match d.exponent with
  | .ofNat n => String.ofList ds ++ zeros n
  | .negSucc n =>
    let places := n + 1
    if places < ds.length then
      String.ofList (ds.take (ds.length - places)) ++ "." ++
        String.ofList (ds.drop (ds.length - places))
    else "0." ++ zeros (places - ds.length) ++ String.ofList ds

/-- The exponent of the form with one digit before the point. -/
def leadingExponent (d : Digits) : Int :=
  (decimalLength d.coefficient : Int) + d.exponent - 1

/-- One digit before the point, if needed the others after it, and the exponent. -/
def exponential (d : Digits) : String :=
  let e := d.leadingExponent
  let mantissa :=
    match Nat.toDigits 10 d.coefficient with
    | [] => ""
    | [c] => c.toString
    | c :: cs => c.toString ++ "." ++ String.ofList cs
  mantissa ++ "e" ++ (if 0 ≤ e then "+" else "-") ++ decimalText e.natAbs

/-- The form of a JSON number that is not an integer. -/
def jsonText (d : Digits) : String :=
  if d.coefficient = 0 then "0.0"
  else if -5 ≤ d.leadingExponent ∧ d.leadingExponent < 16 then
    if 0 ≤ d.exponent then d.positional ++ ".0" else d.positional
  else d.exponential

end Digits

/-- A binary number as a JSON number: its shortest digits, an even last digit on a tie. -/
def Binary.jsonText (negative : Bool) (b : Binary) : String :=
  (if negative then "-" else "") ++ (b.shortest .even).jsonText

end CustomsClaims
