import CustomsClaims.Calendar.Date
import CustomsClaims.Number.Numeral
import CustomsClaims.Text.Blank

/-!
# Dates in text

`Date.text` writes year, month and day between hyphens, the year with four digits or, outside
0 to 9999, with a sign and at least four. `Date.ofText?` also takes white space before each number
and hyphen and at the end, shorter numbers, and any number of digits in a year with a sign.
-/

namespace CustomsClaims

/-- Why a text is no date. -/
inductive DateError where
  | tooShort
  | invalid
  | outOfRange
  | trailing
deriving DecidableEq, Repr

def DateError.message : DateError → String
  | .tooShort => "premature end of input"
  | .invalid => "input contains invalid characters"
  | .outOfRange => "input is out of range"
  | .trailing => "trailing input"

namespace Date

/-! ## Writing -/

/-- A number with at least `width` digits. -/
def padded (width n : Nat) : String :=
  let ds := Nat.toDigits 10 n
  String.ofList (List.replicate (width - ds.length) '0' ++ ds)

def yearText (year : Int) : String :=
  match year with
  | .ofNat n => if n ≤ 9999 then padded 4 n else "+" ++ padded 4 n
  | .negSucc n => "-" ++ padded 4 (n + 1)

def text (d : Date) : String :=
  yearText d.year ++ "-" ++ padded 2 d.month ++ "-" ++ padded 2 d.day

instance : ToString Date := ⟨text⟩

/-! ## Reading -/

/-- Reads up to `most` digits; without a bound if there is none. -/
def readNumber (most : Option Nat) (cs : List Char) : Except DateError (Nat × List Char) :=
  let ds := cs.takeWhile isDigit
  let ds := match most with
    | some n => ds.take n
    | none => ds
  match cs, ds with
  | [], _ => .error .tooShort
  | _, [] => .error .invalid
  | _, ds => .ok (number ds, cs.drop ds.length)

/-- Reads a year: four digits at most, or a sign and any number of digits. A year beyond 32 bits is
out of range before anything after it is read. -/
def readYear (cs : List Char) : Except DateError (Int × List Char) := do
  let (y, rest) ←
    match trimStart cs with
    | '-' :: cs => do
      let (n, rest) ← readNumber none cs
      pure (-(n : Int), rest)
    | '+' :: cs => do
      let (n, rest) ← readNumber none cs
      pure ((n : Int), rest)
    | cs => do
      let (n, rest) ← readNumber (some 4) cs
      pure ((n : Int), rest)
  if -2 ^ 31 ≤ y ∧ y < 2 ^ 31 then pure (y, rest) else throw .outOfRange

/-- Reads a month or a day: one or two digits, a number from 1 to `most`. -/
def readPart (most : Nat) (cs : List Char) : Except DateError (Nat × List Char) := do
  let (n, rest) ← readNumber (some 2) (trimStart cs)
  if 1 ≤ n ∧ n ≤ most then pure (n, rest) else throw .outOfRange

/-- Reads white space and a hyphen. -/
def readHyphen (cs : List Char) : Except DateError (List Char) :=
  match trimStart cs with
  | [] => .error .tooShort
  | '-' :: rest => .ok rest
  | _ => .error .invalid

/-- Reads a date that fills the text. -/
def ofText? (s : String) : Except DateError Date := do
  let (year, cs) ← readYear s.toList
  let cs ← readHyphen cs
  let (month, cs) ← readPart 12 cs
  let cs ← readHyphen cs
  let (day, cs) ← readPart 31 cs
  if trimStart cs ≠ [] then throw .trailing
  match ofParts? year month day with
  | some d => pure d
  | none => throw .outOfRange

end Date
end CustomsClaims
