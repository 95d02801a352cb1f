import CustomsClaims.Json.Reader

/-!
# JSON strings

`readText` reads a string after its opening quote: escapes are replaced, surrogates must come in
pairs, and the bytes must be UTF-8. `skipText` passes over a string that nobody asks for and checks
only its escapes and control characters.
-/

namespace CustomsClaims.Json

/-- The byte that an escape of one letter stands for. -/
def shortEscape? (b : UInt8) : Option UInt8 :=
  if b = 0x22 ∨ b = 0x5C ∨ b = 0x2F then some b
  else if b = 0x62 then some 0x08
  else if b = 0x66 then some 0x0C
  else if b = 0x6E then some 0x0A
  else if b = 0x72 then some 0x0D
  else if b = 0x74 then some 0x09
  else none

/-- The value of a hexadecimal digit. -/
def hexDigit? (b : UInt8) : Option Nat :=
  if 0x30 ≤ b ∧ b ≤ 0x39 then some (b.toNat - 0x30)
  else if 0x41 ≤ b ∧ b ≤ 0x46 then some (b.toNat - 0x41 + 10)
  else if 0x61 ≤ b ∧ b ≤ 0x66 then some (b.toNat - 0x61 + 10)
  else none

/-- The value of four hexadecimal digits. -/
def hexFour? (a b c d : UInt8) : Option Nat := do
  let a ← hexDigit? a
  let b ← hexDigit? b
  let c ← hexDigit? c
  let d ← hexDigit? d
  return ((a * 16 + b) * 16 + c) * 16 + d

def isHighSurrogate (n : Nat) : Bool := 0xD800 ≤ n && n ≤ 0xDBFF

def isLowSurrogate (n : Nat) : Bool := 0xDC00 ≤ n && n ≤ 0xDFFF

/-- The character of a pair of surrogates. -/
def ofSurrogates (high low : Nat) : Char :=
  Char.ofNat ((high - 0xD800) * 0x400 + (low - 0xDC00) + 0x10000)

/-- Reads to the closing quote; `acc` holds the content so far, last byte first. -/
def scanText (acc : Bytes) : Bytes → Except Fault (Bytes × Bytes)
  | [] => fault .endInString []
  | 0x22 :: r => .ok (acc.reverse, r)
  | 0x5C :: 0x75 :: a :: b :: c :: d :: r =>
    match hexFour? a b c d with
    | none => fault .badEscape r
    | some n =>
      if isLowSurrogate n then fault .loneSurrogate r
      else if isHighSurrogate n then
        match r with
        | 0x5C :: 0x75 :: a :: b :: c :: d :: r =>
          match hexFour? a b c d with
          | none => fault .badEscape r
          | some m =>
            if isLowSurrogate m then
              scanText ((String.utf8EncodeChar (ofSurrogates n m)).reverse ++ acc) r
            else fault .loneSurrogate r
        | [] | [0x5C] => fault .endInString []
        | 0x5C :: 0x75 :: _ => fault .endInString []
        | 0x5C :: _ :: r => fault .unpairedSurrogate r
        | _ :: r => fault .unpairedSurrogate r
      else scanText ((String.utf8EncodeChar (Char.ofNat n)).reverse ++ acc) r
  | 0x5C :: 0x75 :: _ => fault .endInString []
  | 0x5C :: b :: r =>
    match shortEscape? b with
    | some e => scanText (e :: acc) r
    | none => fault .badEscape r
  | [0x5C] => fault .endInString []
  | b :: r => if b < 0x20 then fault .controlCharacter r else scanText (b :: acc) r

/-- Reads a string after its opening quote. Content that is no UTF-8 is refused once the closing
quote is found. The place is as far before the end of the string as the content has bytes from its
first bad one on, escapes counted by what they stand for. -/
def readText : Reader String := fun start => do
  let (content, r) ← scanText [] start
  match Utf8.decode? content with
  | some s => pure (s, r)
  | none => .error ⟨.badCodePoint, r.length + (content.length - Utf8.validLength content)⟩

/-- Passes over a string after its opening quote. -/
def skipText : Bytes → Except Fault Bytes
  | [] => fault .endInString []
  | 0x22 :: r => .ok r
  | 0x5C :: 0x75 :: a :: b :: c :: d :: r =>
    match hexFour? a b c d with
    | none => fault .badEscape r
    | some _ => skipText r
  | 0x5C :: 0x75 :: _ => fault .endInString []
  | 0x5C :: b :: r => if (shortEscape? b).isSome then skipText r else fault .badEscape r
  | [0x5C] => fault .endInString []
  | b :: r => if b < 0x20 then fault .controlCharacter (b :: r) else skipText r

end CustomsClaims.Json
