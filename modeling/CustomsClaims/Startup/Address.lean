import CustomsClaims.Number.Layout
import CustomsClaims.Number.Numeral
import CustomsClaims.Text.Quoted

/-!
# Network addresses

An address to listen at is four numbers between points and a port, or eight groups of hexadecimal
digits between brackets and a port. The longest run of zero groups may be left out of the second
form. `Address.ofText?` reads both, `Address.text` writes them.
-/

namespace CustomsClaims

/-- An address to listen at. -/
inductive Address where
  | short (octets : List Nat) (port : Nat)
  | long (groups : List Nat) (scope port : Nat)
deriving DecidableEq, Repr

namespace Address

def port : Address → Nat
  | short _ port => port
  | long _ _ port => port

/-! ## Reading -/

/-- The value of a hexadecimal digit. -/
def hexValue? (c : Char) : Option Nat :=
  if isDigit c then some (c.toNat - '0'.toNat)
  else if 'a' ≤ c ∧ c ≤ 'f' then some (c.toNat - 'a'.toNat + 10)
  else if 'A' ≤ c ∧ c ≤ 'F' then some (c.toNat - 'A'.toNat + 10)
  else none

/-- Reads a decimal number below `limit`. -/
def readDecimal (limit : Nat) (cs : List Char) : Option (Nat × List Char) :=
  let ds := cs.takeWhile isDigit
  if ds = [] ∨ limit ≤ number ds then none else some (number ds, cs.dropWhile isDigit)

/-- Reads a number below 256 of at most three digits, without a zero before others. -/
def readOctet (cs : List Char) : Option (Nat × List Char) := do
  let ds := cs.takeWhile isDigit
  if 3 < ds.length ∨ (ds.head? = some '0' ∧ ds.length ≠ 1) then none
  readDecimal 256 cs

/-- Reads the character. -/
def readMark (c : Char) : List Char → Option (List Char)
  | d :: cs => if d = c then some cs else none
  | [] => none

/-- Reads four octets between points. -/
def readOctets (cs : List Char) : Option (List Nat × List Char) := do
  let (a, cs) ← readOctet cs
  let (b, cs) ← readOctet (← readMark '.' cs)
  let (c, cs) ← readOctet (← readMark '.' cs)
  let (d, cs) ← readOctet (← readMark '.' cs)
  return ([a, b, c, d], cs)

/-- Reads a group of one to four hexadecimal digits. -/
def readGroup (cs : List Char) : Option (Nat × List Char) :=
  let ds := cs.takeWhile fun c => (hexValue? c).isSome
  if ds = [] ∨ 4 < ds.length then none
  else some (ds.foldl (fun n c => n * 16 + (hexValue? c).getD 0) 0, cs.drop ds.length)

/-- Reads at most `most` groups with colons between them; four octets may stand for the last two.
Also tells whether they did. -/
def readGroups (first : Bool) (cs : List Char) : (most : Nat) → List Nat × Bool × List Char
  | 0 => ([], false, cs)
  | most + 1 =>
    match (if first then some cs else readMark ':' cs) with
    | none => ([], false, cs)
    | some rest =>
      match (if most = 0 then none else readOctets rest), readGroup rest with
      | some ([a, b, c, d], after), _ => ([a * 256 + b, c * 256 + d], true, after)
      | _, some (g, after) =>
        let (gs, octets, after) := readGroups false after most
        (g :: gs, octets, after)
      | _, none => ([], false, cs)

/-- Reads eight groups, of which zeros may be left out between two colons. -/
def readLong (cs : List Char) : Option (List Nat × List Char) := do
  let (front, octets, cs) := readGroups true cs 8
  if front.length = 8 then return (front, cs)
  if octets then none
  let cs ← readMark ':' (← readMark ':' cs)
  let (back, _, cs) := readGroups true cs (7 - front.length)
  return (front ++ List.replicate (8 - front.length - back.length) 0 ++ back, cs)

/-- Reads a port after a colon, to the end of the text. -/
def readPort (cs : List Char) : Option Nat := do
  match ← readDecimal (2 ^ 16) (← readMark ':' cs) with
  | (n, []) => some n
  | _ => none

/-- Reads an address with its port. -/
def ofText? (s : String) : Option Address :=
  match s.toList with
  | '[' :: cs => do
    let (groups, cs) ← readLong cs
    let (scope, cs) ← match cs with
      | '%' :: cs => readDecimal (2 ^ 32) cs
      | cs => some (0, cs)
    return .long groups scope (← readPort (← readMark ']' cs))
  | cs => do
    let (octets, cs) ← readOctets cs
    return .short octets (← readPort cs)

/-! ## Writing -/

/-- The numbers between points. -/
def octetsText (octets : List Nat) : String :=
  String.intercalate "." (octets.map decimalText)

/-- The groups between colons. -/
def groupsText (groups : List Nat) : String :=
  String.intercalate ":" (groups.map hexText)

/-- How many zero groups stand at the start. -/
def zeroRun (groups : List Nat) : Nat :=
  (groups.takeWhile (· = 0)).length

/-- The length and the start of the longest run of zero groups, the first of several. -/
def longestRun : List Nat → (start : Nat) → Nat × Nat
  | [], start => (0, start)
  | g :: gs, start =>
    let here := zeroRun (g :: gs)
    let (later, place) := longestRun gs (start + 1)
    if later ≤ here then (here, start) else (later, place)

/-- The groups, with the longest run of more than one zero left out; addresses of the first form
that were mapped into the second one show their octets. -/
def longText (groups : List Nat) : String :=
  match groups with
  | [0, 0, 0, 0, 0, 0xFFFF, g, h] =>
    "::ffff:" ++ octetsText [g / 256, g % 256, h / 256, h % 256]
  | _ =>
    let (length, start) := longestRun groups 0
    if length ≤ 1 then groupsText groups
    else groupsText (groups.take start) ++ "::" ++ groupsText (groups.drop (start + length))

def text : Address → String
  | short octets port => octetsText octets ++ ":" ++ decimalText port
  | long groups scope port =>
    "[" ++ longText groups ++ (if scope = 0 then "" else "%" ++ decimalText scope) ++ "]:" ++
      decimalText port

end Address
end CustomsClaims
