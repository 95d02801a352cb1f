/-!
# UTF-8

Texts travel as bytes. `Utf8.encode` writes a string, `Utf8.decode?` reads one back and refuses
bytes that are no UTF-8, and `Utf8.decodeLossy` reads any bytes, writing U+FFFD for each maximal
ill-formed piece. Both readers share one machine, `Utf8.pieces`, which takes one byte at a time.
-/

namespace CustomsClaims

/-- A text or a file as the bytes it is made of. -/
abbrev Bytes := List UInt8

namespace Utf8

/-- The bytes of a list of characters. -/
def encodeChars (cs : List Char) : Bytes :=
  cs.flatMap String.utf8EncodeChar

/-- The bytes of a string. -/
def encode (s : String) : Bytes :=
  encodeChars s.toList

/-! ## Reading -/

/-- What a decoder owes: nothing between characters, or the continuation bytes of a character whose
lead byte and `value` bits so far are known. The next byte must lie between `low` and `high`, and
`more` continuation bytes follow it; `width` bytes were read. -/
inductive State where
  | between
  | within (low high : UInt8) (more : Nat) (value : Nat) (width : Nat)
deriving DecidableEq, Repr

/-- A piece of a byte string: a character, or that many bytes that belong to none. -/
inductive Piece where
  | char (c : Char)
  | bad (width : Nat)
deriving DecidableEq, Repr

/-- The first byte of a character. The narrowed ranges after E0, ED, F0 and F4 keep out overlong
forms, surrogates and values above U+10FFFF. -/
def begin (b : UInt8) : List Piece × State :=
  if b < 0x80 then ([.char (Char.ofNat b.toNat)], .between)
  else if b < 0xC2 then ([.bad 1], .between)
  else if b < 0xE0 then ([], .within 0x80 0xBF 0 (b.toNat - 0xC0) 1)
  else if b < 0xF0 then
    ([], .within (if b = 0xE0 then 0xA0 else 0x80) (if b = 0xED then 0x9F else 0xBF) 1
      (b.toNat - 0xE0) 1)
  else if b < 0xF5 then
    ([], .within (if b = 0xF0 then 0x90 else 0x80) (if b = 0xF4 then 0x8F else 0xBF) 2
      (b.toNat - 0xF0) 1)
  else ([.bad 1], .between)

/-- One more byte: the pieces it completes, and what is owed after it. -/
def State.step : State → UInt8 → List Piece × State
  | .between, b => begin b
  | .within low high more value width, b =>
    if low ≤ b ∧ b ≤ high then
      match more with
      | 0 => ([.char (Char.ofNat (value * 64 + (b.toNat - 0x80)))], .between)
      | more + 1 => ([], .within 0x80 0xBF more (value * 64 + (b.toNat - 0x80)) (width + 1))
    else
      let (ps, s) := begin b
      (.bad width :: ps, s)

/-- The piece that a text ending here leaves. -/
def State.finish : State → List Piece
  | .between => []
  | .within _ _ _ _ width => [.bad width]

/-- The pieces of a byte string, read from state `s`; `acc` holds the earlier ones, last first. -/
def piecesFrom (s : State) (acc : List Piece) : Bytes → List Piece
  | [] => acc.reverse ++ s.finish
  | b :: bs =>
    let (ps, s') := s.step b
    piecesFrom s' (ps.reverse ++ acc) bs

/-- The characters and the ill-formed pieces of a byte string, in order. -/
def pieces (bs : Bytes) : List Piece :=
  piecesFrom .between [] bs

/-- The character of a piece, unless it is ill-formed. -/
def Piece.char? : Piece → Option Char
  | .char c => some c
  | .bad _ => none

/-- The text that the bytes spell; `none` if they are not UTF-8. -/
def decode? (bs : Bytes) : Option String :=
  ((pieces bs).mapM Piece.char?).map String.ofList

/-- The text that the bytes spell, with U+FFFD for each ill-formed piece. -/
def decodeLossy (bs : Bytes) : String :=
  String.ofList ((pieces bs).map fun p => p.char?.getD '\uFFFD')

/-- How many bytes stand before the first ill-formed piece. -/
def validLength (bs : Bytes) : Nat :=
  let valid := (pieces bs).takeWhile fun p => p.char?.isSome
  valid.foldl (fun n p => n + (p.char?.map Char.utf8Size).getD 0) 0

end Utf8

end CustomsClaims
