import CustomsClaims.Number.Layout
import CustomsClaims.Number.Numeral
import CustomsClaims.Text.Blank
import CustomsClaims.Text.Upper

/-!
# Tariff code patterns

A tariff code has the form `xxxx.xx.xx.xx`. A pattern has four sections between points, each of them
`*` for all digits of the section, or a sequence of digits, ranges of digits between braces such as
3-5, and `%d` for any digit. `Pattern.parse` reads a pattern after `normalize` has trimmed and
upper-cased it; `Pattern.parseAll` reads patterns between commas.
-/

namespace CustomsClaims.Tariff

/-- A part of a section. -/
inductive Token where
  | digit (c : Char)
  | range (low high : Nat)
  | anyDigit
  | wildcard
deriving DecidableEq, Repr

/-- Why a text is no pattern. -/
inductive Objection where
  | sectionCount
  | emptySection (number : Nat)
  | openRange (rest : List Char)
  | rangeForm (inside : List Char)
  | rangeDigits (inside : List Char)
  | rangeOrder (inside : List Char)
  | rangeTooHigh (inside : List Char)
  | loneWildcard
  | crowdedSection (text : List Char)
  | badCharacter (c : Char) (text : List Char)
deriving DecidableEq, Repr

/-- A text between braces and quotes. -/
def braced (cs : List Char) : String :=
  "\"\x7b" ++ String.ofList cs ++ "\x7d\""

def Objection.message : Objection → String
  | .sectionCount => "must have exactly 4 sections (xxxx.xx.xx.xx)"
  | .emptySection n => "section " ++ decimalText n ++ " is empty"
  | .openRange rest => "missing '\x7d' in range at \"" ++ String.ofList rest ++ "\""
  | .rangeForm inside => "invalid range syntax " ++ braced inside ++ ", expected \"\x7bx-y\x7d\""
  | .rangeDigits inside => "range " ++ braced inside ++ " must contain digits only"
  | .rangeOrder inside => "invalid range " ++ braced inside ++ ": start cannot exceed end"
  | .rangeTooHigh inside => "range " ++ braced inside ++ " must be within 0-9"
  | .loneWildcard => "incomplete wildcard '%', follow '%' with 'd'"
  | .crowdedSection text => "'*' must occupy the entire section: \"" ++ String.ofList text ++ "\""
  | .badCharacter c text =>
    "invalid character '" ++ c.toString ++ "' in section \"" ++ String.ofList text ++ "\""

/-- A text that is no pattern, and why. -/
structure InvalidPattern where
  pattern : String
  reason : Objection
deriving DecidableEq, Repr

def InvalidPattern.message (e : InvalidPattern) : String :=
  "Invalid HTS pattern \"" ++ e.pattern ++ "\": " ++ e.reason.message

/-! ## The normal form -/

/-- Writes each `%D` as `%d`. -/
def lowerWildcards : List Char → List Char
  | '%' :: 'D' :: cs => '%' :: 'd' :: lowerWildcards cs
  | c :: cs => c :: lowerWildcards cs
  | [] => []

/-- Trims and upper-cases a pattern, except for its `%d`. -/
def normalize (s : String) : String :=
  String.ofList (lowerWildcards (upperCase (trim s.toList)))

/-! ## Sections -/

/-- The number that a bound spells; it has to fit into eight bits. -/
def bound? (cs : List Char) : Option Nat :=
  (wholeNumber? cs).filter (· < 256)

/-- Reads what stands between braces: two bounds around the first hyphen. -/
def readRange (inside : List Char) : Except Objection Token :=
  match inside.dropWhile (· ≠ '-') with
  | [] | [_] => .error (.rangeForm inside)
  | _ :: high =>
    match bound? (inside.takeWhile (· ≠ '-')), bound? high with
    | some low, some high =>
      if high < low then .error (.rangeOrder inside)
      else if 9 < high then .error (.rangeTooHigh inside)
      else .ok (.range low high)
    | _, _ => .error (.rangeDigits inside)

/-- An open range: the text from its brace on, and what was read after the brace, last first. -/
structure OpenRange where
  start : List Char
  inside : List Char

/-- Reads the tokens of the section `text`. -/
def readTokens (text : List Char) : Option OpenRange → List Char → Except Objection (List Token)
  | none, [] => .ok []
  | some o, [] => .error (.openRange o.start)
  | some o, c :: cs =>
    if c = '}' then do
      let t ← readRange o.inside.reverse
      let ts ← readTokens text none cs
      return t :: ts
    else readTokens text (some { o with inside := c :: o.inside }) cs
  | none, '%' :: 'd' :: cs => do
    let ts ← readTokens text none cs
    return .anyDigit :: ts
  | none, c :: cs =>
    if c = '{' then readTokens text (some ⟨c :: cs, []⟩) cs
    else if c = '%' then .error .loneWildcard
    else if c = '*' then
      if text.length ≠ 1 then .error (.crowdedSection text)
      else do
        let ts ← readTokens text none cs
        return .wildcard :: ts
    else if isDigit c then do
      let ts ← readTokens text none cs
      return .digit c :: ts
    else .error (.badCharacter c text)

/-- Reads the section with that number, counted from 1. -/
def readSection (number : Nat) (text : List Char) : Except Objection (List Token) :=
  if text = [] then .error (.emptySection number) else readTokens text none text

/-! ## Patterns -/

/-- A pattern: its normal form and its four sections. -/
structure Pattern where
  text : String
  first : List Token
  second : List Token
  third : List Token
  fourth : List Token
deriving DecidableEq, Repr

namespace Pattern

/-- Reads the sections of a pattern in normal form, in their order. -/
def ofNormalForm (text : String) : Except Objection Pattern :=
  match splitAtChar '.' text.toList with
  | [a, b, c, d] => do
    return ⟨text, ← readSection 1 a, ← readSection 2 b, ← readSection 3 c, ← readSection 4 d⟩
  | _ => .error .sectionCount

/-- Reads a pattern. -/
def parse (s : String) : Except InvalidPattern Pattern :=
  (ofNormalForm (normalize s)).mapError (⟨normalize s, ·⟩)

/-- Reads the patterns between commas. Blank ones are left out; the first bad one is reported. -/
def parseAll (s : String) : Except InvalidPattern (List Pattern) :=
  (((splitAtChar ',' s.toList).map trim).filter (· ≠ [])).mapM (parse <| String.ofList ·)

end Pattern
end CustomsClaims.Tariff
