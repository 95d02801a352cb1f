import CustomsClaims.Log.Event
import CustomsClaims.Log.ValuePattern
import CustomsClaims.Number.Numeral
import CustomsClaims.Text.Alphanumeric
import CustomsClaims.Text.Blank

/-!
# Log filters

A filter decides which events are logged (`Filter.passes`). Its text has directives between commas:
a level alone, a target alone, or a target and a level with an equals sign between them. Brackets
may follow the target or stand for it, with the name of a span or, between braces, the name of a
value that an event must have.

A directive holds for the events whose target starts with its own. Of several that hold, the one
with the longest target decides, then one that asks for a value, and of equal ones the last. Where
no directive holds, nothing passes.
-/

namespace CustomsClaims

/-- From which level on events pass; `none` for no event at all. -/
abbrev Threshold := Option Level

namespace Threshold

/-- Does the threshold let the level pass? -/
def admits (t : Threshold) (l : Level) : Bool :=
  t.any fun least => least.weight ≤ l.weight

/-- The thresholds by their numbers. -/
def ofNumber? : Nat → Option Threshold
  | 0 => some none
  | 1 => some (some .error)
  | 2 => some (some .warn)
  | 3 => some (some .info)
  | 4 => some (some .debug)
  | 5 => some (some .trace)
  | _ => none

/-- Reads a threshold: a number, or a name in upper or lower case. -/
def ofText? (cs : List Char) : Option Threshold :=
  match wholeNumber? cs with
  | some n => ofNumber? n
  | none =>
    match String.ofList (cs.map Char.toLower) with
    | "error" => some (some .error)
    | "warn" => some (some .warn)
    | "info" => some (some .info)
    | "debug" => some (some .debug)
    | "trace" => some (some .trace)
    | "off" => some none
    | _ => none

end Threshold

/-- What a directive asks of an event beside its target. -/
inductive Demand where
  | nothing
  /-- The event has a value of that name. -/
  | value (name : String)
  /-- The event happens within a span that the directive describes; none does while the service
  starts. -/
  | span
deriving DecidableEq, Repr

namespace Demand

/-- The name that an event calls its message by. -/
def messageName : String := "message"

/-- Does the event meet the demand? -/
def isMet (d : Demand) (e : Event) : Bool :=
  match d with
  | nothing => true
  | value name => (messageName :: e.fields.map (·.1)).contains name
  | span => false

/-- Reads what stands between braces: the name of a value, or a name and a pattern for the value in
a span, with an equals sign between them; a second equals sign ends the pattern. -/
def ofBraces (cs : List Char) : Option Demand :=
  match cs.dropWhile (· ≠ '=') with
  | [] => if cs = [] then none else some (.value (String.ofList cs))
  | _ :: pattern =>
    if ValuePattern.isWellFormed (pattern.takeWhile (· ≠ '=')) then some .span else none

/-- Reads what follows an opening bracket, and what stands behind the closing one. -/
def read (cs : List Char) : Option (Demand × List Char) :=
  let inName (c : Char) : Bool := c ≠ ']' && c ≠ '\x7b'
  match cs.dropWhile inName with
  | ']' :: rest => some (.span, rest)
  | '\x7b' :: inner => do
    let demand ← ofBraces (inner.takeWhile (· ≠ '\x7d'))
    match inner.dropWhile (· ≠ '\x7d') with
    | '\x7d' :: ']' :: rest => some (if cs.takeWhile inName = [] then demand else .span, rest)
    | _ => none
  | _ => none

/-- How much a directive that asks for a value goes before others with the same target. -/
def rank : Demand → String
  | value name => name
  | _ => ""

end Demand

/-- A part of a filter: the threshold for the events whose target starts with `target` and that meet
the demand. -/
structure Directive where
  target : Option String
  demand : Demand
  threshold : Threshold
deriving DecidableEq, Repr

namespace Directive

/-! ## Reading -/

/-- The parts of a directive as they are written: the word it starts with, what stands in brackets,
and what stands behind an equals sign. -/
structure Parts where
  word : List Char
  demand : Option Demand
  level : Option (List Char)
deriving DecidableEq, Repr

/-- May a word start with the character? -/
def startsWord (c : Char) : Bool :=
  c ∈ ['-', ':', '_'] || isAlphanumeric c

/-- Reads what is left of a directive behind its word and its brackets: nothing, or a level. -/
def Parts.readLevel (p : Parts) : List Char → Option Parts
  | [] => some p
  | '=' :: cs => some { p with level := some cs }
  | _ => none

/-- Reads the parts of a directive that no white space stands around. -/
def Parts.read (cs : List Char) : Option Parts :=
  let inWord (c : Char) : Bool := c ≠ '=' && c ≠ '['
  let word := cs.takeWhile inWord
  if !cs.head?.any fun c => c = '[' || startsWord c then none
  else
    match cs.dropWhile inWord with
    | '[' :: cs => do
      let (demand, rest) ← Demand.read cs
      Parts.readLevel ⟨word, some demand, none⟩ rest
    | rest => Parts.readLevel ⟨word, none, none⟩ rest

/-- Reads a directive. White space at its end belongs to the level or to the only word. White space
at its start belongs to the target, which no event has then, and does not go with a level. -/
def ofText? (cs : List Char) : Option Directive := do
  let p ← Parts.read (trim cs)
  let blanks := cs.drop (trimEnd cs).length
  if cs.head?.any isBlank then
    if p.level.isNone then some ⟨some (String.ofList cs), .nothing, some .trace⟩ else none
  else
    let target := if p.word = [] then none else some (String.ofList p.word)
    match p.demand, p.level with
    | none, none =>
      match Threshold.ofText? cs with
      | some t => some ⟨none, .nothing, t⟩
      | none => some ⟨some (String.ofList cs), .nothing, some .trace⟩
    | demand, level =>
      let text := (level.map (· ++ blanks)).getD []
      let threshold ← if text = [] then some (some .trace) else Threshold.ofText? text
      some ⟨target, demand.getD .nothing, threshold⟩

/-! ## Deciding -/

/-- Does the directive hold for the event? -/
def holds (d : Directive) (e : Event) (target : String) : Bool :=
  d.demand.isMet e && d.target.all fun t => t.toList.isPrefixOf target.toList

/-- How closely the directive describes targets. -/
def detail (d : Directive) : Nat :=
  match d.target with
  | some t => t.utf8ByteSize + 1
  | none => 0

/-- Does the first of two directives that hold go before the second, which comes later? -/
def precedes (a b : Directive) : Bool :=
  b.detail < a.detail || (b.detail = a.detail && b.demand.rank < a.demand.rank)

end Directive

/-- A log filter, as its directives. -/
structure Filter where
  directives : List Directive
deriving DecidableEq, Repr

namespace Filter

/-- The filter that passes the events of a level and above. -/
def ofLevel (l : Level) : Filter := ⟨[⟨none, .nothing, some l⟩]⟩

/-- Reads a filter; `none` if one of its directives cannot be read. -/
def ofText? (s : String) : Option Filter := do
  let parts := (splitAtChar ',' s.toList).filter (· ≠ [])
  return ⟨← parts.mapM Directive.ofText?⟩

/-- The directive that decides, of the one found so far and one that comes later. -/
def better (a : Option Directive) (b : Directive) : Option Directive :=
  match a with
  | some a => if a.precedes b then some a else some b
  | none => some b

/-- The directive that decides about the event. -/
def decisive? (f : Filter) (e : Event) (target : String) : Option Directive :=
  (f.directives.filter (·.holds e target)).foldl better none

/-- Is an event with that target logged? -/
def passes (f : Filter) (e : Event) (target : String) : Bool :=
  (f.decisive? e target).any (·.threshold.admits e.level)

end Filter
end CustomsClaims
