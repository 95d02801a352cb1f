import CustomsClaims.Settings.Environment
import CustomsClaims.Text.Alphanumeric
import CustomsClaims.Text.Blank
import CustomsClaims.Text.Utf8

/-!
# Environment files

An environment file sets variables that are not set already. A line is a name, an equals sign and a
value, after the word `export` at most; a number sign starts a comment, and an open quote takes
further lines into the value. In a value, single quotes keep everything, a backslash keeps the
character after it, and a dollar sign stands before the name of a variable whose value is inserted.
The file is read up to the first line that is none of this (`EnvFile.load`).
-/

namespace CustomsClaims.EnvFile

/-! ## Lines -/

/-- What is open after a character of a line. -/
inductive Opening where
  | none
  | blank
  | escape
  | double
  | doubleEscape
  | single
  | singleEscape
deriving DecidableEq, Repr

/-- What is open after one more character; `none` where a comment starts. -/
def Opening.step : Opening → Char → Option Opening
  | .blank, '#' => Option.none
  | .none, c | .blank, c =>
    if c = '\\' then some .escape
    else if c = '"' then some .double
    else if c = '\'' then some .single
    else some .none
  | .escape, _ => some .none
  | .double, c =>
    if c = '\\' then some .doubleEscape else if c = '"' then some .none else some .double
  | .doubleEscape, _ => some .double
  | .single, c =>
    if c = '\\' then some .singleEscape else if c = '\'' then some .none else some .single
  | .singleEscape, _ => some .single

/-- A blank outside of quotes, after which a comment may start; it counts only after another
character. -/
def Opening.next (o : Opening) (c : Char) : Option Opening :=
  if o = .none ∧ isBlank c ∧ c ≠ '\n' ∧ c ≠ '\r' then some .blank else o.step c

/-- The part of a line before a comment, and what is open at its end; nothing is open before a
comment. -/
def scanLine (o : Opening) : List Char → List Char × Opening
  | [] => ([], o)
  | c :: cs =>
    match o.next c with
    | Option.none => ([], .none)
    | some o =>
      let (kept, last) := scanLine o cs
      (c :: kept, last)

/-- The lines of a text, each with its line break. -/
def rawLines : Bytes → List Bytes
  | [] => []
  | b :: bs =>
    if b = 0x0A then [b] :: rawLines bs
    else
      match rawLines bs with
      | [] => [[b]]
      | l :: ls => (b :: l) :: ls

/-- A line, last character first, without its line break. -/
def dropLineBreak : List Char → List Char
  | '\n' :: '\r' :: cs => cs
  | '\n' :: cs => cs
  | cs => cs

/-- Joins lines while something is open; `back` holds the lines joined so far, last character first.
The list ends with `none` if the text ends there, or where a line is no UTF-8. -/
def joinLines (back : List Char) (o : Opening) : List Bytes → List (Option (List Char))
  | [] => if o = .none then [] else [Option.none]
  | l :: ls =>
    match Utf8.decode? l with
    | Option.none => [Option.none]
    | some s =>
      if back = [] ∧ (trimStart s.toList).head? = some '#' then some [] :: joinLines [] .none ls
      else
        let (kept, o) := scanLine o s.toList
        let back := kept.reverse ++ back
        if o = .none then some (dropLineBreak back).reverse :: joinLines [] .none ls
        else joinLines back o ls

/-! ## Values -/

/-- Where a reader of a value is. `quoted` tells whether that is between double quotes. -/
inductive Spot where
  | text (quoted : Bool)
  | single
  | escape (quoted : Bool)
  /-- In the name of a variable, last character first. -/
  | name (quoted : Bool) (letters : List Char)
  /-- In such a name between braces. -/
  | braced (quoted : Bool) (letters : List Char)
  /-- After the value. -/
  | after
deriving DecidableEq, Repr

/-- What is inserted for the reversed name. Variables are looked up in their written form, a name,
an equals sign and a value, so that a name with an equals sign finds the end of a value. Nothing is
inserted where there is none. -/
def insertion (env : Environment) (letters : List Char) : List Char :=
  let start := letters.reverse ++ ['=']
  let find (name value : String) : Option (List Char) :=
    let written := name.toList ++ '=' :: value.toList
    if start.isPrefixOf written then some (written.drop start.length) else none
  (env.findSome? fun (name, value) => find name value).getD []

/-- What is added to a value and where the reader is after one more character; `none` if the
character cannot stand there. -/
def Spot.step (env : Environment) : Spot → Char → Option (List Char × Spot)
  | .after, c => if c = ' ' ∨ c = '\t' then some ([], .after) else none
  | .escape quoted, c =>
    if c ∈ ['\\', '\'', '"', '$', ' '] then some ([c], .text quoted)
    else if c = 'n' then some (['\n'], .text quoted)
    else none
  | .single, c => if c = '\'' then some ([], .text false) else some ([c], .single)
  | .name quoted letters, c =>
    if isAlphanumeric c then some ([], .name quoted (c :: letters))
    else if c = '{' ∧ letters = [] then some ([], .braced quoted [])
    else if c = '$' then some (insertion env letters, .name quoted [])
    else some (insertion env letters ++ [c], .text quoted)
  | .braced quoted letters, c =>
    if c = '}' then some (insertion env letters, .text quoted)
    else some ([], .braced quoted (c :: letters))
  | .text quoted, c =>
    if c = '$' then some ([], .name quoted [])
    else if c = '\\' then some ([], .escape quoted)
    else if c = '"' then some ([], .text !quoted)
    else if quoted then some ([c], .text true)
    else if c = '\'' then some ([], .single)
    else if c = ' ' ∨ c = '\t' then some ([], .after)
    else some ([c], .text false)

/-- Reads a value to its end or to a comment after it. -/
def readValue (env : Environment) : Spot → List Char → Option (List Char)
  | .text false, [] | .escape false, [] | .after, [] => some []
  | .name false letters, [] => some (insertion env letters)
  | _, [] => none
  | spot, c :: cs =>
    if spot = .after ∧ c = '#' then some []
    else do
      let (added, spot) ← spot.step env c
      let rest ← readValue env spot cs
      return added ++ rest

/-! ## Assignments -/

/-- What a line says. -/
inductive Line where
  | blank
  | assignment (name value : String)
  | bad
deriving DecidableEq, Repr

/-- Reads the name of a variable. -/
def readName (cs : List Char) : Option (List Char × List Char) :=
  match cs with
  | [] => none
  | c :: _ =>
    if c.isAlpha ∨ c = '_' then
      let inName (c : Char) : Bool := c.isAlphanum || c = '_' || c = '.'
      some (cs.takeWhile inName, trimStart (cs.dropWhile inName))
    else none

/-- Reads a name, after the word `export` at most, and the equals sign. -/
def readAssigned (cs : List Char) : Option (List Char × List Char) := do
  match ← readName cs with
  | (name, '=' :: rest) => some (name, rest)
  | (name, rest) =>
    if name ≠ "export".toList then none
    else
      match ← readName rest with
      | (name, '=' :: rest) => some (name, rest)
      | _ => none

/-- Reads a line. -/
def readLine (env : Environment) (cs : List Char) : Line :=
  let cs := trim cs
  if cs = [] ∨ cs.head? = some '#' then .blank
  else
    match readAssigned cs with
    | none => .bad
    | some (name, rest) =>
      let rest := trimStart rest
      let value := if rest.head? = some '#' then some [] else readValue env (.text false) rest
      match value with
      | some value => .assignment (String.ofList name) (String.ofList value)
      | none => .bad

/-- The environment after the lines. -/
def loadLines (env : Environment) : List (Option (List Char)) → Environment
  | [] | none :: _ => env
  | some cs :: ls =>
    match readLine env cs with
    | .bad => env
    | .blank => loadLines env ls
    | .assignment name value =>
      loadLines (if (env.value? name).isSome then env else env ++ [(name, value)]) ls

/-- The environment with the variables of the file. A byte order mark at its start is left out. -/
def load (env : Environment) (content : Bytes) : Environment :=
  let text := if [0xEF, 0xBB, 0xBF].isPrefixOf content then content.drop 3 else content
  loadLines env (joinLines [] .none (rawLines text))

end CustomsClaims.EnvFile
