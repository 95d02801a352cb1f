/-!
# Request targets

A target is a path with a query after a question mark, possibly after a scheme and a host; what
follows a number sign is dropped. Paths are compared as they are written, without any decoding.
-/

namespace CustomsClaims.Http

/-- What a request is about. -/
structure Target where
  /-- A scheme and a host, or a host alone, or nothing. -/
  authority : String
  path : String
  query : Option String
deriving DecidableEq, Repr

namespace Target

/-- Splits a text before the first `c`; `none` if there is no `c`. -/
def cut (c : Char) (cs : List Char) : List Char × Option (List Char) :=
  match cs.dropWhile (· ≠ c) with
  | [] => (cs, none)
  | _ :: rest => (cs.takeWhile (· ≠ c), some rest)

/-- Where the host starts: after the scheme and its three marks. -/
def schemeLength? : List Char → Option Nat
  | ':' :: '/' :: '/' :: _ => some 3
  | c :: cs => if c = '/' ∨ c = '?' then none else (schemeLength? cs).map (· + 1)
  | [] => none

/-- Writes the usual schemes in lower case. -/
def lowerScheme (cs : List Char) : List Char :=
  let low := cs.map Char.toLower
  if low = "http://".toList ∨ low = "https://".toList then low else cs

/-- The target with the authority and a text that starts with its path. -/
def ofParts (authority cs : List Char) : Target :=
  let (cs, _) := cut '#' cs
  let (path, query) := cut '?' cs
  ⟨String.ofList authority, if path = [] then "/" else String.ofList path, query.map String.ofList⟩

/-- Reads a target. -/
def ofText (s : String) : Target :=
  let cs := s.toList
  if cs.head? = some '/' ∨ cs = ['*'] then ofParts [] cs
  else
    match schemeLength? cs with
    | none => ⟨s, "", none⟩
    | some n =>
      let ends (c : Char) : Bool := c = '/' || c = '?' || c = '#'
      let host := (cs.drop n).takeWhile (!ends ·)
      ofParts (lowerScheme (cs.take n) ++ host) ((cs.drop n).dropWhile (!ends ·))

def text (t : Target) : String :=
  t.authority ++ t.path ++
    match t.query with
    | some q => "?" ++ q
    | none => ""

end Target
end CustomsClaims.Http
