import CustomsClaims.Http.Target
import CustomsClaims.Json.Printer

/-!
# Requests and responses

A request has a method, a target, headers and a body; a response has a status, headers and a body.
The body of a request is read up to a limit (`Body.read`) and may break off before its end.
-/

namespace CustomsClaims.Http

/-! ## Headers -/

/-- Header lines, their names in lower case. The lines of one name stand together, where the first
of them came. -/
structure Headers where
  lines : List (String × Bytes)
deriving DecidableEq, Repr

namespace Headers

/-- Puts a line after the last one of its name, or at the end. -/
def insert (name : String) (value : Bytes) : List (String × Bytes) → List (String × Bytes)
  | [] => [(name, value)]
  | l :: ls =>
    if l.1 = name ∧ ls.all (·.1 ≠ name) then l :: (name, value) :: ls
    else l :: insert name value ls

/-- The headers with one more line. -/
def add (h : Headers) (name : String) (value : Bytes) : Headers :=
  ⟨insert (name.map Char.toLower) value h.lines⟩

/-- The headers of a request whose lines came in this order. -/
def ofList (lines : List (String × Bytes)) : Headers :=
  lines.foldl (fun h (name, value) => h.add name value) ⟨[]⟩

/-- The first value of the name. -/
def first? (h : Headers) (name : String) : Option Bytes :=
  (h.lines.find? (·.1 = name)).map (·.2)

/-- The bytes of all names and values. -/
def size (h : Headers) : Nat :=
  h.lines.foldl (fun n (name, value) => n + name.utf8ByteSize + value.length) 0

end Headers

/-! ## Requests -/

/-- The body of a request: the bytes that arrive and, if it breaks off after them, why. -/
structure Body where
  bytes : Bytes
  breaks : Option String
deriving DecidableEq, Repr

/-- Why a body cannot be read. -/
inductive BodyFault where
  | tooLong
  | broken (cause : String)
deriving DecidableEq, Repr

def BodyFault.message : BodyFault → String
  | .tooLong => "length limit exceeded"
  | .broken cause => cause

namespace Body

/-- A body that does not break off. -/
def whole (bytes : Bytes) : Body := ⟨bytes, none⟩

/-- Reads a body of at most `limit` bytes. A body that is too long is not read to its end. -/
def read (b : Body) (limit : Nat) : Except BodyFault Bytes :=
  if limit < b.bytes.length then .error .tooLong
  else
    match b.breaks with
    | some cause => .error (.broken cause)
    | none => .ok b.bytes

end Body

/-- A request. -/
structure Request where
  method : String
  target : Target
  headers : Headers
  body : Body
deriving DecidableEq, Repr

/-! ## Responses -/

/-- How a request ended. -/
inductive Status where
  | ok
  | badRequest
  | notFound
  | methodNotAllowed
  | bodyTooLarge
  | unprocessable
  | internalError
  | unavailable
deriving DecidableEq, Repr

def Status.code : Status → Nat
  | .ok => 200
  | .badRequest => 400
  | .notFound => 404
  | .methodNotAllowed => 405
  | .bodyTooLarge => 413
  | .unprocessable => 422
  | .internalError => 500
  | .unavailable => 503

/-- A response. -/
structure Response where
  status : Status
  headers : List (String × String)
  body : Bytes
deriving DecidableEq, Repr

namespace Response

/-- A response without a body. -/
def empty (status : Status) : Response := ⟨status, [], []⟩

/-- A response with a JSON text. -/
def json (status : Status) (t : Json.Tree) : Response :=
  ⟨status, [("content-type", "application/json")], t.compact⟩

/-- A response with a plain text. -/
def plain (status : Status) (text : String) : Response :=
  ⟨status, [("content-type", "text/plain; charset=utf-8")], Utf8.encode text⟩

end Response
end CustomsClaims.Http
