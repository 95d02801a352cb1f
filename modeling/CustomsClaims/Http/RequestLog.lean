import CustomsClaims.Http.Failure

/-!
# Logging requests

Each request is logged with its headers, its line and, if it may change something, its body, and
each response with its status (`withRequestLog`). To be logged, a body is read first; one that is
too long or breaks off is refused on the spot, and whoever is inside never sees the request.
-/

namespace CustomsClaims.Http

/-- A response, what was logged, and the state of the store afterwards. -/
structure Served (σ : Type) where
  response : Response
  log : List Event
  state : σ

/-- A way to serve requests on a store. -/
abbrev Serving (σ : Type) := Request → σ → Served σ

/-! ## Descriptions -/

/-- How many header lines are still shown when there is too much of them. -/
def shownHeaders : Nat := 10

/-- The headers as a text; only the first lines if all of them have more than `limit` bytes. -/
def Headers.shown (h : Headers) (limit : Nat) : String :=
  let joined (lines : List (String × Bytes)) : String :=
    String.intercalate ", "
      (lines.map fun (name, value) => "'" ++ name ++ "': '" ++ Utf8.decodeLossy value ++ "'")
  if limit < h.size then
    "\x7b" ++ joined (h.lines.take shownHeaders) ++ "\x7d... [Truncated due to size]"
  else "\x7b" ++ joined h.lines ++ "\x7d"

/-- A body as a text, if it has at most `limit` bytes. -/
def shownBody (body : Bytes) (limit : Nat) : String :=
  if body.length ≤ limit then Utf8.decodeLossy body else "[Too large to log]"

/-! ## Events -/

def headersSizeEvent (h : Headers) : Event :=
  let size := decimalText h.size
  ⟨.info, "Headers size: " ++ size ++ " bytes", [("headers_size", size)]⟩

def headersEvent (h : Headers) (limit : Nat) : Event :=
  ⟨.info, "Headers: " ++ h.shown limit, []⟩

def requestEvent (r : Request) : Event :=
  ⟨.info, "Request: " ++ r.method ++ " " ++ r.target.text,
    [("method", r.method), ("uri", r.target.text)]⟩

def bodySizeEvent (body : Bytes) : Event :=
  let size := decimalText body.length
  ⟨.info, "Body size: " ++ size ++ " bytes", [("body_size", size)]⟩

def bodyEvent (body : Bytes) (limit : Nat) : Event :=
  ⟨.info, "Body: " ++ shownBody body limit, []⟩

def rejectedEvent (f : BodyFault) (limit : Nat) : Event :=
  ⟨.warn, "Request body rejected", [("error", f.message), ("max_body_size", decimalText limit)]⟩

def statusEvent (s : Status) : Event :=
  let code := decimalText s.code
  ⟨.info, "Response status: " ++ code, [("status", code)]⟩

/-! ## Serving -/

/-- Is the body of a request with the method logged? -/
def mayChange (method : String) : Bool :=
  method ∈ ["POST", "PUT", "PATCH"]

/-- The events at the start of a request. -/
def openingEvents (r : Request) (maxLogSize : Nat) : List Event :=
  [headersSizeEvent r.headers, headersEvent r.headers maxLogSize, requestEvent r]

/-- The refusal of a body that was not read. -/
def refusedBody (limit : Nat) : Failure :=
  .bodyTooLarge ("Request body exceeds " ++ decimalText limit ++ " bytes")

/-- The result between events before and the event of its status after. -/
def Served.between {σ : Type} (opening : List Event) (x : Served σ) : Served σ :=
  { x with log := opening ++ x.log ++ [statusEvent x.response.status] }

/-- Logs requests and responses around a way to serve them. -/
def withRequestLog {σ : Type} (maxLogSize maxBodySize : Nat) (inner : Serving σ) : Serving σ :=
  fun r s =>
    let opening := openingEvents r maxLogSize
    if mayChange r.method then
      match r.body.read maxBodySize with
      | .error f =>
        Served.between opening
          ⟨(refusedBody maxBodySize).response, [rejectedEvent f maxBodySize], s⟩
      | .ok body =>
        Served.between (opening ++ [bodySizeEvent body, bodyEvent body maxLogSize])
          (inner { r with body := .whole body } s)
    else Served.between opening (inner r s)

end CustomsClaims.Http
