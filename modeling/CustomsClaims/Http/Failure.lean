import CustomsClaims.Http.Message
import CustomsClaims.Search.Params
import CustomsClaims.Store.Error
import CustomsClaims.Log.Event

/-!
# Failures of requests

Why a request is refused or fails, and the response to it. A refusal says what is wrong in a JSON
object; a failure of the store is logged, and the response does not tell about it.
-/

namespace CustomsClaims.Http

/-- Why a request is not carried out. -/
inductive Failure where
  | badRequest (message : String)
  | invalid (message : String) (details : List String)
  | bodyTooLarge (message : String)
  | store (e : StoreError)
deriving DecidableEq, Repr

/-- The response to whatever went wrong inside. -/
def internalError : Response := .plain .internalError "Internal server error"

namespace Failure

/-! ## Causes -/

/-- A body that a handler cannot read. -/
def ofBodyFault (f : BodyFault) : Failure :=
  let message := "Failed to buffer the request body: " ++ f.message
  match f with
  | .tooLong => .bodyTooLarge message
  | .broken _ => .badRequest message

/-- A body that is declared to be something else than JSON. -/
def otherMediaType : Failure :=
  .invalid "Request body must be JSON" ["Content-Type must be application/json"]

/-- A body that holds no claim. -/
def ofJsonError (e : Json.Error) : Failure :=
  let message := match e.kind with
    | .data => "Request body does not match the claim schema"
    | .eof | .malformed => "Request body is not valid JSON"
  .invalid message [e.message]

/-- Search parameters that cannot be read. -/
def ofParamsCause (c : Json.Cause) : Failure :=
  .invalid "Invalid search parameters" ["Failed to deserialize query string: " ++ c.message]

/-- Search parameters that ask for no query. -/
def ofQueryError (e : QueryError) : Failure :=
  .invalid "Invalid search parameters" [e.message]

/-! ## Responses -/

def message : Failure → String
  | badRequest m => "Bad request: " ++ m
  | invalid m _ => "Validation error: " ++ m
  | bodyTooLarge m => "Payload too large: " ++ m
  | store e => "Storage error: " ++ e.message

/-- The object that tells about a refusal. -/
def tree (kind message : String) (details : Option (List String)) : Json.Tree :=
  .object ([("error", .text kind), ("message", .text message)] ++
    match details with
    | some ds => [("details", .list (ds.map .text))]
    | none => [])

def response : Failure → Response
  | badRequest m => .json .badRequest (tree "bad_request" m none)
  | invalid m details => .json .unprocessable (tree "validation_error" m (some details))
  | bodyTooLarge m => .json .bodyTooLarge (tree "payload_too_large" m none)
  | store _ => internalError

/-- What is logged about the failure, but for one field: the event also has a `detail`, the debug form
of the error, which is left out here. -/
def log (f : Failure) : List Event :=
  match f with
  | store _ => [⟨.error, "Request failed with an unhandled error", [("error", f.message)]⟩]
  | _ => []

end Failure
end CustomsClaims.Http
