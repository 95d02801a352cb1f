import CustomsClaims.Claim.Json
import CustomsClaims.Http.Failure
import CustomsClaims.Http.MediaType
import CustomsClaims.Store.Basic

/-!
# Endpoints

The paths of the service, the methods that each of them takes, and what a request does there
(`Endpoint.handle`). Nothing here logs requests or catches panics; `Http.Service` adds that.
-/

namespace CustomsClaims.Http

/-! ## Results -/

/-- What handling a request gives: a response, or what a panic carried; the events logged; and the
state of the store afterwards. -/
structure Handled (σ : Type) where
  ending : Except Payload Response
  log : List Event
  state : σ

/-- A response and what is logged about it. -/
abbrev Answered := Response × List Event

namespace Handled

variable {σ : Type}

/-- A response for which the store is not asked. -/
def still (a : Answered) (s : σ) : Handled σ := ⟨.ok a.1, a.2, s⟩

/-- A response by what the store replied. -/
def ofReply {α : Type} (good : α → Answered) (bad : StoreError → Answered) (r : Reply σ α) :
    Handled σ :=
  match r.answer with
  | .ok a => ⟨.ok (good a).1, r.log ++ (good a).2, r.state⟩
  | .failed e => ⟨.ok (bad e).1, r.log ++ (bad e).2, r.state⟩
  | .panicked p => ⟨.error p, r.log, r.state⟩

end Handled

/-- The response to a failure. -/
def Failure.answered (f : Failure) : Answered := (f.response, f.log)

/-! ## Answers -/

/-- The version of the service. -/
def version : String := "0.1.0"

def healthTree (status : String) : Json.Tree :=
  .object [("status", .text status), ("version", .text version)]

def healthy : Answered := (.json .ok (healthTree "healthy"), [])

def ready : Answered := (.json .ok (healthTree "ready"), [])

def notReady (e : StoreError) : Answered :=
  (.empty .unavailable, [⟨.warn, "Claim store is not readable", [("error", e.message)]⟩])

def listed (cs : List Claim) : Answered := (.json .ok (ClaimList.tree cs), [])

def found (q : Query) (cs : List Claim) : Answered :=
  (.json .ok (ClaimList.tree (q.apply cs)),
    [⟨.debug, "Claim search", [("total", decimalText cs.length),
      ("matched", decimalText (q.apply cs).length)]⟩])

def saved (c : Claim) : Answered :=
  (.json .ok (.object [("message", .text "Claim saved successfully"), ("claim", c.tree)]),
    [⟨.info, "Claim saved", [("claim_id", signedText c.claimID.toInt)]⟩])

/-! ## Requests -/

/-- The claim that a request brings. -/
def Request.claim? (r : Request) (maxBodySize : Nat) : Except Failure Claim := do
  let body ← (r.body.read maxBodySize).mapError .ofBodyFault
  if !r.headers.allowJson then throw .otherMediaType
  (Claim.parse body).mapError .ofJsonError

/-- The query that a request asks for on the day `today`. -/
def Request.query? (r : Request) (today : Date) : Except Failure Query := do
  let params ← (SearchParams.parse (Utf8.encode (r.target.query.getD ""))).mapError .ofParamsCause
  (params.query today).mapError .ofQueryError

/-- The paths of the service. -/
inductive Endpoint where
  | health
  | readiness
  | claims
  | search
deriving DecidableEq, Repr

namespace Endpoint

def all : List Endpoint := [health, readiness, claims, search]

def path : Endpoint → String
  | health => "/health"
  | readiness => "/health/ready"
  | claims => "/api/claims"
  | search => "/api/claims/search"

/-- The endpoint at the path. -/
def ofPath? (path : String) : Option Endpoint :=
  all.find? (·.path = path)

/-- The methods that the endpoint takes. -/
def methods : Endpoint → List String
  | claims => ["POST", "GET", "HEAD"]
  | _ => ["GET", "HEAD"]

variable {σ : Type}

/-- Stores the claim that the request brings. -/
def create (store : ClaimStore σ) (maxBodySize : Nat) (r : Request) (s : σ) : Handled σ :=
  match r.claim? maxBodySize with
  | .error f => .still f.answered s
  | .ok c => .ofReply (fun () => saved c) (fun e => (Failure.store e).answered) (store.append c s)

/-- Lists the claims that pass the query that the request asks for. -/
def find (store : ClaimStore σ) (today : Date) (r : Request) (s : σ) : Handled σ :=
  match r.query? today with
  | .error f => .still f.answered s
  | .ok q => .ofReply (found q) (fun e => (Failure.store e).answered) (store.list s)

/-- Handles a request that has come to the endpoint. -/
def handle (store : ClaimStore σ) (maxBodySize : Nat) (today : Date) (e : Endpoint) (r : Request)
    (s : σ) : Handled σ :=
  if r.method ∉ e.methods then .still (.empty .methodNotAllowed, []) s
  else
    match e with
    | health => .still healthy s
    | readiness => .ofReply (fun _ => ready) notReady (store.list s)
    | claims =>
      if r.method = "POST" then create store maxBodySize r s
      else .ofReply listed (fun e => (Failure.store e).answered) (store.list s)
    | search => find store today r s

end Endpoint
end CustomsClaims.Http
