import CustomsClaims.Http.Endpoint
import CustomsClaims.Http.RequestLog
import CustomsClaims.Settings.Basic

/-!
# The service

A request goes from the outside in: questions about what other origins may do are answered at once
(`withAnyOrigin`), everything else is logged (`withRequestLog`), a panic becomes a response
(`withPanicGuard`), and the endpoint at the path handles what is left. On the way out a response
gets its length and, where the method was wrong, the methods that are right (`complete`).
-/

namespace CustomsClaims.Http

/-! ## Layers -/

/-- The response to a panic. -/
def panicked (p : Payload) : Answered :=
  let text := match p with
    | .text t => t
    | .other => "unknown panic payload"
  (internalError, [⟨.error, "Unhandled exception while serving request", [("panic", text)]⟩])

/-- Turns a panic into a response. -/
def withPanicGuard {σ : Type} (inner : Request → σ → Handled σ) : Serving σ :=
  fun r s =>
    let h := inner r s
    match h.ending with
    | .ok response => ⟨response, h.log, h.state⟩
    | .error p => ⟨(panicked p).1, h.log ++ (panicked p).2, h.state⟩

/-- The headers that let pages of any origin read the responses. -/
def originHeaders : List (String × String) :=
  [("access-control-allow-origin", "*"),
    ("vary", "origin, access-control-request-method, access-control-request-headers")]

/-- The headers that let pages of any origin send requests. -/
def permissionHeaders : List (String × String) :=
  [("access-control-allow-methods", "*"), ("access-control-allow-headers", "*")]

/-- Answers what pages of other origins may do, and lets them read every response. -/
def withAnyOrigin {σ : Type} (inner : Serving σ) : Serving σ :=
  fun r s =>
    if r.method = "OPTIONS" then ⟨⟨.ok, originHeaders ++ permissionHeaders, []⟩, [], s⟩
    else
      let x := inner r s
      { x with response := { x.response with headers := x.response.headers ++ originHeaders } }

/-- The response as it is sent: with the methods of the endpoint unless the request has one of
them, with its length, and without its body after a `HEAD`. -/
def complete (e : Option Endpoint) (r : Request) (x : Response) : Response :=
  let allow := match e with
    | some e =>
      if r.method ∈ e.methods then [] else [("allow", String.intercalate "," e.methods)]
    | none => []
  { x with
    headers := x.headers ++ allow ++ [("content-length", decimalText x.body.length)]
    body := if r.method = "HEAD" then [] else x.body }

/-! ## Serving -/

/-- Handles a request at the endpoint of its path, if there is one. -/
def route {σ : Type} (store : ClaimStore σ) (maxBodySize : Nat) (today : Date) (r : Request)
    (s : σ) : Handled σ :=
  match Endpoint.ofPath? r.target.path with
  | some e => e.handle store maxBodySize today r s
  | none => .still (.empty .notFound, []) s

/-- A service on a store. -/
structure Service (σ : Type) where
  store : ClaimStore σ
  settings : Settings

namespace Service

variable {σ : Type}

/-- Serves a request that comes on the day `today`. -/
def serve (v : Service σ) (today : Date) : Serving σ :=
  fun r s =>
    let inner := withPanicGuard (route v.store v.settings.maxBodySize today)
    let logged := withRequestLog v.settings.maxLogSize v.settings.maxBodySize inner
    let x := withAnyOrigin logged r s
    { x with response := complete (Endpoint.ofPath? r.target.path) r x.response }

/-- Handles a request by its endpoint alone, without any layer around it. -/
def handleBare (v : Service σ) (today : Date) (r : Request) (s : σ) : Handled σ :=
  let h := route v.store v.settings.maxBodySize today r s
  { h with ending := h.ending.map (complete (Endpoint.ofPath? r.target.path) r) }

end Service
end CustomsClaims.Http
