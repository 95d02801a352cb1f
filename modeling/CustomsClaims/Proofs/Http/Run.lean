import CustomsClaims.Http.Service
import CustomsClaims.Proofs.Http.RequestLog
import CustomsClaims.Store.Memory

/-!
# Runs of the service on a store in memory

`Service.run` serves requests one after the other and records each as an `Exchange`.
`Service.run_keeps_posted`: the list at any point is the first one and then the claims of the requests
that posted to the claims and were answered 200; the status of each such request is
`Request.postStatus`; and each request for the claims is answered with the list of that moment.
`Service.broken_body_too_large`: without the case of a body that breaks off, that rule is false.
-/

namespace CustomsClaims.Http

/-! ## Exchanges -/

namespace Request

/-- Does the request bring a claim? -/
def Posts (r : Request) : Prop := r.method = "POST" ∧ r.target.path = "/api/claims"

/-- Does the request ask for all claims? -/
def Lists (r : Request) : Prop := r.method = "GET" ∧ r.target.path = "/api/claims"

/-- Is the body declared to be of a type that is none of the types of JSON? -/
def DeclaresOther (r : Request) : Prop :=
  ∃ value ∈ r.headers.first? "content-type", ¬ (value.all isVisible ∧ isJsonType (essence value))

/-- The claim in the body, if the body is the text of one. -/
def bodyClaim? (r : Request) : Option Claim := (Claim.parse r.body.bytes).toOption

instance (r : Request) : Decidable r.Posts := inferInstanceAs (Decidable (_ ∧ _))

instance (r : Request) : Decidable r.DeclaresOther :=
  match h : r.headers.first? "content-type" with
  | none => isFalse (by simp [DeclaresOther, h])
  | some value =>
    decidable_of_iff (¬ (value.all isVisible ∧ isJsonType (essence value)))
      (by simp [DeclaresOther, h])

/-- The status of a request that brings a claim, where a body may have `limit` bytes. -/
def postStatus (r : Request) (limit : Nat) : Status :=
  if limit < r.body.bytes.length ∨ r.body.breaks ≠ none then .bodyTooLarge
  else if r.DeclaresOther ∨ r.bodyClaim? = none then .unprocessable
  else .ok

end Request

/-- A request that was served: the day it came, the response, and the states of the store before and
after. -/
structure Exchange (σ : Type) where
  day : Date
  request : Request
  response : Response
  before : σ
  after : σ

/-- The claim that an exchange adds to the list. -/
def Exchange.posted? {σ : Type} (x : Exchange σ) : Option Claim :=
  if x.request.Posts ∧ x.response.status = .ok then x.request.bodyClaim? else none

namespace Service

variable {σ : Type}

/-- Serves one request. -/
def exchange (v : Service σ) (day : Date) (r : Request) (s : σ) : Exchange σ :=
  let x := v.serve day r s
  ⟨day, r, x.response, s, x.state⟩

/-- Serves requests in turn. -/
def run (v : Service σ) : List (Date × Request) → σ → List (Exchange σ) × σ
  | [], s => ([], s)
  | (day, r) :: rs, s =>
    let x := v.exchange day r s
    let (xs, s) := v.run rs x.after
    (x :: xs, s)

end Service

/-! ## Claims in bodies -/

theorem Headers.allowJson_iff {r : Request} : r.headers.allowJson = true ↔ ¬ r.DeclaresOther := by
  unfold Headers.allowJson Request.DeclaresOther
  cases r.headers.first? "content-type" with
  | none => simp
  | some value => simp

/-- A request whose body has been read brings a claim, or is refused for what the body says. -/
theorem Request.claim?_cases {r : Request} {limit : Nat} {bytes : Bytes}
    (h : r.body.read limit = .ok bytes) :
    (∃ m ds, r.claim? limit = .error (.invalid m ds) ∧ r.postStatus limit = .unprocessable) ∨
      ∃ c, r.claim? limit = .ok c ∧ r.bodyClaim? = some c ∧ r.postStatus limit = .ok := by
  have hallow := Headers.allowJson_iff (r := r)
  obtain ⟨hb, rfl⟩ := Body.read_eq_ok.1 h
  rw [postStatus, if_neg hb]
  by_cases hother : r.DeclaresOther
  · have hclaim : r.claim? limit = .error .otherMediaType := by
      unfold claim?
      rw [h, (Bool.eq_false_iff).2 fun ht => hallow.1 ht hother]
      rfl
    exact .inl ⟨_, _, hclaim, if_pos (.inl hother)⟩
  · have hclaim : r.claim? limit = (Claim.parse r.body.bytes).mapError .ofJsonError := by
      unfold claim?
      rw [h, hallow.2 hother]
      rfl
    rw [hclaim, bodyClaim?]
    cases Claim.parse r.body.bytes with
    | error e => exact .inl ⟨_, _, rfl, if_pos (.inr rfl)⟩
    | ok c => exact .inr ⟨c, rfl, rfl, if_neg (by simp [hother, Except.toOption])⟩

/-! ## Endpoints -/

theorem Endpoint.ofPath?_eq_some {path : String} {e : Endpoint} :
    Endpoint.ofPath? path = some e ↔ path = e.path := by
  constructor
  · intro h
    have hpath := List.find?_some h
    exact (of_decide_eq_true hpath).symm
  · rintro rfl
    cases e <;> decide

section
variable {σ α : Type} {store : ClaimStore σ} {limit : Nat} {day : Date} {r : Request} {s : σ}

theorem route_eq {e : Endpoint} (hpath : r.target.path = e.path) :
    route store limit day r s = e.handle store limit day r s := by
  rw [route, Endpoint.ofPath?_eq_some.2 hpath]

theorem route_posts (hr : r.Posts) :
    route store limit day r s = Endpoint.create store limit r s := by
  obtain ⟨hmethod, hpath⟩ := hr
  rw [route_eq (e := .claims) hpath]
  simp [Endpoint.handle, Endpoint.methods, hmethod]

theorem route_lists (hr : r.Lists) :
    route store limit day r s =
      .ofReply listed (fun e => (Failure.store e).answered) (store.list s) := by
  obtain ⟨hmethod, hpath⟩ := hr
  rw [route_eq (e := .claims) hpath]
  simp [Endpoint.handle, Endpoint.methods, hmethod]

@[simp] theorem Handled.ofReply_state {good : α → Answered} {bad : StoreError → Answered}
    {reply : Reply σ α} : (ofReply good bad reply).state = reply.state := by
  unfold ofReply
  cases reply.answer <;> rfl

/-- What the store keeps, the endpoints keep; all but one of them only ask for the list. -/
theorem handle_state {e : Endpoint} (hlist : (store.list s).state = s)
    (happend : r.method = "POST" → e = .claims → ∀ c, (store.append c s).state = s) :
    (e.handle store limit day r s).state = s := by
  unfold Endpoint.handle
  by_cases hmethod : r.method ∈ e.methods
  · rw [if_neg (Decidable.not_not.2 hmethod)]
    cases e with
    | health => rfl
    | readiness => exact Handled.ofReply_state.trans hlist
    | claims =>
      by_cases hpost : r.method = "POST"
      · simp only [hpost, if_true, Endpoint.create]
        cases r.claim? limit with
        | error f => rfl
        | ok c => exact Handled.ofReply_state.trans (happend hpost rfl c)
      · simp only [hpost, if_false]
        exact Handled.ofReply_state.trans hlist
    | search =>
      simp only [Endpoint.find]
      cases r.query? day with
      | error f => rfl
      | ok q => exact Handled.ofReply_state.trans hlist
  · rw [if_pos hmethod]
    rfl

theorem route_state (hlist : (store.list s).state = s)
    (happend : r.Posts → ∀ c, (store.append c s).state = s) :
    (route store limit day r s).state = s := by
  unfold route
  cases he : Endpoint.ofPath? r.target.path with
  | none => rfl
  | some e =>
    refine handle_state hlist fun hmethod hclaims => happend ⟨hmethod, ?_⟩
    rw [Endpoint.ofPath?_eq_some.1 he, hclaims]
    rfl

end

/-! ## Layers -/

section
variable {σ : Type} {r : Request} {s : σ}

theorem withPanicGuard_state (inner : Request → σ → Handled σ) :
    (withPanicGuard inner r s).state = (inner r s).state := by
  unfold withPanicGuard
  cases h : (inner r s).ending with
  | ok response => simp only [h]
  | error p => simp only [h]

theorem withPanicGuard_response {inner : Request → σ → Handled σ} {response : Response}
    (h : (inner r s).ending = .ok response) : (withPanicGuard inner r s).response = response := by
  unfold withPanicGuard
  simp only [h]

theorem guarded_refusal {limit : Nat} {day : Date} {cs : List Claim} {f : Failure} (hr : r.Posts)
    (h : r.claim? limit = .error f) :
    withPanicGuard (route MemoryStore.store limit day) r cs = ⟨f.response, f.log, cs⟩ := by
  rw [withPanicGuard, route_posts hr, Endpoint.create, h]
  rfl

theorem guarded_claim {limit : Nat} {day : Date} {cs : List Claim} {c : Claim} (hr : r.Posts)
    (h : r.claim? limit = .ok c) :
    withPanicGuard (route MemoryStore.store limit day) r cs =
      ⟨(saved c).1, MemoryStore.appending c :: (saved c).2, cs ++ [c]⟩ := by
  rw [withPanicGuard, route_posts hr, Endpoint.create, h]
  rfl

end

namespace Service

section
variable {σ : Type}

/-- The service without what is said about other origins and about the length of the response. -/
def inside (v : Service σ) (day : Date) : Serving σ :=
  withRequestLog v.settings.maxLogSize v.settings.maxBodySize
    (withPanicGuard (route v.store v.settings.maxBodySize day))

variable {v : Service σ} {day : Date} {r : Request} {s : σ}

theorem serve_options (hmethod : r.method = "OPTIONS") : (v.serve day r s).state = s := by
  simp [serve, withAnyOrigin, hmethod]

theorem serve_state (hmethod : r.method ≠ "OPTIONS") :
    (v.serve day r s).state = (v.inside day r s).state := by
  simp [serve, withAnyOrigin, hmethod, inside]

theorem serve_status (hmethod : r.method ≠ "OPTIONS") :
    (v.serve day r s).response.status = (v.inside day r s).response.status := by
  simp [serve, withAnyOrigin, hmethod, inside, complete]

theorem serve_body (hmethod : r.method ≠ "OPTIONS") (hhead : r.method ≠ "HEAD") :
    (v.serve day r s).response.body = (v.inside day r s).response.body := by
  simp [serve, withAnyOrigin, hmethod, hhead, inside, complete]

/-- What the store keeps, the service keeps. -/
theorem serve_stays (hlist : (v.store.list s).state = s)
    (happend : r.Posts → ∀ c, (v.store.append c s).state = s) : (v.serve day r s).state = s := by
  by_cases hmethod : r.method = "OPTIONS"
  · exact serve_options hmethod
  rw [serve_state hmethod]
  refine withRequestLog_state ?_
  rw [withPanicGuard_state]
  exact route_state hlist happend

end

/-! ## One request -/

section
variable {settings : Settings} {day : Date} {r : Request} {cs : List Claim}

/-- A request that brings a claim has the status `Request.postStatus`, and the claim is stored if
that is 200. -/
theorem inside_posts (hr : r.Posts) :
    let x := (Service.mk MemoryStore.store settings).inside day r cs
    x.response.status = r.postStatus settings.maxBodySize ∧
      x.state = cs ++ if x.response.status = .ok then r.bodyClaim?.toList else [] := by
  intro x
  by_cases hcut : r.CutShort settings.maxBodySize
  · obtain ⟨f, hread⟩ := hcut.read_error
    have hx : x = _ := withRequestLog_cutShort hcut hread _
    rw [hx, Request.postStatus, if_pos hcut.2]
    exact ⟨rfl, (List.append_nil cs).symm⟩
  · have hmethod : r.method ∈ ["POST", "PUT", "PATCH"] := by rw [hr.1]; decide
    have hx : x = _ := withRequestLog_whole hcut _
    obtain ⟨m, ds, hclaim, hstatus⟩ | ⟨c, hclaim, hsome, hstatus⟩ :=
      Request.claim?_cases (Request.read_body hcut hmethod)
    · rw [hx, hstatus, guarded_refusal hr hclaim]
      exact ⟨rfl, (List.append_nil cs).symm⟩
    · rw [hx, hstatus, guarded_claim hr hclaim, hsome]
      exact ⟨rfl, rfl⟩

theorem inside_lists (hr : r.Lists) :
    let x := (Service.mk MemoryStore.store settings).inside day r cs
    x.response = .json .ok (ClaimList.tree cs) ∧ x.state = cs := by
  intro x
  have hx : x = _ := withRequestLog_whole (Request.not_cutShort_of_get hr.1) _
  have hroute : route MemoryStore.store settings.maxBodySize day r cs = .still (listed cs) cs :=
    route_lists hr
  rw [hx, Served.between, withPanicGuard_state, hroute]
  refine ⟨withPanicGuard_response ?_, rfl⟩
  rw [hroute]
  rfl

/-- The status of an exchange in which a claim was brought. -/
theorem exchange_status (hr : r.Posts) :
    ((Service.mk MemoryStore.store settings).exchange day r cs).response.status =
      r.postStatus settings.maxBodySize := by
  have hmethod : r.method ≠ "OPTIONS" := by rw [hr.1]; decide
  exact (serve_status hmethod).trans (inside_posts hr).1

/-- What one request does to the list. -/
theorem exchange_after :
    let x := (Service.mk MemoryStore.store settings).exchange day r cs
    x.after = cs ++ x.posted?.toList := by
  intro x
  by_cases hr : r.Posts
  · have hmethod : r.method ≠ "OPTIONS" := by rw [hr.1]; decide
    have hafter : x.after = _ := (serve_state hmethod).trans (inside_posts hr).2
    have hstatus : x.response.status = _ := serve_status hmethod
    rw [hafter, ← hstatus]
    by_cases hok : x.response.status = .ok
    · have hposted : x.posted? = r.bodyClaim? := if_pos ⟨hr, hok⟩
      rw [if_pos hok, hposted]
    · have hposted : x.posted? = none := if_neg fun h => hok h.2
      rw [if_neg hok, hposted, Option.toList_none]
  · have hposted : x.posted? = none := if_neg fun h => hr h.1
    rw [hposted, Option.toList_none, List.append_nil]
    exact serve_stays rfl fun hposts => absurd hposts hr

/-- A claim is brought and answered with 200 exactly if the list gets a claim. -/
theorem exchange_posted :
    let x := (Service.mk MemoryStore.store settings).exchange day r cs
    x.posted?.isSome ↔ r.Posts ∧ x.response.status = .ok := by
  intro x
  constructor
  · intro h
    refine Decidable.by_contra fun hx => ?_
    rw [show x.posted? = none from if_neg hx] at h
    cases h
  · rintro ⟨hr, hok⟩
    have hposted : x.posted? = r.bodyClaim? := if_pos ⟨hr, hok⟩
    have hstatus : r.postStatus settings.maxBodySize = .ok := (exchange_status hr).symm.trans hok
    rw [hposted, Option.isSome_iff_ne_none]
    intro hnone
    rw [Request.postStatus] at hstatus
    split at hstatus
    · cases hstatus
    · rw [if_pos (.inr hnone)] at hstatus
      cases hstatus

/-- The response to a request for the claims. -/
theorem exchange_lists (hr : r.Lists) :
    let x := (Service.mk MemoryStore.store settings).exchange day r cs
    x.response.status = .ok ∧ x.response.body = (ClaimList.tree cs).compact := by
  have hoptions : r.method ≠ "OPTIONS" := by rw [hr.1]; decide
  have hhead : r.method ≠ "HEAD" := by rw [hr.1]; decide
  have hresponse : ((Service.mk MemoryStore.store settings).inside day r cs).response =
      .json .ok (ClaimList.tree cs) := (inside_lists hr).1
  constructor
  · exact (serve_status hoptions).trans (congrArg Response.status hresponse)
  · exact (serve_body hoptions hhead).trans (congrArg Response.body hresponse)

end

/-! ## Runs -/

section
variable {settings : Settings} {cs : List Claim} {rs : List (Date × Request)}

theorem run_requests {σ : Type} {v : Service σ} {s : σ} :
    (v.run rs s).1.map (fun x => (x.day, x.request)) = rs := by
  induction rs generalizing s with
  | nil => rfl
  | cons r rs ih => exact congrArg ((r.1, r.2) :: ·) ih

theorem append_filterMap_cons {α β : Type} (f : α → Option β) (x : α) (xs : List α) (ys : List β) :
    ys ++ (x :: xs).filterMap f = (ys ++ (f x).toList) ++ xs.filterMap f := by
  cases h : f x with
  | none => rw [List.filterMap_cons_none h, Option.toList_none, List.append_nil]
  | some y => rw [List.filterMap_cons_some h, Option.toList_some, List.append_assoc]; rfl

/-- The list after a run. -/
theorem run_final (rs : List (Date × Request)) (cs : List Claim) :
    let x := (Service.mk MemoryStore.store settings).run rs cs
    x.2 = cs ++ x.1.filterMap Exchange.posted? := by
  induction rs generalizing cs with
  | nil => exact (List.append_nil cs).symm
  | cons r rs ih =>
    obtain ⟨day, r⟩ := r
    let v : Service _ := ⟨MemoryStore.store, settings⟩
    let x := v.exchange day r cs
    have hafter : x.after = cs ++ x.posted?.toList := exchange_after
    have hcons := append_filterMap_cons Exchange.posted? x (v.run rs x.after).1 cs
    rw [← hafter] at hcons
    exact (ih x.after).trans hcons.symm

/-- Each exchange of a run starts with the list that the earlier ones have made. -/
theorem run_exchange (rs : List (Date × Request)) (cs : List Claim)
    {earlier later : List (Exchange (List Claim))} {x : Exchange (List Claim)}
    (h : ((Service.mk MemoryStore.store settings).run rs cs).1 = earlier ++ x :: later) :
    x = (Service.mk MemoryStore.store settings).exchange x.day x.request x.before ∧
      x.before = cs ++ earlier.filterMap Exchange.posted? := by
  induction rs generalizing cs earlier with
  | nil => simp [run] at h
  | cons r rs ih =>
    cases earlier with
    | nil =>
      obtain ⟨rfl, -⟩ := List.cons.inj h
      exact ⟨rfl, (List.append_nil cs).symm⟩
    | cons y earlier =>
      obtain ⟨rfl, hrest⟩ := List.cons.inj h
      obtain ⟨hx, hbefore⟩ := ih _ hrest
      refine ⟨hx, ?_⟩
      rw [hbefore, exchange_after, ← append_filterMap_cons]

/-- **The service keeps exactly what was posted.** -/
theorem run_keeps_posted (settings : Settings) (cs : List Claim) (rs : List (Date × Request)) :
    let (xs, final) := (Service.mk MemoryStore.store settings).run rs cs
    xs.map (fun x => (x.day, x.request)) = rs ∧
      final = cs ++ xs.filterMap Exchange.posted? ∧
      ∀ earlier x later, xs = earlier ++ x :: later →
        x.before = cs ++ earlier.filterMap Exchange.posted? ∧
        x.after = x.before ++ x.posted?.toList ∧
        (x.posted?.isSome ↔ x.request.Posts ∧ x.response.status = .ok) ∧
        (x.request.Posts → x.response.status = x.request.postStatus settings.maxBodySize) ∧
        (x.request.Lists → x.response.status = .ok ∧
          x.response.body = (ClaimList.tree x.before).compact) := by
  refine ⟨run_requests, run_final rs cs, fun earlier x later h => ?_⟩
  obtain ⟨hx, hbefore⟩ := run_exchange rs cs h
  refine ⟨hbefore, ?_⟩
  rw [hx]
  exact ⟨exchange_after, exchange_posted, exchange_status, exchange_lists⟩

/-! ## Bodies that break off -/

/-- A request that brings one byte of plain text and then breaks off. -/
def brokenRequest : Request where
  method := "POST"
  target := .ofText "/api/claims"
  headers := .ofList [("content-type", Utf8.encode "text/plain")]
  body := ⟨Utf8.encode "x", some "connection dropped"⟩

/-- The length, the declared type and the content of a body do not settle the status alone: a body that
breaks off is answered as one that is too long is. -/
theorem broken_body_too_large :
    ¬ ∀ (settings : Settings) (day : Date) (cs : List Claim) (r : Request), r.Posts →
      ((Service.mk MemoryStore.store settings).exchange day r cs).response.status =
        if settings.maxBodySize < r.body.bytes.length then .bodyTooLarge
        else if r.DeclaresOther ∨ r.bodyClaim? = none then .unprocessable
        else .ok := by
  intro h
  have hposts : brokenRequest.Posts := by decide +kernel
  have hother : brokenRequest.DeclaresOther := by decide +kernel
  have hshort : ¬ Settings.standard.maxBodySize < brokenRequest.body.bytes.length := by
    decide +kernel
  have hstatus : brokenRequest.postStatus Settings.standard.maxBodySize = .bodyTooLarge := by
    decide +kernel
  have hx := h .standard default [] brokenRequest hposts
  rw [exchange_status hposts, hstatus, if_neg hshort, if_pos (.inl hother)] at hx
  cases hx

end
end Service
end CustomsClaims.Http
