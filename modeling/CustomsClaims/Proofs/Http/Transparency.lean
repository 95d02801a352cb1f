import CustomsClaims.Proofs.Http.Run

/-!
# What the request log changes

`Service.log_transparent`: a body that is cut short ends a request, and whoever is inside makes no
difference; the service answers every other request as one without the log does; and what is to be
logged makes no difference to any run. `Service.broken_body_stopped`: a body that breaks off is not
passed on, however short it is.
-/

namespace CustomsClaims.Http

variable {σ : Type}

/-- A claim is asked of a body that can be read. -/
theorem Request.claim?_ne_bodyFault {r : Request} {limit : Nat} {bytes : Bytes}
    (h : r.body.read limit = .ok bytes) (f : BodyFault) :
    r.claim? limit ≠ .error (.ofBodyFault f) := by
  intro he
  obtain ⟨m, ds, hclaim, -⟩ | ⟨c, hclaim, -, -⟩ := claim?_cases h
  · rw [hclaim] at he
    cases f <;> cases he
  · rw [hclaim] at he
    cases he

/-! ## The log -/

section
variable {r : Request} {s : σ} {maxLogSize limit : Nat}

/-- How much is logged makes no difference to the response. -/
theorem withRequestLog_size (maxLogSize' : Nat) (inner : Serving σ) :
    (withRequestLog maxLogSize limit inner r s).response =
        (withRequestLog maxLogSize' limit inner r s).response ∧
      (withRequestLog maxLogSize limit inner r s).state =
        (withRequestLog maxLogSize' limit inner r s).state := by
  by_cases h : r.CutShort limit
  · obtain ⟨f, hread⟩ := h.read_error
    rw [withRequestLog_cutShort h hread, withRequestLog_cutShort h hread]
    exact ⟨rfl, rfl⟩
  · rw [withRequestLog_whole h, withRequestLog_whole h]
    exact ⟨rfl, rfl⟩

end

/-! ## The service without the log -/

/-- What is done around whoever serves requests: other origins are let in, and a response gets its
length and the methods that are right. -/
def framed (inner : Serving σ) : Serving σ :=
  fun r s =>
    let x := withAnyOrigin inner r s
    { x with response := complete (Endpoint.ofPath? r.target.path) r x.response }

/-- Answers every request with the failure. -/
def refusing (f : Failure) : Serving σ := fun _ s => ⟨f.response, f.log, s⟩

section
variable {r : Request} {s : σ}

theorem framed_eq {inner inner' : Serving σ} (h : inner r s = inner' r s) : framed inner r s = framed inner' r s := by
  simp only [framed, withAnyOrigin, h]

theorem framed_congr (inner inner' : Serving σ)
    (hresponse : (inner r s).response = (inner' r s).response)
    (hstate : (inner r s).state = (inner' r s).state) :
    (framed inner r s).response = (framed inner' r s).response ∧
      (framed inner r s).state = (framed inner' r s).state := by
  unfold framed withAnyOrigin
  dsimp only
  split
  · exact ⟨rfl, rfl⟩
  · dsimp only
    exact ⟨by rw [hresponse], hstate⟩

end

namespace Service

/-- The endpoints, where a panic becomes a response. -/
def handlers (v : Service σ) (day : Date) : Serving σ :=
  withPanicGuard (route v.store v.settings.maxBodySize day)

/-- Serves a request without any log of requests. -/
def serveUnlogged (v : Service σ) (day : Date) : Serving σ := framed (v.handlers day)

section
variable {v : Service σ} {day : Date} {r : Request} {s : σ}

/-- A request whose body is cut short is answered alike whoever is inside. -/
theorem serve_cutShort (h : r.CutShort v.settings.maxBodySize) :
    (v.serve day r s).response.status = .bodyTooLarge ∧
      (v.serve day r s).response =
        (framed (refusing (refusedBody v.settings.maxBodySize)) r s).response ∧
      (v.serve day r s).state = s ∧
      ∀ inner, framed (withRequestLog v.settings.maxLogSize v.settings.maxBodySize inner) r s =
        v.serve day r s := by
  have hoptions := h.method_ne
  obtain ⟨f, hread⟩ := h.read_error
  have hinside : v.inside day r s = _ := withRequestLog_cutShort h hread (v.handlers day)
  refine ⟨?_, ?_, ?_, fun inner =>
    framed_eq ((withRequestLog_cutShort h hread inner).trans hinside.symm)⟩
  · rw [serve_status hoptions, hinside]
    rfl
  · refine (framed_congr (v.inside day) _ ?_ ?_).1
    · rw [hinside]
      rfl
    · rw [hinside]
      rfl
  · rw [serve_state hoptions, hinside]
    rfl

theorem serve_whole (h : ¬ r.CutShort v.settings.maxBodySize) :
    (v.serve day r s).response = (v.serveUnlogged day r s).response ∧
      (v.serve day r s).state = (v.serveUnlogged day r s).state := by
  have hinside : v.inside day r s = _ := withRequestLog_whole h (v.handlers day)
  refine framed_congr (v.inside day) _ ?_ ?_
  · rw [hinside]
    rfl
  · rw [hinside]
    rfl

/-- The service with other settings of the log. -/
def logging (v : Service σ) (maxLogSize : Nat) (logLevel logFile : String) : Service σ :=
  { v with settings :=
    { v.settings with maxLogSize := maxLogSize, logLevel := logLevel, logFile := logFile } }

theorem exchange_logging (maxLogSize : Nat) (logLevel logFile : String) :
    (v.logging maxLogSize logLevel logFile).exchange day r s = v.exchange day r s := by
  let v' := v.logging maxLogSize logLevel logFile
  have hinside : (v'.inside day r s).response = (v.inside day r s).response ∧
      (v'.inside day r s).state = (v.inside day r s).state :=
    withRequestLog_size v.settings.maxLogSize (v.handlers day)
  obtain ⟨hresponse, hstate⟩ := framed_congr (v'.inside day) (v.inside day) hinside.1 hinside.2
  simp only [exchange, Exchange.mk.injEq, true_and]
  exact ⟨hresponse, hstate⟩

theorem run_logging (maxLogSize : Nat) (logLevel logFile : String) (rs : List (Date × Request)) :
    (v.logging maxLogSize logLevel logFile).run rs s = v.run rs s := by
  induction rs generalizing s with
  | nil => rfl
  | cons r rs ih => simp only [run, exchange_logging, ih]

end

/-- **The log of requests is transparent.** A request whose body is read for the log but not in full is
answered 413, and whoever would handle it makes no difference. Any other request is answered as by the
service without the log, and the handler that stores a claim never finds a body too long. Settings of
the log make no difference to the responses and states of any run. -/
theorem log_transparent (v : Service σ) (day : Date) (r : Request) (s : σ) :
    (r.CutShort v.settings.maxBodySize →
      (v.serve day r s).response.status = .bodyTooLarge ∧
      (v.serve day r s).response =
        (framed (refusing (refusedBody v.settings.maxBodySize)) r s).response ∧
      (v.serve day r s).state = s ∧
      ∀ inner, framed (withRequestLog v.settings.maxLogSize v.settings.maxBodySize inner) r s =
        v.serve day r s) ∧
    (¬ r.CutShort v.settings.maxBodySize →
      (v.serve day r s).response = (v.serveUnlogged day r s).response ∧
      (v.serve day r s).state = (v.serveUnlogged day r s).state ∧
      (r.method = "POST" → ∀ f, r.claim? v.settings.maxBodySize ≠ .error (.ofBodyFault f))) ∧
    ∀ maxLogSize logLevel logFile rs,
      (v.logging maxLogSize logLevel logFile).run rs s = v.run rs s := by
  refine ⟨serve_cutShort, fun h => ?_, fun _ _ _ _ => run_logging _ _ _ _⟩
  obtain ⟨hresponse, hstate⟩ := serve_whole h
  refine ⟨hresponse, hstate, fun hmethod => ?_⟩
  exact Request.claim?_ne_bodyFault (Request.read_body h (by rw [hmethod]; decide))

/-- A body of one byte more than is taken in, for a path where nothing is, and one that just fits. -/
theorem log_transparent_at_limit :
    let v : Service (List Claim) := ⟨MemoryStore.store, { Settings.standard with maxBodySize := 2 }⟩
    let long : Request := ⟨"PUT", .ofText "/nowhere", .ofList [], .whole (Utf8.encode "[] ")⟩
    let short : Request := ⟨"POST", .ofText "/api/claims", .ofList [], .whole (Utf8.encode "[]")⟩
    long.CutShort 2 ∧ (v.serve default long []).response.status = .bodyTooLarge ∧
      ¬ short.CutShort 2 ∧ short.method = "POST" ∧
      (v.serve default short []).response = (v.serveUnlogged default short []).response ∧
      short.claim? 2 ≠ .error (.ofBodyFault .tooLong) := by
  intro v long short
  have hlong : long.CutShort 2 := by decide +kernel
  have hshort : ¬ short.CutShort 2 := by decide +kernel
  obtain ⟨hrefused, -⟩ := log_transparent v default long []
  obtain ⟨-, hpassed, -⟩ := log_transparent v default short []
  obtain ⟨hresponse, -, hclaim⟩ := hpassed hshort
  exact ⟨hlong, (hrefused hlong).1, hshort, rfl, hresponse, hclaim rfl .tooLong⟩

/-! ## Bodies that break off -/

/-- A short body that breaks off does not come to the handlers, which would answer 400. -/
theorem broken_body_stopped :
    ¬ ∀ (settings : Settings) (day : Date) (cs : List Claim) (r : Request),
      ¬ (r.method ∈ ["POST", "PUT", "PATCH"] ∧ settings.maxBodySize < r.body.bytes.length) →
      ((Service.mk MemoryStore.store settings).serve day r cs).response =
        ((Service.mk MemoryStore.store settings).serveUnlogged day r cs).response := by
  intro h
  have hshort : ¬ (brokenRequest.method ∈ ["POST", "PUT", "PATCH"] ∧
      Settings.standard.maxBodySize < brokenRequest.body.bytes.length) := by decide +kernel
  have hstatus := congrArg Response.status (h .standard default [] brokenRequest hshort)
  revert hstatus
  decide +kernel

end Service
end CustomsClaims.Http
