import Mathlib.Algebra.GroupWithZero.Nat
import CustomsClaims.Proofs.Http.Transparency
import CustomsClaims.Proofs.Store.Log

/-!
# Every answer is logged

A request is answered in many places: by the log itself, where no endpoint is, by an endpoint, for a
failure of the store, after a panic. All of them only add events between what is logged about the
request and the status (`Served.between`), and none of these events reports a status (`Inner`).
`Service.answer_logged`: so the status of the response is reported once, at the end. Only a body that
was read is logged; where one is too long or breaks off, the log has its refusal instead
(`Logged.refused`), and a body that breaks off may be as short as any (`Service.broken_body_unlogged`).
-/

namespace CustomsClaims

/-! ## Reports of a status -/

/-- How an event that reports the status of a response begins. -/
def statusLead : List Char := "Response status: ".toList

/-- Does the event report the status of a response? -/
def Event.ReportsStatus (e : Event) : Prop := statusLead <+: e.message.toList

instance : DecidablePred Event.ReportsStatus := fun _ => inferInstanceAs (Decidable (_ <+: _))

theorem reportsStatus_statusEvent (s : Http.Status) : (Http.statusEvent s).ReportsStatus := by
  simp only [Event.ReportsStatus, Http.statusEvent, String.toList_append]
  exact List.prefix_append _ _

theorem not_reportsStatus_append {level : Level} {lead rest : String}
    {fields : List (String × String)} (h : ¬ statusLead <+: lead.toList)
    (h' : ¬ lead.toList <+: statusLead) : ¬ Event.ReportsStatus ⟨level, lead ++ rest, fields⟩ := by
  intro hreports
  simp only [Event.ReportsStatus, String.toList_append] at hreports
  rcases List.prefix_or_prefix_of_prefix hreports (List.prefix_append _ _) with hp | hp
  · exact h hp
  · exact h' hp

/-- No event of the log reports a status. -/
def Quiet (log : List Event) : Prop := ∀ e ∈ log, ¬ e.ReportsStatus

theorem Quiet.nil : Quiet [] := by
  intro e he
  cases he

theorem Quiet.append {l l' : List Event} (h : Quiet l) (h' : Quiet l') : Quiet (l ++ l') := by
  intro e he
  rcases List.mem_append.1 he with he | he
  · exact h e he
  · exact h' e he

theorem quiet_singleton {e : Event} (h : ¬ e.ReportsStatus) : Quiet [e] := by
  intro e' he'
  rw [List.mem_singleton.1 he']
  exact h

theorem Quiet.filter {l : List Event} (h : Quiet l) : l.filter (·.ReportsStatus) = [] := by
  rw [List.filter_eq_nil_iff]
  intro e he
  simpa using h e he

/-! ## Stores -/

section
variable {σ : Type}

/-- What a store in the state `s` logs for one request: nothing, or what one of its operations
logs. -/
def ClaimStore.MayLog (store : ClaimStore σ) (s : σ) (log : List Event) : Prop :=
  log = [] ∨ log = (store.list s).log ∨ ∃ c, log = (store.append c s).log

/-- The store never reports the status of a response. -/
def ClaimStore.Silent (store : ClaimStore σ) : Prop := ∀ s log, store.MayLog s log → Quiet log

theorem ClaimStore.silent_of {store : ClaimStore σ} (hlist : ∀ s, Quiet (store.list s).log)
    (happend : ∀ c s, Quiet (store.append c s).log) : store.Silent := by
  rintro s log (rfl | rfl | ⟨c, rfl⟩)
  · exact .nil
  · exact hlist s
  · exact happend c s

end

theorem FileStore.IsOwnEvent.not_reportsStatus {s : FileStore} {e : Event} (h : s.IsOwnEvent e) :
    ¬ e.ReportsStatus := by
  rcases h with rfl | ⟨count, rfl⟩
  · show ¬ statusLead <+: "Initialized empty claim file".toList
    decide
  · show ¬ statusLead <+: "Wrote claim file".toList
    decide

theorem FileStore.silent (s : FileStore) : s.store.Silent :=
  ClaimStore.silent_of (fun _ _ he => (mem_list_log he).not_reportsStatus)
    fun _ _ _ he => (mem_append_log he).not_reportsStatus

theorem MemoryStore.silent : store.Silent := by
  apply ClaimStore.silent_of
  · intro cs
    exact .nil
  · intro c cs
    apply quiet_singleton
    show ¬ statusLead <+: "Appending claim in memory".toList
    decide

theorem BrokenStore.silent (e : StoreError) (p : Payload) :
    (failing e).Silent ∧ (panicking p).Silent :=
  ⟨ClaimStore.silent_of (fun _ => .nil) fun _ _ => .nil,
    ClaimStore.silent_of (fun _ => .nil) fun _ _ => .nil⟩

namespace Http

/-! ## Events of the service -/

theorem quiet_openingEvents (r : Request) (maxLogSize : Nat) :
    Quiet (openingEvents r maxLogSize) := by
  have hsize : ¬ (headersSizeEvent r.headers).ReportsStatus := by
    simp only [headersSizeEvent, String.append_assoc]
    exact not_reportsStatus_append (by decide) (by decide)
  have hheaders : ¬ (headersEvent r.headers maxLogSize).ReportsStatus :=
    not_reportsStatus_append (by decide) (by decide)
  have hline : ¬ (requestEvent r).ReportsStatus := by
    simp only [requestEvent, String.append_assoc]
    exact not_reportsStatus_append (by decide) (by decide)
  exact (quiet_singleton hsize).append ((quiet_singleton hheaders).append (quiet_singleton hline))

theorem quiet_bodyEvents (r : Request) (maxLogSize : Nat) : Quiet (bodyEvents r maxLogSize) := by
  unfold bodyEvents
  split
  · have hsize : ¬ (bodySizeEvent r.body.bytes).ReportsStatus := by
      simp only [bodySizeEvent, String.append_assoc]
      exact not_reportsStatus_append (by decide) (by decide)
    have hbody : ¬ (bodyEvent r.body.bytes maxLogSize).ReportsStatus :=
      not_reportsStatus_append (by decide) (by decide)
    exact (quiet_singleton hsize).append (quiet_singleton hbody)
  · exact .nil

/-- An event with one of the fixed messages reports no status. -/
theorem quiet_message {level : Level} {message : String} {fields : List (String × String)}
    (h : ¬ statusLead <+: message.toList) : Quiet [⟨level, message, fields⟩] :=
  quiet_singleton h

theorem quiet_rejected (f : BodyFault) (limit : Nat) : Quiet [rejectedEvent f limit] :=
  quiet_message (by decide)

theorem quiet_failure (f : Failure) : Quiet f.answered.2 := by
  cases f with
  | store e => exact quiet_message (by decide)
  | _ => exact .nil

theorem quiet_found (q : Query) (cs : List Claim) : Quiet (found q cs).2 :=
  quiet_message (by decide)

theorem quiet_saved (c : Claim) : Quiet (saved c).2 :=
  quiet_message (by decide)

theorem quiet_notReady (e : StoreError) : Quiet (notReady e).2 :=
  quiet_message (by decide)

theorem quiet_panicked (p : Payload) : Quiet (panicked p).2 :=
  quiet_message (by decide)

/-! ## Inside the log -/

section
variable {σ : Type}

/-- The log has what the store logged, and then events that report no status. -/
def Inner (store : ClaimStore σ) (s : σ) (log : List Event) : Prop :=
  ∃ asked own, log = asked ++ own ∧ store.MayLog s asked ∧ Quiet own

variable {store : ClaimStore σ} {s : σ}

theorem inner_quiet {log : List Event} (h : Quiet log) : Inner store s log :=
  ⟨[], log, rfl, .inl rfl, h⟩

theorem Inner.append {log own : List Event} (h : Inner store s log) (hown : Quiet own) :
    Inner store s (log ++ own) := by
  obtain ⟨asked, own', rfl, hasked, hown'⟩ := h
  exact ⟨asked, own' ++ own, List.append_assoc .., hasked, hown'.append hown⟩

theorem inner_ofReply {α : Type} {good : α → Answered} {bad : StoreError → Answered}
    {reply : Reply σ α} (hlog : store.MayLog s reply.log) (hgood : ∀ a, Quiet (good a).2)
    (hbad : ∀ e, Quiet (bad e).2) : Inner store s (Handled.ofReply good bad reply).log := by
  unfold Handled.ofReply
  split
  case h_1 a _ => exact ⟨reply.log, _, rfl, hlog, hgood a⟩
  case h_2 e _ => exact ⟨reply.log, _, rfl, hlog, hbad e⟩
  case h_3 => exact ⟨reply.log, [], (List.append_nil _).symm, hlog, .nil⟩

variable {limit : Nat} {day : Date} {r : Request}

theorem inner_list {good : List Claim → Answered} {bad : StoreError → Answered}
    (hgood : ∀ cs, Quiet (good cs).2) (hbad : ∀ e, Quiet (bad e).2) :
    Inner store s (Handled.ofReply good bad (store.list s)).log :=
  inner_ofReply (.inr (.inl rfl)) hgood hbad

theorem inner_create : Inner store s (Endpoint.create store limit r s).log := by
  unfold Endpoint.create
  split
  · exact inner_quiet (quiet_failure _)
  · exact inner_ofReply (.inr (.inr ⟨_, rfl⟩)) (fun _ => quiet_saved _) fun _ => quiet_failure _

theorem inner_find : Inner store s (Endpoint.find store day r s).log := by
  unfold Endpoint.find
  split
  · exact inner_quiet (quiet_failure _)
  · exact inner_list (quiet_found _) fun _ => quiet_failure _

theorem inner_handle (e : Endpoint) : Inner store s (e.handle store limit day r s).log := by
  unfold Endpoint.handle
  split
  · exact inner_quiet .nil
  · cases e with
    | health => exact inner_quiet .nil
    | readiness => exact inner_list (fun _ => .nil) quiet_notReady
    | claims =>
      dsimp only
      split
      · exact inner_create
      · exact inner_list (fun _ => .nil) fun _ => quiet_failure _
    | search => exact inner_find

theorem inner_route : Inner store s (route store limit day r s).log := by
  unfold route
  split
  · exact inner_handle _
  · exact inner_quiet .nil

theorem inner_withPanicGuard {inner : Request → σ → Handled σ} (h : Inner store s (inner r s).log) :
    Inner store s (withPanicGuard inner r s).log := by
  unfold withPanicGuard
  dsimp only
  split
  · exact h
  · exact h.append (quiet_panicked _)

end

/-! ## The log of a request -/

theorem Headers.size_eq (h : Headers) :
    h.size = (h.lines.map fun l => l.1.utf8ByteSize + l.2.length).sum := by
  have hfold : ∀ (lines : List (String × Bytes)) (n : Nat),
      lines.foldl (fun n l => n + l.1.utf8ByteSize + l.2.length) n =
        n + (lines.map fun l => l.1.utf8ByteSize + l.2.length).sum := by
    intro lines
    induction lines with
    | nil => simp
    | cons l lines ih =>
      intro n
      rw [List.foldl_cons, ih, List.map_cons, List.sum_cons]
      omega
  have hsize : h.size = h.lines.foldl (fun n l => n + l.1.utf8ByteSize + l.2.length) 0 := rfl
  rw [hsize, hfold, Nat.zero_add]

/-- The log of a request that was answered as `x`; `asked` is what the store itself logged. -/
structure Logged {σ : Type} (settings : Settings) (r : Request) (asked : List Event)
    (x : Served σ) : Prop where
  /-- It begins with the size of the headers, the headers and the request line. -/
  opening : [headersSizeEvent r.headers, headersEvent r.headers settings.maxLogSize,
    requestEvent r] <+: x.log
  /-- The size of the headers counts the bytes of all names and values. -/
  size : (headersSizeEvent r.headers).fields =
    [("headers_size", decimalText (r.headers.lines.map fun l => l.1.utf8ByteSize + l.2.length).sum)]
  /-- The size of a body that was read and the body come next. -/
  body : r.method ∈ ["POST", "PUT", "PATCH"] → ¬ r.CutShort settings.maxBodySize →
    openingEvents r settings.maxLogSize ++
      [bodySizeEvent r.body.bytes, bodyEvent r.body.bytes settings.maxLogSize] <+: x.log
  /-- Of a body that could not be read, only the refusal is logged. -/
  refused : r.CutShort settings.maxBodySize →
    ∃ f, r.body.read settings.maxBodySize = .error f ∧ x.log = openingEvents r settings.maxLogSize ++
      [rejectedEvent f settings.maxBodySize, statusEvent x.response.status]
  /-- The body is shown if it has no more bytes than are logged. -/
  shown : (bodyEvent r.body.bytes settings.maxLogSize).message = "Body: " ++
    if r.body.bytes.length ≤ settings.maxLogSize then Utf8.decodeLossy r.body.bytes
    else "[Too large to log]"
  /-- The status of the response comes last. -/
  last : x.log.getLast? = some (statusEvent x.response.status)
  /-- No other status is reported, unless the store does. -/
  once : x.log.filter (·.ReportsStatus) =
    asked.filter (·.ReportsStatus) ++ [statusEvent x.response.status]

section
variable {σ : Type} {settings : Settings} {r : Request} {asked own middle : List Event}

theorem Logged.congr {x y : Served σ} (h : Logged settings r asked x) (hlog : y.log = x.log)
    (hstatus : y.response.status = x.response.status) : Logged settings r asked y := by
  obtain ⟨hopening, hsize, hbody, hrefused, hshown, hlast, honce⟩ := h
  rw [← hlog] at hopening hbody hrefused hlast honce
  rw [← hstatus] at hrefused hlast honce
  exact ⟨hopening, hsize, hbody, hrefused, hshown, hlast, honce⟩

/-- Between the opening and the status, anything may be logged that reports no status. -/
theorem logged_between {x : Served σ} (hmiddle : Quiet middle) (hlog : x.log = asked ++ own)
    (hown : Quiet own)
    (hbody : r.method ∈ ["POST", "PUT", "PATCH"] → ¬ r.CutShort settings.maxBodySize →
      middle = [bodySizeEvent r.body.bytes, bodyEvent r.body.bytes settings.maxLogSize])
    (hrefused : r.CutShort settings.maxBodySize → ∃ f, r.body.read settings.maxBodySize = .error f ∧
      middle ++ x.log = [rejectedEvent f settings.maxBodySize]) :
    Logged settings r asked (.between (openingEvents r settings.maxLogSize ++ middle) x) where
  opening := by
    simp only [Served.between, List.append_assoc]
    exact List.prefix_append _ _
  size := by rw [← Headers.size_eq]; rfl
  body := by
    intro hmethod hcut
    rw [← hbody hmethod hcut]
    simp only [Served.between]
    rw [List.append_assoc (_ ++ middle)]
    exact List.prefix_append _ _
  refused := by
    intro hcut
    obtain ⟨f, hread, hrest⟩ := hrefused hcut
    refine ⟨f, hread, ?_⟩
    simp only [Served.between]
    rw [List.append_assoc (openingEvents _ _), hrest, List.append_assoc]
    rfl
  shown := rfl
  last := by simp [Served.between]
  once := by
    have hreports := reportsStatus_statusEvent x.response.status
    simp [Served.between, hlog, List.filter_append, (quiet_openingEvents r _).filter,
      hmiddle.filter, hown.filter, hreports]

/-- **The log of a request**, whatever is served inside it. -/
theorem logged_withRequestLog {store : ClaimStore σ} {inner : Serving σ} {s : σ}
    (h : Inner store s (inner r s).log) :
    ∃ asked, store.MayLog s asked ∧ Logged settings r asked
      (withRequestLog settings.maxLogSize settings.maxBodySize inner r s) := by
  by_cases hcut : r.CutShort settings.maxBodySize
  · obtain ⟨f, hread⟩ := hcut.read_error
    refine ⟨[], .inl rfl, ?_⟩
    rw [withRequestLog_cutShort hcut hread, ← List.append_nil (openingEvents _ _)]
    exact logged_between .nil rfl (quiet_rejected f _) (fun _ hnot => absurd hcut hnot)
      fun _ => ⟨f, hread, rfl⟩
  · obtain ⟨asked, own, hlog, hasked, hown⟩ := h
    refine ⟨asked, hasked, ?_⟩
    rw [withRequestLog_whole hcut]
    refine logged_between (quiet_bodyEvents r _) hlog hown (fun hmethod _ => ?_)
      fun hcut' => absurd hcut' hcut
    rw [bodyEvents, if_pos (mayChange_iff.2 hmethod)]

end

namespace Service

variable {σ : Type}

/-- **Every answer is logged with its own status.** What is logged about the request and its body, or
about the refusal of a body that could not be read, comes first and the status of the response last.
No other status is reported, on any store that reports none itself; the stores of this library do
not. -/
theorem answer_logged (v : Service σ) (day : Date) (r : Request) (s : σ)
    (hmethod : r.method ≠ "OPTIONS") :
    let x := v.serve day r s
    (∃ asked, v.store.MayLog s asked ∧ Logged v.settings r asked x) ∧
    (v.store.Silent → x.log.filter (·.ReportsStatus) = [statusEvent x.response.status]) ∧
    (∀ file : FileStore, file.store.Silent) ∧ MemoryStore.store.Silent ∧
    ∀ e p, (BrokenStore.failing e).Silent ∧ (BrokenStore.panicking p).Silent := by
  intro x
  have hinner : Inner v.store s (v.handlers day r s).log := inner_withPanicGuard inner_route
  have hinside : ∃ asked, v.store.MayLog s asked ∧ Logged v.settings r asked (v.inside day r s) :=
    logged_withRequestLog hinner
  obtain ⟨asked, hasked, hlogged⟩ := hinside
  have hlog : x.log = (v.inside day r s).log := by
    simp [x, serve, withAnyOrigin, hmethod, inside]
  have hx : Logged v.settings r asked x := hlogged.congr hlog (serve_status hmethod)
  refine ⟨⟨asked, hasked, hx⟩, fun hsilent => ?_, FileStore.silent, MemoryStore.silent,
    BrokenStore.silent⟩
  rw [hx.once, (hsilent s asked hasked).filter, List.nil_append]

/-- The claims are asked for, and the store panics. -/
theorem answer_logged_panic :
    let v : Service Unit := ⟨BrokenStore.panicking (.text "store exploded"), .standard⟩
    let headers : Headers := .ofList [("accept", Utf8.encode "*/*")]
    let r : Request := ⟨"GET", .ofText "/api/claims", headers, .whole []⟩
    let x := v.serve default r ()
    r.method ≠ "OPTIONS" ∧ v.store.Silent ∧ x.response.status = .internalError ∧
      x.log.filter (·.ReportsStatus) = [statusEvent .internalError] := by
  intro v headers r x
  have hmethod : r.method ≠ "OPTIONS" := by decide
  obtain ⟨-, honce, -, -, hbroken⟩ := answer_logged v default r () hmethod
  have hsilent : v.store.Silent := (hbroken (.internal "") (.text "store exploded")).2
  have hstatus : x.response.status = .internalError := by decide +kernel
  refine ⟨hmethod, hsilent, hstatus, ?_⟩
  rw [← hstatus]
  exact honce hsilent

/-- It is not true that every body within the limit is logged: a body of one byte that breaks off is
refused, and `Logged.refused` says what is logged then. -/
theorem broken_body_unlogged :
    ¬ ∀ (settings : Settings) (day : Date) (cs : List Claim) (r : Request),
      r.method ∈ ["POST", "PUT", "PATCH"] → r.body.bytes.length ≤ settings.maxBodySize →
      openingEvents r settings.maxLogSize ++
        [bodySizeEvent r.body.bytes, bodyEvent r.body.bytes settings.maxLogSize] <+:
          ((Service.mk MemoryStore.store settings).serve day r cs).log := by
  intro h
  have hshort : brokenRequest.body.bytes.length ≤ Settings.standard.maxBodySize := by decide +kernel
  have hlog := h .standard default [] brokenRequest (by decide) hshort
  revert hlog
  decide +kernel

end Service
end Http
end CustomsClaims
