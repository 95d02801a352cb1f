import CustomsClaims.Proofs.Http.Transparency
import CustomsClaims.Proofs.Search.Selection
import CustomsClaims.Proofs.Store.Reading
import CustomsClaims.Startup.Basic

/-!
# Claim files that cannot be read

A service on a claim file goes through starts of the program and requests (`FileStore.live`). Let the
file be there and list nothing: it may be empty, cut off, of another shape or no text at all.
`FileStore.unreadable_file_kept`: nothing that the service goes through changes anything on the disk;
every request that needs the claims is answered with an internal error, the question whether the
service is ready with 503, and every start says that the file is unreadable.

This holds for any store that fails and stays as it is (`ClaimStore.FailsAt`): the endpoints are looked
at once, for any store (`Http.route_needsClaims`, `Http.route_asksReady`).
-/

namespace CustomsClaims

/-- Every operation of the store fails in this state and leaves it. -/
structure ClaimStore.FailsAt {σ : Type} (store : ClaimStore σ) (s : σ) : Prop where
  list : (∃ e, (store.list s).answer = .failed e) ∧ (store.list s).state = s
  append : ∀ c, (∃ e, (store.append c s).answer = .failed e) ∧ (store.append c s).state = s

theorem FileStore.failsAt {s : FileStore} {d : Disk} {e : FileError}
    (hfile : d.exists? s.path = .ok true) (he : s.read? d = .error e) : s.store.FailsAt d where
  list := by
    rw [list_unreadable hfile he]
    exact ⟨⟨_, rfl⟩, rfl⟩
  append c := by
    obtain ⟨hanswer, hstate⟩ := append_unreadable c hfile he
    exact ⟨⟨_, hanswer⟩, hstate⟩

namespace Http

/-! ## Requests for which the store is asked -/

namespace Request

/-- Is the request a search whose parameters ask for a query? -/
def Searches (r : Request) : Prop :=
  r.method = "GET" ∧ r.target.path = "/api/claims/search" ∧
    ∃ p, SearchParams.parse (Utf8.encode (r.target.query.getD "")) = .ok p ∧
      ¬ p.BadPatterns ∧ ¬ p.BadBounds

/-- Can the request only be answered with a list of claims, or by storing one? -/
def NeedsClaims (r : Request) (limit : Nat) : Prop :=
  r.Lists ∨ (r.Posts ∧ r.postStatus limit = .ok) ∨ r.Searches

/-- Does the request ask whether the service is ready? -/
def AsksReady (r : Request) : Prop := r.method = "GET" ∧ r.target.path = "/health/ready"

variable {r : Request} {limit : Nat}

/-- A claim that is accepted is read. -/
theorem claim?_of_postStatus (h : r.postStatus limit = .ok) : ∃ c, r.claim? limit = .ok c := by
  have hbody : ¬ (limit < r.body.bytes.length ∨ r.body.breaks ≠ none) := by
    intro hbody
    rw [postStatus, if_pos hbody] at h
    cases h
  obtain ⟨_, _, -, hstatus⟩ | ⟨c, hclaim, -, -⟩ := claim?_cases (Body.read_eq_ok.2 ⟨hbody, rfl⟩)
  · cases h.symm.trans hstatus
  · exact ⟨c, hclaim⟩

theorem query?_of_searches (h : r.Searches) (day : Date) : ∃ q, r.query? day = .ok q := by
  obtain ⟨-, -, p, hp, hpatterns, hbounds⟩ := h
  cases hquery : p.query day with
  | error e =>
    exact absurd (SearchParams.query_error_iff.1 ⟨e, hquery⟩) (not_or.2 ⟨hpatterns, hbounds⟩)
  | ok q =>
    refine ⟨q, ?_⟩
    rw [query?, hp]
    show (p.query day).mapError _ = _
    rw [hquery]
    rfl

end Request

/-! ## Endpoints -/

section
variable {σ α : Type} {store : ClaimStore σ} {limit : Nat} {day : Date} {r : Request} {s : σ}

theorem Handled.ofReply_failed {good : α → Answered} {bad : StoreError → Answered}
    {reply : Reply σ α} {e : StoreError} (h : reply.answer = .failed e) :
    (ofReply good bad reply).ending = .ok (bad e).1 := by
  simp only [ofReply, h]

/-- The claims are needed, and the store fails. -/
theorem route_needsClaims (hr : r.NeedsClaims limit) (hstore : store.FailsAt s) :
    (route store limit day r s).ending = .ok internalError := by
  obtain ⟨elist, hlist⟩ := hstore.list.1
  rcases hr with hlists | ⟨hposts, hok⟩ | hsearch
  · rw [route_lists hlists]
    exact Handled.ofReply_failed hlist
  · obtain ⟨c, hc⟩ := Request.claim?_of_postStatus hok
    obtain ⟨e, happend⟩ := (hstore.append c).1
    rw [route_posts hposts, Endpoint.create, hc]
    exact Handled.ofReply_failed happend
  · obtain ⟨q, hq⟩ := Request.query?_of_searches hsearch day
    obtain ⟨hmethod, hpath, -⟩ := hsearch
    rw [route_eq (e := .search) hpath]
    simp only [Endpoint.handle, Endpoint.methods, hmethod, Endpoint.find, hq]
    exact Handled.ofReply_failed hlist

theorem route_asksReady (hr : r.AsksReady) (hstore : store.FailsAt s) :
    (route store limit day r s).ending = .ok (.empty .unavailable) := by
  obtain ⟨e, hlist⟩ := hstore.list.1
  obtain ⟨hmethod, hpath⟩ := hr
  rw [route_eq (e := .readiness) hpath]
  simp only [Endpoint.handle, Endpoint.methods, hmethod]
  exact Handled.ofReply_failed hlist

end

/-! ## Serving -/

namespace Request

variable {r : Request} {limit : Nat}

theorem NeedsClaims.method (h : r.NeedsClaims limit) : r.method ∈ ["GET", "POST"] := by
  rcases h with ⟨hmethod, -⟩ | ⟨⟨hmethod, -⟩, -⟩ | ⟨hmethod, -⟩ <;> simp [hmethod]

theorem NeedsClaims.not_cutShort (h : r.NeedsClaims limit) : ¬ r.CutShort limit := by
  rcases h with ⟨hmethod, -⟩ | ⟨-, hok⟩ | ⟨hmethod, -⟩
  · exact not_cutShort_of_get hmethod
  · rintro ⟨-, hbody⟩
    rw [postStatus, if_pos hbody] at hok
    cases hok
  · exact not_cutShort_of_get hmethod

end Request

namespace Service

section
variable {σ : Type} {v : Service σ} {day : Date} {r : Request} {s : σ}

/-- A request that is passed on is answered by its endpoint. -/
theorem serve_of_route {x : Response} (hmethod : r.method ∈ ["GET", "POST"])
    (hcut : ¬ r.CutShort v.settings.maxBodySize)
    (hx : (route v.store v.settings.maxBodySize day r s).ending = .ok x) :
    (v.serve day r s).response.status = x.status ∧ (v.serve day r s).response.body = x.body := by
  have hne : ∀ m ∈ ["GET", "POST"], m ≠ "OPTIONS" ∧ m ≠ "HEAD" := by decide
  obtain ⟨hoptions, hhead⟩ := hne r.method hmethod
  have hinside : v.inside day r s = _ := withRequestLog_whole hcut (v.handlers day)
  have hresponse : (v.inside day r s).response = x := by
    rw [hinside]
    exact withPanicGuard_response hx
  exact ⟨(serve_status hoptions).trans (congrArg Response.status hresponse),
    (serve_body hoptions hhead).trans (congrArg Response.body hresponse)⟩

/-- **A store that fails** is not changed, and a request that needs it is told nothing but that. -/
theorem exchange_failing (hstore : v.store.FailsAt s) :
    let x := v.exchange day r s
    x.after = s ∧
      (r.NeedsClaims v.settings.maxBodySize → x.response.status = .internalError ∧
        x.response.body = Utf8.encode "Internal server error") ∧
      (r.AsksReady → x.response.status = .unavailable) := by
  refine ⟨serve_stays hstore.list.2 fun _ c => (hstore.append c).2, fun hr => ?_, fun hr => ?_⟩
  · exact serve_of_route hr.method hr.not_cutShort (route_needsClaims hr hstore)
  · have hmethod : r.method ∈ ["GET", "POST"] := by simp [hr.1]
    exact (serve_of_route hmethod (Request.not_cutShort_of_get hr.1) (route_asksReady hr hstore)).1

end
end Service
end Http

/-! ## Starts and requests -/

/-- What a service goes through: a start of the program, or a request that comes on a day. -/
inductive Turn where
  | start
  | request (day : Date) (r : Http.Request)

/-- What came of it. -/
inductive Episode where
  | started (report : List (Startup.Origin × Event)) (after : Disk)
  | served (x : Http.Exchange Disk)

namespace Episode

def turn : Episode → Turn
  | started .. => .start
  | served x => .request x.day x.request

def after : Episode → Disk
  | started _ d => d
  | served x => x.after

end Episode

namespace FileStore

/-- One turn of a service on the claim file. -/
def episode (s : FileStore) (settings : Settings) (t : Turn) (d : Disk) : Episode :=
  match t with
  | .start => .started (Startup.checkStore s d).1 (Startup.checkStore s d).2
  | .request day r => .served ((Http.Service.mk s.store settings).exchange day r d)

/-- Turns of a service on the claim file, one after the other. -/
def live (s : FileStore) (settings : Settings) : List Turn → Disk → List Episode × Disk
  | [], d => ([], d)
  | t :: ts, d =>
    let e := s.episode settings t d
    let (es, d) := s.live settings ts e.after
    (e :: es, d)

section
variable {s : FileStore} {settings : Settings} {d : Disk} {e : FileError}

theorem episode_turn (t : Turn) : (s.episode settings t d).turn = t := by
  cases t <;> rfl

/-- Turns that change nothing are each as it would be at first. -/
theorem live_still {ts : List Turn} (h : ∀ t ∈ ts, (s.episode settings t d).after = d) :
    s.live settings ts d = (ts.map (s.episode settings · d), d) := by
  induction ts with
  | nil => rfl
  | cons t ts ih =>
    obtain ⟨ht, hts⟩ := List.forall_mem_cons.1 h
    rw [live, ht, ih hts]
    rfl

theorem live_of_still (h : ∀ t, (s.episode settings t d).after = d) (ts : List Turn) :
    s.live settings ts d = (ts.map (s.episode settings · d), d) :=
  live_still fun t _ => h t

theorem checkStore_unreadable (hfile : d.exists? s.path = .ok true) (he : s.read? d = .error e) :
    Startup.checkStore s d = ([(.program, Startup.unreadableEvent s e)], d) := by
  simp only [Startup.checkStore, run_load hfile, he, List.map_nil, List.nil_append]

/-- One turn on a file that cannot be read. -/
theorem episode_after_unreadable (hfile : d.exists? s.path = .ok true) (he : s.read? d = .error e)
    (t : Turn) : (s.episode settings t d).after = d := by
  cases t with
  | start => exact congrArg Prod.snd (checkStore_unreadable hfile he)
  | request day r => exact (Http.Service.exchange_failing (failsAt hfile he)).1

end

/-- **A claim file that cannot be read is kept as it is, and not taken for an empty one**, through any
starts and requests. -/
theorem unreadable_file_kept (s : FileStore) (settings : Settings) (d : Disk) (bytes : Bytes)
    (ts : List Turn) (hfile : d.readBytes s.path = .ok bytes) (hnone : ∀ cs, ¬ s.Lists d cs) :
    let (es, final) := s.live settings ts d
    es.map Episode.turn = ts ∧ final = d ∧ final.readBytes s.path = .ok bytes ∧
      (∀ x, .served x ∈ es → x.before = d ∧ x.after = d ∧
        (x.request.NeedsClaims settings.maxBodySize → x.response.status = .internalError ∧
          x.response.body = Utf8.encode "Internal server error") ∧
        (x.request.AsksReady → x.response.status = .unavailable)) ∧
      ∀ report after, .started report after ∈ es →
        after = d ∧ ∃ e, report = [(.program, Startup.unreadableEvent s e)] := by
  have hexists := Disk.exists?_of_readBytes hfile
  obtain ⟨e, he⟩ : ∃ e, s.read? d = .error e := by
    cases hread : s.read? d with
    | error e => exact ⟨e, rfl⟩
    | ok cs => exact absurd (read?_eq_ok.1 hread) (hnone cs)
  -- No turn changes the disk, so each of them meets the disk of the start.
  rw [live_of_still (episode_after_unreadable hexists he)]
  refine ⟨?_, rfl, hfile, fun x hx => ?_, fun report after hstart => ?_⟩
  · simp [episode_turn, Function.comp_def]
  · obtain ⟨t, -, ht⟩ := List.mem_map.1 hx
    cases t with
    | start => cases ht
    | request day r =>
      obtain rfl := Episode.served.inj ht
      exact ⟨rfl, Http.Service.exchange_failing (failsAt hexists he)⟩
  · obtain ⟨t, -, ht⟩ := List.mem_map.1 hstart
    cases t with
    | request day r => cases ht
    | start =>
      obtain ⟨rfl, rfl⟩ := Episode.started.inj ht
      rw [checkStore_unreadable hexists he]
      exact ⟨rfl, e, rfl⟩

/-- A file with more after its list, a start, and requests for the claims and for readiness. -/
theorem unreadable_file_kept_trailing :
    let s : FileStore := ⟨.ofText "data/claims.json"⟩
    let d : Disk :=
      ⟨[(["data"], .directory), (["data", "claims.json"], .file (Utf8.encode "[] x"))], []⟩
    let get (target : String) : Http.Request := ⟨"GET", .ofText target, .ofList [], .whole []⟩
    let ts : List Turn :=
      [.start, .request default (get "/api/claims"), .request default (get "/health/ready")]
    let (es, final) := s.live .standard ts d
    es.map Episode.turn = ts ∧ final.readBytes s.path = .ok (Utf8.encode "[] x") ∧
      (∀ x, .served x ∈ es → x.request = get "/api/claims" → x.response.status = .internalError) ∧
      ∀ x, .served x ∈ es → x.request = get "/health/ready" → x.response.status = .unavailable := by
  intro s d get ts
  have hfile : d.readBytes s.path = .ok (Utf8.encode "[] x") := by decide +kernel
  have hnone : ∀ cs, ¬ s.Lists d cs := by
    have hread : (s.read? d).toOption = none := by decide +kernel
    intro cs hcs
    rw [read?_eq_ok.2 hcs] at hread
    cases hread
  have hlists : (get "/api/claims").Lists := ⟨rfl, by decide +kernel⟩
  have hready : (get "/health/ready").AsksReady := ⟨rfl, by decide +kernel⟩
  obtain ⟨hturns, -, hkept, hserved, -⟩ := unreadable_file_kept s .standard d _ ts hfile hnone
  refine ⟨hturns, hkept, fun x hx hr => ?_, fun x hx hr => ?_⟩
  · rw [← hr] at hlists
    exact ((hserved x hx).2.2.1 (.inl hlists)).1
  · rw [← hr] at hready
    exact (hserved x hx).2.2.2 hready

end FileStore
end CustomsClaims
