import CustomsClaims.Proofs.Http.Unreadable
import CustomsClaims.Proofs.Store.Creation

/-!
# Requests that read the claims

A request that asks for the claims, searches them or asks whether the service is ready is answered from
the list of the store and from nothing else (`Http.AnswersFrom`), with 200 exactly if the store gives
its list (`Http.Service.serve_status_iff`). Any other request but one that brings a claim leaves the
store alone (`Http.Service.serve_not_opens`).

On a claim file, then, the first of these requests or the first start creates a missing file, and nothing
changes afterwards: `FileStore.reading_agrees`.
-/

namespace CustomsClaims

/-! ## Searches without restrictions -/

namespace SearchParams

/-- The parameters restrict nothing. -/
structure Unrestricted (p : SearchParams) : Prop where
  hts : ∀ text ∈ p.hts, Tariff.Pattern.entries text = []
  range : p.range = .none
  earliest : p.earliest = .none
  latest : p.latest = .none
  importerName : p.importerName = .none

theorem Unrestricted.apply_eq {p : SearchParams} {day : Date} {q : Query} (h : p.Unrestricted)
    (hq : p.query day = .ok q) (cs : List Claim) : q.apply cs = cs := by
  rw [Query.apply_eq_filter]
  apply List.filter_eq_self.2
  intro c _
  apply (accepts_of_query hq c).2
  refine ⟨fun text htext => .inl (h.hts text htext), ?_, ?_⟩
  · exact .inl ⟨h.range, h.earliest, h.latest⟩
  · simp [h.importerName]

end SearchParams

namespace Http

namespace Request

/-! ## Requests for which the list is asked -/

/-- The request, where a `HEAD` counts as its `GET`. -/
def asGet (r : Request) : Request :=
  if r.method = "HEAD" then { r with method := "GET" } else r

/-- Does the request ask for the list of claims, in any of the three ways? -/
def Opens (r : Request) : Prop := r.asGet.Lists ∨ r.asGet.AsksReady ∨ r.asGet.Searches

/-- Is it a search that restricts nothing? -/
def Unfiltered (r : Request) : Prop :=
  ∃ p, SearchParams.parse (Utf8.encode (r.target.query.getD "")) = .ok p ∧ p.Unrestricted

section
variable {r : Request} {day : Date}

@[simp] theorem asGet_target (r : Request) : r.asGet.target = r.target := by
  unfold asGet
  split <;> rfl

theorem asGet_method : r.asGet.method = "GET" ↔ r.method ∈ ["GET", "HEAD"] := by
  unfold asGet
  split <;> simp_all

theorem asGet_query? (r : Request) (day : Date) : r.asGet.query? day = r.query? day := by
  rw [query?, query?, asGet_target]

theorem Opens.method (h : r.Opens) : r.method ∈ ["GET", "HEAD"] := by
  apply asGet_method.1
  rcases h with h | h | h
  · exact h.1
  · exact h.1
  · exact h.1

theorem not_cutShort_of_read {limit : Nat} (h : r.method ∈ ["GET", "HEAD"]) :
    ¬ r.CutShort limit := by
  have hother : ∀ m ∈ ["GET", "HEAD"], m ∉ ["POST", "PUT", "PATCH"] := by decide
  exact fun hcut => hother _ h hcut.1

/-- Only valid parameters give a query. -/
theorem valid_of_query? {q : Query} (h : r.query? day = .ok q) :
    ∃ p, SearchParams.parse (Utf8.encode (r.target.query.getD "")) = .ok p ∧
      p.query day = .ok q ∧ ¬ p.BadPatterns ∧ ¬ p.BadBounds := by
  obtain ⟨p, hp, hq⟩ := Disk.bind_eq_ok h
  have hparse : SearchParams.parse (Utf8.encode (r.target.query.getD "")) = .ok p := by
    cases hparse : SearchParams.parse (Utf8.encode (r.target.query.getD "")) with
    | error e =>
      rw [hparse] at hp
      cases hp
    | ok p' =>
      rw [hparse] at hp
      exact congrArg _ (Except.ok.inj hp)
  cases hquery : p.query day with
  | error e =>
    rw [hquery] at hq
    cases hq
  | ok q' =>
    rw [hquery] at hq
    obtain rfl : q' = q := Except.ok.inj hq
    have hgood : ¬ (p.BadPatterns ∨ p.BadBounds) := by
      intro hbad
      obtain ⟨e, he⟩ : ∃ e, p.query day = .error e := SearchParams.query_error_iff.2 hbad
      rw [hquery] at he
      cases he
    exact ⟨p, hparse, hquery, not_or.1 hgood⟩

end
end Request

/-! ## Endpoints -/

/-- The answer is made from the list of the store: with 200 if there is one. -/
def AnswersFrom {σ : Type} (store : ClaimStore σ) (good : List Claim → Answered)
    (answer : σ → Handled σ) : Prop :=
  (∀ cs, (good cs).1.status = .ok) ∧
    ∃ bad, (∀ e, (bad e).1.status ≠ .ok) ∧ ∀ s, answer s = .ofReply good bad (store.list s)

section
variable {σ : Type} {store : ClaimStore σ} {limit : Nat} {day : Date} {r : Request} {s : σ}

theorem store_failure_not_ok (e : StoreError) : (Failure.store e).answered.1.status ≠ .ok := by
  show Status.internalError ≠ .ok
  decide

/-- Every endpoint can be read. -/
theorem read_at {e : Endpoint} (hmethod : r.asGet.method = "GET")
    (hpath : r.asGet.target.path = e.path) :
    r.target.path = e.path ∧ r.method ∈ e.methods ∧ r.method ≠ "POST" := by
  have hall : ∀ m ∈ ["GET", "HEAD"], (∀ e : Endpoint, m ∈ e.methods) ∧ m ≠ "POST" := by
    intro m hm
    refine ⟨fun e => ?_, ?_⟩
    · revert m
      cases e <;> decide
    · revert m
      decide
  obtain ⟨hmember, hpost⟩ := hall _ (Request.asGet_method.1 hmethod)
  rw [Request.asGet_target] at hpath
  exact ⟨hpath, hmember e, hpost⟩

theorem answersFrom_lists (h : r.asGet.Lists) :
    AnswersFrom store listed (route store limit day r) := by
  refine ⟨fun _ => rfl, _, store_failure_not_ok, fun s => ?_⟩
  obtain ⟨hpath, hmember, hpost⟩ := read_at (e := .claims) h.1 h.2
  rw [route_eq hpath, Endpoint.handle, if_neg (Decidable.not_not.2 hmember)]
  exact if_neg hpost

theorem answersFrom_asksReady (h : r.asGet.AsksReady) :
    AnswersFrom store (fun _ => ready) (route store limit day r) := by
  refine ⟨fun _ => rfl, notReady, fun e => ?_, fun s => ?_⟩
  · show Status.unavailable ≠ .ok
    decide
  · obtain ⟨hpath, hmember, -⟩ := read_at (e := .readiness) h.1 h.2
    rw [route_eq hpath, Endpoint.handle, if_neg (Decidable.not_not.2 hmember)]

theorem answersFrom_searches (h : r.asGet.Searches) :
    ∃ q, r.query? day = .ok q ∧ AnswersFrom store (found q) (route store limit day r) := by
  obtain ⟨q, hq⟩ := Request.query?_of_searches h day
  rw [Request.asGet_query?] at hq
  refine ⟨q, hq, fun _ => rfl, _, store_failure_not_ok, fun s => ?_⟩
  obtain ⟨hpath, hmember, -⟩ := read_at (e := .search) h.1 h.2.1
  rw [route_eq hpath, Endpoint.handle, if_neg (Decidable.not_not.2 hmember), Endpoint.find, hq]

theorem answersFrom_opens (h : r.Opens) :
    ∃ good, AnswersFrom store good (route store limit day r) := by
  rcases h with h | h | h
  · exact ⟨_, answersFrom_lists h⟩
  · exact ⟨_, answersFrom_asksReady h⟩
  · obtain ⟨q, -, hq⟩ := answersFrom_searches h
    exact ⟨_, hq⟩

/-- An endpoint that asks the store is one of the three, or stores a claim. -/
theorem route_not_opens (hposts : ¬ r.Posts) (h : ¬ r.Opens) :
    (route store limit day r s).state = s := by
  unfold route
  cases he : Endpoint.ofPath? r.target.path with
  | none => rfl
  | some e =>
    have hpath := Endpoint.ofPath?_eq_some.1 he
    have hget (hmethod : r.method ∈ ["GET", "HEAD"]) :
        r.asGet.method = "GET" ∧ r.asGet.target.path = e.path :=
      ⟨Request.asGet_method.2 hmethod, by rw [Request.asGet_target, hpath]⟩
    dsimp only
    unfold Endpoint.handle
    split
    case isTrue => rfl
    case isFalse hmember =>
      have hmember := Decidable.not_not.1 hmember
      cases e with
      | health => rfl
      | readiness => exact absurd (.inr (.inl (hget hmember))) h
      | claims =>
        rcases List.mem_cons.1 hmember with hpost | hread
        · exact absurd ⟨hpost, hpath⟩ hposts
        · exact absurd (.inl (hget hread)) h
      | search =>
        show (Endpoint.find store day r s).state = s
        unfold Endpoint.find
        cases hq : r.query? day with
        | error f => rfl
        | ok q =>
          obtain ⟨p, hparse, -, hgood⟩ := Request.valid_of_query? hq
          obtain ⟨hmethod, hpath⟩ := hget hmember
          refine absurd (.inr (.inr ⟨hmethod, hpath, p, ?_, hgood⟩)) h
          rw [Request.asGet_target]
          exact hparse

end

/-! ## Serving -/

namespace Service

section
variable {σ : Type} {v : Service σ} {day : Date} {r : Request} {s : σ}

theorem inside_read (hmethod : r.method ∈ ["GET", "HEAD"]) :
    (v.inside day r s).response = (v.handlers day r s).response ∧
      (v.inside day r s).state = (v.handlers day r s).state := by
  have hinside : v.inside day r s = _ :=
    withRequestLog_whole (Request.not_cutShort_of_read hmethod) (v.handlers day)
  rw [hinside]
  exact ⟨rfl, rfl⟩

theorem not_options_of_read (hmethod : r.method ∈ ["GET", "HEAD"]) : r.method ≠ "OPTIONS" := by
  have hall : ∀ m ∈ ["GET", "HEAD"], m ≠ "OPTIONS" := by decide
  exact hall _ hmethod

variable {good : List Claim → Answered}
  (hroute : AnswersFrom v.store good (route v.store v.settings.maxBodySize day r))
  (hmethod : r.method ∈ ["GET", "HEAD"])
include hroute hmethod

theorem serve_state_of_answersFrom : (v.serve day r s).state = (v.store.list s).state := by
  obtain ⟨-, bad, -, hreply⟩ := hroute
  rw [serve_state (not_options_of_read hmethod), (inside_read hmethod).2, handlers,
    withPanicGuard_state, hreply, Handled.ofReply_state]

/-- **The answer is 200 exactly if the store gives its list.** -/
theorem serve_status_iff :
    (v.serve day r s).response.status = .ok ↔ ∃ cs, (v.store.list s).answer = .ok cs := by
  obtain ⟨hgood, bad, hbad, hreply⟩ := hroute
  rw [serve_status (not_options_of_read hmethod), (inside_read hmethod).1, handlers, withPanicGuard,
    hreply]
  unfold Handled.ofReply
  cases (v.store.list s).answer with
  | ok cs => exact ⟨fun _ => ⟨cs, rfl⟩, fun _ => hgood cs⟩
  | failed e =>
    constructor
    · intro h
      exact absurd h (hbad e)
    · rintro ⟨cs, h⟩
      cases h
  | panicked p =>
    constructor
    · intro h
      cases h
    · rintro ⟨cs, h⟩
      cases h

theorem serve_body_of_answersFrom {cs : List Claim} (h : (v.store.list s).answer = .ok cs) :
    (v.serve day r s).response.body =
      if r.method = "HEAD" then [] else (good cs).1.body := by
  obtain ⟨-, bad, -, hreply⟩ := hroute
  by_cases hhead : r.method = "HEAD"
  · rw [if_pos hhead]
    simp [serve, complete, hhead]
  · have hending : (route v.store v.settings.maxBodySize day r s).ending = .ok (good cs).1 := by
      rw [hreply, Handled.ofReply]
      simp only [h]
    rw [if_neg hhead, serve_body (not_options_of_read hmethod) hhead, (inside_read hmethod).1,
      handlers, withPanicGuard_response hending]

end

section
variable {σ : Type} {v : Service σ} {day : Date} {r : Request} {s : σ}

theorem serve_opens (h : r.Opens) : (v.serve day r s).state = (v.store.list s).state := by
  obtain ⟨good, hgood⟩ := answersFrom_opens h
  exact serve_state_of_answersFrom hgood h.method

/-- **No other request asks the store**, unless it brings a claim. -/
theorem serve_not_opens (hposts : ¬ r.Posts) (h : ¬ r.Opens) : (v.serve day r s).state = s := by
  by_cases hoptions : r.method = "OPTIONS"
  · exact serve_options hoptions
  rw [serve_state hoptions]
  apply withRequestLog_state
  rw [withPanicGuard_state]
  exact route_not_opens hposts h

/-- **The three ways to ask for the list agree.** -/
theorem reading_requests_agree {list ready search : Request} (hlist : list.asGet.Lists)
    (hready : ready.asGet.AsksReady) (hsearch : search.asGet.Searches) (v : Service σ) (day : Date)
    (s : σ) :
    let served (r : Request) := (v.serve day r s).response
    ((served list).status = .ok ↔ (served ready).status = .ok) ∧
    ((served list).status = .ok ↔ (served search).status = .ok) ∧
    ((served list).status = .ok ↔ ∃ cs, (v.store.list s).answer = .ok cs) ∧
    ((served list).status = .ok → search.Unfiltered → list.method = search.method →
      (served list).body = (served search).body) := by
  intro served
  have hlistmethod := Request.asGet_method.1 hlist.1
  have hsearchmethod := Request.asGet_method.1 hsearch.1
  have hfromlist : AnswersFrom v.store _ (route v.store v.settings.maxBodySize day list) :=
    answersFrom_lists hlist
  have hfromready : AnswersFrom v.store _ (route v.store v.settings.maxBodySize day ready) :=
    answersFrom_asksReady hready
  obtain ⟨q, hq, hfromsearch⟩ : ∃ q, search.query? day = .ok q ∧
      AnswersFrom v.store (found q) (route v.store v.settings.maxBodySize day search) :=
    answersFrom_searches hsearch
  have hstatus := serve_status_iff (s := s) hfromlist hlistmethod
  refine ⟨?_, ?_, hstatus, fun hok hunfiltered hsame => ?_⟩
  · exact hstatus.trans (serve_status_iff hfromready (Request.asGet_method.1 hready.1)).symm
  · exact hstatus.trans (serve_status_iff hfromsearch hsearchmethod).symm
  · obtain ⟨cs, hcs⟩ := hstatus.1 hok
    obtain ⟨p, hp, hunrestricted⟩ := hunfiltered
    obtain ⟨p', hp', hquery, -⟩ := Request.valid_of_query? hq
    obtain rfl : p = p' := Except.ok.inj (hp.symm.trans hp')
    show (v.serve day list s).response.body = (v.serve day search s).response.body
    rw [serve_body_of_answersFrom hfromlist hlistmethod hcs,
      serve_body_of_answersFrom hfromsearch hsearchmethod hcs, hsame]
    show (if _ then _ else (listed cs).1.body) = if _ then _ else (listed (q.apply cs)).1.body
    rw [hunrestricted.apply_eq hquery]

end
end Service
end Http

/-! ## Starts and requests -/

/-- Does the turn ask for the list of claims? -/
def Turn.Opens : Turn → Prop
  | .start => True
  | .request _ r => r.Opens

namespace FileStore

section
variable {s : FileStore} {settings : Settings} {d d' : Disk} {t : Turn} {ts us : List Turn}

theorem episode_opens (h : t.Opens) :
    (s.episode settings t d).after = (s.load.run.run d).disk := by
  cases t with
  | start => rfl
  | request day r => exact Http.Service.serve_opens h

theorem episode_not_opens (hposts : ∀ day r, t = .request day r → ¬ r.Posts) (h : ¬ t.Opens) :
    (s.episode settings t d).after = d := by
  cases t with
  | start => exact absurd trivial h
  | request day r => exact Http.Service.serve_not_opens (hposts day r rfl) h

theorem live_append (ts us : List Turn) (d : Disk) :
    s.live settings (ts ++ us) d =
      ((s.live settings ts d).1 ++ (s.live settings us (s.live settings ts d).2).1,
        (s.live settings us (s.live settings ts d).2).2) := by
  induction ts generalizing d with
  | nil => rfl
  | cons t ts ih =>
    rw [List.cons_append, live, ih, live]
    rfl

/-- Where the file is there, no turn changes anything. -/
theorem episode_there (hfile : d.exists? s.path = .ok true)
    (hposts : ∀ day r, t = .request day r → ¬ r.Posts) : (s.episode settings t d).after = d := by
  by_cases h : t.Opens
  · rw [episode_opens h, run_load hfile]
  · exact episode_not_opens hposts h

/-- The first turn that opens a missing file creates it. -/
theorem live_creating (hposts : ∀ day r, .request day r ∈ ts ++ t :: us → ¬ r.Posts)
    (hts : ∀ x ∈ ts, ¬ x.Opens) (ht : t.Opens) (hmissing : d.exists? s.path = .ok false)
    (hread : s.load.run.faultless d) :
    let (es, final) := s.live settings (ts ++ t :: us) d
    es.map Episode.after =
        ts.map (fun _ => d) ++ (t :: us).map (fun _ => (s.load.run.run d).disk) ∧
      final = (s.load.run.run d).disk := by
  obtain ⟨-, hcreates⟩ := load_creates hmissing hread
  have hfile := Disk.exists?_of_readBytes hcreates.readBytes
  have hbefore : ∀ x ∈ ts, (s.episode settings x d).after = d := by
    intro x hx
    refine episode_not_opens (fun day r hr => hposts day r ?_) (hts x hx)
    rw [← hr]
    exact List.mem_append_left _ hx
  have hafter : ∀ x ∈ us, (s.episode settings x (s.load.run.run d).disk).after =
      (s.load.run.run d).disk := by
    intro x hx
    refine episode_there hfile fun day r hr => hposts day r ?_
    rw [← hr]
    exact List.mem_append_right _ (List.mem_cons_of_mem _ hx)
  have hfirst : ts.map (Episode.after ∘ (s.episode settings · d)) = ts.map fun _ => d :=
    List.map_congr_left hbefore
  have hlater : us.map (Episode.after ∘ (s.episode settings · (s.load.run.run d).disk)) =
      us.map fun _ => (s.load.run.run d).disk := List.map_congr_left hafter
  rw [live_append, live_still hbefore, live, episode_opens ht, live_still hafter]
  refine ⟨?_, rfl⟩
  rw [List.map_append, List.map_map, List.map_cons, List.map_map, hfirst, hlater, episode_opens ht]
  rfl

theorem list_answer_ok {cs : List Claim} :
    (s.store.list d).answer = .ok cs ↔ (s.load.run.run d).value = .ok cs := by
  simp only [store, reply]
  cases hvalue : (s.load.run.run d).value with
  | ok xs => simp
  | error e => simp

/-- A start says that the store is ready exactly if the claims can be read. -/
theorem checkStore_ready_iff :
    (∃ cs, (.program, Startup.readyEvent s cs) ∈ (Startup.checkStore s d).1) ↔
      ∃ cs, (s.store.list d).answer = .ok cs := by
  simp only [list_answer_ok, Startup.checkStore, List.mem_append, List.mem_singleton]
  cases hvalue : (s.load.run.run d).value with
  | ok xs => exact ⟨fun _ => ⟨xs, rfl⟩, fun _ => ⟨xs, .inr rfl⟩⟩
  | error e =>
    constructor
    · rintro ⟨cs, hlog | hreport⟩
      · obtain ⟨event, -, heq⟩ := List.mem_map.1 hlog
        cases (Prod.mk.inj heq).1
      · cases congrArg Event.level (Prod.mk.inj hreport).2
    · rintro ⟨cs, h⟩
      cases h

end

/-- **Reading agrees everywhere and never rewrites.** Let a service on a claim file go through starts
and requests, none of which brings a claim. If the file is there, nothing on the disk changes. If it is
missing and can be created, the first turn that opens it does so, with an empty list, and nothing changes
before or after. On every disk that may come up, the claims, a valid search and the question whether the
service is ready are answered with 200 together, just if a start finds the store ready; and a search
without restrictions then has the body of the list. -/
theorem reading_agrees (s : FileStore) (settings : Settings) (d : Disk) (ts : List Turn)
    (hts : ∀ day r, .request day r ∈ ts → ¬ r.Posts) :
    (d.exists? s.path = .ok true →
      let (es, final) := s.live settings ts d
      final = d ∧ ∀ e ∈ es, e.after = d) ∧
    (d.exists? s.path = .ok false → ∀ before t after, ts = before ++ t :: after →
      (∀ x ∈ before, ¬ x.Opens) → t.Opens → s.load.run.faultless d →
      ∃ created, created.readBytes s.path = .ok (Utf8.encode "[]") ∧ s.Creates d created ∧
        let (es, final) := s.live settings ts d
        es.map Episode.after = before.map (fun _ => d) ++ (t :: after).map (fun _ => created) ∧
          final = created) ∧
    ∀ (now : Disk) (day : Date) (list ready search : Http.Request),
      list.asGet.Lists → ready.asGet.AsksReady → search.asGet.Searches →
      let served (r : Http.Request) := ((Http.Service.mk s.store settings).serve day r now).response
      ((served list).status = .ok ↔ (served ready).status = .ok) ∧
      ((served list).status = .ok ↔ (served search).status = .ok) ∧
      ((served list).status = .ok ↔
        ∃ cs, (.program, Startup.readyEvent s cs) ∈ (Startup.checkStore s now).1) ∧
      ((served list).status = .ok → search.Unfiltered → list.method = search.method →
        (served list).body = (served search).body) := by
  refine ⟨fun hfile => ?_, fun hmissing before t after hsplit hbefore ht hread => ?_, ?_⟩
  · have hstill : ∀ t ∈ ts, (s.episode settings t d).after = d := by
      intro t ht
      exact episode_there hfile fun day r hr => hts day r (hr ▸ ht)
    rw [live_still hstill]
    refine ⟨rfl, fun e he => ?_⟩
    obtain ⟨t, ht, rfl⟩ := List.mem_map.1 he
    exact hstill t ht
  · obtain ⟨-, hcreates⟩ := load_creates hmissing hread
    refine ⟨_, hcreates.readBytes, hcreates, ?_⟩
    subst hsplit
    exact live_creating hts hbefore ht hmissing hread
  · intro now day list ready search hlist hready hsearch
    obtain ⟨hwithready, hwithsearch, hstored, hbody⟩ :=
      Http.Service.reading_requests_agree hlist hready hsearch ⟨s.store, settings⟩ day now
    exact ⟨hwithready, hwithsearch, hstored.trans checkStore_ready_iff.symm, hbody⟩

/-- The file is missing until the start, which comes after a question about health. -/
theorem reading_agrees_missing_file :
    let s : FileStore := ⟨.ofText "data/claims.json"⟩
    let d : Disk := ⟨[], []⟩
    let get (target : String) : Http.Request := ⟨"GET", .ofText target, .ofList [], .whole []⟩
    let ask (target : String) : Turn := .request default (get target)
    let ts : List Turn := [ask "/health", .start, ask "/api/claims"]
    let served (target : String) :=
      ((Http.Service.mk s.store .standard).serve default (get target) d).response
    (∃ created, created.readBytes s.path = .ok (Utf8.encode "[]") ∧
      (s.live .standard ts d).1.map Episode.after = [d, created, created]) ∧
    (served "/api/claims").status = .ok ∧ (served "/health/ready").status = .ok ∧
      (served "/api/claims/search?hts=%2C").status = .ok ∧
      (served "/api/claims").body = (served "/api/claims/search?hts=%2C").body := by
  intro s d get ask ts served
  have hts : ∀ day r, .request day r ∈ ts → ¬ r.Posts := by
    intro day r hr hposts
    have hmethod : r.method = "GET" := by
      rcases List.mem_cons.1 hr with h | hr
      · exact congrArg Http.Request.method (Turn.request.inj h).2
      · rcases List.mem_cons.1 hr with h | hr
        · cases h
        · exact congrArg Http.Request.method (Turn.request.inj (List.mem_singleton.1 hr)).2
    rw [hposts.1] at hmethod
    revert hmethod
    decide
  have hhealth : ¬ (ask "/health").Opens := by
    rintro (⟨-, hpath⟩ | ⟨-, hpath⟩ | ⟨-, hpath, -⟩) <;> revert hpath <;> decide +kernel
  have hlist : (get "/api/claims").asGet.Lists := ⟨rfl, by decide +kernel⟩
  have hready : (get "/health/ready").asGet.AsksReady := ⟨rfl, by decide +kernel⟩
  have hparams : SearchParams.parse (Utf8.encode ((get "/api/claims/search?hts=%2C").target.query.getD
      "")) = .ok { SearchParams.none with hts := some "," } := by decide +kernel
  have hblank : ∀ text ∈ some ",", Tariff.Pattern.entries text = [] := by decide +kernel
  have hunfiltered : (get "/api/claims/search?hts=%2C").Unfiltered :=
    ⟨_, hparams, hblank, rfl, rfl, rfl, rfl⟩
  have hsearch : (get "/api/claims/search?hts=%2C").asGet.Searches := by
    refine ⟨rfl, by decide +kernel, _, hparams, ?_, ?_⟩
    · rintro ⟨text, htext, entry, hentry, -⟩
      rw [hblank text htext] at hentry
      cases hentry
    · rintro ⟨a, ha, -⟩
      cases ha
  obtain ⟨-, hcreated, hagree⟩ := reading_agrees s .standard d ts hts
  obtain ⟨created, hbytes, -, hafter, -⟩ := hcreated (by decide +kernel) [ask "/health"] .start
    [ask "/api/claims"] rfl (by simpa using hhealth) trivial (by decide +kernel)
  obtain ⟨hwithready, hwithsearch, -, hbody⟩ := hagree d default _ _ _ hlist hready hsearch
  have hok : (served "/api/claims").status = .ok := by decide +kernel
  exact ⟨⟨created, hbytes, hafter⟩, hok, hwithready.1 hok, hwithsearch.1 hok,
    hbody hok hunfiltered rfl⟩

end FileStore
end CustomsClaims
