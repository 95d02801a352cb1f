import CustomsClaims.Proofs.Http.Transparency
import CustomsClaims.Store.File

/-!
# Requests that are refused

A request is refused with a status from 400 to 499 (`Status.IsClientError`). Whether that happens is
settled before the store is asked: a request is either answered without the store, alike on any store
and state, or its status is none of these (`Service.serve_cases`). So a refused request leaves no trace
(`FileStore.refusal_leaves_no_trace`), and a run goes on as if it had not been sent
(`Service.run_without_refusals`).
-/

namespace CustomsClaims.Http

/-- Is the fault said to be with the request? -/
def Status.IsClientError (s : Status) : Prop := 400 ≤ s.code ∧ s.code < 500

instance : DecidablePred Status.IsClientError := fun _ => inferInstanceAs (Decidable (_ ∧ _))

/-! ## Endpoints -/

section
variable {σ α : Type}

theorem Handled.ofReply_ending {good : α → Answered} {bad : StoreError → Answered}
    {reply : Reply σ α} {x : Response} (h : (ofReply good bad reply).ending = .ok x) :
    (∃ a, x = (good a).1) ∨ ∃ e, x = (bad e).1 := by
  unfold ofReply at h
  split at h
  · exact .inl ⟨_, (Except.ok.inj h).symm⟩
  · exact .inr ⟨_, (Except.ok.inj h).symm⟩
  · cases h

end

/-- Either the store is not asked, or the response is no refusal. -/
def Settled (answer : (σ : Type) → ClaimStore σ → σ → Handled σ) : Prop :=
  (∃ a, ∀ σ store s, answer σ store s = .still a s) ∨
    ∀ σ store s x, (answer σ store s).ending = .ok x → ¬ x.status.IsClientError

section
variable {limit : Nat} {day : Date} {r : Request}

/-- The store is asked, and its replies lead to responses that are no refusals. -/
theorem settled_of_asked {α : Type} (ask : (σ : Type) → ClaimStore σ → σ → Reply σ α)
    {good : α → Answered} {bad : StoreError → Answered}
    (hgood : ∀ a, ¬ (good a).1.status.IsClientError) (hbad : ∀ e, ¬ (bad e).1.status.IsClientError) :
    Settled fun σ store s => .ofReply good bad (ask σ store s) := by
  refine .inr fun σ store s x hx => ?_
  obtain ⟨a, rfl⟩ | ⟨e, rfl⟩ := Handled.ofReply_ending hx
  · exact hgood a
  · exact hbad e

theorem not_isClientError_internal (e : StoreError) :
    ¬ (Failure.store e).answered.1.status.IsClientError := by
  show ¬ Status.internalError.IsClientError
  decide

theorem settled_list {good : List Claim → Answered}
    (hgood : ∀ cs, (good cs).1.status = .ok) :
    Settled fun _ store s => .ofReply good (fun e => (Failure.store e).answered) (store.list s) :=
  settled_of_asked (fun _ store s => store.list s) (fun cs => by rw [hgood]; decide)
    not_isClientError_internal

theorem settled_create : Settled fun _ store s => Endpoint.create store limit r s := by
  unfold Endpoint.create
  cases r.claim? limit with
  | error f => exact .inl ⟨f.answered, fun _ _ _ => rfl⟩
  | ok c =>
    refine settled_of_asked (fun _ store s => store.append c s) (fun u => ?_)
      not_isClientError_internal
    show ¬ Status.ok.IsClientError
    decide

theorem settled_find : Settled fun _ store s => Endpoint.find store day r s := by
  unfold Endpoint.find
  cases r.query? day with
  | error f => exact .inl ⟨f.answered, fun _ _ _ => rfl⟩
  | ok q => exact settled_list fun _ => rfl

theorem settled_handle {e : Endpoint} :
    Settled fun _ store s => e.handle store limit day r s := by
  unfold Endpoint.handle
  by_cases hmethod : r.method ∈ e.methods
  · simp only [hmethod, not_true_eq_false, if_false]
    cases e with
    | health => exact .inl ⟨healthy, fun _ _ _ => rfl⟩
    | readiness =>
      refine settled_of_asked (fun _ store s => store.list s) (fun cs => ?_) (fun e => ?_)
      · show ¬ Status.ok.IsClientError
        decide
      · show ¬ Status.unavailable.IsClientError
        decide
    | claims =>
      by_cases hpost : r.method = "POST"
      · simp only [hpost, if_true]
        exact settled_create
      · simp only [hpost, if_false]
        exact settled_list fun _ => rfl
    | search => exact settled_find
  · simp only [hmethod, not_false_eq_true, if_true]
    exact .inl ⟨_, fun _ _ _ => rfl⟩

theorem settled_route : Settled fun _ store s => route store limit day r s := by
  unfold route
  cases Endpoint.ofPath? r.target.path with
  | none => exact .inl ⟨_, fun _ _ _ => rfl⟩
  | some e => exact settled_handle

end

/-! ## Layers -/

/-- `Settled` for a request that is served. -/
def SettledServing (serve : (σ : Type) → ClaimStore σ → σ → Served σ) : Prop :=
  (∃ x log, ∀ σ store s, serve σ store s = ⟨x, log, s⟩) ∨
    ∀ σ store s, ¬ (serve σ store s).response.status.IsClientError

section
variable {r : Request}

theorem settled_withPanicGuard (inner : (σ : Type) → ClaimStore σ → Request → σ → Handled σ)
    (h : Settled fun σ store s => inner σ store r s) :
    SettledServing fun σ store s => withPanicGuard (inner σ store) r s := by
  unfold withPanicGuard
  obtain ⟨a, ha⟩ | h := h
  · dsimp only at ha
    exact .inl ⟨a.1, a.2, fun σ store s => by simp only [ha, Handled.still]⟩
  · refine .inr fun σ store s => ?_
    dsimp only
    split
    case h_1 x hx => exact h σ store s x hx
    case h_2 p hp =>
      show ¬ Status.internalError.IsClientError
      decide

theorem settled_withRequestLog (maxLogSize limit : Nat)
    (inner : (σ : Type) → ClaimStore σ → Serving σ)
    (h : SettledServing fun σ store s => inner σ store r s) :
    SettledServing fun σ store s => withRequestLog maxLogSize limit (inner σ store) r s := by
  by_cases hcut : r.CutShort limit
  · obtain ⟨f, hread⟩ := hcut.read_error
    simp only [withRequestLog_cutShort hcut hread, Served.between]
    exact .inl ⟨_, _, fun _ _ _ => rfl⟩
  · simp only [withRequestLog_whole hcut, Served.between]
    obtain ⟨x, log, hx⟩ | h := h
    · dsimp only at hx
      simp only [hx]
      exact .inl ⟨_, _, fun _ _ _ => rfl⟩
    · exact .inr h

theorem settled_framed (inner : (σ : Type) → ClaimStore σ → Serving σ)
    (h : SettledServing fun σ store s => inner σ store r s) :
    SettledServing fun σ store s => framed (inner σ store) r s := by
  unfold framed withAnyOrigin
  by_cases hoptions : r.method = "OPTIONS"
  · simp only [hoptions, if_true]
    exact .inl ⟨_, _, fun _ _ _ => rfl⟩
  · simp only [hoptions, if_false]
    obtain ⟨x, log, hx⟩ | h := h
    · dsimp only at hx
      simp only [hx]
      exact .inl ⟨_, _, fun _ _ _ => rfl⟩
    · exact .inr h

end

/-! ## Requests -/

/-- The request was refused. -/
def Exchange.Refused {σ : Type} (x : Exchange σ) : Prop := x.response.status.IsClientError

instance {σ : Type} : DecidablePred (Exchange.Refused (σ := σ)) :=
  fun x => inferInstanceAs (Decidable x.response.status.IsClientError)

namespace Service

/-- **A request is refused before the store is asked, or not at all.** -/
theorem serve_cases (settings : Settings) (day : Date) (r : Request) :
    SettledServing fun _ store s => (Service.mk store settings).serve day r s := by
  let routed (σ : Type) (store : ClaimStore σ) := route store settings.maxBodySize day
  let guarded (σ : Type) (store : ClaimStore σ) := withPanicGuard (routed σ store)
  let logged (σ : Type) (store : ClaimStore σ) :=
    withRequestLog settings.maxLogSize settings.maxBodySize (guarded σ store)
  have hguarded : SettledServing fun σ store s => guarded σ store r s :=
    settled_withPanicGuard routed settled_route
  have hlogged : SettledServing fun σ store s => logged σ store r s :=
    settled_withRequestLog _ _ guarded hguarded
  exact settled_framed logged hlogged

section
variable {σ : Type} {v : Service σ} {day : Date} {r : Request} {s : σ}

theorem serve_refused (h : (v.serve day r s).response.status.IsClientError) :
    (v.serve day r s).state = s ∧
      ∀ other : ClaimStore σ, (Service.mk other v.settings).serve day r s = v.serve day r s := by
  obtain ⟨x, log, hx⟩ | hnot := serve_cases v.settings day r
  · have hserve : v.serve day r s = ⟨x, log, s⟩ := hx σ v.store s
    refine ⟨by rw [hserve], fun other => ?_⟩
    rw [hserve]
    exact hx σ other s
  · exact absurd h (hnot σ v.store s)

/-- **Refused requests can be left out of a run.** The others are answered as before, and the state at
the end is the same. -/
theorem run_without_refusals (v : Service σ) (rs : List (Date × Request)) (s : σ) :
    let xs := (v.run rs s).1.filter (¬ ·.Refused)
    v.run (xs.map fun x => (x.day, x.request)) s = (xs, (v.run rs s).2) := by
  induction rs generalizing s with
  | nil => rfl
  | cons r rs ih =>
    obtain ⟨day, r⟩ := r
    let x := v.exchange day r s
    have hrun : v.run ((day, r) :: rs) s = (x :: (v.run rs x.after).1, (v.run rs x.after).2) := rfl
    rw [hrun]
    by_cases hx : x.Refused
    · have hafter : x.after = s := (serve_refused hx).1
      -- The rest of the run starts from where the refused request found the store.
      rw [hafter, List.filter_cons_of_neg (by simpa using hx)]
      exact ih s
    · rw [List.filter_cons_of_pos (by simpa using hx)]
      have hrest := ih x.after
      dsimp only at hrest ⊢
      rw [List.map_cons, run]
      exact congrArg (fun y => (x :: y.1, y.2)) hrest

end

/-- **A refused request leaves no trace** on the disk: no claim is stored, and neither the claim file,
its directory nor the temporary file is written or created. The store is not even asked; any other
one would do. -/
theorem refusal_leaves_no_trace (file : FileStore) (settings : Settings) (day : Date) (r : Request)
    (d : Disk)
    (h : ((Service.mk file.store settings).serve day r d).response.status.IsClientError) :
    ((Service.mk file.store settings).serve day r d).state = d ∧
      ∀ other : ClaimStore Disk, (Service.mk other settings).serve day r d =
        (Service.mk file.store settings).serve day r d :=
  serve_refused h

/-- A body that is no claim is refused with 422 where the claim file is missing, and no file appears. -/
theorem refusal_leaves_no_trace_missing_file :
    let v : Service Disk := ⟨FileStore.store ⟨.ofText "data/claims.json"⟩, .standard⟩
    let d : Disk := ⟨[], []⟩
    let r : Request := ⟨"POST", .ofText "/api/claims", .ofList [], .whole (Utf8.encode "\x7b\x7d")⟩
    (v.serve default r d).response.status = .unprocessable ∧
      (v.serve default r d).state.entries = [] := by
  intro v d r
  have hstatus : (v.serve default r d).response.status = .unprocessable := by decide +kernel
  have herror : (v.serve default r d).response.status.IsClientError := by
    rw [hstatus]
    decide
  obtain ⟨hstate, -⟩ :=
    refusal_leaves_no_trace ⟨.ofText "data/claims.json"⟩ .standard default r d herror
  exact ⟨hstatus, congrArg Disk.entries hstate⟩

end Service
end CustomsClaims.Http
