import CustomsClaims.Proofs.Claim.Exact
import CustomsClaims.Proofs.Store.File
import CustomsClaims.Store.Memory

/-!
# Requests to a store

A request lists the claims of a store or appends one. A list of claims says how it is to be served
(`Request.served`, `Request.after`), which is what a store in memory does (`MemoryStore.serve_eq`).
`FileStore.steps_serve`: so does a claim file when no operation fails, as far as values go. The disk
then stands for the list that its file holds (`FileStore.Represents`), where amounts are compared by
their values, and every amount is one that reads back unchanged.
-/

namespace CustomsClaims

/-- A call on a store. -/
inductive Request where
  | list
  | append (c : Claim)
deriving DecidableEq

/-- What a call gives. -/
inductive Served where
  | claims (cs : List Claim)
  | appended
deriving DecidableEq

/-- The claims without the signs of amounts that are zero. -/
def Served.plain : Served → Served
  | claims cs => .claims (cs.map Claim.plain)
  | appended => .appended

namespace Request

/-- The claims that the request appends. -/
def claims : Request → List Claim
  | list => []
  | append c => [c]

/-- What the request gives in a store of these claims. -/
def served (r : Request) (cs : List Claim) : Served :=
  match r with
  | list => .claims cs
  | append _ => .appended

/-- The claims of the store after the request. -/
def after (r : Request) (cs : List Claim) : List Claim :=
  cs ++ r.claims

/-- Does every appended claim read back unchanged? -/
def Exact (r : Request) : Prop :=
  ∀ c ∈ r.claims, c.Exact

end Request

/-! ## Stores -/

def Answer.map {α β : Type} (f : α → β) : Answer α → Answer β
  | .ok a => .ok (f a)
  | .failed e => .failed e
  | .panicked p => .panicked p

namespace ClaimStore

variable {σ : Type}

/-- Carries out a request: its answer, and the state after it. -/
def serve (st : ClaimStore σ) (r : Request) (x : σ) : Answer Served × σ :=
  match r with
  | .list => ((st.list x).answer.map .claims, (st.list x).state)
  | .append c => ((st.append c x).answer.map fun _ => .appended, (st.append c x).state)

/-- Carries out requests one after the other: their answers, and the state at the end. -/
def run (st : ClaimStore σ) : List Request → σ → List (Answer Served) × σ
  | [], x => ([], x)
  | r :: rs, x =>
    ((st.serve r x).1 :: (st.run rs (st.serve r x).2).1, (st.run rs (st.serve r x).2).2)

theorem run_append (st : ClaimStore σ) (rs ss : List Request) (x : σ) :
    st.run (rs ++ ss) x =
      ((st.run rs x).1 ++ (st.run ss (st.run rs x).2).1, (st.run ss (st.run rs x).2).2) := by
  induction rs generalizing x with
  | nil => rfl
  | cons r rs ih =>
    rw [List.cons_append, run, ih, run]
    rfl

end ClaimStore

theorem MemoryStore.serve_eq (r : Request) (cs : List Claim) :
    store.serve r cs = (.ok (r.served cs), r.after cs) := by
  cases r with
  | list => simp [ClaimStore.serve, store, Answer.map, Request.served, Request.after,
      Request.claims]
  | append c => rfl

/-! ## Claim files -/

namespace FileStore

/-- The work on a claim file for a request. -/
def serve (s : FileStore) : Request → Work Served
  | .list => do return .claims (← s.load)
  | .append c => do
    s.append c
    return .appended

/-- Does no operation fail when the requests are carried out one after the other? -/
def faultlessRun (s : FileStore) : List Request → Disk → Bool
  | [], _ => true
  | r :: rs, d => (s.serve r).run.faultless d && s.faultlessRun rs (s.store.serve r d).2

/-- The disk stands for a list of claims that read back unchanged. -/
def Represents (s : FileStore) (d : Disk) (cs : List Claim) : Prop :=
  (∀ c ∈ cs, c.Exact) ∧ ∃ xs, s.Holds d xs ∧ xs.map Claim.plain = cs.map Claim.plain

variable {s : FileStore} {d d' : Disk} {cs : List Claim} {r : Request}

/-- **A request to a claim file is served as the list asks**, if no operation fails. -/
theorem steps_serve {b : Except FileError Served} (hd : s.Represents d cs) (hr : r.Exact)
    (h : Script.Steps ((s.serve r).run, d) (.done b, d')) :
    ∃ v, b = .ok v ∧ v.plain = (r.served cs).plain ∧ s.Represents d' (r.after cs) := by
  obtain ⟨hcs, xs, hxs, hplain⟩ := hd
  cases r with
  | list =>
    obtain ⟨ys, d₁, hload, h⟩ | ⟨e, -, hload⟩ := steps_bind h
    · obtain ⟨hys, hlists⟩ := steps_load hxs hload
      obtain rfl := Except.ok.inj hys
      obtain ⟨rfl, rfl⟩ := Script.steps_done h
      refine ⟨_, rfl, by rw [Request.served, Served.plain, Served.plain, hplain], ?_⟩
      rw [Request.after, Request.claims, List.append_nil]
      exact ⟨hcs, ys, .inr hlists, hplain⟩
    · cases (steps_load hxs hload).1
  | append c =>
    have hexact : ∀ x ∈ cs ++ [c], x.Exact := by
      intro x hx
      rcases List.mem_append.1 hx with hx | hx
      · exact hcs x hx
      · exact hr x hx
    have hlonger : (xs ++ [c]).map Claim.plain = (cs ++ [c]).map Claim.plain := by
      rw [List.map_append, List.map_append, hplain]
    obtain ⟨ys, hys, hysplain⟩ := ClaimList.mapM_readBack?_exact hexact hlonger
    obtain ⟨u, d₁, happend, h⟩ | ⟨e, -, happend⟩ := steps_bind h
    · obtain ⟨-, hlists⟩ := steps_append hxs hys happend
      obtain ⟨rfl, rfl⟩ := Script.steps_done h
      exact ⟨_, rfl, rfl, hexact, ys, .inr hlists, hysplain⟩
    · cases (steps_append hxs hys happend).1

theorem store_serve_of_steps {v : Served}
    (h : Script.Steps ((s.serve r).run, d) (.done (.ok v), d')) :
    s.store.serve r d = (.ok v, d') := by
  cases r with
  | list =>
    obtain ⟨xs, d₁, hload, h⟩ | ⟨e, he, -⟩ := steps_bind h
    · obtain ⟨hv, rfl⟩ := Script.steps_done h
      obtain rfl := Except.ok.inj hv
      obtain ⟨hanswer, hstate⟩ := reply_of_steps hload
      simp only [ClaimStore.serve, store, hanswer, hstate, Answer.map]
    · cases he
  | append c =>
    obtain ⟨u, d₁, happend, h⟩ | ⟨e, he, -⟩ := steps_bind h
    · obtain ⟨hv, rfl⟩ := Script.steps_done h
      obtain rfl := Except.ok.inj hv
      obtain ⟨hanswer, hstate⟩ := reply_of_steps happend
      simp only [ClaimStore.serve, store, hanswer, hstate, Answer.map]
    · cases he

end FileStore
end CustomsClaims
