import CustomsClaims.Proofs.Store.Success
import Mathlib.Logic.Function.Basic

/-!
# Clients of one claim file

Any number of clients share one claim file and make their requests one after the other. A request is
carried out under the lock of the file, operation by operation; the steps of the clients come in any
order (`Clients.Step`), and none of their operations fails. `Clients.Inv` is what holds throughout:

* while the lock is free, the disk stands for the first claims and those appended so far, in an order
  in which each client's claims keep theirs;
* the client that holds the lock has carried out a part of its request, from a disk that stands for
  that list, and nobody has touched the disk in between;
* whatever was answered is the answer of such a list, at some point of the order that is not before
  what had returned when the request was made.
-/

namespace CustomsClaims

/-- Where a client is with a request. `before` of all requests had returned when it was made. -/
inductive Phase where
  | idle
  | waiting (r : Request) (before : Nat)
  /-- Holds the lock, and has this script still to carry out. -/
  | working (r : Request) (before : Nat) (w : Script (Except FileError Served))
  /-- Has given the lock back. -/
  | leaving (r : Request) (before : Nat) (result : Except FileError Served)

/-- A client with the requests that it has still to make. -/
structure Client where
  todo : List Request
  phase : Phase

/-- A request that has returned. -/
structure Return (ι : Type) where
  client : ι
  request : Request
  /-- How many requests had returned when this one was made. -/
  before : Nat
  result : Except FileError Served

/-- The clients `ι` of a claim file. -/
structure Clients (ι : Type) where
  disk : Disk
  /-- The client that holds the lock. -/
  lock : Option ι
  client : ι → Client
  /-- What has returned, in order. -/
  returns : List (Return ι)

namespace Clients

open Function (update)

variable {ι : Type} [DecidableEq ι]

/-- The clients before their first requests. -/
def start (d : Disk) (program : ι → List Request) : Clients ι :=
  ⟨d, none, fun i => ⟨program i, .idle⟩, []⟩

/-- One step of one client on the claim file `s`. -/
inductive Step (s : FileStore) : Clients ι → Clients ι → Prop
  /-- Makes a request. -/
  | call {x : Clients ι} {i : ι} {r : Request} {todo : List Request}
    (h : x.client i = ⟨r :: todo, .idle⟩) :
    Step s x { x with client := update x.client i ⟨todo, .waiting r x.returns.length⟩ }
  /-- Takes the lock. -/
  | acquire {x : Clients ι} {i : ι} {r : Request} {n : Nat} {todo : List Request}
    (h : x.client i = ⟨todo, .waiting r n⟩) (hfree : x.lock = none) :
    Step s x { x with
      lock := some i, client := update x.client i ⟨todo, .working r n (s.serve r).run⟩ }
  /-- Carries out one operation. -/
  | work {x : Clients ι} {i : ι} {r : Request} {n : Nat} {todo : List Request}
    {w w' : Script (Except FileError Served)} {d : Disk}
    (h : x.client i = ⟨todo, .working r n w⟩) (hstep : Script.Step (w, x.disk) (w', d)) :
    Step s x { x with disk := d, client := update x.client i ⟨todo, .working r n w'⟩ }
  /-- Gives the lock back at the end of the script. -/
  | release {x : Clients ι} {i : ι} {r : Request} {n : Nat} {todo : List Request}
    {b : Except FileError Served} (h : x.client i = ⟨todo, .working r n (.done b)⟩) :
    Step s x { x with lock := none, client := update x.client i ⟨todo, .leaving r n b⟩ }
  /-- Returns the result. -/
  | leave {x : Clients ι} {i : ι} {r : Request} {n : Nat} {todo : List Request}
    {b : Except FileError Served} (h : x.client i = ⟨todo, .leaving r n b⟩) :
    Step s x { x with
      client := update x.client i ⟨todo, .idle⟩, returns := x.returns ++ [⟨i, r, n, b⟩] }

/-- Any number of steps, in any order. -/
abbrev Steps (s : FileStore) : Clients ι → Clients ι → Prop :=
  Relation.ReflTransGen (Step s)

/-- Have all clients made all their requests, and have all returned? -/
def Finished (x : Clients ι) : Prop :=
  ∀ i, x.client i = ⟨[], .idle⟩

/-! ## Clients that wait for each other -/

theorem steps_work {s : FileStore} {x : Clients ι} {i : ι} {todo : List Request} {r : Request}
    {n : Nat} {w : Script (Except FileError Served)} {p : Script (Except FileError Served) × Disk}
    (h : x.client i = ⟨todo, .working r n w⟩) (hsteps : Script.Steps (w, x.disk) p) :
    Steps s x { x with disk := p.2, client := update x.client i ⟨todo, .working r n p.1⟩ } := by
  induction hsteps with
  | refl =>
    rw [← h, Function.update_eq_self]
  | @tail p q _ hstep ih =>
    have hwork := Step.work (s := s) (x := { x with
      disk := p.2, client := update x.client i ⟨todo, .working r n p.1⟩ })
      (Function.update_self ..) hstep
    rw [Function.update_idem] at hwork
    exact ih.tail hwork

/-- The clients when the one that holds the lock has carried out its request and returned. -/
def finish (x : Clients ι) (i : ι) (r : Request) (n : Nat) (todo : List Request) (v : Served)
    (d : Disk) : Clients ι :=
  { disk := d
    lock := none
    client := update x.client i ⟨todo, .idle⟩
    returns := x.returns ++ [⟨i, r, n, .ok v⟩] }

/-- A request that meets no failure is carried out, whoever is waiting. -/
theorem steps_finish {s : FileStore} {x : Clients ι} {i : ι} {todo : List Request} {r : Request}
    {n : Nat} {v : Served} {d : Disk} (h : x.client i = ⟨todo, .working r n (s.serve r).run⟩)
    (hr : Script.Steps ((s.serve r).run, x.disk) (.done (.ok v), d)) :
    Steps s x (x.finish i r n todo v d) := by
  have hrelease := Step.release (s := s)
    (x := { x with disk := d, client := update x.client i ⟨todo, .working r n (.done (.ok v))⟩ })
    (Function.update_self ..)
  rw [Function.update_idem] at hrelease
  have hleave := Step.leave (s := s)
    (x := { x with
      disk := d, lock := none, client := update x.client i ⟨todo, .leaving r n (.ok v)⟩ })
    (Function.update_self ..)
  rw [Function.update_idem] at hleave
  exact ((steps_work h hr).tail hrelease).tail hleave

/-- The clients when `i` has taken the lock for `r`, and then `j` has called `q`, which waits. -/
def overlap (s : FileStore) (x : Clients ι) (i j : ι) (r q : Request) (todo todo' : List Request) :
    Clients ι :=
  { x with
    lock := some i
    client := update (update x.client i ⟨todo, .working r x.returns.length (s.serve r).run⟩) j
      ⟨todo', .waiting q x.returns.length⟩ }

section
variable {s : FileStore} {x : Clients ι} {i j : ι} {r q : Request} {todo todo' : List Request}

theorem steps_overlap (hne : j ≠ i) (hfree : x.lock = none) (hi : x.client i = ⟨r :: todo, .idle⟩)
    (hj : x.client j = ⟨q :: todo', .idle⟩) : Steps s x (overlap s x i j r q todo todo') := by
  have hcall : Steps s x
      { x with client := update x.client i ⟨todo, .waiting r x.returns.length⟩ } :=
    .single (.call hi)
  have hacquire := Step.acquire (s := s)
    (x := { x with client := update x.client i ⟨todo, .waiting r x.returns.length⟩ })
    (Function.update_self ..) hfree
  rw [Function.update_idem] at hacquire
  refine (hcall.tail hacquire).tail (.call ?_)
  exact (Function.update_of_ne hne ..).trans hj

/-- The request that waits is carried out after the other one. -/
theorem steps_after_overlap {v v' : Served} {d d' : Disk} (hne : j ≠ i)
    (hr : Script.Steps ((s.serve r).run, x.disk) (.done (.ok v), d))
    (hq : Script.Steps ((s.serve q).run, d) (.done (.ok v'), d')) :
    ∃ y, Steps s (overlap s x i j r q todo todo') y ∧ y.client i = ⟨todo, .idle⟩ ∧
      y.client j = ⟨todo', .idle⟩ := by
  have hi : (overlap s x i j r q todo todo').client i =
      ⟨todo, .working r x.returns.length (s.serve r).run⟩ :=
    (Function.update_of_ne hne.symm ..).trans (Function.update_self ..)
  let between : Clients ι :=
    (overlap s x i j r q todo todo').finish i r x.returns.length todo v d
  have hj : between.client j = ⟨todo', .waiting q x.returns.length⟩ :=
    (Function.update_of_ne hne ..).trans (Function.update_self ..)
  let taken : Clients ι := { between with
    lock := some j
    client := update between.client j ⟨todo', .working q x.returns.length (s.serve q).run⟩ }
  have hfirst : Steps s _ between := steps_finish hi hr
  have hsecond : Steps s taken (taken.finish j q x.returns.length todo' v' d') :=
    steps_finish (Function.update_self ..) hq
  refine ⟨_, (hfirst.tail (.acquire hj rfl)).trans hsecond, ?_, Function.update_self ..⟩
  simp [taken, between, finish, hne.symm]

end

/-! ## What is appended -/

/-- The requests of a client among those that have returned. -/
def requestsOf (i : ι) (xs : List (Return ι)) : List Request :=
  (xs.filter (·.client = i)).map (·.request)

/-- The claims of a client in a list of appended claims. -/
def claimsOf (i : ι) (order : List (ι × Claim)) : List Claim :=
  (order.filter (·.1 = i)).map (·.2)

end Clients

namespace Phase

/-- The request that is not yet carried out in full. -/
def pending : Phase → List Request
  | waiting r _ | working r _ _ => [r]
  | idle | leaving .. => []

/-- The request that is carried out but has not returned. -/
def carriedOut : Phase → List Request
  | leaving r _ _ => [r]
  | idle | waiting .. | working .. => []

/-- How many requests had returned when the request was made. -/
def before : Phase → Nat
  | idle => 0
  | waiting _ n | working _ n _ | leaving _ n _ => n

end Phase

namespace Clients

variable {ι : Type} [DecidableEq ι]

/-! ## Answers -/

/-- The result is that of the list at some point of the order, where every client has appended what
it had appended by the first `n` returns. -/
def Settled (cs : List Claim) (order : List (ι × Claim)) (returns : List (Return ι)) (r : Request)
    (n : Nat) (result : Except FileError Served) : Prop :=
  ∃ v k, result = .ok v ∧ k ≤ order.length ∧
    v.plain = (r.served (cs ++ (order.take k).map (·.2))).plain ∧
    ∀ i, (requestsOf i (returns.take n)).flatMap Request.claims <+: claimsOf i (order.take k)

theorem Settled.mono {cs : List Claim} {order order' : List (ι × Claim)}
    {returns returns' : List (Return ι)} {r : Request} {n : Nat} {result : Except FileError Served}
    (h : Settled cs order returns r n result) (ho : order <+: order') (hr : returns <+: returns')
    (hn : n ≤ returns.length) : Settled cs order' returns' r n result := by
  obtain ⟨more, rfl⟩ := ho
  obtain ⟨later, rfl⟩ := hr
  obtain ⟨v, k, hv, hk, hplain, hall⟩ := h
  refine ⟨v, k, hv, by simp; omega, ?_, ?_⟩
  · rw [List.take_append_of_le_length hk]
    exact hplain
  · rw [List.take_append_of_le_length hk, List.take_append_of_le_length hn]
    exact hall

theorem requestsOf_append (i : ι) (xs ys : List (Return ι)) :
    requestsOf i (xs ++ ys) = requestsOf i xs ++ requestsOf i ys := by
  simp [requestsOf]

theorem claimsOf_append (i : ι) (xs ys : List (ι × Claim)) :
    claimsOf i (xs ++ ys) = claimsOf i xs ++ claimsOf i ys := by
  simp [claimsOf]

theorem claimsOf_same (i : ι) (cs : List Claim) : claimsOf i (cs.map (i, ·)) = cs := by
  induction cs with
  | nil => rfl
  | cons c cs ih => simpa [claimsOf] using ih

theorem claimsOf_other {i j : ι} (h : j ≠ i) (cs : List Claim) :
    claimsOf j (cs.map (i, ·)) = [] := by
  simp [claimsOf, Ne.symm h]

/-! ## The invariant -/

section
variable (s : FileStore) (program : ι → List Request) (cs : List Claim)

/-- What holds of the client `i` while the claims in `order` are appended. -/
structure ClientOk (lock : Option ι) (order : List (ι × Claim)) (returns : List (Return ι)) (i : ι)
    (c : Client) : Prop where
  locked : ∀ r n w, c.phase = .working r n w → lock = some i
  requests : requestsOf i returns ++ c.phase.carriedOut ++ c.phase.pending ++ c.todo = program i
  claims : claimsOf i order = (requestsOf i returns ++ c.phase.carriedOut).flatMap Request.claims
  before : c.phase.before ≤ returns.length
  leaving : ∀ r n b, c.phase = .leaving r n b → Settled cs order returns r n b

/-- The disk while nobody holds the lock, and while a client does. -/
inductive DiskOk (order : List (ι × Claim)) (disk : Disk) (client : ι → Client) : Option ι → Prop
  | free (h : s.Represents disk (cs ++ order.map (·.2))) : DiskOk order disk client none
  | held {i : ι} {todo : List Request} {r : Request} {n : Nat}
    {w : Script (Except FileError Served)} {d : Disk} (hi : client i = ⟨todo, .working r n w⟩)
    (hd : s.Represents d (cs ++ order.map (·.2)))
    (hsteps : Script.Steps ((s.serve r).run, d) (w, disk)) : DiskOk order disk client (some i)

/-- The invariant (module doc). -/
structure Inv (x : Clients ι) (order : List (ι × Claim)) : Prop where
  disk : DiskOk s cs order x.disk x.client x.lock
  client : ∀ i, ClientOk program cs x.lock order x.returns i (x.client i)
  returned : ∀ e ∈ x.returns, e.before ≤ x.returns.length ∧
    Settled cs order x.returns e.request e.before e.result

end

variable {s : FileStore} {program : ι → List Request} {cs : List Claim}

theorem ClientOk.frame {lock lock' : Option ι} {order order' : List (ι × Claim)}
    {returns returns' : List (Return ι)} {i : ι} {c : Client}
    (h : ClientOk program cs lock order returns i c) (hlock : lock = some i → lock' = some i)
    (ho : order <+: order') (hclaims : claimsOf i order' = claimsOf i order)
    (hr : returns <+: returns') (hrequests : requestsOf i returns' = requestsOf i returns) :
    ClientOk program cs lock' order' returns' i c where
  locked r n w hphase := hlock (h.locked r n w hphase)
  requests := by rw [hrequests]; exact h.requests
  claims := by rw [hclaims, hrequests]; exact h.claims
  before := Nat.le_trans h.before hr.length_le
  leaving r n b hphase :=
    (h.leaving r n b hphase).mono ho hr (by simpa [hphase, Phase.before] using h.before)

omit [DecidableEq ι] in
theorem DiskOk.frame {order : List (ι × Claim)} {disk : Disk} {client client' : ι → Client}
    {lock : Option ι} (h : DiskOk s cs order disk client lock)
    (hclient : ∀ i todo r n w, client i = ⟨todo, .working r n w⟩ → client' i = client i) :
    DiskOk s cs order disk client' lock := by
  cases h with
  | free h => exact .free h
  | held hi hd hsteps => exact .held ((hclient _ _ _ _ _ hi).trans hi) hd hsteps

section
open Function (update update_self update_of_ne)

variable {x : Clients ι} {order : List (ι × Claim)} {i : ι} {todo : List Request} {r : Request}
  {n : Nat}

theorem Inv.call (hx : Inv s program cs x order) (h : x.client i = ⟨r :: todo, .idle⟩) :
    Inv s program cs
      { x with client := update x.client i ⟨todo, .waiting r x.returns.length⟩ } order := by
  refine ⟨hx.disk.frame fun j _ _ _ _ hj => update_of_ne (by rintro rfl; simp [h] at hj) _ _,
    fun j => ?_, hx.returned⟩
  dsimp only
  by_cases hji : j = i
  · subst hji
    have hj := hx.client j
    rw [h] at hj
    rw [update_self]
    refine ⟨by simp, ?_, hj.claims, Nat.le_refl _, by simp⟩
    simpa [Phase.pending, Phase.carriedOut] using hj.requests
  · rw [update_of_ne hji]
    exact hx.client j

theorem Inv.acquire (hx : Inv s program cs x order) (h : x.client i = ⟨todo, .waiting r n⟩)
    (hfree : x.lock = none) :
    Inv s program cs { x with
      lock := some i, client := update x.client i ⟨todo, .working r n (s.serve r).run⟩ } order := by
  have hdisk := hx.disk
  rw [hfree] at hdisk
  cases hdisk with
  | free hdisk =>
  refine ⟨.held (update_self ..) hdisk .refl, fun j => ?_, hx.returned⟩
  dsimp only
  by_cases hji : j = i
  · subst hji
    have hj := hx.client j
    rw [h] at hj
    rw [update_self]
    exact ⟨by simp, hj.requests, hj.claims, hj.before, by simp⟩
  · rw [update_of_ne hji]
    refine (hx.client j).frame (fun hlock => ?_) (List.prefix_refl _) rfl (List.prefix_refl _) rfl
    rw [hfree] at hlock
    cases hlock

theorem Inv.work (hx : Inv s program cs x order) {w w' : Script (Except FileError Served)}
    {d : Disk} (h : x.client i = ⟨todo, .working r n w⟩)
    (hstep : Script.Step (w, x.disk) (w', d)) :
    Inv s program cs
      { x with disk := d, client := update x.client i ⟨todo, .working r n w'⟩ } order := by
  have hi := hx.client i
  rw [h] at hi
  have hlock := hi.locked r n w rfl
  have hdisk := hx.disk
  rw [hlock] at hdisk
  refine ⟨?_, fun j => ?_, hx.returned⟩
  · dsimp only
    rw [hlock]
    cases hdisk with
    | held h₀ hd hsteps =>
      obtain ⟨rfl, rfl, rfl, rfl⟩ : _ ∧ _ ∧ _ ∧ _ := by simpa using h₀.symm.trans h
      exact .held (update_self ..) hd (hsteps.tail hstep)
  · dsimp only
    by_cases hji : j = i
    · subst hji
      rw [update_self]
      exact ⟨fun _ _ _ _ => hlock, hi.requests, hi.claims, hi.before, by simp⟩
    · rw [update_of_ne hji]
      exact hx.client j

theorem Inv.prefix_claims (hx : Inv s program cs x order) (n : Nat) (j : ι) :
    (requestsOf j (x.returns.take n)).flatMap Request.claims <+: claimsOf j order := by
  rw [(hx.client j).claims]
  have htake : requestsOf j x.returns =
      requestsOf j (x.returns.take n) ++ requestsOf j (x.returns.drop n) := by
    rw [← requestsOf_append, List.take_append_drop]
  rw [htake, List.append_assoc, List.flatMap_append]
  exact List.prefix_append _ _

/-- The claims of a request are appended when it gives the lock back. -/
theorem Inv.release (hx : Inv s program cs x order) (hprogram : ∀ i, ∀ q ∈ program i, q.Exact)
    {b : Except FileError Served} (h : x.client i = ⟨todo, .working r n (.done b)⟩) :
    Inv s program cs { x with lock := none, client := update x.client i ⟨todo, .leaving r n b⟩ }
      (order ++ r.claims.map (i, ·)) := by
  have hi := hx.client i
  rw [h] at hi
  have hlock := hi.locked r n _ rfl
  have hdisk := hx.disk
  rw [hlock] at hdisk
  have hr : r.Exact := hprogram i r (by rw [← hi.requests]; simp [Phase.pending])
  have hprefix : order <+: order ++ r.claims.map (i, ·) := List.prefix_append _ _
  cases hdisk with
  | held h₀ hd hsteps =>
  obtain ⟨rfl, rfl, rfl, rfl⟩ : _ ∧ _ ∧ _ ∧ _ := by simpa using h₀.symm.trans h
  obtain ⟨v, rfl, hplain, hd'⟩ := FileStore.steps_serve hd hr hsteps
  refine ⟨.free ?_, fun j => ?_, fun e he => ?_⟩
  · simpa [Request.after, Function.comp_def] using hd'
  · dsimp only
    by_cases hji : j = i
    · subst hji
      rw [update_self]
      refine ⟨by simp, ?_, ?_, hi.before, ?_⟩
      · simpa [Phase.pending, Phase.carriedOut] using hi.requests
      · rw [claimsOf_append, claimsOf_same, hi.claims]
        simp [Phase.carriedOut]
      · rintro r n b ⟨rfl, rfl, rfl⟩
        exact ⟨v, order.length, rfl, hprefix.length_le, by simpa using hplain,
          by simpa using hx.prefix_claims _⟩
    · rw [update_of_ne hji]
      refine (hx.client j).frame (fun hj => ?_) hprefix ?_ (List.prefix_refl _) rfl
      · exact absurd (Option.some.inj (hj.symm.trans hlock)) hji
      · rw [claimsOf_append, claimsOf_other hji, List.append_nil]
  · obtain ⟨hbefore, hsettled⟩ := hx.returned e he
    exact ⟨hbefore, hsettled.mono hprefix (List.prefix_refl _) hbefore⟩

theorem Inv.leave (hx : Inv s program cs x order) {b : Except FileError Served}
    (h : x.client i = ⟨todo, .leaving r n b⟩) :
    Inv s program cs { x with
      client := update x.client i ⟨todo, .idle⟩, returns := x.returns ++ [⟨i, r, n, b⟩] }
      order := by
  have hi := hx.client i
  rw [h] at hi
  have hprefix : x.returns <+: x.returns ++ [⟨i, r, n, b⟩] := List.prefix_append _ _
  refine ⟨hx.disk.frame fun j _ _ _ _ hj => update_of_ne (by rintro rfl; simp [h] at hj) _ _,
    fun j => ?_, fun e he => ?_⟩
  · dsimp only
    by_cases hji : j = i
    · subst hji
      rw [update_self]
      have hrequests : requestsOf j (x.returns ++ [⟨j, r, n, b⟩]) = requestsOf j x.returns ++ [r] := by
        simp [requestsOf]
      refine ⟨by simp, ?_, ?_, Nat.zero_le _, by simp⟩
      · rw [hrequests]
        simpa [Phase.pending, Phase.carriedOut] using hi.requests
      · rw [hrequests]
        simpa [Phase.carriedOut] using hi.claims
    · rw [update_of_ne hji]
      refine (hx.client j).frame id (List.prefix_refl _) rfl hprefix ?_
      simp [requestsOf, Ne.symm hji]
  · dsimp only at he ⊢
    rcases List.mem_append.1 he with he | he
    · obtain ⟨hbefore, hsettled⟩ := hx.returned e he
      exact ⟨Nat.le_trans hbefore hprefix.length_le,
        hsettled.mono (List.prefix_refl _) hprefix hbefore⟩
    · obtain rfl := List.mem_singleton.1 he
      exact ⟨Nat.le_trans hi.before hprefix.length_le,
        (hi.leaving r n b rfl).mono (List.prefix_refl _) hprefix hi.before⟩

end

/-- **Every step keeps the invariant**, for an order with more claims at its end if anything. -/
theorem Inv.step {x x' : Clients ι} {order : List (ι × Claim)} (hx : Inv s program cs x order)
    (hprogram : ∀ i, ∀ q ∈ program i, q.Exact) (h : Step s x x') :
    ∃ order', Inv s program cs x' order' := by
  cases h with
  | call h => exact ⟨order, hx.call h⟩
  | acquire h hfree => exact ⟨order, hx.acquire h hfree⟩
  | work h hstep => exact ⟨order, hx.work h hstep⟩
  | release h => exact ⟨_, hx.release hprogram h⟩
  | leave h => exact ⟨order, hx.leave h⟩

theorem Inv.start {d : Disk} (hd : s.Represents d cs) :
    Inv s program cs (start d program) [] := by
  refine ⟨.free (by simpa [Clients.start] using hd), fun i => ?_, by simp [Clients.start]⟩
  exact ⟨by simp [Clients.start], by simp [Clients.start, requestsOf, Phase.pending,
    Phase.carriedOut], rfl, Nat.zero_le _, by simp [Clients.start]⟩

theorem Inv.steps {d : Disk} {x : Clients ι} (hd : s.Represents d cs)
    (hprogram : ∀ i, ∀ q ∈ program i, q.Exact) (h : Steps s (Clients.start d program) x) :
    ∃ order, Inv s program cs x order := by
  induction h with
  | refl => exact ⟨[], .start hd⟩
  | tail _ hstep ih =>
    obtain ⟨order, hx⟩ := ih
    exact hx.step hprogram hstep

/-! ## All clients together -/

theorem flatMap_cons_perm {f f' : ι → List Claim} {i : ι} {c : Claim} (hi : f' i = c :: f i)
    (hne : ∀ j, j ≠ i → f' j = f j) {is : List ι} (hnodup : is.Nodup) (hmem : i ∈ is) :
    (is.flatMap f').Perm (c :: is.flatMap f) := by
  induction is with
  | nil => simp at hmem
  | cons j is ih =>
    obtain ⟨hj, hnodup⟩ := List.nodup_cons.1 hnodup
    rw [List.flatMap_cons, List.flatMap_cons]
    by_cases hji : j = i
    · subst hji
      have hrest : is.flatMap f' = is.flatMap f :=
        List.flatMap_congr fun k hk => hne k (by rintro rfl; exact hj hk)
      rw [hi, hrest]
      exact .refl _
    · have hmem : i ∈ is := by simpa [Ne.symm hji] using hmem
      rw [hne j hji]
      exact ((ih hnodup hmem).append_left _).trans List.perm_middle

theorem perm_claimsOf (order : List (ι × Claim)) {is : List ι} (hnodup : is.Nodup)
    (hall : ∀ i, i ∈ is) : (order.map (·.2)).Perm (is.flatMap fun i => claimsOf i order) := by
  induction order with
  | nil => simp [claimsOf]
  | cons e order ih =>
    obtain ⟨i, c⟩ := e
    refine (ih.cons c).trans (flatMap_cons_perm ?_ (fun j hj => ?_) hnodup (hall i)).symm
    · simp [claimsOf]
    · simp [claimsOf, Ne.symm hj]

/-- What an order of the appended claims says about the clients in the end. -/
structure Explains {n : Nat} (s : FileStore) (cs : List Claim) (program : Fin n → List Request)
    (x : Clients (Fin n)) (order : List (Fin n × Claim)) : Prop where
  /-- The file holds the first claims and then those of the order. -/
  file : ∃ xs, s.Holds x.disk xs ∧
    xs.map Claim.plain = (cs ++ order.map (·.2)).map Claim.plain
  /-- The claims of each client, as it appended them. -/
  own : ∀ i, claimsOf i order = (program i).flatMap Request.claims
  /-- The claims of all clients, each exactly once. -/
  all : (order.map (·.2)).Perm
    ((List.finRange n).flatMap fun i => (program i).flatMap Request.claims)
  /-- All requests have returned. -/
  returned : ∀ i, requestsOf i x.returns = program i
  /-- They returned what a list with the claims up to some point of the order gives, a point where
  every client has appended all that had returned when the request was made. -/
  answered : ∀ e ∈ x.returns, ∃ v k, e.result = .ok v ∧ k ≤ order.length ∧
    v.plain = (e.request.served (cs ++ (order.take k).map (·.2))).plain ∧
    ∀ i, (requestsOf i (x.returns.take e.before)).flatMap Request.claims <+:
      claimsOf i (order.take k)

/-- **Concurrent requests lose nothing.** When the clients of a claim file have finished, after any
steps in any order, some order of the appended claims explains the file and all answers. Claims are
compared by their values. -/
theorem finished_linear {n : Nat} (s : FileStore) (d : Disk) (cs : List Claim)
    (program : Fin n → List Request) (x : Clients (Fin n)) (hd : s.Holds d cs)
    (hcs : ∀ c ∈ cs, c.Exact) (hprogram : ∀ i, ∀ r ∈ program i, r.Exact)
    (hsteps : Steps s (start d program) x) (hfinished : x.Finished) :
    ∃ order, Explains s cs program x order := by
  obtain ⟨order, hx⟩ := Inv.steps ⟨hcs, cs, hd, rfl⟩ hprogram hsteps
  have hrequests (i : Fin n) : requestsOf i x.returns = program i := by
    have hi := (hx.client i).requests
    simpa [hfinished i, Phase.pending, Phase.carriedOut] using hi
  have hclaims (i : Fin n) : claimsOf i order = (program i).flatMap Request.claims := by
    have hi := (hx.client i).claims
    simpa [hfinished i, Phase.carriedOut, hrequests i] using hi
  refine ⟨order, ?_, hclaims, ?_, hrequests, fun e he => (hx.returned e he).2⟩
  · have hdisk := hx.disk
    cases hlock : x.lock with
    | none =>
      rw [hlock] at hdisk
      cases hdisk with
      | free h => exact h.2
    | some i =>
      rw [hlock] at hdisk
      cases hdisk with
      | held hi => simp [hfinished i] at hi
  · have hperm := perm_claimsOf order (List.nodup_finRange n) List.mem_finRange
    simpa only [hclaims] using hperm

/-- Two clients of a missing file append a claim each. The second one makes its request while the first
holds the lock, and has to wait. -/
theorem finished_linear_two :
    let s : FileStore := ⟨Path.ofText "claims.json"⟩
    let program : Fin 2 → List Request :=
      fun i => if i = 0 then [.append Sample.laptops] else [.append Sample.furniture]
    let held := overlap s (start ⟨[], []⟩ program) 0 1 (.append Sample.laptops)
      (.append Sample.furniture) [] []
    Steps s (start ⟨[], []⟩ program) held ∧ held.lock = some 0 ∧
      held.client 1 = ⟨[], .waiting (.append Sample.furniture) 0⟩ ∧
      ∃ x order, Steps s held x ∧ x.Finished ∧ Explains s [] program x order := by
  intro s program held
  have hne : (1 : Fin 2) ≠ 0 := by decide
  have hheld : Steps s (start ⟨[], []⟩ program) held := steps_overlap hne rfl rfl rfl
  have hfaultless : (s.serve (.append Sample.laptops)).run.faultless ⟨[], []⟩ := by decide +kernel
  have hvalue : ((s.serve (.append Sample.laptops)).run.run ⟨[], []⟩).value = .ok .appended := by
    decide +kernel
  have hfirst := Script.steps_of_faultless hfaultless
  rw [hvalue] at hfirst
  -- The second client finds what the first one has left.
  have hstands : s.Stands (FileStore.content [Sample.laptops]) (.ok ())
      ((s.serve (.append Sample.laptops)).run.run ⟨[], []⟩).disk :=
    ⟨by decide +kernel, by decide +kernel⟩
  obtain ⟨d', hsecond, -⟩ :=
    hstands.serve (hstands.lists Sample.mapM_laptops) (.append Sample.furniture)
  obtain ⟨x, hsteps, hx, hx'⟩ : ∃ x, Steps s held x ∧ x.client 0 = ⟨[], .idle⟩ ∧
      x.client 1 = ⟨[], .idle⟩ := steps_after_overlap hne hfirst hsecond
  have hfinished : x.Finished := Fin.forall_fin_two.2 ⟨hx, hx'⟩
  have hexact : ∀ i, ∀ r ∈ program i, r.Exact := by
    rw [Fin.forall_fin_two]
    simp [program, Request.Exact, Request.claims, Sample.exact_laptops, Sample.exact_furniture]
  obtain ⟨order, horder⟩ := finished_linear s ⟨[], []⟩ [] program x
    (.inl ⟨by decide +kernel, rfl⟩) (by simp) hexact (hheld.trans hsteps) hfinished
  exact ⟨hheld, rfl, rfl, x, order, hsteps, hfinished, horder⟩

end Clients
end CustomsClaims
