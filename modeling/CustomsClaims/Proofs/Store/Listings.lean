import CustomsClaims.Proofs.Claim.Settled
import CustomsClaims.Proofs.Store.Success

/-!
# Listed claims stay as they are

Every append reads all claims and writes them anew. `FileStore.listings_grow`: if no operation fails
and all amounts are of a moderate size, each listing starts with those before it, because the claims
that a file lists have been read once and are read alike from then on (`FileStore.HoldsSettled`).
`FileStore.listing_changed`: an amount of another size may be listed otherwise after the next append.
-/

namespace CustomsClaims.FileStore

/-- The claims of the successful listings. -/
def listings (answers : List (Answer Served)) : List (List Claim) :=
  answers.filterMap fun
    | .ok (.claims cs) => some cs
    | _ => none

/-- The file holds these claims, and they would be read alike if they were written. -/
structure HoldsSettled (s : FileStore) (d : Disk) (cs : List Claim) : Prop where
  holds : s.Holds d cs
  settled : cs.mapM Claim.readBack? = some cs

variable {s : FileStore} {d d' : Disk} {cs : List Claim} {r : Request}

theorem mapM_readBack?_append {c c' : Claim} (hcs : cs.mapM Claim.readBack? = some cs)
    (hc : c.readBack? = some c') : (cs ++ [c]).mapM Claim.readBack? = some (cs ++ [c']) := by
  rw [List.mapM_append, hcs, Json.mapM_cons_eq, hc]
  rfl

/-- **A request adds to the claims of the file, or lists them.** -/
theorem steps_serve_settled {b : Except FileError Served} (hd : s.HoldsSettled d cs)
    (hr : ∀ c ∈ r.claims, c.Moderate) (h : Script.Steps ((s.serve r).run, d) (.done b, d')) :
    ∃ v new, b = .ok v ∧ s.HoldsSettled d' (cs ++ new) ∧ (v = .claims cs ∨ v = .appended) := by
  obtain ⟨hholds, hsettled⟩ := hd
  cases r with
  | list =>
    obtain ⟨ys, d₁, hload, h⟩ | ⟨e, -, hload⟩ := steps_bind h
    · obtain ⟨hys, hlists⟩ := steps_load hholds hload
      obtain rfl := Except.ok.inj hys
      obtain ⟨rfl, rfl⟩ := Script.steps_done h
      refine ⟨_, [], rfl, ?_, .inl rfl⟩
      rw [List.append_nil]
      exact ⟨.inr hlists, hsettled⟩
    · cases (steps_load hholds hload).1
  | append c =>
    obtain ⟨c', hc, hagain⟩ := Claim.readBack?_settles (hr c (List.mem_singleton_self c))
    have hwritten := mapM_readBack?_append hsettled hc
    obtain ⟨u, d₁, happend, h⟩ | ⟨e, -, happend⟩ := steps_bind h
    · obtain ⟨-, hlists⟩ := steps_append hholds hwritten happend
      obtain ⟨rfl, rfl⟩ := Script.steps_done h
      exact ⟨_, [c'], rfl, ⟨.inr hlists, mapM_readBack?_append hsettled hagain⟩, .inr rfl⟩
    · cases (steps_append hholds hwritten happend).1

/-- In a run every listing starts with the claims that the file held before, and with those of every
earlier listing. -/
theorem run_settled {rs : List Request} (hd : s.HoldsSettled d cs)
    (hrs : ∀ r ∈ rs, ∀ c ∈ r.claims, c.Moderate) (h : s.faultlessRun rs d) :
    (∀ xs ∈ listings (s.store.run rs d).1, cs <+: xs) ∧
      (listings (s.store.run rs d).1).Pairwise (· <+: ·) := by
  induction rs generalizing d cs with
  | nil => exact ⟨by simp [ClaimStore.run, listings], .nil⟩
  | cons r rs ih =>
    obtain ⟨hr, hrest⟩ := Bool.and_eq_true_iff.1 h
    have hsteps := Script.steps_of_faultless hr
    obtain ⟨v, new, hv, hd', hlisted⟩ := steps_serve_settled hd (hrs r (by simp)) hsteps
    rw [hv] at hsteps
    have hserve := store_serve_of_steps hsteps
    rw [hserve] at hrest
    obtain ⟨hfurther, hpairs⟩ := ih hd' (fun x hx => hrs x (by simp [hx])) hrest
    have hstart : ∀ xs ∈ listings (s.store.run rs ((s.serve r).run.run d).disk).1, cs <+: xs :=
      fun xs hxs => (List.prefix_append cs new).trans (hfurther xs hxs)
    rw [ClaimStore.run, hserve]
    rcases hlisted with rfl | rfl
    · constructor
      · intro xs hxs
        rcases List.mem_cons.1 hxs with rfl | hxs
        · exact List.prefix_rfl
        · exact hstart xs hxs
      · exact .cons hstart hpairs
    · exact ⟨hstart, hpairs⟩

/-- **Listed claims stay as they are.** The claim file is missing, all appended claims have amounts of a
moderate size, and no operation fails: then each listing starts with the claims of every earlier one,
equal in every field. -/
theorem listings_grow {rs : List Request} (hmissing : d.exists? s.path = .ok false)
    (hrs : ∀ r ∈ rs, ∀ c ∈ r.claims, c.Moderate) (h : s.faultlessRun rs d) :
    (listings (s.store.run rs d).1).Pairwise (· <+: ·) :=
  (run_settled ⟨.inl ⟨hmissing, rfl⟩, rfl⟩ hrs h).2

/-- Two claims are appended, and listed after each append. -/
theorem listings_grow_two :
    let s : FileStore := ⟨Path.ofText "claims.json"⟩
    let rs : List Request := [.append Sample.laptops, .list, .append Sample.furniture, .list]
    (listings (s.store.run rs ⟨[], []⟩).1).Pairwise (· <+: ·) := by
  intro s rs
  have hlaptops : Sample.laptops.Moderate ∧ Sample.laptops.Storable := by decide
  have hfurniture : Sample.furniture.Moderate ∧ Sample.furniture.Storable := by decide
  have hstands : s.Stands (content [Sample.laptops]) (.ok ())
      (s.store.append Sample.laptops ⟨[], []⟩).state :=
    ⟨by decide +kernel, by decide +kernel⟩
  refine listings_grow (by decide +kernel) ?_ (Bool.and_eq_true_iff.2 ⟨by decide +kernel, ?_⟩)
  · simpa [rs, Request.claims] using ⟨hlaptops.1, hfurniture.1⟩
  · exact hstands.faultlessRun (hstands.lists Sample.mapM_laptops) (by simpa using hlaptops.2)
      (by simpa [Request.claims] using hfurniture.2)

/-- An amount of `1.2 · 10 ^ 24` is accepted in a claim. It is listed as 1199999999999999900000000, and
after the next append as 1200000000000000000000000. -/
theorem listing_changed :
    ∃ c, Claim.parse (Utf8.encode ("\x7b\"claimID\":1,\"importerName\":\"Acme\"," ++
        "\"HTSCode\":\"8471.30.01\",\"importDate\":\"2024-01-15\",\"importQuantity\":1," ++
        "\"dutiesPaid\":\"1200000000000000000000000\",\"drawbackClaimed\":0\x7d")) = .ok c ∧
      Disk.exists? ⟨[], []⟩ (Path.ofText "claims.json") = .ok false ∧
      (FileStore.mk (Path.ofText "claims.json")).faultlessRun
        [.append c, .list, .append c, .list] ⟨[], []⟩ ∧
      ¬(listings ((FileStore.mk (Path.ofText "claims.json")).store.run
        [.append c, .list, .append c, .list] ⟨[], []⟩).1).Pairwise
          fun xs ys => xs.map Claim.plain <+: ys.map Claim.plain := by
  let s : FileStore := ⟨Path.ofText "claims.json"⟩
  let claim (duties : Amount) : Claim :=
    ⟨1, "Acme", "8471.30.01", ⟨2024, 1, 15, by decide, by decide, by decide⟩, 1, duties, .zero⟩
  let c : Claim := claim ⟨false, 1200000000000000000000000, 0, by decide, by decide, .inl rfl⟩
  let c' : Claim := claim ⟨false, 1199999999999999900000000, 0, by decide, by decide, .inl rfl⟩
  have hfirst : (s.serve (.append c)).run.faultless ⟨[], []⟩ := by decide +kernel
  have hstands : s.Stands (content [c]) (.ok ()) (s.store.append c ⟨[], []⟩).state :=
    ⟨by decide +kernel, by decide +kernel⟩
  have hc : c.Storable := by decide
  have hc' : c'.Storable := by decide
  have hread : [c].mapM Claim.readBack? = some [c'] := by decide +kernel
  have hagain : [c', c].mapM Claim.readBack? = some [c, c'] := by decide +kernel
  refine ⟨c, Json.ok_of_toOption (by decide +kernel), by decide +kernel, ?_, ?_⟩
  · refine Bool.and_eq_true_iff.2 ⟨hfirst, ?_⟩
    exact hstands.faultlessRun (hstands.lists hread) (by simpa using hc')
      (by simpa [Request.claims] using hc)
  · obtain ⟨d₂, hlist, h₂⟩ := hstands.serve (hstands.lists hread) .list
    obtain ⟨d₃, happend, h₃⟩ := h₂.serve (h₂.lists hread) (.append c)
    obtain ⟨d₄, hlist', -⟩ := h₃.serve (h₃.lists hagain) .list
    have hone : s.store.serve (.append c) ⟨[], []⟩ =
        (.ok .appended, (s.store.append c ⟨[], []⟩).state) := Prod.ext (by decide +kernel) rfl
    have hrun : listings (s.store.run [.append c, .list, .append c, .list] ⟨[], []⟩).1 =
        [[c'], [c, c']] := by
      simp only [ClaimStore.run, hone, store_serve_of_steps hlist, store_serve_of_steps happend,
        store_serve_of_steps hlist']
      rfl
    rw [hrun]
    decide

end CustomsClaims.FileStore
