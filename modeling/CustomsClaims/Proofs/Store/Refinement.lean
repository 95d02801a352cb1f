import CustomsClaims.Proofs.Store.Success

/-!
# Claim files refine stores in memory

A claim file may be opened anew between any two calls: `FileStore.runSessions` carries out requests in
sessions, each on a store of its own for the same path. `FileStore.sessions_refine_memory`: as long
as no operation fails, it answers as a store in memory that started with the claims of the file.
-/

namespace CustomsClaims.FileStore

/-- Carries out requests in sessions, each of which opens the claim file: their answers, and the disk
at the end. -/
def runSessions (path : Path) : List (List Request) → Disk → List (Answer Served) × Disk
  | [], d => ([], d)
  | rs :: sessions, d =>
    let (answers, d) := (FileStore.mk path).store.run rs d
    let (further, d) := runSessions path sessions d
    (answers ++ further, d)

/-- Does no operation fail in any session? -/
def faultlessSessions (path : Path) : List (List Request) → Disk → Bool
  | [], _ => true
  | rs :: sessions, d =>
    (FileStore.mk path).faultlessRun rs d &&
      faultlessSessions path sessions ((FileStore.mk path).store.run rs d).2

/-- Sessions make no difference to a claim file, which keeps nothing but its path. -/
theorem runSessions_eq (path : Path) (sessions : List (List Request)) (d : Disk) :
    runSessions path sessions d = (FileStore.mk path).store.run sessions.flatten d := by
  induction sessions generalizing d with
  | nil => rfl
  | cons rs sessions ih =>
    simp only [List.flatten_cons, ClaimStore.run_append, runSessions, ih]

theorem faultlessRun_append (s : FileStore) (rs ss : List Request) (d : Disk) :
    s.faultlessRun (rs ++ ss) d =
      (s.faultlessRun rs d && s.faultlessRun ss (s.store.run rs d).2) := by
  induction rs generalizing d with
  | nil => simp [faultlessRun, ClaimStore.run]
  | cons r rs ih => rw [List.cons_append, faultlessRun, ih, faultlessRun, Bool.and_assoc]; rfl

theorem faultlessSessions_eq (path : Path) (sessions : List (List Request)) (d : Disk) :
    faultlessSessions path sessions d = (FileStore.mk path).faultlessRun sessions.flatten d := by
  induction sessions generalizing d with
  | nil => rfl
  | cons rs sessions ih =>
    rw [List.flatten_cons, faultlessRun_append, faultlessSessions, ih]

/-- The answers of a claim file and of a list of claims that its disk stands for. -/
theorem run_refines_memory {s : FileStore} {rs : List Request} {d : Disk} {cs : List Claim}
    (hd : s.Represents d cs) (hrs : ∀ r ∈ rs, r.Exact) (h : s.faultlessRun rs d) :
    (s.store.run rs d).1.map (·.map Served.plain) =
      (MemoryStore.store.run rs cs).1.map (·.map Served.plain) := by
  induction rs generalizing d cs with
  | nil => rfl
  | cons r rs ih =>
    obtain ⟨hr, hrest⟩ := Bool.and_eq_true_iff.1 h
    have hsteps := Script.steps_of_faultless hr
    obtain ⟨v, hv, hplain, hd'⟩ := steps_serve hd (hrs r (by simp)) hsteps
    rw [hv] at hsteps
    have hserve := store_serve_of_steps hsteps
    rw [hserve] at hrest
    rw [ClaimStore.run, ClaimStore.run, hserve, MemoryStore.serve_eq, List.map_cons, List.map_cons,
      ih hd' (fun x hx => hrs x (by simp [hx])) hrest]
    simp only [Answer.map, hplain]

/-- **A claim file refines a store in memory.** If the file is missing or lists the claims `cs`, and
these and all claims to be appended read back unchanged, then a run without a failing operation gives
the answers of a store in memory that started with `cs`, up to the signs of amounts that are zero,
however the calls are spread over sessions. -/
theorem sessions_refine_memory (path : Path) (sessions : List (List Request)) (d : Disk)
    (cs : List Claim) (hd : (FileStore.mk path).Holds d cs) (hcs : ∀ c ∈ cs, c.Exact)
    (hrequests : ∀ rs ∈ sessions, ∀ r ∈ rs, r.Exact) (h : faultlessSessions path sessions d) :
    (runSessions path sessions d).1.map (·.map Served.plain) =
      (MemoryStore.store.run sessions.flatten cs).1.map (·.map Served.plain) := by
  rw [faultlessSessions_eq] at h
  rw [runSessions_eq]
  refine run_refines_memory ⟨hcs, cs, hd, rfl⟩ (fun r hr => ?_) h
  obtain ⟨rs, hrs, hr⟩ := List.mem_flatten.1 hr
  exact hrequests rs hrs r hr

/-- A file that was written by hand, with blanks, an unknown member and the members in another order,
lists one claim. Two more are appended in two sessions, and all are listed in a third. -/
theorem handwritten_sessions_refine_memory :
    let text := "[ \x7b \"note\": [1, \x7b\x7d], \"HTSCode\":\"8471.30.01\", \"claimID\" : 7,\n" ++
      "  \"importerName\": \"Initech Metals\", \"importDate\": \"2024-01-15\"," ++
      " \"importQuantity\": 50, \"drawbackClaimed\": 1.2e1, \"dutiesPaid\":\"12.50\" \x7d ]\n"
    let first : Claim := ⟨7, "Initech Metals", "8471.30.01",
      ⟨2024, 1, 15, by decide, by decide, by decide⟩, 50,
      ⟨false, 125, 1, by decide, by decide, .inr (by decide)⟩,
      ⟨false, 12, 0, by decide, by decide, .inl rfl⟩⟩
    let sessions : List (List Request) :=
      [[.append Sample.laptops, .list], [.append Sample.furniture], [.list]]
    let d : Disk := ⟨[(["claims.json"], .file (Utf8.encode text))], []⟩
    (runSessions (Path.ofText "claims.json") sessions d).1.map (·.map Served.plain) =
      (MemoryStore.store.run sessions.flatten [first]).1.map (·.map Served.plain) := by
  intro text first sessions d
  have hbytes : d.readBytes (Path.ofText "claims.json") = .ok (Utf8.encode text) := by rfl
  have hlists : (FileStore.mk (Path.ofText "claims.json")).Lists d [first] := by
    refine ⟨text, ?_, Json.ok_of_toOption (by decide +kernel)⟩
    rw [Disk.readText_of_readBytes hbytes, Utf8.decode?_encode]
    rfl
  have hstands : (FileStore.mk (Path.ofText "claims.json")).Stands (Utf8.encode text) (.ok ()) d :=
    ⟨hbytes, by decide +kernel⟩
  have hexact : ∀ c ∈ [first], c.Exact := by
    rw [List.forall_mem_singleton]
    exact Claim.exact_of_readBack? (by decide +kernel)
  have hrequests : ∀ rs ∈ sessions, ∀ r ∈ rs, r.Exact := by
    simp [sessions, Request.Exact, Request.claims, Sample.exact_laptops, Sample.exact_furniture]
  have hstorable : ∀ r ∈ sessions.flatten, ∀ c ∈ r.claims, c.Storable := by decide
  refine sessions_refine_memory _ sessions d [first] (.inr hlists) hexact hrequests ?_
  rw [faultlessSessions_eq]
  exact hstands.faultlessRun hlists (by decide) hstorable

end CustomsClaims.FileStore
