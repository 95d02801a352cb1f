import CustomsClaims.Proofs.Store.Success

/-!
# Appends after which a claim file is readable

`FileStore.Reached s d`: appends that all succeeded lead from a missing claim file to the disk `d`.
`FileStore.list_after_append`: after one more append the claims can be listed exactly if the claim can
be stored. An append does not read what it wrote, and succeeds also with a claim that makes the file
unreadable.
-/

namespace CustomsClaims.FileStore

open Script (Steps)

/-! ## Success

Work that succeeds did so by operations that all succeeded. -/

section
variable {α β : Type}

/-- Only operations that succeed lead the work to success. -/
def Strict (w : Work α) : Prop :=
  ∀ d a, (w.run.run d).value = .ok a → Steps (w.run, d) (.done (.ok a), (w.run.run d).disk)

theorem strict_pure (a : α) : Strict (pure a) := by
  intro d a' h
  obtain rfl : a = a' := Except.ok.inj h
  exact .refl

theorem strict_throw (e : FileError) : Strict (throw e : Work α) := by
  intro d a h
  cases h

theorem strict_bind {x : Work α} {f : α → Work β} (hx : Strict x) (hf : ∀ a, Strict (f a)) :
    Strict (x >>= f) := by
  intro d b h
  have hrun : (x >>= f).run = x.run.bind (ExceptT.bindCont f) := rfl
  obtain ⟨hvalue, hdisk⟩ := Script.run_bind x.run (ExceptT.bindCont f) d
  rw [hrun] at h ⊢
  rw [hvalue] at h
  rw [hdisk]
  cases hout : (x.run.run d).value with
  | error e =>
    rw [hout] at h
    cases h
  | ok a =>
    rw [hout] at h
    exact (Script.steps_before _ (hx d a hout)).trans (hf a _ b h)

theorem mapError_eq_ok {ε ε' : Type} {x : Except ε α} {f : ε → ε'} {a : α}
    (h : x.mapError f = .ok a) : x = .ok a := by
  cases x with
  | error e => cases h
  | ok b => exact congrArg Except.ok (Except.ok.inj h)

theorem settle_eq_ok {d : Disk} {x : Except IoError Disk} {u : Unit}
    (h : (Script.settle d x).1 = .ok u) : x = .ok (Script.settle d x).2 := by
  cases x with
  | error e => cases h
  | ok d' => rfl

theorem strict_probe (action : FileAction) (p : Path) : Strict (probe action p) := by
  intro d found h
  exact .single (.probe (mapError_eq_ok h))

theorem strict_makeDirs (action : FileAction) (p : Path) : Strict (makeDirs action p) := by
  intro d u h
  exact .single (.makeDirs (Prod.ext (mapError_eq_ok h) rfl))

theorem strict_write (action : FileAction) (p : Path) (c : Bytes) : Strict (write action p c) := by
  intro d u h
  exact .single (.write (settle_eq_ok (mapError_eq_ok h)))

theorem strict_read (action : FileAction) (p : Path) : Strict (read action p) := by
  intro d text h
  exact .single (.read (mapError_eq_ok h))

theorem strict_rename (action : FileAction) (source target : Path) :
    Strict (rename action source target) := by
  intro d u h
  exact .single (.rename (settle_eq_ok (mapError_eq_ok h)))

theorem strict_note (e : Event) : Strict (note e) := by
  intro d u h
  exact .single (.note e _ d)

end

section
variable (s : FileStore)

theorem strict_ensureParent : Strict s.ensureParent := by
  unfold ensureParent
  split
  · exact strict_pure ()
  · split
    · exact strict_pure ()
    · exact strict_makeDirs _ _

theorem strict_load_read : Strict (do
    let text ← read .read s.path
    match ClaimList.parse (Utf8.encode text) with
    | .ok cs => pure cs
    | .error e => throw (.corrupt s.path e) : Work (List Claim)) := by
  refine strict_bind (strict_read _ _) ?_
  intro text
  split
  · exact strict_pure _
  · exact strict_throw _

theorem strict_load : Strict s.load := by
  unfold load
  refine strict_bind (strict_probe _ _) ?_
  intro found
  cases found with
  | true => exact strict_load_read s
  | false =>
    refine strict_bind (strict_ensureParent s) ?_
    intro _
    refine strict_bind (strict_write _ _ _) ?_
    intro _
    exact strict_bind (strict_note _) fun _ => strict_load_read s

theorem strict_save (cs : List Claim) : Strict (s.save cs) := by
  unfold save
  refine strict_bind (strict_ensureParent s) ?_
  intro _
  refine strict_bind (strict_write _ _ _) ?_
  intro _
  exact strict_bind (strict_rename _ _ _) fun _ => strict_note _

theorem strict_append (c : Claim) : Strict (s.append c) :=
  strict_bind s.strict_load fun cs => s.strict_save (cs ++ [c])

end

/-- A store that answers carried out the operations one after the other. -/
theorem steps_of_reply {α : Type} {w : Work α} {d : Disk} {a : α} (hw : Strict w)
    (h : (reply w d).answer = .ok a) : Steps (w.run, d) (.done (.ok a), (reply w d).state) := by
  refine hw d a ?_
  simp only [reply] at h
  cases hvalue : (w.run.run d).value with
  | error e =>
    rw [hvalue] at h
    cases h
  | ok b =>
    rw [hvalue] at h
    exact congrArg Except.ok (Answer.ok.inj h)

/-! ## What the file holds -/

section
variable {s : FileStore} {d d' : Disk} {cs : List Claim}

theorem holds_of_load (h : Steps (s.load.run, d) (.done (.ok cs), d')) : s.Holds d cs := by
  have hload := h
  unfold load at h
  obtain ⟨found, hfound, h⟩ := steps_probe h
  cases found with
  | false =>
    have hholds : s.Holds d [] := .inl ⟨hfound, rfl⟩
    obtain rfl := Except.ok.inj (steps_load hholds hload).1
    exact hholds
  | true =>
    obtain ⟨text, htext, h⟩ := steps_read h
    cases hparse : ClaimList.parse (Utf8.encode text) with
    | ok xs =>
      rw [hparse] at h
      obtain ⟨hcs, -⟩ := Script.steps_done h
      obtain rfl := Except.ok.inj hcs
      exact .inr ⟨text, htext, hparse⟩
    | error e =>
      rw [hparse] at h
      cases (Script.steps_done h).1

theorem steps_load_corrupt {b : Except FileError (List Claim)}
    (hd : d.readBytes s.path = .ok (content cs)) (hcs : cs.mapM Claim.readBack? = none)
    (h : Steps (s.load.run, d) (.done b, d')) : ∃ e, b = .error (.corrupt s.path e) := by
  obtain ⟨text, htext, hencode⟩ := readText_of_content hd
  obtain ⟨e, he⟩ := Json.error_of_toOption ((ClaimList.parse_content cs).trans hcs)
  unfold load at h
  obtain ⟨found, hfound, h⟩ := steps_probe h
  obtain rfl : true = found := Except.ok.inj ((exists?_of_readText htext).symm.trans hfound)
  obtain ⟨text', htext', h⟩ := steps_read h
  obtain rfl : text = text' := Except.ok.inj (htext.symm.trans htext')
  rw [hencode, he] at h
  exact ⟨e, (Script.steps_done h).1⟩

/-- No operation fails on a file that was written, whether it reads back or not. -/
theorem faultless_load (hd : d.readBytes s.path = .ok (content cs)) : s.load.run.faultless d := by
  obtain ⟨text, htext, -⟩ := readText_of_content hd
  exact faultless_of_readText htext

theorem list_of_content (hd : d.readBytes s.path = .ok (content cs))
    (h : ∀ c ∈ cs, c.Storable) :
    ∃ ys, (s.store.list d).answer = .ok ys ∧ ys.length = cs.length := by
  obtain ⟨ys, hys, hlength⟩ := ClaimList.mapM_of_storable h
  have hsteps := Script.steps_of_faultless (faultless_load hd)
  have hvalue := (steps_load (.inr (lists_of_content hd hys)) hsteps).1
  rw [hvalue] at hsteps
  exact ⟨ys, (reply_of_steps hsteps).1, hlength⟩

theorem corrupt_of_content {c : Claim} (hd : d.readBytes s.path = .ok (content cs))
    (hc : c ∈ cs) (h : ¬c.Storable) :
    ∃ e, (s.store.list d).answer = .failed (FileError.corrupt s.path e).toStoreError := by
  have hnone := ClaimList.mapM_readBack?_eq_none hc (Claim.readBack?_eq_none_of_not_storable h)
  obtain ⟨e, hvalue⟩ := steps_load_corrupt hd hnone (Script.steps_of_faultless (faultless_load hd))
  refine ⟨e, ?_⟩
  simp only [store, reply]
  rw [hvalue]

end

/-! ## Appends one after the other -/

/-- The disks that appends without failure lead to from a missing claim file. -/
inductive Reached (s : FileStore) : Disk → Prop
  | missing {d : Disk} (h : d.exists? s.path = .ok false) : Reached s d
  | append {d : Disk} {c : Claim} (hd : Reached s d) (h : (s.store.append c d).answer = .ok ()) :
    Reached s (s.store.append c d).state

section
variable {s : FileStore} {d : Disk} {c : Claim}

/-- What an append that succeeds read and wrote. -/
theorem append_eq_ok (h : (s.store.append c d).answer = .ok ()) :
    ∃ cs, (s.store.list d).answer = .ok cs ∧ s.Holds d cs ∧
      (s.store.append c d).state.readBytes s.path = .ok (content (cs ++ [c])) := by
  obtain ⟨cs, d₁, hload, hsave⟩ | ⟨e, he, -⟩ := steps_bind (steps_of_reply (s.strict_append c) h)
  · exact ⟨cs, (reply_of_steps hload).1, holds_of_load hload, (steps_save_content hsave).2.1⟩
  · cases he

theorem Reached.content (hd : s.Reached d) :
    d.exists? s.path = .ok false ∨ ∃ cs, d.readBytes s.path = .ok (content cs) := by
  cases hd with
  | missing h => exact .inl h
  | append hd h =>
    obtain ⟨cs, -, -, hcontent⟩ := append_eq_ok h
    exact .inr ⟨_, hcontent⟩

/-- All claims that the file lists can be stored again. -/
theorem Reached.storable {cs : List Claim} (hd : s.Reached d) (hcs : s.Holds d cs) :
    ∀ x ∈ cs, x.Storable := by
  rcases hcs with ⟨-, rfl⟩ | ⟨text, htext, hparse⟩
  · simp
  rcases hd.content with hmissing | ⟨xs, hcontent⟩
  · rw [exists?_of_readText htext] at hmissing
    cases hmissing
  · obtain ⟨text', htext', hencode⟩ := readText_of_content hcontent
    obtain rfl : text = text' := Except.ok.inj (htext.symm.trans htext')
    rw [hencode] at hparse
    have hread := ClaimList.parse_content xs
    rw [hparse] at hread
    exact ClaimList.storable_of_mapM hread.symm

/-- **When claims can be listed after an append.** Appends from a missing claim file on, and then one of
the claim `c`, all succeeded. A listing, of which no operation can fail then (`faultless_load`), gives
one claim more than before exactly if `c` can be stored; otherwise the file is corrupt. -/
theorem list_after_append (hd : s.Reached d) (happend : (s.store.append c d).answer = .ok ()) :
    ∃ xs, (s.store.list d).answer = .ok xs ∧
      ((∃ ys, (s.store.list (s.store.append c d).state).answer = .ok ys ∧
        ys.length = xs.length + 1) ↔ c.Storable) ∧
      (¬c.Storable → ∃ e, (s.store.list (s.store.append c d).state).answer =
        .failed (FileError.corrupt s.path e).toStoreError) := by
  obtain ⟨xs, hxs, hholds, hcontent⟩ := append_eq_ok happend
  have hstorable := hd.storable hholds
  have hcorrupt := corrupt_of_content (c := c) hcontent (by simp)
  refine ⟨xs, hxs, ⟨fun hread => ?_, fun hc => ?_⟩, hcorrupt⟩
  · by_contra hc
    obtain ⟨ys, hys, -⟩ := hread
    obtain ⟨e, he⟩ := hcorrupt hc
    rw [hys] at he
    cases he
  · have hall : ∀ x ∈ xs ++ [c], x.Storable := by
      intro x hx
      rcases List.mem_append.1 hx with hx | hx
      · exact hstorable x hx
      · rw [List.mem_singleton.1 hx]
        exact hc
    obtain ⟨ys, hys, hlength⟩ := list_of_content hcontent hall
    exact ⟨ys, hys, by rw [hlength, List.length_append, List.length_singleton]⟩

/-- A second claim is appended. -/
theorem list_after_append_second :
    let s : FileStore := ⟨Path.ofText "claims.json"⟩
    let d := (s.store.append Sample.laptops ⟨[], []⟩).state
    s.Reached d ∧ (s.store.append Sample.furniture d).answer = .ok () ∧
      ∃ xs ys, (s.store.list d).answer = .ok xs ∧
        (s.store.list (s.store.append Sample.furniture d).state).answer = .ok ys ∧
          ys.length = xs.length + 1 := by
  intro s d
  have hfirst : (s.store.append Sample.laptops ⟨[], []⟩).answer = .ok () := by decide +kernel
  have hmissing : Disk.exists? ⟨[], []⟩ s.path = .ok false := by decide +kernel
  have hreached : s.Reached d := .append (.missing hmissing) hfirst
  have hstands : s.Stands (FileStore.content [Sample.laptops]) (.ok ()) d :=
    stands_of_append (.inl ⟨hmissing, rfl⟩) (steps_of_reply (s.strict_append _) hfirst)
  obtain ⟨d', hsteps, -⟩ := hstands.append (hstands.lists Sample.mapM_laptops) Sample.furniture
  have happend : (s.store.append Sample.furniture d).answer = .ok () := (reply_of_steps hsteps).1
  obtain ⟨xs, hxs, hlonger, -⟩ := list_after_append hreached happend
  obtain ⟨ys, hys, hlength⟩ := hlonger.2 (by decide)
  exact ⟨hreached, happend, xs, ys, hxs, hys, hlength⟩

/-- The largest amount is accepted in a claim, which is appended without failure to a missing file and
makes it unreadable. -/
theorem unreadable_after_append :
    ∃ c, Claim.parse (Utf8.encode ("\x7b\"claimID\":1,\"importerName\":\"Acme\"," ++
        "\"HTSCode\":\"8471.30.01\",\"importDate\":\"2024-01-15\",\"importQuantity\":1," ++
        "\"dutiesPaid\":\"79228162514264337593543950335\",\"drawbackClaimed\":0\x7d")) = .ok c ∧
      (FileStore.mk (Path.ofText "claims.json")).Reached ⟨[], []⟩ ∧
      ((FileStore.mk (Path.ofText "claims.json")).store.append c ⟨[], []⟩).answer = .ok () ∧
      ∃ e, ((FileStore.mk (Path.ofText "claims.json")).store.list
        ((FileStore.mk (Path.ofText "claims.json")).store.append c ⟨[], []⟩).state).answer =
          .failed (FileError.corrupt (Path.ofText "claims.json") e).toStoreError := by
  have hmissing : Disk.exists? ⟨[], []⟩ (Path.ofText "claims.json") = .ok false := by
    decide +kernel
  have happend : ((FileStore.mk (Path.ofText "claims.json")).store.append
      ⟨1, "Acme", "8471.30.01", ⟨2024, 1, 15, by decide, by decide, by decide⟩, 1,
        ⟨false, 2 ^ 96 - 1, 0, by decide, by decide, .inl rfl⟩, .zero⟩ ⟨[], []⟩).answer = .ok () := by
    decide +kernel
  obtain ⟨cs, -, -, hcontent⟩ := append_eq_ok happend
  exact ⟨_, Json.ok_of_toOption (by decide +kernel), .missing hmissing, happend,
    corrupt_of_content hcontent (List.mem_append_right cs (List.mem_singleton_self _)) (by decide)⟩

end
end CustomsClaims.FileStore
