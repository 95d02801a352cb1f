import CustomsClaims.Proofs.Store.File

/-!
# Reading a claim file that is there

`FileStore.read?` says what a claim file gives: the claims that it lists (`FileStore.read?_eq_ok`), or
why there are none. Where the file is there, `FileStore.load` gives just this, logs nothing and leaves
the disk (`FileStore.run_load`). So nothing is written over a file that cannot be read: appending fails
as reading does (`FileStore.append_unreadable`).
-/

namespace CustomsClaims

namespace FileStore

/-- What the text of a claim file gives. -/
def readText? (s : FileStore) (text : String) : Except FileError (List Claim) :=
  (ClaimList.parse (Utf8.encode text)).mapError (.corrupt s.path)

/-- What the claim file gives. -/
def read? (s : FileStore) (d : Disk) : Except FileError (List Claim) :=
  match d.readText s.path with
  | .ok text => s.readText? text
  | .error e => .error (.io .read s.path e)

section
variable {s : FileStore} {d : Disk}

theorem readText?_eq_ok {text : String} {cs : List Claim} :
    s.readText? text = .ok cs ↔ ClaimList.parse (Utf8.encode text) = .ok cs := by
  unfold readText?
  cases ClaimList.parse (Utf8.encode text) <;> simp [Except.mapError]

theorem read?_eq_ok {cs : List Claim} : s.read? d = .ok cs ↔ s.Lists d cs := by
  unfold read? Lists
  cases d.readText s.path with
  | error e => simp
  | ok text => simp [readText?_eq_ok]

/-! ## Work on a disk -/

section
variable {α : Type} {action : FileAction} {p : Path}

theorem run_probe {f : Bool → Work α} {found : Bool} (h : d.exists? p = .ok found) :
    (probe action p >>= f).run.run d = (f found).run.run d := by
  show ((settle action p (d.exists? p)).bind (ExceptT.bindCont f)).run d = _
  rw [h]
  rfl

theorem run_read {f : String → Work α} {text : String} (h : d.readText p = .ok text) :
    (read action p >>= f).run.run d = (f text).run.run d := by
  show ((settle action p (d.readText p)).bind (ExceptT.bindCont f)).run d = _
  rw [h]
  rfl

theorem run_read_error {f : String → Work α} {e : IoError} (h : d.readText p = .error e) :
    (read action p >>= f).run.run d = ⟨.error (.io action p e), [], d⟩ := by
  show ((settle action p (d.readText p)).bind (ExceptT.bindCont f)).run d = _
  rw [h]
  rfl

end

/-- **Reading a file that is there** gives what it lists, or says why it lists nothing. -/
theorem run_load (hfile : d.exists? s.path = .ok true) :
    s.load.run.run d = ⟨s.read? d, [], d⟩ := by
  unfold load read?
  rw [run_probe hfile]
  show (read .read s.path >>= fun text => _).run.run d = _
  cases htext : d.readText s.path with
  | error e => exact run_read_error htext
  | ok text =>
    rw [run_read htext]
    show _ = (⟨s.readText? text, [], d⟩ : Script.Outcome _)
    unfold readText?
    cases ClaimList.parse (Utf8.encode text) with
    | error e => rfl
    | ok cs => rfl

theorem list_unreadable {e : FileError} (hfile : d.exists? s.path = .ok true)
    (he : s.read? d = .error e) : s.store.list d = ⟨.failed e.toStoreError, [], d⟩ := by
  simp only [store, reply, run_load hfile, he]

/-- **Appending to a file that cannot be read** fails as reading it does, and writes nothing. -/
theorem append_unreadable {e : FileError} (c : Claim) (hfile : d.exists? s.path = .ok true)
    (he : s.read? d = .error e) :
    (s.store.append c d).answer = .failed e.toStoreError ∧ (s.store.append c d).state = d := by
  let rest : List Claim → Work Unit := fun cs => s.save (cs ++ [c])
  have happend : (s.append c).run = s.load.run.bind (ExceptT.bindCont rest) := rfl
  obtain ⟨hvalue, hdisk⟩ := Script.run_bind s.load.run (ExceptT.bindCont rest) d
  rw [run_load hfile, he] at hvalue hdisk
  simp only [store, reply, happend, hvalue, hdisk]
  exact ⟨rfl, rfl⟩

end
end FileStore
end CustomsClaims
