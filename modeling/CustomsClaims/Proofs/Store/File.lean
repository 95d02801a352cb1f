import CustomsClaims.Proofs.Claim.RoundTrip
import CustomsClaims.Proofs.Disk.Directories
import CustomsClaims.Proofs.Store.Steps

/-!
# What a claim file holds

`FileStore.Holds s d cs`: on the disk `d` the claim file lists `cs`, or is missing and `cs` is empty.
When no operation fails, `FileStore.load` gives exactly these claims and leaves a file that lists them
(`FileStore.steps_load`), and `FileStore.save` leaves one that lists what the written claims read back
as, if they read back (`FileStore.steps_save`).
-/

namespace CustomsClaims.FileStore

open Script (Steps)

/-- The claim file is there and lists these claims. -/
def Lists (s : FileStore) (d : Disk) (cs : List Claim) : Prop :=
  ∃ text, d.readText s.path = .ok text ∧ ClaimList.parse (Utf8.encode text) = .ok cs

/-- The claim file lists these claims, or is missing and there are none. -/
def Holds (s : FileStore) (d : Disk) (cs : List Claim) : Prop :=
  (d.exists? s.path = .ok false ∧ cs = []) ∨ s.Lists d cs

/-! ## Work

Each operation of some work is followed by more work `f`, which goes on with what it gave. -/

section
variable {α β : Type} {d d' : Disk} {b : Except FileError β}

theorem steps_bind {x : Work α} {f : α → Work β}
    (h : Steps ((x >>= f).run, d) (.done b, d')) :
    (∃ a d₁, Steps (x.run, d) (.done (.ok a), d₁) ∧ Steps ((f a).run, d₁) (.done b, d')) ∨
      ∃ e, b = .error e ∧ Steps (x.run, d) (.done (.error e), d') := by
  obtain ⟨outcome, d₁, hx, h⟩ := Script.steps_bind h
  cases outcome with
  | ok a => exact .inl ⟨a, d₁, hx, h⟩
  | error e =>
    obtain ⟨rfl, rfl⟩ := Script.steps_done h
    exact .inr ⟨e, rfl, hx⟩

theorem steps_probe {action : FileAction} {p : Path} {f : Bool → Work β}
    (h : Steps ((probe action p >>= f).run, d) (.done b, d')) :
    ∃ found, d.exists? p = .ok found ∧ Steps ((f found).run, d) (.done b, d') :=
  Script.steps_probe h

theorem steps_makeDirs {action : FileAction} {p : Path} {f : Unit → Work β}
    (h : Steps ((makeDirs action p >>= f).run, d) (.done b, d')) :
    ∃ d₁, d.makeDirs p = (.ok (), d₁) ∧ Steps ((f ()).run, d₁) (.done b, d') :=
  Script.steps_makeDirs h

theorem steps_write {action : FileAction} {p : Path} {c : Bytes} {f : Unit → Work β}
    (h : Steps ((write action p c >>= f).run, d) (.done b, d')) :
    ∃ d₁, d.write p c = .ok d₁ ∧ Steps ((f ()).run, d₁) (.done b, d') :=
  Script.steps_write h

theorem steps_read {action : FileAction} {p : Path} {f : String → Work β}
    (h : Steps ((read action p >>= f).run, d) (.done b, d')) :
    ∃ text, d.readText p = .ok text ∧ Steps ((f text).run, d) (.done b, d') :=
  Script.steps_read h

theorem steps_rename {action : FileAction} {source target : Path} {f : Unit → Work β}
    (h : Steps ((rename action source target >>= f).run, d) (.done b, d')) :
    ∃ d₁, d.rename source target = .ok d₁ ∧ Steps ((f ()).run, d₁) (.done b, d') :=
  Script.steps_rename h

theorem steps_note {e : Event} {f : Unit → Work β}
    (h : Steps ((note e >>= f).run, d) (.done b, d')) : Steps ((f ()).run, d) (.done b, d') :=
  Script.steps_note h

theorem steps_ensureParent {s : FileStore} {f : Unit → Work β}
    (h : Steps ((s.ensureParent >>= f).run, d) (.done b, d')) :
    ∃ d₁, Steps ((f ()).run, d₁) (.done b, d') := by
  unfold ensureParent at h
  split at h
  · exact ⟨d, h⟩
  · split at h
    · exact ⟨d, h⟩
    · obtain ⟨d₁, -, h⟩ := steps_makeDirs h
      exact ⟨d₁, h⟩

end

/-! ## Reading and writing -/

theorem exists?_of_readText {d : Disk} {p : Path} {text : String} (h : d.readText p = .ok text) :
    d.exists? p = .ok true := by
  obtain ⟨c, hc, -⟩ := Disk.bind_eq_ok h
  exact Disk.exists?_of_readBytes hc

/-- What is said about a text touches no disk. -/
theorem faultless_parsed (p : Path) (parsed : Except Json.Error (List Claim)) (d : Disk) :
    Script.faultless (ExceptT.run (match parsed with
      | .ok cs => pure cs
      | .error e => throw (.corrupt p e) : Work (List Claim))) d := by
  cases parsed with
  | ok cs => rfl
  | error e => rfl

/-- No operation fails on a file that is a text, whatever it says. -/
theorem faultless_of_readText {s : FileStore} {d : Disk} {text : String}
    (h : d.readText s.path = .ok text) : s.load.run.faultless d := by
  have hfound := exists?_of_readText h
  unfold load
  show Script.faultless (.probe s.path _) d = true
  rw [Script.faultless, hfound]
  refine Bool.and_eq_true_iff.2 ⟨rfl, ?_⟩
  show Script.faultless (.read s.path _) d = true
  rw [Script.faultless, h]
  exact Bool.and_eq_true_iff.2 ⟨rfl, faultless_parsed s.path _ d⟩

/-- The content of a claim file is a text. -/
theorem content_eq_encode (cs : List Claim) :
    ∃ text, Utf8.decode? (content cs) = some text ∧ Utf8.encode text = content cs := by
  rw [content, Json.Tree.indented_eq]
  exact (Json.Tree.isText_laidOut .indented 0 (ClaimList.tree cs)).decode

section
variable {s : FileStore} {d d' : Disk} {cs cs' : List Claim}

theorem readText_of_content (h : d.readBytes s.path = .ok (content cs)) :
    ∃ text, d.readText s.path = .ok text ∧ Utf8.encode text = content cs := by
  obtain ⟨text, hdecode, hencode⟩ := content_eq_encode cs
  exact ⟨text, by rw [Disk.readText_of_readBytes h, hdecode]; rfl, hencode⟩

theorem lists_of_content (h : d.readBytes s.path = .ok (content cs))
    (hcs : cs.mapM Claim.readBack? = some cs') : s.Lists d cs' := by
  obtain ⟨text, htext, hencode⟩ := readText_of_content h
  refine ⟨text, htext, ?_⟩
  rw [hencode]
  exact Json.ok_of_toOption ((ClaimList.parse_content cs).trans hcs)

theorem steps_load_read {b : Except FileError (List Claim)} (hd : s.Lists d cs)
    (h : Steps ((do
      let text ← read .read s.path
      match ClaimList.parse (Utf8.encode text) with
      | .ok cs => pure cs
      | .error e => throw (.corrupt s.path e) : Work (List Claim)).run, d) (.done b, d')) :
    b = .ok cs ∧ s.Lists d' cs := by
  obtain ⟨text, htext, hcs⟩ := hd
  obtain ⟨text', htext', h⟩ := steps_read h
  obtain rfl : text = text' := Except.ok.inj (htext.symm.trans htext')
  rw [hcs] at h
  obtain ⟨rfl, rfl⟩ := Script.steps_done h
  exact ⟨rfl, text, htext, hcs⟩

/-- **Reading** gives the claims that the file holds; afterwards the file is there and lists them. -/
theorem steps_load {b : Except FileError (List Claim)} (hd : s.Holds d cs)
    (h : Steps (s.load.run, d) (.done b, d')) : b = .ok cs ∧ s.Lists d' cs := by
  unfold load at h
  obtain ⟨found, hfound, h⟩ := steps_probe h
  obtain ⟨hmissing, rfl⟩ | ⟨text, htext, hcs⟩ := hd
  · obtain rfl : false = found := Except.ok.inj (hmissing.symm.trans hfound)
    obtain ⟨d₁, h⟩ := steps_ensureParent h
    obtain ⟨d₂, hwrite, h⟩ := steps_write h
    exact steps_load_read (lists_of_content (Disk.readBytes_of_write hwrite) rfl) (steps_note h)
  · obtain rfl : true = found := Except.ok.inj ((exists?_of_readText htext).symm.trans hfound)
    exact steps_load_read ⟨text, htext, hcs⟩ h

/-- Writing leaves the file with the content of the claims, whatever it held, and no temporary file in
the way. -/
theorem steps_save_content {b : Except FileError Unit}
    (h : Steps ((s.save cs).run, d) (.done b, d')) :
    b = .ok () ∧ d'.readBytes s.path = .ok (content cs) ∧ ∃ l, d'.writable s.temporary = .ok l := by
  unfold save at h
  obtain ⟨d₁, h⟩ := steps_ensureParent h
  obtain ⟨d₂, hwrite, h⟩ := steps_write h
  obtain ⟨d₃, hrename, h⟩ := steps_rename h
  obtain ⟨rfl, rfl⟩ := Script.steps_done (Script.steps_note h)
  obtain ⟨c, hsource, htarget⟩ := Disk.readBytes_of_rename hrename
  obtain rfl := Except.ok.inj (hsource.symm.trans (Disk.readBytes_of_write hwrite))
  exact ⟨rfl, htarget, Disk.writable_of_rename hrename⟩

/-- **Writing** leaves the file with what the claims read back as. -/
theorem steps_save {b : Except FileError Unit} (hcs : cs.mapM Claim.readBack? = some cs')
    (h : Steps ((s.save cs).run, d) (.done b, d')) : b = .ok () ∧ s.Lists d' cs' := by
  obtain ⟨hb, hcontent, -⟩ := steps_save_content h
  exact ⟨hb, lists_of_content hcontent hcs⟩

/-- **Appending** reads the list and writes the longer one. -/
theorem steps_append {c : Claim} {b : Except FileError Unit} (hd : s.Holds d cs)
    (hcs : (cs ++ [c]).mapM Claim.readBack? = some cs')
    (h : Steps ((s.append c).run, d) (.done b, d')) : b = .ok () ∧ s.Lists d' cs' := by
  obtain ⟨xs, d₁, hload, h⟩ | ⟨e, -, hload⟩ := steps_bind h
  · obtain ⟨hxs, -⟩ := steps_load hd hload
    obtain rfl := Except.ok.inj hxs
    exact steps_save hcs h
  · cases (steps_load hd hload).1

end

theorem reply_of_steps {α : Type} {w : Work α} {d d' : Disk} {a : α}
    (h : Steps (w.run, d) (.done (.ok a), d')) :
    (reply w d).answer = .ok a ∧ (reply w d).state = d' := by
  obtain ⟨hvalue, hdisk⟩ := Script.run_of_steps h
  simp only [reply, hvalue, hdisk, and_self]

end CustomsClaims.FileStore
