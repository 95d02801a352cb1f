import CustomsClaims.Proofs.Claim.Storable
import CustomsClaims.Proofs.Store.Replacement

/-!
# Where nothing can fail

`FileStore.Stands.serve`: if the claim file lists claims, and a file can be written beside it, every
operation of a request succeeds, and leaves a file of written claims.
`FileStore.Stands.faultlessRun`: so does every operation of a run that appends claims that can be stored.
-/

namespace CustomsClaims.FileStore

open Script (Steps)

theorem steps_then {α β : Type} {d d₁ d' : Disk} {a : α} {b : Except FileError β} {x : Work α}
    {f : α → Work β} (hx : Steps (x.run, d) (.done (.ok a), d₁))
    (hf : Steps ((f a).run, d₁) (.done b, d')) : Steps ((x >>= f).run, d) (.done b, d') :=
  (Script.steps_before (ExceptT.bindCont f) hx).trans hf

section
variable {s : FileStore} {d : Disk} {bytes : Bytes} {attempt : Except IoError Unit}
  {cs ys : List Claim}

/-- The directory of a file that is there need not be created. -/
theorem Stands.ensureParent (h : s.Stands bytes attempt d) :
    Steps (s.ensureParent.run, d) (.done (.ok ()), d) := by
  obtain ⟨parent, name, hr, -⟩ := Disk.readBytes_eq_ok h.holds
  unfold FileStore.ensureParent
  cases hparent : s.path.parent? with
  | none => exact .refl
  | some p =>
    dsimp only
    by_cases hempty : p.isEmpty
    · rw [if_pos hempty]
      exact .refl
    · rw [if_neg hempty]
      exact .single (.makeDirs (Disk.makeDirs_of_find (Disk.find_parent hr hparent hempty)))

/-- A file that lists claims is read without a change to the disk. -/
theorem Lists.load (h : s.Lists d ys) : Steps (s.load.run, d) (.done (.ok ys), d) := by
  obtain ⟨text, htext, hparse⟩ := h
  unfold FileStore.load
  refine steps_then (.single (.probe (exists?_of_readText htext))) ?_
  refine steps_then (.single (.read htext)) ?_
  rw [hparse]
  exact .refl

theorem Stands.save (h : s.Stands bytes (.ok ()) d) (cs : List Claim) :
    ∃ d', Steps ((s.save cs).run, d) (.done (.ok ()), d') ∧ s.Stands (content cs) (.ok ()) d' := by
  obtain ⟨l, hw⟩ := h.writable
  obtain ⟨d', hrename, hd'⟩ := h.rename hw (content cs)
  refine ⟨d', ?_, hd'⟩
  have hwrite : d.write s.temporary (content cs) = .ok (d.put l (.file (content cs))) := by
    rw [Disk.write, hw]
    rfl
  unfold FileStore.save
  refine steps_then h.ensureParent ?_
  refine steps_then (.single (.write hwrite)) ?_
  refine steps_then (.single (.rename hrename)) ?_
  exact .single (.note _ _ _)

theorem Stands.append (h : s.Stands bytes (.ok ()) d) (hys : s.Lists d ys) (c : Claim) :
    ∃ d', Steps ((s.append c).run, d) (.done (.ok ()), d') ∧
      s.Stands (content (ys ++ [c])) (.ok ()) d' := by
  obtain ⟨d', hsave, hd'⟩ := h.save (ys ++ [c])
  exact ⟨d', steps_then hys.load hsave, hd'⟩

/-- **No operation of a request fails.** A listing gives the claims that the file lists; an append
writes them and the new claim. -/
theorem Stands.serve (h : s.Stands bytes (.ok ()) d) (hys : s.Lists d ys) (r : Request) :
    ∃ d', Steps ((s.serve r).run, d) (.done (.ok (r.served ys)), d') ∧
      s.Stands (match r with | .list => bytes | .append c => content (ys ++ [c])) (.ok ()) d' := by
  cases r with
  | list => exact ⟨d, steps_then hys.load .refl, h⟩
  | append c =>
    obtain ⟨d', happend, hd'⟩ := h.append hys c
    exact ⟨d', steps_then happend .refl, hd'⟩

/-- What was written can be written again. -/
theorem stands_of_save {b : Except FileError Unit} {d' : Disk}
    (h : Steps ((s.save cs).run, d) (.done b, d')) : s.Stands (content cs) (.ok ()) d' := by
  obtain ⟨-, hcontent, l, hl⟩ := steps_save_content h
  exact ⟨hcontent, by rw [hl]; rfl⟩

/-- An append leaves what the next one needs, also where the file was missing. -/
theorem stands_of_append {b : Except FileError Unit} {c : Claim} {d' : Disk} (hd : s.Holds d cs)
    (h : Steps ((s.append c).run, d) (.done b, d')) :
    s.Stands (content (cs ++ [c])) (.ok ()) d' := by
  obtain ⟨xs, d₁, hload, hsave⟩ | ⟨e, -, hload⟩ := steps_bind h
  · obtain rfl := Except.ok.inj (steps_load hd hload).1
    exact stands_of_save hsave
  · cases (steps_load hd hload).1

/-- What the written claims read back as. -/
theorem Stands.lists (h : s.Stands (content cs) attempt d)
    (hcs : cs.mapM Claim.readBack? = some ys) : s.Lists d ys :=
  lists_of_content h.holds hcs

/-- After a request, the file still lists claims that can be stored. -/
theorem Stands.serve_storable {r : Request} (h : s.Stands bytes (.ok ()) d) (hys : s.Lists d ys)
    (hstorable : ∀ c ∈ ys, c.Storable) (hr : ∀ c ∈ r.claims, c.Storable) :
    ∃ d' bytes' zs, Steps ((s.serve r).run, d) (.done (.ok (r.served ys)), d') ∧
      s.Stands bytes' (.ok ()) d' ∧ s.Lists d' zs ∧ ∀ c ∈ zs, c.Storable := by
  cases r with
  | list => exact ⟨d, bytes, ys, steps_then hys.load .refl, h, hys, hstorable⟩
  | append c =>
    obtain ⟨d', hsteps, hd'⟩ := h.serve hys (.append c)
    have hlonger : ∀ x ∈ ys ++ [c], x.Storable := by
      intro x hx
      rcases List.mem_append.1 hx with hx | hx
      · exact hstorable x hx
      · exact hr x hx
    obtain ⟨zs, hzs, -⟩ := ClaimList.mapM_of_storable hlonger
    exact ⟨d', _, zs, hsteps, hd', hd'.lists hzs, ClaimList.storable_of_mapM hzs⟩

/-- **No operation of a run fails** if all claims can be stored. -/
theorem Stands.faultlessRun {rs : List Request} (h : s.Stands bytes (.ok ()) d)
    (hys : s.Lists d ys) (hstorable : ∀ c ∈ ys, c.Storable)
    (hrs : ∀ r ∈ rs, ∀ c ∈ r.claims, c.Storable) : s.faultlessRun rs d := by
  induction rs generalizing d bytes ys with
  | nil => rfl
  | cons r rs ih =>
    obtain ⟨hr, hrest⟩ := List.forall_mem_cons.1 hrs
    obtain ⟨d', bytes', zs, hsteps, hd', hzs, hstorable'⟩ := h.serve_storable hys hstorable hr
    rw [FileStore.faultlessRun, store_serve_of_steps hsteps]
    exact Bool.and_eq_true_iff.2 ⟨Script.faultless_of_steps hsteps, ih hd' hzs hstorable' hrest⟩

end
end CustomsClaims.FileStore
