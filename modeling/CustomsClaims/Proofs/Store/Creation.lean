import CustomsClaims.Proofs.Disk.Making
import CustomsClaims.Proofs.Store.Reading
import CustomsClaims.Proofs.Store.Replacement

/-!
# A claim file that is created

The first call on a claim file that is missing creates it, and whatever goes wrong with that call, the
disk is left in one of four ways (`FileStore.serve_leaves`): with directories that were made and no
claim file, with an empty list that was cut off, with an empty list, or with the one claim of an append.
`FileStore.created_or_cut_off` says what a later call reads there. Only the second way loses the claim
file: unlike the longer lists, which replace the file as a whole, the first list is written into it.
-/

namespace CustomsClaims.FileStore

/-- The claim file is missing, and is not uncovered by directories that are made. -/
structure Absent (s : FileStore) (d : Disk) : Prop where
  missing : d.exists? s.path = .ok false
  covered : ∀ d', d.AddsDirectories d' → ∀ bytes, d'.readBytes s.path ≠ .ok bytes

/-- On a disk where everything stands in a directory, a path that never leads up uncovers nothing. -/
theorem absent_of_rooted {s : FileStore} {d : Disk} (hrooted : d.Rooted)
    (hup : ".." ∉ s.path.segments) (h : d.exists? s.path = .ok false) : s.Absent d := by
  refine ⟨h, fun d' hadds bytes hread => ?_⟩
  have hexists := Disk.exists?_of_readBytes (hrooted.uncovered hup hadds hread)
  rw [h] at hexists
  cases hexists

/-- The content of an empty list, cut off before its end. -/
def CutOff (bytes : Bytes) : Prop := bytes <+: content [] ∧ bytes ≠ content []

theorem content_nil : content [] = [0x5B, 0x5D] := by decide +kernel

theorem parse_content_nil : ClaimList.parse (content []) = .ok [] :=
  Json.ok_of_toOption (ClaimList.parse_content [])

theorem cutOff_iff {bytes : Bytes} : CutOff bytes ↔ bytes = [] ∨ bytes = [0x5B] := by
  rw [CutOff, content_nil]
  constructor
  · rintro ⟨hfront, hne⟩
    simp only [List.prefix_cons_iff, List.prefix_nil] at hfront
    rcases hfront with rfl | ⟨rest, rfl, rfl | ⟨rest, rfl, rfl⟩⟩
    · exact .inl rfl
    · exact .inr rfl
    · exact absurd rfl hne
  · intro h
    rcases h with rfl | rfl <;> decide

/-- What a call leaves on a disk `d` without a claim file. -/
inductive Left (s : FileStore) (r : Request) (d : Disk) : Disk → Prop where
  | absent {d' : Disk} (h : d.AddsDirectories d') : Left s r d d'
  | cutOff {d' : Disk} {bytes : Bytes} (h : d'.readBytes s.path = .ok bytes) (hcut : CutOff bytes) :
    Left s r d d'
  | empty {d' : Disk} (h : d'.readBytes s.path = .ok (content [])) : Left s r d d'
  | replaced {d' : Disk} {c : Claim} (hr : r = .append c)
    (h : d'.readBytes s.path = .ok (content [c])) : Left s r d d'

section
variable {β : Type} {s : FileStore} {d : Disk} {ms : List (Option Mishap)} {P : Disk → Prop}

/-! ## Creating the file

`P` is what holds of the disk wherever the work stops. -/

theorem meet_leaves {α : Type} {m : Option Mishap} {works : Except IoError α × Disk}
    {failed died : Nat → Disk} {f : Except IoError α → Disk → Ending (Except FileError β)}
    (hworks : P (f works.1 works.2).disk) (hfails : ∀ e short, P (f (.error e) (failed short)).disk)
    (hdies : ∀ short, P (died short)) : P ((Mishap.meet m works failed died).andThen f).disk := by
  cases m with
  | none => exact hworks
  | some m =>
    cases m with
    | fails e short => exact hfails e short
    | dies short => exact hdies short

theorem makeDirs_leaves {action : FileAction} {p : Path} {f : Unit → Work β}
    (hgo : ∀ d', d.AddsDirectories d' → ∀ ms, P ((f ()).run.runUnder ms d').disk)
    (hstop : ∀ d', d.AddsDirectories d' → P d') :
    P ((makeDirs action p >>= f).run.runUnder ms d).disk := by
  have hpartly := fun short => hstop _ (Disk.addsDirectories_makeDirsPartly d p short)
  refine meet_leaves ?_ (fun _ short => hpartly short) hpartly
  have hadds := Disk.addsDirectories_makeDirs d p
  cases (d.makeDirs p).1 with
  | ok u => exact hgo _ hadds _
  | error e => exact hstop _ hadds

theorem ensureParent_leaves {f : Unit → Work β}
    (hgo : ∀ d', d.AddsDirectories d' → ∀ ms, P ((f ()).run.runUnder ms d').disk)
    (hstop : ∀ d', d.AddsDirectories d' → P d') :
    P ((s.ensureParent >>= f).run.runUnder ms d).disk := by
  unfold ensureParent
  split
  · exact hgo d (.refl d) ms
  · split
    · exact hgo d (.refl d) ms
    · exact makeDirs_leaves hgo hstop

/-- The first content goes into the file bit by bit. -/
theorem create_leaves {f : Unit → Work β}
    (hgo : ∀ d', d'.readBytes s.path = .ok (content []) → ∀ ms, P ((f ()).run.runUnder ms d').disk)
    (hcut : ∀ d' bytes, d'.readBytes s.path = .ok bytes → bytes <+: content [] → P d')
    (hstop : P d) : P ((write .create s.path (content []) >>= f).run.runUnder ms d).disk := by
  cases hw : d.writable s.path with
  | error e => exact write_refused (Q := fun o _ => P o.disk) hw hw fun _ _ => hstop
  | ok l =>
    refine write_both (Q := fun o _ => P o.disk) hw hw (fun ms => ?_) (fun _ _ n => ?_)
      fun _ _ => hstop
    · exact hgo _ (Disk.readBytes_put hw _) ms
    · exact hcut _ _ (Disk.readBytes_put hw _) (List.take_prefix n _)

/-- **Reading a missing file** creates it and goes on with no claims, or stops on the way. -/
theorem load_leaves {f : List Claim → Work β} (h : s.Absent d)
    (hgo : ∀ d', d'.readBytes s.path = .ok (content []) → ∀ ms, P ((f []).run.runUnder ms d').disk)
    (hcut : ∀ d' bytes, d'.readBytes s.path = .ok bytes → bytes <+: content [] → P d')
    (hstop : ∀ d', d.AddsDirectories d' → P d') :
    P ((s.load >>= f).run.runUnder ms d).disk := by
  unfold load
  simp only [bind_assoc]
  refine probe_both (Q := fun o _ => P o.disk) h.missing h.missing (fun ms => ?_)
    fun _ _ => hstop d (.refl d)
  simp only [Bool.false_eq_true, if_false, bind_assoc]
  refine ensureParent_leaves (fun d₁ hd₁ ms => ?_) hstop
  refine create_leaves (fun d₂ hd₂ ms => ?_) hcut (hstop d₁ hd₁)
  obtain ⟨text, htext, hencode⟩ := readText_of_content hd₂
  have hparse : ClaimList.parse (Utf8.encode text) = .ok [] := by
    rw [hencode, parse_content_nil]
  refine read_both (Q := fun o _ => P o.disk) htext htext (fun text' htext' ms => ?_)
    fun _ _ => hcut d₂ _ hd₂ (List.prefix_refl _)
  obtain rfl := Except.ok.inj htext'
  rw [hparse]
  exact hgo d₂ hd₂ ms

end

section
variable {s : FileStore} {d d' : Disk} {r : Request}

theorem Left.of_cut {bytes : Bytes} (h : d'.readBytes s.path = .ok bytes)
    (hfront : bytes <+: content []) : s.Left r d d' := by
  by_cases hfull : bytes = content []
  · exact .empty (hfull ▸ h)
  · exact .cutOff h ⟨hfront, hfull⟩

/-- The list that is longer by a claim than the empty one. -/
theorem Lengthens.of_empty {c : Claim} {after : Bytes} (h : Lengthens c (content []) after) :
    after = content [c] := by
  obtain ⟨text, cs, hdecode, hparse, rfl⟩ := h
  obtain ⟨text', hdecode', hencode⟩ := content_eq_encode []
  obtain rfl : text' = text := Option.some.inj (hdecode'.symm.trans hdecode)
  rw [hencode, parse_content_nil] at hparse
  obtain rfl : [] = cs := Except.ok.inj hparse
  rfl

theorem Verdict.old_or_new {c : Claim} {bytes after : Bytes}
    {v : Option (Except FileError Unit)} (h : Verdict c bytes v after) :
    after = bytes ∨ Lengthens c bytes after := by
  match v, h with
  | none, h => exact h
  | some (.error e), h => exact .inl h
  | some (.ok ()), h => exact .inr h

/-- **What a call leaves**, wherever it stops. -/
theorem serve_leaves (h : s.Absent d) (r : Request) (ms : List (Option Mishap)) :
    s.Left r d ((s.serve r).run.runUnder ms d).disk := by
  cases r with
  | list =>
    apply load_leaves h
    · intro d₁ hd₁ ms
      exact .empty hd₁
    · intro d₁ bytes hd₁ hfront
      exact .of_cut hd₁ hfront
    · intro d₁ hadds
      exact .absent hadds
  | append c =>
    rw [runUnder_serve_append]
    show s.Left (.append c) d ((s.append c).run.runUnder ms d).disk
    apply load_leaves h
    · -- The file holds an empty list now, which is replaced as a whole or not at all.
      intro d₁ hd₁ ms
      have hstands : s.Stands (content []) _ d₁ := ⟨hd₁, rfl⟩
      obtain ⟨text, hdecode, hencode⟩ := content_eq_encode []
      have hlonger : Lengthens c (content []) (content [c]) := by
        refine ⟨text, [], hdecode, ?_, rfl⟩
        rw [hencode, parse_content_nil]
      obtain ⟨-, after, hafter, -, hverdict⟩ := save_both hstands hstands hlonger ms
      rcases hverdict.old_or_new with rfl | hnew
      · exact .empty hafter.holds
      · exact .replaced rfl (hnew.of_empty ▸ hafter.holds)
    · intro d₁ bytes hd₁ hfront
      exact .of_cut hd₁ hfront
    · intro d₁ hadds
      exact .absent hadds

end

/-! ## Without mishaps -/

section
open Script (Steps)
variable {s : FileStore} {d d' : Disk}

/-- `created` is `d` with directories and an empty list at the path. -/
def Creates (s : FileStore) (d created : Disk) : Prop :=
  ∃ d₁ l, d.AddsDirectories d₁ ∧ d₁.writable s.path = .ok l ∧
    created = d₁.put l (.file (content []))

theorem Creates.readBytes (h : s.Creates d d') : d'.readBytes s.path = .ok (content []) := by
  obtain ⟨d₁, l, -, hw, rfl⟩ := h
  exact Disk.readBytes_put hw _

theorem steps_ensureParent_adds {β : Type} {b : Except FileError β} {f : Unit → Work β}
    (h : Steps ((s.ensureParent >>= f).run, d) (.done b, d')) :
    ∃ d₁, d.AddsDirectories d₁ ∧ Steps ((f ()).run, d₁) (.done b, d') := by
  unfold ensureParent at h
  split at h
  · exact ⟨d, .refl d, h⟩
  case h_2 p _ =>
    split at h
    · exact ⟨d, .refl d, h⟩
    · obtain ⟨d₁, hmake, h⟩ := steps_makeDirs h
      have hadds := Disk.addsDirectories_makeDirs d p
      rw [hmake] at hadds
      exact ⟨d₁, hadds, h⟩

/-- **Reading a missing file creates it**, and gives no claims. -/
theorem load_creates (h : d.exists? s.path = .ok false) (hread : s.load.run.faultless d) :
    (s.load.run.run d).value = .ok [] ∧ s.Creates d (s.load.run.run d).disk := by
  have hsteps := Script.steps_of_faultless hread
  unfold load at hsteps
  obtain ⟨found, hfound, hsteps⟩ := steps_probe hsteps
  obtain rfl : false = found := Except.ok.inj (h.symm.trans hfound)
  obtain ⟨d₁, hadds, hsteps⟩ := steps_ensureParent_adds hsteps
  obtain ⟨d₂, hwrite, hsteps⟩ := steps_write hsteps
  obtain ⟨text, htext, hencode⟩ := readText_of_content (Disk.readBytes_of_write hwrite)
  obtain ⟨text', htext', hsteps⟩ := steps_read (steps_note hsteps)
  obtain rfl : text = text' := Except.ok.inj (htext.symm.trans htext')
  rw [hencode, parse_content_nil] at hsteps
  obtain ⟨hvalue, hdisk⟩ := Script.steps_done hsteps
  obtain ⟨l, hw, hput⟩ := Disk.bind_eq_ok hwrite
  refine ⟨hvalue, d₁, l, hadds, hw, ?_⟩
  unfold load
  rw [hdisk]
  exact (Except.ok.inj hput).symm

end

/-! ## Reading afterwards -/

section
variable {s : FileStore} {d d' : Disk}

theorem load_of_holds {cs : List Claim} (h : s.Holds d cs) (hread : s.load.run.faultless d) :
    (s.load.run.run d).value = .ok cs :=
  (steps_load h (Script.steps_of_faultless hread)).1

theorem load_of_absent (h : s.Absent d) (hadds : d.AddsDirectories d')
    (hread : s.load.run.faultless d') : (s.load.run.run d').value = .ok [] := by
  have hsteps := Script.steps_of_faultless hread
  unfold load at hsteps
  obtain ⟨found, hfound, hsteps⟩ := steps_probe hsteps
  cases found with
  | false => exact load_of_holds (.inl ⟨hfound, rfl⟩) hread
  | true =>
    obtain ⟨text, htext, -⟩ := steps_read hsteps
    obtain ⟨bytes, hbytes, -⟩ := Disk.bind_eq_ok htext
    exact absurd hbytes (h.covered d' hadds bytes)

theorem load_of_cutOff {bytes : Bytes} (h : d.readBytes s.path = .ok bytes) (hcut : CutOff bytes) :
    ∃ e, (s.load.run.run d).value = .error (.corrupt s.path e) := by
  obtain ⟨text, hdecode, hparse⟩ : ∃ text, Utf8.decode? bytes = some text ∧
      (ClaimList.parse (Utf8.encode text)).toOption = none := by
    rcases cutOff_iff.1 hcut with rfl | rfl
    · exact ⟨"", by decide +kernel⟩
    · exact ⟨"[", by decide +kernel⟩
  have htext : d.readText s.path = .ok text := by
    rw [Disk.readText_of_readBytes h, hdecode]
    rfl
  rw [run_load (Disk.exists?_of_readBytes h), read?, htext]
  show ∃ e, s.readText? text = _
  unfold readText?
  cases hresult : ClaimList.parse (Utf8.encode text) with
  | error e => exact ⟨e, rfl⟩
  | ok cs =>
    rw [hresult] at hparse
    cases hparse

theorem load_of_replaced {c c' : Claim} (h : d.readBytes s.path = .ok (content [c]))
    (hc : c.readBack? = some c') (hread : s.load.run.faultless d) :
    (s.load.run.run d).value = .ok [c'] := by
  refine load_of_holds (.inr (lists_of_content h ?_)) hread
  rw [List.mapM_cons, hc]
  rfl

end

/-- The first list was not written to its end. -/
def StoppedCreating (s : FileStore) (d : Disk) : Prop :=
  ∃ bytes, d.readBytes s.path = .ok bytes ∧ CutOff bytes

/-- The append has replaced the first list. -/
def Replaced (s : FileStore) (r : Request) (d : Disk) (c : Claim) : Prop :=
  r = .append c ∧ d.readBytes s.path = .ok (content [c])

/-- **A claim file is created as a whole, or cut off while its first list is written.** Let the claim
file be missing, let any mishaps happen to a first call, and let a later reading meet with none. It
reads the one claim of the call if that has replaced the first list, and otherwise no claims; only if
the first list was cut off, it finds the file corrupt. -/
theorem created_or_cut_off (s : FileStore) (d : Disk) (h : s.Absent d) (r : Request)
    (ms : List (Option Mishap)) :
    let left := ((s.serve r).run.runUnder ms d).disk
    let later := (s.load.run.run left).value
    s.load.run.faultless left →
      (¬ s.StoppedCreating left →
        ((∀ c, ¬ s.Replaced r left c) → later = .ok []) ∧
        ∀ c, s.Replaced r left c → ∀ c', c.readBack? = some c' → later = .ok [c']) ∧
      (s.StoppedCreating left → ∃ e, later = .error (.corrupt s.path e)) := by
  intro left later hread
  refine ⟨fun hwhole => ⟨fun hfirst => ?_, fun c hnew c' hc => ?_⟩, fun hcut => ?_⟩
  · have hleft : s.Left r d left := serve_leaves h r ms
    cases hleft with
    | absent hadds => exact load_of_absent h hadds hread
    | cutOff hbytes hcut => exact absurd ⟨_, hbytes, hcut⟩ hwhole
    | empty hempty => exact load_of_holds (.inr (lists_of_content hempty rfl)) hread
    | replaced hr hbytes => exact absurd ⟨hr, hbytes⟩ (hfirst _)
  · exact load_of_replaced hnew.2 hc hread
  · obtain ⟨bytes, hbytes, hcut⟩ := hcut
    exact load_of_cutOff hbytes hcut

/-- The process dies as soon as an append has replaced the first list of a file, in a directory that was
missing as well. -/
theorem created_or_cut_off_replaced :
    let s : FileStore := ⟨.ofText "data/claims.json"⟩
    let d : Disk := ⟨[], []⟩
    let left := ((s.serve (.append Sample.laptops)).run.runUnder
      (List.replicate 6 none ++ [some (.dies 0)]) d).disk
    s.Absent d ∧ s.load.run.faultless left ∧ ¬ s.StoppedCreating left ∧
      s.Replaced (.append Sample.laptops) left Sample.laptops ∧
        (s.load.run.run left).value = .ok [Sample.laptops] := by
  intro s d left
  have habsent : s.Absent d := absent_of_rooted (Disk.rooted_empty []) (by decide +kernel) (by decide +kernel)
  have hbytes : left.readBytes s.path = .ok (content [Sample.laptops]) := by decide +kernel
  obtain ⟨text, htext, -⟩ := readText_of_content hbytes
  have hread : s.load.run.faultless left := faultless_of_readText htext
  have hwhole : ¬ s.StoppedCreating left := by
    rintro ⟨bytes, hbytes', hcut⟩
    obtain rfl := Except.ok.inj (hbytes'.symm.trans hbytes)
    rw [cutOff_iff] at hcut
    revert hcut
    decide +kernel
  have hreplaced : s.Replaced (.append Sample.laptops) left Sample.laptops := ⟨rfl, hbytes⟩
  obtain ⟨hgood, -⟩ := created_or_cut_off s d habsent (.append Sample.laptops) _ hread
  exact ⟨habsent, hread, hwhole, hreplaced, (hgood hwhole).2 _ hreplaced _ Sample.readBack?_laptops⟩

/-- The process dies when it has opened a missing file and written nothing. -/
theorem creation_cut_off :
    let s : FileStore := ⟨.ofText "data/claims.json"⟩
    let d : Disk := ⟨[], []⟩
    let o := (s.serve .list).run.runUnder [none, none, some (.dies 2)] d
    s.Absent d ∧ o.value = none ∧ o.disk.readBytes s.path = .ok [] ∧ s.load.run.faultless o.disk ∧
      ∃ e, (s.load.run.run o.disk).value = .error (.corrupt s.path e) := by
  intro s d o
  have hbytes : o.disk.readBytes s.path = .ok [] := by decide +kernel
  refine ⟨absent_of_rooted (Disk.rooted_empty []) (by decide +kernel) (by decide +kernel), ?_, hbytes,
    by decide +kernel, load_of_cutOff hbytes (cutOff_iff.2 (.inl rfl))⟩
  cases hvalue : o.value with
  | none => rfl
  | some v =>
    have hnone : o.value.isNone := by decide +kernel
    rw [hvalue] at hnone
    cases hnone

end CustomsClaims.FileStore
