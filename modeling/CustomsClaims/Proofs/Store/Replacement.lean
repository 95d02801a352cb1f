import CustomsClaims.Proofs.Store.Mishaps
import CustomsClaims.Proofs.Store.Request

/-!
# A claim file is replaced as a whole

Whatever goes wrong with an append, the claim file holds what it held before or the complete longer
list (`FileStore.append_all_or_nothing`), and what is left in the temporary file makes no difference
to anything that is done later.

The proof follows an append on two disks side by side, on which the claim file holds the same and the
temporary file can be written on both or on neither (`FileStore.Stands`).
-/

namespace CustomsClaims.FileStore

/-! ## Two disks that a claim file does not tell apart -/

/-- The claim file holds `bytes`, and this is what comes of an attempt to write the temporary file. -/
structure Stands (s : FileStore) (bytes : Bytes) (attempt : Except IoError Unit) (d : Disk) :
    Prop where
  holds : d.readBytes s.path = .ok bytes
  attempt : (d.writable s.temporary).map (fun _ => ()) = attempt

/-- `after` is the content of the longer list. -/
def Lengthens (c : Claim) (bytes after : Bytes) : Prop :=
  ∃ text cs, Utf8.decode? bytes = some text ∧ ClaimList.parse (Utf8.encode text) = .ok cs ∧
    after = content (cs ++ [c])

/-- What an append may leave in the claim file, by how it ended. -/
def Verdict (c : Claim) (bytes : Bytes) (v : Option (Except FileError Unit)) (after : Bytes) : Prop :=
  match v with
  | none => after = bytes ∨ Lengthens c bytes after
  | some (.error _) => after = bytes
  | some (.ok ()) => Lengthens c bytes after

/-- Two endings of an append, with the same value and the same claim file. -/
def Settled (s : FileStore) (c : Claim) (bytes : Bytes) (attempt : Except IoError Unit)
    (o o' : Ending (Except FileError Unit)) : Prop :=
  o.value = o'.value ∧ ∃ after, s.Stands after attempt o.disk ∧ s.Stands after attempt o'.disk ∧
    Verdict c bytes o.value after

section
variable {s : FileStore} {c : Claim} {bytes : Bytes} {attempt : Except IoError Unit} {d d' : Disk}

theorem verdict_stopped {v : Option (Except FileError Unit)} (hv : Stopped v) :
    Verdict c bytes v bytes := by
  match v, hv with
  | none, _ => exact .inl rfl
  | some (.error e), _ => rfl
  | some (.ok ()), hv => exact absurd rfl (hv ())

theorem settled_stopped (h : s.Stands bytes attempt d) (h' : s.Stands bytes attempt d')
    {v : Option (Except FileError Unit)} (hv : Stopped v) :
    s.Settled c bytes attempt ⟨v, d⟩ ⟨v, d'⟩ :=
  ⟨rfl, bytes, h, h', verdict_stopped hv⟩

/-! ## Reading -/

theorem Stands.exists? (h : s.Stands bytes attempt d) : d.exists? s.path = .ok true :=
  Disk.exists?_of_readBytes h.holds

theorem Stands.readText (h : s.Stands bytes attempt d) :
    d.readText s.path = match Utf8.decode? bytes with
      | some text => .ok text
      | none => .error .notText := by
  rw [Disk.readText_of_readBytes h.holds]
  cases Utf8.decode? bytes <;> rfl

/-- Both disks go on with the same claims, or stop. -/
theorem load_both {β : Type} {f : List Claim → Work β} {ms : List (Option Mishap)}
    {Q : Ending (Except FileError β) → Ending (Except FileError β) → Prop}
    (h : s.Stands bytes attempt d) (h' : s.Stands bytes attempt d')
    (hgo : ∀ text cs, Utf8.decode? bytes = some text →
      ClaimList.parse (Utf8.encode text) = .ok cs →
      ∀ ms, Q ((f cs).run.runUnder ms d) ((f cs).run.runUnder ms d'))
    (hstop : ∀ v, Stopped v → Q ⟨v, d⟩ ⟨v, d'⟩) :
    Q ((s.load >>= f).run.runUnder ms d) ((s.load >>= f).run.runUnder ms d') := by
  unfold load
  simp only [bind_assoc]
  refine probe_both h.exists? h'.exists? (fun ms => ?_) hstop
  simp only [if_true, bind_assoc]
  refine read_both h.readText h'.readText (fun text htext ms => ?_) hstop
  have hdecode : Utf8.decode? bytes = some text := by
    cases hdecode : Utf8.decode? bytes with
    | none =>
      rw [hdecode] at htext
      cases htext
    | some text' =>
      rw [hdecode] at htext
      cases htext
      rfl
  cases hparse : ClaimList.parse (Utf8.encode text) with
  | ok cs => exact hgo text cs hdecode hparse ms
  | error e => exact hstop _ (stopped_error _)

/-- Claims that are listed are read and handed on, unless a mishap comes first. -/
theorem Lists.runUnder_load {β : Type} {f : List Claim → Work β} {cs : List Claim}
    (h : s.Lists d cs) (ms : List (Option Mishap)) :
    (s.load >>= f).run.runUnder (none :: none :: ms) d = (f cs).run.runUnder ms d := by
  obtain ⟨text, htext, hparse⟩ := h
  unfold load
  simp only [bind_assoc]
  rw [runUnder_probe (exists?_of_readText htext)]
  simp only [if_true, bind_assoc]
  rw [runUnder_read htext, hparse]
  rfl

/-! ## Writing -/

/-- What is written to the temporary file does not change the claim file. -/
theorem Stands.put {l : Location} (h : s.Stands bytes (.ok ()) d)
    (hw : d.writable s.temporary = .ok l) (x : Bytes) :
    s.Stands bytes (.ok ()) (d.put l (.file x)) := by
  obtain ⟨hread, hwrite⟩ := Disk.readBytes_put_sibling (by decide) h.holds hw x
  exact ⟨hread, congrArg _ hwrite⟩

theorem Stands.writable (h : s.Stands bytes (.ok ()) d) :
    ∃ l, d.writable s.temporary = .ok l := by
  have hattempt := h.attempt
  cases hw : d.writable s.temporary with
  | ok l => exact ⟨l, rfl⟩
  | error e =>
    rw [hw] at hattempt
    cases hattempt

theorem Stands.refused {e : IoError} (h : s.Stands bytes (.error e) d) :
    d.writable s.temporary = .error e := by
  have hattempt := h.attempt
  cases hw : d.writable s.temporary with
  | ok l =>
    rw [hw] at hattempt
    cases hattempt
  | error e' =>
    rw [hw] at hattempt
    cases hattempt
    rfl

theorem Stands.rename {l : Location} (h : s.Stands bytes (.ok ()) d)
    (hw : d.writable s.temporary = .ok l) (x : Bytes) :
    ∃ d', (d.put l (.file x)).rename s.temporary s.path = .ok d' ∧ s.Stands x (.ok ()) d' := by
  obtain ⟨d', hrename, hread, hwrite⟩ := Disk.rename_sibling (by decide) h.holds hw x
  exact ⟨d', hrename, hread, congrArg _ hwrite⟩

/-- Replacing the claims leaves the old file until it leaves the new one. -/
theorem save_both {cs : List Claim} (h : s.Stands bytes attempt d) (h' : s.Stands bytes attempt d')
    (hcs : Lengthens c bytes (content cs)) (ms : List (Option Mishap)) :
    s.Settled c bytes attempt ((s.save cs).run.runUnder ms d) ((s.save cs).run.runUnder ms d') := by
  obtain ⟨parent, name, hr, -⟩ := Disk.readBytes_eq_ok h.holds
  obtain ⟨parent', name', hr', -⟩ := Disk.readBytes_eq_ok h'.holds
  unfold save
  refine ensureParent_both hr hr' (fun ms => ?_) (fun v hv => settled_stopped h h' hv)
  cases attempt with
  | error e =>
    exact write_refused h.refused h'.refused fun v hv => settled_stopped h h' hv
  | ok u =>
    obtain ⟨l, hw⟩ := h.writable
    obtain ⟨l', hw'⟩ := h'.writable
    refine write_both hw hw' (fun ms => ?_)
      (fun v hv n => settled_stopped (h.put hw _) (h'.put hw' _) hv)
      (fun v hv => settled_stopped h h' hv)
    obtain ⟨e, hrename, hnew⟩ := h.rename hw (content cs)
    obtain ⟨e', hrename', hnew'⟩ := h'.rename hw' (content cs)
    refine rename_both hrename hrename' (fun ms => ?_) ?_
      (fun v hv => settled_stopped (h.put hw _) (h'.put hw' _) hv)
    · exact ⟨rfl, content cs, hnew, hnew', hcs⟩
    · exact ⟨rfl, content cs, hnew, hnew', .inr hcs⟩

/-- **An append on two disks** ends with the same value and the same claim file. -/
theorem append_both (h : s.Stands bytes attempt d) (h' : s.Stands bytes attempt d')
    (ms : List (Option Mishap)) :
    s.Settled c bytes attempt ((s.append c).run.runUnder ms d)
      ((s.append c).run.runUnder ms d') := by
  refine load_both h h' (fun text cs hdecode hparse ms => ?_) fun v hv => settled_stopped h h' hv
  exact save_both h h' ⟨text, cs, hdecode, hparse, rfl⟩ ms

end

/-! ## Calls that follow -/

/-- Requests to the claim file, each under its mishaps: how each of them ended, and what the claim file
held then. -/
def callsUnder (s : FileStore) :
    List (Request × List (Option Mishap)) → Disk →
      List (Option (Except FileError Served) × Except IoError Bytes)
  | [], _ => []
  | (r, ms) :: calls, d =>
    let o := (s.serve r).run.runUnder ms d
    (o.value, o.disk.readBytes s.path) :: s.callsUnder calls o.disk

section
variable {s : FileStore} {bytes : Bytes} {attempt : Except IoError Unit} {d d' : Disk}

theorem runUnder_serve_append (c : Claim) (ms : List (Option Mishap)) (d : Disk) :
    (s.serve (.append c)).run.runUnder ms d =
      ((s.append c).run.runUnder ms d).map (Except.map fun _ => Served.appended) := by
  have hcont : (ExceptT.bindCont fun _ : Unit => (pure .appended : Work Served)) =
      fun x => Script.done (Except.map (fun _ => Served.appended) x) := by
    funext x
    cases x <;> rfl
  rw [← Script.runUnder_bind_done, ← hcont]
  rfl

/-- Any request on two disks ends with the same value and the same claim file. -/
theorem serve_both (h : s.Stands bytes attempt d) (h' : s.Stands bytes attempt d') (r : Request)
    (ms : List (Option Mishap)) :
    let o := (s.serve r).run.runUnder ms d
    let o' := (s.serve r).run.runUnder ms d'
    o.value = o'.value ∧ ∃ after, s.Stands after attempt o.disk ∧ s.Stands after attempt o'.disk := by
  cases r with
  | list =>
    refine load_both
      (Q := fun o o' => o.value = o'.value ∧
        ∃ after, s.Stands after attempt o.disk ∧ s.Stands after attempt o'.disk)
      h h' (fun text cs _ _ ms => ?_) fun v _ => ⟨rfl, bytes, h, h'⟩
    exact ⟨rfl, bytes, h, h'⟩
  | append c =>
    obtain ⟨hvalue, after, hafter, hafter', -⟩ := append_both (c := c) h h' ms
    intro o o'
    have ho : o = _ := runUnder_serve_append c ms d
    have ho' : o' = _ := runUnder_serve_append c ms d'
    rw [ho, ho']
    exact ⟨congrArg (Option.map _) hvalue, after, hafter, hafter'⟩

/-- **Later calls** do not tell the disks apart either. -/
theorem callsUnder_eq (h : s.Stands bytes attempt d) (h' : s.Stands bytes attempt d')
    (calls : List (Request × List (Option Mishap))) : s.callsUnder calls d = s.callsUnder calls d' := by
  induction calls generalizing d d' bytes with
  | nil => rfl
  | cons call calls ih =>
    obtain ⟨r, ms⟩ := call
    obtain ⟨hvalue, after, hafter, hafter'⟩ := serve_both h h' r ms
    rw [callsUnder, callsUnder, ih hafter hafter', hvalue, hafter.holds, hafter'.holds]

theorem Stands.sameBut (h : s.Stands bytes attempt d) (hsame : d.SameBut s.temporary d') :
    s.Stands bytes attempt d' := by
  refine ⟨?_, hsame.writable.trans h.attempt⟩
  obtain ⟨parent, name, hr, hfile⟩ := Disk.readBytes_eq_ok h.holds
  refine hsame.keeps.readBytes h.holds hr ?_
  rw [hsame.others, (Disk.lookUp_eq_ok.1 hfile).2]
  exact fun hw => Disk.ne_of_writable_sibling (by decide) hr hw rfl

/-- A longer list is the one that the file held, and the claim. -/
theorem Lengthens.lists {c : Claim} {after : Bytes} (h : d.readBytes s.path = .ok bytes)
    (hafter : Lengthens c bytes after) : ∃ cs, s.Lists d cs ∧ after = content (cs ++ [c]) := by
  obtain ⟨text, cs, hdecode, hparse, rfl⟩ := hafter
  refine ⟨cs, ⟨text, ?_, hparse⟩, rfl⟩
  rw [Disk.readText, h]
  dsimp only [bind, Except.bind]
  rw [hdecode]
  rfl

end

/-- **A claim file is replaced as a whole or not at all.** Let the claim file hold the bytes `before`,
and let an append be stopped anywhere. Then the file holds `before` still, or the list that was there
and the claim after it; the latter if the append succeeds, the former if it fails. Whatever is left in
the temporary file, later calls give the same and leave the same in the claim file. -/
theorem append_all_or_nothing (s : FileStore) (d : Disk) (before : Bytes)
    (h : d.readBytes s.path = .ok before) (c : Claim) (ms : List (Option Mishap)) :
    let o := (s.append c).run.runUnder ms d
    ∃ after, o.disk.readBytes s.path = .ok after ∧
      (after = before ∨ ∃ cs, s.Lists d cs ∧ after = content (cs ++ [c])) ∧
      (o.value = some (.ok ()) → ∃ cs, s.Lists d cs ∧ after = content (cs ++ [c])) ∧
      (∀ e, o.value = some (.error e) → after = before) ∧
      ∀ d', o.disk.SameBut s.temporary d' →
        ∀ calls, s.callsUnder calls d' = s.callsUnder calls o.disk := by
  intro o
  have hd : s.Stands before _ d := ⟨h, rfl⟩
  obtain ⟨-, after, hafter, -, hverdict⟩ := append_both (c := c) hd hd ms
  refine ⟨after, hafter.holds, ?_, fun hok => ?_, fun e herror => ?_, fun d' hsame calls => ?_⟩
  · cases hvalue : o.value with
    | none =>
      rw [hvalue] at hverdict
      exact hverdict.imp id (Lengthens.lists h)
    | some v =>
      rw [hvalue] at hverdict
      cases v with
      | ok u => exact .inr (Lengthens.lists h hverdict)
      | error e => exact .inl hverdict
  · rw [hok] at hverdict
    exact Lengthens.lists h hverdict
  · rw [herror] at hverdict
    exact hverdict
  · exact callsUnder_eq (hafter.sameBut hsame) hafter calls

/-- The device is full when three bytes are still to be written, and an earlier append has left a piece
of a list: the claim file still lists the one claim that it listed. -/
theorem append_all_or_nothing_full_device :
    let s : FileStore := ⟨Path.ofText "claims.json"⟩
    let before := content [Sample.furniture]
    let d : Disk :=
      ⟨[(["claims.json.tmp"], .file (before.take 90)), (["claims.json"], .file before)], []⟩
    let full : IoError := .other "No space left on device"
    let o := (s.append Sample.laptops).run.runUnder [none, none, some (.fails full 3)] d
    o.value = some (.error (.io .write s.temporary full)) ∧ o.disk.readBytes s.path = .ok before := by
  intro s before d full
  -- For any bytes, so that those of the claim are not computed.
  have hread (bytes piece : Bytes) : Disk.readBytes
      ⟨[(["claims.json.tmp"], .file piece), (["claims.json"], .file bytes)], []⟩
      (Path.ofText "claims.json") = .ok bytes := by
    rfl
  have hbefore : d.readBytes s.path = .ok before := hread _ _
  have hlists : s.Lists d [Sample.furniture] := lists_of_content hbefore (by decide +kernel)
  have hvalue : ((s.append Sample.laptops).run.runUnder [none, none, some (.fails full 3)] d).value =
      some (.error (.io .write s.temporary full)) := by
    rw [FileStore.append, hlists.runUnder_load]
    decide +kernel
  obtain ⟨after, hafter, -, -, herror, -⟩ :=
    append_all_or_nothing s d before hbefore Sample.laptops [none, none, some (.fails full 3)]
  obtain rfl : after = before := herror _ hvalue
  exact ⟨hvalue, hafter⟩

end CustomsClaims.FileStore
