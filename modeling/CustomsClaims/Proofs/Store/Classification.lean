import CustomsClaims.Proofs.Claim.Members
import CustomsClaims.Proofs.Json.Lists
import CustomsClaims.Proofs.Store.Reading

/-!
# What the content of a claim file is taken for

`FileStore.content_classified`: among the JSON texts that a claim file may hold, exactly those list
claims that are lists each element of which is read as a claim. Any other text is reported as
corrupt, by reading, by listing and by appending, and nothing is written. Bytes that are not UTF-8
never reach the reader of JSON: they are reported as a failure of the file system.
-/

namespace CustomsClaims

namespace Claim

/-- **Any value is read as a claim**, or refused, whatever stands around it. -/
theorem yields_spelled {t : Bytes} (h : Json.Spelled .value t) :
    Json.Yields read t (parse t).toOption := by
  obtain ⟨c?, hread⟩ := h.yields_record (fun f _ ht => f.yields_spelled ht) toOption_build
  rw [← read_eq] at hread
  rw [parse, hread.parse]
  exact hread

end Claim

/-- **A list of claims** is what a JSON text is read as, if each of its elements is read as a claim.
-/
theorem ClaimList.parse_valueText {t text : Bytes} (h : Json.ValueText t text) {cs : List Claim} :
    parse text = .ok cs ↔
      ∃ ts, Json.ListText ts t ∧ ts.mapM (fun t => (Claim.parse t).toOption) = some cs :=
  h.parse_list fun _ ht => Claim.yields_spelled ht

namespace Disk

variable {d : Disk} {p : Path} {bytes : Bytes}

theorem readText_of_isText (h : d.readBytes p = .ok bytes) (htext : Utf8.IsText bytes) :
    ∃ text, d.readText p = .ok text ∧ Utf8.encode text = bytes := by
  obtain ⟨text, hdecode, hencode⟩ := htext.decode
  exact ⟨text, by rw [readText_of_readBytes h, hdecode]; rfl, hencode⟩

theorem readText_of_not_isText (h : d.readBytes p = .ok bytes) (htext : ¬Utf8.IsText bytes) :
    d.readText p = .error .notText := by
  rw [readText_of_readBytes h, Utf8.decode?_eq_none.2 htext]
  rfl

end Disk

namespace FileStore

/-- Reading the file, listing its claims and appending a claim fail for the reason `e`, and leave
the disk as it is. -/
structure Fails (s : FileStore) (e : FileError) (d : Disk) : Prop where
  load : s.load.run.run d = ⟨.error e, [], d⟩
  list : s.store.list d = ⟨.failed e.toStoreError, [], d⟩
  append : ∀ c, (s.store.append c d).answer = .failed e.toStoreError ∧
    (s.store.append c d).state = d

section
variable {s : FileStore} {d : Disk} {bytes : Bytes}

theorem fails_of_read? {e : FileError} (hd : d.readBytes s.path = .ok bytes)
    (he : s.read? d = .error e) : s.Fails e d := by
  have hfile := Disk.exists?_of_readBytes hd
  exact ⟨by rw [run_load hfile, he], list_unreadable hfile he,
    fun c => append_unreadable c hfile he⟩

/-- A file whose bytes are a text gives what the text is read as. -/
theorem read?_of_isText (hd : d.readBytes s.path = .ok bytes) (htext : Utf8.IsText bytes) :
    s.read? d = (ClaimList.parse bytes).mapError (.corrupt s.path) := by
  obtain ⟨text, hread, rfl⟩ := Disk.readText_of_isText hd htext
  rw [read?, hread]
  rfl

theorem run_load_eq_ok (hd : d.readBytes s.path = .ok bytes) (htext : Utf8.IsText bytes)
    {cs : List Claim} :
    s.load.run.run d = ⟨.ok cs, [], d⟩ ↔ ClaimList.parse bytes = .ok cs := by
  rw [run_load (Disk.exists?_of_readBytes hd), read?_of_isText hd htext]
  cases ClaimList.parse bytes <;> simp [Except.mapError]

theorem fails_corrupt (hd : d.readBytes s.path = .ok bytes) (htext : Utf8.IsText bytes)
    {e : Json.Error} (he : ClaimList.parse bytes = .error e) : s.Fails (.corrupt s.path e) d := by
  apply fails_of_read? hd
  rw [read?_of_isText hd htext, he]
  rfl

theorem fails_notText (hd : d.readBytes s.path = .ok bytes) (htext : ¬Utf8.IsText bytes) :
    s.Fails (.io .read s.path .notText) d := by
  apply fails_of_read? hd
  rw [read?, Disk.readText_of_not_isText hd htext]

/-- **What the content of a claim file is taken for.** A JSON text gives claims exactly if it is a
list each element of which is read as a claim. What gives none is corrupt if it is UTF-8, and is
reported as a failure of the file system if not. -/
theorem content_classified (hd : d.readBytes s.path = .ok bytes) :
    (∀ t, Json.ValueText t bytes → ∀ cs, (s.load.run.run d = ⟨.ok cs, [], d⟩ ↔
      ∃ ts, Json.ListText ts t ∧ ts.mapM (fun t => (Claim.parse t).toOption) = some cs)) ∧
    (Utf8.IsText bytes →
      (∀ cs, s.load.run.run d = ⟨.ok cs, [], d⟩ ↔ ClaimList.parse bytes = .ok cs) ∧
      ((∀ cs, s.load.run.run d ≠ ⟨.ok cs, [], d⟩) → ∃ e, s.Fails (.corrupt s.path e) d ∧
        (FileError.corrupt s.path e).toStoreError.isCorrupt = true)) ∧
    (¬Utf8.IsText bytes → s.Fails (.io .read s.path .notText) d ∧
      (FileError.io .read s.path .notText).toStoreError.isCorrupt = false) := by
  refine ⟨fun t ht cs => ?_, fun htext => ⟨fun cs => run_load_eq_ok hd htext, fun hnone => ?_⟩,
    fun htext => ⟨fails_notText hd htext, rfl⟩⟩
  · exact (run_load_eq_ok hd ht.isText).trans (ClaimList.parse_valueText ht)
  · cases hparse : ClaimList.parse bytes with
    | ok cs => exact absurd ((run_load_eq_ok hd htext).2 hparse) (hnone cs)
    | error e => exact ⟨e, fails_corrupt hd htext hparse, rfl⟩

/-- A file with a byte order mark before its list. -/
theorem content_classified_mark :
    let s : FileStore := ⟨Path.ofText "claims.json"⟩
    let d : Disk := ⟨[(["claims.json"], .file (Utf8.encode "\uFEFF[]"))], []⟩
    ∃ e, s.Fails (.corrupt s.path e) d ∧
      (FileError.corrupt s.path e).toStoreError.isCorrupt = true := by
  intro s d
  have hd : d.readBytes s.path = .ok (Utf8.encode "\uFEFF[]") := by decide +kernel
  have hnone : (ClaimList.parse (Utf8.encode "\uFEFF[]")).toOption = none := by decide +kernel
  obtain ⟨-, hclassified, -⟩ := content_classified hd
  obtain ⟨hread, hcorrupt⟩ := hclassified (.encode _)
  refine hcorrupt fun cs hcs => ?_
  rw [(hread cs).1 hcs] at hnone
  cases hnone

/-- A byte that begins no character is reported as a failure of the file system. -/
theorem content_misclassified :
    let s : FileStore := ⟨Path.ofText "claims.json"⟩
    let d : Disk := ⟨[(["claims.json"], .file [0xFF])], []⟩
    d.readBytes s.path = .ok [0xFF] ∧
      s.load.run.run d = ⟨.error (.io .read s.path .notText), [], d⟩ ∧
      ∃ e, s.store.list d = ⟨.failed e, [], d⟩ ∧ e.isCorrupt = false := by
  intro s d
  have hd : d.readBytes s.path = .ok [0xFF] := by decide +kernel
  have htext : ¬Utf8.IsText [0xFF] := Utf8.decode?_eq_none.1 (by decide +kernel)
  have hfails := fails_notText hd htext
  exact ⟨hd, hfails.load, _, hfails.list, rfl⟩

end
end FileStore
end CustomsClaims
