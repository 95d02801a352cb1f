import CustomsClaims.Disk.Basic

/-!
# What a file holds after an operation

A file that was written holds what was written to it (`Disk.readBytes_of_write`), and a file that was
moved holds at the target what it held at the source (`Disk.readBytes_of_rename`). Both operations
put a file where no directory stands, so that every directory stays, and a path that led somewhere
through directories leads there still (`Disk.Keeps.resolve`).
-/

namespace CustomsClaims.Disk

theorem bind_eq_ok {ε α β : Type} {x : Except ε α} {f : α → Except ε β} {b : β}
    (h : x >>= f = .ok b) : ∃ a, x = .ok a ∧ f a = .ok b := by
  cases x with
  | error e => cases h
  | ok a => exact ⟨a, rfl, h⟩

/-! ## Files that can be read -/

section
variable {d : Disk} {p : Path} {bytes : Bytes}

theorem exists?_of_readBytes (h : d.readBytes p = .ok bytes) : d.exists? p = .ok true := by
  obtain ⟨e, he, -⟩ := bind_eq_ok h
  rw [exists?, he]

/-- A file is read as the text that its bytes spell. -/
theorem readText_of_readBytes (h : d.readBytes p = .ok bytes) :
    d.readText p = (Utf8.decode? bytes).elim (.error .notText) .ok := by
  rw [readText, h]
  dsimp only [bind, Except.bind]
  cases Utf8.decode? bytes <;> rfl

end

/-! ## Entries -/

theorem get?_filter_ne (d : Disk) {l l' : Location} (h : l' ≠ l) :
    get? { d with entries := d.entries.filter (·.1 ≠ l) } l' = d.get? l' := by
  have h' : ¬ l = l' := fun he => h he.symm
  unfold get?
  by_cases hl : l' = []
  · simp [hl]
  · simp only [hl, if_false, List.find?_filter]
    congr 2
    funext x
    by_cases hx : x.1 = l'
    · simp [hx, h]
    · simp [hx]

theorem lookUp_eq_ok {d : Disk} {parent : Location} {name : String} {e : Option Entry} :
    d.lookUp parent name = .ok e ↔
      name.utf8ByteSize ≤ maxName ∧ d.get? (parent ++ [name]) = e := by
  unfold lookUp
  split
  · simp; omega
  · simp; omega

/-! ## Directories that stay -/

/-- The directories of `d` are directories of `d'`. -/
structure Keeps (d d' : Disk) : Prop where
  workingDirectory : d'.workingDirectory = d.workingDirectory
  directory : ∀ l, d.get? l = some .directory → d'.get? l = some .directory

namespace Keeps

variable {d d' : Disk} (h : Keeps d d')
include h

theorem walk {l l' : Location} {ss : List String} (hw : d.walk l ss = .ok l') :
    d'.walk l ss = .ok l' := by
  induction ss generalizing l with
  | nil => exact hw
  | cons s ss ih =>
    unfold Disk.walk at hw ⊢
    split at hw
    case isTrue hidle =>
      rw [if_pos hidle]
      exact ih hw
    case isFalse hidle =>
      rw [if_neg hidle]
      split at hw
      case isTrue hup =>
        rw [if_pos hup]
        exact ih hw
      case isFalse hup =>
        obtain ⟨e, he, hw⟩ := bind_eq_ok hw
        obtain ⟨hname, he⟩ := lookUp_eq_ok.1 he
        match e, he, hw with
        | some .directory, he, hw =>
          rw [if_neg hup, lookUp_eq_ok.2 ⟨hname, h.directory _ he⟩]
          exact ih hw

/-- A path that led to a name in a directory still does. -/
theorem resolve {p : Path} {t : Target} (hr : d.resolve p = .ok t) : d'.resolve p = .ok t := by
  unfold Disk.resolve at hr ⊢
  by_cases hnul : p.text.toList.contains '\x00'
  · rw [if_pos hnul] at hr
    cases hr
  rw [if_neg hnul] at hr ⊢
  by_cases hempty : p.isEmpty
  · rw [if_pos hempty] at hr
    cases hr
  rw [if_neg hempty] at hr ⊢
  by_cases hlong : maxPath < p.text.utf8ByteSize
  · rw [if_pos hlong] at hr
    cases hr
  rw [if_neg hlong] at hr ⊢
  dsimp only at hr ⊢
  rw [h.workingDirectory]
  cases hsegments : p.segments.reverse.dropWhile (· = "") with
  | nil =>
    rw [hsegments] at hr
    exact hr
  | cons last before =>
    rw [hsegments] at hr
    obtain ⟨l, hl, hr⟩ := bind_eq_ok hr
    dsimp only
    rw [h.walk hl]
    exact hr

end Keeps

theorem keeps_put (d : Disk) {l : Location} {e : Entry} (h : d.get? l ≠ some .directory) :
    Keeps d (d.put l e) := by
  refine ⟨rfl, ?_⟩
  intro l' hl'
  have hne : l' ≠ l := by
    rintro rfl
    exact h hl'
  rw [get?_put_ne d hne]
  exact hl'

theorem keeps_filter (d : Disk) {l : Location} (h : d.get? l ≠ some .directory) :
    Keeps d { d with entries := d.entries.filter (·.1 ≠ l) } := by
  refine ⟨rfl, ?_⟩
  intro l' hl'
  have hne : l' ≠ l := by
    rintro rfl
    exact h hl'
  rw [get?_filter_ne d hne]
  exact hl'

theorem Keeps.trans {d₁ d₂ d₃ : Disk} (h₁ : Keeps d₁ d₂) (h₂ : Keeps d₂ d₃) : Keeps d₁ d₃ :=
  ⟨h₂.workingDirectory.trans h₁.workingDirectory, fun l hl => h₂.directory l (h₁.directory l hl)⟩

/-! ## Operations -/

theorem readBytes_file {d : Disk} {p : Path} {parent : Location} {name : String} {c : Bytes}
    (hr : d.resolve p = .ok (.name parent name false))
    (hl : d.lookUp parent name = .ok (some (.file c))) : d.readBytes p = .ok c := by
  have hfind : d.find p = .ok (.file c) := by
    rw [find, hr]
    dsimp only [bind, Except.bind]
    rw [hl]
    rfl
  rw [readBytes, hfind]
  rfl

theorem writable_eq_ok {d : Disk} {p : Path} {l : Location} (h : d.writable p = .ok l) :
    ∃ parent name, d.resolve p = .ok (.name parent name false) ∧ l = parent ++ [name] ∧
      name.utf8ByteSize ≤ maxName ∧ d.get? l ≠ some .directory := by
  obtain ⟨t, ht, h⟩ := bind_eq_ok h
  match t, ht, h with
  | .name parent name false, ht, h =>
    obtain ⟨e, he, h⟩ := bind_eq_ok h
    obtain ⟨hname, he⟩ := lookUp_eq_ok.1 he
    refine ⟨parent, name, ht, ?_⟩
    match e, he, h with
    | none, he, h =>
      obtain rfl := Except.ok.inj h
      exact ⟨rfl, hname, by rw [he]; simp⟩
    | some (.file c), he, h =>
      obtain rfl := Except.ok.inj h
      exact ⟨rfl, hname, by rw [he]; simp⟩

theorem readBytes_put {d : Disk} {p : Path} {l : Location} (h : d.writable p = .ok l) (c : Bytes) :
    (d.put l (.file c)).readBytes p = .ok c := by
  obtain ⟨parent, name, hr, rfl, hname, hdir⟩ := writable_eq_ok h
  refine readBytes_file ((keeps_put d hdir).resolve hr) (lookUp_eq_ok.2 ⟨hname, ?_⟩)
  exact get?_put_same d (by simp) _

/-- **A file that was written holds what was written.** -/
theorem readBytes_of_write {d d' : Disk} {p : Path} {c : Bytes} (h : d.write p c = .ok d') :
    d'.readBytes p = .ok c := by
  obtain ⟨l, hl, h⟩ := bind_eq_ok h
  obtain rfl := Except.ok.inj h
  exact readBytes_put hl c

/-- What a move does: it takes a file from one name to another, where no directory stands. -/
theorem rename_eq_ok {d d' : Disk} {source target : Path} (h : d.rename source target = .ok d') :
    ∃ parent name parent' name' c, d.resolve source = .ok (.name parent name false) ∧
      d.resolve target = .ok (.name parent' name' false) ∧
      d.lookUp parent name = .ok (some (.file c)) ∧ name'.utf8ByteSize ≤ maxName ∧
      d.get? (parent' ++ [name']) ≠ some .directory ∧
      d' = if parent ++ [name] = parent' ++ [name'] then d
        else { d with entries := d.entries.filter (·.1 ≠ parent ++ [name]) }.put
          (parent' ++ [name']) (.file c) := by
  obtain ⟨t, ht, h⟩ := bind_eq_ok h
  obtain ⟨t', ht', h⟩ := bind_eq_ok h
  match t, t', ht, ht', h with
  | .name parent name slash, .name parent' name' slash', ht, ht', h =>
    obtain ⟨e, he, h⟩ := bind_eq_ok h
    match e, he, h with
    | some (.file c), he, h =>
      obtain ⟨replaced, he', hmove⟩ := bind_eq_ok h
      obtain ⟨hname', hreplaced⟩ := lookUp_eq_ok.1 he'
      by_cases hslash : slash ∨ slash'
      · rw [if_pos hslash] at hmove
        cases hmove
      rw [if_neg hslash] at hmove
      by_cases hdirectory : replaced = some .directory
      · rw [if_pos hdirectory] at hmove
        cases hmove
      rw [if_neg hdirectory] at hmove
      obtain ⟨rfl, rfl⟩ : slash = false ∧ slash' = false := by simpa using hslash
      refine ⟨parent, name, parent', name', c, ht, ht', he, hname', hreplaced ▸ hdirectory, ?_⟩
      by_cases hsame : parent ++ [name] = parent' ++ [name']
      · rw [if_pos hsame] at hmove ⊢
        exact (Except.ok.inj hmove).symm
      · rw [if_neg hsame] at hmove ⊢
        exact (Except.ok.inj hmove).symm

/-- No directory goes when a file is moved. -/
theorem keeps_rename {d : Disk} {l l' : Location} {c c' : Bytes} (h : d.get? l = some (.file c))
    (h' : d.get? l' ≠ some .directory) (hne : l ≠ l') :
    Keeps d ({ d with entries := d.entries.filter (·.1 ≠ l) }.put l' (.file c')) := by
  refine (keeps_filter d (by rw [h]; simp)).trans (keeps_put _ ?_)
  rw [get?_filter_ne d hne.symm]
  exact h'

/-- **A file that was moved holds what it held before.** -/
theorem readBytes_of_rename {d d' : Disk} {source target : Path}
    (h : d.rename source target = .ok d') :
    ∃ c, d.readBytes source = .ok c ∧ d'.readBytes target = .ok c := by
  obtain ⟨parent, name, parent', name', c, hr, hr', he, hname', hdirectory, rfl⟩ := rename_eq_ok h
  obtain ⟨-, hfile⟩ := lookUp_eq_ok.1 he
  refine ⟨c, readBytes_file hr he, ?_⟩
  split
  case isTrue hsame =>
    rw [hsame] at hfile
    exact readBytes_file hr' (lookUp_eq_ok.2 ⟨hname', hfile⟩)
  case isFalse hne =>
    refine readBytes_file ((keeps_rename hfile hdirectory hne).resolve hr') ?_
    exact lookUp_eq_ok.2 ⟨hname', get?_put_same _ (by simp) _⟩

end CustomsClaims.Disk
