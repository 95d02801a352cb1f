import CustomsClaims.Proofs.Store.Mishaps
import Mathlib.Data.List.Induction

/-!
# What making directories changes

Making directories, to the end or not, puts directories where nothing stood and changes nothing else
(`Disk.AddsDirectories`). On a disk on which everything stands in a directory, this uncovers no file at
a path that never leads up: such a path leads to the file before as well (`Disk.Rooted.uncovered`).
-/

namespace CustomsClaims.Disk

/-- `d'` has what `d` has, and directories where `d` has nothing. -/
structure AddsDirectories (d d' : Disk) : Prop where
  workingDirectory : d'.workingDirectory = d.workingDirectory
  added : ∀ l, d'.get? l = d.get? l ∨ d.get? l = none ∧ d'.get? l = some .directory

namespace AddsDirectories

variable {d d' d'' : Disk}

theorem refl (d : Disk) : AddsDirectories d d := ⟨rfl, fun _ => .inl rfl⟩

theorem trans (h : AddsDirectories d d') (h' : AddsDirectories d' d'') : AddsDirectories d d'' := by
  refine ⟨h'.workingDirectory.trans h.workingDirectory, fun l => ?_⟩
  rcases h.added l with hsame | ⟨hnone, hdir⟩
  · rw [← hsame]
    exact h'.added l
  · rcases h'.added l with hsame | ⟨hnone', -⟩
    · exact .inr ⟨hnone, hsame.trans hdir⟩
    · rw [hdir] at hnone'
      cases hnone'

/-- The files stay as they are. -/
theorem file_iff (h : AddsDirectories d d') {l : Location} {c : Bytes} :
    d'.get? l = some (.file c) ↔ d.get? l = some (.file c) := by
  rcases h.added l with hsame | ⟨hnone, hdir⟩
  · rw [hsame]
  · rw [hnone, hdir]
    simp

theorem put {l : Location} (h : d.get? l = none) : AddsDirectories d (d.put l .directory) := by
  have hl : l ≠ [] := by
    rintro rfl
    cases h
  refine ⟨rfl, fun l' => ?_⟩
  by_cases hne : l' = l
  · rw [hne]
    exact .inr ⟨h, get?_put_same d hl _⟩
  · exact .inl (get?_put_ne d hne _)

end AddsDirectories

/-! ## Operations -/

section
variable {d d' : Disk} {p : Path}

theorem addsDirectories_makeDir (h : d.makeDir p = .ok d') : AddsDirectories d d' := by
  obtain ⟨t, -, h⟩ := bind_eq_ok h
  match t, h with
  | .name parent name _, h =>
    obtain ⟨e, he, h⟩ := bind_eq_ok h
    match e, he, h with
    | none, he, h =>
      obtain rfl := Except.ok.inj h
      exact .put (lookUp_eq_ok.1 he).2

theorem addsDirectories_ensureDir (h : d.ensureDir p = .ok d') : AddsDirectories d d' := by
  unfold ensureDir at h
  split at h
  case h_1 =>
    split at h
    case isTrue =>
      obtain rfl := Except.ok.inj h
      exact .refl d
    case isFalse => cases h
  case h_2 => exact addsDirectories_makeDir h

theorem addsDirectories_ensureChain (d : Disk) (ps : List Path) :
    AddsDirectories d (d.ensureChain ps).2 := by
  induction ps with
  | nil => exact .refl d
  | cons p above ih =>
    rw [ensureChain]
    split
    case h_1 d₁ hp => exact addsDirectories_ensureDir hp
    case h_3 => exact .refl d
    case h_2 =>
      -- The directory above comes first, and then this one is tried once more.
      split
      case h_2 => exact ih
      case h_1 d₁ habove =>
        rw [habove] at ih
        split
        case h_1 d₂ hp => exact ih.trans (addsDirectories_ensureDir hp)
        case h_2 => exact ih

theorem addsDirectories_ensureOuter (d : Disk) (short : Nat) (ps : List Path) :
    AddsDirectories d (d.ensureOuter short ps) := by
  induction ps generalizing short with
  | nil =>
    cases short with
    | zero => exact addsDirectories_ensureChain d []
    | succ short => exact .refl d
  | cons p above ih =>
    cases short with
    | zero => exact addsDirectories_ensureChain d _
    | succ short =>
      rw [ensureOuter]
      split
      case h_1 => exact ih short
      case h_2 => exact .refl d

/-- **Making directories adds directories**, also when it stops on the way. -/
theorem addsDirectories_makeDirsPartly (d : Disk) (p : Path) (short : Nat) :
    AddsDirectories d (d.makeDirsPartly p short) := by
  unfold makeDirsPartly
  split
  · exact .refl d
  · exact addsDirectories_ensureOuter d short _

theorem addsDirectories_makeDirs (d : Disk) (p : Path) : AddsDirectories d (d.makeDirs p).2 := by
  have hpartly : (d.makeDirs p).2 = d.makeDirsPartly p 0 := by
    unfold makeDirs makeDirsPartly
    split <;> rfl
  rw [hpartly]
  exact addsDirectories_makeDirsPartly d p 0

end

/-! ## Files that are uncovered -/

/-- Whatever is there stands in a directory. -/
def Rooted (d : Disk) : Prop :=
  ∀ l name, d.get? (l ++ [name]) ≠ none → d.get? l = some .directory

theorem rooted_empty (l : Location) : Rooted ⟨[], l⟩ := by
  intro l' name h
  simp [get?] at h

namespace Rooted

variable {d d' : Disk} (h : d.Rooted)
include h

theorem directory_above {l parent : Location} (hparent : d.get? parent = some .directory)
    (hl : l <+: parent) : d.get? l = some .directory := by
  induction parent using List.reverseRecOn with
  | nil => rw [List.prefix_nil.1 hl, get?_nil]
  | append_singleton parent name ih =>
    rcases List.prefix_concat_iff.1 hl with rfl | hl
    · exact hparent
    · exact ih (h parent name (by rw [hparent]; simp)) hl

/-- A walk that never leads up goes through what is above its end. -/
theorem walk {l parent : Location} {ss : List String} (hup : ".." ∉ ss)
    (hparent : d.get? parent = some .directory) (hw : d'.walk l ss = .ok parent) :
    d.walk l ss = .ok parent ∧ l <+: parent := by
  induction ss generalizing l with
  | nil =>
    obtain rfl : l = parent := Except.ok.inj hw
    exact ⟨rfl, List.prefix_refl l⟩
  | cons s ss ih =>
    rw [List.mem_cons, not_or] at hup
    unfold Disk.walk at hw ⊢
    split at hw
    case isTrue hidle =>
      rw [if_pos hidle]
      exact ih hup.2 hw
    case isFalse hidle =>
      rw [if_neg hidle, if_neg (Ne.symm hup.1)]
      rw [if_neg (Ne.symm hup.1)] at hw
      obtain ⟨e, he, hw⟩ := bind_eq_ok hw
      rcases e with _ | _ | c
      case some.directory =>
        obtain ⟨hwalk, hfront⟩ := ih hup.2 hw
        have hdir := h.directory_above hparent hfront
        rw [lookUp_eq_ok.2 ⟨(lookUp_eq_ok.1 he).1, hdir⟩]
        exact ⟨hwalk, (List.prefix_append l [s]).trans hfront⟩
      case none => cases hw
      case some.file => cases hw

/-- **No file is uncovered** when directories are added, unless the path leads up. -/
theorem uncovered {p : Path} {bytes : Bytes} (hup : ".." ∉ p.segments)
    (hadds : AddsDirectories d d') (hread : d'.readBytes p = .ok bytes) :
    d.readBytes p = .ok bytes := by
  obtain ⟨parent, name, hr, hfile⟩ := readBytes_eq_ok hread
  obtain ⟨husable, before, hsegments, hname, hwalk⟩ := resolve_eq_name.1 hr
  obtain ⟨hlength, hfile⟩ := lookUp_eq_ok.1 hfile
  rw [hadds.file_iff] at hfile
  have hparent := h parent name (by rw [hfile]; simp)
  have hbefore : ".." ∉ before := by
    intro hmem
    apply hup
    rw [hsegments]
    exact List.mem_append_left _ hmem
  have hstart : d'.start p = d.start p := by
    rw [start, start, hadds.workingDirectory]
  rw [hstart] at hwalk
  have hwalk := (h.walk hbefore hparent hwalk).1
  exact readBytes_file (resolve_eq_name.2 ⟨husable, before, hsegments, hname, hwalk⟩)
    (lookUp_eq_ok.2 ⟨hlength, hfile⟩)

end Rooted
end CustomsClaims.Disk
