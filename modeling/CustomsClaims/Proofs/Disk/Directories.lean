import CustomsClaims.Proofs.Disk.Files

/-!
# The directory of a file

Where a path leads to a name in a directory (`Disk.resolve_eq_name`), the path of that directory leads
to it (`Disk.find_parent`), and creating that directory changes nothing (`Disk.makeDirs_of_find`). A
path with an ending written after its last name leads to another name (`Disk.resolve_sibling`).
-/

namespace CustomsClaims

namespace Disk

/-! ## Names -/

/-- A segment that names a file or directory. -/
def IsName (s : String) : Prop := s ≠ "" ∧ s ≠ "." ∧ s ≠ ".."

/-- A path that is walked along at all. -/
def Usable (p : Path) : Prop :=
  ¬ p.text.toList.contains '\x00' ∧ ¬ p.isEmpty ∧ ¬ maxPath < p.text.utf8ByteSize

/-- Where the walk along a path starts. -/
def start (d : Disk) (p : Path) : Location :=
  if p.isAbsolute then [] else d.workingDirectory

/-- Where the walk along the segments ends, the last of them first. -/
def follow (d : Disk) (p : Path) : List String → Except IoError Target
  | [] => .ok (.reached [])
  | last :: before => do
    let l ← d.walk (d.start p) before.reverse
    if last = "." then pure (.reached l)
    else if last = ".." then pure (.reached l.dropLast)
    else pure (.name l last (p.segments.getLast? = some ""))

theorem resolve_of_usable (d : Disk) {p : Path} (h : Usable p) :
    d.resolve p = d.follow p (p.segments.reverse.dropWhile (· = "")) := by
  unfold resolve
  rw [if_neg h.1, if_neg h.2.1, if_neg h.2.2]
  cases p.segments.reverse.dropWhile (· = "") with
  | nil => rfl
  | cons last before => rfl

theorem usable_of_resolve {d : Disk} {p : Path} {t : Target} (h : d.resolve p = .ok t) :
    Usable p := by
  unfold resolve at h
  by_cases hnul : p.text.toList.contains '\x00'
  · rw [if_pos hnul] at h
    cases h
  by_cases hempty : p.isEmpty
  · rw [if_neg hnul, if_pos hempty] at h
    cases h
  by_cases hlong : maxPath < p.text.utf8ByteSize
  · rw [if_neg hnul, if_neg hempty, if_pos hlong] at h
    cases h
  exact ⟨hnul, hempty, hlong⟩

theorem follow_eq_name {d : Disk} {p : Path} {segments : List String} {parent : Location}
    {name : String} {slash : Bool} (h : d.follow p segments = .ok (.name parent name slash)) :
    slash = decide (p.segments.getLast? = some "") ∧ name ≠ "." ∧ name ≠ ".." ∧
      ∃ before, segments = name :: before ∧ d.walk (d.start p) before.reverse = .ok parent := by
  cases segments with
  | nil => cases h
  | cons last before =>
    obtain ⟨l, hl, h⟩ := bind_eq_ok h
    split at h
    · cases h
    case isFalse hdot =>
      split at h
      · cases h
      case isFalse hup =>
        cases h
        exact ⟨rfl, hdot, hup, before, rfl, hl⟩

theorem dropWhile_concat (front : List String) {last : String} (h : last ≠ "") :
    (front ++ [last]).reverse.dropWhile (· = "") = last :: front.reverse := by
  rw [List.reverse_append, List.reverse_singleton, List.singleton_append,
    List.dropWhile_cons_of_neg (by simpa using h)]

/-- A path leads to a name if it ends with the name and the walk along the other segments ends in the
directory. -/
theorem resolve_eq_name {d : Disk} {p : Path} {parent : Location} {name : String} :
    d.resolve p = .ok (.name parent name false) ↔ Usable p ∧
      ∃ before, p.segments = before ++ [name] ∧ IsName name ∧
        d.walk (d.start p) before = .ok parent := by
  constructor
  · intro h
    have husable := usable_of_resolve h
    rw [resolve_of_usable d husable] at h
    obtain ⟨hslash, hdot, hup, before, hsegments, hwalk⟩ := follow_eq_name h
    have hlast : p.segments.getLast? ≠ some "" := of_decide_eq_false hslash.symm
    have hkept : p.segments.reverse.dropWhile (· = "") = p.segments.reverse := by
      cases hreverse : p.segments.reverse with
      | nil => rfl
      | cons last before =>
        rw [← List.head?_reverse, hreverse] at hlast
        exact List.dropWhile_cons_of_neg (by simpa using hlast)
    rw [hkept] at hsegments
    have hempty : name ≠ "" := by
      rw [← List.head?_reverse, hsegments] at hlast
      simpa using hlast
    refine ⟨husable, before.reverse, ?_, ⟨hempty, hdot, hup⟩, hwalk⟩
    rw [← List.reverse_reverse p.segments, hsegments, List.reverse_cons]
  · rintro ⟨husable, before, hsegments, ⟨hempty, hdot, hup⟩, hwalk⟩
    have hslash : ¬ p.segments.getLast? = some "" := by
      rw [hsegments, List.getLast?_concat]
      simpa using hempty
    rw [resolve_of_usable d husable, hsegments, dropWhile_concat before hempty, follow,
      List.reverse_reverse, hwalk]
    dsimp only [bind, Except.bind]
    rw [if_neg hdot, if_neg hup, decide_eq_false hslash]
    rfl

theorem resolve_sibling {d : Disk} {p : Path} {parent parent' : Location} {name name' ending : String}
    (h : d.resolve p = .ok (.name parent name false))
    (h' : d.resolve (p.sibling ending) = .ok (.name parent' name' false)) :
    name' = name ++ ending := by
  obtain ⟨-, before, hsegments, -, -⟩ := resolve_eq_name.1 h
  obtain ⟨-, before', hsegments', -, -⟩ := resolve_eq_name.1 h'
  have hsibling : (p.sibling ending).segments = before ++ [name ++ ending] := by
    unfold Path.sibling
    rw [hsegments, List.reverse_append, List.reverse_singleton, List.singleton_append]
    dsimp only
    rw [List.reverse_reverse]
  rw [hsibling] at hsegments'
  exact (List.append_singleton_inj.1 hsegments').2.symm

/-! ## The path of the directory -/

theorem walk_idle (d : Disk) (l : Location) {s : String} (h : Path.isIdle s) (ss : List String) :
    d.walk l (s :: ss) = d.walk l ss := by
  rw [walk, if_pos h]

theorem walk_up (d : Disk) (l : Location) (ss : List String) :
    d.walk l (".." :: ss) = d.walk l.dropLast ss := by
  rw [walk, if_neg (by decide), if_pos rfl]

/-- A walk along a segment and more goes on from where the segment leads. -/
theorem walk_cons (d : Disk) (l : Location) (s : String) (ss : List String) :
    d.walk l (s :: ss) = d.walk l [s] >>= fun l' => d.walk l' ss := by
  by_cases hidle : Path.isIdle s
  · rw [walk_idle d l hidle, walk_idle d l hidle]
    rfl
  by_cases hup : s = ".."
  · subst hup
    rw [walk_up, walk_up]
    rfl
  rw [walk, walk, if_neg hidle, if_neg hidle, if_neg hup, if_neg hup]
  cases d.lookUp l s with
  | error e => rfl
  | ok e =>
    cases e with
    | none => rfl
    | some e =>
      cases e with
      | directory => rfl
      | file c => rfl

theorem walk_append (d : Disk) (l : Location) (ss ts : List String) :
    d.walk l (ss ++ ts) = d.walk l ss >>= fun l' => d.walk l' ts := by
  induction ss generalizing l with
  | nil => rfl
  | cons s ss ih =>
    rw [List.cons_append, walk_cons, walk_cons d l s ss]
    cases d.walk l [s] with
    | error e => rfl
    | ok l' => exact ih l'

theorem dropIdle_cons_cons (s t : String) (ss : List String) :
    Path.dropIdle (s :: t :: ss) =
      if Path.isIdle s then Path.dropIdle (t :: ss) else s :: t :: ss := rfl

/-- Segments at the end that lead nowhere do not matter for where a walk ends. -/
theorem walk_dropIdle (d : Disk) (l : Location) (reversed : List String) :
    d.walk l (Path.dropIdle reversed).reverse = d.walk l reversed.reverse := by
  induction reversed with
  | nil => rfl
  | cons s ss ih =>
    cases ss with
    | nil => rfl
    | cons t ss =>
      rw [dropIdle_cons_cons]
      by_cases hidle : Path.isIdle s
      · rw [if_pos hidle, ih, List.reverse_cons (a := s), walk_append]
        cases d.walk l (t :: ss).reverse with
        | error e => rfl
        | ok l' => exact (walk_idle d l' hidle []).symm
      · rw [if_neg hidle]

theorem dropIdle_spec {reversed : List String} (h : reversed ≠ []) :
    ∃ last before dropped, Path.dropIdle reversed = last :: before ∧
      (¬ Path.isIdle last ∨ before = []) ∧ reversed = dropped ++ last :: before := by
  induction reversed with
  | nil => exact absurd rfl h
  | cons s ss ih =>
    cases ss with
    | nil => exact ⟨s, [], [], rfl, .inr rfl, rfl⟩
    | cons t ss =>
      rw [dropIdle_cons_cons]
      by_cases hidle : Path.isIdle s
      · obtain ⟨last, before, dropped, hkept, hlast, hsplit⟩ := ih (by simp)
        rw [if_pos hidle]
        exact ⟨last, before, s :: dropped, hkept, hlast, by rw [hsplit]; rfl⟩
      · rw [if_neg hidle]
        exact ⟨s, t :: ss, [], rfl, .inl hidle, rfl⟩

/-- The path of the directory of a path that ends with a name. -/
theorem parent?_eq {p : Path} {before : List String} {name : String}
    (hsegments : p.segments = before ++ [name]) (hname : IsName name) :
    p.parent? =
      if before = [] then some ⟨[""]⟩
      else
        let kept := Path.dropIdle before.reverse
        some ⟨if kept = [""] then ["", ""] else kept.reverse⟩ := by
  have hidle : ¬ Path.isIdle name := by simp [Path.isIdle, hname.1, hname.2.1]
  unfold Path.parent?
  rw [hsegments, List.reverse_append, List.reverse_singleton, List.singleton_append]
  cases hbefore : before.reverse with
  | nil =>
    obtain rfl : before = [] := List.reverse_eq_nil_iff.1 hbefore
    simp [Path.dropIdle, hname.1]
  | cons t ss =>
    have hne : before ≠ [] := by
      rintro rfl
      cases hbefore
    rw [dropIdle_cons_cons, if_neg hidle, if_neg hne]
    simp

section
variable {p q : Path} {front rest : List String} {last : String}

theorem not_isEmpty (hq : q.segments = front ++ [last]) (hlast : last ≠ "") : ¬ q.isEmpty := by
  cases front with
  | nil => simp [Path.isEmpty, hq, hlast]
  | cons s ss => simp [Path.isEmpty, hq]

/-- A path that other segments follow is walked along if they are. -/
theorem usable_front (h : Usable p) (hsegments : p.segments = q.segments ++ rest)
    (hrest : rest ≠ []) (hq : q.segments = front ++ [last]) (hlast : last ≠ "") : Usable q := by
  have htext : p.text = q.text ++ ("/" ++ String.intercalate "/" rest) := by
    rw [Path.text, hsegments, String.intercalate_append_of_ne_nil (by simp [hq]) hrest,
      String.append_assoc]
    rfl
  refine ⟨fun hnul => h.1 ?_, not_isEmpty hq hlast, fun hlong => h.2.2 ?_⟩
  · rw [htext, String.toList_append]
    simp only [List.contains_iff_mem, List.mem_append] at hnul ⊢
    exact .inl hnul
  · rw [htext, String.utf8ByteSize_append]
    omega

theorem start_front (d : Disk) (hsegments : p.segments = q.segments ++ rest) (hrest : rest ≠ [])
    (hq : q.segments = front ++ [last]) (hlast : last ≠ "") : d.start q = d.start p := by
  obtain ⟨r, rs, rfl⟩ := List.exists_cons_of_ne_nil hrest
  have habsolute : q.isAbsolute = p.isAbsolute := by
    unfold Path.isAbsolute
    rw [hsegments, hq]
    cases front with
    | nil => simp [hlast]
    | cons s ss =>
      by_cases hs : s = ""
      · subst hs
        cases ss <;> rfl
      · cases ss <;> simp [hs]
  rw [start, start, habsolute]

end

/-- A path along which a walk succeeds leads to a directory. -/
theorem find_of_walk {d : Disk} {q : Path} {front : List String} {last : String} {l : Location}
    (h : Usable q) (hsegments : q.segments = front ++ [last]) (hlast : last ≠ "")
    (hwalk : d.walk (d.start q) q.segments = .ok l) : d.find q = .ok .directory := by
  rw [hsegments, walk_append] at hwalk
  obtain ⟨l', hl', hwalk⟩ := bind_eq_ok hwalk
  rw [find, resolve_of_usable d h, hsegments, dropWhile_concat front hlast, follow,
    List.reverse_reverse, hl']
  dsimp only [bind, Except.bind]
  by_cases hdot : last = "."
  · rw [if_pos hdot]
    rfl
  by_cases hup : last = ".."
  · rw [if_neg hdot, if_pos hup]
    rfl
  rw [if_neg hdot, if_neg hup]
  have hidle : ¬ Path.isIdle last := by simp [Path.isIdle, hlast, hdot]
  rw [walk, if_neg hidle, if_neg hup] at hwalk
  obtain ⟨e, he, hwalk⟩ := bind_eq_ok hwalk
  obtain _ | _ | _ := e
  case some.directory =>
    dsimp only [pure, Except.pure]
    rw [he]
  all_goals cases hwalk

/-- The path of the directory of a path that leads to a name leads to a directory. -/
theorem find_parent {d : Disk} {p q : Path} {parent : Location} {name : String}
    (h : d.resolve p = .ok (.name parent name false)) (hq : p.parent? = some q)
    (hempty : ¬ q.isEmpty) : d.find q = .ok .directory := by
  obtain ⟨husable, before, hsegments, hname, hwalk⟩ := resolve_eq_name.1 h
  rw [parent?_eq hsegments hname] at hq
  split at hq
  · obtain rfl := Option.some.inj hq
    exact absurd rfl hempty
  case isFalse hbefore =>
    obtain ⟨last, front, dropped, hkept, hlast, hsplit⟩ :=
      dropIdle_spec (mt List.reverse_eq_nil_iff.1 hbefore)
    have hparts : p.segments =
        (Path.dropIdle before.reverse).reverse ++ (dropped.reverse ++ [name]) := by
      rw [hsegments, hkept, ← List.append_assoc, ← List.reverse_append, ← hsplit,
        List.reverse_reverse]
    have hkeptwalk : d.walk (d.start p) (Path.dropIdle before.reverse).reverse = .ok parent := by
      rw [walk_dropIdle, List.reverse_reverse, hwalk]
    obtain rfl := Option.some.inj hq
    split
    case isTrue hroot => rfl
    case isFalse hroot =>
      have hq : (Path.mk (Path.dropIdle before.reverse).reverse).segments =
          front.reverse ++ [last] := by
        rw [hkept, List.reverse_cons]
      have hne : last ≠ "" := by
        rintro rfl
        rcases hlast with hidle | rfl
        · exact hidle rfl
        · exact hroot hkept
      have hrest : dropped.reverse ++ [name] ≠ [] := by simp
      have hstart := start_front d hparts hrest hq hne
      exact find_of_walk (usable_front husable hparts hrest hq hne) hq hne (hstart ▸ hkeptwalk)

theorem ensureDir_of_find {d : Disk} {q : Path} (h : d.find q = .ok .directory) :
    d.ensureDir q = .ok d := by
  have hmake : d.makeDir q = .error .alreadyExists := by
    obtain ⟨t, ht, hfind⟩ := bind_eq_ok h
    rw [makeDir, ht]
    match t, hfind with
    | .reached l, _ => rfl
    | .name parent name slash, hfind =>
      obtain ⟨e, he, hfind⟩ := bind_eq_ok hfind
      match e, he, hfind with
      | some e, he, _ =>
        dsimp only [bind, Except.bind]
        rw [he]
        rfl
  rw [ensureDir, hmake, isDirectory, h]
  rfl

/-- Creating a directory that is there changes nothing. -/
theorem makeDirs_of_find {d : Disk} {q : Path} (h : d.find q = .ok .directory) :
    d.makeDirs q = (.ok (), d) := by
  unfold makeDirs
  split
  · rfl
  · rw [ensureChain, ensureDir_of_find h]

/-! ## A file beside another -/

theorem readBytes_eq_ok {d : Disk} {p : Path} {c : Bytes} (h : d.readBytes p = .ok c) :
    ∃ parent name, d.resolve p = .ok (.name parent name false) ∧
      d.lookUp parent name = .ok (some (.file c)) := by
  obtain ⟨e, he, h⟩ := bind_eq_ok h
  match e, h with
  | .file content, h =>
    obtain rfl : content = c := Except.ok.inj h
    obtain ⟨t, ht, he⟩ := bind_eq_ok he
    match t, ht, he with
    | .name parent name slash, ht, he =>
      obtain ⟨x, hx, he⟩ := bind_eq_ok he
      match x, slash, ht, hx, he with
      | some (.file content'), false, ht, hx, he =>
        cases he
        exact ⟨parent, name, ht, hx⟩

theorem writable_of_name {d : Disk} {p : Path} {parent : Location} {name : String}
    (hr : d.resolve p = .ok (.name parent name false)) (hname : name.utf8ByteSize ≤ maxName)
    (hl : d.get? (parent ++ [name]) ≠ some .directory) :
    d.writable p = .ok (parent ++ [name]) := by
  rw [writable, hr]
  dsimp only [bind, Except.bind]
  rw [lookUp_eq_ok.2 ⟨hname, rfl⟩]
  cases he : d.get? (parent ++ [name]) with
  | none => rfl
  | some e =>
    cases e with
    | file c => rfl
    | directory => exact absurd he hl

/-- A path that could be written can be written, as long as directories stay and none comes to its
location. -/
theorem Keeps.writable {d d' : Disk} {p : Path} {l : Location} (hkeeps : Keeps d d')
    (h : d.writable p = .ok l) (hl : d'.get? l ≠ some .directory) : d'.writable p = .ok l := by
  obtain ⟨parent, name, hr, rfl, hname, -⟩ := writable_eq_ok h
  exact writable_of_name (hkeeps.resolve hr) hname hl

theorem Keeps.readBytes {d d' : Disk} {p : Path} {c c' : Bytes} {parent : Location} {name : String}
    (hkeeps : Keeps d d') (h : d.readBytes p = .ok c)
    (hr : d.resolve p = .ok (.name parent name false))
    (hl : d'.get? (parent ++ [name]) = some (.file c')) : d'.readBytes p = .ok c' := by
  obtain ⟨parent', name', hr', hfile⟩ := readBytes_eq_ok h
  cases hr.symm.trans hr'
  exact readBytes_file (hkeeps.resolve hr) (lookUp_eq_ok.2 ⟨(lookUp_eq_ok.1 hfile).1, hl⟩)

theorem get?_filter_same (d : Disk) {l : Location} (h : l ≠ []) :
    get? { d with entries := d.entries.filter (·.1 ≠ l) } l = none := by
  simp [get?, h]

/-- A file is moved over another one. -/
theorem rename_eq {d : Disk} {source target : Path} {parent parent' : Location} {name name' : String}
    {x c : Bytes} (hr : d.resolve source = .ok (.name parent name false))
    (hr' : d.resolve target = .ok (.name parent' name' false))
    (h : d.lookUp parent name = .ok (some (.file x)))
    (h' : d.lookUp parent' name' = .ok (some (.file c)))
    (hne : parent ++ [name] ≠ parent' ++ [name']) :
    d.rename source target =
      .ok ({ d with entries := d.entries.filter (·.1 ≠ parent ++ [name]) }.put (parent' ++ [name'])
        (.file x)) := by
  rw [rename, hr, hr']
  dsimp only [bind, Except.bind]
  rw [h, h']
  simp only [Bool.false_eq_true, or_self, if_false, hne]
  rfl

/-- After a move the file that was moved can be written again. -/
theorem writable_of_rename {d d' : Disk} {source target : Path}
    (h : d.rename source target = .ok d') : ∃ l, d'.writable source = .ok l := by
  obtain ⟨parent, name, parent', name', c, hr, -, he, -, hdirectory, rfl⟩ := rename_eq_ok h
  obtain ⟨hname, hfile⟩ := lookUp_eq_ok.1 he
  refine ⟨parent ++ [name], ?_⟩
  split
  case isTrue => exact writable_of_name hr hname (by rw [hfile]; simp)
  case isFalse hne =>
    refine writable_of_name ((keeps_rename hfile hdirectory hne).resolve hr) hname ?_
    rw [get?_put_ne _ hne, get?_filter_same d (by simp)]
    simp

section
variable {d : Disk} {p : Path} {c : Bytes} {l : Location} {ending : String}

/-- A file and the one with an ending after its name are at different locations. -/
theorem ne_of_writable_sibling {parent : Location} {name : String} (hending : ending ≠ "")
    (hr : d.resolve p = .ok (.name parent name false))
    (hw : d.writable (p.sibling ending) = .ok l) : parent ++ [name] ≠ l := by
  obtain ⟨parent', name', hr', rfl, -⟩ := writable_eq_ok hw
  obtain rfl := resolve_sibling hr hr'
  intro h
  have hname : name = name ++ ending := (List.append_singleton_inj.1 h).2
  have hsize := congrArg String.utf8ByteSize hname
  rw [String.utf8ByteSize_append] at hsize
  exact hending (String.utf8ByteSize_eq_zero_iff.1 (by omega))

/-- What is written to the file beside it does not change a file. -/
theorem readBytes_put_sibling (hending : ending ≠ "") (h : d.readBytes p = .ok c)
    (hw : d.writable (p.sibling ending) = .ok l) (x : Bytes) :
    (d.put l (.file x)).readBytes p = .ok c ∧
      (d.put l (.file x)).writable (p.sibling ending) = .ok l := by
  obtain ⟨parent, name, hr, hfile⟩ := readBytes_eq_ok h
  have hne := ne_of_writable_sibling hending hr hw
  obtain ⟨parent', name', -, rfl, -, hdir⟩ := writable_eq_ok hw
  have hkeeps := keeps_put d (e := .file x) hdir
  refine ⟨hkeeps.readBytes h hr ?_, hkeeps.writable hw ?_⟩
  · rw [get?_put_ne d hne, (lookUp_eq_ok.1 hfile).2]
  · rw [get?_put_same d (by simp)]
    simp

/-- The file beside a file can be moved over it once it is written. -/
theorem rename_sibling (hending : ending ≠ "") (h : d.readBytes p = .ok c)
    (hw : d.writable (p.sibling ending) = .ok l) (x : Bytes) :
    ∃ d', (d.put l (.file x)).rename (p.sibling ending) p = .ok d' ∧ d'.readBytes p = .ok x ∧
      d'.writable (p.sibling ending) = .ok l := by
  obtain ⟨hread, hwrite⟩ := readBytes_put_sibling hending h hw x
  have hl : (d.put l (.file x)).get? l = some (.file x) := by
    obtain ⟨parent', name', -, rfl, -⟩ := writable_eq_ok hw
    exact get?_put_same d (by simp) _
  generalize d.put l (.file x) = d₁ at hread hwrite hl ⊢
  obtain ⟨parent, name, hr, hfile⟩ := readBytes_eq_ok hread
  have hne := ne_of_writable_sibling hending hr hwrite
  obtain ⟨parent', name', hr', rfl, hname', hdir⟩ := writable_eq_ok hwrite
  have hsource := lookUp_eq_ok.2 ⟨hname', hl⟩
  have hrename := rename_eq hr' hr hsource hfile hne.symm
  refine ⟨_, hrename, ?_, ?_⟩
  · obtain ⟨content, hcontent, htarget⟩ := readBytes_of_rename hrename
    cases hcontent.symm.trans (readBytes_file hr' hsource)
    exact htarget
  · have hdir' : d₁.get? (parent ++ [name]) ≠ some .directory := by
      rw [(lookUp_eq_ok.1 hfile).2]
      simp
    refine (keeps_rename hl hdir' hne.symm).writable hwrite ?_
    rw [get?_put_ne _ hne.symm, get?_filter_same _ (by simp)]
    simp

end

/-! ## Disks that differ in one file -/

/-- The disks are the same but for what stands where the path leads: a file or nothing, on either. -/
structure SameBut (p : Path) (d d' : Disk) : Prop where
  workingDirectory : d'.workingDirectory = d.workingDirectory
  others : ∀ l, d.writable p ≠ .ok l → d'.get? l = d.get? l
  free : ∀ l, d.writable p = .ok l → d'.get? l ≠ some .directory

section
variable {d d' : Disk}

theorem lookUp_congr (h : ∀ l, d'.get? l = d.get? l) : d'.lookUp = d.lookUp := by
  funext parent name
  rw [lookUp, lookUp, h]

theorem walk_congr (h : ∀ l, d'.get? l = d.get? l) (l : Location) (ss : List String) :
    d'.walk l ss = d.walk l ss := by
  induction ss generalizing l with
  | nil => rfl
  | cons s ss ih =>
    unfold walk
    rw [ih, ih, lookUp_congr h]
    simp only [ih]

theorem writable_congr (h : ∀ l, d'.get? l = d.get? l)
    (hdirectory : d'.workingDirectory = d.workingDirectory) (p : Path) :
    d'.writable p = d.writable p := by
  have hresolve : d'.resolve p = d.resolve p := by
    unfold resolve
    simp only [walk_congr h, hdirectory]
  rw [writable, writable, hresolve, lookUp_congr h]

theorem SameBut.keeps {p : Path} (h : SameBut p d d') : Keeps d d' := by
  refine ⟨h.workingDirectory, fun l hl => ?_⟩
  rw [h.others l, hl]
  intro hw
  obtain ⟨parent, name, -, rfl, -, hdir⟩ := writable_eq_ok hw
  exact hdir hl

theorem SameBut.writable {p : Path} (h : SameBut p d d') :
    (d'.writable p).map (fun _ => ()) = (d.writable p).map (fun _ => ()) := by
  cases hw : d.writable p with
  | ok l => rw [h.keeps.writable hw (h.free l hw)]
  | error e =>
    have hsame : ∀ l, d'.get? l = d.get? l := fun l => h.others l (by rw [hw]; simp)
    rw [writable_congr hsame h.workingDirectory, hw]

end

end Disk
end CustomsClaims
