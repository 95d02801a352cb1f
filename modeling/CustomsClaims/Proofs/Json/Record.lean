import CustomsClaims.Proofs.Json.Reading

/-!
# Written records are read in full

A record is written as an object with one member for each field, in the order of the fields.
`yields_readRecord`: if every written value is read in full, so is the object, in every layout. The
reading ends with what the record's `build` makes of the values, or with a refusal if any value is
refused. The loop over the members is followed by `Schema.fill`, which puts the values into a draft
one after the other.
-/

namespace CustomsClaims.Json

/-! ## Keys -/

section
variable {w : Bytes} (hw : ∀ b ∈ w, isBlank b)
include hw

theorem nextKey_close (first : Bool) (r : Bytes) :
    Schema.nextKey first (w ++ 0x7D :: r) = .ok (false, 0x7D :: r) := by
  simp only [Schema.nextKey, skipBlanks_before hw (b := 0x7D) (by decide)]
  rfl

/-- Behind the opening bracket, a key comes first. -/
theorem nextKey_quote (r : Bytes) : Schema.nextKey true (w ++ 0x22 :: r) = .ok (true, r) := by
  simp only [Schema.nextKey, skipBlanks_before hw (b := 0x22) (by decide)]
  rfl

/-- Behind a member, a key comes after a comma. -/
theorem nextKey_commaQuote {v : Bytes} (hv : ∀ b ∈ v, isBlank b) (r : Bytes) :
    Schema.nextKey false (v ++ 0x2C :: (w ++ 0x22 :: r)) = .ok (true, r) := by
  simp only [Schema.nextKey, skipBlanks_before hv (b := 0x2C) (by decide),
    skipBlanks_before hw (b := 0x22) (by decide)]
  rfl

theorem nextKey_first (k : String) (r : Bytes) :
    Schema.nextKey true (w ++ (writeText k ++ r)) =
      .ok (true, k.toList.flatMap writeChar ++ 0x22 :: r) := by
  have htext : writeText k ++ r = 0x22 :: (k.toList.flatMap writeChar ++ 0x22 :: r) := by
    simp [writeText]
  rw [htext, nextKey_quote hw]

theorem nextKey_comma (k : String) (r : Bytes) :
    Schema.nextKey false (0x2C :: (w ++ (writeText k ++ r))) =
      .ok (true, k.toList.flatMap writeChar ++ 0x22 :: r) := by
  have htext : writeText k ++ r = 0x22 :: (k.toList.flatMap writeChar ++ 0x22 :: r) := by
    simp [writeText]
  rw [htext]
  exact nextKey_commaQuote hw (v := []) (by simp) _

end

theorem readColon_colon (r : Bytes) : readColon (0x3A :: r) = .ok r :=
  readColon_blanks (w := []) (by simp) r

/-! ## Drafts -/

namespace Draft

variable {F : Type} {V : F → Type} [DecidableEq F]

@[simp] theorem set_same (d : Draft V) (f : F) (v : V f) : d.set f v f = some v := by
  simp [set]

theorem set_ne (d : Draft V) {f g : F} (h : f ≠ g) (v : V f) : d.set f v g = d g := by
  simp [set, h]

/-- The draft with the values of some fields, if they all have one. -/
def fill (out : (f : F) → Option (V f)) : (fs : List F) → (d : Draft V) → Option (Draft V)
  | [], d => some d
  | f :: fs, d => (out f).bind fun v => fill out fs (d.set f v)

theorem fill_eq_none {out : (f : F) → Option (V f)} {fs : List F} (d : Draft V) {f : F}
    (hf : f ∈ fs) (h : out f = none) : fill out fs d = none := by
  induction fs generalizing d with
  | nil => simp at hf
  | cons g fs ih =>
    rw [fill]
    rcases List.mem_cons.1 hf with rfl | hf
    · rw [h]
      rfl
    · cases out g with
      | none => rfl
      | some v => exact ih (d.set g v) hf

theorem fill_of_forall {out : (f : F) → Option (V f)} {fs : List F} (d : Draft V)
    (h : ∀ f ∈ fs, (out f).isSome) :
    ∃ d', fill out fs d = some d' ∧ (∀ f ∈ fs, d' f = out f) ∧ ∀ f, f ∉ fs → d' f = d f := by
  induction fs generalizing d with
  | nil => exact ⟨d, rfl, by simp, fun _ _ => rfl⟩
  | cons g fs ih =>
    obtain ⟨v, hv⟩ := Option.isSome_iff_exists.1 (h g (by simp))
    obtain ⟨d', hd', hin, hout⟩ := ih (d.set g v) fun f hf => h f (by simp [hf])
    refine ⟨d', by rw [fill, hv, Option.bind_some, hd'], fun f hf => ?_, fun f hf => ?_⟩
    · by_cases hfs : f ∈ fs
      · exact hin f hfs
      · obtain rfl : f = g := by simpa [hfs] using hf
        rw [hout f hfs, set_same, hv]
    · simp only [List.mem_cons, not_or] at hf
      rw [hout f hf.2, set_ne d (Ne.symm hf.1)]

/-- Either a field has no value, or all values are put in. -/
theorem fill_cases (out : (f : F) → Option (V f)) (fs : List F) (d : Draft V) :
    (∃ f ∈ fs, out f = none) ∨
      ((∀ f ∈ fs, (out f).isSome) ∧ ∃ d', fill out fs d = some d' ∧ ∀ f ∈ fs, d' f = out f) := by
  by_cases hall : ∀ f ∈ fs, (out f).isSome
  · obtain ⟨d', hd', hin, -⟩ := fill_of_forall d hall
    exact .inr ⟨hall, d', hd', hin⟩
  · exact .inl (by simpa using hall)

end Draft

/-! ## Members -/

section
variable {F : Type} {V : F → Type} [DecidableEq F] {s : Schema F V} {l : Layout} {depth : Nat}
  {tree : F → Tree} {out : (f : F) → Option (V f)}

theorem delimited_members (l : Layout) (depth : Nat) (ms : List (String × Tree)) (r : Bytes) :
    Delimited (Tree.laidOutMembers l depth ms ++ r) := by
  cases ms with
  | nil =>
    rw [Tree.laidOutMembers, List.append_assoc]
    exact Delimited.blanks (l.line_blank _) (.cons (by decide) _)
  | cons m ms =>
    simp only [Tree.laidOutMembers, List.cons_append]
    exact .cons (by decide) _

theorem length_members (l : Layout) (depth : Nat) (ms : List (String × Tree)) :
    ms.length < (Tree.laidOutMembers l depth ms).length := by
  induction ms with
  | nil => simp [Tree.laidOutMembers]
  | cons m ms ih =>
    simp only [Tree.laidOutMembers, List.length_cons, List.length_append]
    omega

theorem halting_ok {α : Type} (x : α) : halting (.ok x) = .ok x := rfl

theorem readsAs_readMember {f : F} {text r : Bytes} {v? : Option (V f)} {d : Draft V}
    (hf : s.field? (s.label f) = some f) (hd : d f = none) (hx : Yields (s.read f) text v?)
    (hr : Delimited r) :
    ReadsAs (s.readMember d ((s.label f).toList.flatMap writeChar ++
      0x22 :: 0x3A :: (l.gap ++ (text ++ r)))) (v?.map (d.set f)) r := by
  have hread := hx.reads l.gap r l.gap_blank hr
  have hd' : ¬(d f).isSome := by simp [hd]
  simp only [Schema.readMember, readText_writeChars, halting_ok, bind, Except.bind, hf, hd',
    readColon_colon]
  cases v? with
  | none =>
    obtain ⟨e, he⟩ := hread
    exact ⟨_, by simp only [he]; rfl⟩
  | some v =>
    have hread : s.read f (l.gap ++ (text ++ r)) = .ok (v, r) := hread
    simp only [hread]
    rfl

/-- One member is read, and those after it from the draft that it leaves. -/
theorem readsAs_step {fuel : Nat} {first : Bool} {d : Draft V} {t u rest r : Bytes}
    {d? : Option (Draft V)} {result : Draft V → Option (Draft V)}
    (hnext : Schema.nextKey first t = .ok (true, u)) (hmember : ReadsAs (s.readMember d u) d? rest)
    (h : ∀ d' ∈ d?, ReadsAs (s.readMembers fuel false d' rest) (result d') r) :
    ReadsAs (s.readMembers (fuel + 1) first d t) (d?.bind result) r := by
  simp only [Schema.readMembers, hnext, halting_ok, bind, Except.bind, if_true]
  cases d? with
  | none =>
    obtain ⟨e, he⟩ := hmember
    exact ⟨e, by rw [he]⟩
  | some d' =>
    have hmember : s.readMember d u = .ok (d', rest) := hmember
    rw [hmember]
    exact h d' rfl

theorem readsAs_close {w : Bytes} (hw : ∀ b ∈ w, isBlank b) (fuel : Nat) (first : Bool)
    (d : Draft V) (r : Bytes) :
    ReadsAs (s.readMembers (fuel + 1) first d (w ++ 0x7D :: r)) (some d) (0x7D :: r) := by
  simp only [Schema.readMembers, nextKey_close hw, halting_ok, bind, Except.bind]
  rfl

theorem readsAs_member {f : F} {text rest t r : Bytes} {v? : Option (V f)} {d : Draft V}
    {fuel : Nat} {first : Bool} (result : Draft V → Option (Draft V))
    (hf : s.field? (s.label f) = some f) (hd : d f = none) (hx : Yields (s.read f) text v?)
    (hrest : Delimited rest)
    (hnext : Schema.nextKey first t = .ok (true, (s.label f).toList.flatMap writeChar ++
      0x22 :: 0x3A :: (l.gap ++ (text ++ rest))))
    (h : ∀ v, ReadsAs (s.readMembers fuel false (d.set f v) rest) (result (d.set f v)) r) :
    ReadsAs (s.readMembers (fuel + 1) first d t) (v?.bind fun v => result (d.set f v)) r := by
  have hmember := readsAs_readMember (l := l) hf hd hx hrest
  have hstep : ReadsAs (s.readMembers (fuel + 1) first d t) ((v?.map (d.set f)).bind result) r := by
    apply readsAs_step hnext hmember
    intro d' hd'
    obtain ⟨v, -, rfl⟩ := Option.map_eq_some_iff.1 hd'
    exact h v
  rwa [Option.bind_map] at hstep

/-- The further members of a record, up to its bracket. -/
theorem readsAs_readMembers {fs : List F}
    (h : ∀ f ∈ fs, Yields (s.read f) ((tree f).laidOut l (depth + 1)) (out f))
    (hlabel : ∀ f ∈ fs, s.field? (s.label f) = some f) (hnodup : fs.Nodup) (fuel : Nat)
    (hfuel : fs.length < fuel) (d : Draft V) (hd : ∀ f ∈ fs, d f = none) (r : Bytes) :
    ReadsAs (s.readMembers fuel false d
        (Tree.laidOutMembers l depth (fs.map fun f => (s.label f, tree f)) ++ r))
      (Draft.fill out fs d) (0x7D :: r) := by
  induction fs generalizing fuel d with
  | nil =>
    obtain ⟨fuel, rfl⟩ : ∃ n, fuel = n + 1 := ⟨fuel - 1, by simp at hfuel; omega⟩
    rw [List.map_nil, Tree.laidOutMembers, List.append_assoc, List.singleton_append]
    exact readsAs_close (l.line_blank _) fuel false d r
  | cons f fs ih =>
    obtain ⟨fuel, rfl⟩ : ∃ n, fuel = n + 1 := ⟨fuel - 1, by simp at hfuel; omega⟩
    obtain ⟨hmem, hnodup⟩ := List.nodup_cons.1 hnodup
    have htext : Tree.laidOutMembers l depth ((f :: fs).map fun f => (s.label f, tree f)) ++ r =
        0x2C :: (l.line (depth + 1) ++ (writeText (s.label f) ++
          0x3A :: (l.gap ++ ((tree f).laidOut l (depth + 1) ++
            (Tree.laidOutMembers l depth (fs.map fun f => (s.label f, tree f)) ++ r))))) := by
      simp [Tree.laidOutMembers]
    rw [htext, Draft.fill]
    refine readsAs_member _ (hlabel f (by simp)) (hd f (by simp)) (h f (by simp))
      (delimited_members l depth _ r) (nextKey_comma (l.line_blank _) _ _) fun v => ?_
    refine ih (fun g hg => h g (by simp [hg])) (fun g hg => hlabel g (by simp [hg])) hnodup fuel
      (by simp at hfuel; omega) _ fun g hg => ?_
    rw [Draft.set_ne d (by rintro rfl; exact hmem hg)]
    exact hd g (by simp [hg])

/-- A record after its opening bracket, and its closing one. -/
theorem readsAs_readRecord {α : Type} {build : ((f : F) → Except Halt (V f)) → Except Halt α}
    {w t r : Bytes} {d? : Option (Draft V)} {a? : Option α} (hw : ∀ b ∈ w, isBlank b)
    (h : ReadsAs (s.readMembers (t.length + 1) true .empty t) d? (0x7D :: r))
    (hnone : d? = none → a? = none)
    (hsome : ∀ d, d? = some d → ∀ r, (build (s.require d r)).toOption = a?) :
    ReadsAs (s.readRecord build (w ++ 0x7B :: t)) a? r := by
  have hitem := readItem_object hw t
  have hclose : closeObject (0x7D :: r) = (r, none) := by
    simp only [closeObject, skipBlanks_cons (b := 0x7D) (by decide)]
    rfl
  simp only [Schema.readRecord, hitem, bind, Except.bind]
  cases d? with
  | none =>
    obtain ⟨e, he⟩ := h
    rw [hnone rfl, he]
    cases e with
    | fault f => exact ⟨f, rfl⟩
    | refused cause r => exact ⟨_, rfl⟩
  | some d =>
    have h : s.readMembers (t.length + 1) true .empty t = .ok (d, 0x7D :: r) := h
    have hbuild := hsome d rfl (0x7D :: r)
    rw [← hbuild, h]
    cases hvalue : build (s.require d (0x7D :: r)) with
    | ok a =>
      simp only [hvalue, pure, Except.pure, closing, hclose]
      rfl
    | error e =>
      simp only [hvalue]
      cases e with
      | fault f => exact ⟨f, rfl⟩
      | refused cause r => exact ⟨_, rfl⟩

/-- **A written record reads back.** `a?` is what `build` makes of the values, none if a value is
refused. -/
theorem yields_readRecord {α : Type} {build : ((f : F) → Except Halt (V f)) → Except Halt α}
    {a? : Option α} (hne : s.fields ≠ [])
    (h : ∀ f ∈ s.fields, Yields (s.read f) ((tree f).laidOut l (depth + 1)) (out f))
    (hlabel : ∀ f ∈ s.fields, s.field? (s.label f) = some f) (hnodup : s.fields.Nodup)
    (hnone : ∀ f ∈ s.fields, out f = none → a? = none)
    (hsome : (∀ f ∈ s.fields, (out f).isSome) → ∃ a, a? = some a ∧
      ∀ d r, (∀ f ∈ s.fields, d f = out f) → build (s.require d r) = .ok a) :
    Yields (s.readRecord build)
      ((Tree.object (s.fields.map fun f => (s.label f, tree f))).laidOut l depth) a? := by
  generalize hfields : s.fields = fields at *
  obtain ⟨f, fs, rfl⟩ := List.exists_cons_of_ne_nil hne
  obtain ⟨hmem, hnodup'⟩ := List.nodup_cons.1 hnodup
  have htext (r : Bytes) : (Tree.object ((f :: fs).map fun f => (s.label f, tree f))).laidOut l
      depth ++ r = 0x7B :: (l.line (depth + 1) ++ (writeText (s.label f) ++
        0x3A :: (l.gap ++ ((tree f).laidOut l (depth + 1) ++
          (Tree.laidOutMembers l depth (fs.map fun f => (s.label f, tree f)) ++ r))))) := by
    simp [Tree.laidOut]
  refine ⟨⟨0x7B, _, (List.append_nil _).symm.trans (htext []), by decide, by decide⟩,
    fun w r hw _ => ?_⟩
  rw [htext]
  refine readsAs_readRecord hw (?_ : ReadsAs _ (Draft.fill out (f :: fs) .empty) _) (fun hd => ?_)
    fun d hd => ?_
  · rw [Draft.fill]
    refine readsAs_member _ (hlabel f (by simp)) rfl (h f (by simp)) (delimited_members l depth _ r)
      (nextKey_first (l.line_blank _) _ _) fun v => ?_
    refine readsAs_readMembers (fun g hg => h g (by simp [hg]))
      (fun g hg => hlabel g (by simp [hg])) hnodup' _ ?_ _ (fun g hg => ?_) r
    · have hlen := length_members l depth (fs.map fun f => (s.label f, tree f))
      simp only [List.length_append, List.length_cons, List.length_map] at hlen ⊢
      omega
    · exact Draft.set_ne _ (by rintro rfl; exact hmem hg) v
  · obtain ⟨f', hf', hout⟩ | ⟨-, d', hd', -⟩ := Draft.fill_cases out (f :: fs) .empty
    · exact hnone f' hf' hout
    · cases hd.symm.trans hd'
  · obtain ⟨f', hf', hout⟩ | ⟨hall, d', hd', hin⟩ := Draft.fill_cases out (f :: fs) .empty
    · cases (Draft.fill_eq_none .empty hf' hout).symm.trans hd
    · obtain ⟨a, ha, hbuild⟩ := hsome hall
      obtain rfl : d' = d := Option.some.inj (hd'.symm.trans hd)
      intro r
      rw [ha, hbuild d' r hin]
      rfl

end
end CustomsClaims.Json
