import CustomsClaims.Proofs.Json.Members

/-!
# Lists are read by their elements

`ListText ts t` gives the elements of a list: their texts, which may be any values. A list of values
is read element by element (`ListText.yields`), and so is a record that is spelled as a list, which
has exactly the fields of the record in their order (`ListText.yields_record`). With the readings of
scalars and objects, every value is read as a record or refused, whatever stands around it
(`Spelled.yields_record`).
-/

namespace CustomsClaims.Json

/-- How the elements of a list may be spelled, up to its closing bracket. -/
inductive ElementsText : List Bytes → Bytes → Prop
  | last {w t w' : Bytes} (hw : Blanks w) (h : Spelled .value t) (hw' : Blanks w') :
      ElementsText [t] (w ++ (t ++ (w' ++ [0x5D])))
  | more {ts : List Bytes} {w t w' u : Bytes} (hw : Blanks w) (h : Spelled .value t)
      (hw' : Blanks w') (hs : ElementsText ts u) :
      ElementsText (t :: ts) (w ++ (t ++ (w' ++ 0x2C :: u)))

/-- How a list with the elements `ts` may be spelled. -/
inductive ListText : List Bytes → Bytes → Prop
  | empty {w : Bytes} (hw : Blanks w) : ListText [] (0x5B :: (w ++ [0x5D]))
  | elements {ts : List Bytes} {t : Bytes} (h : ElementsText ts t) : ListText ts (0x5B :: t)

/-- How a value with the text `t` may be spelled as a whole text. -/
inductive ValueText (t : Bytes) : Bytes → Prop
  | mk {w w' : Bytes} (hw : Blanks w) (h : Spelled .value t) (hw' : Blanks w') :
      ValueText t (w ++ (t ++ w'))

theorem ValueText.isText {t text : Bytes} (h : ValueText t text) : Utf8.IsText text := by
  obtain ⟨hw, h, hw'⟩ := h
  exact hw.isText.append (h.isText.append hw'.isText)

/-- The elements of a list can be told apart. -/
theorem Spelled.elements {p : Part} {t : Bytes} (h : Spelled p t) (hp : p = .elements) :
    ∃ ts, ElementsText ts t := by
  induction h with
  | lastElement hw h hw' _ => exact ⟨_, .last hw h hw'⟩
  | element hw h hw' _ _ ihs =>
    obtain ⟨ts, hts⟩ := ihs rfl
    exact ⟨_, .more hw h hw' hts⟩
  | _ => cases hp

/-- **A value is a scalar, a list or an object.** -/
theorem Spelled.cases_value {t : Bytes} (h : Spelled .value t) :
    ScalarText t ∨ (∃ ts, ListText ts t) ∨ ∃ u, t = 0x7B :: u := by
  cases h with
  | scalar h => exact .inl h
  | emptyList hw => exact .inr (.inl ⟨_, .empty hw⟩)
  | list h =>
    obtain ⟨ts, hts⟩ := h.elements rfl
    exact .inr (.inl ⟨ts, .elements hts⟩)
  | emptyObject _ => exact .inr (.inr ⟨_, rfl⟩)
  | object _ => exact .inr (.inr ⟨_, rfl⟩)

theorem ListText.starts {ts : List Bytes} {t : Bytes} (h : ListText ts t) : StartsValue t := by
  cases h with
  | empty _ => exact ⟨0x5B, _, rfl, by decide, by decide⟩
  | elements _ => exact ⟨0x5B, _, rfl, by decide, by decide⟩

/-- Each element takes a byte. -/
theorem ElementsText.length_le {ts : List Bytes} {t : Bytes} (h : ElementsText ts t) :
    ts.length ≤ t.length := by
  induction h with
  | last _ _ _ =>
    simp
    omega
  | more _ _ _ _ ih =>
    simp
    omega

/-! ## Entries -/

/-- Where the elements `t` of a list come next: behind its bracket, or behind a comma. -/
inductive Entry (t : Bytes) : (first : Bool) → Bytes → Prop
  | bracket : Entry t true t
  | comma {v : Bytes} (hv : Blanks v) : Entry t false (v ++ 0x2C :: t)

section
variable {first : Bool} {w t r x : Bytes}

theorem Entry.next (hx : Entry (w ++ (t ++ r)) first x) (hw : Blanks w) (h : StartsValue t) :
    nextElement first x = .ok (true, t ++ r) := by
  cases hx with
  | bracket => exact nextElement_first hw h r
  | comma hv => exact nextElement_comma hw hv h r

/-- A list is not closed where an element comes next. -/
theorem Entry.closeList (hx : Entry (w ++ (t ++ r)) first x) (hw : Blanks w) (h : StartsValue t) :
    ∃ r' cause, Json.closeList x = (r', some cause) := by
  cases hx with
  | bracket =>
    obtain ⟨b, u, rfl, hb, hne⟩ := h
    rw [List.cons_append, Json.closeList, skipBlanks_before hw hb]
    simp only [if_neg hne]
    split
    case isTrue => exact ⟨_, _, rfl⟩
    case isFalse => exact ⟨_, _, rfl⟩
  | comma hv =>
    rw [Json.closeList, skipBlanks_before hv (b := 0x2C) (by decide)]
    exact ⟨_, _, rfl⟩

end

/-- A scalar is no bracket. -/
theorem ScalarText.item {t : Bytes} (h : ScalarText t) {w r : Bytes} (hw : Blanks w)
    (hr : Delimited r) :
    (∃ e, readItem (w ++ (t ++ r)) = .error e) ∨
      ∃ item, readItem (w ++ (t ++ r)) = .ok (item, r) ∧ item ≠ .list ∧ item ≠ .object := by
  obtain ⟨item?, hyields, hof⟩ := h.yields
  have hreads := hyields.reads w r hw hr
  cases item? with
  | none => exact .inl hreads
  | some item =>
    refine .inr ⟨item, hreads, ?_, ?_⟩
    · rintro rfl
      exact hof .list rfl
    · rintro rfl
      exact hof .object rfl

/-! ## Lists of values -/

/-- A scalar is no list. -/
theorem ScalarText.yields_none {α : Type} (read : Reader α) {t : Bytes} (h : ScalarText t) :
    Yields (readList read) t none := by
  refine ⟨h.starts, fun w r hw hr => ?_⟩
  obtain ⟨e, he⟩ | ⟨item, hitem, hlist, -⟩ := h.item hw hr
  · exact ⟨e, by simp only [readList, he, bind, Except.bind]⟩
  · simp only [readList, hitem, bind, Except.bind]
    split
    case h_1 => exact absurd rfl hlist
    case h_2 => exact ⟨_, rfl⟩

/-- An object is no list. -/
theorem yields_none_object {α : Type} (read : Reader α) (t : Bytes) :
    Yields (readList read) (0x7B :: t) none := by
  refine ⟨⟨0x7B, _, rfl, by decide, by decide⟩, fun w r hw _ => ?_⟩
  rw [List.cons_append]
  simp only [readList, readItem_object hw, bind, Except.bind]
  exact ⟨_, rfl⟩

section
variable {α : Type} {read : Reader α} {out : Bytes → Option α}
  (hread : ∀ t, Spelled .value t → Yields read t (out t))
include hread

/-- The further elements are read one after the other, from either entry. -/
theorem ElementsText.reads {ts : List Bytes} {t : Bytes} (h : ElementsText ts t) {fuel : Nat}
    {acc : List α} {r x : Bytes} (hfuel : ts.length < fuel) (hx : Entry (t ++ r) acc.isEmpty x) :
    ReadsAs (readElements read fuel acc x) ((ts.mapM out).map (acc.reverse ++ ·)) (0x5D :: r) := by
  induction h generalizing fuel acc x with
  | @last w t w' hw h hw' =>
    obtain ⟨fuel, rfl⟩ : ∃ n, fuel = n + 1 + 1 := ⟨fuel - 2, by simp at hfuel; omega⟩
    have htext : w ++ (t ++ (w' ++ [0x5D])) ++ r = w ++ (t ++ (w' ++ 0x5D :: r)) := by simp
    have hlast (a : α) := readsAs_lastElement read hw' fuel (a :: acc) r
    rw [htext] at hx
    rw [mapM_cons_eq]
    refine readsAs_element acc (hread t h) (delimited_close hw' .list r) (hx.next hw h.starts)
      fun a => ?_
    rw [List.mapM_nil, Option.pure_def, Option.map_some, List.append_nil]
    exact hlast a
  | @more ts w t w' u hw h hw' _ ih =>
    obtain ⟨fuel, rfl⟩ : ∃ n, fuel = n + 1 := ⟨fuel - 1, by simp at hfuel; omega⟩
    have htext : w ++ (t ++ (w' ++ 0x2C :: u)) ++ r = w ++ (t ++ (w' ++ 0x2C :: (u ++ r))) := by
      simp
    rw [htext] at hx
    rw [mapM_cons_eq]
    exact readsAs_element acc (hread t h) (delimited_comma hw' (u ++ r)) (hx.next hw h.starts)
      fun a => ih (by simp at hfuel; omega) (.comma hw')

/-- **A list is read** element by element. -/
theorem ListText.yields {ts : List Bytes} {t : Bytes} (h : ListText ts t) :
    Yields (readList read) t (ts.mapM out) := by
  refine ⟨h.starts, fun w r hw _ => ?_⟩
  cases h with
  | @empty v hv =>
    have htext : 0x5B :: (v ++ [0x5D]) ++ r = 0x5B :: (v ++ 0x5D :: r) := by simp
    rw [htext]
    exact readsAs_readList hw (readsAs_lastElement read hv _ [] r)
  | @elements _ u h =>
    have hlength := h.length_le
    have hfuel : ts.length < (u ++ r).length + 1 := by rw [List.length_append]; omega
    have hentry : Entry (u ++ r) ([] : List α).isEmpty (u ++ r) := .bracket
    have hreads := h.reads hread hfuel hentry
    have hid : (ts.mapM out).map (([] : List α).reverse ++ ·) = ts.mapM out := by simp
    rw [hid] at hreads
    exact readsAs_readList hw hreads

/-- **Only a list is read**, and only if each of its elements is. -/
theorem ValueText.parse_list {t text : Bytes} (h : ValueText t text) {as : List α} :
    Json.parse (readList read) text = .ok as ↔ ∃ ts, ListText ts t ∧ ts.mapM out = some as := by
  obtain ⟨hw, h, hw'⟩ := h
  constructor
  · intro hparse
    obtain hscalar | ⟨ts, hts⟩ | ⟨u, rfl⟩ := h.cases_value
    · have hnone := (hscalar.yields_none read).parse_blanks hw hw'
      rw [hparse] at hnone
      cases hnone
    · have hlist := (hts.yields hread).parse_blanks hw hw'
      rw [hparse] at hlist
      exact ⟨ts, hts, hlist.symm⟩
    · have hnone := (yields_none_object read u).parse_blanks hw hw'
      rw [hparse] at hnone
      cases hnone
  · rintro ⟨ts, hts, has⟩
    have hlist := (hts.yields hread).parse_blanks hw hw'
    rw [has] at hlist
    exact ok_of_toOption hlist

end

/-! ## Records -/

section
variable {F : Type} {V : F → Type} [DecidableEq F] {s : Schema F V}
  {out : (f : F) → Bytes → Option (V f)} {α : Type}

/-- The draft with the values of further fields, one for each element; none if one is refused or
their numbers differ. -/
def Draft.inOrder (out : (f : F) → Bytes → Option (V f)) :
    List F → Draft V → List Bytes → Option (Draft V)
  | [], d, [] => some d
  | f :: fs, d, t :: ts => (out f t).bind fun v => inOrder out fs (d.set f v) ts
  | _, _, _ => none

/-- Reads the further fields of a record that is spelled as a list, and its closing bracket. -/
def Schema.readFields (s : Schema F V) (build : ((f : F) → Except Halt (V f)) → Except Halt α)
    (fs : List F) (i : Nat) (d : Draft V) (r : Bytes) : Except Fault (α × Bytes) :=
  closing closeList do
    let (d, r) ← s.readInOrder fs i d r
    let a ← build (s.require d r)
    pure (a, r)

variable {build : ((f : F) → Except Halt (V f)) → Except Halt α}

theorem readFields_nil {i : Nat} {d : Draft V} {r : Bytes} :
    s.readFields build [] i d r =
      closing closeList ((build (s.require d r)).map fun a => (a, r)) := by
  simp only [Schema.readFields, Schema.readInOrder, bind, Except.bind]
  cases build (s.require d r) <;> rfl

theorem readFields_cons {f : F} {fs : List F} {i : Nat} {d : Draft V} {x y : Bytes}
    (hnext : nextElement (i = 0) x = .ok (true, y)) :
    s.readFields build (f :: fs) i d x =
      (s.read f y).bind fun (v, r) => s.readFields build fs (i + 1) (d.set f v) r := by
  simp only [Schema.readFields, Schema.readInOrder, hnext, halting_ok, bind, Except.bind, if_true]
  cases s.read f y <;> rfl

/-- The bracket closes a list that has all fields. -/
theorem readsAs_closeFields {finish : Draft V → Option α}
    (hbuild : ∀ d r, (build (s.require d r)).toOption = finish d) {w : Bytes} (hw : Blanks w)
    (fs : List F) (i : Nat) (d : Draft V) (r : Bytes) :
    ReadsAs (s.readFields build fs i d (w ++ 0x5D :: r))
      ((Draft.inOrder out fs d []).bind finish) r := by
  cases fs with
  | nil =>
    have hvalue := hbuild d (w ++ 0x5D :: r)
    have hclose : closeList (w ++ 0x5D :: r) = (r, none) := by
      rw [closeList, skipBlanks_before hw (b := 0x5D) (by decide)]
      rfl
    rw [Draft.inOrder, Option.bind_some, ← hvalue, readFields_nil]
    cases build (s.require d (w ++ 0x5D :: r)) with
    | ok a => simp only [Except.map, closing, hclose]; rfl
    | error e => cases e <;> exact ⟨_, rfl⟩
  | cons f fs =>
    simp only [Schema.readFields, Schema.readInOrder, nextElement_close hw, halting_ok, bind,
      Except.bind]
    exact ⟨_, rfl⟩

section
variable {finish : Draft V → Option α}
  (hread : ∀ f t, Spelled .value t → Yields (s.read f) t (out f t))
include hread

/-- One element is read as the next field, and those after it as the further fields. With no field
left, it is refused at the bracket. -/
theorem readsAs_field {fs : List F} {i : Nat} {d : Draft V} {ts : List Bytes}
    {w t rest r x : Bytes} (hw : Blanks w) (h : Spelled .value t) (hrest : Delimited rest)
    (hx : Entry (w ++ (t ++ rest)) (i = 0) x)
    (hmore : ∀ fs d, ReadsAs (s.readFields build fs (i + 1) d rest)
      ((Draft.inOrder out fs d ts).bind finish) r) :
    ReadsAs (s.readFields build fs i d x) ((Draft.inOrder out fs d (t :: ts)).bind finish) r := by
  cases fs with
  | nil =>
    obtain ⟨r', cause, hclose⟩ := hx.closeList hw h.starts
    rw [readFields_nil]
    cases build (s.require d x) with
    | ok a => exact ⟨_, by simp only [Except.map, closing, hclose]; rfl⟩
    | error e => cases e <;> exact ⟨_, rfl⟩
  | cons f fs =>
    have hvalue := (hread f t h).reads [] rest blanks_nil hrest
    rw [readFields_cons (hx.next hw h.starts), Draft.inOrder]
    cases hout : out f t with
    | none =>
      rw [hout] at hvalue
      obtain ⟨e, he⟩ := hvalue
      exact ⟨e, by rw [← List.nil_append (t ++ rest), he]; rfl⟩
    | some v =>
      rw [hout] at hvalue
      have hvalue : s.read f (t ++ rest) = .ok (v, rest) := hvalue
      rw [hvalue]
      exact hmore fs (d.set f v)

variable (hbuild : ∀ d r, (build (s.require d r)).toOption = finish d)
include hbuild

/-- The further fields are read from the further elements. -/
theorem ElementsText.fields {ts : List Bytes} {t : Bytes} (h : ElementsText ts t) (fs : List F)
    (i : Nat) (d : Draft V) {r x : Bytes} (hx : Entry (t ++ r) (i = 0) x) :
    ReadsAs (s.readFields build fs i d x) ((Draft.inOrder out fs d ts).bind finish) r := by
  induction h generalizing fs i d x with
  | @last w t w' hw h hw' =>
    have htext : w ++ (t ++ (w' ++ [0x5D])) ++ r = w ++ (t ++ (w' ++ 0x5D :: r)) := by simp
    rw [htext] at hx
    exact readsAs_field hread hw h (delimited_close hw' .list r) hx fun fs d =>
      readsAs_closeFields hbuild hw' fs (i + 1) d r
  | @more ts w t w' u hw h hw' _ ih =>
    have htext : w ++ (t ++ (w' ++ 0x2C :: u)) ++ r = w ++ (t ++ (w' ++ 0x2C :: (u ++ r))) := by
      simp
    rw [htext] at hx
    exact readsAs_field hread hw h (delimited_comma hw' (u ++ r)) hx fun fs d =>
      ih fs (i + 1) d (.comma hw')

/-- **A record is read from a list** of its fields in their order. -/
theorem ListText.yields_record {ts : List Bytes} {t : Bytes} (h : ListText ts t) :
    Yields (s.readRecord build) t ((Draft.inOrder out s.fields .empty ts).bind finish) := by
  refine ⟨h.starts, fun w r hw _ => ?_⟩
  have hrecord (u : Bytes) :
      s.readRecord build (w ++ 0x5B :: u) = s.readFields build s.fields 0 .empty u := by
    simp only [Schema.readRecord, readItem_list hw, bind, Except.bind]
    rfl
  cases h with
  | @empty v hv =>
    have htext : 0x5B :: (v ++ [0x5D]) ++ r = 0x5B :: (v ++ 0x5D :: r) := by simp
    rw [htext, hrecord]
    exact readsAs_closeFields hbuild hv s.fields 0 .empty r
  | elements h =>
    rw [List.cons_append, hrecord]
    exact h.fields hread hbuild s.fields 0 .empty .bracket

/-- **Any value is read as a record**, or refused. -/
theorem Spelled.yields_record {t : Bytes} (h : Spelled .value t) :
    ∃ a?, Yields (s.readRecord build) t a? := by
  cases h with
  | scalar h =>
    refine ⟨none, ⟨h.starts, fun w r hw hr => ?_⟩⟩
    obtain ⟨e, he⟩ | ⟨item, hitem, hlist, hobject⟩ := h.item hw hr
    · exact ⟨e, by simp only [Schema.readRecord, he, bind, Except.bind]⟩
    · simp only [Schema.readRecord, hitem, bind, Except.bind]
      split
      case h_1 => exact absurd rfl hobject
      case h_2 => exact absurd rfl hlist
      case h_3 => exact ⟨_, rfl⟩
  | emptyList hw => exact ⟨_, (ListText.empty hw).yields_record hread hbuild⟩
  | list h =>
    obtain ⟨ts, hts⟩ := h.elements rfl
    exact ⟨_, (ListText.elements hts).yields_record hread hbuild⟩
  | emptyObject hw => exact ⟨_, yields_emptyObject hbuild hw⟩
  | object h => exact ⟨_, h.yields_object hbuild hread⟩

end
end

end CustomsClaims.Json
