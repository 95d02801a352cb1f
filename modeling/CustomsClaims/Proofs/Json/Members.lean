import CustomsClaims.Proofs.Json.Record
import CustomsClaims.Proofs.Json.Skipping

/-!
# Objects are read by their members

A record is read from an object with its members in any order, spelled in any way and among members
of other names. The loop over the members is followed by `Schema.take`, which puts the value of one
member into a draft, passes over the value of a name that is no field, and refuses a field that it
has met before (`ObjectText.reads`). What all members together leave in the draft depends on the
values of each field alone (`Schema.takes_empty_iff`).
-/

namespace CustomsClaims.Json

/-! ## Values under typed readers -/

/-- What a value is read as from its start: a scalar in full, or a bracket that is left in place. -/
theorem Spelled.item {t : Bytes} (h : Spelled .value t) :
    (∃ item?, Yields readItem t item? ∧ ∀ item ∈ item?, item.Of t) ∨
      ∃ item, (item = .list ∨ item = .object) ∧
        ∀ w r, Blanks w → readItem (w ++ (t ++ r)) = .ok (item, t ++ r) := by
  have hlist (u : Bytes) : ∀ w r, Blanks w →
      readItem (w ++ (0x5B :: u ++ r)) = .ok (.list, 0x5B :: u ++ r) :=
    fun w r hw => readItem_list hw (u ++ r)
  have hobject (u : Bytes) : ∀ w r, Blanks w →
      readItem (w ++ (0x7B :: u ++ r)) = .ok (.object, 0x7B :: u ++ r) :=
    fun w r hw => readItem_object hw (u ++ r)
  cases h with
  | scalar h => exact .inl h.yields
  | emptyList _ => exact .inr ⟨_, .inl rfl, hlist _⟩
  | list _ => exact .inr ⟨_, .inl rfl, hlist _⟩
  | emptyObject _ => exact .inr ⟨_, .inr rfl, hobject _⟩
  | object _ => exact .inr ⟨_, .inr rfl, hobject _⟩

/-- A typed reader takes a value whole, or refuses it; what it ends with comes from a scalar. -/
theorem Spelled.typed {α : Type} {t : Bytes} (h : Spelled .value t)
    {convert : Item → Except Cause α} {P : α → Prop}
    (hbracket : ∀ item, item = .list ∨ item = .object → ∀ a, convert item ≠ .ok a)
    (hscalar : ∀ item a, item.Of t → convert item = .ok a → P a) :
    ∃ a?, Yields (readTyped convert) t a? ∧ ∀ a ∈ a?, P a := by
  rcases h.item with ⟨item?, hread, hof⟩ | ⟨item, hitem, hread⟩
  · cases item? with
    | none =>
      refine ⟨none, ⟨h.starts, fun w r hw hr => ?_⟩, by simp⟩
      obtain ⟨f, hf⟩ := hread.reads w r hw hr
      exact ⟨f, by simp only [readTyped, hf, bind, Except.bind]⟩
    | some item =>
      cases hconvert : convert item with
      | ok a =>
        refine ⟨some a, hread.typed hconvert, fun a' ha' => ?_⟩
        obtain rfl := Option.some.inj ha'
        exact hscalar item a (hof item rfl) hconvert
      | error cause =>
        refine ⟨none, ⟨h.starts, fun w r hw hr => ?_⟩, by simp⟩
        have hi : readItem (w ++ (t ++ r)) = .ok (item, r) := hread.reads w r hw hr
        exact ⟨_, by simp only [readTyped, hi, bind, Except.bind, hconvert]; rfl⟩
  · refine ⟨none, ⟨h.starts, fun w r hw _ => ?_⟩, by simp⟩
    cases hconvert : convert item with
    | ok a => exact absurd hconvert (hbracket item hitem a)
    | error cause =>
      exact ⟨_, by simp only [readTyped, hread w r hw, bind, Except.bind, hconvert]; rfl⟩

/-! ## Keys -/

/-- A key behind its opening quote: the name and the colon. -/
theorem KeyText.read {name : String} {key : Bytes} (h : KeyText name key) :
    ∃ w t u, Blanks w ∧ key = w ++ 0x22 :: t ∧
      ∀ r, readText (t ++ r) = .ok (name, u ++ r) ∧ readColon (u ++ r) = .ok r := by
  obtain ⟨hw, ⟨h⟩, hw'⟩ := h
  rename_i w w' t
  refine ⟨w, t ++ 0x22 :: (w' ++ [0x3A]), w' ++ [0x3A], hw, by simp, fun r => ⟨?_, ?_⟩⟩
  · simpa using h.read (w' ++ 0x3A :: r)
  · simpa using readColon_blanks hw' r

/-! ## Members -/

section
variable {F : Type} {V : F → Type} [DecidableEq F] (s : Schema F V)
  (out : (f : F) → Bytes → Option (V f))

/-- The draft with the value of one more member; none if it is refused. -/
def Schema.take (d : Draft V) (m : String × Bytes) : Option (Draft V) :=
  match s.field? m.1 with
  | some f => if (d f).isSome then none else (out f m.2).map (d.set f)
  | none => some d

/-- The draft with the values of further members; none if one of them is refused. -/
def Schema.takes (d : Draft V) (ms : List (String × Bytes)) : Option (Draft V) :=
  ms.foldlM (s.take out) d

variable {s out}

theorem Schema.takes_cons (d : Draft V) (m : String × Bytes) (ms : List (String × Bytes)) :
    s.takes out d (m :: ms) = (s.take out d m).bind (s.takes out · ms) := rfl

section
variable (hread : ∀ f t, Spelled .value t → Yields (s.read f) t (out f t))
include hread

/-- **One member is read** behind the quote of its key. -/
theorem readsAs_spelledMember {name : String} {key u w t r : Bytes} (d : Draft V)
    (hkey : ∀ r, readText (key ++ r) = .ok (name, u ++ r) ∧ readColon (u ++ r) = .ok r)
    (hw : Blanks w) (h : Spelled .value t) (hr : Delimited r) :
    ReadsAs (s.readMember d (key ++ (w ++ (t ++ r)))) (s.take out d (name, t)) r := by
  obtain ⟨hname, hcolon⟩ := hkey (w ++ (t ++ r))
  simp only [Schema.readMember, hname, halting_ok, bind, Except.bind, Schema.take]
  cases hfield : s.field? name with
  | none =>
    simp only [hcolon, halting_ok, h.skip hw hr]
    rfl
  | some f =>
    simp only
    split
    case isTrue => exact ⟨_, rfl⟩
    case isFalse =>
      simp only [hcolon, halting_ok]
      have hvalue := (hread f t h).reads w r hw hr
      cases hout : out f t with
      | none =>
        rw [hout] at hvalue
        obtain ⟨e, he⟩ := hvalue
        exact ⟨_, by rw [he]; rfl⟩
      | some v =>
        rw [hout] at hvalue
        have hvalue : s.read f (w ++ (t ++ r)) = .ok (v, r) := hvalue
        rw [hvalue]
        rfl

/-- What the reading of members does with a part of a text: it takes the members of an object up to
its closing bracket, behind the opening one or a comma. -/
def Part.TakenBy (s : Schema F V) (out : (f : F) → Bytes → Option (V f)) :
    Part → Bytes → Prop
  | .members ms, t => ∀ fuel d r, ms.length < fuel →
    ReadsAs (s.readMembers fuel true d (t ++ r)) (s.takes out d ms) (0x7D :: r) ∧
    ∀ v, Blanks v → ReadsAs (s.readMembers fuel false d (v ++ 0x2C :: (t ++ r)))
      (s.takes out d ms) (0x7D :: r)
  | _, _ => True

/-- A member and what follows it, from both entries. -/
theorem readsAs_spelledStep {name : String} {key w t rest r : Bytes}
    {ms : List (String × Bytes)} {fuel : Nat} (d : Draft V) (hkey : KeyText name key)
    (hw : Blanks w) (h : Spelled .value t) (hrest : Delimited rest)
    (hmore : ∀ d, ReadsAs (s.readMembers fuel false d rest) (s.takes out d ms) r) :
    ReadsAs (s.readMembers (fuel + 1) true d (key ++ (w ++ (t ++ rest))))
        (s.takes out d ((name, t) :: ms)) r ∧
      ∀ v, Blanks v →
        ReadsAs (s.readMembers (fuel + 1) false d (v ++ 0x2C :: (key ++ (w ++ (t ++ rest)))))
          (s.takes out d ((name, t) :: ms)) r := by
  obtain ⟨w', k, u, hw', rfl, hk⟩ := hkey.read
  have hmember := readsAs_spelledMember hread d hk hw h hrest
  rw [Schema.takes_cons, List.append_assoc, List.cons_append]
  constructor
  · exact readsAs_step (nextKey_quote hw' _) hmember fun d' _ => hmore d'
  · intro v hv
    exact readsAs_step (nextKey_commaQuote hw' hv _) hmember fun d' _ => hmore d'

theorem Spelled.taken {p : Part} {t : Bytes} (h : Spelled p t) : p.TakenBy s out t := by
  induction h with
  | @lastMember name key w t w' hkey hw h hw' _ =>
    intro fuel d r hfuel
    obtain ⟨fuel, rfl⟩ : ∃ n, fuel = n + 1 + 1 := ⟨fuel - 2, by simp at hfuel; omega⟩
    have htext : key ++ (w ++ (t ++ (w' ++ [0x7D]))) ++ r =
        key ++ (w ++ (t ++ (w' ++ 0x7D :: r))) := by simp
    rw [htext]
    exact readsAs_spelledStep hread d hkey hw h (delimited_close hw' .object r)
      fun d' => readsAs_close hw' fuel false d' r
  | @member name key w t w' u ms hkey hw h hw' _ _ ih =>
    intro fuel d r hfuel
    obtain ⟨fuel, rfl⟩ : ∃ n, fuel = n + 1 := ⟨fuel - 1, by simp at hfuel; omega⟩
    have htext : key ++ (w ++ (t ++ (w' ++ 0x2C :: u))) ++ r =
        key ++ (w ++ (t ++ (w' ++ 0x2C :: (u ++ r)))) := by simp
    rw [htext]
    exact readsAs_spelledStep hread d hkey hw h (delimited_comma hw' (u ++ r))
      fun d' => (ih fuel d' r (by simp at hfuel; omega)).2 w' hw'
  | _ => trivial

end

/-- The texts of the members' values are values. -/
theorem Spelled.values {p : Part} {t : Bytes} (h : Spelled p t) :
    ∀ ms, p = .members ms → ∀ m ∈ ms, Spelled .value m.2 := by
  induction h with
  | lastMember _ _ h _ _ =>
    rintro ms ⟨⟩ m hm
    rw [List.mem_singleton.1 hm]
    exact h
  | member _ _ h _ _ _ ih =>
    rintro ms ⟨⟩ m hm
    rcases List.mem_cons.1 hm with rfl | hm
    · exact h
    · exact ih _ rfl m hm
  | _ =>
    rintro ms ⟨⟩

theorem ObjectText.values {ms : List (String × Bytes)} {text : Bytes} (h : ObjectText ms text) :
    ∀ m ∈ ms, Spelled .value m.2 := by
  cases h with
  | empty _ _ _ => simp
  | members _ h _ => exact h.values ms rfl

/-- Each member takes a byte. -/
theorem Spelled.length_members {p : Part} {t : Bytes} (h : Spelled p t) :
    ∀ ms, p = .members ms → ms.length ≤ t.length := by
  induction h with
  | lastMember _ _ _ _ _ =>
    rintro ms ⟨⟩
    simp
    omega
  | member _ _ _ _ _ _ ih =>
    rintro ms ⟨⟩
    have hrest := ih _ rfl
    simp
    omega
  | _ =>
    rintro ms ⟨⟩

section
variable {α : Type} {build : ((f : F) → Except Halt (V f)) → Except Halt α}
  {finish : Draft V → Option α} (hbuild : ∀ d r, (build (s.require d r)).toOption = finish d)
include hbuild

theorem yields_emptyObject {w : Bytes} (hw : Blanks w) :
    Yields (s.readRecord build) (0x7B :: (w ++ [0x7D])) (finish .empty) := by
  refine ⟨⟨0x7B, _, rfl, by decide, by decide⟩, fun v r hv _ => ?_⟩
  have htext : 0x7B :: (w ++ [0x7D]) ++ r = 0x7B :: (w ++ 0x7D :: r) := by simp
  rw [htext]
  refine readsAs_readRecord hv (readsAs_close hw _ true .empty r) (by rintro ⟨⟩) ?_
  rintro d ⟨⟩ r
  exact hbuild _ r

/-- **A record is read from an object** by taking its members one after the other. -/
theorem Spelled.yields_object {ms : List (String × Bytes)} {t : Bytes}
    (h : Spelled (.members ms) t)
    (hread : ∀ f t, Spelled .value t → Yields (s.read f) t (out f t)) :
    Yields (s.readRecord build) (0x7B :: t) ((s.takes out .empty ms).bind finish) := by
  refine ⟨⟨0x7B, _, rfl, by decide, by decide⟩, fun w r hw _ => ?_⟩
  have hlength := h.length_members ms rfl
  have hmembers := (h.taken hread ((t ++ r).length + 1) .empty r
    (by rw [List.length_append]; omega)).1
  refine readsAs_readRecord hw hmembers ?_ ?_
  · intro hnone
    rw [hnone]
    rfl
  · intro d hd r
    rw [hbuild, hd]
    rfl

theorem ObjectText.reads {ms : List (String × Bytes)} {text : Bytes} (h : ObjectText ms text)
    (hread : ∀ f t, Spelled .value t → Yields (s.read f) t (out f t)) :
    (Json.parse (s.readRecord build) text).toOption =
      (s.takes out .empty ms).bind finish := by
  cases h with
  | @empty w w' w'' hw hw' hw'' =>
    have hparse := (yields_emptyObject hbuild hw').parse_blanks hw hw''
    rwa [List.cons_append, List.append_assoc] at hparse
  | members hw h hw' => exact (h.yields_object hbuild hread).parse_blanks hw hw'

end
end

/-! ## Names of fields -/

namespace Schema

variable {F : Type} {V : F → Type} {s : Schema F V}

/-- Every field is found by its name. -/
def Labels (s : Schema F V) : Prop := ∀ f name, s.field? name = some f ↔ s.label f = name

theorem labels_of (h : ∀ f, s.field? (s.label f) = some f) : s.Labels := by
  intro f name
  constructor
  · intro hfield
    have hfound := List.find?_some hfield
    simpa using hfound
  · rintro rfl
    exact h f

theorem Labels.ne (hs : s.Labels) {f g : F} (h : f ≠ g) : s.label f ≠ s.label g := by
  intro hlabel
  have hf := (hs f (s.label g)).2 hlabel
  rw [(hs g (s.label g)).2 rfl] at hf
  exact h (Option.some.inj hf).symm

theorem Labels.ne_of_unknown (hs : s.Labels) {name : String} (h : s.field? name = none) (f : F) :
    name ≠ s.label f := by
  intro hname
  rw [(hs f name).2 hname.symm] at h
  cases h

end Schema

/-! ## Objects with given members -/

/-- Members up to the closing bracket without white space, their names as they are written. -/
def compactMembers : List (String × Bytes) → Bytes
  | [] => [0x7D]
  | [(name, t)] => writeText name ++ 0x3A :: (t ++ [0x7D])
  | (name, t) :: m :: ms => writeText name ++ 0x3A :: (t ++ 0x2C :: compactMembers (m :: ms))

theorem keyText_writeText (name : String) : KeyText name (writeText name ++ [0x3A]) :=
  .mk blanks_nil (stringText_writeText name) blanks_nil

theorem spelled_compactMembers {m : String × Bytes} {ms : List (String × Bytes)}
    (h : ∀ x ∈ m :: ms, Spelled .value x.2) :
    Spelled (.members (m :: ms)) (compactMembers (m :: ms)) := by
  induction ms generalizing m with
  | nil =>
    have hm := h m List.mem_cons_self
    have hlast := Spelled.lastMember (keyText_writeText m.1) blanks_nil hm blanks_nil
    simpa [compactMembers] using hlast
  | cons m' ms ih =>
    have hm := h m List.mem_cons_self
    have hrest := ih fun x hx => h x (List.mem_cons_of_mem m hx)
    have hmember := Spelled.member (keyText_writeText m.1) blanks_nil hm blanks_nil hrest
    simpa [compactMembers] using hmember

/-- **Any members are those of an object text.** -/
theorem objectText_compact {ms : List (String × Bytes)} (h : ∀ m ∈ ms, Spelled .value m.2) :
    ObjectText ms (0x7B :: compactMembers ms) := by
  cases ms with
  | nil => exact .empty blanks_nil blanks_nil blanks_nil
  | cons m ms =>
    have hobject := ObjectText.members blanks_nil (spelled_compactMembers h) blanks_nil
    rwa [List.nil_append, List.append_nil] at hobject

/-! ## What the members leave -/

/-- The texts of the values under a name, in their order. -/
def valuesOf (name : String) (ms : List (String × Bytes)) : List Bytes :=
  (ms.filter (·.1 = name)).map (·.2)

theorem mem_of_valuesOf {name : String} {ms : List (String × Bytes)} {t : Bytes}
    (h : t ∈ valuesOf name ms) : (name, t) ∈ ms := by
  obtain ⟨m, hm, rfl⟩ := List.mem_map.1 h
  obtain ⟨hmem, hname⟩ := List.mem_filter.1 hm
  rw [← of_decide_eq_true hname]
  exact hmem

theorem valuesOf_same (name : String) (t : Bytes) (ms : List (String × Bytes)) :
    valuesOf name ((name, t) :: ms) = t :: valuesOf name ms := by
  simp [valuesOf]

theorem valuesOf_ne {name : String} {m : String × Bytes} (h : m.1 ≠ name)
    (ms : List (String × Bytes)) : valuesOf name (m :: ms) = valuesOf name ms := by
  simp [valuesOf, h]

namespace Schema

variable {F : Type} {V : F → Type} [DecidableEq F] {s : Schema F V}
  {out : (f : F) → Bytes → Option (V f)}

/-- A field has at most one value in `ms`: a new one if it had none, and it keeps the one it had. -/
def Left (s : Schema F V) (out : (f : F) → Bytes → Option (V f)) (ms : List (String × Bytes))
    (d d' : Draft V) (f : F) : Prop :=
  valuesOf (s.label f) ms = [] ∧ d' f = d f ∨
    d f = none ∧ ∃ t v, valuesOf (s.label f) ms = [t] ∧ out f t = some v ∧ d' f = some v

/-- What the members leave in a draft, if none of them is refused. -/
theorem left_of_takes (hs : s.Labels) {ms : List (String × Bytes)} {d d' : Draft V}
    (h : s.takes out d ms = some d') (f : F) : s.Left out ms d d' f := by
  induction ms generalizing d with
  | nil =>
    rw [← Option.some.inj h]
    exact .inl ⟨rfl, rfl⟩
  | cons m ms ih =>
    obtain ⟨name, t⟩ := m
    obtain ⟨d₁, hd₁, hrest⟩ := Option.bind_eq_some_iff.1 h
    have hleft := ih hrest
    unfold take at hd₁
    split at hd₁
    case h_1 g hg =>
      obtain rfl : s.label g = name := (hs g name).1 hg
      split at hd₁
      case isTrue => cases hd₁
      case isFalse hfree =>
        have hfree : d g = none := by simpa using hfree
        obtain ⟨v, hv, rfl⟩ := Option.map_eq_some_iff.1 hd₁
        by_cases hfg : g = f
        · -- the field of this member is met here and not again
          subst hfg
          rcases hleft with ⟨hnil, hsame⟩ | ⟨hnone, -⟩
          · rw [Draft.set_same] at hsame
            exact .inr ⟨hfree, t, v, by rw [valuesOf_same, hnil], hv, hsame⟩
          · rw [Draft.set_same] at hnone
            cases hnone
        · unfold Left at hleft ⊢
          rwa [valuesOf_ne (hs.ne hfg), ← Draft.set_ne d hfg v]
    case h_2 hunknown =>
      obtain rfl := Option.some.inj hd₁
      unfold Left at hleft ⊢
      rwa [valuesOf_ne (hs.ne_of_unknown hunknown f)]

/-- No member is refused if every field has at most one value, and that is accepted. -/
theorem exists_takes (hs : s.Labels) {ms : List (String × Bytes)} {d : Draft V}
    (h : ∀ f, ∃ d', s.Left out ms d d' f) : ∃ d', s.takes out d ms = some d' := by
  induction ms generalizing d with
  | nil => exact ⟨d, rfl⟩
  | cons m ms ih =>
    obtain ⟨name, t⟩ := m
    rw [takes_cons]
    unfold take
    cases hfield : s.field? name with
    | none =>
      refine ih fun f => ?_
      obtain ⟨d', hleft⟩ := h f
      unfold Left at hleft ⊢
      rw [valuesOf_ne (hs.ne_of_unknown hfield f)] at hleft
      exact ⟨d', hleft⟩
    | some g =>
      obtain rfl : s.label g = name := (hs g name).1 hfield
      obtain ⟨-, ⟨hnil, -⟩ | ⟨hfree, t', v, hvalues, hv, -⟩⟩ := h g
      · rw [valuesOf_same] at hnil
        cases hnil
      · rw [valuesOf_same, List.cons.injEq] at hvalues
        obtain ⟨rfl, hnil⟩ := hvalues
        simp only [hfree, hv, Option.isSome_none, Option.map_some]
        refine ih fun f => ?_
        by_cases hfg : g = f
        · subst hfg
          exact ⟨d.set g v, .inl ⟨hnil, rfl⟩⟩
        · obtain ⟨d', hleft⟩ := h f
          unfold Left at hleft ⊢
          rw [valuesOf_ne (hs.ne hfg), ← Draft.set_ne d hfg v] at hleft
          exact ⟨d', hleft⟩

/-- **The members give every field a value** exactly if each field has one value among them, and
that is accepted. -/
theorem takes_empty_iff (hs : s.Labels) {ms : List (String × Bytes)} {v : (f : F) → V f} :
    (∃ d, s.takes out .empty ms = some d ∧ ∀ f, d f = some (v f)) ↔
      ∀ f, ∃ t, valuesOf (s.label f) ms = [t] ∧ out f t = some (v f) := by
  constructor
  · rintro ⟨d, hd, hall⟩ f
    have hf := hall f
    rcases left_of_takes hs hd f with ⟨-, hsame⟩ | ⟨-, t, v', ht, hv, hset⟩
    · rw [hsame] at hf
      cases hf
    · rw [hset] at hf
      rw [hf] at hv
      exact ⟨t, ht, hv⟩
  · intro hall
    have hleft (f : F) : s.Left out ms .empty (fun g => some (v g)) f := by
      obtain ⟨t, ht, hv⟩ := hall f
      exact .inr ⟨rfl, t, v f, ht, hv, rfl⟩
    obtain ⟨d, hd⟩ := exists_takes hs fun f => ⟨_, hleft f⟩
    refine ⟨d, hd, fun f => ?_⟩
    obtain ⟨t, ht, hv⟩ := hall f
    rcases left_of_takes hs hd f with ⟨hnil, -⟩ | ⟨-, t', v', ht', hv', hset⟩
    · rw [ht] at hnil
      cases hnil
    · rw [ht] at ht'
      obtain rfl := (List.cons.inj ht').1
      rw [hset, ← hv', hv]

end Schema
end CustomsClaims.Json
