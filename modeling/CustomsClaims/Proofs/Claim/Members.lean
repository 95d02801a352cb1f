import CustomsClaims.Proofs.Claim.RoundTrip
import CustomsClaims.Proofs.Json.Members

/-!
# Claims are read by their members

An object text is read as a claim exactly if each field of a claim has one value in it that the type
of the field accepts, and the claim has these values (`Claim.parse_object`). `Claim.Field.Accepts`
says what the types accept, from the grammar of JSON and the readers of dates and amounts. The order
of the members, their spelling and the members of other names make no difference.
-/

namespace CustomsClaims

namespace Json

/-- The reader of amounts takes a value whole, or refuses it; an amount comes from a scalar. -/
theorem Spelled.amount {t : Bytes} (h : Spelled .value t) :
    ∃ a?, Yields readAmount t a? ∧
      ∀ a ∈ a?, ∃ item, item.Of t ∧ Amount.ofItem item = .ok a := by
  rcases h.item with ⟨item?, hread, hof⟩ | ⟨item, hitem, hread⟩
  · refine ⟨_, hread.amount fun i hi => ?_, fun a ha => ?_⟩
    · have hi := hof i hi
      constructor
      · rintro rfl
        exact hi
      · rintro rfl
        exact hi
    · obtain ⟨item, hmem, hvalue⟩ := Option.bind_eq_some_iff.1 ha
      exact ⟨item, hof item hmem, ok_of_toOption hvalue⟩
  · refine ⟨none, ⟨h.starts, fun w r hw _ => ?_⟩, by simp⟩
    obtain ⟨b, u, rfl, -⟩ := h.starts
    rcases hitem with rfl | rfl
    · exact ⟨_, by simp only [readAmount, hread w r hw, bind, Except.bind]; rfl⟩
    · exact ⟨_, by simp only [readAmount, hread w r hw, bind, Except.bind]; rfl⟩

end Json

/-! ## What fields accept -/

/-- How an amount may be spelled: as a number or as a string. -/
inductive Amount.Spelled : Amount → Bytes → Prop
  | number {a : Amount} {t : Bytes} {item : Json.Item} (h : Json.NumberText t)
      (hread : Json.readNumber t = .ok (item, [])) (ha : Amount.ofItem item = .ok a) :
      Amount.Spelled a t
  | text {a : Amount} {s : String} {t : Bytes} (h : Json.StringText s t)
      (ha : Amount.ofText? s = some a) : Amount.Spelled a t

namespace Claim

/-- The value of a field of the claim. -/
def value (c : Claim) : (f : Field) → f.Value
  | .claimID => c.claimID
  | .importerName => c.importerName
  | .htsCode => c.htsCode
  | .importDate => c.importDate
  | .importQuantity => c.importQuantity
  | .dutiesPaid => c.dutiesPaid
  | .drawbackClaimed => c.drawbackClaimed

namespace Field

/-- Does the type of the field accept the value with the text `t`, as `v`? -/
def Accepts (t : Bytes) : (f : Field) → f.Value → Prop
  | claimID, i => Json.IntegerText i.toInt t
  | importerName, s => Json.StringText s t
  | htsCode, s => Json.StringText s t
  | importDate, d => ∃ s, Json.StringText s t ∧ Date.ofText? s = .ok d
  | importQuantity, i => Json.IntegerText i.toInt t
  | dutiesPaid, a => a.Spelled t
  | drawbackClaimed, a => a.Spelled t

end Field
end Claim

/-! ## What is accepted is read -/

namespace Json

variable {t : Bytes}

theorem yields_integerText {i : Int64} (h : IntegerText i.toInt t) :
    Yields readInt64 t (some i) := by
  have hrange : -2 ^ 63 ≤ i.toInt ∧ i.toInt < 2 ^ 63 := ⟨i.le_toInt, i.toInt_lt⟩
  have hitem := yields_number h.number.head (h.reads hrange.1 hrange.2)
  refine hitem.typed ((if_pos hrange).trans ?_)
  rw [Int64.ofInt_toInt]

theorem yields_stringText {s : String} (wanted : String) (h : StringText s t) :
    Yields (readString wanted) t (some s) :=
  h.yields.typed rfl

theorem yields_dateText {s : String} {d : Date} (h : StringText s t)
    (hd : Date.ofText? s = .ok d) : Yields readDate t (some d) := by
  refine h.yields.typed ?_
  simp only [hd]
  rfl

theorem yields_amountText {a : Amount} (h : a.Spelled t) : Yields readAmount t (some a) := by
  cases h with
  | @number _ item h hread ha =>
    obtain ⟨item?, hitems, -⟩ := h.reads
    have hitem := hitems [] .nil
    rw [List.append_nil, hread] at hitem
    cases item? with
    | none =>
      obtain ⟨e, he⟩ := hitem
      cases he
    | some item' =>
      obtain rfl : item = item' := congrArg Prod.fst (Except.ok.inj hitem)
      have hamount := (yields_number h.head hitems).amount fun i hi => by
        obtain rfl := Option.some.inj hi
        constructor
        · rintro rfl
          cases ha
        · rintro rfl
          cases ha
      rw [Option.bind_some, ha] at hamount
      exact hamount
  | @text s _ h ha =>
    have hamount := h.yields.amount (by simp)
    have hitem : Amount.ofItem (.text s) = .ok a := by simp only [Amount.ofItem, ha]
    rw [Option.bind_some, hitem] at hamount
    exact hamount

/-! ## What is read is accepted -/

theorem integerText_of_int64 (h : Spelled .value t) :
    ∃ i?, Yields readInt64 t i? ∧ ∀ i ∈ i?, IntegerText i.toInt t := by
  apply h.typed
  · rintro item (rfl | rfl) i hi <;> cases hi
  · intro item i hof hi
    cases item with
    | integer n =>
      simp only at hi
      split at hi
      case isTrue hrange =>
        obtain rfl := Except.ok.inj hi
        rw [Int64.toInt_ofInt_of_le hrange.1 hrange.2]
        exact hof.1
      case isFalse => cases hi
    | _ => cases hi

theorem stringText_of_string (wanted : String) (h : Spelled .value t) :
    ∃ s?, Yields (readString wanted) t s? ∧ ∀ s ∈ s?, StringText s t := by
  apply h.typed
  · rintro item (rfl | rfl) s hs <;> cases hs
  · intro item s hof hs
    cases item with
    | text s' =>
      obtain rfl := Except.ok.inj hs
      exact hof
    | _ => cases hs

theorem stringText_of_date (h : Spelled .value t) :
    ∃ d?, Yields readDate t d? ∧ ∀ d ∈ d?, ∃ s, StringText s t ∧ Date.ofText? s = .ok d := by
  apply h.typed
  · rintro item (rfl | rfl) d hd <;> cases hd
  · intro item d hof hd
    cases item with
    | text s =>
      refine ⟨s, hof, ?_⟩
      cases hdate : Date.ofText? s with
      | ok d' =>
        simp only [hdate] at hd
        rw [Except.ok.inj hd]
      | error e =>
        simp only [hdate] at hd
        cases hd
    | _ => cases hd

theorem amountText_of_amount (h : Spelled .value t) :
    ∃ a?, Yields readAmount t a? ∧ ∀ a ∈ a?, a.Spelled t := by
  obtain ⟨a?, hread, hof⟩ := h.amount
  refine ⟨a?, hread, ?_⟩
  intro a ha
  obtain ⟨item, hitem, hvalue⟩ := hof a ha
  cases item with
  | integer i => exact .number hitem.1.number hitem.2 hvalue
  | binary negative b => exact .number hitem.1 hitem.2 hvalue
  | text s =>
    refine .text hitem ?_
    simp only [Amount.ofItem] at hvalue
    cases hs : Amount.ofText? s with
    | none =>
      rw [hs] at hvalue
      cases hvalue
    | some a' =>
      rw [hs] at hvalue
      rw [Except.ok.inj hvalue]
  | _ => cases hvalue

end Json

/-! ## Claims -/

namespace Claim

namespace Field

variable {t : Bytes}

theorem yields_of_accepts {f : Field} {v : f.Value} (h : f.Accepts t v) :
    Json.Yields f.read t (some v) := by
  cases f with
  | claimID => exact Json.yields_integerText h
  | importerName => exact Json.yields_stringText _ h
  | htsCode => exact Json.yields_stringText _ h
  | importDate =>
    obtain ⟨s, hs, hd⟩ := h
    exact Json.yields_dateText hs hd
  | importQuantity => exact Json.yields_integerText h
  | dutiesPaid => exact Json.yields_amountText h
  | drawbackClaimed => exact Json.yields_amountText h

theorem accepts_of_yields (f : Field) (h : Json.Spelled .value t) :
    ∃ v?, Json.Yields f.read t v? ∧ ∀ v ∈ v?, f.Accepts t v := by
  cases f with
  | claimID => exact Json.integerText_of_int64 h
  | importerName => exact Json.stringText_of_string _ h
  | htsCode => exact Json.stringText_of_string _ h
  | importDate => exact Json.stringText_of_date h
  | importQuantity => exact Json.integerText_of_int64 h
  | dutiesPaid => exact Json.amountText_of_amount h
  | drawbackClaimed => exact Json.amountText_of_amount h

/-- What the value with the text `t` is read as; none if it is refused. -/
def ofText? (f : Field) (t : Bytes) : Option f.Value :=
  (Json.parse f.read t).toOption

/-- **A value is read in full** wherever it stands, or refused. -/
theorem yields_spelled (f : Field) (h : Json.Spelled .value t) :
    Json.Yields f.read t (f.ofText? t) := by
  obtain ⟨v?, hread, -⟩ := f.accepts_of_yields h
  rw [ofText?, hread.parse]
  exact hread

/-- **A value is read as what the type of the field accepts.** -/
theorem ofText?_eq_some (f : Field) (h : Json.Spelled .value t) {v : f.Value} :
    f.ofText? t = some v ↔ f.Accepts t v := by
  constructor
  · intro hv
    obtain ⟨v?, hread, haccepts⟩ := f.accepts_of_yields h
    exact haccepts v (hread.parse.symm.trans hv)
  · intro haccepts
    exact (yields_of_accepts haccepts).parse

end Field

/-- The claim with the values of a draft, if all fields have one. -/
def ofDraft? (d : Json.Draft Field.Value) : Option Claim := do
  return {
    claimID := ← d .claimID
    importerName := ← d .importerName
    htsCode := ← d .htsCode
    importDate := ← d .importDate
    importQuantity := ← d .importQuantity
    dutiesPaid := ← d .dutiesPaid
    drawbackClaimed := ← d .drawbackClaimed }

theorem ofDraft?_eq_some {d : Json.Draft Field.Value} {c : Claim} :
    ofDraft? d = some c ↔ ∀ f, d f = some (c.value f) := by
  constructor
  · intro h
    simp only [ofDraft?, Option.bind_eq_bind, Option.bind_eq_some_iff] at h
    obtain ⟨_, h1, _, h2, _, h3, _, h4, _, h5, _, h6, _, h7, h⟩ := h
    obtain rfl := Option.some.inj h
    intro f
    cases f <;> assumption
  · intro h
    simp only [ofDraft?, h]
    rfl

/-- Any values are those of a claim. -/
theorem exists_value (v : (f : Field) → f.Value) : ∃ c : Claim, ∀ f, c.value f = v f := by
  refine ⟨⟨v .claimID, v .importerName, v .htsCode, v .importDate, v .importQuantity,
    v .dutiesPaid, v .drawbackClaimed⟩, fun f => ?_⟩
  cases f <;> rfl

theorem schema_labels : schema.Labels := by
  apply Json.Schema.labels_of
  intro f
  cases f <;> decide

theorem toOption_require (d : Json.Draft Field.Value) (r : Bytes) (f : Field) :
    (schema.require d r f).toOption = d f := by
  unfold Json.Schema.require
  cases d f <;> rfl

/-- The claim of the values that the fields are given. -/
def build (value : (f : Field) → Except Json.Halt f.Value) : Except Json.Halt Claim := do
  return {
    claimID := ← value .claimID
    importerName := ← value .importerName
    htsCode := ← value .htsCode
    importDate := ← value .importDate
    importQuantity := ← value .importQuantity
    dutiesPaid := ← value .dutiesPaid
    drawbackClaimed := ← value .drawbackClaimed }

theorem read_eq : read = schema.readRecord build := rfl

theorem toOption_build (d : Json.Draft Field.Value) (r : Bytes) :
    (build (schema.require d r)).toOption = ofDraft? d := by
  have hd : d = fun f => (schema.require d r f).toOption :=
    funext fun f => (toOption_require d r f).symm
  simp only [build, Json.toOption_bind]
  conv_rhs => rw [hd]
  rfl

/-- **An object text is read** by taking its members one after the other. -/
theorem parse_eq {ms : List (String × Bytes)} {text : Bytes} (h : Json.ObjectText ms text) :
    (parse text).toOption =
      (schema.takes Field.ofText? .empty ms).bind ofDraft? :=
  h.reads toOption_build fun f _ ht => f.yields_spelled ht

/-- **The claim in an object text** has for each field the one value that stands under its name. -/
theorem parse_eq_some_iff {ms : List (String × Bytes)} {text : Bytes}
    (h : Json.ObjectText ms text) {c : Claim} :
    (parse text).toOption = some c ↔
      ∀ f : Field, ∃ t, Json.valuesOf f.label ms = [t] ∧ f.Accepts t (c.value f) := by
  have hspelled (f : Field) {t : Bytes} (ht : Json.valuesOf f.label ms = [t]) :
      Json.Spelled .value t := by
    have hmem : t ∈ Json.valuesOf f.label ms := by rw [ht]; exact List.mem_singleton_self t
    exact h.values _ (Json.mem_of_valuesOf hmem)
  rw [parse_eq h, Option.bind_eq_some_iff]
  simp only [ofDraft?_eq_some]
  refine (Json.Schema.takes_empty_iff schema_labels).trans (forall_congr' fun f => ?_)
  constructor
  · rintro ⟨t, ht, hv⟩
    exact ⟨t, ht, (f.ofText?_eq_some (hspelled f ht)).1 hv⟩
  · rintro ⟨t, ht, haccepts⟩
    exact ⟨t, ht, (f.ofText?_eq_some (hspelled f ht)).2 haccepts⟩

/-- The members whose names are fields of a claim. -/
def knownMembers (ms : List (String × Bytes)) : List (String × Bytes) :=
  ms.filter fun m => Field.all.any (·.label = m.1)

theorem valuesOf_known (f : Field) (ms : List (String × Bytes)) :
    Json.valuesOf f.label (knownMembers ms) = Json.valuesOf f.label ms := by
  have hall : f ∈ Field.all := by cases f <;> decide
  unfold Json.valuesOf knownMembers
  rw [List.filter_filter]
  congr 1
  apply List.filter_congr
  intro m _
  by_cases hm : m.1 = f.label
  · simp only [hm, List.any_eq_true, Bool.and_eq_left_iff_imp, decide_true]
    exact fun _ => ⟨f, hall, decide_eq_true rfl⟩
  · simp [hm]

/-- **Only the values of the fields count**, not their order nor other members. -/
theorem parse_congr {ms ms' : List (String × Bytes)} {text text' : Bytes}
    (h : Json.ObjectText ms text) (h' : Json.ObjectText ms' text')
    (hperm : (knownMembers ms').Perm (knownMembers ms)) :
    (parse text').toOption = (parse text).toOption := by
  have hvalues (f : Field) (t : Bytes) :
      Json.valuesOf f.label ms' = [t] ↔ Json.valuesOf f.label ms = [t] := by
    rw [← valuesOf_known f ms', ← valuesOf_known f ms]
    have hf : (Json.valuesOf f.label (knownMembers ms')).Perm
        (Json.valuesOf f.label (knownMembers ms)) := (hperm.filter _).map _
    constructor
    · intro ht
      rw [ht] at hf
      exact List.perm_singleton.1 hf.symm
    · intro ht
      rw [ht] at hf
      exact List.perm_singleton.1 hf
  apply Option.ext
  intro c
  rw [parse_eq_some_iff h', parse_eq_some_iff h]
  simp only [hvalues]

/-- **A claim is read from an object text by its members.** It is read exactly if each field has one
value under its name, in whatever order, spelling and company, and the type of the field accepts
that value; the claim has these values. Members of other names make no difference. -/
theorem parse_object {ms : List (String × Bytes)} {text : Bytes} (h : Json.ObjectText ms text) :
    ((∃ c, parse text = .ok c) ↔
      ∀ f : Field, ∃ t v, Json.valuesOf f.label ms = [t] ∧ f.Accepts t v) ∧
    (∀ c, parse text = .ok c ↔
      ∀ f : Field, ∃ t, Json.valuesOf f.label ms = [t] ∧ f.Accepts t (c.value f)) ∧
    ∀ ms' text', Json.ObjectText ms' text' → (knownMembers ms').Perm (knownMembers ms) →
      (parse text').toOption = (parse text).toOption := by
  have hread (c : Claim) : parse text = .ok c ↔
      ∀ f : Field, ∃ t, Json.valuesOf f.label ms = [t] ∧ f.Accepts t (c.value f) := by
    rw [← parse_eq_some_iff h]
    constructor
    · intro hok
      rw [hok]
      rfl
    · exact Json.ok_of_toOption
  refine ⟨⟨?_, ?_⟩, hread, fun ms' text' h' hperm => parse_congr h h' hperm⟩
  · rintro ⟨c, hc⟩ f
    obtain ⟨t, ht, haccepts⟩ := (hread c).1 hc f
    exact ⟨t, c.value f, ht, haccepts⟩
  · intro hall
    choose t v ht haccepts using hall
    obtain ⟨c, hc⟩ := exists_value v
    refine ⟨c, (hread c).2 fun f => ⟨t f, ht f, ?_⟩⟩
    rw [hc]
    exact haccepts f

/-- The members of a claim in reverse order, behind one that is no field. -/
def reversedMembers : List (String × Bytes) :=
  [("note", [0x5B, 0x7B, 0x7D, 0x5D]), ("drawbackClaimed", Json.writeText "5"),
    ("dutiesPaid", [0x37]), ("importQuantity", [0x2D, 0x33]),
    ("importDate", Json.writeText "2024-02-29"),
    ("HTSCode", [0x22, 0x5C, 0x75, 0x30, 0x30, 0x33, 0x30, 0x22]),
    ("importerName", Json.writeText ""), ("claimID", [0x30])]

theorem parse_object_reversed :
    parse (Utf8.encode ("\x7b\"note\":[\x7b\x7d],\"drawbackClaimed\":\"5\",\"dutiesPaid\":7," ++
      "\"importQuantity\":-3,\"importDate\":\"2024-02-29\",\"HTSCode\":\"\\u0030\"," ++
      "\"importerName\":\"\",\"claimID\":0\x7d")) =
    .ok ⟨0, "", "0", ⟨2024, 2, 29, by decide, by decide, by decide⟩, -3,
      ⟨false, 7, 0, by decide, by decide, .inl rfl⟩,
      ⟨false, 5, 0, by decide, by decide, .inl rfl⟩⟩ := by
  have hdigit (b : UInt8) (hb : Json.isDigit b) : Json.WholeText [b] := by
    refine ⟨⟨by simp, by simpa using hb⟩, ?_⟩
    simp
  have h0 : Json.IntegerText (0 : Int64).toInt [0x30] := .natural (hdigit 0x30 (by decide))
  have h3 : Json.IntegerText (-3 : Int64).toInt [0x2D, 0x33] :=
    .negative (hdigit 0x33 (by decide)) (by decide)
  have h7 : Json.NumberText [0x37] := (Json.IntegerText.natural (hdigit 0x37 (by decide))).number
  have hstring (s : String) : Json.StringText s (Json.writeText s) := Json.stringText_writeText s
  have hcode : Json.StringText "0" [0x22, 0x5C, 0x75, 0x30, 0x30, 0x33, 0x30, 0x22] := by
    have hex0 : Json.IsHex 0x30 0 := by decide
    have hex3 : Json.IsHex 0x33 3 := by decide
    have hunit : Json.UnitText ('0').toNat [0x5C, 0x75, 0x30, 0x30, 0x33, 0x30] :=
      .mk hex0 hex0 hex3 hex0
    have hchars : Json.CharsText ['0'] [0x5C, 0x75, 0x30, 0x30, 0x33, 0x30] :=
      .cons (.unit (by decide) hunit) .nil
    rw [show ['0'] = ("0" : String).toList from by decide] at hchars
    exact .mk hchars
  have hvalues : ∀ m ∈ reversedMembers, Json.Spelled .value m.2 := by
    simp only [reversedMembers, List.forall_mem_cons]
    exact ⟨.list (.lastElement Json.blanks_nil (.emptyObject Json.blanks_nil) Json.blanks_nil),
      .scalar (.text (hstring "5")), .scalar (.number h7), .scalar (.number h3.number),
      .scalar (.text (hstring _)), .scalar (.text hcode), .scalar (.text (hstring "")),
      .scalar (.number h0.number), by simp⟩
  refine (congrArg parse (by decide +kernel)).trans
    (((parse_object (Json.objectText_compact hvalues)).2.1 _).2 fun f => ?_)
  cases f with
  | claimID => exact ⟨_, rfl, h0⟩
  | importerName => exact ⟨_, rfl, hstring ""⟩
  | htsCode => exact ⟨_, rfl, hcode⟩
  | importDate => exact ⟨_, rfl, "2024-02-29", hstring _, rfl⟩
  | importQuantity => exact ⟨_, rfl, h3⟩
  | dutiesPaid => exact ⟨_, rfl, .number h7 rfl rfl⟩
  | drawbackClaimed => exact ⟨_, rfl, .text (hstring "5") rfl⟩

end Claim
end CustomsClaims
