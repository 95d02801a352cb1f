import CustomsClaims.Proofs.Amount.ReadBack
import CustomsClaims.Proofs.Calendar.Text
import CustomsClaims.Proofs.Json.Record
import CustomsClaims.Store.File
import Mathlib.Data.List.Forall2

/-!
# Written claims read back

A claim is read back with its own values, except that its amounts are what their texts read back as
(`Claim.readBack?`). `ClaimList.parse_laidOut` says so of lists of claims in every layout, of which
the content of a claim file is one, and the compact text another.
-/

namespace CustomsClaims

namespace Json

theorem yields_int64 (i : Int64) :
    Yields readInt64 (Utf8.encode (signedText i.toInt)) (some i) := by
  have hrange : -2 ^ 63 ≤ i.toInt ∧ i.toInt < 2 ^ 63 := ⟨i.le_toInt, i.toInt_lt⟩
  refine (yields_integer hrange.1 hrange.2).typed ?_
  refine (if_pos hrange).trans ?_
  rw [Int64.ofInt_toInt]

theorem yields_string (wanted s : String) : Yields (readString wanted) (writeText s) (some s) :=
  (yields_text s).typed rfl

theorem yields_date (d : Date) : Yields readDate (writeText d.text) (some d) := by
  refine (yields_text d.text).typed ?_
  simp only [Date.ofText?_text]
  rfl

end Json

namespace Claim

/-- What the text of the claim is read as. -/
def readBack? (c : Claim) : Option Claim :=
  c.dutiesPaid.readBack?.bind fun duties =>
    c.drawbackClaimed.readBack?.map fun drawback =>
      { c with dutiesPaid := duties, drawbackClaimed := drawback }

/-- `c'` is `c` with each amount as its text reads back. -/
structure ReadsBack (c c' : Claim) : Prop where
  claimID : c'.claimID = c.claimID
  importerName : c'.importerName = c.importerName
  htsCode : c'.htsCode = c.htsCode
  importDate : c'.importDate = c.importDate
  importQuantity : c'.importQuantity = c.importQuantity
  dutiesPaid : c.dutiesPaid.readBack? = some c'.dutiesPaid
  drawbackClaimed : c.drawbackClaimed.readBack? = some c'.drawbackClaimed

theorem readsBack_of_readBack? {c c' : Claim} (h : c.readBack? = some c') : ReadsBack c c' := by
  obtain ⟨duties, hduties, h⟩ := Option.bind_eq_some_iff.1 h
  obtain ⟨drawback, hdrawback, rfl⟩ := Option.map_eq_some_iff.1 h
  exact ⟨rfl, rfl, rfl, rfl, rfl, hduties, hdrawback⟩

theorem readBack?_eq_none {c : Claim} :
    c.readBack? = none ↔ c.dutiesPaid.readBack? = none ∨ c.drawbackClaimed.readBack? = none := by
  unfold readBack?
  cases c.dutiesPaid.readBack? with
  | none => simp
  | some duties => cases c.drawbackClaimed.readBack? <;> simp

namespace Field

/-- The tree that the field of a claim is written as. -/
def tree (c : Claim) : Field → Json.Tree
  | claimID => .int c.claimID.toInt
  | importerName => .text c.importerName
  | htsCode => .text c.htsCode
  | importDate => .text c.importDate.text
  | importQuantity => .int c.importQuantity.toInt
  | dutiesPaid => .number c.dutiesPaid.jsonText
  | drawbackClaimed => .number c.drawbackClaimed.jsonText

/-- What the text of the field of a claim is read as. -/
def readBack? (c : Claim) : (f : Field) → Option f.Value
  | claimID => some c.claimID
  | importerName => some c.importerName
  | htsCode => some c.htsCode
  | importDate => some c.importDate
  | importQuantity => some c.importQuantity
  | dutiesPaid => c.dutiesPaid.readBack?
  | drawbackClaimed => c.drawbackClaimed.readBack?

theorem yields (c : Claim) (l : Json.Layout) (depth : Nat) (f : Field) :
    Json.Yields f.read ((f.tree c).laidOut l depth) (f.readBack? c) := by
  cases f with
  | claimID => exact Json.yields_int64 c.claimID
  | importerName => exact Json.yields_string _ _
  | htsCode => exact Json.yields_string _ _
  | importDate => exact Json.yields_date c.importDate
  | importQuantity => exact Json.yields_int64 c.importQuantity
  | dutiesPaid => exact c.dutiesPaid.yields_jsonText
  | drawbackClaimed => exact c.drawbackClaimed.yields_jsonText

end Field

theorem tree_eq (c : Claim) : c.tree = .object (Field.all.map fun f => (f.label, f.tree c)) := rfl

/-- **A written claim is read back.** -/
theorem yields (c : Claim) (l : Json.Layout) (depth : Nat) :
    Json.Yields Claim.read (c.tree.laidOut l depth) c.readBack? := by
  have hfield : ∀ f ∈ schema.fields, Json.Yields (schema.read f)
      ((Field.tree c f).laidOut l (depth + 1)) (Field.readBack? c f) :=
    fun f _ => Field.yields c l (depth + 1) f
  rw [tree_eq]
  refine Json.yields_readRecord (by decide) hfield (by decide) (by decide) (fun f _ hf => ?_)
    fun hall => ?_
  · cases f with
    | dutiesPaid => exact readBack?_eq_none.2 (.inl hf)
    | drawbackClaimed => exact readBack?_eq_none.2 (.inr hf)
    | _ => cases hf
  · obtain ⟨duties, hduties⟩ := Option.isSome_iff_exists.1 (hall .dutiesPaid (by decide))
    obtain ⟨drawback, hdrawback⟩ := Option.isSome_iff_exists.1 (hall .drawbackClaimed (by decide))
    have hduties' : c.dutiesPaid.readBack? = some duties := hduties
    have hdrawback' : c.drawbackClaimed.readBack? = some drawback := hdrawback
    refine ⟨_, by rw [readBack?, hduties', hdrawback']; rfl, ?_⟩
    intro d r hd
    have hvalue (f : Field) : d f = f.readBack? c := hd f (by cases f <;> decide)
    simp only [Json.Schema.require, hvalue, hduties, hdrawback]
    rfl

end Claim

namespace ClaimList

theorem yields (cs : List Claim) (l : Json.Layout) (depth : Nat) :
    Json.Yields (Json.readList Claim.read) ((tree cs).laidOut l depth)
      (cs.mapM Claim.readBack?) :=
  Json.yields_readList fun c _ => c.yields l (depth + 1)

theorem parse_laidOut (cs : List Claim) (l : Json.Layout) (depth : Nat) :
    (parse ((tree cs).laidOut l depth)).toOption = cs.mapM Claim.readBack? :=
  (yields cs l depth).parse

theorem parse_content (cs : List Claim) :
    (parse (FileStore.content cs)).toOption = cs.mapM Claim.readBack? := by
  rw [FileStore.content, Json.Tree.indented_eq]
  exact parse_laidOut cs .indented 0

theorem parse_compact (cs : List Claim) :
    (parse (tree cs).compact).toOption = cs.mapM Claim.readBack? := by
  rw [Json.Tree.compact_eq 0]
  exact parse_laidOut cs .compact 0

/-! ## Element by element -/

theorem mapM_readBack?_of_forall {cs : List Claim} (h : ∀ c ∈ cs, c.readBack? ≠ none) :
    ∃ cs', cs.mapM Claim.readBack? = some cs' ∧ List.Forall₂ Claim.ReadsBack cs cs' := by
  induction cs with
  | nil => exact ⟨[], rfl, .nil⟩
  | cons c cs ih =>
    obtain ⟨c', hc'⟩ := Option.ne_none_iff_exists'.1 (h c (by simp))
    obtain ⟨cs', hcs', hall⟩ := ih fun x hx => h x (by simp [hx])
    refine ⟨c' :: cs', ?_, .cons (Claim.readsBack_of_readBack? hc') hall⟩
    rw [Json.mapM_cons_eq, hc', hcs']
    rfl

theorem mapM_readBack?_eq_none {cs : List Claim} {c : Claim} (hc : c ∈ cs)
    (h : c.readBack? = none) : cs.mapM Claim.readBack? = none := by
  induction cs with
  | nil => simp at hc
  | cons x cs ih =>
    rw [Json.mapM_cons_eq]
    rcases List.mem_cons.1 hc with rfl | hc
    · rw [h]
      rfl
    · rw [ih hc]
      cases x.readBack? <;> rfl

/-- **The content of a claim file and the compact text of its claims read back alike**: with every
claim in its place, its amounts as their texts read back, or with an error if the text of some amount
is refused. -/
theorem written_reads_back (cs : List Claim) :
    ((∀ c ∈ cs, c.dutiesPaid.readBack? ≠ none ∧ c.drawbackClaimed.readBack? ≠ none) →
      ∃ cs', parse (FileStore.content cs) = .ok cs' ∧ parse (tree cs).compact = .ok cs' ∧
        List.Forall₂ Claim.ReadsBack cs cs') ∧
    ((∃ c ∈ cs, c.dutiesPaid.readBack? = none ∨ c.drawbackClaimed.readBack? = none) →
      (∃ e, parse (FileStore.content cs) = .error e) ∧ ∃ e, parse (tree cs).compact = .error e) := by
  have hcontent := parse_content cs
  have hcompact := parse_compact cs
  constructor
  · intro hall
    obtain ⟨cs', hcs', hforall⟩ := mapM_readBack?_of_forall fun c hc hnone =>
      (Claim.readBack?_eq_none.1 hnone).elim (hall c hc).1 (hall c hc).2
    rw [hcs'] at hcontent hcompact
    exact ⟨cs', Json.ok_of_toOption hcontent, Json.ok_of_toOption hcompact, hforall⟩
  · rintro ⟨c, hc, hnone⟩
    have hnone := mapM_readBack?_eq_none hc (Claim.readBack?_eq_none.2 hnone)
    rw [hnone] at hcontent hcompact
    exact ⟨Json.error_of_toOption hcontent, Json.error_of_toOption hcompact⟩

end ClaimList
end CustomsClaims
