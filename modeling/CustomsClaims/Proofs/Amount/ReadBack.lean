import CustomsClaims.Amount.Json
import CustomsClaims.Proofs.Json.Reading

/-!
# What an amount reads back as

An amount is written as a binary number, so that reading its text gives a rounded amount, or none:
`Amount.readBack?`. Wherever the text stands, a reader of amounts takes it in full
(`Amount.yields_jsonText`).
-/

namespace CustomsClaims

namespace Json

theorem Yields.amount {text : Bytes} {item? : Option Item} (h : Yields readItem text item?)
    (hscalar : ∀ i ∈ item?, i ≠ .list ∧ i ≠ .object) :
    Yields readAmount text (item?.bind fun i => (Amount.ofItem i).toOption) := by
  refine ⟨h.head, ?_⟩
  intro w r hw hr
  have hi := h.reads w r hw hr
  cases item? with
  | none =>
    obtain ⟨f, hf⟩ := hi
    exact ⟨f, by simp only [readAmount, hf, bind, Except.bind]⟩
  | some item =>
    have hi : readItem (w ++ (text ++ r)) = .ok (item, r) := hi
    obtain ⟨hlist, hobject⟩ := hscalar item rfl
    simp only [readAmount, hi, bind, Except.bind, Option.bind]
    cases hitem : Amount.ofItem item with
    | ok a => rfl
    | error cause =>
      refine ⟨⟨cause, r.length⟩, ?_⟩
      cases item with
      | list => exact absurd rfl hlist
      | object => exact absurd rfl hobject
      | _ => rfl

end Json

namespace Amount

/-- What the text of the amount is read as. -/
def readBack? (a : Amount) : Option Amount :=
  (Json.parse Json.readAmount (Utf8.encode a.jsonText)).toOption

/-- The binary number that the text of the amount is read as. -/
def writtenBinary? (a : Amount) : Option Binary :=
  (a.nearestBinary.shortest .even).numeral.value?

theorem yields_binary_jsonText (a : Amount) : Json.Yields Json.readAmount (Utf8.encode a.jsonText)
    (a.writtenBinary?.bind fun b => ofDigits? a.negative (b.shortest .up)) := by
  have hread := (Json.yields_binary a.negative a.nearestBinary).amount (by simp)
  have hvalue (b : Binary) : (ofItem (.binary a.negative b)).toOption =
      ofDigits? a.negative (b.shortest .up) := by
    simp only [ofItem]
    cases ofDigits? a.negative (b.shortest .up) <;> rfl
  rw [Option.bind_map, Function.comp_def] at hread
  simp only [hvalue] at hread
  exact hread

theorem readBack?_eq (a : Amount) :
    a.readBack? = a.writtenBinary?.bind fun b => ofDigits? a.negative (b.shortest .up) :=
  a.yields_binary_jsonText.parse

/-- **The text of an amount is read in full**, wherever it stands. -/
theorem yields_jsonText (a : Amount) :
    Json.Yields Json.readAmount (Utf8.encode a.jsonText) a.readBack? := by
  rw [readBack?_eq]
  exact a.yields_binary_jsonText

end Amount
end CustomsClaims
