import CustomsClaims.Proofs.Amount.Storable
import CustomsClaims.Proofs.Claim.RoundTrip

/-!
# Claims that can be stored

A claim can be stored if both its amounts can. It then reads back as one that can be stored again
(`Claim.readBack?_of_storable`), and otherwise not at all (`Claim.storable_of_readBack?`); the written
list of claims with it reads back or not with it.
-/

namespace CustomsClaims

namespace Claim

/-- Both amounts are rounded to numbers that are read as amounts. -/
def Storable (c : Claim) : Prop :=
  c.dutiesPaid.Storable ∧ c.drawbackClaimed.Storable

instance (c : Claim) : Decidable c.Storable := inferInstanceAs (Decidable (_ ∧ _))

theorem readBack?_of_storable {c : Claim} (h : c.Storable) :
    ∃ c', c.readBack? = some c' ∧ c'.Storable := by
  obtain ⟨duties, hduties, hduties'⟩ := Amount.readBack?_of_storable h.1
  obtain ⟨drawback, hdrawback, hdrawback'⟩ := Amount.readBack?_of_storable h.2
  refine ⟨{ c with dutiesPaid := duties, drawbackClaimed := drawback }, ?_, hduties', hdrawback'⟩
  rw [readBack?, hduties, hdrawback]
  rfl

theorem readBack?_eq_none_of_not_storable {c : Claim} (h : ¬c.Storable) : c.readBack? = none := by
  refine readBack?_eq_none.2 ?_
  rcases not_and_or.1 h with hduties | hdrawback
  · exact .inl (Amount.readBack?_eq_none hduties)
  · exact .inr (Amount.readBack?_eq_none hdrawback)

theorem storable_of_readBack? {c c' : Claim} (h : c.readBack? = some c') : c'.Storable := by
  by_cases hc : c.Storable
  · obtain ⟨x, hx, hstorable⟩ := readBack?_of_storable hc
    rw [h] at hx
    obtain rfl := Option.some.inj hx
    exact hstorable
  · rw [readBack?_eq_none_of_not_storable hc] at h
    cases h

end Claim

namespace ClaimList

theorem storable_of_mapM {cs cs' : List Claim} (h : cs.mapM Claim.readBack? = some cs') :
    ∀ c ∈ cs', c.Storable := by
  induction cs generalizing cs' with
  | nil =>
    obtain rfl : [] = cs' := Option.some.inj h
    simp
  | cons c cs ih =>
    rw [Json.mapM_cons_eq] at h
    obtain ⟨x, hx, h⟩ := Option.bind_eq_some_iff.1 h
    obtain ⟨xs, hxs, rfl⟩ := Option.map_eq_some_iff.1 h
    intro y hy
    rcases List.mem_cons.1 hy with rfl | hy
    · exact Claim.storable_of_readBack? hx
    · exact ih hxs y hy

theorem mapM_of_storable {cs : List Claim} (h : ∀ c ∈ cs, c.Storable) :
    ∃ cs', cs.mapM Claim.readBack? = some cs' ∧ cs'.length = cs.length := by
  have hsome : ∀ c ∈ cs, c.readBack? ≠ none := by
    intro c hc hnone
    obtain ⟨c', hc', -⟩ := Claim.readBack?_of_storable (h c hc)
    rw [hnone] at hc'
    cases hc'
  obtain ⟨cs', hcs', hall⟩ := mapM_readBack?_of_forall hsome
  exact ⟨cs', hcs', hall.length_eq.symm⟩

end ClaimList
end CustomsClaims
