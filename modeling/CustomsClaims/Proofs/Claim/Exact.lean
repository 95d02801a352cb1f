import CustomsClaims.Proofs.Claim.RoundTrip
import CustomsClaims.Sample.Claims

/-!
# Claims that read back unchanged

`Claim.Exact c`: the texts of the amounts of `c` are read with the values that they were written for.
A list of such claims reads back as a list with the same values (`ClaimList.mapM_readBack?_exact`),
which reads back so again: an amount that is read back differs from a written one of the same value
at most in the sign of a zero, which does not survive a reading.
-/

namespace CustomsClaims

namespace Amount

/-- The text of the amount is read with the value of the amount. -/
def Exact (a : Amount) : Prop :=
  ∃ a', a.readBack? = some a' ∧ a'.plain = a.plain

theorem nearestBinary_zero {a : Amount} (h : a.coefficient = 0) : a.nearestBinary = .zero := by
  rw [nearestBinary, h, Binary.nearest, if_pos rfl]

/-- A zero loses its sign. -/
theorem readBack?_zero {a : Amount} (h : a.coefficient = 0) : a.readBack? = some zero := by
  have hwritten : a.writtenBinary? = some .zero := by
    rw [writtenBinary?, nearestBinary_zero h]
    decide
  rw [readBack?_eq, hwritten]
  cases a.negative <;> decide

/-- Amounts of the same value are the same, or both are zeros. -/
theorem eq_or_zero {a b : Amount} (h : a.plain = b.plain) :
    a = b ∨ (a.coefficient = 0 ∧ b.coefficient = 0) := by
  obtain ⟨n, c, p, _, _, _⟩ := a
  obtain ⟨n', c', p', _, _, _⟩ := b
  simp only [plain, mk.injEq] at h ⊢
  obtain ⟨hsign, rfl, rfl⟩ := h
  rcases Nat.eq_zero_or_pos c with rfl | hc
  · exact .inr ⟨rfl, rfl⟩
  · have hne : c ≠ 0 := by omega
    simpa [hne] using hsign

/-- What reads back unchanged does so whatever the sign of a zero. -/
theorem Exact.congr {a b : Amount} (h : a.Exact) (hab : b.plain = a.plain) :
    ∃ b', b.readBack? = some b' ∧ b'.plain = a.plain := by
  obtain ⟨a', ha', hplain⟩ := h
  rcases eq_or_zero hab with rfl | ⟨hb, ha⟩
  · exact ⟨a', ha', hplain⟩
  · obtain rfl : zero = a' := Option.some.inj ((readBack?_zero ha).symm.trans ha')
    exact ⟨zero, readBack?_zero hb, hplain⟩

end Amount

namespace Claim

/-- The texts of the amounts are read with their values. -/
def Exact (c : Claim) : Prop :=
  c.dutiesPaid.Exact ∧ c.drawbackClaimed.Exact

theorem Exact.congr {c x : Claim} (h : c.Exact) (hx : x.plain = c.plain) :
    ∃ x', x.readBack? = some x' ∧ x'.plain = c.plain := by
  obtain ⟨hduties, hdrawback⟩ := h
  simp only [plain, mk.injEq] at hx
  obtain ⟨hid, hname, hcode, hdate, hquantity, hd, hr⟩ := hx
  obtain ⟨duties, hd, hdplain⟩ := hduties.congr hd
  obtain ⟨drawback, hr, hrplain⟩ := hdrawback.congr hr
  refine ⟨{ x with dutiesPaid := duties, drawbackClaimed := drawback }, ?_, ?_⟩
  · rw [readBack?, hd, hr]
    rfl
  · simp only [plain, hdplain, hrplain, hid, hname, hcode, hdate, hquantity]

theorem exact_of_readBack? {c : Claim} (h : c.readBack? = some c) : c.Exact := by
  have hread := readsBack_of_readBack? h
  exact ⟨⟨_, hread.dutiesPaid, rfl⟩, ⟨_, hread.drawbackClaimed, rfl⟩⟩

end Claim

namespace ClaimList

/-- **Claims that read back unchanged are read back as claims of the same values**, and so are all
claims of the same values. -/
theorem mapM_readBack?_exact {cs xs : List Claim} (h : ∀ c ∈ cs, c.Exact)
    (hxs : xs.map Claim.plain = cs.map Claim.plain) :
    ∃ xs', xs.mapM Claim.readBack? = some xs' ∧ xs'.map Claim.plain = cs.map Claim.plain := by
  induction cs generalizing xs with
  | nil =>
    obtain rfl : xs = [] := by simpa using hxs
    exact ⟨[], rfl, rfl⟩
  | cons c cs ih =>
    obtain ⟨x, xs, rfl, hx, hxs⟩ := List.map_eq_cons_iff.1 hxs
    obtain ⟨x', hx', hplain⟩ := (h c (by simp)).congr hx
    obtain ⟨xs', hxs', hplains⟩ := ih (fun y hy => h y (by simp [hy])) hxs
    refine ⟨x' :: xs', ?_, ?_⟩
    · rw [Json.mapM_cons_eq, hx', hxs']
      rfl
    · rw [List.map_cons, List.map_cons, hplain, hplains]

end ClaimList

/-! ## Sample claims -/

namespace Sample

theorem readBack?_laptops : laptops.readBack? = some laptops := by decide +kernel

theorem mapM_laptops : [laptops].mapM Claim.readBack? = some [laptops] := by
  rw [Json.mapM_cons_eq, readBack?_laptops]
  rfl

theorem readBack?_furniture : furniture.readBack? = some furniture := by decide +kernel

theorem exact_laptops : laptops.Exact := Claim.exact_of_readBack? readBack?_laptops

theorem exact_furniture : furniture.Exact := Claim.exact_of_readBack? readBack?_furniture

end Sample
end CustomsClaims
