import CustomsClaims.Amount.Basic
import CustomsClaims.Calendar.Date

/-!
# Claims

A claim asks for the refund of duties that were paid when goods were imported. Nothing is required
of its values: two claims may share an identifier, and a refund may exceed the duties. Two claims
say the same exactly if `Claim.plain` makes them equal.
-/

namespace CustomsClaims

/-- A duty drawback claim. -/
structure Claim where
  /-- The identifier that the claimant chose. -/
  claimID : Int64
  importerName : String
  /-- The tariff code of the imported goods. -/
  htsCode : String
  importDate : Date
  importQuantity : Int64
  /-- The duties paid at import. -/
  dutiesPaid : Amount
  /-- The refund asked for. -/
  drawbackClaimed : Amount
deriving DecidableEq, Inhabited

/-- The claim without the signs of amounts that are zero. -/
def Claim.plain (c : Claim) : Claim :=
  { c with dutiesPaid := c.dutiesPaid.plain, drawbackClaimed := c.drawbackClaimed.plain }

end CustomsClaims
