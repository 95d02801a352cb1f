import CustomsClaims.Claim.Json

/-!
# Sample claims

Claims to try the library with: three that differ in goods, importer and date, one ordinary claim to
be changed where it matters, and the first of the three as a JSON object from which members can be
left out.
-/

namespace CustomsClaims.Sample

/-- An amount of whole cents; zero if it has no room. -/
def cents (n : Nat) : Amount := (Amount.ofParts? false n 2).getD Amount.zero

/-- Imported computers. -/
def laptops : Claim where
  claimID := 1001
  importerName := "Acme Imports LLC"
  htsCode := "8471.30.01.00"
  importDate := ⟨2024, 3, 15, by decide, by decide, by decide⟩
  importQuantity := 500
  dutiesPaid := cents 125075
  drawbackClaimed := cents 110050

/-- Imported furniture, by another importer. -/
def furniture : Claim where
  claimID := 1002
  importerName := "Globex Corp"
  htsCode := "9403.20.00.80"
  importDate := ⟨2024, 5, 2, by decide, by decide, by decide⟩
  importQuantity := 120
  dutiesPaid := cents 84000
  drawbackClaimed := cents 75600

/-- A claim for more than the duties that were paid. -/
def steel : Claim where
  claimID := 1003
  importerName := "Initech Metals"
  htsCode := "7208.51.00.30"
  importDate := ⟨2023, 11, 30, by decide, by decide, by decide⟩
  importQuantity := 20
  dutiesPaid := cents 10000
  drawbackClaimed := cents 25000

/-- The three claims. -/
def claims : List Claim := [laptops, furniture, steel]

/-- A claim like any other. -/
def ordinary : Claim where
  claimID := 1
  importerName := "Test Importer Inc"
  htsCode := "8471.30.01.00"
  importDate := ⟨2024, 1, 15, by decide, Date.min.month_mem, by decide⟩
  importQuantity := 100
  dutiesPaid := cents 100000
  drawbackClaimed := cents 99000

/-- The object of a claim with the members in the order of their names. -/
def payload (c : Claim) : Json.Tree :=
  .object (c.members.mergeSort fun a b => a.1 ≤ b.1)

/-- The same without the members of that name. -/
def payloadWithout (name : String) (c : Claim) : Json.Tree :=
  .object ((c.members.filter (·.1 ≠ name)).mergeSort fun a b => a.1 ≤ b.1)

end CustomsClaims.Sample
