import CustomsClaims.Amount.Json
import CustomsClaims.Claim.Basic
import CustomsClaims.Json.Printer

/-!
# Claims in JSON

A claim is an object of seven members; `Claim.parse` reads one and `Claim.tree` is what is written.
`ClaimList.parse` and `ClaimList.tree` do the same for lists of claims.
-/

namespace CustomsClaims
namespace Claim

/-- The fields of a claim. -/
inductive Field where
  | claimID
  | importerName
  | htsCode
  | importDate
  | importQuantity
  | dutiesPaid
  | drawbackClaimed
deriving DecidableEq, Repr

namespace Field

/-- The fields in the order of a claim's members. -/
def all : List Field :=
  [.claimID, .importerName, .htsCode, .importDate, .importQuantity, .dutiesPaid, .drawbackClaimed]

/-- The name of the field's member. -/
def label : Field → String
  | claimID => "claimID"
  | importerName => "importerName"
  | htsCode => "HTSCode"
  | importDate => "importDate"
  | importQuantity => "importQuantity"
  | dutiesPaid => "dutiesPaid"
  | drawbackClaimed => "drawbackClaimed"

/-- The values that the field takes. -/
abbrev Value : Field → Type
  | claimID => Int64
  | importerName => String
  | htsCode => String
  | importDate => Date
  | importQuantity => Int64
  | dutiesPaid => Amount
  | drawbackClaimed => Amount

/-- Reads a value of the field. -/
def read : (f : Field) → Json.Reader f.Value
  | claimID => Json.readInt64
  | importerName => Json.readString "a string"
  | htsCode => Json.readString "a string"
  | importDate => Json.readDate
  | importQuantity => Json.readInt64
  | dutiesPaid => Json.readAmount
  | drawbackClaimed => Json.readAmount

end Field

/-- A claim as a record. -/
def schema : Json.Schema Field Field.Value where
  name := "struct Claim"
  fields := Field.all
  label := Field.label
  read := Field.read

/-- Reads a claim. -/
def read : Json.Reader Claim :=
  schema.readRecord fun value => do
    return {
      claimID := ← value .claimID
      importerName := ← value .importerName
      htsCode := ← value .htsCode
      importDate := ← value .importDate
      importQuantity := ← value .importQuantity
      dutiesPaid := ← value .dutiesPaid
      drawbackClaimed := ← value .drawbackClaimed }

/-- The claim that a JSON text holds. -/
def parse (text : Bytes) : Except Json.Error Claim :=
  Json.parse read text

/-- The members of the claim as a JSON object. -/
def members (c : Claim) : List (String × Json.Tree) := [
  (Field.label .claimID, .int c.claimID.toInt),
  (Field.label .importerName, .text c.importerName),
  (Field.label .htsCode, .text c.htsCode),
  (Field.label .importDate, .text c.importDate.text),
  (Field.label .importQuantity, .int c.importQuantity.toInt),
  (Field.label .dutiesPaid, .number c.dutiesPaid.jsonText),
  (Field.label .drawbackClaimed, .number c.drawbackClaimed.jsonText)]

/-- The claim as a JSON object. -/
def tree (c : Claim) : Json.Tree :=
  .object c.members

end Claim

namespace ClaimList

/-- The claims that a JSON text lists. -/
def parse (text : Bytes) : Except Json.Error (List Claim) :=
  Json.parse (Json.readList Claim.read) text

/-- The claims as a JSON list. -/
def tree (cs : List Claim) : Json.Tree :=
  .list (cs.map Claim.tree)

end ClaimList
end CustomsClaims
