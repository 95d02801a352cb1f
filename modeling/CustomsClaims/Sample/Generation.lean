import CustomsClaims.Sample.Claims
import CustomsClaims.Sample.Directory

/-!
# Random claims

Ways to draw claims and their parts with a source of randomness, and beside each of them what it
promises of every value that it draws: codes are well formed, amounts are whole cents, and claims
come back unchanged when they are written and read.
-/

namespace CustomsClaims.Sample

/-- A way to draw a value. -/
abbrev Draw := StateM StdGen

/-- Draws a number below `n`, from two numbers of the source. -/
def below (n : Nat) : Draw Nat :=
  modifyGet fun g =>
    let (high, g) := stdNext g
    let (low, g) := stdNext g
    ((high * 2 ^ 31 + low) % n, g)

/-- Draws several values. -/
def several {α : Type} (one : Draw α) : (count : Nat) → Draw (List α)
  | 0 => pure []
  | count + 1 => do
    let a ← one
    let as ← several one count
    return a :: as

/-! ## Tariff codes -/

def drawCode : Draw String := do
  let section1 := Date.padded 4 (← below 10000)
  let rest ← several (below 100) 3
  return String.intercalate "." (section1 :: rest.map (Date.padded 2))

/-- Is it a tariff code, four digits and three times two? -/
def isCode (s : String) : Bool :=
  match splitAtChar '.' s.toList with
  | [a, b, c, d] =>
    a.length = 4 && [b, c, d].all (·.length = 2) && [a, b, c, d].all (·.all isDigit)
  | _ => false

/-! ## Dates -/

/-- The first date that is drawn. -/
def firstDate : Date := ⟨2000, 1, 1, by decide, Date.min.month_mem, by decide⟩

/-- How many dates may be drawn. -/
def dateCount : Nat := 20000

def drawDate : Draw Date := do
  return (firstDate.daysOn? (← below dateCount)).getD firstDate

/-- Is it one of the dates that may be drawn? -/
def isDrawnDate (d : Date) : Bool :=
  let days := firstDate.daysUntil d
  0 ≤ days && days < dateCount

/-! ## Amounts -/

/-- The cents of an amount that is drawn are below this number. -/
def centsLimit : Nat := 100000000

def drawAmount : Draw Amount := do
  return cents (← below centsLimit)

/-- Is it an amount of whole cents below the limit? -/
def isDrawnAmount (a : Amount) : Bool :=
  a.places ≤ 2 && !a.plain.negative && a.coefficient * 10 ^ (2 - a.places) < centsLimit

/-! ## Names -/

def letters : List Char :=
  "ABCDEFGHIJKLMNOPQRSTUVWXYZabcdefghijklmnopqrstuvwxyz".toList

/-- The characters after the first one of a name. -/
def nameChars : List Char :=
  letters ++ "0123456789 &.,-".toList

/-- How many characters may follow the first one of a name. -/
def nameRest : Nat := 40

def drawChar (cs : List Char) : Draw Char := do
  return cs.getD (← below cs.length) 'A'

def drawName : Draw String := do
  let first ← drawChar letters
  let rest ← several (drawChar nameChars) (← below (nameRest + 1))
  return String.ofList (first :: rest)

/-- Is it a letter and at most forty characters of a name? -/
def isName (s : String) : Bool :=
  match s.toList with
  | [] => false
  | c :: cs => letters.contains c && cs.length ≤ nameRest && cs.all nameChars.contains

/-! ## Claims -/

/-- Quantities that are drawn are below this number. -/
def quantityLimit : Nat := 1000000

def drawClaim : Draw Claim := do
  let id ← below (2 ^ 32)
  return {
    claimID := Int64.ofInt (id - 2 ^ 31)
    importerName := ← drawName
    htsCode := ← drawCode
    importDate := ← drawDate
    importQuantity := Int64.ofNat (← below quantityLimit)
    dutiesPaid := ← drawAmount
    drawbackClaimed := ← drawAmount }

/-- Does the claim have parts that may be drawn, and does it come back from its JSON text? -/
def isDrawnClaim (c : Claim) : Bool :=
  -2 ^ 31 ≤ c.claimID.toInt && c.claimID.toInt < 2 ^ 31 && isName c.importerName &&
    isCode c.htsCode && isDrawnDate c.importDate && 0 ≤ c.importQuantity.toInt &&
    c.importQuantity.toInt < quantityLimit && isDrawnAmount c.dutiesPaid &&
    isDrawnAmount c.drawbackClaimed &&
    decide ((Claim.parse c.tree.compact).toOption.map Claim.plain = some c.plain)

/-- Draws up to `most` claims. -/
def drawClaims (most : Nat) : Draw (List Claim) := do
  several drawClaim (← below (most + 1))

/-- Do the claims come back from a claim file? -/
def comeBack (cs : List Claim) : Bool :=
  let s : Directory := ⟨⟨["sample"]⟩⟩
  let round : FileStore.Work (List Claim) := do
    s.store.save cs
    s.store.load
  decide ((round.run.run ⟨[], []⟩).value.toOption.map (·.map Claim.plain) =
    some (cs.map Claim.plain))

/-- Are these at most `most` claims that may be drawn, and do they come back from a claim file? -/
def areDrawnClaims (most : Nat) (cs : List Claim) : Bool :=
  cs.length ≤ most && cs.all isDrawnClaim && comeBack cs

end CustomsClaims.Sample
