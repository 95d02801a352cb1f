import CustomsClaims.Number.Layout

/-!
# Amounts of money

An amount is a decimal number: a sign and an integer below `2 ^ 96` divided by `10 ^ places`, with
at most 28 places. Amounts are kept in lowest terms; `Amount.ofParts?` brings any other form into
this one. A zero may have a sign, which its value does not show: two amounts have the same value
exactly if `Amount.plain` makes them equal.
-/

namespace CustomsClaims

/-- The coefficients of an amount are below `2 ^ 96`. -/
def coefficientLimit : Nat := 2 ^ 96

/-- An amount has at most 28 decimal places. -/
def maxPlaces : Nat := 28

/-- The amount `coefficient / 10 ^ places`, with a minus sign if it is `negative`, in lowest
terms. -/
structure Amount where
  negative : Bool
  coefficient : Nat
  places : Nat
  coefficient_lt : coefficient < coefficientLimit
  places_le : places ≤ maxPlaces
  lowest : places = 0 ∨ coefficient % 10 ≠ 0
deriving DecidableEq

/-- Takes zeros off the end of `c / 10 ^ places`. -/
def lowestTerms (c : Nat) : (places : Nat) → Nat × Nat
  | 0 => (c, 0)
  | places + 1 => if c % 10 = 0 then lowestTerms (c / 10) places else (c, places + 1)

theorem lowestTerms_le (c places : Nat) : (lowestTerms c places).1 ≤ c := by
  induction places generalizing c with
  | zero => simp [lowestTerms]
  | succ n ih =>
    unfold lowestTerms
    split
    · exact Nat.le_trans (ih (c / 10)) (Nat.div_le_self c 10)
    · exact Nat.le_refl _

theorem lowestTerms_places_le (c places : Nat) : (lowestTerms c places).2 ≤ places := by
  induction places generalizing c with
  | zero => simp [lowestTerms]
  | succ n ih =>
    unfold lowestTerms
    split
    · exact Nat.le_succ_of_le (ih (c / 10))
    · exact Nat.le_refl _

theorem lowestTerms_lowest (c places : Nat) :
    (lowestTerms c places).2 = 0 ∨ (lowestTerms c places).1 % 10 ≠ 0 := by
  induction places generalizing c with
  | zero => simp [lowestTerms]
  | succ n ih =>
    unfold lowestTerms
    split
    · exact ih (c / 10)
    · right; assumption

namespace Amount

/-- The amount `c / 10 ^ places` with that sign, if it has the size and the places of one. -/
def ofParts? (negative : Bool) (c places : Nat) : Option Amount :=
  if h : c < coefficientLimit ∧ places ≤ maxPlaces then
    some {
      negative
      coefficient := (lowestTerms c places).1
      places := (lowestTerms c places).2
      coefficient_lt := Nat.lt_of_le_of_lt (lowestTerms_le c places) h.1
      places_le := Nat.le_trans (lowestTerms_places_le c places) h.2
      lowest := lowestTerms_lowest c places }
  else none

/-- No money. -/
def zero : Amount := ⟨false, 0, 0, by decide, by decide, Or.inl rfl⟩

instance : Inhabited Amount := ⟨zero⟩

/-- The amount without the sign of a zero. -/
def plain (a : Amount) : Amount :=
  { a with negative := a.negative && a.coefficient ≠ 0 }

/-- A whole number as an amount. -/
def ofInt? (i : Int) : Option Amount := ofParts? (i < 0) i.natAbs 0

/-- The amount of a decimal number: digits beyond the last place are dropped, and the first of them
rounds the amount up from five on. `none` if it is too large. -/
def ofDigits? (negative : Bool) (d : Digits) : Option Amount :=
  let signed (c places : Nat) : Option Amount := ofParts? (negative && c ≠ 0) c places
  match d.exponent with
  | .ofNat n => signed (d.coefficient * 10 ^ n) 0
  | .negSucc n =>
    let excess := n + 1 - maxPlaces
    if excess = 0 then signed d.coefficient (n + 1)
    else
      let dropped := d.coefficient / 10 ^ (excess - 1)
      signed (dropped / 10 + if 5 ≤ dropped % 10 then 1 else 0) maxPlaces

/-- The decimal number without its sign. -/
def digits (a : Amount) : Digits :=
  ⟨a.coefficient, -(a.places : Int)⟩

/-- The amount in full, without an exponent; a zero is written without a sign. -/
def text (a : Amount) : String :=
  (if a.plain.negative then "-" else "") ++ a.digits.positional

end Amount
end CustomsClaims
