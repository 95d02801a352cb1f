/-!
# Dates

Days of the proleptic Gregorian calendar, from `Date.min` to `Date.max`. Dates are ordered by year,
month and day; `Date.dayNumber` counts days, and `Date.yesterday?` goes back by one.
-/

namespace CustomsClaims

/-- The first year of the calendar. -/
def minYear : Int := -262143

/-- The last year of the calendar. -/
def maxYear : Int := 262142

def isLeapYear (year : Int) : Bool :=
  year % 4 = 0 && (year % 100 ≠ 0 || year % 400 = 0)

/-- How many days a month has; `month` counts from 1. -/
def daysInMonth (year : Int) (month : Nat) : Nat :=
  if month = 2 then (if isLeapYear year then 29 else 28)
  else if month = 4 ∨ month = 6 ∨ month = 9 ∨ month = 11 then 30
  else 31

theorem daysInMonth_pos (year : Int) (month : Nat) : 1 ≤ daysInMonth year month := by
  unfold daysInMonth
  split
  · split <;> decide
  · split <;> decide

/-- A calendar date. -/
structure Date where
  year : Int
  month : Nat
  day : Nat
  year_mem : minYear ≤ year ∧ year ≤ maxYear
  month_mem : 1 ≤ month ∧ month ≤ 12
  day_mem : 1 ≤ day ∧ day ≤ daysInMonth year month
deriving DecidableEq

namespace Date

/-- The date with these parts, if there is one. -/
def ofParts? (year : Int) (month day : Nat) : Option Date :=
  if h : (minYear ≤ year ∧ year ≤ maxYear) ∧ (1 ≤ month ∧ month ≤ 12) ∧
      (1 ≤ day ∧ day ≤ daysInMonth year month) then
    some ⟨year, month, day, h.1, h.2.1, h.2.2⟩
  else none

/-- The first date. -/
def min : Date := ⟨-262143, 1, 1, by decide, by decide, by decide⟩

/-- The last date. -/
def max : Date := ⟨262142, 12, 31, by decide, by decide, by decide⟩

instance : Inhabited Date := ⟨min⟩

/-! ## Order -/

/-- Is `a` not after `b`? -/
def notAfter (a b : Date) : Bool :=
  a.year < b.year ||
    (a.year = b.year && (a.month < b.month || (a.month = b.month && a.day ≤ b.day)))

instance : LE Date := ⟨fun a b => a.notAfter b = true⟩

instance (a b : Date) : Decidable (a ≤ b) := inferInstanceAs (Decidable (a.notAfter b = true))

/-! ## Counting days -/

/-- Days from the first day of year 0 to the first day of `year`. -/
def daysBeforeYear (year : Int) : Int :=
  365 * year + (year + 3) / 4 - (year + 99) / 100 + (year + 399) / 400

/-- Days of the year before the first day of its month `month + 1`. -/
def daysBeforeMonth (year : Int) : (month : Nat) → Nat
  | 0 => 0
  | month + 1 => daysBeforeMonth year month + daysInMonth year (month + 1)

/-- The number of the date when days are counted from the first day of year 0 on. -/
def dayNumber (d : Date) : Int :=
  daysBeforeYear d.year + daysBeforeMonth d.year (d.month - 1) + (d.day - 1)

/-- Days from `a` to `b`; negative if `b` is earlier. -/
def daysUntil (a b : Date) : Int :=
  b.dayNumber - a.dayNumber

/-! ## Neighbouring dates -/

/-- The last day of a month. -/
def lastOfMonth (year : Int) (month : Nat) (hy : minYear ≤ year ∧ year ≤ maxYear)
    (hm : 1 ≤ month ∧ month ≤ 12) : Date :=
  ⟨year, month, daysInMonth year month, hy, hm, daysInMonth_pos year month, Nat.le_refl _⟩

/-- The first day of the date's month. -/
def firstOfMonth (d : Date) : Date :=
  ⟨d.year, d.month, 1, d.year_mem, d.month_mem, Nat.le_refl _, daysInMonth_pos _ _⟩

/-- The day before; `none` for the first date. -/
def yesterday? (d : Date) : Option Date :=
  if hd : 1 < d.day then
    some { d with
      day := d.day - 1
      day_mem := by
        have := d.day_mem
        omega }
  else if hm : 1 < d.month then
    some (lastOfMonth d.year (d.month - 1) d.year_mem (by have := d.month_mem; omega))
  else if hy : minYear < d.year then
    some (lastOfMonth (d.year - 1) 12 (by have := d.year_mem; omega) (by decide))
  else none

/-- The day after; `none` for the last date. -/
def tomorrow? (d : Date) : Option Date :=
  (ofParts? d.year d.month (d.day + 1)).or
    ((ofParts? d.year (d.month + 1) 1).or (ofParts? (d.year + 1) 1 1))

/-- The date `n` days earlier; `none` if it is before the first date. -/
def daysBack? (d : Date) : (n : Nat) → Option Date
  | 0 => some d
  | n + 1 => d.yesterday?.bind (·.daysBack? n)

/-- The date `n` days later; `none` if it is after the last date. -/
def daysOn? (d : Date) : (n : Nat) → Option Date
  | 0 => some d
  | n + 1 => d.tomorrow?.bind (·.daysOn? n)

/-- Months since the first month of year 0. -/
def monthNumber (d : Date) : Int :=
  12 * d.year + (d.month - 1)

/-- The first day of the month `n` months earlier; `none` if it is before the first date. -/
def monthsBack? (d : Date) (n : Nat) : Option Date :=
  let m := d.monthNumber - n
  ofParts? (m / 12) ((m % 12).toNat + 1) 1

end Date
end CustomsClaims
