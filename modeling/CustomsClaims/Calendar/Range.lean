import CustomsClaims.Calendar.Text

/-!
# Date ranges

A date range has a first and a last day and contains every day from the one to the other.
`DateRange.ofDates` refuses a first day after the last one; `DateRange.ofBounds?` leaves a missing
side open. A relative range names a window as seen from a given day: a number of days up to that
day, or whole calendar months before its month (`RelativeRange.resolve`).
-/

namespace CustomsClaims

/-- The days from `start` to `finish`, both included. -/
structure DateRange where
  start : Date
  finish : Date
deriving DecidableEq, Inhabited

/-- A range whose first day is after its last one. -/
structure InvalidRange where
  start : Date
  finish : Date
deriving DecidableEq

def InvalidRange.message (e : InvalidRange) : String :=
  "Invalid date range: start " ++ e.start.text ++ " must not be after end " ++ e.finish.text

namespace DateRange

/-- The range between two days, the first not after the last. -/
def ofDates (start finish : Date) : Except InvalidRange DateRange :=
  if start ≤ finish then .ok ⟨start, finish⟩ else .error ⟨start, finish⟩

/-- The range between two bounds, open where one is missing; no range without any. -/
def ofBounds? : (start finish : Option Date) → Except InvalidRange (Option DateRange)
  | none, none => .ok none
  | start, finish => (ofDates (start.getD Date.min) (finish.getD Date.max)).map some

def contains (r : DateRange) (d : Date) : Bool :=
  r.start ≤ d && d ≤ r.finish

/-- Days from the first to the last day. -/
def days (r : DateRange) : Int :=
  r.start.daysUntil r.finish

end DateRange

/-! ## Relative ranges -/

/-- A window of days as seen from the current day. -/
inductive RelativeRange where
  | oneWeek
  | twoWeeks
  | thirtyDays
  | sixtyDays
  | ninetyDays
  | oneMonth
  | twoMonths
  | threeMonths
deriving DecidableEq, Repr

/-- The extent of a relative range. -/
inductive Span where
  /-- That many days, the current one the last of them. -/
  | days (n : Nat)
  /-- That many calendar months, the last of them the one before the current month. -/
  | months (n : Nat)

namespace RelativeRange

/-- All relative ranges. -/
def all : List RelativeRange :=
  [.oneWeek, .twoWeeks, .thirtyDays, .sixtyDays, .ninetyDays, .oneMonth, .twoMonths, .threeMonths]

/-- The name of a relative range in requests. -/
def key : RelativeRange → String
  | .oneWeek => "oneWeekBeforeToNow"
  | .twoWeeks => "twoWeeksBeforeToNow"
  | .thirtyDays => "last30DaysToNow"
  | .sixtyDays => "last60DaysToNow"
  | .ninetyDays => "last90DaysToNow"
  | .oneMonth => "last1CalendarMonth"
  | .twoMonths => "last2CalendarMonths"
  | .threeMonths => "last3CalendarMonths"

/-- The relative range of that name. -/
def ofKey? (key : String) : Option RelativeRange :=
  all.find? (·.key = key)

def span : RelativeRange → Span
  | .oneWeek => .days 7
  | .twoWeeks => .days 14
  | .thirtyDays => .days 30
  | .sixtyDays => .days 60
  | .ninetyDays => .days 90
  | .oneMonth => .months 1
  | .twoMonths => .months 2
  | .threeMonths => .months 3

/-- The window as seen from `today`, cut off at the first date of the calendar. -/
def resolve (r : RelativeRange) (today : Date) : DateRange :=
  match r.span with
  | .days n => ⟨(today.daysBack? (n - 1)).getD Date.min, today⟩
  | .months n =>
    ⟨(today.monthsBack? n).getD Date.min, today.firstOfMonth.yesterday?.getD Date.min⟩

end RelativeRange
end CustomsClaims
