import CustomsClaims.Proofs.Calendar.Days

/-!
# What relative ranges contain

A window of `n` days holds the days that are fewer than `n` days before the current one
(`RelativeRange.contains_days`), a window of `n` months the days of the `n` months before the
current one (`RelativeRange.contains_months`). The ends of both kinds are in order and not after the
current day, also where a window is cut off at the first date. `RelativeRange.resolve_window` puts
this together.
-/

namespace CustomsClaims

namespace RelativeRange

variable {r : RelativeRange} {today d : Date} {n : Nat}

theorem resolve_days (h : r.span = .days n) :
    r.resolve today = ⟨(today.daysBack? (n - 1)).getD Date.min, today⟩ := by
  unfold resolve
  rw [h]

theorem resolve_months (h : r.span = .months n) :
    r.resolve today =
      ⟨(today.monthsBack? n).getD Date.min, today.firstOfMonth.yesterday?.getD Date.min⟩ := by
  unfold resolve
  rw [h]

/-- No window of days is empty. -/
theorem span_days_pos (h : r.span = .days n) : 1 ≤ n := by
  cases r <;> cases h <;> decide

theorem span_months_pos (h : r.span = .months n) : 1 ≤ n := by
  cases r <;> cases h <;> decide

/-! ## Windows of days -/

theorem contains_days (h : r.span = .days n) :
    (r.resolve today).contains d ↔ 0 ≤ d.daysUntil today ∧ d.daysUntil today < n := by
  have hn := span_days_pos h
  rw [resolve_days h, DateRange.contains_iff, Date.daysBack?_getD_le_iff]
  show _ ∧ d ≤ today ↔ _
  rw [Date.le_iff_dayNumber]
  unfold Date.daysUntil
  omega

theorem ordered_days (h : r.span = .days n) :
    (r.resolve today).start ≤ (r.resolve today).finish ∧ (r.resolve today).finish ≤ today := by
  rw [resolve_days h]
  constructor
  · apply Date.daysBack?_getD_le_iff.2
    show today.dayNumber - today.dayNumber ≤ _
    omega
  · exact today.le_refl

/-! ## Windows of months -/

/-- The first day of the month is a date, so the subtraction that reaches it does not fail. -/
theorem resolve_firstOfMonth (today : Date) :
    ∃ first, today.daysBack? (today.day - 1) = some first ∧
      ∀ (r : RelativeRange) (n : Nat), r.span = .months n →
        r.resolve today =
          ⟨(first.monthsBack? n).getD Date.min, first.yesterday?.getD Date.min⟩ := by
  refine ⟨today.firstOfMonth, today.daysBack?_firstOfMonth, ?_⟩
  intro r n h
  exact resolve_months h

/-- Going back by months, cut off at the first date, leads before the days of the months reached and
of later ones. -/
theorem monthsBack?_getD_le_iff :
    (today.monthsBack? n).getD Date.min ≤ d ↔ today.monthNumber - n ≤ d.monthNumber := by
  cases h : today.monthsBack? n with
  | some e =>
    obtain ⟨hmonth, hday⟩ := Date.monthsBack?_eq_some h
    rw [Option.getD_some, Date.le_iff_monthNumber hday, hmonth]
  | none =>
    have hnone := Date.monthsBack?_eq_none h
    have hmin := Date.monthNumber_le d.min_le
    rw [Option.getD_none]
    constructor
    · intro _
      omega
    · intro _
      exact d.min_le

/-- Only the first month of the calendar has no day before it. -/
theorem exists_yesterday (h : Date.min.monthNumber < today.monthNumber) :
    ∃ y, today.firstOfMonth.yesterday? = some y := by
  cases hy : today.firstOfMonth.yesterday? with
  | some y => exact ⟨y, rfl⟩
  | none =>
    have hfirst : today.firstOfMonth = Date.min := Date.yesterday?_eq_none hy
    have hsame : today.firstOfMonth.monthNumber = today.monthNumber := rfl
    rw [hfirst] at hsame
    omega

theorem contains_months (h : r.span = .months n)
    (hfirst : Date.min.monthNumber < today.monthNumber) :
    (r.resolve today).contains d ↔
      today.monthNumber - n ≤ d.monthNumber ∧ d.monthNumber < today.monthNumber := by
  obtain ⟨y, hy⟩ := exists_yesterday hfirst
  rw [resolve_months h, DateRange.contains_iff, monthsBack?_getD_le_iff, hy, Option.getD_some,
    Date.le_yesterday_iff hy]

theorem months_finish_le : today.firstOfMonth.yesterday?.getD Date.min ≤ today := by
  cases hy : today.firstOfMonth.yesterday? with
  | none => exact today.min_le
  | some y =>
    have hbefore := Date.dayNumber_yesterday hy
    have hfirst : today.firstOfMonth ≤ today := Date.firstOfMonth_le_iff.2 (Int.le_refl _)
    rw [Date.le_iff_dayNumber] at hfirst
    rw [Option.getD_some, Date.le_iff_dayNumber]
    omega

/-- The month that the window begins with is an earlier one. -/
theorem monthsBack?_monthNumber_lt {e : Date} (hn : 1 ≤ n) (h : today.monthsBack? n = some e) :
    e.monthNumber < today.monthNumber := by
  have hmonth := (Date.monthsBack?_eq_some h).1
  omega

theorem months_start_le (hn : 1 ≤ n) :
    (today.monthsBack? n).getD Date.min ≤ today.firstOfMonth.yesterday?.getD Date.min := by
  cases h : today.monthsBack? n with
  | none => exact Date.min_le _
  | some e =>
    have hlt := monthsBack?_monthNumber_lt hn h
    -- a month that is reached is one before the current month, which is then not the first
    have hmin := Date.monthNumber_le e.min_le
    obtain ⟨y, hy⟩ := exists_yesterday (Int.lt_of_le_of_lt hmin hlt)
    rw [hy, Option.getD_some, Option.getD_some, Date.le_yesterday_iff hy]
    exact hlt

theorem ordered_months (h : r.span = .months n) :
    (r.resolve today).start ≤ (r.resolve today).finish ∧ (r.resolve today).finish ≤ today := by
  rw [resolve_months h]
  exact ⟨months_start_le (span_months_pos h), months_finish_le⟩

/-! ## All windows -/

theorem ordered (r : RelativeRange) (today : Date) :
    (r.resolve today).start ≤ (r.resolve today).finish ∧ (r.resolve today).finish ≤ today := by
  cases h : r.span with
  | days n => exact ordered_days h
  | months n => exact ordered_months h

/-- **What a relative range is**, as seen from any day of the calendar: the first day of its month
is found, the ends are in order and not after the day, a window of days holds the days fewer than
that many days before, and, but in the first month of the calendar, a window of months the days of
that many months before. The windows are of 7, 14, 30, 60 and 90 days and of one to three months. -/
theorem resolve_window (r : RelativeRange) (today : Date) :
    (∃ first, today.daysBack? (today.day - 1) = some first ∧
      ∀ n, r.span = .months n → r.resolve today =
        ⟨(first.monthsBack? n).getD Date.min, first.yesterday?.getD Date.min⟩) ∧
    (r.resolve today).start ≤ (r.resolve today).finish ∧
    (r.resolve today).finish ≤ today ∧
    (∀ n, r.span = .days n → ∀ d, (r.resolve today).contains d ↔
      0 ≤ d.daysUntil today ∧ d.daysUntil today < n) ∧
    (∀ n, r.span = .months n → Date.min.monthNumber < today.monthNumber →
      ∀ d, (r.resolve today).contains d ↔
        today.monthNumber - n ≤ d.monthNumber ∧ d.monthNumber < today.monthNumber) ∧
    all.map span =
      [.days 7, .days 14, .days 30, .days 60, .days 90, .months 1, .months 2, .months 3] := by
  obtain ⟨first, hfirst, hmonths⟩ := resolve_firstOfMonth today
  obtain ⟨hstart, hfinish⟩ := ordered r today
  refine ⟨⟨first, hfirst, hmonths r⟩, hstart, hfinish, ?_, ?_, rfl⟩
  · intro n hn d
    exact contains_days hn
  · intro n hn hlater d
    exact contains_months hn hlater

/-- From the first of March of a leap year, the month before ends with a 29th of February. -/
theorem resolve_window_leap_year :
    let today : Date := ⟨2024, 3, 1, by decide, by decide, by decide⟩
    let leapDay : Date := ⟨2024, 2, 29, by decide, by decide, by decide⟩
    Date.min.monthNumber < today.monthNumber ∧
      (oneMonth.resolve today).contains leapDay ∧ ¬(oneMonth.resolve today).contains today := by
  intro today leapDay
  have hfirst : Date.min.monthNumber < today.monthNumber := by decide
  have hmonths := (resolve_window oneMonth today).2.2.2.2.1 1 rfl hfirst
  refine ⟨hfirst, (hmonths leapDay).2 (by decide), ?_⟩
  intro h
  exact absurd ((hmonths today).1 h).2 (Int.lt_irrefl _)

end RelativeRange
end CustomsClaims
