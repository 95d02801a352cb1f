import CustomsClaims.Calendar.Range

/-!
# Days and months are numbers

Dates are ordered as their day numbers are (`Date.le_iff_dayNumber`), and going back by days
subtracts from the day number until the first date is reached (`Date.daysBack?_eq_some_iff`). The
first days of months are compared by month numbers (`Date.le_iff_monthNumber`), and going back by
months subtracts from these (`Date.monthsBack?_eq_some`).
-/

namespace CustomsClaims

namespace Date

/-! ## Order -/

theorem le_iff {a b : Date} :
    a ≤ b ↔ a.year < b.year ∨
      a.year = b.year ∧ (a.month < b.month ∨ a.month = b.month ∧ a.day ≤ b.day) := by
  show a.notAfter b = true ↔ _
  simp only [notAfter, Bool.or_eq_true, Bool.and_eq_true, decide_eq_true_eq]

theorem min_le (d : Date) : min ≤ d := by
  have hyear : -262143 ≤ d.year := d.year_mem.1
  have hmonth := d.month_mem
  have hday := d.day_mem
  rw [le_iff, min]
  dsimp only
  omega

theorem le_max (d : Date) : d ≤ max := by
  have hyear : d.year ≤ 262142 := d.year_mem.2
  have hmonth := d.month_mem
  have hday : d.month = 12 → d.day ≤ 31 := by
    intro h
    have hle := d.day_mem.2
    rw [h] at hle
    exact hle
  rw [le_iff, max]
  dsimp only
  omega

/-! ## Years and months in days -/

/-- The days of a year. -/
def daysInYear (year : Int) : Nat := if isLeapYear year then 366 else 365

theorem daysBeforeYear_succ (year : Int) :
    daysBeforeYear (year + 1) = daysBeforeYear year + daysInYear year := by
  unfold daysBeforeYear daysInYear
  split
  case isTrue h =>
    simp only [isLeapYear, Bool.and_eq_true, Bool.or_eq_true, decide_eq_true_eq] at h
    omega
  case isFalse h =>
    simp only [isLeapYear, Bool.and_eq_true, Bool.or_eq_true, decide_eq_true_eq] at h
    omega

theorem daysBeforeYear_le {a b : Int} (h : a ≤ b) : daysBeforeYear a ≤ daysBeforeYear b := by
  unfold daysBeforeYear
  omega

/-- The months of a year make up the year. -/
theorem daysBeforeMonth_twelve (year : Int) : daysBeforeMonth year 12 = daysInYear year := by
  cases h : isLeapYear year with
  | false => simp [daysBeforeMonth, daysInMonth, daysInYear, h]
  | true => simp [daysBeforeMonth, daysInMonth, daysInYear, h]

theorem daysBeforeMonth_le (year : Int) {m n : Nat} (h : m ≤ n) :
    daysBeforeMonth year m ≤ daysBeforeMonth year n := by
  induction h with
  | refl => exact Nat.le_refl _
  | step _ ih => exact Nat.le_trans ih (Nat.le_add_right _ _)

theorem daysBeforeMonth_pred {year : Int} {month : Nat} (h : 1 ≤ month) :
    daysBeforeMonth year month = daysBeforeMonth year (month - 1) + daysInMonth year month := by
  obtain ⟨m, rfl⟩ := Nat.exists_eq_add_of_le' h
  rfl

/-! ## Day numbers -/

theorem day_pos (d : Date) : 1 ≤ d.day := d.day_mem.1

/-- A date lies in its month. -/
theorem dayNumber_month (d : Date) :
    daysBeforeYear d.year + daysBeforeMonth d.year (d.month - 1) ≤ d.dayNumber ∧
      d.dayNumber < daysBeforeYear d.year + daysBeforeMonth d.year d.month := by
  have hday := d.day_mem
  have hmonth : daysBeforeMonth d.year d.month = _ := daysBeforeMonth_pred d.month_mem.1
  unfold dayNumber
  omega

/-- A date lies in its year. -/
theorem dayNumber_year (d : Date) :
    daysBeforeYear d.year ≤ d.dayNumber ∧ d.dayNumber < daysBeforeYear (d.year + 1) := by
  have hmonth := d.dayNumber_month
  have hlast := daysBeforeMonth_le d.year d.month_mem.2
  rw [daysBeforeMonth_twelve] at hlast
  rw [daysBeforeYear_succ]
  omega

theorem dayNumber_lt_of_year {a b : Date} (h : a.year < b.year) : a.dayNumber < b.dayNumber := by
  have hnext : daysBeforeYear (a.year + 1) ≤ daysBeforeYear b.year := daysBeforeYear_le h
  have ha := a.dayNumber_year
  have hb := b.dayNumber_year
  omega

theorem dayNumber_lt_of_month {a b : Date} (hyear : a.year = b.year) (h : a.month < b.month) :
    a.dayNumber < b.dayNumber := by
  have hnext := daysBeforeMonth_le b.year (Nat.le_sub_one_of_lt h)
  have ha := a.dayNumber_month
  have hb := b.dayNumber_month
  rw [hyear] at ha
  omega

/-- **Dates are ordered as their day numbers are.** -/
theorem le_iff_dayNumber {a b : Date} : a ≤ b ↔ a.dayNumber ≤ b.dayNumber := by
  rw [le_iff]
  rcases Int.lt_trichotomy a.year b.year with hy | hy | hy
  · have hlt := dayNumber_lt_of_year hy
    omega
  · rcases Nat.lt_trichotomy a.month b.month with hm | hm | hm
    · have hlt := dayNumber_lt_of_month hy hm
      omega
    · -- within a month, the days decide
      have ha := a.day_pos
      have hb := b.day_pos
      unfold dayNumber
      rw [hy, hm]
      omega
    · have hlt := dayNumber_lt_of_month hy.symm hm
      omega
  · have hlt := dayNumber_lt_of_year hy
    omega

theorem le_refl (d : Date) : d ≤ d := le_iff_dayNumber.2 (Int.le_refl _)

theorem dayNumber_inj {a b : Date} (h : a.dayNumber = b.dayNumber) : a = b := by
  have hab := le_iff.1 (le_iff_dayNumber.2 (Int.le_of_eq h))
  have hba := le_iff.1 (le_iff_dayNumber.2 (Int.le_of_eq h.symm))
  obtain ⟨ya, ma, da, _, _, _⟩ := a
  obtain ⟨yb, mb, db, _, _, _⟩ := b
  dsimp only at hab hba
  obtain rfl : ya = yb := by omega
  obtain rfl : ma = mb := by omega
  obtain rfl : da = db := by omega
  rfl

/-! ## Going back by days -/

theorem dayNumber_yesterday {d e : Date} (h : d.yesterday? = some e) :
    e.dayNumber = d.dayNumber - 1 := by
  have hday := d.day_pos
  unfold yesterday? at h
  split at h
  case isTrue hd =>
    rw [← Option.some.inj h]
    simp only [dayNumber]
    omega
  case isFalse hd =>
  split at h
  case isTrue hm =>
    have hpred : daysBeforeMonth d.year (d.month - 1) = _ :=
      daysBeforeMonth_pred (Nat.le_sub_one_of_lt hm)
    rw [← Option.some.inj h]
    simp only [dayNumber, lastOfMonth]
    omega
  case isFalse hm =>
  split at h
  case isTrue hy =>
    have hmonth : d.month = 1 := by have := d.month_mem; omega
    have hlast : daysBeforeMonth (d.year - 1) 11 + daysInMonth (d.year - 1) 12 =
        daysInYear (d.year - 1) := daysBeforeMonth_twelve (d.year - 1)
    have hyear := daysBeforeYear_succ (d.year - 1)
    rw [Int.sub_add_cancel] at hyear
    have hdec : (lastOfMonth (d.year - 1) 12 (by have := d.year_mem; omega)
        (by decide)).dayNumber = daysBeforeYear (d.year - 1) +
        daysBeforeMonth (d.year - 1) 11 + (daysInMonth (d.year - 1) 12 - 1) := rfl
    have hjan : d.dayNumber = daysBeforeYear d.year + (d.day - 1) := by
      unfold dayNumber
      rw [hmonth]
      show _ + ((0 : Nat) : Int) + _ = _
      omega
    rw [← Option.some.inj h, hdec, hjan]
    omega
  case isFalse hy => cases h

theorem yesterday?_eq_none {d : Date} (h : d.yesterday? = none) : d = min := by
  have hday := d.day_pos
  have hmonth := d.month_mem
  have hyear := d.year_mem
  unfold yesterday? at h
  split at h
  case isTrue => cases h
  case isFalse hd =>
  split at h
  case isTrue => cases h
  case isFalse hm =>
  split at h
  case isTrue => cases h
  case isFalse hy =>
    obtain ⟨y, m, n, _, _, _⟩ := d
    dsimp only at *
    obtain rfl : y = -262143 := by unfold minYear at *; omega
    obtain rfl : m = 1 := by omega
    obtain rfl : n = 1 := by omega
    rfl

theorem min_dayNumber_le (d : Date) : min.dayNumber ≤ d.dayNumber := le_iff_dayNumber.1 d.min_le

theorem daysBack?_succ (d : Date) (n : Nat) :
    d.daysBack? (n + 1) = d.yesterday?.bind (·.daysBack? n) := rfl

theorem daysBack?_cases (d : Date) (n : Nat) :
    (∃ e, d.daysBack? n = some e ∧ e.dayNumber = d.dayNumber - n) ∨
      d.daysBack? n = none ∧ d.dayNumber - n < min.dayNumber := by
  induction n generalizing d with
  | zero => exact .inl ⟨d, rfl, by omega⟩
  | succ n ih =>
    rw [daysBack?_succ]
    cases hy : d.yesterday? with
    | none =>
      rw [yesterday?_eq_none hy]
      exact .inr ⟨rfl, by omega⟩
    | some e =>
      have he := dayNumber_yesterday hy
      rw [Option.bind_some]
      rcases ih e with ⟨x, hx, hnumber⟩ | ⟨hnone, hlt⟩
      · exact .inl ⟨x, hx, by omega⟩
      · exact .inr ⟨hnone, by omega⟩

/-- **Going back by days** subtracts from the day number. -/
theorem daysBack?_eq_some_iff {d e : Date} {n : Nat} :
    d.daysBack? n = some e ↔ e.daysUntil d = n := by
  have hmin := e.min_dayNumber_le
  unfold daysUntil
  rcases d.daysBack?_cases n with ⟨x, hx, hnumber⟩ | ⟨hnone, hlt⟩
  · rw [hx, Option.some.injEq]
    constructor
    · intro h
      rw [← h]
      omega
    · intro h
      exact dayNumber_inj (by omega)
  · rw [hnone]
    constructor
    · intro h
      cases h
    · intro h
      omega

/-- The first day of the month is reached, from whichever day of it. -/
theorem daysBack?_firstOfMonth (d : Date) : d.daysBack? (d.day - 1) = some d.firstOfMonth := by
  have hday := d.day_pos
  rw [daysBack?_eq_some_iff]
  simp only [daysUntil, dayNumber, firstOfMonth]
  omega

/-- Cut off at the first date, going back by days gives the first of the dates that are no more than
that many days earlier. -/
theorem daysBack?_getD_le_iff {d e : Date} {n : Nat} :
    (d.daysBack? n).getD min ≤ e ↔ e.daysUntil d ≤ n := by
  have hmin := e.min_dayNumber_le
  rw [le_iff_dayNumber, daysUntil]
  rcases d.daysBack?_cases n with ⟨x, hx, hnumber⟩ | ⟨hnone, hlt⟩
  · rw [hx, Option.getD_some]
    omega
  · rw [hnone, Option.getD_none]
    omega

/-! ## Whole months -/

theorem monthNumber_le {a b : Date} (h : a ≤ b) : a.monthNumber ≤ b.monthNumber := by
  have ha := a.month_mem
  have hb := b.month_mem
  rw [le_iff] at h
  unfold monthNumber
  omega

/-- A month begins not after the days of its own and of later months. -/
theorem le_iff_monthNumber {a d : Date} (h : a.day = 1) :
    a ≤ d ↔ a.monthNumber ≤ d.monthNumber := by
  have ha := a.month_mem
  have hd := d.month_mem
  have hday := d.day_pos
  rw [le_iff]
  unfold monthNumber
  omega

theorem firstOfMonth_le_iff {d e : Date} :
    d.firstOfMonth ≤ e ↔ d.monthNumber ≤ e.monthNumber :=
  le_iff_monthNumber rfl

/-- The days not after the last one before a month are those of earlier months. -/
theorem le_yesterday_iff {d e y : Date} (h : d.firstOfMonth.yesterday? = some y) :
    e ≤ y ↔ e.monthNumber < d.monthNumber := by
  have hy := dayNumber_yesterday h
  have hfirst := firstOfMonth_le_iff (d := d) (e := e)
  rw [le_iff_dayNumber] at hfirst ⊢
  omega

theorem ofParts?_eq_some {y : Int} {m n : Nat} {d : Date} (h : ofParts? y m n = some d) :
    d.year = y ∧ d.month = m ∧ d.day = n := by
  unfold ofParts? at h
  split at h
  case isTrue => rw [← Option.some.inj h]; exact ⟨rfl, rfl, rfl⟩
  case isFalse => cases h

/-- **Going back by months** subtracts from the month number and ends at the first of a month. -/
theorem monthsBack?_eq_some {d e : Date} {n : Nat} (h : d.monthsBack? n = some e) :
    e.monthNumber = d.monthNumber - n ∧ e.day = 1 := by
  unfold monthsBack? at h
  obtain ⟨hyear, hmonth, hday⟩ := ofParts?_eq_some h
  refine ⟨?_, hday⟩
  rw [monthNumber, hyear, hmonth]
  omega

theorem ofParts?_eq_none {y : Int} {m n : Nat} (h : ofParts? y m n = none) :
    ¬((minYear ≤ y ∧ y ≤ maxYear) ∧ (1 ≤ m ∧ m ≤ 12) ∧ (1 ≤ n ∧ n ≤ daysInMonth y m)) := by
  unfold ofParts? at h
  split at h
  case isTrue => cases h
  case isFalse hnot => exact hnot

/-- Only months before the first one are not reached. -/
theorem monthsBack?_eq_none {d : Date} {n : Nat} (h : d.monthsBack? n = none) :
    d.monthNumber - n < min.monthNumber := by
  have hyear := d.year_mem
  have hmonth := d.month_mem
  have hmin : min.monthNumber = 12 * minYear := rfl
  have hnot := ofParts?_eq_none h
  have hpos := daysInMonth_pos ((d.monthNumber - n) / 12) (((d.monthNumber - n) % 12).toNat + 1)
  rw [hmin]
  apply Int.not_le.1
  intro hle
  apply hnot
  have hself : d.monthNumber = 12 * d.year + (d.month - 1) := rfl
  exact ⟨⟨by omega, by omega⟩, ⟨by omega, by omega⟩, Nat.le_refl _, hpos⟩

end Date

namespace DateRange

theorem contains_iff {r : DateRange} {d : Date} :
    r.contains d ↔ r.start ≤ d ∧ d ≤ r.finish := by
  rw [contains, Bool.and_eq_true, decide_eq_true_eq, decide_eq_true_eq]

end DateRange
end CustomsClaims
