import CustomsClaims.Calendar.Text
import CustomsClaims.Proofs.Number.Decimal

/-!
# Written dates are read

`Date.ofText?_text`: every date is read back from its text, whether its year has four digits or a
sign. The text is a year, a month and a day between hyphens, each of them a list of digits that ends
where no digit follows, which is all that `Date.readNumber` needs.
-/

namespace CustomsClaims

theorem isDigit_eq (c : Char) : isDigit c = c.isDigit := rfl

theorem isBlank_of_isDigit {c : Char} (h : isDigit c) : isBlank c = false := by
  simp only [isDigit, Bool.and_eq_true, decide_eq_true_eq, Char.le_def, UInt32.le_iff_toNat_le] at h
  have hn : c.toNat = c.val.toNat := rfl
  simp only [isBlank, hn, Bool.or_eq_false_iff, Bool.and_eq_false_iff, decide_eq_false_iff_not]
  have h0 : ('0' : Char).val.toNat = 48 := rfl
  have h9 : ('9' : Char).val.toNat = 57 := rfl
  omega

theorem trimStart_cons {c : Char} (h : isBlank c = false) (cs : List Char) :
    trimStart (c :: cs) = c :: cs := by
  rw [trimStart, List.dropWhile_cons_of_neg (by simp [h])]

namespace Date

/-! ## Digits -/

theorem toList_padded (width n : Nat) : (padded width n).toList =
    List.replicate (width - (Nat.toDigits 10 n).length) '0' ++ Nat.toDigits 10 n := by
  simp [padded]

theorem number_padded (width n : Nat) : number (padded width n).toList = n := by
  have hzeros (k : Nat) : Nat.ofDigitChars 10 (List.replicate k '0') 0 = 0 := by
    induction k with
    | zero => simp
    | succ k ih => rw [List.replicate_succ, Nat.ofDigitChars_cons]; exact ih
  rw [number_eq, toList_padded, Nat.ofDigitChars_append, hzeros, Nat.ofDigitChars_ten_toDigits]

theorem isDigit_padded (width n : Nat) : ∀ c ∈ (padded width n).toList, isDigit c := by
  intro c hc
  rw [toList_padded, List.mem_append] at hc
  rcases hc with hc | hc
  · rw [List.eq_of_mem_replicate hc]
    decide
  · exact (isDigit_eq c).trans (Nat.isDigit_of_mem_toDigits (by decide) (by decide) hc)

theorem padded_ne_nil (width n : Nat) : (padded width n).toList ≠ [] := by
  rw [toList_padded]
  exact List.append_ne_nil_of_right_ne_nil _ Nat.toDigits_ne_nil

theorem length_padded {width n : Nat} (hw : 0 < width) (h : n < 10 ^ width) :
    (padded width n).toList.length ≤ width := by
  have hlen := (Nat.length_toDigits_le_iff (b := 10) (by decide) hw).2 h
  simp only [toList_padded, List.length_append, List.length_replicate]
  omega

/-! ## Numbers -/

section
variable {ds rest : List Char} (hds : ∀ c ∈ ds, isDigit c)
  (hrest : ∀ c ∈ rest.head?, isDigit c = false) (hne : ds ≠ [])
include hds

theorem trimStart_digits (rest : List Char) (hne : ds ≠ []) :
    trimStart (ds ++ rest) = ds ++ rest := by
  obtain ⟨c, cs, rfl⟩ := List.exists_cons_of_ne_nil hne
  exact trimStart_cons (isBlank_of_isDigit (hds c (by simp))) _

include hrest

theorem takeWhile_isDigit : (ds ++ rest).takeWhile isDigit = ds := by
  rw [List.takeWhile_append_of_pos hds]
  cases rest with
  | nil => simp
  | cons c cs =>
    have hc : isDigit c = false := hrest c rfl
    simp [hc]

include hne

/-- A number is read up to where no digit follows. -/
theorem readNumber_digits {most : Option Nat} (hmost : ∀ k ∈ most, ds.length ≤ k) :
    readNumber most (ds ++ rest) = .ok (number ds, rest) := by
  obtain ⟨c, cs, rfl⟩ := List.exists_cons_of_ne_nil hne
  unfold readNumber
  rw [takeWhile_isDigit hds hrest]
  cases most with
  | none => simp
  | some k =>
    simp only [List.take_of_length_le (hmost k rfl)]
    simp

end

theorem readHyphen_cons (rest : List Char) : readHyphen ('-' :: rest) = .ok rest := by
  rw [readHyphen, trimStart_cons (by decide)]
  rfl

theorem head?_hyphen (rest : List Char) : ∀ c ∈ ('-' :: rest).head?, isDigit c = false := by
  simp
  decide

/-! ## Parts of a date -/

theorem readPart_padded {n most : Nat} (h : 1 ≤ n ∧ n ≤ most) (hn : n < 100) {rest : List Char}
    (hrest : ∀ c ∈ rest.head?, isDigit c = false) :
    readPart most ((padded 2 n).toList ++ rest) = .ok (n, rest) := by
  have hne := padded_ne_nil 2 n
  have hds := isDigit_padded 2 n
  have hlen : ∀ k ∈ some 2, (padded 2 n).toList.length ≤ k := by
    rintro k ⟨rfl⟩
    exact length_padded (by decide) hn
  simp only [readPart, trimStart_digits hds rest hne, readNumber_digits hds hrest hne hlen,
    number_padded, bind, Except.bind, if_pos h]
  rfl

theorem readYear_digits {n : Nat} (h : n ≤ 9999) {rest : List Char}
    (hrest : ∀ c ∈ rest.head?, isDigit c = false) :
    readYear ((padded 4 n).toList ++ rest) = .ok (n, rest) := by
  have hne := padded_ne_nil 4 n
  have hds := isDigit_padded 4 n
  have hlen : ∀ k ∈ some 4, (padded 4 n).toList.length ≤ k := by
    rintro k ⟨rfl⟩
    exact length_padded (by decide) (by omega)
  have hread : readNumber (some 4) ((padded 4 n).toList ++ rest) = pure (n, rest) := by
    rw [readNumber_digits hds hrest hne hlen, number_padded]
    rfl
  have htrim := trimStart_digits hds rest hne
  have hlimit : -2 ^ 31 ≤ (n : Int) ∧ (n : Int) < 2 ^ 31 := by omega
  obtain ⟨c, cs, hcs⟩ := List.exists_cons_of_ne_nil hne
  have hc := hds c (by simp [hcs])
  rw [hcs, List.cons_append] at hread htrim ⊢
  unfold readYear
  rw [htrim]
  split
  case h_1 heq =>
    obtain rfl : c = '-' := (List.cons.inj heq).1
    exact absurd hc (by decide)
  case h_2 heq =>
    obtain rfl : c = '+' := (List.cons.inj heq).1
    exact absurd hc (by decide)
  case h_3 =>
    rw [hread, pure_bind]
    exact (pure_bind _ _).trans (if_pos hlimit)

theorem readYear_signed {n : Nat} (h : n < 2 ^ 31) {rest : List Char}
    (hrest : ∀ c ∈ rest.head?, isDigit c = false) :
    readYear ('-' :: ((padded 4 n).toList ++ rest)) = .ok (-n, rest) ∧
      readYear ('+' :: ((padded 4 n).toList ++ rest)) = .ok (n, rest) := by
  have hread : readNumber none ((padded 4 n).toList ++ rest) = pure (n, rest) := by
    rw [readNumber_digits (isDigit_padded 4 n) hrest (padded_ne_nil 4 n) (by simp), number_padded]
    rfl
  have hminus : -2 ^ 31 ≤ -(n : Int) ∧ -(n : Int) < 2 ^ 31 := by omega
  have hplus : -2 ^ 31 ≤ (n : Int) ∧ (n : Int) < 2 ^ 31 := by omega
  constructor
  · unfold readYear
    rw [trimStart_cons (by decide)]
    split
    case h_1 cs heq =>
      obtain rfl : (padded 4 n).toList ++ rest = cs := (List.cons.inj heq).2
      rw [hread, pure_bind]
      exact (pure_bind _ _).trans (if_pos hminus)
    case h_2 heq => exact absurd (List.cons.inj heq).1 (by decide)
    case h_3 hother _ => exact (hother _ rfl).elim
  · unfold readYear
    rw [trimStart_cons (by decide)]
    split
    case h_1 heq => exact absurd (List.cons.inj heq).1 (by decide)
    case h_2 cs heq =>
      obtain rfl : (padded 4 n).toList ++ rest = cs := (List.cons.inj heq).2
      rw [hread, pure_bind]
      exact (pure_bind _ _).trans (if_pos hplus)
    case h_3 hother => exact (hother _ rfl).elim

theorem readYear_yearText {year : Int} (h : minYear ≤ year ∧ year ≤ maxYear) {rest : List Char}
    (hrest : ∀ c ∈ rest.head?, isDigit c = false) :
    readYear ((yearText year).toList ++ rest) = .ok (year, rest) := by
  have hlimit : year.natAbs < 2 ^ 31 := by
    simp only [minYear, maxYear] at h
    omega
  cases year with
  | ofNat n =>
    by_cases hn : n ≤ 9999
    · rw [yearText, if_pos hn]
      exact readYear_digits hn hrest
    · rw [yearText, if_neg hn]
      rw [String.toList_append, List.append_assoc]
      exact (readYear_signed hlimit hrest).2
  | negSucc n =>
    rw [yearText, String.toList_append, List.append_assoc]
    exact (readYear_signed hlimit hrest).1

/-- **A written date is read back.** -/
theorem ofText?_text (d : Date) : ofText? d.text = .ok d := by
  have htext : d.text.toList = (yearText d.year).toList ++ '-' :: ((padded 2 d.month).toList ++
      '-' :: ((padded 2 d.day).toList ++ [])) := by
    simp [text]
  have hmonth := d.month_mem
  have hday : 1 ≤ d.day ∧ d.day ≤ 31 := by
    have hd := d.day_mem
    have hdays : daysInMonth d.year d.month ≤ 31 := by
      unfold daysInMonth
      repeat' split
      all_goals decide
    omega
  have hparts : ofParts? d.year d.month d.day = some d := by
    rw [ofParts?, dif_pos ⟨d.year_mem, d.month_mem, d.day_mem⟩]
  have hend : ∀ c ∈ ([] : List Char).head?, isDigit c = false := by simp
  rw [ofText?, htext]
  simp only [readYear_yearText d.year_mem (head?_hyphen _), readHyphen_cons,
    readPart_padded hmonth (by omega) (head?_hyphen _),
    readPart_padded hday (by omega) hend, hparts, bind, Except.bind]
  rfl

end Date
end CustomsClaims
