import UserDirectory.Time.Date

/-!
# Days and their dates

Every day number, before or after year zero, is that of its date, and this date exists
(`Date.dayNumber_ofDayNumber`, `Date.isValid_ofDayNumber`). The year of a day is estimated
from the mean length of a year. As the first days of the years stray from the estimate by
less than a year, it is off by one at most, so that the correction by one year puts the day
between the first of January of its year and that of the next
(`daysBeforeYear_yearOfDay_le`). Walking the months then comes to an end within the year,
because its months are together as long as the year.
-/

namespace UserDirectory

/-! ## Years -/

/-- The length of a year. -/
def yearLength (year : Int) : Nat := if isLeapYear year then 366 else 365

theorem isLeapYear_iff (year : Int) :
    isLeapYear year = true ↔ year % 4 = 0 ∧ (year % 100 ≠ 0 ∨ year % 400 = 0) := by
  simp [isLeapYear]

/-- **The next year begins a year later.** -/
theorem daysBeforeYear_succ (year : Int) :
    daysBeforeYear (year + 1) = daysBeforeYear year + yearLength year := by
  -- each of the quotients goes up by one at the multiples of its divisor
  have hfour : (year + 1 + 3) / 4 = (year + 3) / 4 + if year % 4 = 0 then 1 else 0 := by omega
  have hhundred : (year + 1 + 99) / 100 = (year + 99) / 100 + if year % 100 = 0 then 1 else 0 := by
    omega
  have hfour_hundred :
      (year + 1 + 399) / 400 = (year + 399) / 400 + if year % 400 = 0 then 1 else 0 := by omega
  unfold daysBeforeYear yearLength
  rw [hfour, hhundred, hfour_hundred]
  clear hfour hhundred hfour_hundred
  by_cases h : year % 4 = 0 ∧ (year % 100 ≠ 0 ∨ year % 400 = 0)
  · rw [if_pos ((isLeapYear_iff year).2 h)]
    omega
  · rw [if_neg (fun hleap => h ((isLeapYear_iff year).1 hleap))]
    omega

/-- The estimate is a year too late at most. -/
theorem daysBeforeYear_estimate_le (day : Int) :
    daysBeforeYear (400 * day / 146097 - 1) ≤ day := by
  unfold daysBeforeYear
  omega

/-- The estimate is a year too early at most. -/
theorem lt_daysBeforeYear_estimate (day : Int) :
    day < daysBeforeYear (400 * day / 146097 + 1 + 1) := by
  unfold daysBeforeYear
  omega

/-- **A day lies between the beginning of its year and that of the next.** -/
theorem daysBeforeYear_yearOfDay (day : Int) :
    daysBeforeYear (yearOfDay day) ≤ day ∧ day < daysBeforeYear (yearOfDay day + 1) := by
  have hlow := daysBeforeYear_estimate_le day
  have hhigh := lt_daysBeforeYear_estimate day
  unfold yearOfDay
  generalize 400 * day / 146097 = estimate at hlow hhigh
  dsimp only
  split
  · next hlt => exact ⟨hlow, by rwa [Int.sub_add_cancel]⟩
  · next hle =>
    split
    · next hnext => exact ⟨hnext, hhigh⟩
    · next hlt => exact ⟨Int.not_lt.1 hle, Int.not_le.1 hlt⟩

/-! ## Months -/

/-- The days of some months together. -/
def totalDays (lengths : List Nat) : Nat := lengths.foldl (· + ·) 0

theorem totalDays_cons (length : Nat) (rest : List Nat) :
    totalDays (length :: rest) = length + totalDays rest := by
  have hstart : rest.foldl (· + ·) (length + 0) = length + rest.foldl (· + ·) 0 :=
    List.foldl_assoc
  rw [totalDays, totalDays, List.foldl_cons, Nat.add_comm 0 length, hstart]

/-- The months of a year are as long as the year. -/
theorem totalDays_monthLengths (year : Int) : totalDays (monthLengths year) = yearLength year := by
  unfold monthLengths yearLength
  split <;> rfl

/-- **Walking the months** stops at the one that the day falls in. -/
theorem exists_of_monthOfDay {lengths : List Nat} (month : Nat) {day : Nat}
    (h : day < totalDays lengths) : ∃ before length after, lengths = before ++ length :: after ∧
      totalDays before ≤ day ∧ day < totalDays before + length ∧
      monthOfDay lengths month day = (before.length + month, day - totalDays before + 1) := by
  induction lengths generalizing month day with
  | nil => exact absurd h (Nat.not_lt_zero _)
  | cons length rest ih =>
    rw [totalDays_cons] at h
    rw [monthOfDay]
    split
    · next hday =>
      have hnone : totalDays [] = 0 := rfl
      refine ⟨[], length, rest, rfl, Nat.zero_le _, ?_, ?_⟩
      · rwa [hnone, Nat.zero_add]
      · rw [List.length_nil, hnone, Nat.zero_add, Nat.sub_zero]
    · next hday =>
      have hrest : day - length < totalDays rest := by omega
      obtain ⟨before, next, after, rfl, hle, hlt, heq⟩ := ih (month + 1) hrest
      have hcons := totalDays_cons length before
      refine ⟨length :: before, next, after, rfl, by omega, by omega, ?_⟩
      rw [heq, List.length_cons, hcons, Nat.sub_sub, Nat.add_assoc, Nat.add_comm 1 month]

namespace Date

/-- **The date of a day**, as the months before its own and the days before it. -/
theorem exists_of_ofDayNumber (day : Int) : ∃ before length after dayOfMonth,
    monthLengths (yearOfDay day) = before ++ length :: after ∧ dayOfMonth < length ∧
      (totalDays before + dayOfMonth : Nat) = day - daysBeforeYear (yearOfDay day) ∧
      ofDayNumber day = ⟨yearOfDay day, before.length + 1, dayOfMonth + 1⟩ := by
  obtain ⟨hle, hlt⟩ := daysBeforeYear_yearOfDay day
  rw [daysBeforeYear_succ] at hlt
  obtain ⟨inYear, hinYear⟩ := Int.eq_ofNat_of_zero_le (Int.sub_nonneg_of_le hle)
  have htotal : inYear < totalDays (monthLengths (yearOfDay day)) := by
    rw [totalDays_monthLengths]
    omega
  obtain ⟨before, length, after, hlengths, hbefore, hlength, hmonth⟩ :=
    exists_of_monthOfDay 1 htotal
  refine ⟨before, length, after, inYear - totalDays before, hlengths, by omega, by omega, ?_⟩
  unfold ofDayNumber
  dsimp only
  rw [hinYear, Int.toNat_natCast, hmonth]

/-- **The date of a day exists.** -/
theorem isValid_ofDayNumber (day : Int) : (ofDayNumber day).isValid = true := by
  obtain ⟨before, length, after, dayOfMonth, hlengths, hlt, -, heq⟩ := exists_of_ofDayNumber day
  have hlength : (monthLengths (yearOfDay day))[before.length]? = some length := by
    rw [hlengths, List.getElem?_append_right (Nat.le_refl _), Nat.sub_self]
    rfl
  rw [heq, isValid]
  dsimp only
  rw [hlength, Bool.and_eq_true, decide_eq_true_eq, decide_eq_true_eq]
  exact ⟨Nat.le_add_left 1 dayOfMonth, hlt⟩

/-- **A day is the day of its date.** -/
theorem dayNumber_ofDayNumber (day : Int) : (ofDayNumber day).dayNumber = day := by
  obtain ⟨before, length, after, dayOfMonth, hlengths, -, hsum, heq⟩ := exists_of_ofDayNumber day
  have hbefore : ((monthLengths (yearOfDay day)).take before.length).foldl (· + ·) 0 =
      totalDays before := by
    rw [hlengths, List.take_left]
    rfl
  rw [heq, dayNumber]
  dsimp only
  rw [Nat.add_sub_cancel, hbefore]
  omega

/-- Months and days have two digits at most. -/
theorem lt_hundred_of_isValid {d : Date} (h : d.isValid = true) : d.month < 100 ∧ d.day < 100 := by
  obtain ⟨year, month, day⟩ := d
  cases month with
  | zero => exact absurd h Bool.false_ne_true
  | succ m =>
    unfold isValid at h
    dsimp only at h ⊢
    split at h
    · exact absurd h Bool.false_ne_true
    · next length hlength =>
      have hmonth : m < 12 := (List.getElem?_eq_some_iff.1 hlength).1
      have hlengths : ∀ l ∈ monthLengths year, l ≤ 31 := by
        unfold monthLengths
        split <;> decide
      have hday := hlengths length (List.mem_of_getElem? hlength)
      rw [Bool.and_eq_true, decide_eq_true_eq, decide_eq_true_eq] at h
      omega

end Date

end UserDirectory
