import Mathlib.Algebra.Ring.Nat
import SiteAtlas.Time.Calendar

/-!
# Days and dates

The calendar is a bijection: every day has exactly one date, whose month and day are in the
calendar, and the date's number is the day again. This holds for all years, before the year zero as
well.
-/
namespace SiteAtlas.Time

theorem isLeap_iff (year : Int) :
    isLeap year = true ↔ year % 4 = 0 ∧ (year % 100 ≠ 0 ∨ year % 400 = 0) := by
  simp [isLeap]

/-- Four hundred years have 146097 days, and no year strays far from their mean. -/
theorem daysBeforeYear_bounds (year : Int) :
    146097 * year - 396 ≤ 400 * daysBeforeYear year ∧
      400 * daysBeforeYear year ≤ 146097 * year + 699 := by
  unfold daysBeforeYear
  omega

theorem daysBeforeYear_mono {y z : Int} (h : y ≤ z) : daysBeforeYear y ≤ daysBeforeYear z := by
  unfold daysBeforeYear
  omega

/-- A year has as many days as its months have together. -/
theorem daysBeforeYear_succ (year : Int) :
    daysBeforeYear (year + 1) = daysBeforeYear year + ((monthLengths (isLeap year)).sum : Nat) := by
  have hsum : (monthLengths (isLeap year)).sum = if isLeap year = true then 366 else 365 := by
    cases isLeap year <;> rfl
  rw [hsum]
  simp only [daysBeforeYear, isLeap_iff]
  split <;> omega

/-- The year that is found for a day holds the day: the guess is off by one at most. -/
theorem yearOfDay_spec (n : Int) :
    daysBeforeYear (yearOfDay n) ≤ n ∧ n < daysBeforeYear (yearOfDay n + 1) := by
  have hguess : 146097 * (n * 400 / 146097) ≤ n * 400 ∧
      n * 400 < 146097 * (n * 400 / 146097 + 1) := by omega
  have hbefore := daysBeforeYear_bounds (n * 400 / 146097 - 1)
  have hafter := daysBeforeYear_bounds (n * 400 / 146097 + 1 + 1)
  simp only [yearOfDay]
  generalize n * 400 / 146097 = guess at *
  split
  · rw [Int.sub_add_cancel]
    omega
  · split <;> omega

/-- No other year holds the day. -/
theorem yearOfDay_eq {n year : Int} (hfirst : daysBeforeYear year ≤ n)
    (hlast : n < daysBeforeYear (year + 1)) : yearOfDay n = year := by
  obtain ⟨hfound, hbefore⟩ := yearOfDay_spec n
  rcases Int.lt_trichotomy (yearOfDay n) year with hlt | heq | hgt
  · have := daysBeforeYear_mono (y := yearOfDay n + 1) (z := year) hlt
    omega
  · exact heq
  · have := daysBeforeYear_mono (y := year + 1) (z := yearOfDay n) hgt
    omega

/-- A day lies in a year or behind it if the year has begun. -/
theorem le_yearOfDay_iff {year n : Int} : year ≤ yearOfDay n ↔ daysBeforeYear year ≤ n := by
  obtain ⟨hfirst, hlast⟩ := yearOfDay_spec n
  constructor
  · intro h
    exact Int.le_trans (daysBeforeYear_mono h) hfirst
  · intro h
    rcases Int.lt_or_le (yearOfDay n) year with hlt | hle
    · have := daysBeforeYear_mono (y := yearOfDay n + 1) (z := year) hlt
      omega
    · exact hle

theorem daysBeforeMonth_succ (leap : Bool) (month : Nat) :
    daysBeforeMonth leap (month + 1) = ((monthLengths leap).take month).sum := by
  simp [daysBeforeMonth, List.sum_eq_foldl]

/-- No month is longer than 31 days. -/
theorem monthLengths_getD_le (leap : Bool) (month : Nat) :
    (monthLengths leap).getD month 0 ≤ 31 := by
  have hall : ∀ length ∈ monthLengths leap, length ≤ 31 := by
    cases leap <;> decide
  rw [List.getD_eq_getElem?_getD]
  cases h : (monthLengths leap)[month]? with
  | none => exact Nat.zero_le 31
  | some length => exact hall length (List.mem_of_getElem? h)

/-- A day of the year falls into a month, and as many days lie before it as the year's days say. -/
theorem splitMonths_spec (lengths : List Nat) {n : Nat} (h : n < lengths.sum) :
    (splitMonths lengths n).1 < lengths.length ∧
      (splitMonths lengths n).2 < lengths.getD (splitMonths lengths n).1 0 ∧
      (lengths.take (splitMonths lengths n).1).sum + (splitMonths lengths n).2 = n := by
  induction lengths generalizing n with
  | nil => simp at h
  | cons length rest ih =>
    by_cases hn : n < length
    · simp [splitMonths, hn]
    · have hrest : n - length < rest.sum := by
        rw [List.sum_cons] at h
        omega
      obtain ⟨hmonth, hday, hsum⟩ := ih hrest
      simp only [splitMonths, if_neg hn, List.length_cons, List.getD_cons_succ,
        List.take_succ_cons, List.sum_cons]
      exact ⟨by omega, hday, by omega⟩

/-- The day of a month is a day of the year. -/
theorem sum_take_add_lt {lengths : List Nat} {month day : Nat}
    (h : day < lengths.getD month 0) : (lengths.take month).sum + day < lengths.sum := by
  induction lengths generalizing month with
  | nil => simp at h
  | cons length rest ih =>
    cases month with
    | zero =>
      have hday : day < length := by simpa using h
      simp only [List.take_zero, List.sum_nil, List.sum_cons]
      omega
    | succ month =>
      rw [List.getD_cons_succ] at h
      have hrest := ih h
      simp only [List.take_succ_cons, List.sum_cons]
      omega

/-- The day of a month is found in its month. -/
theorem splitMonths_sum_take {lengths : List Nat} {month day : Nat}
    (h : day < lengths.getD month 0) :
    splitMonths lengths ((lengths.take month).sum + day) = (month, day) := by
  induction lengths generalizing month with
  | nil => simp at h
  | cons length rest ih =>
    cases month with
    | zero =>
      have hday : day < length := by simpa using h
      simp [splitMonths, hday]
    | succ month =>
      rw [List.getD_cons_succ] at h
      have hlate : ¬ length + (rest.take month).sum + day < length := by omega
      have hsub : length + (rest.take month).sum + day - length = (rest.take month).sum + day := by
        omega
      simp only [splitMonths, List.take_succ_cons, List.sum_cons, if_neg hlate, hsub, ih h]

namespace Date

/-- What the date of a day is made of: its year, and a place among the months of this year. -/
theorem ofDays_spec (days : Int) :
    ∃ month day : Nat, ofDays days = ⟨yearOfDay (days + epochDay), month + 1, day + 1⟩ ∧
      month < 12 ∧ day < (monthLengths (isLeap (yearOfDay (days + epochDay)))).getD month 0 ∧
      daysBeforeYear (yearOfDay (days + epochDay)) +
        (((monthLengths (isLeap (yearOfDay (days + epochDay)))).take month).sum + day : Nat) =
          days + epochDay := by
  obtain ⟨hfirst, hlast⟩ := yearOfDay_spec (days + epochDay)
  simp only [ofDays]
  generalize yearOfDay (days + epochDay) = year at *
  rw [daysBeforeYear_succ] at hlast
  obtain ⟨hmonth, hday, hsum⟩ := splitMonths_spec (monthLengths (isLeap year))
    (n := (days + epochDay - daysBeforeYear year).toNat) (by omega)
  exact ⟨_, _, rfl, hmonth, hday, by omega⟩

theorem le_year_ofDays_iff {year days : Int} :
    year ≤ (ofDays days).year ↔ daysBeforeYear year ≤ days + epochDay :=
  le_yearOfDay_iff

theorem valid_ofDays (days : Int) : (ofDays days).Valid := by
  obtain ⟨month, day, heq, hmonth, hday, -⟩ := ofDays_spec days
  rw [heq]
  exact ⟨Nat.le_add_left 1 month, hmonth, Nat.le_add_left 1 day, hday⟩

/-- Counting the days up to the date of a day gives the day. -/
theorem toDays_ofDays (days : Int) : (ofDays days).toDays = days := by
  obtain ⟨month, day, heq, -, -, hsum⟩ := ofDays_spec days
  rw [heq]
  simp only [toDays, daysBeforeMonth_succ]
  omega

/-- A date of the calendar is the date of its day. -/
theorem ofDays_toDays {d : Date} (h : d.Valid) : ofDays d.toDays = d := by
  obtain ⟨year, month, day⟩ := d
  obtain ⟨hmonth, -, hday, hlength⟩ := h
  obtain ⟨month, rfl⟩ := Nat.exists_eq_add_of_le' hmonth
  obtain ⟨day, rfl⟩ := Nat.exists_eq_add_of_le' hday
  have hlength : day < (monthLengths (isLeap year)).getD month 0 := hlength
  -- the day of the year, counted from zero
  obtain ⟨n, hn⟩ : ∃ n, n = ((monthLengths (isLeap year)).take month).sum + day := ⟨_, rfl⟩
  have hdays : (Date.mk year (month + 1) (day + 1)).toDays + epochDay =
      daysBeforeYear year + n := by
    simp only [toDays, daysBeforeMonth_succ, hn]
    omega
  have hyear : yearOfDay (daysBeforeYear year + n) = year := by
    have hlt : n < (monthLengths (isLeap year)).sum := hn ▸ sum_take_add_lt hlength
    apply yearOfDay_eq
    · omega
    · rw [daysBeforeYear_succ]
      omega
  have hrest : (daysBeforeYear year + n - daysBeforeYear year).toNat = n := by omega
  have hsplit : splitMonths (monthLengths (isLeap year)) n = (month, day) :=
    hn ▸ splitMonths_sum_take hlength
  simp only [ofDays, hdays, hyear, hrest, hsplit]

end Date

end SiteAtlas.Time
