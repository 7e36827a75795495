import Mathlib.Algebra.BigOperators.Group.List.Basic
import Mathlib.Logic.Function.Iterate
import IBoxClient.Rtc

/- `RTC_SecondToDateTime` and the calendar.

   The calendar is a day and the day after it (`GregorianDay.next`), so the date `n` days
   after 1970-01-01 is the `n`-th iterate. `number` counts the days and goes up by one with
   each (`number_next`), which ties the iterate to the sums of lengths that the two loops
   take away.

   Both loops stop a day too late: a count of days that is a whole number of years, or
   of months, is left in the year, or the month, before. So the first day of a month
   comes out as the day after the last one of the month before, and every other day is
   right: `second_to_dateTime_iff`. -/
namespace IBoxClient

/-! ## The calendar -/

/-- A day of the Gregorian calendar. -/
structure GregorianDay where
  year : Nat
  month : Nat
  day : Nat
  month_pos : 1 ≤ month
  month_le : month ≤ 12
  day_pos : 1 ≤ day
  day_le : day ≤ daysInMonth year month

theorem daysInMonth_pos (year month : Nat) : 1 ≤ daysInMonth year month := by
  unfold daysInMonth
  split
  · split <;> decide
  · split <;> decide

namespace GregorianDay

/-- 1970-01-01. -/
def epoch : GregorianDay := ⟨1970, 1, 1, by decide, by decide, by decide, by decide⟩

/-- The day after. -/
def next (d : GregorianDay) : GregorianDay :=
  if hday : d.day < daysInMonth d.year d.month then
    { d with day := d.day + 1, day_pos := Nat.succ_pos _, day_le := hday }
  else if hmonth : d.month < 12 then
    { d with
      month := d.month + 1
      day := 1
      month_pos := Nat.succ_pos _
      month_le := hmonth
      day_pos := Nat.le_refl 1
      day_le := daysInMonth_pos _ _ }
  else ⟨d.year + 1, 1, 1, by decide, by decide, by decide, daysInMonth_pos _ _⟩

end GregorianDay

/-- The date `n` days after 1970-01-01. -/
def utcDay (n : Nat) : GregorianDay := GregorianDay.next^[n] .epoch

/-- The structure holds the date and time of the calendar `s` seconds after 1970-01-01. -/
structure IsUtc (s : Nat) (d : RtcDateTime) : Prop where
  month_range : 1 ≤ d.month.toNat ∧ d.month.toNat ≤ 12
  day_range : 1 ≤ d.day.toNat ∧ d.day.toNat ≤ daysInMonth d.year.toNat d.month.toNat
  year : d.year.toNat = (utcDay (s / 86400)).year
  month : d.month.toNat = (utcDay (s / 86400)).month
  day : d.day.toNat = (utcDay (s / 86400)).day
  hour : d.hour.toNat = s % 86400 / 3600
  minute : d.minute.toNat = s % 3600 / 60
  second : d.second.toNat = s % 60

/-! ## Counting days -/

/-- The lengths of the months of a year. -/
def monthLengths (leap : Bool) : List Nat :=
  [31, if leap then 29 else 28, 31, 30, 31, 30, 31, 31, 30, 31, 30, 31]

def yearLength (year : Nat) : Nat := if isLeapYear year then 366 else 365

/-- The days of `years` years from `year` on. -/
def daysOfYears (year : Nat) : Nat → Nat
  | 0 => 0
  | years + 1 => yearLength year + daysOfYears (year + 1) years

/-- The days of a year before a month. -/
def daysBefore (year month : Nat) : Nat := ((monthLengths (isLeapYear year)).take (month - 1)).sum

theorem daysOfYears_succ (year years : Nat) :
    daysOfYears year (years + 1) = daysOfYears year years + yearLength (year + years) := by
  induction years generalizing year with
  | zero => rw [daysOfYears, daysOfYears, daysOfYears, Nat.add_comm, Nat.add_zero]
  | succ years ih =>
    calc daysOfYears year (years + 1 + 1)
        = yearLength year + daysOfYears (year + 1) (years + 1) := rfl
      _ = yearLength year + (daysOfYears (year + 1) years + yearLength (year + 1 + years)) := by
          rw [ih]
      _ = daysOfYears year (years + 1) + yearLength (year + (years + 1)) := by
          rw [daysOfYears, Nat.add_assoc, Nat.add_assoc, Nat.add_comm 1 years]

theorem yearLength_ge (year : Nat) : 365 ≤ yearLength year := by
  unfold yearLength
  split <;> decide

theorem le_daysOfYears (year years : Nat) : 365 * years ≤ daysOfYears year years := by
  induction years generalizing year with
  | zero => exact Nat.le_refl 0
  | succ years ih =>
    have hlength := yearLength_ge year
    have hrest := ih (year + 1)
    rw [daysOfYears]
    omega

theorem getElem_monthLengths (year : Nat) {month : Nat} (hpos : 1 ≤ month) (hle : month ≤ 12) :
    (monthLengths (isLeapYear year))[month - 1]? = some (daysInMonth year month) := by
  have hall : ∀ leap : Bool, ∀ m < 13, 1 ≤ m → (monthLengths leap)[m - 1]? =
      some (if m = 2 then if leap then 29 else 28
        else if m = 4 ∨ m = 6 ∨ m = 9 ∨ m = 11 then 30 else 31) := by decide
  exact hall (isLeapYear year) month (Nat.lt_succ_of_le hle) hpos

theorem daysBefore_succ (year : Nat) {month : Nat} (hpos : 1 ≤ month) (hle : month ≤ 12) :
    daysBefore year (month + 1) = daysBefore year month + daysInMonth year month := by
  have hget := getElem_monthLengths year hpos hle
  obtain ⟨m, rfl⟩ : ∃ m, month = m + 1 := ⟨month - 1, by omega⟩
  rw [Nat.add_sub_cancel] at hget
  calc daysBefore year (m + 1 + 1)
      = ((monthLengths (isLeapYear year)).take (m + 1)).sum := rfl
    _ = ((monthLengths (isLeapYear year)).take m ++ [daysInMonth year (m + 1)]).sum := by
        rw [List.take_add_one, hget, Option.toList_some]
    _ = daysBefore year (m + 1) + daysInMonth year (m + 1) := by
        rw [List.sum_append, List.sum_singleton]
        rfl

theorem daysBefore_le (year : Nat) {month : Nat} (hle : month ≤ 13) :
    daysBefore year month ≤ yearLength year := by
  have hall : ∀ leap : Bool, ∀ m < 14, ((monthLengths leap).take (m - 1)).sum ≤
      if leap then 366 else 365 := by decide
  exact hall (isLeapYear year) month (Nat.lt_succ_of_le hle)

theorem daysBefore_end (year : Nat) : daysBefore year 13 = yearLength year := by
  unfold daysBefore yearLength
  cases isLeapYear year <;> decide

namespace GregorianDay

/-- The days from 1970-01-01 on. -/
def number (d : GregorianDay) : Nat :=
  daysOfYears 1970 (d.year - 1970) + daysBefore d.year d.month + (d.day - 1)

theorem number_next {d : GregorianDay} (hyear : 1970 ≤ d.year) :
    d.next.number = d.number + 1 ∧ 1970 ≤ d.next.year := by
  have hday := d.day_pos
  unfold next
  by_cases hlast : d.day < daysInMonth d.year d.month
  · rw [dif_pos hlast]
    refine ⟨?_, hyear⟩
    simp only [number]
    omega
  · have hend : d.day = daysInMonth d.year d.month := Nat.le_antisymm d.day_le (Nat.not_lt.mp hlast)
    have hmonths := daysBefore_succ d.year d.month_pos d.month_le
    rw [dif_neg hlast]
    by_cases hmonth : d.month < 12
    · rw [dif_pos hmonth]
      refine ⟨?_, hyear⟩
      simp only [number]
      omega
    · rw [dif_neg hmonth]
      refine ⟨?_, Nat.le_succ_of_le hyear⟩
      have hdec : d.month = 12 := Nat.le_antisymm d.month_le (Nat.not_lt.mp hmonth)
      have hyears : d.year + 1 - 1970 = d.year - 1970 + 1 := by omega
      have hsum := daysOfYears_succ 1970 (d.year - 1970)
      rw [Nat.add_sub_cancel' hyear] at hsum
      rw [hdec, daysBefore_end] at hmonths
      have hfirst : daysBefore (d.year + 1) 1 = 0 := rfl
      simp only [number, hyears, hsum, hfirst, hdec]
      rw [hdec] at hend
      omega

theorem number_iterate (n : Nat) : (utcDay n).number = n ∧ 1970 ≤ (utcDay n).year := by
  induction n with
  | zero => exact ⟨rfl, Nat.le_refl _⟩
  | succ n ih =>
    obtain ⟨hnumber, hyear⟩ := ih
    have hnext := number_next hyear
    rw [hnumber] at hnext
    rw [utcDay, Function.iterate_succ_apply']
    exact hnext

end GregorianDay

/-! ## The loops -/

theorem and_three (y : Nat) : (UInt16.ofNat y &&& 3).toNat = y % 4 := by
  have hpow := Nat.and_two_pow_sub_one_eq_mod (y % 65536) 2
  rw [UInt16.toNat_and, UInt16.toNat_ofNat']
  show (y % 65536) &&& 3 = y % 4
  rw [show (3 : Nat) = 2 ^ 2 - 1 from rfl, hpow]
  omega

/-- Up to 2099 every fourth year is a leap year. -/
theorem leap_iff {y : Nat} (hge : 1970 ≤ y) (hle : y ≤ 2099) :
    UInt16.ofNat y &&& 3 ≠ 0 ↔ isLeapYear y = false := by
  have hand : UInt16.ofNat y &&& 3 = 0 ↔ y % 4 = 0 := by
    rw [← UInt16.toNat_inj, and_three]
    rfl
  rw [ne_eq, hand, isLeapYear]
  simp only [Bool.and_eq_false_iff, Bool.or_eq_false_iff, beq_eq_false_iff_ne, bne_eq_false_iff_eq]
  omega

theorem toNat_lengthOf {y : Nat} (hge : 1970 ≤ y) (hle : y ≤ 2099) :
    (if UInt16.ofNat y &&& 3 ≠ 0 then daysInAYear else daysInALeapYear).toNat = yearLength y := by
  have hleap := leap_iff hge hle
  unfold yearLength
  cases h : isLeapYear y with
  | true =>
    rw [h] at hleap
    rw [if_neg (fun hand => Bool.noConfusion (hleap.mp hand))]
    rfl
  | false =>
    rw [if_pos (hleap.mpr h)]
    rfl

/-- The loop over the years goes on as long as more than a whole year is left. -/
theorem yearLoop_spec {years rounds y r : Nat} {days len : UInt32} (hge : 1970 ≤ y)
    (hle : y + years ≤ 2099) (hlen : len.toNat = yearLength y)
    (hdays : days.toNat = daysOfYears y years + r) (hr : r ≤ yearLength (y + years))
    (hpos : 0 < r ∨ years = 0) (hrounds : years ≤ rounds) :
    yearLoop rounds days len (.ofNat y) = (.ofNat (y + years), .ofNat r) := by
  induction years generalizing rounds y days len with
  | zero =>
    rw [daysOfYears, Nat.zero_add] at hdays
    rw [← hdays, UInt32.ofNat_toNat]
    cases rounds with
    | zero => rfl
    | succ rounds =>
      have hstop : ¬ days > len := by
        rw [gt_iff_lt, UInt32.lt_iff_toNat_lt, hlen, hdays]
        exact Nat.not_lt.mpr hr
      rw [yearLoop, if_neg hstop]
      rfl
  | succ years ih =>
    obtain ⟨rounds, rfl⟩ : ∃ k, rounds = k + 1 := ⟨rounds - 1, by omega⟩
    have hrpos : 0 < r := hpos.resolve_right (Nat.succ_ne_zero _)
    rw [daysOfYears] at hdays
    have hgo : days > len := by
      rw [gt_iff_lt, UInt32.lt_iff_toNat_lt, hlen, hdays]
      omega
    have hsub : (days - len).toNat = daysOfYears (y + 1) years + r := by
      rw [UInt32.toNat_sub_of_le _ _ (UInt32.le_of_lt hgo), hlen, hdays]
      omega
    have hyear : UInt16.ofNat y + 1 = UInt16.ofNat (y + 1) := (UInt16.ofNat_add y 1).symm
    have hnext : y + (years + 1) = y + 1 + years := by omega
    rw [hnext] at hle hr
    rw [yearLoop, if_pos hgo, hnext]
    simp only [hyear]
    exact ih (by omega) hle (toNat_lengthOf (by omega) (by omega)) hsub hr (.inl hrpos) (by omega)

/-- The loop over the months does so with the months. -/
theorem monthLoop_spec {before : List Nat} {len r : Nat} (after : List Nat) {days : UInt32}
    (x : UInt16) (hlen : len < 4294967296) (hdays : days.toNat = before.sum + r) (hr : r ≤ len)
    (hpos : 0 < r ∨ before = []) :
    monthLoop ((before ++ len :: after).map UInt32.ofNat) x days =
      (some (x + .ofNat before.length), .ofNat r) := by
  induction before generalizing x days with
  | nil =>
    rw [List.sum_nil, Nat.zero_add] at hdays
    have hstop : days ≤ UInt32.ofNat len := by
      rw [UInt32.le_iff_toNat_le, UInt32.toNat_ofNat_of_lt' hlen, hdays]
      exact hr
    rw [List.nil_append, List.map_cons, monthLoop, if_pos hstop, ← hdays, UInt32.ofNat_toNat]
    simp
  | cons l before ih =>
    have hrpos : 0 < r := hpos.resolve_right (List.cons_ne_nil _ _)
    rw [List.sum_cons] at hdays
    have hlt := days.toNat_lt
    have hl : (UInt32.ofNat l).toNat = l :=
      UInt32.toNat_ofNat_of_lt' (Nat.lt_of_le_of_lt (by omega : l ≤ days.toNat) hlt)
    have hgo : UInt32.ofNat l < days := by
      rw [UInt32.lt_iff_toNat_lt, hl, hdays]
      omega
    have hsub : (days - UInt32.ofNat l).toNat = before.sum + r := by
      rw [UInt32.toNat_sub_of_le _ _ (UInt32.le_of_lt hgo), hl, hdays]
      omega
    rw [List.cons_append, List.map_cons, monthLoop, if_neg (UInt32.not_le.mpr hgo),
      ih _ hsub (.inl hrpos), List.length_cons, UInt16.ofNat_add, UInt16.add_assoc,
      UInt16.add_comm 1]
    rfl

/-- The tables of the source, from January on. -/
theorem months_eq {y : Nat} (hge : 1970 ≤ y) (hle : y ≤ 2099) :
    (if UInt16.ofNat y &&& 3 ≠ 0 then uly else ly) =
      (monthLengths (isLeapYear y)).map UInt32.ofNat := by
  have hleap := leap_iff hge hle
  cases h : isLeapYear y with
  | true =>
    rw [h] at hleap
    rw [if_neg (fun hand => Bool.noConfusion (hleap.mp hand))]
    rfl
  | false =>
    rw [if_pos (hleap.mpr h)]
    rfl

theorem monthLoop_months {year month r : Nat} {days : UInt32} (hpos : 1 ≤ month)
    (hle : month ≤ 12) (hdays : days.toNat = daysBefore year month + r)
    (hr : r ≤ daysInMonth year month) (hfirst : 0 < r ∨ month = 1) :
    monthLoop ((monthLengths (isLeapYear year)).map UInt32.ofNat) 1 days =
      (some (.ofNat month), .ofNat r) := by
  have hlen := GregorianTime.daysInMonth_le year month
  have hlength : (monthLengths (isLeapYear year)).length = 12 := rfl
  have hlt : month - 1 < (monthLengths (isLeapYear year)).length := by
    rw [hlength]
    omega
  have hget : (monthLengths (isLeapYear year))[month - 1] = daysInMonth year month :=
    Option.some.inj ((List.getElem?_eq_getElem hlt).symm.trans (getElem_monthLengths year hpos hle))
  have hsplit : (monthLengths (isLeapYear year)).take (month - 1) ++
      daysInMonth year month :: (monthLengths (isLeapYear year)).drop month =
      monthLengths (isLeapYear year) := by
    have hdrop := List.drop_eq_getElem_cons hlt
    rw [hget, Nat.sub_add_cancel hpos] at hdrop
    rw [← hdrop, List.take_append_drop]
  have hempty : 0 < r ∨ (monthLengths (isLeapYear year)).take (month - 1) = [] :=
    hfirst.imp_right (fun h => by rw [h]; rfl)
  have hloop := monthLoop_spec ((monthLengths (isLeapYear year)).drop month) 1 (by omega) hdays hr
    hempty
  rw [hsplit, List.length_take_of_le (Nat.le_of_lt hlt)] at hloop
  have hmonth : (1 : UInt16) + .ofNat (month - 1) = .ofNat month := by
    rw [show (1 : UInt16) = .ofNat 1 from rfl, ← UInt16.ofNat_add, Nat.add_sub_cancel' hpos]
  rw [hloop, hmonth]

/-- What the two loops make of the days: the first year and the first month whose whole
length is not less than what is left. -/
theorem dateTime_fields {s : UInt32} (stale : RtcDateTime) {year month r : Nat}
    (hge : 1970 ≤ year) (hle : year ≤ 2099) (hpos : 1 ≤ month) (hmonth : month ≤ 12)
    (hr : r ≤ daysInMonth year month) (hfirst : 0 < r ∨ month = 1)
    (hyear : 0 < daysBefore year month + r ∨ year = 1970)
    (hdays : s.toNat / 86400 = daysOfYears 1970 (year - 1970) + (daysBefore year month + r)) :
    (rtcSecondToDateTime s stale).year.toNat = year ∧
      (rtcSecondToDateTime s stale).month.toNat = month ∧
      (rtcSecondToDateTime s stale).day.toNat = r + 1 := by
  have hcount : (s / secondsInADay).toNat = s.toNat / 86400 := UInt32.toNat_div s secondsInADay
  have hlength := GregorianTime.daysInMonth_le year month
  have hinYear : daysBefore year month + r ≤ yearLength year := by
    have hsucc := daysBefore_succ year hpos hmonth
    have hend := daysBefore_le year (by omega : month + 1 ≤ 13)
    omega
  have hsmall : yearLength year ≤ 366 := by
    unfold yearLength
    split <;> decide
  have hrounds := le_daysOfYears 1970 (year - 1970)
  have hyears : yearLoop (s / secondsInADay).toNat (s / secondsInADay) daysInAYear 1970 =
      (.ofNat year, .ofNat (daysBefore year month + r)) := by
    have hyear' : 1970 + (year - 1970) = year := Nat.add_sub_cancel' hge
    have hlen : daysInAYear.toNat = yearLength 1970 := rfl
    have hend : daysBefore year month + r ≤ yearLength (1970 + (year - 1970)) := by
      rw [hyear']
      exact hinYear
    have hloop := yearLoop_spec (Nat.le_refl 1970) (by omega : 1970 + (year - 1970) ≤ 2099) hlen
      (hcount.trans hdays) hend (hyear.imp_right (by omega))
      (by omega : year - 1970 ≤ (s / secondsInADay).toNat)
    rw [hyear'] at hloop
    exact hloop
  have hmonths : monthLoop (if UInt16.ofNat year &&& 3 ≠ 0 then uly else ly) 1
      (.ofNat (daysBefore year month + r)) = (some (.ofNat month), .ofNat r) := by
    rw [months_eq hge hle]
    exact monthLoop_months hpos hmonth (UInt32.toNat_ofNat_of_lt' (by simp [UInt32.size]; omega))
      hr hfirst
  simp only [rtcSecondToDateTime, hyears, hmonths, Option.getD_some]
  refine ⟨?_, ?_, ?_⟩
  · rw [UInt16.toNat_ofNat']
    omega
  · rw [UInt16.toNat_ofNat']
    omega
  · rw [UInt32.toNat_toUInt16, UInt32.toNat_add, UInt32.toNat_ofNat']
    show (r % 4294967296 + 1) % 4294967296 % 65536 = r + 1
    omega

theorem daysOfYears_mono (year : Nat) {m n : Nat} (h : m ≤ n) :
    daysOfYears year m ≤ daysOfYears year n := by
  induction n, h using Nat.le_induction with
  | base => exact Nat.le_refl _
  | succ n _ ih =>
    rw [daysOfYears_succ]
    exact Nat.le_add_right_of_le ih

/-- 2100-01-01 is 47482 days after 1970-01-01. -/
theorem year_le {n : Nat} (h : n < 47482) : (utcDay n).year ≤ 2099 := by
  obtain ⟨hnumber, hyear⟩ := GregorianDay.number_iterate n
  by_contra hlate
  have hmono := daysOfYears_mono 1970 (by omega : 130 ≤ (utcDay n).year - 1970)
  have hlast : daysOfYears 1970 130 = 47482 := by decide +kernel
  rw [GregorianDay.number] at hnumber
  omega

/-- The time of the day has no months in it. -/
theorem timeOfDay (s : UInt32) (stale : RtcDateTime) :
    (rtcSecondToDateTime s stale).hour.toNat = s.toNat % 86400 / 3600 ∧
      (rtcSecondToDateTime s stale).minute.toNat = s.toNat % 3600 / 60 ∧
      (rtcSecondToDateTime s stale).second.toNat = s.toNat % 60 := by
  refine ⟨?_, ?_, ?_⟩
  · show ((s % 86400) / 3600).toUInt16.toNat = _
    rw [UInt32.toNat_toUInt16, UInt32.toNat_div, UInt32.toNat_mod]
    show s.toNat % 86400 / 3600 % 65536 = _
    omega
  · show ((s % 86400) % 3600 / 60).toUInt16.toNat = _
    rw [UInt32.toNat_toUInt16, UInt32.toNat_div, UInt32.toNat_mod, UInt32.toNat_mod]
    show s.toNat % 86400 % 3600 / 60 % 65536 = _
    omega
  · show ((s % 86400) % 3600 % 60).toUInt8.toNat = _
    rw [UInt32.toNat_toUInt8, UInt32.toNat_mod, UInt32.toNat_mod, UInt32.toNat_mod]
    show s.toNat % 86400 % 3600 % 60 % 256 = _
    omega

section First
variable {s : UInt32} {stale : RtcDateTime} {year month : Nat}

/-- A first of January is left in December of the year before. -/
theorem year_of_first (hge : 1970 < year) (hle : year ≤ 2099)
    (hdays : s.toNat / 86400 = daysOfYears 1970 (year - 1970)) :
    (rtcSecondToDateTime s stale).year.toNat = year - 1 := by
  obtain ⟨y, rfl⟩ : ∃ y, year = y + 1 := ⟨year - 1, by omega⟩
  have hyears : y + 1 - 1970 = y - 1970 + 1 := by omega
  have hsum := daysOfYears_succ 1970 (y - 1970)
  have hdec := daysBefore_succ y (by decide : 1 ≤ 12) (Nat.le_refl 12)
  have hlen : daysInMonth y 12 = 31 := rfl
  rw [Nat.add_sub_cancel' (Nat.le_of_lt_succ hge)] at hsum
  rw [daysBefore_end, hlen] at hdec
  rw [hyears, hsum, hdec] at hdays
  exact (dateTime_fields stale (Nat.le_of_lt_succ hge) (Nat.le_of_succ_le hle) (by decide)
    (Nat.le_refl 12) (Nat.le_of_eq hlen.symm) (.inl (by decide)) (.inl (by omega)) hdays).1

/-- A first of another month is left in the month before. -/
theorem month_of_first (hge : 1970 ≤ year) (hle : year ≤ 2099) (hpos : 1 < month)
    (hmonth : month ≤ 12)
    (hdays : s.toNat / 86400 = daysOfYears 1970 (year - 1970) + daysBefore year month) :
    (rtcSecondToDateTime s stale).month.toNat = month - 1 := by
  obtain ⟨m, rfl⟩ : ∃ m, month = m + 1 := ⟨month - 1, by omega⟩
  have hlen := daysInMonth_pos year m
  have hm := Nat.le_of_lt_succ hpos
  rw [daysBefore_succ year hm (Nat.le_of_succ_le hmonth)] at hdays
  exact (dateTime_fields stale hge hle hm (Nat.le_of_succ_le hmonth) (Nat.le_refl _) (.inl hlen)
    (.inl (by omega)) hdays).2.1

end First

/-- **The calendar.** Date and time come out right for the whole of 1970-01-01 and for every
day after that is not the first one of its month. -/
theorem second_to_dateTime_iff {s : UInt32} (hs : s < 4102444800) (stale : RtcDateTime) :
    IsUtc s.toNat (rtcSecondToDateTime s stale) ↔
      s < 86400 ∨ (utcDay (s.toNat / 86400)).day ≠ 1 := by
  have hlt : s.toNat < 4102444800 := UInt32.lt_iff_toNat_lt.mp hs
  obtain ⟨hnumber, hge⟩ := GregorianDay.number_iterate (s.toNat / 86400)
  have hle := year_le (by omega : s.toNat / 86400 < 47482)
  obtain ⟨hhour, hminute, hsecond⟩ := timeOfDay s stale
  have hepoch : s.toNat / 86400 = 0 → utcDay (s.toNat / 86400) = .epoch := fun h => by rw [h]; rfl
  have hearly : s < 86400 ↔ s.toNat / 86400 = 0 := by
    rw [UInt32.lt_iff_toNat_lt]
    show s.toNat < 86400 ↔ _
    omega
  generalize hd : utcDay (s.toNat / 86400) = d at hnumber hge hle hepoch ⊢
  have hpos := d.month_pos
  have hmonth := d.month_le
  have hday := d.day_pos
  have hlen := d.day_le
  rw [GregorianDay.number] at hnumber
  rw [hearly]
  constructor
  · intro hutc
    by_contra hbad
    obtain ⟨hlater, hday1⟩ := not_or.mp hbad
    have hone : d.day = 1 := not_not.mp hday1
    by_cases hjan : d.month = 1
    · have hfirst : daysBefore d.year d.month = 0 := by rw [hjan]; rfl
      have hnew : 1970 < d.year := by
        by_contra hold
        have hstart : d.year - 1970 = 0 := by omega
        rw [hfirst, hstart, daysOfYears] at hnumber
        omega
      have hyear := hutc.year
      rw [hd, year_of_first hnew hle (by omega)] at hyear
      omega
    · have hmonth' := hutc.month
      rw [hd, month_of_first hge hle (by omega) hmonth (by omega)] at hmonth'
      omega
  · intro hgood
    have hright : 0 < d.day - 1 ∨ d = .epoch := by
      cases hgood with
      | inl h => exact .inr (hepoch h)
      | inr h => exact .inl (by omega)
    have hdays : s.toNat / 86400 =
        daysOfYears 1970 (d.year - 1970) + (daysBefore d.year d.month + (d.day - 1)) := by omega
    obtain ⟨hy, hm, hd'⟩ := dateTime_fields stale hge hle hpos hmonth
      (by omega : d.day - 1 ≤ daysInMonth d.year d.month) (hright.imp_right fun h => by rw [h]; rfl)
      (hright.imp (fun h => Nat.add_pos_right _ h) fun h => by rw [h]; rfl) hdays
    rw [Nat.sub_add_cancel hday] at hd'
    constructor
    · rw [hm]
      exact ⟨hpos, hmonth⟩
    · rw [hy, hm, hd']
      exact ⟨hday, hlen⟩
    · rw [hy, hd]
    · rw [hm, hd]
    · rw [hd', hd]
    · exact hhour
    · exact hminute
    · exact hsecond

/-! 1970-02-01. -/

theorem second_to_dateTime_february :
    IsUtc (2678400 : UInt32).toNat (rtcSecondToDateTime 2678400 ⟨0, 0, 0, 0, 0, 0⟩) ↔
      (2678400 : UInt32) < 86400 ∨ (utcDay ((2678400 : UInt32).toNat / 86400)).day ≠ 1 :=
  second_to_dateTime_iff (by decide) ⟨0, 0, 0, 0, 0, 0⟩

/-- It comes out as the 32nd of January. -/
theorem february_is_32_january :
    rtcSecondToDateTime 2678400 ⟨0, 0, 0, 0, 0, 0⟩ = ⟨1970, 1, 32, 0, 0, 0⟩ ∧
      ¬ IsUtc 2678400 (rtcSecondToDateTime 2678400 ⟨0, 0, 0, 0, 0, 0⟩) := by
  refine ⟨by decide +kernel, fun h => ?_⟩
  have hmonth : (1 : UInt16).toNat = (utcDay 31).month := h.month
  revert hmonth
  decide +kernel

end IBoxClient
