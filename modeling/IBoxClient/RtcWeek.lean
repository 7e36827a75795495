import Mathlib.Algebra.Order.BigOperators.Group.List
import IBoxClient.RtcCalendar

/- `RTC_GetWeek` and the days of the week.

   The formula counts a day for every year before, since 365 is 1 more than 52 weeks, and a day
   more for every leap year among them, and then the days of the year. From one day of the
   calendar to the next it goes up by one, but at the end of a year, where it goes down by 363
   (`weekNumber_next`).

   The arithmetic of `int` is checked: there is no result where it overflows, which is when
   `y + y / 4` does (`getWeek_eq`). -/
namespace IBoxClient

/-- A result of `int` arithmetic; none where it overflows. -/
def checkedInt (n : Int) : Option Int :=
  if -2147483648 ≤ n ∧ n < 2147483648 then some n else none

/-- `mdays` of `RTC_GetWeek`. -/
def mdays : List Int := [0, 31, 28, 31, 30, 31, 30, 31, 31, 30, 31, 30]

/-- The loop of `RTC_GetWeek` over the first months of `mdays`. -/
def addMonths (months : List Int) (days : Int) : Option Int :=
  months.foldlM (fun days m => checkedInt (days + m)) days

/-- The day that a leap year has more, from March on. -/
def addLeapDay (year month days : Int) : Option Int :=
  -- the last two bits of a number are its remainder by 4, also below 0
  if month > 2 ∧ (year.tmod 400 = 0 ∨ year % 4 = 0 ∧ year.tmod 100 ≠ 0) then checkedInt (days + 1)
  else some days

/-- `RTC_GetWeek`, for a month of up to 12. -/
def rtcGetWeek (year month days : Int) : Option Int := do
  let y ← checkedInt (year - 1)
  let days ← addMonths (mdays.take month.toNat) days
  let days ← addLeapDay year month days
  let week ← checkedInt (y + y.tdiv 4)
  let week ← checkedInt (week - y.tdiv 100)
  let week ← checkedInt (week + y.tdiv 400)
  let week ← checkedInt (week + days)
  some (week.tmod 7)

/-! ## The next day -/

/-- The leap years up to a year. -/
def leapsUpTo (year : Nat) : Nat := year / 4 - year / 100 + year / 400

theorem yearLength_eq (year : Nat) :
    yearLength (year + 1) + leapsUpTo year = 365 + leapsUpTo (year + 1) := by
  have hleap : isLeapYear (year + 1) = true ↔
      4 ∣ year + 1 ∧ (¬ 100 ∣ year + 1 ∨ 400 ∣ year + 1) := by
    simp [isLeapYear, Nat.dvd_iff_mod_eq_zero]
  have hcentury : 100 ∣ year + 1 → 4 ∣ year + 1 := Nat.dvd_trans (by decide)
  have hfour : 400 ∣ year + 1 → 100 ∣ year + 1 := Nat.dvd_trans (by decide)
  have hle : year / 100 ≤ year / 4 := Nat.div_le_div_left (by decide) (by decide)
  unfold yearLength leapsUpTo
  simp only [hleap, Nat.succ_div]
  generalize year / 4 = fours at hle ⊢
  generalize year / 100 = centuries at hle ⊢
  generalize year / 400 = cycles
  by_cases h4 : 4 ∣ year + 1
  · by_cases h100 : 100 ∣ year + 1
    · by_cases h400 : 400 ∣ year + 1
      · simp only [h4, h100, h400, if_true, and_true, or_true]
        omega
      · simp only [h4, h100, h400, if_true, if_false, not_true, or_self, and_false]
        omega
    · have h400 : ¬ 400 ∣ year + 1 := fun h => h100 (hfour h)
      simp only [h4, h100, h400, if_true, if_false, not_false_iff, true_or, and_true]
      omega
  · have h100 : ¬ 100 ∣ year + 1 := fun h => h4 (hcentury h)
    have h400 : ¬ 400 ∣ year + 1 := fun h => h100 (hfour h)
    simp only [h4, h100, h400, if_false, false_and]
    omega

namespace GregorianDay

/-- The day of the week that is found for a day, 0 for Sunday. -/
def getWeek (d : GregorianDay) : Option Int := rtcGetWeek d.year d.month d.day

/-- What the formula sums up. -/
def weekNumber (d : GregorianDay) : Nat :=
  d.year - 1 + leapsUpTo (d.year - 1) + (daysBefore d.year d.month + d.day)

/-- The sum goes up by one, or down by 363 with a new year. -/
theorem weekNumber_next {d : GregorianDay} (hyear : 1 ≤ d.year) :
    d.next.weekNumber = d.weekNumber + 1 ∨ d.next.weekNumber + 363 = d.weekNumber := by
  have hmonths := daysBefore_succ d.year d.month_pos d.month_le
  have hday := d.day_le
  unfold next
  by_cases hlast : d.day < daysInMonth d.year d.month
  · rw [dif_pos hlast]
    exact .inl rfl
  · have hend : d.day = daysInMonth d.year d.month := by omega
    rw [dif_neg hlast]
    by_cases hmonth : d.month < 12
    · rw [dif_pos hmonth]
      refine .inl ?_
      simp only [weekNumber]
      omega
    · -- the last day of the year
      rw [dif_neg hmonth]
      have hdec : d.month = 12 := by
        have hle := d.month_le
        omega
      have hlength := yearLength_eq (d.year - 1)
      rw [Nat.sub_add_cancel hyear] at hlength
      have hfirst : daysBefore (d.year + 1) 1 = 0 := rfl
      rw [hdec, daysBefore_end] at hmonths
      rw [hdec] at hend
      refine .inr ?_
      simp only [weekNumber, hfirst, hdec, Nat.add_sub_cancel]
      omega

end GregorianDay

/-! ## The formula -/

theorem checkedInt_eq {n : Int} (hge : 0 ≤ n) (hlt : n < 2147483648) : checkedInt n = some n :=
  if_pos ⟨by omega, hlt⟩

theorem addMonths_eq {months : List Int} (hpos : ∀ m ∈ months, 0 ≤ m) {days : Int}
    (hdays : 0 ≤ days) (hlt : days + months.sum < 2147483648) :
    addMonths months days = some (days + months.sum) := by
  induction months generalizing days with
  | nil => simp [addMonths]
  | cons m months ih =>
    have hm := hpos m List.mem_cons_self
    have hrest : 0 ≤ months.sum :=
      List.sum_nonneg fun x hx => hpos x (List.mem_cons_of_mem m hx)
    rw [List.sum_cons] at hlt ⊢
    have hih : addMonths months (days + m) = some (days + m + months.sum) :=
      ih (fun x hx => hpos x (List.mem_cons_of_mem m hx)) (by omega) (by omega)
    calc addMonths (m :: months) days
        = (checkedInt (days + m)).bind fun days => addMonths months days := rfl
      _ = addMonths months (days + m) := by
          rw [checkedInt_eq (by omega) (by omega), Option.bind_some]
      _ = some (days + (m + months.sum)) := by rw [hih, Int.add_assoc]

/-- The days before a month are those of `mdays`, and the one of a leap February. -/
theorem mdays_eq (year : Nat) {month : Nat} (hpos : 1 ≤ month) (hle : month ≤ 12) :
    (daysBefore year month : Int) =
      (mdays.take month).sum + if isLeapYear year ∧ month > 2 then 1 else 0 := by
  have hall : ∀ leap : Bool, ∀ m < 13, 1 ≤ m → (((monthLengths leap).take (m - 1)).sum : Int) =
      (mdays.take m).sum + if leap ∧ m > 2 then 1 else 0 := by decide
  exact hall (isLeapYear year) month (Nat.lt_succ_of_le hle) hpos

/-- The test for a leap year. -/
theorem leap_iff_tmod (year : Nat) :
    ((year : Int).tmod 400 = 0 ∨ (year : Int) % 4 = 0 ∧ (year : Int).tmod 100 ≠ 0) ↔
      isLeapYear year = true := by
  have hleap : isLeapYear year = true ↔ year % 4 = 0 ∧ (year % 100 ≠ 0 ∨ year % 400 = 0) := by
    simp [isLeapYear]
  rw [hleap, Int.tmod_eq_emod_of_nonneg (Int.natCast_nonneg year),
    Int.tmod_eq_emod_of_nonneg (Int.natCast_nonneg year)]
  omega

namespace GregorianDay

/-- The days of the year, as the code adds them up. -/
theorem addDays_eq (d : GregorianDay) :
    (addMonths (mdays.take d.month) d.day).bind (addLeapDay d.year d.month) =
      some ((daysBefore d.year d.month + d.day : Nat) : Int) := by
  have hday : d.day ≤ 31 := by
    have hle := d.day_le
    unfold daysInMonth at hle
    split_ifs at hle <;> omega
  have hsum : (mdays.take d.month).sum ≤ 334 := by
    have hall : ∀ m < 13, (mdays.take m).sum ≤ 334 := by decide
    exact hall d.month (Nat.lt_succ_of_le d.month_le)
  have hpos : ∀ m ∈ mdays.take d.month, 0 ≤ m := by
    have hall : ∀ m ∈ mdays, 0 ≤ m := by decide
    exact fun m hm => hall m (List.mem_of_mem_take hm)
  have hnonneg : 0 ≤ (mdays.take d.month).sum := List.sum_nonneg hpos
  have hbefore := mdays_eq d.year d.month_pos d.month_le
  have hmonth : (d.month : Int) > 2 ↔ d.month > 2 := by omega
  rw [addMonths_eq hpos (by omega) (by omega), Option.bind_some]
  simp only [addLeapDay, leap_iff_tmod, hmonth]
  by_cases hleap : isLeapYear d.year = true ∧ d.month > 2
  · rw [if_pos hleap] at hbefore
    rw [if_pos hleap.symm, checkedInt_eq (by omega) (by omega)]
    congr 1
    push_cast
    omega
  · rw [if_neg hleap] at hbefore
    rw [if_neg (fun h => hleap h.symm)]
    congr 1
    push_cast
    omega

theorem dayOfYear_le (d : GregorianDay) : daysBefore d.year d.month + d.day ≤ 366 := by
  have hmonths := daysBefore_succ d.year d.month_pos d.month_le
  have hyear := daysBefore_le d.year (show d.month + 1 ≤ 13 from Nat.succ_le_succ d.month_le)
  have hlength : yearLength d.year ≤ 366 := by
    unfold yearLength
    split <;> decide
  have hday := d.day_le
  omega

/-- **The formula**, and where it overflows. -/
theorem getWeek_eq {d : GregorianDay} (hyear : 1 ≤ d.year) :
    d.getWeek = if d.year - 1 + (d.year - 1) / 4 < 2147483648 then
      some ((d.weekNumber % 7 : Nat) : Int) else none := by
  have hsum := d.addDays_eq
  have hdays := d.dayOfYear_le
  have hbind : d.getWeek = (checkedInt ((d.year : Int) - 1)).bind fun y =>
      ((addMonths (mdays.take d.month) d.day).bind (addLeapDay d.year d.month)).bind fun days =>
        (checkedInt (y + y.tdiv 4)).bind fun week =>
          (checkedInt (week - y.tdiv 100)).bind fun week =>
            (checkedInt (week + y.tdiv 400)).bind fun week =>
              (checkedInt (week + days)).bind fun week => some (week.tmod 7) := by
    simp only [Option.bind_assoc]
    rfl
  rw [hbind, hsum, weekNumber, leapsUpTo]
  simp only [Option.bind_some]
  generalize daysBefore d.year d.month + d.day = days at hdays ⊢
  obtain ⟨y, hy⟩ : ∃ y, d.year = y + 1 := ⟨d.year - 1, by omega⟩
  have hbefore : (d.year : Int) - 1 = y := by
    rw [hy]
    push_cast
    ring
  have hdiv : ∀ k : Nat, (y : Int).tdiv k = (y / k : Nat) := fun k =>
    (Int.tdiv_eq_ediv_of_nonneg (Int.natCast_nonneg y)).trans (Int.natCast_div y k).symm
  have h4 : (y : Int).tdiv 4 = (y / 4 : Nat) := hdiv 4
  have h100 : (y : Int).tdiv 100 = (y / 100 : Nat) := hdiv 100
  have h400 : (y : Int).tdiv 400 = (y / 400 : Nat) := hdiv 400
  have hroom : y + y / 4 < 2147483648 → y + (y / 4 - y / 100 + y / 400) + days < 2147483648 := by
    omega
  have hle : y / 100 ≤ y / 4 := Nat.div_le_div_left (by decide) (by decide)
  rw [hbefore, hy, Nat.add_sub_cancel]
  generalize y / 4 = fours at *
  generalize y / 100 = centuries at *
  generalize y / 400 = cycles at *
  split
  · next hfits =>
    have hroom := hroom hfits
    rw [checkedInt_eq (by omega) (by omega), Option.bind_some, h4, h100, h400,
      checkedInt_eq (by omega) (by omega), Option.bind_some,
      checkedInt_eq (by omega) (by omega), Option.bind_some,
      checkedInt_eq (by omega) (by omega), Option.bind_some,
      checkedInt_eq (by omega) (by omega), Option.bind_some,
      Int.tmod_eq_emod_of_nonneg (by omega)]
    congr 1
    omega
  · next hfits =>
    have hover : checkedInt ((y : Int) + (y : Int).tdiv 4) = none := by
      rw [h4]
      exact if_neg (by omega)
    cases hyear' : checkedInt (y : Int) with
    | none => rfl
    | some y' =>
      obtain rfl : (y : Int) = y' := by
        unfold checkedInt at hyear'
        split at hyear'
        · exact Option.some.inj hyear'
        · cases hyear'
      rw [Option.bind_some, hover]
      rfl

end GregorianDay

theorem GregorianDay.year_le_next (d : GregorianDay) : d.year ≤ d.next.year := by
  unfold next
  split
  · exact le_rfl
  · split
    · exact le_rfl
    · exact Nat.le_succ _

/-- **Days of the week.** For every day of the calendar from year 1 on `RTC_GetWeek` yields a
day of the week, if no sum overflows: 1 for 0001-01-01, a Monday, and from each day to the next
one more, modulo 7. -/
theorem get_week_of_day (d : GregorianDay) (hyear : 1 ≤ d.year) :
    rtcGetWeek 1 1 1 = some 1 ∧
      ((rtcGetWeek d.year d.month d.day).isSome = true ↔
        d.year - 1 + (d.year - 1) / 4 < 2147483648) ∧
      ∀ week, rtcGetWeek d.year d.month d.day = some week → 0 ≤ week ∧ week < 7 ∧
        ∀ week', rtcGetWeek d.next.year d.next.month d.next.day = some week' →
          week' = (week + 1) % 7 := by
  have hweek : rtcGetWeek d.year d.month d.day = _ := GregorianDay.getWeek_eq hyear
  have hnext : rtcGetWeek d.next.year d.next.month d.next.day = _ :=
    GregorianDay.getWeek_eq (Nat.le_trans hyear d.year_le_next)
  have hstep := GregorianDay.weekNumber_next hyear
  refine ⟨by decide, ?_, ?_⟩
  · rw [hweek]
    split <;> simp [*]
  · intro week h
    rw [hweek] at h
    split at h
    · cases h
      refine ⟨by omega, by omega, ?_⟩
      intro week' h'
      rw [hnext] at h'
      split at h'
      · cases h'
        omega
      · cases h'
    · cases h

/-- 2000-02-29 is a Tuesday, and the day after it a Wednesday. -/
theorem get_week_of_leap_day :
    rtcGetWeek 2000 2 29 = some 2 ∧ ∀ week', rtcGetWeek 2000 3 1 = some week' → week' = 3 := by
  have hday := get_week_of_day ⟨2000, 2, 29, by decide, by decide, by decide, by decide⟩
    (by decide)
  exact ⟨by decide, (hday.2.2 2 (by decide)).2.2⟩

end IBoxClient
