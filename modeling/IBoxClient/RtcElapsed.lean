import Mathlib.Algebra.Order.BigOperators.Group.List
import Mathlib.Data.List.Lex
import IBoxClient.RtcCalendar

/- `RTC_DateTimeToSecond` and the time that passes.

   A clock of the calendar ticks once a second (`Moment.tick`), and carries into the minute,
   the hour and the day. `Moment.seconds` goes up by one with each tick, and orders the
   moments as the calendar does (`seconds_lt`), so the seconds from one moment to another are
   the ticks that lead there (`iterate_tick_iff`).

   The encoder is that count and 86401 seconds more (`encoder_eq`): it takes the day of the
   month as it is, and adds a second. So its differences are exact. Its leap days are
   `year / 4 - 1970 / 4`, the ones up to the year's own, of which January and February take
   one back; from 1970 to 2099 these are those of the calendar (`leapDays_eq`). -/
namespace IBoxClient

/-! ## The clock -/

/-- A second of the Gregorian calendar. -/
structure Moment where
  date : GregorianDay
  hour : Nat
  minute : Nat
  second : Nat
  hour_lt : hour < 24
  minute_lt : minute < 60
  second_lt : second < 60

namespace GregorianDay

/-- The days of the year up to a day are no more than it has. -/
theorem dayOfYear_lt (d : GregorianDay) :
    daysBefore d.year d.month + (d.day - 1) < daysBefore d.year (d.month + 1) := by
  have hday := d.day_pos
  have hle := d.day_le
  rw [daysBefore_succ d.year d.month_pos d.month_le]
  omega

theorem daysBefore_mono (year : Nat) {m m' : Nat} (h : m ≤ m') :
    daysBefore year m ≤ daysBefore year m' := by
  unfold daysBefore
  apply List.Sublist.sum_le_sum
  · exact List.take_sublist_take_left (Nat.sub_le_sub_right h 1)
  · intro x _
    exact Nat.zero_le x

/-- A day of an earlier year has a smaller number. -/
theorem number_lt_of_year {d d' : GregorianDay} (hyear : 1970 ≤ d.year) (h : d.year < d'.year) :
    d.number < d'.number := by
  have hday := dayOfYear_lt d
  have hend := daysBefore_le d.year (show d.month + 1 ≤ 13 from Nat.succ_le_succ d.month_le)
  have hsum := daysOfYears_succ 1970 (d.year - 1970)
  have hmono := daysOfYears_mono 1970 (show d.year - 1970 + 1 ≤ d'.year - 1970 by omega)
  rw [Nat.add_sub_cancel' hyear] at hsum
  unfold number
  omega

/-- So has a day of an earlier month of the same year. -/
theorem number_lt_of_month {d d' : GregorianDay} (hyear : d.year = d'.year)
    (h : d.month < d'.month) : d.number < d'.number := by
  have hday := dayOfYear_lt d
  have hmono := daysBefore_mono d.year (show d.month + 1 ≤ d'.month from h)
  unfold number
  rw [← hyear]
  omega

end GregorianDay

namespace Moment

theorem sixty_pos : 0 < 60 := by decide

/-- The next second. -/
def tick (m : Moment) : Moment :=
  if hs : m.second + 1 < 60 then { m with second := m.second + 1, second_lt := hs }
  else if hm : m.minute + 1 < 60 then
    { m with minute := m.minute + 1, second := 0, minute_lt := hm, second_lt := sixty_pos }
  else if hh : m.hour + 1 < 24 then
    { m with
      hour := m.hour + 1
      minute := 0
      second := 0
      hour_lt := hh
      minute_lt := sixty_pos
      second_lt := sixty_pos }
  else ⟨m.date.next, 0, 0, 0, by decide, sixty_pos, sixty_pos⟩

/-- The seconds from 1970-01-01 00:00:00 on. -/
def seconds (m : Moment) : Nat :=
  86400 * m.date.number + 3600 * m.hour + 60 * m.minute + m.second

/-- Year, month, day, hour, minute and second, by which moments are ordered. -/
def fields (m : Moment) : List Nat :=
  [m.date.year, m.date.month, m.date.day, m.hour, m.minute, m.second]

theorem seconds_tick {m : Moment} (hyear : 1970 ≤ m.date.year) :
    m.tick.seconds = m.seconds + 1 ∧ 1970 ≤ m.tick.date.year := by
  obtain ⟨hnext, hyear'⟩ := GregorianDay.number_next hyear
  have hs := m.second_lt
  have hm := m.minute_lt
  have hh := m.hour_lt
  unfold tick
  by_cases h1 : m.second + 1 < 60
  · rw [dif_pos h1]
    exact ⟨by simp only [seconds]; omega, hyear⟩
  · rw [dif_neg h1]
    by_cases h2 : m.minute + 1 < 60
    · rw [dif_pos h2]
      exact ⟨by simp only [seconds]; omega, hyear⟩
    · rw [dif_neg h2]
      by_cases h3 : m.hour + 1 < 24
      · rw [dif_pos h3]
        exact ⟨by simp only [seconds]; omega, hyear⟩
      · rw [dif_neg h3]
        exact ⟨by simp only [seconds, hnext]; omega, hyear'⟩

theorem seconds_iterate {m : Moment} (hyear : 1970 ≤ m.date.year) (n : Nat) :
    (tick^[n] m).seconds = m.seconds + n ∧ 1970 ≤ (tick^[n] m).date.year := by
  induction n with
  | zero => exact ⟨rfl, hyear⟩
  | succ n ih =>
    have hnext := seconds_tick ih.2
    rw [Function.iterate_succ_apply']
    exact ⟨by rw [hnext.1, ih.1, Nat.add_assoc], hnext.2⟩

/-- A later moment has more seconds. -/
theorem seconds_lt {m m' : Moment} (hyear : 1970 ≤ m.date.year) (h : m.fields < m'.fields) :
    m.seconds < m'.seconds := by
  have hday := m.date.day_pos
  have hs := m.second_lt
  have hm := m.minute_lt
  have hh := m.hour_lt
  simp only [fields, List.cons_lt_cons_iff, List.not_lt_nil, and_false, or_false] at h
  unfold seconds
  rcases h with h | ⟨hy, h | ⟨hmo, h⟩⟩
  · have hnumber := GregorianDay.number_lt_of_year hyear h
    omega
  · have hnumber := GregorianDay.number_lt_of_month hy h
    omega
  · have hnumber : m'.date.number = m.date.number + (m'.date.day - 1) - (m.date.day - 1) := by
      unfold GregorianDay.number
      rw [hy, hmo]
      omega
    omega

/-- Moments with as many seconds have the same fields. -/
theorem fields_eq_of_seconds {m m' : Moment} (hyear : 1970 ≤ m.date.year)
    (hyear' : 1970 ≤ m'.date.year) (h : m.seconds = m'.seconds) : m.fields = m'.fields := by
  rcases lt_trichotomy m.fields m'.fields with hlt | heq | hgt
  · exact absurd h (Nat.ne_of_lt (seconds_lt hyear hlt))
  · exact heq
  · exact absurd h.symm (Nat.ne_of_lt (seconds_lt hyear' hgt))

theorem eq_of_fields {m m' : Moment} (h : m.fields = m'.fields) : m = m' := by
  obtain ⟨⟨y, mo, d, _, _, _, _⟩, hr, mi, s, _, _, _⟩ := m
  obtain ⟨⟨y', mo', d', _, _, _, _⟩, hr', mi', s', _, _, _⟩ := m'
  simp only [fields, List.cons.injEq, and_true] at h
  obtain ⟨rfl, rfl, rfl, rfl, rfl, rfl⟩ := h
  rfl

/-- **Elapsed time.** `n` ticks lead from one moment to another exactly where their seconds
differ by `n`. -/
theorem iterate_tick_iff {m m' : Moment} (hyear : 1970 ≤ m.date.year)
    (hyear' : 1970 ≤ m'.date.year) (n : Nat) :
    tick^[n] m = m' ↔ m'.seconds = m.seconds + n := by
  obtain ⟨hseconds, hyearn⟩ := seconds_iterate hyear n
  constructor
  · intro h
    rw [← h, hseconds]
  · intro h
    apply eq_of_fields
    apply fields_eq_of_seconds hyearn hyear'
    rw [hseconds, h]

end Moment

/-! ## The encoder -/

/-- A value that a `u32` holds without a wrap. -/
def checked (n : Int) : Option Nat := if 0 ≤ n ∧ n < 4294967296 then some n.toNat else none

/-- The days of `RTC_DateTimeToSecond` over the integers, every intermediate result checked. -/
def checkedDays (datetime : RtcDateTime) : Option Nat := do
  let years ← checked (datetime.year.toNat - 1970)
  let days ← checked (years * 365)
  let leapDays ← checked ((datetime.year.toNat / 4 : Nat) - (1970 / 4 : Nat))
  let days ← checked (days + leapDays)
  let days ← checked (days + (monthDays.getD datetime.month.toNat 0).toNat)
  let days ← checked (days + datetime.day.toNat)
  if datetime.year &&& 3 = 0 ∧ datetime.month ≤ 2 then checked (days - 1) else some days

/-- `RTC_DateTimeToSecond` over the integers, every intermediate result checked. -/
def checkedSecond (datetime : RtcDateTime) : Option Nat := do
  let days ← checkedDays datetime
  let seconds ← checked (days * 86400)
  let hours ← checked (datetime.hour.toNat * 3600)
  let seconds ← checked (seconds + hours)
  let minutes ← checked (datetime.minute.toNat * 60)
  let seconds ← checked (seconds + minutes)
  let seconds ← checked (seconds + datetime.second.toNat)
  checked (seconds + 1)

/-- The leap days of the years before a year are those the encoder counts up to it. -/
theorem leapDays_eq (years : Nat) (h : years ≤ 130) :
    daysOfYears 1970 years = 365 * years + ((1970 + years - 1) / 4 - 492) := by
  induction years with
  | zero => rfl
  | succ years ih =>
    have hlength : yearLength (1970 + years) = if (1970 + years) % 4 = 0 then 366 else 365 := by
      have hleap : isLeapYear (1970 + years) = true ↔ (1970 + years) % 4 = 0 := by
        rw [isLeapYear]
        simp only [Bool.and_eq_true, Bool.or_eq_true, beq_iff_eq, bne_iff_ne]
        omega
      simp only [yearLength, hleap]
    rw [daysOfYears_succ, ih (by omega), hlength]
    split <;> omega

theorem monthDays_eq (year : Nat) {month : Nat} (hpos : 1 ≤ month) (hle : month ≤ 12) :
    daysBefore year month =
      (monthDays.getD month 0).toNat + if isLeapYear year ∧ 3 ≤ month then 1 else 0 := by
  have hall : ∀ leap : Bool, ∀ m < 13, 1 ≤ m → ((monthLengths leap).take (m - 1)).sum =
      (monthDays.getD m 0).toNat + if leap ∧ 3 ≤ m then 1 else 0 := by decide
  exact hall (isLeapYear year) month (Nat.lt_succ_of_le hle) hpos

namespace GregorianTime

/-- The second of the calendar that a date and time names. -/
def moment (t : GregorianTime) : Moment :=
  ⟨⟨t.year, t.month, t.day, t.month_pos, t.month_le, t.day_pos, t.day_le⟩, t.hour, t.minute,
    t.second, t.hour_lt, t.minute_lt, t.second_lt⟩

/-- The days the encoder counts, before it takes one back. -/
def countedDays (t : GregorianTime) : Nat :=
  (t.year - 1970) * 365 + (t.year / 4 - 492) + (monthDays.getD t.month 0).toNat + t.day

theorem countedDays_eq (t : GregorianTime) :
    t.countedDays = t.moment.date.number + 1 +
      if t.datetime.year &&& 3 = 0 ∧ t.datetime.month ≤ 2 then 1 else 0 := by
  have hge := t.year_ge
  have hle := t.year_le
  have hday := t.day_pos
  have hmonth := t.month_le
  have hleap := leapDays_eq (t.year - 1970) (by omega)
  have hmonths := monthDays_eq t.year t.month_pos t.month_le
  have hfour : t.datetime.year &&& 3 = 0 ↔ t.year % 4 = 0 := by
    rw [datetime, ← UInt16.toNat_inj, and_three]
    rfl
  have htwo : t.datetime.month ≤ 2 ↔ t.month ≤ 2 := by
    rw [datetime, UInt16.le_iff_toNat_le, UInt16.toNat_ofNat', Nat.mod_eq_of_lt (by omega)]
    rfl
  have hyear : isLeapYear t.year = true ↔ t.year % 4 = 0 := by
    rw [isLeapYear]
    simp only [Bool.and_eq_true, Bool.or_eq_true, beq_iff_eq, bne_iff_ne]
    omega
  simp only [hfour, htwo]
  simp only [hyear] at hmonths
  simp only [countedDays, moment, GregorianDay.number, hleap, hmonths]
  split <;> split <;> omega

theorem toNat_fields (t : GregorianTime) :
    t.datetime.year.toNat = t.year ∧ t.datetime.month.toNat = t.month ∧
      t.datetime.day.toNat = t.day ∧ t.datetime.hour.toNat = t.hour ∧
      t.datetime.minute.toNat = t.minute ∧ t.datetime.second.toNat = t.second := by
  have hyear := t.year_le
  have hmonth := t.month_le
  have hday : t.day ≤ 31 := Nat.le_trans t.day_le (daysInMonth_le _ _)
  have hhour := t.hour_lt
  have hminute := t.minute_lt
  have hsecond := t.second_lt
  simp only [datetime, UInt16.toNat_ofNat', UInt8.toNat_ofNat']
  omega

/-- **The encoder.** It counts the seconds of the calendar, and a day and a second more. -/
theorem encoder_eq (t : GregorianTime) :
    (rtcDateTimeToSecond t.datetime).toNat = t.moment.seconds + 86401 := by
  obtain ⟨hyear, hmonth, hday, hhour, hminute, hsecond⟩ := t.toNat_fields
  have hcounted := t.countedDays_eq
  have hdays := days_eq t.inRange
  rw [hyear, hmonth, hday] at hdays
  have hnumber : (rtcDateTimeToDays t.datetime).toNat = t.moment.date.number + 1 := by
    rw [hdays]
    unfold countedDays at hcounted
    rw [hcounted]
    exact Nat.add_sub_cancel ..
  rw [second_eq t.inRange, hnumber, hhour, hminute, hsecond]
  simp only [Moment.seconds, moment]
  omega

theorem checked_eq {n : Int} {k : Nat} (hn : n = k) (hk : k < 4294967296) : checked n = some k := by
  unfold checked
  rw [if_pos (by omega), hn, Int.toNat_natCast]

theorem checked_bind {n : Int} {f : Nat → Option Nat} (k : Nat) (hn : n = k)
    (hk : k < 4294967296) : (checked n).bind f = f k := by
  rw [checked_eq hn hk]
  rfl

theorem checkedDays_eq (t : GregorianTime) :
    checkedDays t.datetime = some (t.moment.date.number + 1) := by
  obtain ⟨hyear, hmonth, hday, -, -, -⟩ := t.toNat_fields
  have hcounted := t.countedDays_eq
  have hge := t.year_ge
  have hle := t.year_le
  have hpos := t.day_pos
  have hday31 : t.day ≤ 31 := Nat.le_trans t.day_le (daysInMonth_le _ _)
  have hmonths := monthDays_le t.month
  unfold countedDays at hcounted
  unfold checkedDays
  rw [hyear, hmonth, hday]
  generalize (monthDays.getD t.month 0).toNat = days at *
  rw [Option.bind_eq_bind, checked_bind (t.year - 1970) (by omega) (by omega),
    checked_bind ((t.year - 1970) * 365) (by omega) (by omega),
    checked_bind (t.year / 4 - 492) (by omega) (by omega),
    checked_bind ((t.year - 1970) * 365 + (t.year / 4 - 492)) (by omega) (by omega),
    checked_bind ((t.year - 1970) * 365 + (t.year / 4 - 492) + days) (by omega) (by omega),
    checked_bind ((t.year - 1970) * 365 + (t.year / 4 - 492) + days + t.day) (by omega) (by omega)]
  by_cases hback : t.datetime.year &&& 3 = 0 ∧ t.datetime.month ≤ 2
  · rw [if_pos hback] at hcounted ⊢
    exact checked_eq (by omega) (by omega)
  · rw [if_neg hback] at hcounted ⊢
    rw [hcounted, Nat.add_zero]

/-- No intermediate result wraps. -/
theorem checkedSecond_eq (t : GregorianTime) :
    checkedSecond t.datetime = some (rtcDateTimeToSecond t.datetime).toNat := by
  obtain ⟨-, -, -, hhour, hminute, hsecond⟩ := t.toNat_fields
  have hhour' := t.hour_lt
  have hminute' := t.minute_lt
  have hsecond' := t.second_lt
  have hencoder := t.encoder_eq
  have hlt := (rtcDateTimeToSecond t.datetime).toNat_lt
  have hseconds : t.moment.seconds = 86400 * t.moment.date.number + 3600 * t.hour +
    60 * t.minute + t.second := rfl
  unfold checkedSecond
  rw [checkedDays_eq, hhour, hminute, hsecond]
  generalize t.moment.date.number = days at *
  rw [Option.bind_eq_bind, Option.bind_some,
    checked_bind ((days + 1) * 86400) (by omega) (by omega),
    checked_bind (t.hour * 3600) (by omega) (by omega),
    checked_bind ((days + 1) * 86400 + t.hour * 3600) (by omega) (by omega),
    checked_bind (t.minute * 60) (by omega) (by omega),
    checked_bind ((days + 1) * 86400 + t.hour * 3600 + t.minute * 60) (by omega) (by omega),
    checked_bind ((days + 1) * 86400 + t.hour * 3600 + t.minute * 60 + t.second) (by omega)
      (by omega)]
  exact checked_eq (by omega) (by omega)

theorem eq_of_moment {a b : GregorianTime} (h : a.moment = b.moment) : a = b := by
  obtain ⟨y, mo, d, hr, mi, s, _, _, _, _, _, _, _, _, _⟩ := a
  obtain ⟨y', mo', d', hr', mi', s', _, _, _, _, _, _, _, _, _⟩ := b
  simp only [moment, Moment.mk.injEq, GregorianDay.mk.injEq] at h
  obtain ⟨⟨rfl, rfl, rfl⟩, rfl, rfl, rfl⟩ := h
  rfl

/-- The encoder orders dates and times as the calendar does. -/
theorem encoder_lt_iff (a b : GregorianTime) :
    a.moment.fields < b.moment.fields ↔
      rtcDateTimeToSecond a.datetime < rtcDateTimeToSecond b.datetime := by
  have ha := a.encoder_eq
  have hb := b.encoder_eq
  rw [UInt32.lt_iff_toNat_lt, ha, hb]
  constructor
  · intro h
    have hlt := Moment.seconds_lt a.year_ge h
    omega
  · intro h
    rcases lt_trichotomy a.moment.fields b.moment.fields with hlt | heq | hgt
    · exact hlt
    · rw [Moment.eq_of_fields heq] at h
      exact absurd h (Nat.lt_irrefl _)
    · have hlt := Moment.seconds_lt b.year_ge hgt
      omega

end GregorianTime

/-- **Elapsed time.** The encodings of two dates and times from 1970 to 2099 differ by exactly
the seconds that lead from the one to the other, no intermediate result wraps, and the
encoding is strictly increasing and injective. -/
theorem encoder_measures_elapsed (a b : GregorianTime) :
    (∀ n, Moment.tick^[n] a.moment = b.moment ↔
      (rtcDateTimeToSecond b.datetime).toNat = (rtcDateTimeToSecond a.datetime).toNat + n) ∧
      checkedSecond a.datetime = some (rtcDateTimeToSecond a.datetime).toNat ∧
      (a.moment.fields < b.moment.fields ↔
        rtcDateTimeToSecond a.datetime < rtcDateTimeToSecond b.datetime) ∧
      (rtcDateTimeToSecond a.datetime = rtcDateTimeToSecond b.datetime → a = b) := by
  have ha := a.encoder_eq
  have hb := b.encoder_eq
  refine ⟨?_, a.checkedSecond_eq, a.encoder_lt_iff b, ?_⟩
  · intro n
    rw [Moment.iterate_tick_iff a.year_ge b.year_ge, ha, hb]
    omega
  · intro h
    have hseconds : a.moment.seconds = b.moment.seconds := by
      rw [h] at ha
      omega
    apply GregorianTime.eq_of_moment
    apply Moment.eq_of_fields
    exact Moment.fields_eq_of_seconds a.year_ge b.year_ge hseconds

end IBoxClient
