import IBoxClient.Lib.Bytes

/- The calendar of the real time clock (`ibox_rtc.c`). The RTC counts seconds since
   1970-01-01; `RTC_SetTime` and `RTC_StrSetTime` set the counter to a date,
   `RTC_GetTime` and `RTC_Get_str` read it back.

   The two directions do not fit together. The encoder takes the day of the month as
   it is, although the first day is no day after the beginning of the month, and adds a
   second; the decoder adds the eight hours of the time zone. The second alone is enough:
   no date and time is read back as it was set (`set_time_not_read_back`). -/
namespace IBoxClient

open Bytes

/-- `RTC_DateTime_Type`. -/
structure RtcDateTime where
  year : UInt16
  month : UInt16
  day : UInt16
  hour : UInt16
  minute : UInt16
  second : UInt8
  deriving DecidableEq

abbrev secondsInADay : UInt32 := 86400
abbrev secondsInAHour : UInt32 := 3600
abbrev secondsInAMin : UInt32 := 60
abbrev daysInAYear : UInt32 := 365
abbrev daysInALeapYear : UInt32 := 366

/-- `ULY` and `LY` from January on. -/
def uly : List UInt32 := [31, 28, 31, 30, 31, 30, 31, 31, 30, 31, 30, 31]
def ly : List UInt32 := [31, 29, 31, 30, 31, 30, 31, 31, 30, 31, 30, 31]

/-- `MONTH_DAYS`. -/
def monthDays : List UInt32 := [0, 0, 31, 59, 90, 120, 151, 181, 212, 243, 273, 304, 334]

/-- The days that `RTC_DateTimeToSecond` counts. -/
def rtcDateTimeToDays (datetime : RtcDateTime) : UInt32 :=
  let days := (datetime.year.toUInt32 - 1970) * daysInAYear +
    (datetime.year.toUInt32 / 4 - 1970 / 4) + monthDays.getD datetime.month.toNat 0 +
    datetime.day.toUInt32
  if datetime.year &&& 3 = 0 ∧ datetime.month ≤ 2 then days - 1 else days

/-- `RTC_DateTimeToSecond`. -/
def rtcDateTimeToSecond (datetime : RtcDateTime) : UInt32 :=
  rtcDateTimeToDays datetime * secondsInADay + datetime.hour.toUInt32 * secondsInAHour +
    datetime.minute.toUInt32 * secondsInAMin + datetime.second.toUInt32 + 1

/-- The loop over the years in `RTC_SecondToDateTime`; every round takes days away, so
their number bounds the rounds. -/
def yearLoop : Nat → UInt32 → UInt32 → UInt16 → UInt16 × UInt32
  | 0, days, _, year => (year, days)
  | rounds + 1, days, daysInYear, year =>
    if days > daysInYear then
      let year := year + 1
      yearLoop rounds (days - daysInYear)
        (if year &&& 3 ≠ 0 then daysInAYear else daysInALeapYear) year
    else (year, days)

/-- The loop over the months `x`, with their lengths; there may be none that fits. -/
def monthLoop : List UInt32 → UInt16 → UInt32 → Option UInt16 × UInt32
  | [], _, days => (none, days)
  | daysInMonth :: months, x, days =>
    if days ≤ daysInMonth then (some x, days) else monthLoop months (x + 1) (days - daysInMonth)

/-- `RTC_SecondToDateTime`; `datetime` is what the structure held before. -/
def rtcSecondToDateTime (seconds : UInt32) (datetime : RtcDateTime) : RtcDateTime :=
  let days := seconds / secondsInADay
  let left := seconds % secondsInADay
  let y := yearLoop days.toNat days daysInAYear 1970
  let m := monthLoop (if y.1 &&& 3 ≠ 0 then uly else ly) 1 y.2
  { year := y.1
    month := m.1.getD datetime.month
    day := (m.2 + 1).toUInt16
    hour := (left / secondsInAHour).toUInt16
    minute := (left % secondsInAHour / secondsInAMin).toUInt16
    second := (left % secondsInAHour % secondsInAMin).toUInt8 }

/-- `RTC_GetTime`: the RTC counter is read, and the time zone added. -/
def rtcGetTime (counter : UInt32) (datetime : RtcDateTime) : RtcDateTime :=
  rtcSecondToDateTime (counter + 60 * 60 * 8) datetime

/-- `RTC_SetTime`: the value the RTC counter is set to. -/
def rtcSetTime (datetime : RtcDateTime) : UInt32 := rtcDateTimeToSecond datetime

/-- `timestr[i] - '0'`. -/
def timeDigit (timestr : List UInt8) (i : Nat) : Int := (timestr.getD i 0).toNat - 48

/-- The structure that `RTC_StrSetTime` fills. -/
def parseTime (timestr : List UInt8) : RtcDateTime where
  year := .ofInt (timeDigit timestr 0 * 1000 + timeDigit timestr 1 * 100 +
    timeDigit timestr 2 * 10 + timeDigit timestr 3)
  month := .ofInt (timeDigit timestr 4 * 10 + timeDigit timestr 5)
  day := .ofInt (timeDigit timestr 6 * 10 + timeDigit timestr 7)
  hour := .ofInt (timeDigit timestr 8 * 10 + timeDigit timestr 9)
  minute := .ofInt (timeDigit timestr 10 * 10 + timeDigit timestr 11)
  second := .ofInt (timeDigit timestr 12 * 10 + timeDigit timestr 13)

/-- `RTC_StrSetTime`. -/
def rtcStrSetTime (timestr : List UInt8) : UInt32 := rtcSetTime (parseTime timestr)

/-- `RTC_Get_str`; `datetime` is what its variable on the stack holds. -/
def rtcGetStr (counter : UInt32) (datetime : RtcDateTime) : List UInt8 :=
  let d := rtcGetTime counter datetime
  decimal d.year.toNat ++ paddedDecimal 2 d.month.toNat ++ paddedDecimal 2 d.day.toNat ++
    paddedDecimal 2 d.hour.toNat ++ paddedDecimal 2 d.minute.toNat ++
    paddedDecimal 2 d.second.toNat

/-! ## Dates -/

/-- The Gregorian rule. -/
def isLeapYear (year : Nat) : Bool := year % 4 == 0 && (year % 100 != 0 || year % 400 == 0)

def daysInMonth (year month : Nat) : Nat :=
  if month = 2 then if isLeapYear year then 29 else 28
  else if month = 4 ∨ month = 6 ∨ month = 9 ∨ month = 11 then 30
  else 31

/-- A date and time from 1970 to 2099. -/
structure GregorianTime where
  year : Nat
  month : Nat
  day : Nat
  hour : Nat
  minute : Nat
  second : Nat
  year_ge : 1970 ≤ year
  year_le : year ≤ 2099
  month_pos : 1 ≤ month
  month_le : month ≤ 12
  day_pos : 1 ≤ day
  day_le : day ≤ daysInMonth year month
  hour_lt : hour < 24
  minute_lt : minute < 60
  second_lt : second < 60

namespace GregorianTime

def datetime (t : GregorianTime) : RtcDateTime :=
  ⟨.ofNat t.year, .ofNat t.month, .ofNat t.day, .ofNat t.hour, .ofNat t.minute, .ofNat t.second⟩

/-- Two digits. -/
def two (n : Nat) : List UInt8 := [digit (n / 10), digit (n % 10)]

/-- The 14 digits `yyyymmddhhmmss`. -/
def text (t : GregorianTime) : List UInt8 :=
  two (t.year / 100) ++ two (t.year % 100) ++ two t.month ++ two t.day ++ two t.hour ++
    two t.minute ++ two t.second

end GregorianTime

/-! ## Reading back -/

theorem monthDays_le (month : Nat) : (monthDays.getD month 0).toNat ≤ 334 := by
  by_cases h : month < 13
  · have hall : ∀ m < 13, (monthDays.getD m 0).toNat ≤ 334 := by decide
    exact hall month h
  · rw [List.getD_eq_getElem?_getD, List.getElem?_eq_none (by simpa [monthDays] using h)]
    decide

/-- A date the encoder counts without overflow. -/
structure RtcDateTime.InRange (d : RtcDateTime) : Prop where
  year_ge : 1970 ≤ d.year.toNat
  year_le : d.year.toNat ≤ 2099
  day_pos : 1 ≤ d.day.toNat
  day_le : d.day.toNat ≤ 31
  hour_lt : d.hour.toNat < 24
  minute_lt : d.minute.toNat < 60
  second_lt : d.second.toNat < 60

/-- The days, counted without overflow. -/
theorem days_eq {d : RtcDateTime} (h : d.InRange) :
    (rtcDateTimeToDays d).toNat = (d.year.toNat - 1970) * 365 + (d.year.toNat / 4 - 492) +
      (monthDays.getD d.month.toNat 0).toNat + d.day.toNat -
        if d.year &&& 3 = 0 ∧ d.month ≤ 2 then 1 else 0 := by
  obtain ⟨hge, hle, hpos, hday, -, -, -⟩ := h
  have hm := monthDays_le d.month.toNat
  simp only [rtcDateTimeToDays]
  generalize monthDays.getD d.month.toNat 0 = m at hm ⊢
  have h4 : (1970 / 4 : UInt32).toNat = 492 := rfl
  have hyear : (1970 : UInt32).toNat ≤ d.year.toUInt32.toNat := hge
  have hfour : (1970 / 4 : UInt32).toNat ≤ (d.year.toUInt32 / 4).toNat := by
    show 492 ≤ d.year.toUInt32.toNat / 4
    rw [UInt16.toNat_toUInt32]
    omega
  have hdays : ((d.year.toUInt32 - 1970) * daysInAYear + (d.year.toUInt32 / 4 - 1970 / 4) + m +
      d.day.toUInt32).toNat = (d.year.toNat - 1970) * 365 + (d.year.toNat / 4 - 492) + m.toNat +
        d.day.toNat := by
    rw [UInt32.toNat_add, UInt32.toNat_add, UInt32.toNat_add, UInt32.toNat_mul,
      UInt32.toNat_sub_of_le _ _ (UInt32.le_iff_toNat_le.mpr hyear),
      UInt32.toNat_sub_of_le _ _ (UInt32.le_iff_toNat_le.mpr hfour)]
    simp only [UInt32.toNat_div, UInt16.toNat_toUInt32, h4, UInt32.reduceToNat, daysInAYear]
    omega
  split
  · have hone : (1 : UInt32).toNat ≤ ((d.year.toUInt32 - 1970) * daysInAYear +
        (d.year.toUInt32 / 4 - 1970 / 4) + m + d.day.toUInt32).toNat := by
      rw [hdays]
      show 1 ≤ _
      omega
    rw [UInt32.toNat_sub_of_le _ _ (UInt32.le_iff_toNat_le.mpr hone), hdays]
    rfl
  · rw [hdays, Nat.sub_zero]

theorem days_le {d : RtcDateTime} (h : d.InRange) : (rtcDateTimeToDays d).toNat ≤ 48000 := by
  have hm := monthDays_le d.month.toNat
  have hle := h.year_le
  have hday := h.day_le
  rw [days_eq h]
  omega

/-- The seconds, counted without overflow. -/
theorem second_eq {d : RtcDateTime} (h : d.InRange) :
    (rtcDateTimeToSecond d).toNat = (rtcDateTimeToDays d).toNat * 86400 +
      d.hour.toNat * 3600 + d.minute.toNat * 60 + d.second.toNat + 1 := by
  have hdays := days_le h
  obtain ⟨-, -, -, -, hhour, hminute, hsecond⟩ := h
  simp only [rtcDateTimeToSecond, UInt32.toNat_add, UInt32.toNat_mul,
    UInt16.toNat_toUInt32, UInt8.toNat_toUInt32, UInt32.reduceToNat,
    secondsInADay, secondsInAHour, secondsInAMin]
  simp (disch := omega) only [Nat.mod_eq_of_lt]

theorem seconds_eq {d : RtcDateTime} (h : d.InRange) :
    (rtcSetTime d + 60 * 60 * 8).toNat = (rtcDateTimeToDays d).toNat * 86400 +
      d.hour.toNat * 3600 + d.minute.toNat * 60 + d.second.toNat + 1 + 28800 := by
  have hdays := days_le h
  have hsecond := second_eq h
  obtain ⟨-, -, -, -, hhour, hminute, hsec⟩ := h
  simp only [rtcSetTime, UInt32.toNat_add, hsecond, UInt32.reduceToNat, UInt32.reduceMul]
  omega

/-- What is read back is a second later. -/
theorem second_readBack {d : RtcDateTime} (h : d.InRange) (stale : RtcDateTime) :
    (rtcGetTime (rtcSetTime d) stale).second.toNat = (d.second.toNat + 1) % 60 := by
  have hsecond : (rtcGetTime (rtcSetTime d) stale).second =
      ((rtcSetTime d + 60 * 60 * 8) % 86400 % 3600 % 60).toUInt8 := rfl
  rw [hsecond, UInt32.toNat_toUInt8, UInt32.toNat_mod, UInt32.toNat_mod, UInt32.toNat_mod,
    seconds_eq h]
  simp only [UInt32.reduceToNat]
  -- a day and an hour are whole minutes
  rw [Nat.mod_mod_of_dvd _ (by decide : 3600 ∣ 86400),
    Nat.mod_mod_of_dvd _ (by decide : 60 ∣ 3600)]
  omega

namespace GregorianTime

theorem daysInMonth_le (year month : Nat) : daysInMonth year month ≤ 31 := by
  unfold daysInMonth
  split
  · split <;> omega
  · split <;> omega

theorem inRange (t : GregorianTime) : t.datetime.InRange := by
  have hday : t.day ≤ 31 := Nat.le_trans t.day_le (daysInMonth_le _ _)
  have := t.year_ge
  have := t.year_le
  have := t.day_pos
  have := t.hour_lt
  have := t.minute_lt
  have := t.second_lt
  constructor <;> simp only [datetime, UInt16.toNat_ofNat', UInt8.toNat_ofNat'] <;> omega

theorem toNat_second (t : GregorianTime) : t.datetime.second.toNat = t.second := by
  have := t.second_lt
  simp only [datetime, UInt8.toNat_ofNat']
  omega

/-- A digit of the text. -/
theorem timeDigit_digit {timestr : List UInt8} {i d : Nat} (hd : d < 10)
    (h : timestr[i]? = some (digit d)) : timeDigit timestr i = d := by
  rw [timeDigit, List.getD_eq_getElem?_getD, h, Option.getD_some, digit, UInt8.toNat_ofNat']
  omega

/-- Two digits of the text. -/
theorem timeDigit_two {timestr : List UInt8} {i n : Nat} (hn : n < 100)
    (h : timestr[i]? = some (digit (n / 10))) (h' : timestr[i + 1]? = some (digit (n % 10))) :
    timeDigit timestr i * 10 + timeDigit timestr (i + 1) = n := by
  rw [timeDigit_digit (by omega) h, timeDigit_digit (by omega) h']
  omega

theorem ofInt_natCast16 (n : Nat) : UInt16.ofInt n = UInt16.ofNat n := by
  apply UInt16.toNat_inj.mp
  simp only [UInt16.ofInt, UInt16.toNat_ofNat']
  omega

theorem ofInt_natCast8 (n : Nat) : UInt8.ofInt n = UInt8.ofNat n := by
  apply UInt8.toNat_inj.mp
  simp only [UInt8.ofInt, UInt8.toNat_ofNat']
  omega

/-- `RTC_StrSetTime` reads the text as it is meant. -/
theorem parseTime_text (t : GregorianTime) : parseTime t.text = t.datetime := by
  have hday : t.day ≤ 31 := Nat.le_trans t.day_le (daysInMonth_le _ _)
  have hyear := t.year_le
  have hmonth := t.month_le
  have hhour := t.hour_lt
  have hminute := t.minute_lt
  have hsecond := t.second_lt
  have htwo : ∀ i n, n < 100 → t.text[i]? = some (digit (n / 10)) →
      t.text[i + 1]? = some (digit (n % 10)) →
      timeDigit t.text i * 10 + timeDigit t.text (i + 1) = n := fun i n => timeDigit_two
  have hcentury : timeDigit t.text 0 * 10 + timeDigit t.text 1 = ↑(t.year / 100) :=
    htwo 0 _ (by omega) rfl rfl
  have hrest : timeDigit t.text 2 * 10 + timeDigit t.text 3 = ↑(t.year % 100) :=
    htwo 2 _ (by omega) rfl rfl
  have hfour : timeDigit t.text 0 * 1000 + timeDigit t.text 1 * 100 + timeDigit t.text 2 * 10 +
      timeDigit t.text 3 = t.year := by omega
  simp only [parseTime, datetime, hfour, htwo 4 t.month (by omega) rfl rfl,
    htwo 6 t.day (by omega) rfl rfl, htwo 8 t.hour (by omega) rfl rfl,
    htwo 10 t.minute (by omega) rfl rfl, htwo 12 t.second (by omega) rfl rfl, ofInt_natCast16,
    ofInt_natCast8]

end GregorianTime

/-- **The clock.** No date and time is read back as it was set, neither as digits nor as a
structure. -/
theorem set_time_not_read_back (t : GregorianTime) (stale : RtcDateTime) :
    rtcGetStr (rtcStrSetTime t.text) stale ≠ t.text ∧
      rtcGetTime (rtcSetTime t.datetime) stale ≠ t.datetime := by
  have hlt := t.second_lt
  have hback := second_readBack t.inRange stale
  rw [t.toNat_second] at hback
  constructor
  · -- the last digit is another one
    intro h
    have hlast := congrArg List.getLast? h
    rw [rtcStrSetTime, t.parseTime_text, rtcGetStr, List.getLast?_append,
      getLast?_paddedDecimal, Option.some_or, hback] at hlast
    have hdigit : digit ((t.second + 1) % 60 % 10) = digit (t.second % 10) := Option.some.inj hlast
    have hnat := congrArg UInt8.toNat hdigit
    simp only [digit, UInt8.toNat_ofNat'] at hnat
    omega
  · intro h
    rw [h, t.toNat_second] at hback
    omega

/-- Noon of 18 July 2018. -/
def noon : GregorianTime := ⟨2018, 7, 18, 12, 0, 0, by decide, by decide, by decide, by decide,
  by decide, by decide, by decide, by decide, by decide⟩

/-- It is read back as the next day, eight hours and a second later. -/
theorem noon_read_back : noon.text = ascii "20180718120000" ∧
    rtcGetStr (rtcStrSetTime noon.text) ⟨0, 0, 0, 0, 0, 0⟩ = ascii "20180719200001" ∧
    rtcGetStr (rtcStrSetTime noon.text) ⟨0, 0, 0, 0, 0, 0⟩ ≠ noon.text := by
  decide +kernel

end IBoxClient
