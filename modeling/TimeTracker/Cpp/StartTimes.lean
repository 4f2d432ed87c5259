import TimeTracker.Chrono

/-!
# When a process counts as launched

`workerDelegate` of the C++ tracker sends `LAUNCHES` for a process that was started after the
tracker. It has the start of the tracker as a `struct tm` in local time and the start of the
process as a `SYSTEMTIME` in UTC, and turns each of them into one integer, with months of thirty
days and no year.

* **`NaiveDate.dayNumber_pred`**: the numbers of the days, which say what comes first.
* **`sendsLaunches_iff`**: the integers order the two starts as the calendar does, unless the time
  between them lies between zero and what the calendar is ahead of the thirty-day months.
* **`sendsLaunches_of_same_month`**: within one month it does.
* **`launch_missed`**: across the end of a month it does not.
-/

namespace TimeTracker

/-! ## Numbering the days -/

/-- The days from 1 January of year 1 to 1 January of `year`. -/
def daysBeforeYear (year : Int) : Int :=
  365 * (year - 1) + (year - 1) / 4 - (year - 1) / 100 + (year - 1) / 400

/-- The days of `year` before its month `month`. -/
def daysBeforeMonth (year : Int) : Nat → Nat
  | 0 | 1 => 0
  | month + 2 => daysBeforeMonth year (month + 1) + daysInMonth year (month + 1)

/-- The number of a day: 1 January of year 1 has the number 1. -/
def NaiveDate.dayNumber (d : NaiveDate) : Int :=
  daysBeforeYear d.year + daysBeforeMonth d.year d.month + d.day

/-- The leap-year rule, as the days it adds between two years. -/
theorem daysInMonth_february (year : Int) :
    (daysInMonth year 2 : Int) = 28 + (year / 4 - (year - 1) / 4) -
      (year / 100 - (year - 1) / 100) + (year / 400 - (year - 1) / 400) := by
  rw [show daysInMonth year 2 = if isLeapYear year then 29 else 28 from rfl]
  unfold isLeapYear
  split
  · next h =>
    simp only [Bool.and_eq_true, Bool.or_eq_true, decide_eq_true_eq] at h
    omega
  · next h =>
    simp only [Bool.and_eq_true, Bool.or_eq_true, decide_eq_true_eq] at h
    omega

theorem daysBeforeYear_pred (year : Int) :
    daysBeforeYear year = daysBeforeYear (year - 1) + daysBeforeMonth (year - 1) 12 + 31 := by
  have hmonths : daysBeforeMonth (year - 1) 12 = 0 + 31 + daysInMonth (year - 1) 2 + 31 + 30 +
      31 + 30 + 31 + 31 + 30 + 31 + 30 := rfl
  have hfebruary := daysInMonth_february (year - 1)
  unfold daysBeforeYear
  omega

/-- **The numbers count the days**: the day before has the number before. -/
theorem NaiveDate.dayNumber_pred (d : NaiveDate) : d.pred.dayNumber + 1 = d.dayNumber := by
  have hvalid := d.valid
  unfold NaiveDate.pred
  split
  · next hday =>
    unfold NaiveDate.dayNumber
    dsimp only
    omega
  · next hday =>
    split
    · next hmonth =>
      obtain ⟨m, hm⟩ : ∃ m, d.month = m + 2 := ⟨d.month - 2, by omega⟩
      unfold NaiveDate.dayNumber
      dsimp only
      rw [hm, daysBeforeMonth]
      have hpred : m + 2 - 1 = m + 1 := rfl
      rw [hpred]
      push_cast
      omega
    · next hmonth =>
      have hmonth1 : d.month = 1 := by omega
      unfold NaiveDate.dayNumber
      dsimp only
      rw [daysBeforeYear_pred d.year, hmonth1]
      simp only [daysBeforeMonth]
      push_cast
      omega

/-! ## The two start times -/

namespace Cpp

/-- `struct tm`: the start of the tracker, in local time. -/
structure StTime where
  tmYear : Int
  tmMon : Nat
  tmMday : Nat
  tmHour : Nat
  tmMin : Nat
  tmSec : Nat
  dateValid : tmMon ≤ 11 ∧ 1 ≤ tmMday ∧ tmMday ≤ daysInMonth (tmYear + 1900) (tmMon + 1)
  timeValid : tmHour < 24 ∧ tmMin < 60 ∧ tmSec < 60

/-- `SYSTEMTIME`: the start of a process, in UTC. -/
structure SystemTime where
  wYear : Nat
  wMonth : Nat
  wDay : Nat
  wHour : Nat
  wMinute : Nat
  wSecond : Nat
  dateValid : 1 ≤ wMonth ∧ wMonth ≤ 12 ∧ 1 ≤ wDay ∧ wDay ≤ daysInMonth wYear wMonth
  timeValid : wHour < 24 ∧ wMinute < 60 ∧ wSecond < 60

def monthMulti : Int := 2592000
def dayMulti : Int := 86400
def hourMulti : Int := 3600
def minuteMulti : Int := 60

/-- `appStartTime`. -/
def appStartTime (s : StTime) : Int :=
  (s.tmMon + 1) * monthMulti +
    (s.tmMday * dayMulti + s.tmHour * hourMulti + s.tmMin * minuteMulti + s.tmSec)

/-- `processStartTime`: two hours later, to make it local time. -/
def processStartTime (u : SystemTime) : Int :=
  u.wMonth * monthMulti + u.wDay * dayMulti +
    ((u.wHour + 2) * hourMulti + u.wMinute * minuteMulti + u.wSecond)

/-- `appStartTime < processStartTime`: whether `LAUNCHES` is sent. -/
def sendsLaunches (s : StTime) (u : SystemTime) : Bool := appStartTime s < processStartTime u

/-! ## The order of the calendar -/

def StTime.date (s : StTime) : NaiveDate where
  year := s.tmYear + 1900
  month := s.tmMon + 1
  day := s.tmMday
  valid := by
    have h := s.dateValid
    omega

def SystemTime.date (u : SystemTime) : NaiveDate where
  year := u.wYear
  month := u.wMonth
  day := u.wDay
  valid := u.dateValid

/-- The second of UTC at which the tracker started, where local time is UTC+2. -/
def StTime.utcSeconds (s : StTime) : Int :=
  s.date.dayNumber * 86400 + s.tmHour * 3600 + s.tmMin * 60 + s.tmSec - 2 * 3600

/-- The second of UTC at which the process started. -/
def SystemTime.utcSeconds (u : SystemTime) : Int :=
  u.date.dayNumber * 86400 + u.wHour * 3600 + u.wMinute * 60 + u.wSecond

/-- The seconds from the start of the tracker to the start of the process. -/
def elapsed (s : StTime) (u : SystemTime) : Int := u.utcSeconds - s.utcSeconds

/-- How many days the calendar is ahead, in a month, of months of thirty days with no year. -/
def daysAhead (d : NaiveDate) : Int :=
  daysBeforeYear d.year + daysBeforeMonth d.year d.month - 30 * d.month

/-- What the calendar gets further ahead from the month of `s` to the month of `u`, in
seconds. -/
def drift (s : StTime) (u : SystemTime) : Int := 86400 * (daysAhead u.date - daysAhead s.date)

/-- The integers differ by the time between the two starts, less the drift. -/
theorem processStartTime_sub_appStartTime (s : StTime) (u : SystemTime) :
    processStartTime u - appStartTime s = elapsed s u - drift s u := by
  unfold processStartTime appStartTime elapsed drift daysAhead StTime.utcSeconds
    SystemTime.utcSeconds NaiveDate.dayNumber StTime.date SystemTime.date monthMulti dayMulti
    hourMulti minuteMulti
  dsimp only
  push_cast
  omega

/-- An `int` holds both integers. -/
theorem startTimes_lt (s : StTime) (u : SystemTime) :
    appStartTime s < 2147483648 ∧ processStartTime u < 2147483648 := by
  have hdays : ∀ year month, daysInMonth year month ≤ 31 := by
    intro year month
    unfold daysInMonth
    split
    · split <;> omega
    all_goals omega
  have hs := hdays (s.tmYear + 1900) (s.tmMon + 1)
  have hu := hdays u.wYear u.wMonth
  have hs' := s.dateValid
  have hu' := u.dateValid
  have hst := s.timeValid
  have hut := u.timeValid
  unfold appStartTime processStartTime monthMulti dayMulti hourMulti minuteMulti
  omega

/-- **When the launches are detected right**: the calendar and the integers order the two starts
differently exactly where the time between them lies between zero and the drift. -/
theorem sendsLaunches_iff (s : StTime) (u : SystemTime) :
    (sendsLaunches s u = true ↔ s.utcSeconds < u.utcSeconds) ↔
      ¬ (0 < elapsed s u ∧ elapsed s u ≤ drift s u) ∧
        ¬ (drift s u < elapsed s u ∧ elapsed s u ≤ 0) := by
  have hkeys := processStartTime_sub_appStartTime s u
  have hcalendar : s.utcSeconds < u.utcSeconds ↔ 0 < elapsed s u := by
    unfold elapsed
    omega
  rw [sendsLaunches, decide_eq_true_iff, hcalendar]
  omega

/-- Within one month the order is right. -/
theorem sendsLaunches_of_same_month {s : StTime} {u : SystemTime}
    (hyear : s.date.year = u.date.year) (hmonth : s.date.month = u.date.month) :
    sendsLaunches s u = true ↔ s.utcSeconds < u.utcSeconds := by
  have hdrift : drift s u = 0 := by
    unfold drift daysAhead
    rw [hyear, hmonth]
    omega
  have hkeys := processStartTime_sub_appStartTime s u
  rw [sendsLaunches, decide_eq_true_iff]
  unfold elapsed at hkeys
  omega

/-! ## The end of a month -/

/-- 31 January 2018, 12:00 local time. -/
def noonOfJanuary31 : StTime := ⟨118, 0, 31, 12, 0, 0, by decide, by decide⟩

/-- 1 February 2018, 9:00 UTC: 11:00 local time, the next day. -/
def morningOfFebruary1 : SystemTime := ⟨2018, 2, 1, 9, 0, 0, by decide, by decide⟩

/-- **A launch that is not counted**: the process starts 23 hours after the tracker, and the
integers of both days are the same. -/
theorem launch_missed :
    ¬ ∀ (s : StTime) (u : SystemTime),
      sendsLaunches s u = true ↔ s.utcSeconds < u.utcSeconds := by
  intro hall
  have hbefore : noonOfJanuary31.utcSeconds < morningOfFebruary1.utcSeconds := by decide
  have hsent := (hall noonOfJanuary31 morningOfFebruary1).mpr hbefore
  revert hsent
  decide

end Cpp

end TimeTracker
