import Mathlib.Data.List.Defs
import Mathlib.Logic.Function.Iterate

/-!
# Calendar dates and times

The values of `chrono::NaiveDate` and `chrono::NaiveDateTime` the program stores and
prints. A date carries the proof that it is in the calendar, so no function has to treat a
day that does not exist.
-/

namespace TimeTracker

/-- The Gregorian leap-year rule. -/
def isLeapYear (year : Int) : Bool :=
  year % 4 = 0 && (year % 100 ≠ 0 || year % 400 = 0)

def daysInMonth (year : Int) (month : Nat) : Nat :=
  match month with
  | 2 => if isLeapYear year then 29 else 28
  | 4 | 6 | 9 | 11 => 30
  | _ => 31

/-- `chrono::NaiveDate`. -/
structure NaiveDate where
  year : Int
  month : Nat
  day : Nat
  valid : 1 ≤ month ∧ month ≤ 12 ∧ 1 ≤ day ∧ day ≤ daysInMonth year month
deriving DecidableEq

/-- `chrono::NaiveTime`. The nanoseconds run up to two seconds: chrono writes a leap second
as the fraction of the second before it. -/
structure NaiveTime where
  hour : Nat
  minute : Nat
  second : Nat
  nano : Nat
  valid : hour < 24 ∧ minute < 60 ∧ second < 60 ∧ nano < 2000000000
deriving DecidableEq

/-- `chrono::NaiveDateTime`. -/
structure NaiveDateTime where
  date : NaiveDate
  time : NaiveTime
deriving DecidableEq

/-! ## The calendar -/

namespace NaiveDate

/-- Dates in the order of the calendar. -/
instance : LE NaiveDate where
  le a b := a.year < b.year ∨ a.year = b.year ∧
    (a.month < b.month ∨ a.month = b.month ∧ a.day ≤ b.day)

instance (a b : NaiveDate) : Decidable (a ≤ b) :=
  inferInstanceAs (Decidable (a.year < b.year ∨ a.year = b.year ∧
    (a.month < b.month ∨ a.month = b.month ∧ a.day ≤ b.day)))

/-- A month has a first day. -/
theorem daysInMonth_pos (year : Int) (month : Nat) : 1 ≤ daysInMonth year month := by
  unfold daysInMonth
  split
  · split <;> omega
  all_goals omega

/-- The day before. -/
def pred (d : NaiveDate) : NaiveDate :=
  if hday : 1 < d.day then
    { d with
      day := d.day - 1
      valid := by have h := d.valid; omega }
  else if hmonth : 1 < d.month then
    { year := d.year
      month := d.month - 1
      day := daysInMonth d.year (d.month - 1)
      valid := by
        have h := d.valid
        have hpos := daysInMonth_pos d.year (d.month - 1)
        omega }
  else
    { year := d.year - 1
      month := 12
      day := 31
      valid := ⟨by decide, by decide, by decide, Nat.le_refl 31⟩ }

/-- `d - chrono::Duration::days(n)`. -/
def subDays (d : NaiveDate) (n : Nat) : NaiveDate := pred^[n] d

/-- A day is not after itself. -/
theorem le_refl (d : NaiveDate) : d ≤ d := .inr ⟨rfl, .inr ⟨rfl, Nat.le_refl _⟩⟩

/-- Dates are ordered by year, month and day. -/
theorem le_trans {a b c : NaiveDate} (hab : a ≤ b) (hbc : b ≤ c) : a ≤ c := by
  unfold LE.le instLE at *
  simp only at *
  omega

/-- The day before a day is not after it. -/
theorem pred_le (d : NaiveDate) : d.pred ≤ d := by
  have hvalid := d.valid
  unfold pred
  split
  · exact .inr ⟨rfl, .inr ⟨rfl, Nat.sub_le _ _⟩⟩
  · split
    · exact .inr ⟨rfl, .inl (by show d.month - 1 < d.month; omega)⟩
    · exact .inl (by show d.year - 1 < d.year; omega)

/-- Nor is any day before that. -/
theorem subDays_le (d : NaiveDate) (n : Nat) : d.subDays n ≤ d := by
  unfold subDays
  induction n generalizing d with
  | zero => exact le_refl d
  | succ n ih => exact le_trans (ih d.pred) (pred_le d)

end NaiveDate

/-! ## Printing -/

/-- `{:0w}` of a natural number. -/
def zeroPadded (w n : Nat) : List Char := (Nat.toDigits 10 n).leftpad w '0'

/-- `%Y`: four digits, with an explicit sign outside `0..9999`. -/
def formatYear (year : Int) : List Char :=
  if 0 ≤ year ∧ year ≤ 9999 then zeroPadded 4 year.toNat
  else (if year < 0 then '-' else '+') :: zeroPadded 4 year.natAbs

/-- `%Y-%m-%d`. -/
def NaiveDate.format (d : NaiveDate) : List Char :=
  formatYear d.year ++ '-' :: zeroPadded 2 d.month ++ '-' :: zeroPadded 2 d.day

/-- `%.f`: nothing, or a point and 3, 6 or 9 digits. -/
def formatFraction (nano : Nat) : List Char :=
  let frac := nano % 1000000000
  if frac = 0 then []
  else if frac % 1000000 = 0 then '.' :: zeroPadded 3 (frac / 1000000)
  else if frac % 1000 = 0 then '.' :: zeroPadded 6 (frac / 1000)
  else '.' :: zeroPadded 9 frac

/-- `%H:%M:%S%.f`; a leap second prints as second 60. -/
def NaiveTime.format (t : NaiveTime) : List Char :=
  zeroPadded 2 t.hour ++ ':' :: zeroPadded 2 t.minute ++
    ':' :: zeroPadded 2 (t.second + t.nano / 1000000000) ++ formatFraction t.nano

/-- `%Y-%m-%dT%H:%M:%S%.f`. -/
def NaiveDateTime.format (dt : NaiveDateTime) : String :=
  String.ofList (dt.date.format ++ 'T' :: dt.time.format)

/-- Midnight of 1 January 1970. -/
def NaiveDateTime.unixEpoch : NaiveDateTime where
  date := ⟨1970, 1, 1, by decide⟩
  time := ⟨0, 0, 0, 0, by decide⟩

example : NaiveDateTime.unixEpoch.format = "1970-01-01T00:00:00" := by decide

end TimeTracker
