import TimeTracker.Lib.Strftime
import TimeTracker.Structs

/-!
# Dates and times as texts

What the program relies on of `chrono`: how the numbers of a text become a date and a time
(`toNaiveDate`, `toNaiveTime`), and which items the formats and the `FromStr` implementations
have (`ChronoParsers.Documented`).

* **`parse_dateTime`**: a date and time that has been printed is read back, except that a leap
  second ends up at the end of a minute: chrono prints it as the second after
  (`NaiveTime.normalize`).
-/

namespace TimeTracker

open Strftime (Field Item Parsed ReadsBack)

/-! ## From numbers to dates -/

/-- The years of `chrono`. -/
def NaiveDate.InRange (d : NaiveDate) : Prop := -262143 ≤ d.year ∧ d.year ≤ 262142

instance (d : NaiveDate) : Decidable d.InRange := inferInstanceAs (Decidable (_ ∧ _))

/-- `NaiveDate::from_ymd_opt`. -/
def NaiveDate.fromYmdOpt (year : Int) (month day : Nat) : Option NaiveDate :=
  if valid : 1 ≤ month ∧ month ≤ 12 ∧ 1 ≤ day ∧ day ≤ daysInMonth year month then
    if -262143 ≤ year ∧ year ≤ 262142 then some ⟨year, month, day, valid⟩ else none
  else none

/-- `NaiveTime::from_hms_nano_opt`: only second 59 has a leap second after it. -/
def NaiveTime.fromHmsNanoOpt (hour minute second nano : Nat) : Option NaiveTime :=
  if valid : hour < 24 ∧ minute < 60 ∧ second < 60 ∧ nano < 2000000000 then
    if 1000000000 ≤ nano ∧ second ≠ 59 then none else some ⟨hour, minute, second, nano, valid⟩
  else none

/-- `Parsed::to_naive_date`. -/
def toNaiveDate (parsed : Parsed) : Option NaiveDate := do
  let year ← parsed .year
  let month ← parsed .month
  let day ← parsed .day
  NaiveDate.fromYmdOpt year month.toNat day.toNat

/-- The second and the nanoseconds of `Parsed::to_naive_time`. Second 60 is a fraction of second
59. -/
def secondAndNano (parsed : Parsed) : Option (Nat × Nat) :=
  match parsed .second, parsed .nanosecond with
  | none, none => some (0, 0)
  | none, some _ => none
  | some second, nano =>
    let nano := (nano.getD 0).toNat
    some (if second = 60 then (59, 1000000000 + nano) else (second.toNat, nano))

/-- `Parsed::to_naive_time`. -/
def toNaiveTime (parsed : Parsed) : Option NaiveTime := do
  let hour ← parsed .hour
  let minute ← parsed .minute
  let (second, nano) ← secondAndNano parsed
  NaiveTime.fromHmsNanoOpt hour.toNat minute.toNat second nano

/-- `Parsed::to_naive_datetime_with_offset(0)`. -/
def toNaiveDateTime (parsed : Parsed) : Option NaiveDateTime := do
  let date ← toNaiveDate parsed
  let time ← toNaiveTime parsed
  return { date, time }

/-! ## Formats

A format is a list of items (`Strftime.items`). The program uses two formats, and the two `FromStr`
implementations have items of their own, which allow whitespace between the numbers. chrono is not
part of the sources: that it reads a text item by item is what `ChronoParsers.Documented` says. -/

/-- `%Y-%m-%d`. -/
def dateItems : List Item :=
  [.numeric .year, .literal '-', .numeric .month, .literal '-', .numeric .day]

/-- `%H:%M:%S%.f`. -/
def timeItems : List Item :=
  [.numeric .hour, .literal ':', .numeric .minute, .literal ':', .numeric .second, .fraction]

/-- The items of `NaiveDate::from_str`. -/
def dateFromStrItems : List Item :=
  [.numeric .year, .space [], .literal '-', .numeric .month, .space [], .literal '-',
    .numeric .day, .space []]

/-- The items of `NaiveDateTime::from_str`. -/
def dateTimeFromStrItems : List Item :=
  dateFromStrItems ++ [.literal 'T', .numeric .hour, .space [], .literal ':', .numeric .minute,
    .space [], .literal ':', .numeric .second, .fraction, .space []]

/-- What is documented of the parsers: the items of a format, read one after the other. -/
structure ChronoParsers.Documented (chrono : ChronoParsers) : Prop where
  parseDate : ∀ s, chrono.parseDate s =
    (Strftime.parse dateFromStrItems s.toList).bind toNaiveDate
  dateFromStr : ∀ s format items, Strftime.items format.toList = some items →
    chrono.dateFromStr s format = (Strftime.parse items s.toList).bind toNaiveDate
  dateTimeFromStr : ∀ s format items, Strftime.items format.toList = some items →
    chrono.dateTimeFromStr s format = (Strftime.parse items s.toList).bind toNaiveDateTime

/-- Parsers with the documented behaviour, and no other format. -/
def ChronoParsers.documented : ChronoParsers where
  parseDate s := (Strftime.parse dateFromStrItems s.toList).bind toNaiveDate
  dateFromStr s format :=
    (Strftime.items format.toList).bind fun items =>
      (Strftime.parse items s.toList).bind toNaiveDate
  dateTimeFromStr s format :=
    (Strftime.items format.toList).bind fun items =>
      (Strftime.parse items s.toList).bind toNaiveDateTime

/-- The hypotheses on the parsers can be met: these parsers meet them. -/
theorem documented_documented : ChronoParsers.documented.Documented where
  parseDate _ := rfl
  dateFromStr s format items h := by
    show (Strftime.items format.toList).bind _ = _
    rw [h, Option.bind_some]
  dateTimeFromStr s format items h := by
    show (Strftime.items format.toList).bind _ = _
    rw [h, Option.bind_some]

/-! ## What is printed is read back

Printing is the printing of a format (`print_date`, `print_dateTime`), every number is in the range
its field accepts (`inRange_of_date`, `inRange_of_time`), and no number runs into the text behind it
(`readsBack_date` and the three after it). So `Strftime.parse_print` applies, and the text is read
as the numbers it was printed from. -/

/-- The format the client passes for a date is made of the three numbers and two hyphens. -/
theorem items_date : Strftime.items "%Y-%m-%d".toList = some dateItems := by decide

/-- And that of a date and time of the six numbers and the decimals. -/
theorem items_dateTime : Strftime.items "%Y-%m-%dT%H:%M:%S%.f".toList =
    some (dateItems ++ .literal 'T' :: timeItems) := by decide

/-- The numbers of a date. -/
def NaiveDate.fields (d : NaiveDate) : Field → Int
  | .year => d.year
  | .month => d.month
  | .day => d.day
  | _ => 0

/-- The numbers of a date and time, with a leap second as the second after. -/
def NaiveDateTime.fields (dt : NaiveDateTime) : Field → Int
  | .hour => dt.time.hour
  | .minute => dt.time.minute
  | .second => (dt.time.second + dt.time.nano / 1000000000 : Nat)
  | .nanosecond => (dt.time.nano % 1000000000 : Nat)
  | field => dt.date.fields field

/-- The time that is read from the text of this one: a leap second is only there at the end of a
minute. -/
def NaiveTime.normalize (t : NaiveTime) : NaiveTime :=
  if h : 1000000000 ≤ t.nano ∧ t.second ≠ 59 then
    { t with
      second := t.second + 1
      nano := t.nano - 1000000000
      valid := by have hvalid := t.valid; omega }
  else t

def NaiveDateTime.normalize (dt : NaiveDateTime) : NaiveDateTime :=
  { dt with time := dt.time.normalize }

section
variable {d : NaiveDate} {dt : NaiveDateTime} {fields : Field → Int}

/-- `NaiveDate::to_string` prints the items of the format, whatever the other numbers are: the
numbers of a date and time print their date in the same way. -/
theorem print_date (hyear : fields .year = d.year) (hmonth : fields .month = d.month)
    (hday : fields .day = d.day) : Strftime.print fields dateItems = d.format := by
  simp [Strftime.print, dateItems, Item.print, Field.print, hyear, hmonth, hday,
    NaiveDate.format, formatYear, zeroPadded, Strftime.printNumber, Field.width]

/-- The decimals are those of the nanosecond within its second; a leap second has gone to the
seconds. -/
theorem print_fraction (nano : Nat) :
    Strftime.printFraction (nano % 1000000000) = formatFraction nano := rfl

/-- `NaiveTime::to_string` prints the items of a time, a leap second as second 60 or as the second
after. -/
theorem print_time : Strftime.print dt.fields timeItems = dt.time.format := by
  have hsecond : (dt.fields .second).toNat = dt.time.second + dt.time.nano / 1000000000 := rfl
  have hnano : (dt.fields .nanosecond).toNat = dt.time.nano % 1000000000 := rfl
  have hhour : (dt.fields .hour).toNat = dt.time.hour := rfl
  have hminute : (dt.fields .minute).toNat = dt.time.minute := rfl
  simp only [Strftime.print, timeItems, List.flatMap_cons, List.flatMap_nil, Item.print,
    Field.print, hsecond, hnano, hhour, hminute, print_fraction, List.append_nil,
    NaiveTime.format, List.append_assoc, List.cons_append, List.nil_append]
  rfl

/-- The two halves put together, with the `T` between them: what serde writes for a date and
time. -/
theorem print_dateTime : Strftime.print dt.fields (dateItems ++ .literal 'T' :: timeItems) =
    dt.format.toList := by
  have hdate : Strftime.print dt.fields dateItems = dt.date.format := print_date rfl rfl rfl
  show (List.flatMap _ (dateItems ++ _)) = _
  rw [List.flatMap_append, List.flatMap_cons]
  show Strftime.print dt.fields dateItems ++ ('T' :: Strftime.print dt.fields timeItems) = _
  rw [hdate, print_time, NaiveDateTime.format, String.toList_ofList]

/-- Whitespace that is skipped prints nothing. -/
theorem print_dateFromStr :
    Strftime.print fields dateFromStrItems = Strftime.print fields dateItems := by
  simp [Strftime.print, dateFromStrItems, dateItems, Item.print]

/-- The items of `NaiveDateTime::from_str` print the same text, as they differ in whitespace
only. -/
theorem print_dateTimeFromStr : Strftime.print fields dateTimeFromStrItems =
    Strftime.print fields (dateItems ++ .literal 'T' :: timeItems) := by
  simp [Strftime.print, dateTimeFromStrItems, dateFromStrItems, dateItems, timeItems, Item.print]

/-- The numbers of a date are accepted. -/
theorem inRange_of_date (hyear : fields .year = d.year) (hmonth : fields .month = d.month)
    (hday : fields .day = d.day) (hrange : d.InRange) :
    Field.year.inRange (fields .year) = true ∧ Field.month.inRange (fields .month) = true ∧
      Field.day.inRange (fields .day) = true := by
  have hvalid := d.valid
  have hlast : daysInMonth d.year d.month ≤ 31 := by
    unfold daysInMonth
    split
    · split <;> omega
    all_goals omega
  obtain ⟨hlow, hhigh⟩ := hrange
  simp only [Field.inRange, hyear, hmonth, hday, Bool.and_eq_true, decide_eq_true_eq]
  omega

/-- The numbers of a time are accepted, too. Second 60 is, which is what a leap second at the end of
a minute prints. -/
theorem inRange_of_time (dt : NaiveDateTime) : Field.hour.inRange (dt.fields .hour) = true ∧
    Field.minute.inRange (dt.fields .minute) = true ∧
    Field.second.inRange (dt.fields .second) = true ∧
    Field.nanosecond.inRange (dt.fields .nanosecond) = true := by
  have hvalid := dt.time.valid
  have hsecond : dt.fields .second = (dt.time.second + dt.time.nano / 1000000000 : Nat) := rfl
  have hnano : dt.fields .nanosecond = (dt.time.nano % 1000000000 : Nat) := rfl
  have hhour : dt.fields .hour = dt.time.hour := rfl
  have hminute : dt.fields .minute = dt.time.minute := rfl
  simp only [Field.inRange, hsecond, hnano, hhour, hminute, Bool.and_eq_true, decide_eq_true_eq]
  omega

/-- The format of a date reads what it has printed, in front of any text. -/
theorem readsBack_date {rest : List Char} (hyear : fields .year = d.year)
    (hmonth : fields .month = d.month) (hday : fields .day = d.day) (hrange : d.InRange) :
    ReadsBack fields dateItems rest := by
  obtain ⟨hy, hm, hd⟩ := inRange_of_date hyear hmonth hday hrange
  exact ⟨hy, Strftime.noDigitNext_cons rfl, trivial, trivial, hm, trivial, trivial, trivial, hd,
    trivial, trivial⟩

/-- `NaiveDate::from_str` skips whitespace after a number, so the text that follows the date must
not begin with any. -/
theorem readsBack_dateFromStr {rest : List Char} (hyear : fields .year = d.year)
    (hmonth : fields .month = d.month) (hday : fields .day = d.day) (hrange : d.InRange)
    (hrest : ∀ c ∈ rest.head?, Strftime.isWhiteSpace c = false) :
    ReadsBack fields dateFromStrItems rest := by
  obtain ⟨hy, hm, hd⟩ := inRange_of_date hyear hmonth hday hrange
  have hspace : ∀ text : List Char, ∀ c ∈ ('-' :: text).head?, Strftime.isWhiteSpace c = false :=
    fun _ => Strftime.noSpaceNext_cons rfl
  have hempty := List.forall_mem_nil fun c => Strftime.isWhiteSpace c = true
  exact ⟨hy, Strftime.noDigitNext_cons rfl, hempty, hspace _, trivial, trivial, hm, trivial, hempty,
    hspace _, trivial, trivial, hd, trivial, hempty, hrest, trivial⟩

/-- The date is followed by `T`, which is no digit, and the decimals by the end of the text. -/
theorem readsBack_dateTime (hrange : dt.date.InRange) :
    ReadsBack dt.fields (dateItems ++ .literal 'T' :: timeItems) [] := by
  obtain ⟨hh, hm, hs, hn⟩ := inRange_of_time dt
  refine Strftime.readsBack_append.mpr ⟨readsBack_date rfl rfl rfl hrange, trivial, trivial, ?_⟩
  exact ⟨hh, trivial, trivial, trivial, hm, trivial, trivial, trivial, hs, trivial, hn,
    ⟨Strftime.noDigitNext_nil, by simp [Strftime.print]⟩, trivial⟩

/-- `NaiveDateTime::from_str` reads it as well: none of the separators is whitespace. -/
theorem readsBack_dateTimeFromStr (hrange : dt.date.InRange) :
    ReadsBack dt.fields dateTimeFromStrItems [] := by
  obtain ⟨hh, hm, hs, hn⟩ := inRange_of_time dt
  have hcolon : ∀ text : List Char, ∀ c ∈ (':' :: text).head?, Strftime.isWhiteSpace c = false :=
    fun _ => Strftime.noSpaceNext_cons rfl
  have hempty := List.forall_mem_nil fun c => Strftime.isWhiteSpace c = true
  refine Strftime.readsBack_append.mpr ⟨readsBack_dateFromStr rfl rfl rfl hrange ?_, ?_⟩
  · exact Strftime.noSpaceNext_cons rfl
  · exact ⟨trivial, trivial, hh, trivial, hempty, hcolon _, trivial, trivial, hm, trivial, hempty,
      hcolon _, trivial, trivial, hs, trivial, hn,
      ⟨Strftime.noDigitNext_nil, by simp [Strftime.print, Item.print]⟩, hempty,
      fun _ hc => (by cases hc), trivial⟩

/-! ### From the numbers back to the date and time

What is left is arithmetic: the numbers that were read make up the date and time they were taken
from, up to a leap second. -/

/-- The numbers of a date and time that has been read; no decimals are no number. -/
def NaiveDateTime.parsed (dt : NaiveDateTime) : Parsed
  | .nanosecond =>
    if dt.fields .nanosecond = 0 then none else some (dt.fields .nanosecond)
  | field => some (dt.fields field)

/-- Reading the items one after the other records each number of the date and time once. -/
theorem record_dateTime :
    (dateItems ++ .literal 'T' :: timeItems).foldl (Item.record dt.fields) (fun _ => none) =
      dt.parsed := by
  funext field
  by_cases hnano : dt.fields .nanosecond = 0
  · cases field <;>
      simp [dateItems, timeItems, Item.record, NaiveDateTime.parsed, Function.update, hnano]
  · cases field <;>
      simp [dateItems, timeItems, Item.record, NaiveDateTime.parsed, Function.update, hnano]

/-- The items of `NaiveDateTime::from_str` record the same numbers. -/
theorem record_dateTimeFromStr :
    dateTimeFromStrItems.foldl (Item.record dt.fields) (fun _ => none) = dt.parsed := by
  rw [← record_dateTime]
  rfl

/-- The three numbers of a date that chrono can hold make up that date. -/
theorem toNaiveDate_eq {parsed : Parsed} (hyear : parsed .year = some d.year)
    (hmonth : parsed .month = some (d.month : Int)) (hday : parsed .day = some (d.day : Int))
    (hrange : d.InRange) : toNaiveDate parsed = some d := by
  unfold toNaiveDate
  rw [hyear, hmonth, hday]
  show NaiveDate.fromYmdOpt d.year d.month d.day = some d
  unfold NaiveDate.fromYmdOpt
  rw [dif_pos d.valid]
  exact if_pos hrange

/-- A leap second in the middle of a minute was printed as the next second, so it is read as that;
one at the end was printed as second 60, and it is read as a fraction of second 59. -/
theorem secondAndNano_parsed : secondAndNano dt.parsed =
    some (dt.time.normalize.second, dt.time.normalize.nano) := by
  have hvalid := dt.time.valid
  have hnano : ((dt.parsed .nanosecond).getD 0).toNat = dt.time.nano % 1000000000 := by
    have hparsed : dt.parsed .nanosecond =
        if dt.fields .nanosecond = 0 then none else some (dt.fields .nanosecond) := rfl
    have hfield : dt.fields .nanosecond = ((dt.time.nano % 1000000000 : Nat) : Int) := rfl
    rw [hparsed, hfield]
    split
    · show (0 : Int).toNat = _
      omega
    · rfl
  have hsecond : dt.parsed .second =
      some ((dt.time.second + dt.time.nano / 1000000000 : Nat) : Int) := rfl
  unfold secondAndNano
  rw [hsecond]
  simp only [hnano, Int.toNat_natCast]
  unfold NaiveTime.normalize
  by_cases hleap : 1000000000 ≤ dt.time.nano ∧ dt.time.second ≠ 59
  · rw [dif_pos hleap, if_neg (by omega)]
    simp only [Option.some.injEq, Prod.mk.injEq]
    omega
  · rw [dif_neg hleap]
    split
    · simp only [Option.some.injEq, Prod.mk.injEq]
      omega
    · simp only [Option.some.injEq, Prod.mk.injEq]
      omega

/-- What `normalize` leaves is a time chrono accepts: its leap second, if it has one, is after
second 59. -/
theorem toNaiveTime_parsed : toNaiveTime dt.parsed = some dt.time.normalize := by
  have hvalid := dt.time.normalize.valid
  have hleap : ¬ (1000000000 ≤ dt.time.normalize.nano ∧ dt.time.normalize.second ≠ 59) := by
    unfold NaiveTime.normalize
    have hnano := dt.time.valid
    split
    · show ¬ (1000000000 ≤ dt.time.nano - 1000000000 ∧ _)
      omega
    · assumption
  have hsame : dt.time.normalize.hour = dt.time.hour ∧
      dt.time.normalize.minute = dt.time.minute := by
    unfold NaiveTime.normalize
    split <;> exact ⟨rfl, rfl⟩
  unfold toNaiveTime
  rw [secondAndNano_parsed]
  show NaiveTime.fromHmsNanoOpt dt.time.hour dt.time.minute _ _ = _
  unfold NaiveTime.fromHmsNanoOpt
  rw [← hsame.1, ← hsame.2, dif_pos hvalid, if_neg hleap]

/-- The date and the time are read independently of each other. -/
theorem toNaiveDateTime_parsed (hrange : dt.date.InRange) :
    toNaiveDateTime dt.parsed = some dt.normalize := by
  unfold toNaiveDateTime
  rw [toNaiveDate_eq (d := dt.date) rfl rfl rfl hrange, toNaiveTime_parsed]
  rfl

/-- **A date and time that has been printed is read back**, with its leap second at the end of a
minute. -/
theorem parse_dateTime (hrange : dt.date.InRange) :
    (Strftime.parse (dateItems ++ .literal 'T' :: timeItems) dt.format.toList).bind
      toNaiveDateTime = some dt.normalize := by
  rw [← print_dateTime, Strftime.parse_print (readsBack_dateTime hrange), record_dateTime]
  exact toNaiveDateTime_parsed hrange

/-- `FromStr` reads it back, too. -/
theorem parse_dateTimeFromStr (hrange : dt.date.InRange) :
    (Strftime.parse dateTimeFromStrItems dt.format.toList).bind toNaiveDateTime =
      some dt.normalize := by
  rw [← print_dateTime, ← print_dateTimeFromStr,
    Strftime.parse_print (readsBack_dateTimeFromStr hrange), record_dateTimeFromStr]
  exact toNaiveDateTime_parsed hrange

/-- A format with whitespace between the date and the time does not read the `T`: there is no
hour after the date. -/
theorem parse_dateTime_of_space (hrange : dt.date.InRange) (text : List Char)
    (items : List Item) :
    Strftime.parse (dateItems ++ .space text :: .numeric .hour :: items) dt.format.toList =
      none := by
  have htext : dt.format.toList =
      Strftime.print dt.fields dateItems ++ 'T' :: dt.time.format := by
    rw [print_date rfl rfl rfl, NaiveDateTime.format, String.toList_ofList]
  have hagrees : Parsed.Agrees (fun _ => none) dt.fields := fun _ _ hv => by cases hv
  unfold Strftime.parse
  rw [htext, Strftime.parseItems_print _ (readsBack_date rfl rfl rfl hrange) hagrees]
  -- `T` is neither whitespace nor a digit
  rfl

/-- A date that has been printed is read back. -/
theorem parse_date (hrange : d.InRange) :
    (Strftime.parse dateItems d.format).bind toNaiveDate = some d := by
  have hprint : Strftime.print d.fields dateItems = d.format := print_date rfl rfl rfl
  rw [← hprint, Strftime.parse_print (readsBack_date rfl rfl rfl hrange)]
  exact toNaiveDate_eq rfl rfl rfl hrange

/-- And by `NaiveDate::from_str`. -/
theorem parse_dateFromStr (hrange : d.InRange) :
    (Strftime.parse dateFromStrItems d.format).bind toNaiveDate = some d := by
  have hprint : Strftime.print d.fields dateItems = d.format := print_date rfl rfl rfl
  rw [← hprint, ← print_dateFromStr,
    Strftime.parse_print (readsBack_dateFromStr rfl rfl rfl hrange fun _ hc => by cases hc)]
  exact toNaiveDate_eq rfl rfl rfl hrange

/-- A leap second at the end of a minute. -/
def NaiveTime.LeapAtMinuteEnd (t : NaiveTime) : Prop := 1000000000 ≤ t.nano → t.second = 59

instance (t : NaiveTime) : Decidable t.LeapAtMinuteEnd := inferInstanceAs (Decidable (_ → _))

/-- The texts lose nothing but leap seconds in the middle of a minute, which no clock shows. -/
theorem normalize_eq_iff : dt.normalize = dt ↔ dt.time.LeapAtMinuteEnd := by
  constructor
  · intro heq hleap
    by_contra hsecond
    have htime : dt.time.normalize.second = dt.time.second := by
      conv_rhs => rw [← heq]
      rfl
    unfold NaiveTime.normalize at htime
    rw [dif_pos ⟨hleap, hsecond⟩] at htime
    exact absurd htime (Nat.succ_ne_self _)
  · intro hleap
    have htime : dt.time.normalize = dt.time := by
      unfold NaiveTime.normalize
      rw [dif_neg fun h => h.2 (hleap h.1)]
    unfold NaiveDateTime.normalize
    rw [htime]

end

end TimeTracker
