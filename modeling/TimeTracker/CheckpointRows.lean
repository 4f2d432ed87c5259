import TimeTracker.DateTimes
import TimeTracker.DurationSums
import TimeTracker.Statistics

/-!
# Checkpoints on their way to a client

A row of `checkpoints` becomes JSON (`model_to_json_with_context`), its members become texts, and
`Checkpoint::from_pg_row` reads the texts back, a date and time with four formats one after the
other.

* `Checkpoint.ofModel_eq`: what is left of a row after this.
* **`convertToCheckpoints_rows`**: there is one record for each row, with the values of the row,
  if leap seconds are only at the end of a minute.
* **`convertToCheckpoints_leapSecond`**: a leap second anywhere else has become the second after.
-/

namespace TimeTracker

open Json (Value)

/-! ## Rows as JSON -/

/-- A date and time in the format of `serde`. -/
def NaiveDateTime.toValue (dt : NaiveDateTime) : Value := .str dt.format

def Checkpoints.Model.members (c : Checkpoints.Model) : List (String × Value) :=
  [("activated_at", .option NaiveDateTime.toValue c.activatedAt), ("app_id", .int c.appId),
    ("color", .option .str c.color), ("created_at", .option NaiveDateTime.toValue c.createdAt),
    ("description", .option .str c.description), ("duration", .option .int c.duration),
    ("id", .int c.id), ("is_active", .option .bool c.isActive),
    ("last_updated", .option NaiveDateTime.toValue c.lastUpdated), ("name", .str c.name),
    ("sessions_count", .option .int c.sessionsCount),
    ("valid_from", .option NaiveDateTime.toValue c.validFrom)]

/-- `model_to_json_with_context` of a row of `checkpoints`. -/
def Checkpoints.Model.toValue (c : Checkpoints.Model) : Value := .obj c.members

/-- `Checkpoint` of a row of `checkpoints`, by way of its JSON. -/
def Checkpoint.ofModel (chrono : ChronoParsers) (c : Checkpoints.Model) : Option Checkpoint :=
  Checkpoint.fromPgRow chrono (rowData c.members)

theorem convertToCheckpoints_arr {σ : Type} (env : Environment σ)
    (rows : List Checkpoints.Model) :
    convertToCheckpoints env (.arr (rows.map Checkpoints.Model.toValue)) =
      rows.filterMap (Checkpoint.ofModel env.chrono) :=
  convertArray_arr Checkpoints.Model.members _ rows

/-! ## What the texts are read as -/

theorem items_spacedFraction : Strftime.items "%Y-%m-%d %H:%M:%S%.f".toList =
    some (dateItems ++ .space [' '] :: timeItems) := by decide

theorem items_spaced : Strftime.items "%Y-%m-%d %H:%M:%S".toList =
    some (dateItems ++ .space [' '] :: .numeric .hour :: [.literal ':', .numeric .minute,
      .literal ':', .numeric .second]) := by decide

namespace RowData

variable (row : RowData) (key : String)

/-- A nullable column of booleans. -/
theorem bool_of_lookup (o : Option Bool)
    (h : Json.lookup row key = some (jsonValueToString (.option .bool o))) :
    row.bool key = o := by
  unfold bool text
  rw [h]
  rcases o with _ | _ | _ <;> rfl

/-- The four formats of `parse_optional_datetime`: the two with a space do not read the text of
`serde`, the third one does. -/
theorem dateTime_of_format {chrono : ChronoParsers} (hchrono : chrono.Documented)
    {dt : NaiveDateTime} (hrange : dt.date.InRange)
    (h : row.text key = some dt.format) : row.dateTime chrono key = some dt.normalize := by
  have hfirst : chrono.dateTimeFromStr dt.format "%Y-%m-%d %H:%M:%S%.f" = none := by
    have hread : Strftime.parse (dateItems ++ .space [' '] :: timeItems) dt.format.toList = none :=
      parse_dateTime_of_space hrange [' '] timeItems.tail
    rw [hchrono.dateTimeFromStr _ _ _ items_spacedFraction, hread]
    rfl
  have hsecond : chrono.dateTimeFromStr dt.format "%Y-%m-%d %H:%M:%S" = none := by
    rw [hchrono.dateTimeFromStr _ _ _ items_spaced, parse_dateTime_of_space hrange]
    rfl
  have hthird : chrono.dateTimeFromStr dt.format "%Y-%m-%dT%H:%M:%S%.f" = some dt.normalize := by
    rw [hchrono.dateTimeFromStr _ _ _ items_dateTime]
    exact parse_dateTime hrange
  unfold dateTime
  rw [h, Option.bind_some, hfirst, hsecond, hthird]
  rfl

/-- A nullable column of dates and times. -/
theorem dateTime_of_lookup {chrono : ChronoParsers} (hchrono : chrono.Documented)
    (o : Option NaiveDateTime) (hrange : ∀ dt ∈ o, dt.date.InRange)
    (h : Json.lookup row key = some (jsonValueToString (.option NaiveDateTime.toValue o))) :
    row.dateTime chrono key = o.map NaiveDateTime.normalize := by
  cases o with
  | none =>
    unfold dateTime text
    rw [h]
    rfl
  | some dt =>
    refine row.dateTime_of_format key hchrono (hrange dt rfl) ?_
    unfold text
    rw [h]
    show (some dt.format).filter _ = some dt.format
    rw [Option.filter_some, if_pos]
    simp [NaiveDateTime.format]

end RowData

/-- The dates and times of a row. -/
def Checkpoints.Model.times (c : Checkpoints.Model) : List NaiveDateTime :=
  c.createdAt.toList ++ c.validFrom.toList ++ c.lastUpdated.toList ++ c.activatedAt.toList

/-- A property of all the times of a row, one column after the other. -/
theorem forall_mem_times {P : NaiveDateTime → Prop}
    {createdAt validFrom lastUpdated activatedAt : Option NaiveDateTime} :
    (∀ dt ∈ createdAt.toList ++ validFrom.toList ++ lastUpdated.toList ++ activatedAt.toList,
      P dt) ↔
      (∀ dt ∈ createdAt, P dt) ∧ (∀ dt ∈ validFrom, P dt) ∧ (∀ dt ∈ lastUpdated, P dt) ∧
        ∀ dt ∈ activatedAt, P dt := by
  simp only [List.forall_mem_append, Option.mem_toList, Option.mem_def, and_assoc]

/-- What is left of a row of `checkpoints`. -/
theorem Checkpoint.ofModel_eq {chrono : ChronoParsers} (hchrono : chrono.Documented)
    (c : Checkpoints.Model) (hrange : ∀ dt ∈ c.times, dt.date.InRange) :
    Checkpoint.ofModel chrono c = (checkedI32 c.id).map fun id =>
      { id
        name := (some c.name).filter fun s => !s.isEmpty
        description := c.description.filter fun s => !s.isEmpty
        createdAt := c.createdAt.map NaiveDateTime.normalize
        validFrom := c.validFrom.map NaiveDateTime.normalize
        color := c.color.filter fun s => !s.isEmpty
        appId := (checkedI32 c.appId).getD 0
        isActive := c.isActive
        timelineId := none
        duration := c.duration.bind checkedI32
        sessionsCount := c.sessionsCount.bind checkedI32
        lastUpdated := c.lastUpdated.map NaiveDateTime.normalize
        activatedAt := c.activatedAt.map NaiveDateTime.normalize } := by
  obtain ⟨hcreatedAt, hvalidFrom, hlastUpdated, hactivatedAt⟩ := forall_mem_times.mp hrange
  have hnone : (rowData c.members).int "timeline_id" = none := rfl
  unfold Checkpoint.ofModel Checkpoint.fromPgRow
  rw [RowData.id_of_lookup _ c.id rfl, RowData.text_of_lookup _ "name" (some c.name) rfl,
    RowData.text_of_lookup _ "description" c.description rfl,
    RowData.dateTime_of_lookup _ "created_at" hchrono c.createdAt hcreatedAt rfl,
    RowData.dateTime_of_lookup _ "valid_from" hchrono c.validFrom hvalidFrom rfl,
    RowData.text_of_lookup _ "color" c.color rfl,
    RowData.int_of_lookup _ "app_id" (some c.appId) rfl,
    RowData.bool_of_lookup _ "is_active" c.isActive rfl, hnone,
    RowData.int_of_lookup _ "duration" c.duration rfl,
    RowData.int_of_lookup _ "sessions_count" c.sessionsCount rfl,
    RowData.dateTime_of_lookup _ "last_updated" hchrono c.lastUpdated hlastUpdated rfl,
    RowData.dateTime_of_lookup _ "activated_at" hchrono c.activatedAt hactivatedAt rfl]
  cases checkedI32 c.id <;> rfl

/-! ## The records -/

/-- What a client is to see of a row: an empty text is no text. -/
def Checkpoints.Model.record (c : Checkpoints.Model) : Checkpoint where
  id := c.id
  name := (some c.name).filter fun s => !s.isEmpty
  description := c.description.filter fun s => !s.isEmpty
  createdAt := c.createdAt
  validFrom := c.validFrom
  color := c.color.filter fun s => !s.isEmpty
  appId := c.appId
  isActive := c.isActive
  timelineId := none
  duration := c.duration
  sessionsCount := c.sessionsCount
  lastUpdated := c.lastUpdated
  activatedAt := c.activatedAt

/-- The integers of the row are those of its `i32` columns. -/
structure Checkpoints.Model.FitsI32 (c : Checkpoints.Model) : Prop where
  id : IsI32 c.id
  appId : IsI32 c.appId
  duration : ∀ n ∈ c.duration, IsI32 n
  sessionsCount : ∀ n ∈ c.sessionsCount, IsI32 n

/-- The years are those with four digits. -/
def Checkpoints.Model.FourDigitYears (c : Checkpoints.Model) : Prop :=
  ∀ dt ∈ c.times, 0 ≤ dt.date.year ∧ dt.date.year ≤ 9999

theorem checkedI32_of_isI32 {n : Int} (h : IsI32 n) : checkedI32 n = some n := if_pos h

theorem bind_checkedI32 {o : Option Int} (h : ∀ n ∈ o, IsI32 n) : o.bind checkedI32 = o := by
  cases o with
  | none => rfl
  | some n => exact checkedI32_of_isI32 (h n rfl)

/-- A column keeps its time, unless this has a leap second within a minute. -/
theorem map_normalize_eq_iff {o : Option NaiveDateTime} :
    o.map NaiveDateTime.normalize = o ↔ ∀ dt ∈ o, dt.time.LeapAtMinuteEnd := by
  cases o with
  | none => exact iff_of_true rfl fun _ hdt => by cases hdt
  | some dt =>
    rw [Option.map_some, Option.some.injEq, normalize_eq_iff]
    simp only [Option.mem_some_iff, forall_eq']

/-- **Every row becomes a record with the values of the row**, in the same order, if the leap
seconds of its times are at the end of a minute. -/
theorem convertToCheckpoints_rows {σ : Type} {env : Environment σ}
    (hchrono : env.chrono.Documented) {rows : List Checkpoints.Model}
    (hfits : ∀ c ∈ rows, c.FitsI32) (hyears : ∀ c ∈ rows, c.FourDigitYears)
    (hleap : ∀ c ∈ rows, ∀ dt ∈ c.times, dt.time.LeapAtMinuteEnd) :
    convertToCheckpoints env (.arr (rows.map Checkpoints.Model.toValue)) =
      rows.map Checkpoints.Model.record := by
  rw [convertToCheckpoints_arr, ← List.filterMap_eq_map]
  refine List.filterMap_congr fun c hc => ?_
  have hrange : ∀ dt ∈ c.times, dt.date.InRange := fun dt hdt => by
    have hyear := hyears c hc dt hdt
    unfold NaiveDate.InRange
    omega
  obtain ⟨hcreatedAt, hvalidFrom, hlastUpdated, hactivatedAt⟩ := forall_mem_times.mp (hleap c hc)
  have hfits := hfits c hc
  rw [Checkpoint.ofModel_eq hchrono c hrange, checkedI32_of_isI32 hfits.id,
    checkedI32_of_isI32 hfits.appId, bind_checkedI32 hfits.duration,
    bind_checkedI32 hfits.sessionsCount,
    map_normalize_eq_iff.mpr hcreatedAt, map_normalize_eq_iff.mpr hvalidFrom,
    map_normalize_eq_iff.mpr hlastUpdated, map_normalize_eq_iff.mpr hactivatedAt]
  rfl

/-! ## Leap seconds -/

/-- The tables, with the documented parsers. -/
def documentedEnvironment : Environment World :=
  { epochEnvironment with chrono := .documented }

/-- A checkpoint that has been activated in this second of the epoch. -/
def activatedIn (second nano : Nat) (h : second < 60 ∧ nano < 2000000000) : Checkpoints.Model :=
  { CreateCheckpoint.newCheckpoint "first" none 1 .unixEpoch 1 with
    isActive := some true
    activatedAt := some ⟨NaiveDateTime.unixEpoch.date, ⟨0, 0, second, nano, by omega⟩⟩ }

section
variable {second nano : Nat} {h : second < 60 ∧ nano < 2000000000}

theorem activatedIn_fitsI32 : (activatedIn second nano h).FitsI32 where
  id := (by decide : IsI32 1)
  appId := (by decide : IsI32 1)
  duration n hn := by cases hn
  sessionsCount n hn := by cases hn

theorem activatedIn_fourDigitYears : (activatedIn second nano h).FourDigitYears := by
  intro dt hdt
  have hyear : dt.date = NaiveDateTime.unixEpoch.date := by
    simp only [activatedIn, CreateCheckpoint.newCheckpoint, Checkpoints.Model.times,
      Option.toList_some, List.mem_append, List.mem_singleton] at hdt
    rcases hdt with ((rfl | rfl) | rfl) | rfl <;> rfl
  rw [hyear]
  decide

end

/-- The leap second after the first minute of the epoch reaches the client. -/
theorem convertToCheckpoints_endOfMinute :
    convertToCheckpoints documentedEnvironment
      (.arr ([activatedIn 59 1500000000 (by decide)].map Checkpoints.Model.toValue)) =
    [(activatedIn 59 1500000000 (by decide)).record] := by
  refine convertToCheckpoints_rows documented_documented ?_ ?_ ?_
  · intro c hc
    rw [List.mem_singleton.mp hc]
    exact activatedIn_fitsI32
  · intro c hc
    rw [List.mem_singleton.mp hc]
    exact activatedIn_fourDigitYears
  · intro c hc
    rw [List.mem_singleton.mp hc]
    decide

/-- **A leap second after second 0** has become second 1. -/
theorem convertToCheckpoints_leapSecond :
    ¬ ∀ (env : Environment World) (rows : List Checkpoints.Model), env.chrono.Documented →
      (∀ c ∈ rows, c.FitsI32) → (∀ c ∈ rows, c.FourDigitYears) →
      convertToCheckpoints env (.arr (rows.map Checkpoints.Model.toValue)) =
        rows.map Checkpoints.Model.record := by
  intro hall
  have hrecord := hall documentedEnvironment [activatedIn 0 1000000000 (by decide)]
    documented_documented ?_ ?_
  · rw [convertToCheckpoints_arr] at hrecord
    exact absurd hrecord (by decide)
  · intro c hc
    rw [List.mem_singleton.mp hc]
    exact activatedIn_fitsI32
  · intro c hc
    rw [List.mem_singleton.mp hc]
    exact activatedIn_fourDigitYears

end TimeTracker
