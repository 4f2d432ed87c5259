import TimeTracker.CheckpointRows
import TimeTracker.Lib.Json.Decode
import TimeTracker.Lib.Json.Fuel

/-!
# Checkpoints written and read

`Checkpoint` derives both halves of `serde`, but writes its four times with
`serialize_optional_datetime`, which stands an empty text for an absent time. The derived reader
knows nothing of this: it wants `null` for an absent time, and a text to be a date and time.

* `Checkpoint.fromJson`: the derived reader.
* **`fromJson_toJson_iff`**: a checkpoint is read back exactly if all four times are present, with
  leap seconds only at the end of a minute.
-/

namespace TimeTracker

open Json (Value)

/-! ## The derived reader -/

/-- The fields of a checkpoint, in the order of the declaration. -/
def Checkpoint.fieldNames : List String :=
  ["id", "name", "description", "created_at", "valid_from", "color", "app_id", "is_active",
    "timeline_id", "duration", "sessions_count", "last_updated", "activated_at"]

/-- The fields of the derived `Deserialize`; `parseDateTime` is `str::parse::<NaiveDateTime>`. -/
def Checkpoint.fromMembers (parseDateTime : String → Option NaiveDateTime)
    (members : List (String × Value)) : Option Checkpoint := do
  return {
    id := ← Json.decodeField Json.decodeI32 members "id"
    name := ← Json.decodeOptionField Value.asStr members "name"
    description := ← Json.decodeOptionField Value.asStr members "description"
    createdAt := ← Json.decodeOptionField (Json.decodeParsed parseDateTime) members "created_at"
    validFrom := ← Json.decodeOptionField (Json.decodeParsed parseDateTime) members "valid_from"
    color := ← Json.decodeOptionField Value.asStr members "color"
    appId := ← Json.decodeField Json.decodeI32 members "app_id"
    isActive := ← Json.decodeOptionField Value.asBool members "is_active"
    timelineId := ← Json.decodeOptionField Json.decodeI32 members "timeline_id"
    duration := ← Json.decodeOptionField Json.decodeI32 members "duration"
    sessionsCount := ← Json.decodeOptionField Json.decodeI32 members "sessions_count"
    lastUpdated := ←
      Json.decodeOptionField (Json.decodeParsed parseDateTime) members "last_updated"
    activatedAt := ←
      Json.decodeOptionField (Json.decodeParsed parseDateTime) members "activated_at" }

/-- The derived `Deserialize`. -/
def Checkpoint.fromValue (parseDateTime : String → Option NaiveDateTime) (value : Value) :
    Option Checkpoint :=
  (Json.recordMembers fieldNames value).bind (Checkpoint.fromMembers parseDateTime)

/-- `serde_json::from_str::<Checkpoint>`. -/
def Checkpoint.fromJson (parseDateTime : String → Option NaiveDateTime) (json : String) :
    Option Checkpoint :=
  (Json.parse json).bind (Checkpoint.fromValue parseDateTime)

/-- `serde_json::to_string`. -/
def Checkpoint.toJson (c : Checkpoint) : String := Json.toText c.toValue

/-- What is documented of `str::parse::<NaiveDateTime>`. -/
def ParsesDateTimes (parseDateTime : String → Option NaiveDateTime) : Prop :=
  ∀ s, parseDateTime s = (Strftime.parse dateTimeFromStrItems s.toList).bind toNaiveDateTime

/-! ## What is read back -/

/-- The integers of a checkpoint are `i32`. -/
structure Checkpoint.FitsI32 (c : Checkpoint) : Prop where
  id : IsI32 c.id
  appId : IsI32 c.appId
  timelineId : ∀ n ∈ c.timelineId, IsI32 n
  duration : ∀ n ∈ c.duration, IsI32 n
  sessionsCount : ∀ n ∈ c.sessionsCount, IsI32 n

/-- The times of a checkpoint, as far as they are present. -/
def Checkpoint.times (c : Checkpoint) : List NaiveDateTime :=
  c.createdAt.toList ++ c.validFrom.toList ++ c.lastUpdated.toList ++ c.activatedAt.toList

/-- The checkpoint with its times as they are read back. -/
def Checkpoint.normalize (c : Checkpoint) : Checkpoint :=
  { c with
    createdAt := c.createdAt.map NaiveDateTime.normalize
    validFrom := c.validFrom.map NaiveDateTime.normalize
    lastUpdated := c.lastUpdated.map NaiveDateTime.normalize
    activatedAt := c.activatedAt.map NaiveDateTime.normalize }

/-- All four times are present. -/
structure Checkpoint.HasAllTimes (c : Checkpoint) : Prop where
  createdAt : c.createdAt.isSome
  validFrom : c.validFrom.isSome
  lastUpdated : c.lastUpdated.isSome
  activatedAt : c.activatedAt.isSome

section
variable {parseDateTime : String → Option NaiveDateTime}

/-- The empty text is not a date and time. -/
theorem parseDateTime_empty (hparse : ParsesDateTimes parseDateTime) : parseDateTime "" = none := by
  rw [hparse]
  rfl

/-- A time is read back from its text, with a leap second at the end of a minute. -/
theorem parseDateTime_format (hparse : ParsesDateTimes parseDateTime) {dt : NaiveDateTime}
    (hrange : dt.date.InRange) : parseDateTime dt.format = some dt.normalize := by
  rw [hparse]
  exact parse_dateTimeFromStr hrange

/-- **The reader on what the writer has written for a time**: an absent time is an error. -/
theorem decode_serializeOptionalDatetime (hparse : ParsesDateTimes parseDateTime)
    {o : Option NaiveDateTime} (hrange : ∀ dt ∈ o, dt.date.InRange) :
    Json.decodeOption (Json.decodeParsed parseDateTime) (serializeOptionalDatetime o) =
      o.map fun dt => some dt.normalize := by
  cases o with
  | none =>
    show (parseDateTime "").map some = none
    rw [parseDateTime_empty hparse]
    rfl
  | some dt =>
    show (parseDateTime dt.format).map some = some (some dt.normalize)
    rw [parseDateTime_format hparse (hrange dt rfl)]
    rfl

/-- What is read of a checkpoint that has been written. -/
theorem fromMembers_members (hparse : ParsesDateTimes parseDateTime) {c : Checkpoint}
    (hfits : c.FitsI32) (hrange : ∀ dt ∈ c.times, dt.date.InRange) :
    Checkpoint.fromMembers parseDateTime c.members =
      c.createdAt.bind fun _ => c.validFrom.bind fun _ => c.lastUpdated.bind fun _ =>
        c.activatedAt.map fun _ => c.normalize := by
  obtain ⟨hcreatedAt, hvalidFrom, hlastUpdated, hactivatedAt⟩ := forall_mem_times.mp hrange
  unfold Checkpoint.fromMembers Checkpoint.normalize
  rw [Json.decodeField_of_lookup c.members "id" (.int c.id) rfl,
    Json.decodeField_of_lookup c.members "app_id" (.int c.appId) rfl,
    Json.decodeOptionField_of_lookup c.members "name" (.option .str c.name) rfl,
    Json.decodeOptionField_of_lookup c.members "description" (.option .str c.description) rfl,
    Json.decodeOptionField_of_lookup c.members "created_at"
      (serializeOptionalDatetime c.createdAt) rfl,
    Json.decodeOptionField_of_lookup c.members "valid_from"
      (serializeOptionalDatetime c.validFrom) rfl,
    Json.decodeOptionField_of_lookup c.members "color" (.option .str c.color) rfl,
    Json.decodeOptionField_of_lookup c.members "is_active" (.option .bool c.isActive) rfl,
    Json.decodeOptionField_of_lookup c.members "timeline_id" (.option .int c.timelineId) rfl,
    Json.decodeOptionField_of_lookup c.members "duration" (.option .int c.duration) rfl,
    Json.decodeOptionField_of_lookup c.members "sessions_count"
      (.option .int c.sessionsCount) rfl,
    Json.decodeOptionField_of_lookup c.members "last_updated"
      (serializeOptionalDatetime c.lastUpdated) rfl,
    Json.decodeOptionField_of_lookup c.members "activated_at"
      (serializeOptionalDatetime c.activatedAt) rfl,
    Json.decodeI32_int hfits.id, Json.decodeI32_int hfits.appId, Json.decodeOption_str,
    Json.decodeOption_str, Json.decodeOption_str, Json.decodeOption_bool,
    Json.decodeOption_i32 hfits.timelineId, Json.decodeOption_i32 hfits.duration,
    Json.decodeOption_i32 hfits.sessionsCount, decode_serializeOptionalDatetime hparse hcreatedAt,
    decode_serializeOptionalDatetime hparse hvalidFrom,
    decode_serializeOptionalDatetime hparse hlastUpdated,
    decode_serializeOptionalDatetime hparse hactivatedAt]
  cases c.createdAt <;> cases c.validFrom <;> cases c.lastUpdated <;> cases c.activatedAt <;> rfl

/-- The reader wants all four times. -/
theorem fromMembers_eq_some_iff (hparse : ParsesDateTimes parseDateTime) {c c' : Checkpoint}
    (hfits : c.FitsI32) (hrange : ∀ dt ∈ c.times, dt.date.InRange) :
    Checkpoint.fromMembers parseDateTime c.members = some c' ↔
      c.HasAllTimes ∧ c.normalize = c' := by
  rw [fromMembers_members hparse hfits hrange]
  constructor
  · intro hread
    obtain ⟨createdAt, hcreated, hread⟩ := Option.bind_eq_some_iff.mp hread
    obtain ⟨validFrom, hvalid, hread⟩ := Option.bind_eq_some_iff.mp hread
    obtain ⟨lastUpdated, hupdated, hread⟩ := Option.bind_eq_some_iff.mp hread
    obtain ⟨activatedAt, hactivated, hread⟩ := Option.map_eq_some_iff.mp hread
    exact ⟨⟨Option.isSome_of_mem hcreated, Option.isSome_of_mem hvalid,
      Option.isSome_of_mem hupdated, Option.isSome_of_mem hactivated⟩, hread⟩
  · rintro ⟨hall, hread⟩
    obtain ⟨createdAt, hcreated⟩ := Option.isSome_iff_exists.mp hall.createdAt
    obtain ⟨validFrom, hvalid⟩ := Option.isSome_iff_exists.mp hall.validFrom
    obtain ⟨lastUpdated, hupdated⟩ := Option.isSome_iff_exists.mp hall.lastUpdated
    obtain ⟨activatedAt, hactivated⟩ := Option.isSome_iff_exists.mp hall.activatedAt
    rw [hcreated, hvalid, hupdated, hactivated, Option.bind_some, Option.bind_some,
      Option.bind_some, Option.map_some, hread]

/-- A checkpoint is as before, unless a leap second of its times is within a minute. -/
theorem Checkpoint.normalize_eq_iff {c : Checkpoint} :
    c.normalize = c ↔ ∀ dt ∈ c.times, dt.time.LeapAtMinuteEnd := by
  constructor
  · intro hsame
    have hcreatedAt := map_normalize_eq_iff.mp (congrArg Checkpoint.createdAt hsame)
    have hvalidFrom := map_normalize_eq_iff.mp (congrArg Checkpoint.validFrom hsame)
    have hlastUpdated := map_normalize_eq_iff.mp (congrArg Checkpoint.lastUpdated hsame)
    have hactivatedAt := map_normalize_eq_iff.mp (congrArg Checkpoint.activatedAt hsame)
    exact forall_mem_times.mpr ⟨hcreatedAt, hvalidFrom, hlastUpdated, hactivatedAt⟩
  · intro hleap
    obtain ⟨hcreatedAt, hvalidFrom, hlastUpdated, hactivatedAt⟩ := forall_mem_times.mp hleap
    unfold Checkpoint.normalize
    rw [map_normalize_eq_iff.mpr hcreatedAt, map_normalize_eq_iff.mpr hvalidFrom,
      map_normalize_eq_iff.mpr hlastUpdated, map_normalize_eq_iff.mpr hactivatedAt]

/-- A checkpoint that has been written is read field by field. -/
theorem fromJson_toJson (c : Checkpoint) :
    Checkpoint.fromJson parseDateTime c.toJson =
      Checkpoint.fromMembers parseDateTime c.members := by
  have hkeys : c.members.map Prod.fst = Checkpoint.fieldNames := rfl
  have hmembers : Json.recordMembers Checkpoint.fieldNames c.toValue = some c.members :=
    Json.recordMembers_obj _ (by rw [hkeys]; decide)
  rw [Checkpoint.fromJson, Checkpoint.toJson, Json.parse_toText, Option.bind_some,
    Checkpoint.fromValue, hmembers, Option.bind_some]

/-- The years are those with four digits. -/
def Checkpoint.FourDigitYears (c : Checkpoint) : Prop :=
  ∀ dt ∈ c.times, 0 ≤ dt.date.year ∧ dt.date.year ≤ 9999

/-- **A checkpoint is read back** if and only if all of its times are present, and their leap
seconds are at the end of a minute. -/
theorem fromJson_toJson_iff (hparse : ParsesDateTimes parseDateTime) {c : Checkpoint}
    (hfits : c.FitsI32) (hyears : c.FourDigitYears) :
    Checkpoint.fromJson parseDateTime c.toJson = some c ↔
      c.HasAllTimes ∧ ∀ dt ∈ c.times, dt.time.LeapAtMinuteEnd := by
  have hrange : ∀ dt ∈ c.times, dt.date.InRange := fun dt hdt => by
    have hyear := hyears dt hdt
    unfold NaiveDate.InRange
    omega
  rw [fromJson_toJson, fromMembers_eq_some_iff hparse hfits hrange, Checkpoint.normalize_eq_iff]

end

/-- `str::parse::<NaiveDateTime>`, as it is documented. -/
def documentedDateTime (s : String) : Option NaiveDateTime :=
  (Strftime.parse dateTimeFromStrItems s.toList).bind toNaiveDateTime

theorem record_fitsI32 {c : Checkpoints.Model} (h : c.FitsI32) : c.record.FitsI32 where
  id := h.id
  appId := h.appId
  timelineId n hn := by cases hn
  duration := h.duration
  sessionsCount := h.sessionsCount

/-- A checkpoint that is active, activated in a leap second, is read back. -/
theorem fromJson_toJson_activated :
    Checkpoint.fromJson documentedDateTime (activatedIn 59 1500000000 (by decide)).record.toJson =
      some (activatedIn 59 1500000000 (by decide)).record := by
  refine (fromJson_toJson_iff (fun _ => rfl) (record_fitsI32 activatedIn_fitsI32)
    (activatedIn_fourDigitYears (h := by decide))).mpr ⟨⟨rfl, rfl, rfl, rfl⟩, ?_⟩
  decide

/-- **A checkpoint that has never been activated** is not read back. -/
theorem fromJson_toJson_neverActivated :
    ¬ ∀ (parseDateTime : String → Option NaiveDateTime) (c : Checkpoint),
      ParsesDateTimes parseDateTime → c.FitsI32 → c.FourDigitYears →
      Checkpoint.fromJson parseDateTime c.toJson = some c := by
  intro hall
  have hread := hall documentedDateTime
    { (activatedIn 59 0 (by decide)).record with activatedAt := none } (fun _ => rfl) ?_ ?_
  · rw [fromJson_toJson] at hread
    exact absurd hread (by decide)
  · obtain ⟨hid, happId, htimelineId, hduration, hsessions⟩ :=
      record_fitsI32 (c := activatedIn 59 0 (by decide)) activatedIn_fitsI32
    exact ⟨hid, happId, htimelineId, hduration, hsessions⟩
  · intro dt hdt
    have htimes : dt ∈ (activatedIn 59 0 (by decide)).times := by
      rcases List.mem_append.mp hdt with hdt | hdt
      · exact List.mem_append_left _ hdt
      · cases hdt
    exact activatedIn_fourDigitYears dt htimes

end TimeTracker
