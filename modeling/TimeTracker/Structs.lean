import TimeTracker.Lib.Json.Access
import TimeTracker.TimeTracking

/-!
# The records of the WebSocket protocol

`structs.rs`: the records a client receives, how they are read from the rows of a query, and
the messages and commands of the protocol.

* A record's `toValue` lists its fields in the order of the declaration, as the derived
  serialiser writes them.
* A message or a command is an enumeration in which every variant holds one text: a type and
  a payload. Serialised, it is the object of these two (`WebSocketMessage.toJson`).
* The constructors of `WebSocketMessage` write their payload with `format!`, so a payload is a
  text of its own, and not yet known to be JSON.
-/

namespace TimeTracker

open Json (Value)

/-! ## Records -/

/-- `structs::App`. -/
structure App where
  id : Int
  duration : Option Int
  launches : Option Int
  longestSession : Option Int
  name : Option String
  productName : Option String
  longestSessionOn : Option NaiveDate
deriving DecidableEq

/-- `structs::Timeline`. -/
structure Timeline where
  id : Int
  date : Option NaiveDate
  duration : Option Int
  appId : Option Int
deriving DecidableEq

/-- `structs::Checkpoint`. -/
structure Checkpoint where
  id : Int
  name : Option String
  description : Option String
  createdAt : Option NaiveDateTime
  validFrom : Option NaiveDateTime
  color : Option String
  appId : Int
  isActive : Option Bool
  timelineId : Option Int
  duration : Option Int
  sessionsCount : Option Int
  lastUpdated : Option NaiveDateTime
  activatedAt : Option NaiveDateTime
deriving DecidableEq

/-- `structs::AppStatistics`. The average is a finite `f64`, kept as the number its text is. -/
structure AppStatistics where
  app : App
  totalDuration : Int
  todayDuration : Int
  weekDuration : Int
  monthDuration : Int
  averageSessionLength : Json.Number
  recentSessions : List Timeline
deriving DecidableEq

/-- `structs::SessionCount`. -/
structure SessionCount where
  appId : Int
  sessionCount : Int
deriving DecidableEq

/-! ## Serialisation -/

/-- `serialize_optional_datetime`: the empty string stands for no date. -/
def serializeOptionalDatetime : Option NaiveDateTime → Value
  | some dt => .str dt.format
  | none => .str ""

def NaiveDate.toValue (d : NaiveDate) : Value := .str (String.ofList d.format)

def App.toValue (a : App) : Value :=
  .obj [("id", .int a.id), ("duration", .option .int a.duration),
    ("launches", .option .int a.launches), ("longest_session", .option .int a.longestSession),
    ("name", .option .str a.name), ("product_name", .option .str a.productName),
    ("longest_session_on", .option NaiveDate.toValue a.longestSessionOn)]

def Timeline.toValue (t : Timeline) : Value :=
  .obj [("id", .int t.id), ("date", .option NaiveDate.toValue t.date),
    ("duration", .option .int t.duration), ("app_id", .option .int t.appId)]

/-- The fields of a checkpoint, in the order of the declaration. -/
def Checkpoint.members (c : Checkpoint) : List (String × Value) :=
  [("id", .int c.id), ("name", .option .str c.name), ("description", .option .str c.description),
    ("created_at", serializeOptionalDatetime c.createdAt),
    ("valid_from", serializeOptionalDatetime c.validFrom), ("color", .option .str c.color),
    ("app_id", .int c.appId), ("is_active", .option .bool c.isActive),
    ("timeline_id", .option .int c.timelineId), ("duration", .option .int c.duration),
    ("sessions_count", .option .int c.sessionsCount),
    ("last_updated", serializeOptionalDatetime c.lastUpdated),
    ("activated_at", serializeOptionalDatetime c.activatedAt)]

def Checkpoint.toValue (c : Checkpoint) : Value := .obj c.members

/-- `json!(checkpoint)`: a value of `serde_json` keeps the members of an object in the order of
their keys. -/
def Checkpoint.toMap (c : Checkpoint) : Value := .obj (Json.sortMembers c.members)

def TrackingStatus.toValue (s : TrackingStatus) : Value :=
  .obj [("is_tracking", .bool s.isTracking), ("is_paused", .bool s.isPaused),
    ("current_app", .option .str s.currentApp),
    ("current_session_duration", .int s.currentSessionDuration),
    ("session_start_time", .option .str s.sessionStartTime),
    ("active_checkpoint_ids", .arr (s.activeCheckpointIds.map .int))]

def AppStatistics.toValue (s : AppStatistics) : Value :=
  .obj [("app", s.app.toValue), ("total_duration", .int s.totalDuration),
    ("today_duration", .int s.todayDuration), ("week_duration", .int s.weekDuration),
    ("month_duration", .int s.monthDuration),
    ("average_session_length", .num s.averageSessionLength),
    ("recent_sessions", .arr (s.recentSessions.map Timeline.toValue))]

def SessionCount.toValue (s : SessionCount) : Value :=
  .obj [("app_id", .int s.appId), ("session_count", .int s.sessionCount)]

/-! ## Rows of a query -/

/-- The texts of a row's columns, `HashMap<String, String>`. -/
abbrev RowData := List (String × String)

/-- The parsers of `chrono` the program calls. -/
structure ChronoParsers where
  /-- `str::parse::<NaiveDate>` -/
  parseDate : String → Option NaiveDate
  /-- `NaiveDate::parse_from_str(_, format)` -/
  dateFromStr : String → String → Option NaiveDate
  /-- `NaiveDateTime::parse_from_str(_, format)` -/
  dateTimeFromStr : String → String → Option NaiveDateTime

namespace RowData

/-- `row_data.get(key).filter(|s| !s.is_empty())`. -/
def text (row : RowData) (key : String) : Option String :=
  (Json.lookup row key).filter fun s => !s.isEmpty

/-- `parse_optional_int`. -/
def int (row : RowData) (key : String) : Option Int :=
  (row.text key).bind fun s => parseI32 s.toList

/-- `row_data.get("id")?.parse().ok()?`. -/
def id (row : RowData) : Option Int := (Json.lookup row "id").bind fun s => parseI32 s.toList

/-- `bool::from_str`. -/
def bool (row : RowData) (key : String) : Option Bool :=
  (row.text key).bind fun s =>
    if s = "true" then some true else if s = "false" then some false else none

/-- `parse_optional_datetime`: four formats, one after the other. -/
def dateTime (chrono : ChronoParsers) (row : RowData) (key : String) : Option NaiveDateTime :=
  (row.text key).bind fun s =>
    (chrono.dateTimeFromStr s "%Y-%m-%d %H:%M:%S%.f").or <|
    (chrono.dateTimeFromStr s "%Y-%m-%d %H:%M:%S").or <|
    (chrono.dateTimeFromStr s "%Y-%m-%dT%H:%M:%S%.f").or <|
    chrono.dateTimeFromStr s "%Y-%m-%dT%H:%M:%S"

end RowData

def App.fromPgRow (chrono : ChronoParsers) (row : RowData) : Option App := do
  let id ← row.id
  return {
    id
    duration := row.int "duration"
    launches := row.int "launches"
    longestSession := row.int "longest_session"
    name := row.text "name"
    productName := row.text "product_name"
    longestSessionOn := (row.text "longest_session_on").bind fun s =>
      chrono.dateFromStr s "%Y-%m-%d" }

def Timeline.fromPgRow (chrono : ChronoParsers) (row : RowData) : Option Timeline := do
  let id ← row.id
  return {
    id
    date := (row.text "date").bind fun s =>
      (chrono.parseDate s).or (chrono.dateFromStr s "%Y-%m-%d")
    duration := row.int "duration"
    appId := row.int "app_id" }

def Checkpoint.fromPgRow (chrono : ChronoParsers) (row : RowData) : Option Checkpoint := do
  let id ← row.id
  return {
    id
    name := row.text "name"
    description := row.text "description"
    createdAt := row.dateTime chrono "created_at"
    validFrom := row.dateTime chrono "valid_from"
    color := row.text "color"
    appId := (row.int "app_id").getD 0
    isActive := row.bool "is_active"
    timelineId := row.int "timeline_id"
    duration := row.int "duration"
    sessionsCount := row.int "sessions_count"
    lastUpdated := row.dateTime chrono "last_updated"
    activatedAt := row.dateTime chrono "activated_at" }

/-! ## Messages -/

/-- The variants of `WebSocketMessage`. -/
inductive MessageType where
  | appsList
  | timelineData
  | app
  | error
  | success
  | trackingStatusUpdate
  | statisticsData
  | sessionCounts
  | checkpointsList
  | checkpoint
  | activeCheckpoints
  | trackingStatus
  | sessionCountsData
  | statistics
  | checkpointStats
deriving DecidableEq

/-- `#[serde(rename = …)]`. -/
def MessageType.rename : MessageType → String
  | .appsList => "apps_list"
  | .timelineData => "timeline_data"
  | .app => "app"
  | .error => "error"
  | .success => "success"
  | .trackingStatusUpdate => "tracking_status_update"
  | .statisticsData => "statistics_data"
  | .sessionCounts => "session_counts_legacy"
  | .checkpointsList => "checkpoints_list"
  | .checkpoint => "checkpoint"
  | .activeCheckpoints => "active_checkpoints"
  | .trackingStatus => "tracking_status"
  | .sessionCountsData => "session_counts"
  | .statistics => "statistics"
  | .checkpointStats => "checkpoint_stats"

/-- `structs::WebSocketMessage`. -/
structure WebSocketMessage where
  type : MessageType
  payload : String
deriving DecidableEq

/-- `{"key": json}`, as `format!` puts it together. -/
def jsonPayload (key json : String) : String := "\x7b\"" ++ key ++ "\": " ++ json ++ "\x7d"

/-- `{"message": "message"}`, as `format!` puts it together: the message is copied as it is. -/
def messagePayload (message : String) : String := jsonPayload "message" ("\"" ++ message ++ "\"")

namespace WebSocketMessage

def error (message : String) : WebSocketMessage := ⟨.error, messagePayload message⟩

def success (message : String) : WebSocketMessage := ⟨.success, messagePayload message⟩

def appsList (appsJson : String) : WebSocketMessage := ⟨.appsList, jsonPayload "apps" appsJson⟩

def timelineData (timelineJson : String) : WebSocketMessage :=
  ⟨.timelineData, jsonPayload "timeline" timelineJson⟩

def app (appJson : String) : WebSocketMessage := ⟨.app, jsonPayload "app" appJson⟩

def checkpointsList (checkpointsJson : String) : WebSocketMessage :=
  ⟨.checkpointsList, jsonPayload "checkpoints" checkpointsJson⟩

def activeCheckpoints (checkpointsJson : String) : WebSocketMessage :=
  ⟨.activeCheckpoints, jsonPayload "active_checkpoints" checkpointsJson⟩

def trackingStatus (statusJson : String) : WebSocketMessage :=
  ⟨.trackingStatus, jsonPayload "status" statusJson⟩

def trackingStatusUpdate (statusJson : String) : WebSocketMessage :=
  ⟨.trackingStatusUpdate, jsonPayload "status" statusJson⟩

def sessionCountsData (countsJson : String) : WebSocketMessage :=
  ⟨.sessionCountsData, jsonPayload "counts" countsJson⟩

def statisticsData (statisticsJson : String) : WebSocketMessage :=
  ⟨.statisticsData, jsonPayload "statistics" statisticsJson⟩

/-- The text is already the whole object. -/
def checkpointStats (statsJson : String) : WebSocketMessage := ⟨.checkpointStats, statsJson⟩

/-- `to_json`: the type and the payload, as an object. The payload is a JSON string there, so
this cannot fail. -/
def toJson (message : WebSocketMessage) : String :=
  Json.toText (.obj [("type", .str message.type.rename), ("payload", .str message.payload)])

end WebSocketMessage

/-! ## Commands -/

/-- The variants of `WebSocketCommand`. -/
inductive CommandType where
  | getApps
  | getTimeline
  | getAppByName
  | addProcess
  | deleteProcess
  | getTrackingStatus
  | getStatistics
  | getSessionCounts
  | getCheckpoints
  | createCheckpoint
  | setActiveCheckpoint
  | deleteCheckpoint
  | getActiveCheckpoints
  | getCheckpointStats
  | updateConfig
  | subscribe
  | unsubscribe
deriving DecidableEq

/-- `structs::WebSocketCommand`. -/
structure WebSocketCommand where
  type : CommandType
  payload : String
deriving DecidableEq

end TimeTracker
