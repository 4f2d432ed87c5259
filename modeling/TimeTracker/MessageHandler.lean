import TimeTracker.Server

/-!
# The command handlers

`websocket/handlers.rs`: one handler for each command, in the order of the source. A handler
returns the text of its answer; `handleMessageWithClientId` chooses the handler and
`handleClientMessage` turns an error into an answer (`websocket/client.rs`).

* A record is serialised and its text is put into the payload, which is serialised again.
* Serialising never fails for these records, so the error paths after `to_string` and
  `to_json` are not in the model.
* `try_join_all` is run in order. Only the order in which a failing query is noticed differs.
* The `i32` sums wrap around, as they do without overflow checks.
-/

namespace TimeTracker

open Json (Value)
open Transaction (run_bind_ok run_tryCatch_ok)

variable {σ : Type}

/-! ## Parameters -/

/-- `i as i32`, and the result of an `i32` addition. -/
def asI32 (i : Int) : Int := i.bmod 4294967296

/-- `format!("{}", i)`. -/
def displayI32 (i : Int) : String := String.ofList (Json.intText i)

/-- `HandlerError`, displayed. -/
inductive HandlerError where
  | lockError (message : String)
  | missingParameter (param : String)
  | serializationError (message : String)
deriving DecidableEq

def HandlerError.display : HandlerError → String
  | .lockError message => "Lock acquisition failed: " ++ message
  | .missingParameter param => "Parameter '" ++ param ++ "' is required"
  | .serializationError message => "Serialization failed: " ++ message

/-- `acquire_client_lock`: the lock of the server state, to get at the client. -/
def acquireClientLock : HandlerM σ Unit := do
  if (← get).stateLock = .poisoned then
    bail (HandlerError.lockError ("Server state: " ++ poisonError)).display

/-- With a sound lock the client is there. -/
theorem acquireClientLock_run {state : ServerState σ} (h : state.stateLock = .healthy) :
    acquireClientLock.run.run state = (.ok (), state) := by
  unfold acquireClientLock
  rw [run_bind_ok get_run, if_neg]
  · rfl
  · rw [h]
    simp

def parsePayload (env : Environment σ) (payload : String) : HandlerM σ Params := do
  if payload.isEmpty then return []
  match env.paramsFromStr payload with
  | .ok params => return params
  | .error e =>
    bail (HandlerError.serializationError ("Failed to parse payload: " ++ e)).display

/-- `params.get(key).and_then(JsonValue::as_str)`. -/
def stringParam (params : Params) (key : String) : Option String :=
  (Json.lookup params key).bind Value.asStr

/-- `params.get(key).and_then(JsonValue::as_i64).map(|i| i as i32)`. -/
def i32Param (params : Params) (key : String) : Option Int :=
  ((Json.lookup params key).bind Value.asI64).map asI32

/-- `ok_or_else(|| HandlerError::MissingParameter(key.to_string()))`. -/
def required {α : Type} (key : String) : Option α → HandlerM σ α
  | some a => return a
  | none => bail (HandlerError.missingParameter key).display

def extractStringParam (params : Params) (key : String) : HandlerM σ String :=
  required key (stringParam params key)

def extractI32Param (params : Params) (key : String) : HandlerM σ Int :=
  required key (i32Param params key)

/-! ## Rows -/

def jsonValueToString : Value → String
  | .str s => s
  | .num n => String.ofList n.text
  | .bool b => if b then "true" else "false"
  | .null => ""
  | value => Json.toText value

/-- `convert_json_rows`: the rows that are objects and that the converter accepts. -/
def convertJsonRows {α : Type} (rows : List Value) (converter : RowData → Option α) : List α :=
  (rows.filterMap Value.asObject).filterMap fun obj =>
    converter (obj.map fun (k, v) => (k, jsonValueToString v))

/-- `data.as_array().map(…).unwrap_or_default()`. -/
def convertArray {α : Type} (data : Value) (converter : RowData → Option α) : List α :=
  match data.asArray with
  | some rows => convertJsonRows rows converter
  | none => []

def convertToApps (env : Environment σ) (data : Value) : List App :=
  convertArray data (App.fromPgRow env.chrono)

def convertToCheckpoints (env : Environment σ) (data : Value) : List Checkpoint :=
  convertArray data (Checkpoint.fromPgRow env.chrono)

def convertToTimeline (env : Environment σ) (data : Value) : List Timeline :=
  convertArray data (Timeline.fromPgRow env.chrono)

/-- `serde_json::to_string` of a vector. -/
def arrayJson {α : Type} (toValue : α → Value) (items : List α) : String :=
  Json.toText (.arr (items.map toValue))

/-- The sums of `calculate_duration_statistics`. -/
structure DurationStatistics where
  total : Int
  count : Int
  today : Int
  week : Int
  month : Int
deriving DecidableEq

def calculateDurationStatistics (today : NaiveDate) (timelineEntries : List Timeline) :
    DurationStatistics :=
  let weekAgo := today.subDays 7
  let monthAgo := today.subDays 30
  timelineEntries.foldl (fun sums entry =>
    let duration := entry.duration.getD 0
    let increment (p : NaiveDate → Bool) := if entry.date.any p then duration else 0
    { total := asI32 (sums.total + duration)
      count := asI32 (sums.count + 1)
      today := asI32 (sums.today + increment fun d => d = today)
      week := asI32 (sums.week + increment fun d => weekAgo ≤ d)
      month := asI32 (sums.month + increment fun d => monthAgo ≤ d) })
    ⟨0, 0, 0, 0, 0⟩

/-! ## Apps and timeline -/

/-- `call_db_method`: lock the client, then call it; an error gets `context_msg` in front. -/
def callDbMethod {α : Type} (operation : StoreM σ α) (contextMsg : String) : HandlerM σ α := do
  acquire ServerState.clientLock "Lock error: "
  match ← onWorld operation with
  | .ok a => return a
  | .error e => bail (contextMsg ++ ": " ++ e)

def handleGetApps (env : Environment σ) : HandlerM σ String := do
  acquireClientLock
  let appsData ← callDbMethod env.client.getAllApps "Failed to retrieve apps"
  let apps := convertToApps env appsData
  return (WebSocketMessage.appsList (arrayJson App.toValue apps)).toJson

def handleGetTimeline (env : Environment σ) : HandlerM σ String := do
  acquireClientLock
  let timelineData ←
    callDbMethod env.client.getTimelineWithCheckpoints "Failed to retrieve timeline data"
  return (WebSocketMessage.timelineData (Json.toText timelineData)).toJson

def handleGetAppByName (env : Environment σ) (payload : String) : HandlerM σ String := do
  acquireClientLock
  let params ← parsePayload env payload
  let appName ← extractStringParam params "name"
  let appsData ← callDbMethod env.client.getAllApps "Failed to retrieve apps"
  let apps := convertToApps env appsData
  match apps.find? fun app => app.name = some appName with
  | none => bail ("App '" ++ appName ++ "' not found")
  | some foundApp => return (WebSocketMessage.app (Json.toText foundApp.toValue)).toJson

/-! ## Processes -/

/-- `AddError`, displayed. -/
def AddError.display (e : AddError) : String := "Cannot add process: " ++ e.message

/-- The broadcast at the end of `add_process` and `delete_process`; its failures are dropped. -/
def broadcastApps (env : Environment σ) : HandlerM σ Unit := do
  if (← get).hasActiveBroadcaster then
    acquireOrPanic ServerState.clientLock
    match ← onWorld env.client.getAllApps with
    | .error _ => return
    | .ok apps =>
      match env.appsFromValue apps with
      | none => return
      | some appsVec =>
        -- `broadcast_apps_update` does nothing if the lock is poisoned
        if (← get).stateLock = .healthy then enqueue (.appsUpdate appsVec)

/-- The duplicate check of `add_process`. -/
def checkNotAdded (env : Environment σ) (process : String) : HandlerM σ Unit := do
  acquireOrPanic ServerState.clientLock
  let processes ← await env.client.getProcesses
  if process ∈ processes then bail (AddProcess.alreadyAdded process).display

/-- `time_tracking::add_process`. -/
def addProcess (env : Environment σ) (process path : String) : HandlerM σ Unit := do
  checkNotAdded env process
  let productName := (env.verQueryValue path).getD process
  acquireOrPanic ServerState.clientLock
  let _ ← await (env.client.putData process productName)
  acquireOrPanic ServerState.processMapLock
  modify fun state => { state with processMap := state.processMap.insert process (false, false) }
  broadcastApps env

/-- `time_tracking::delete_process`. -/
def deleteProcess (env : Environment σ) (process : String) : HandlerM σ Unit := do
  acquireOrPanic ServerState.clientLock
  let _ ← await (env.client.deleteData process)
  acquireOrPanic ServerState.processMapLock
  modify fun state => { state with processMap := state.processMap.erase process }
  broadcastApps env

/-- `result.map_err(|e| anyhow!("{}{}", context, e))?`. -/
def withContext {α : Type} (context : String) (action : HandlerM σ α) : HandlerM σ α :=
  tryCatch action fun
    | .error e => bail (context ++ e)
    | .panic => throw .panic

/-- A context is for errors alone. -/
theorem withContext_run {α : Type} {context : String} {action : HandlerM σ α}
    {state state' : ServerState σ} {a : α} (h : action.run.run state = (.ok a, state')) :
    (withContext context action).run.run state = (.ok a, state') := run_tryCatch_ok h

def handleAddProcess (env : Environment σ) (payload : String) : HandlerM σ String := do
  acquireClientLock
  let params ← parsePayload env payload
  let processName ← extractStringParam params "process_name"
  let path ← extractStringParam params "path"
  withContext ("Failed to add process '" ++ processName ++ "': ") (addProcess env processName path)
  return (WebSocketMessage.success ("Successfully added process: " ++ processName)).toJson

def handleDeleteProcess (env : Environment σ) (payload : String) : HandlerM σ String := do
  acquireClientLock
  let params ← parsePayload env payload
  let processName ← extractStringParam params "process_name"
  withContext ("Failed to delete process '" ++ processName ++ "': ") (deleteProcess env processName)
  return (WebSocketMessage.success ("Successfully deleted process: " ++ processName)).toJson

/-- `get_current_tracking_status`. -/
def ServerState.getCurrentTrackingStatus (state : ServerState σ) : TrackingStatus :=
  match state.trackingStatusLock with
  | .healthy => state.trackingStatus
  | .poisoned => .idle

def handleGetTrackingStatus : HandlerM σ String := do
  acquireClientLock
  let status := (← get).getCurrentTrackingStatus
  return (WebSocketMessage.trackingStatus (Json.toText status.toValue)).toJson

/-! ## Checkpoints -/

def handleGetCheckpoints (env : Environment σ) (payload : String) : HandlerM σ String := do
  acquireClientLock
  let params ← parsePayload env payload
  let operation :=
    match i32Param params "app_id" with
    | some appId => env.client.getCheckpointsForApp appId
    | none => env.client.getAllCheckpoints
  let checkpointsData ← callDbMethod operation "Failed to retrieve checkpoints"
  let checkpoints := convertToCheckpoints env checkpointsData
  return (WebSocketMessage.checkpointsList (arrayJson Checkpoint.toValue checkpoints)).toJson

def handleCreateCheckpoint (env : Environment σ) (payload : String) : HandlerM σ String := do
  acquireClientLock
  let params ← parsePayload env payload
  let name ← extractStringParam params "name"
  let description := stringParam params "description"
  let appId ← extractI32Param params "app_id"
  let _ ← callDbMethod (env.client.createCheckpoint name description appId)
    ("Failed to create checkpoint '" ++ name ++ "'")
  tryCatch
    (do
      let checkpointsData ← callDbMethod (env.client.getCheckpointsForApp appId)
        "Failed to get updated checkpoints"
      let checkpoints := convertToCheckpoints env checkpointsData
      return (WebSocketMessage.checkpointsList (arrayJson Checkpoint.toValue checkpoints)).toJson)
    -- the checkpoint is there, only the list of the others could not be read
    fun _ =>
      return (WebSocketMessage.success ("Successfully created checkpoint: " ++ name)).toJson

def handleSetActiveCheckpoint (env : Environment σ) (payload : String) : HandlerM σ String := do
  acquireClientLock
  let params ← parsePayload env payload
  let checkpointId ← extractI32Param params "checkpoint_id"
  let isActive := ((Json.lookup params "is_active").bind Value.asBool).getD false
  let _ ← callDbMethod (env.client.setCheckpointActive checkpointId isActive)
    ("Failed to update checkpoint " ++ displayI32 checkpointId)
  let status := if isActive then "activated" else "deactivated"
  return (WebSocketMessage.success
    ("Successfully " ++ status ++ " checkpoint with ID: " ++ displayI32 checkpointId)).toJson

def handleDeleteCheckpoint (env : Environment σ) (payload : String) : HandlerM σ String := do
  acquireClientLock
  let params ← parsePayload env payload
  let checkpointId ← extractI32Param params "checkpoint_id"
  let _ ← callDbMethod (env.client.deleteCheckpoint checkpointId)
    ("Failed to delete checkpoint " ++ displayI32 checkpointId)
  return (WebSocketMessage.success
    ("Successfully deleted checkpoint with ID: " ++ displayI32 checkpointId)).toJson

def handleGetActiveCheckpoints (env : Environment σ) (payload : String) : HandlerM σ String := do
  acquireClientLock
  let params ← parsePayload env payload
  let activeCheckpointsData ←
    match i32Param params "app_id" with
    | some appId =>
      callDbMethod (env.client.getActiveCheckpointsForApp appId)
        ("Failed to get active checkpoints for app " ++ displayI32 appId)
    | none => callDbMethod env.client.getActiveCheckpoints "Failed to get active checkpoints"
  let activeCheckpoints := convertToCheckpoints env activeCheckpointsData
  return (WebSocketMessage.activeCheckpoints
    (arrayJson Checkpoint.toValue activeCheckpoints)).toJson

/-! ## Statistics -/

def handleGetSessionCounts (env : Environment σ) : HandlerM σ String := do
  acquireClientLock
  let appIds ← callDbMethod env.client.getAllAppIds "Failed to retrieve app IDs"
  let mut sessionCounts := []
  for appId in appIds do
    let sessionCount ← callDbMethod (env.client.getSessionCountForApp appId)
      ("Failed to get session count for app " ++ displayI32 appId)
    sessionCounts := sessionCounts ++ [⟨appId, sessionCount⟩]
  return (WebSocketMessage.sessionCountsData
    (arrayJson SessionCount.toValue sessionCounts)).toJson

/-- `0.0`. -/
def zeroAverage : Json.Number := ⟨['0', '.', '0'], by decide⟩

def calculateAppStatistics (env : Environment σ) (app : App) : StoreM σ AppStatistics := do
  let timelineData ← env.client.getTimelineData app.name 30
  let timelineEntries := convertToTimeline env timelineData
  let sums := calculateDurationStatistics (← env.today) timelineEntries
  return {
    app
    totalDuration := app.duration.getD 0
    todayDuration := sums.today
    weekDuration := sums.week
    monthDuration := sums.month
    averageSessionLength :=
      if sums.count > 0 then env.quotient sums.total sums.count else zeroAverage
    recentSessions := timelineEntries.take 10 }

def handleGetStatistics (env : Environment σ) : HandlerM σ String := do
  acquire ServerState.stateLock "Failed to acquire state lock: "
  acquire ServerState.clientLock "Failed to acquire client lock: "
  let appsData ← withContext "Failed to retrieve apps: " (await env.client.getAllApps)
  let apps := convertToApps env appsData
  let mut appStatistics := []
  for app in apps do
    match ← onWorld (calculateAppStatistics env app) with
    | .ok stats => appStatistics := appStatistics ++ [stats]
    -- an app whose timeline cannot be read is left out of the answer
    | .error _ => pure ()
  return (WebSocketMessage.statisticsData
    (arrayJson AppStatistics.toValue appStatistics)).toJson

def handleGetCheckpointStats (env : Environment σ) (payload : String) : HandlerM σ String := do
  acquireClientLock
  let params ← parsePayload env payload
  let checkpointId ← extractI32Param params "checkpoint_id"
  let durationsData ← callDbMethod (env.client.getCheckpointDurationsByIds [checkpointId])
    ("Failed to get durations for checkpoint " ++ displayI32 checkpointId)
  let durations := convertToCheckpoints env durationsData
  let responsePayload := Value.obj
    [("checkpoint_id", .int checkpointId), ("durations", .arr (durations.map Checkpoint.toMap))]
  return (WebSocketMessage.checkpointStats (Json.toText responsePayload)).toJson

/-! ## Configuration and subscriptions -/

/-- `params.get(key).and_then(|v| v.as_u64())`, required. -/
def extractU64Param (params : Params) (key : String) : HandlerM σ Nat :=
  match (Json.lookup params key).bind Value.asU64 with
  | some n => return n
  | none => bail (key ++ " parameter is required")

/-- `handle_update_config`, of the `memory` build. An empty payload is parsed here too. -/
def handleUpdateConfig (env : Environment σ) (payload : String) : HandlerM σ String := do
  let params ←
    match env.paramsFromStr payload with
    | .ok params => pure params
    | .error e => bail e
  let trackingDelayMs ← extractU64Param params "tracking_delay_ms"
  let checkDelayMs ← extractU64Param params "check_delay_ms"
  acquire ServerState.stateLock "Failed to acquire write lock: "
  acquire ServerState.configLock "Failed to acquire config write lock: "
  modify fun state => { state with config := ⟨trackingDelayMs, checkDelayMs⟩ }
  return (WebSocketMessage.success "Configuration updated successfully").toJson

/-- `serde_json::from_value::<Vec<String>>`. -/
def stringsFromValue (value : Value) : Option (List String) :=
  value.asArray.bind fun elements => elements.mapM Value.asStr

/-- `topic_strings.iter().map(…).collect()?`: the first string that is no topic is an error. -/
def parseTopics : List String → HandlerM σ (List SubscriptionTopic)
  | [] => return []
  | s :: rest =>
    match SubscriptionTopic.fromStr s with
    | none => bail ("Invalid subscription topic: " ++ s)
    | some topic => do
      let topics ← parseTopics rest
      return topic :: topics

/-- The client of a subscription: the one of the connection, else the one the payload names. -/
def subscriber (params : Params) (clientId : Option Nat) : HandlerM σ Nat :=
  match clientId with
  | some id => return id
  | none =>
    match Json.lookup params "client_id" with
    | none => bail "Missing 'client_id' parameter and no client context"
    | some value =>
      match value.asU64 with
      | none => bail "Failed to parse client_id"
      | some id => return id

/-- `handle_subscribe` and `handle_unsubscribe`, which differ in the message they enqueue and in
the words of the answer. -/
def handleTopics (message : Nat → List SubscriptionTopic → BroadcastMessage) (done : String)
    (env : Environment σ) (payload : String) (clientId : Option Nat) : HandlerM σ String := do
  let params ← parsePayload env payload
  let topicStrings ←
    match Json.lookup params "topics" with
    | none => bail "Missing 'topics' parameter"
    | some topicsValue =>
      match stringsFromValue topicsValue with
      | none => bail "Failed to parse topics array"
      | some topicStrings => pure topicStrings
  let topics ← parseTopics topicStrings
  let clientId ← subscriber params clientId
  acquire ServerState.stateLock "Failed to acquire server state lock: "
  enqueue (message clientId topics)
  let topicNames := topics.map SubscriptionTopic.asStr
  return (WebSocketMessage.success
    ("Successfully " ++ done ++ " topics: " ++ ", ".intercalate topicNames)).toJson

def handleSubscribe (env : Environment σ) (payload : String) (clientId : Option Nat) :
    HandlerM σ String :=
  handleTopics .subscribe "subscribed to" env payload clientId

def handleUnsubscribe (env : Environment σ) (payload : String) (clientId : Option Nat) :
    HandlerM σ String :=
  handleTopics .unsubscribe "unsubscribed from" env payload clientId

/-! ## Dispatch -/

/-- The handler of a command. -/
def handleCommand (env : Environment σ) (clientId : Option Nat) (command : WebSocketCommand) :
    HandlerM σ String :=
  match command.type with
  | .getApps => handleGetApps env
  | .getTimeline => handleGetTimeline env
  | .getAppByName => handleGetAppByName env command.payload
  | .addProcess => handleAddProcess env command.payload
  | .deleteProcess => handleDeleteProcess env command.payload
  | .getTrackingStatus => handleGetTrackingStatus
  | .getStatistics => handleGetStatistics env
  | .getSessionCounts => handleGetSessionCounts env
  | .getCheckpoints => handleGetCheckpoints env command.payload
  | .createCheckpoint => handleCreateCheckpoint env command.payload
  | .setActiveCheckpoint => handleSetActiveCheckpoint env command.payload
  | .deleteCheckpoint => handleDeleteCheckpoint env command.payload
  | .getActiveCheckpoints => handleGetActiveCheckpoints env command.payload
  | .getCheckpointStats => handleGetCheckpointStats env command.payload
  | .updateConfig => handleUpdateConfig env command.payload
  | .subscribe => handleSubscribe env command.payload clientId
  | .unsubscribe => handleUnsubscribe env command.payload clientId

/-- `handle_message_with_client_id`, on the text of a message. -/
def handleMessageWithClientId (env : Environment σ) (text : String) (clientId : Option Nat) :
    HandlerM σ String :=
  match env.commandFromStr text with
  | .ok command => handleCommand env clientId command
  | .error e => bail e

/-- The body of `handle_client_messages` for a text: the text that is sent back. A handler that
panics takes the connection with it, and nothing is sent. -/
def handleClientMessage (env : Environment σ) (text : String) (clientId : Nat) :
    StateM (ServerState σ) (Option String) := do
  match ← (handleMessageWithClientId env text (some clientId)).run with
  | .ok responseText => return some responseText
  | .error (.error e) => return some (WebSocketMessage.error e).toJson
  | .error .panic => return none

end TimeTracker
