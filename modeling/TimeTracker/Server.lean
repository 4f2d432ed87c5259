import TimeTracker.Lib.Transactions
import TimeTracker.Structs

/-!
# The server behind the handlers

What a command handler of the WebSocket server works with: the `Restable` client, the code
outside the program it calls (`Environment`), and the state it shares with the other threads
(`ServerState`). A handler runs in `HandlerM`, which ends with a value, with an error of which
only the text is ever used, or by a panic.

The handlers are generic in the storage backend, and so is the model: `σ` is whatever the
client and the clock depend on.
-/

namespace TimeTracker

open Json (Value)
open Transaction (run_bind_ok)

/-! ## Storage -/

/-- A call of the storage backend: it may fail, with an error that is displayed as a text. -/
abbrev StoreM (σ : Type) := ExceptT String (StateM σ)

/-- `trait Restable`: the methods the handlers call. -/
structure Restable (σ : Type) where
  getProcesses : StoreM σ (List String)
  putData (item productName : String) : StoreM σ Value
  deleteData (item : String) : StoreM σ Value
  getAllApps : StoreM σ Value
  getTimelineData (appName : Option String) (days : Int) : StoreM σ Value
  getSessionCountForApp (appId : Int) : StoreM σ Int
  getAllAppIds : StoreM σ (List Int)
  getAllCheckpoints : StoreM σ Value
  getCheckpointsForApp (appId : Int) : StoreM σ Value
  createCheckpoint (name : String) (description : Option String) (appId : Int) : StoreM σ Value
  setCheckpointActive (checkpointId : Int) (isActive : Bool) : StoreM σ Value
  deleteCheckpoint (checkpointId : Int) : StoreM σ Value
  getActiveCheckpoints : StoreM σ Value
  getActiveCheckpointsForApp (appId : Int) : StoreM σ Value
  getCheckpointDurationsByIds (checkpointIds : List Int) : StoreM σ Value
  getTimelineWithCheckpoints : StoreM σ Value

/-- The parameters of a command, `HashMap<String, JsonValue>`. -/
abbrev Params := List (String × Value)

/-- The code the handlers call that is not the program's own. -/
structure Environment (σ : Type) where
  client : Restable σ
  chrono : ChronoParsers
  /-- `serde_json::from_str::<WebSocketCommand>` -/
  commandFromStr : String → Except String WebSocketCommand
  /-- `serde_json::from_str::<HashMap<String, JsonValue>>` -/
  paramsFromStr : String → Except String Params
  /-- `serde_json::from_value::<Vec<App>>` -/
  appsFromValue : Value → Option (List App)
  /-- the text of `a as f64 / b as f64` -/
  quotient : Int → Int → Json.Number
  verQueryValue : String → Option String
  /-- `chrono::Local::now().naive_local().date()` -/
  today : StateM σ NaiveDate

/-! ## Subscriptions -/

/-- `broadcast::SubscriptionTopic`. -/
inductive SubscriptionTopic where
  | apps
  | timeline
  | trackingStatus
deriving DecidableEq

namespace SubscriptionTopic

def fromStr (s : String) : Option SubscriptionTopic :=
  if s = "apps" then some .apps
  else if s = "timeline" then some .timeline
  else if s = "tracking_status" then some .trackingStatus
  else none

def asStr : SubscriptionTopic → String
  | .apps => "apps"
  | .timeline => "timeline"
  | .trackingStatus => "tracking_status"

end SubscriptionTopic

/-- `broadcast::BroadcastMessage`: the items of the broadcast channel. -/
inductive BroadcastMessage where
  | trackingStatusUpdate (status : TrackingStatus)
  | appsUpdate (apps : List App)
  | timelineUpdate (timeline : List Timeline)
  | clientConnected (clientId : Nat)
  | clientDisconnected (clientId : Nat)
  | subscribe (clientId : Nat) (topics : List SubscriptionTopic)
  | unsubscribe (clientId : Nat) (topics : List SubscriptionTopic)
deriving DecidableEq

/-! ## State -/

/-- `time_tracking::TimeTrackingConfig`. -/
structure TimeTrackingConfig where
  trackingDelayMs : Nat
  checkDelayMs : Nat
deriving DecidableEq

/-- Whether taking a lock succeeds: a lock is poisoned once a thread has panicked while it was
writing under it. -/
inductive Lock where
  | healthy
  | poisoned
deriving DecidableEq

/-- `server::ServerState`, the `PROCESS_MAP` and the world the client and the clock read. -/
structure ServerState (σ : Type) where
  world : σ
  stateLock : Lock
  clientLock : Lock
  trackingStatusLock : Lock
  configLock : Lock
  processMapLock : Lock
  processMap : ProcessMap
  trackingStatus : TrackingStatus
  config : TimeTrackingConfig
  hasActiveBroadcaster : Bool
  broadcasts : List BroadcastMessage

/-- A server that has just started, with a client that listens. -/
def ServerState.serving {σ : Type} (world : σ) : ServerState σ where
  world := world
  stateLock := .healthy
  clientLock := .healthy
  trackingStatusLock := .healthy
  configLock := .healthy
  processMapLock := .healthy
  processMap := ∅
  trackingStatus := .idle
  config := ⟨60000, 10000⟩
  hasActiveBroadcaster := true
  broadcasts := []

/-- The end of a handler without a value. -/
inductive Stop where
  | error (text : String)
  | panic
deriving DecidableEq

abbrev HandlerM (σ : Type) := ExceptT Stop (StateM (ServerState σ))

variable {σ α : Type}

/-- Return `Err` with an error that is displayed as `text`. -/
def bail (text : String) : HandlerM σ α := throw (.error text)

/-- `PoisonError`, displayed. -/
def poisonError : String := "poisoned lock: another task failed inside"

/-- `lock.read().map_err(…)?`: with the lock poisoned, the error is `context` and the poison. -/
def acquire (lock : ServerState σ → Lock) (context : String) : HandlerM σ Unit := do
  if lock (← get) = .poisoned then bail (context ++ poisonError)

/-- `lock.read().unwrap()`. -/
def acquireOrPanic (lock : ServerState σ → Lock) : HandlerM σ Unit := do
  if lock (← get) = .poisoned then throw .panic

/-- Run a call of the backend on the world, and hand its result over. -/
def onWorld (operation : StoreM σ α) : HandlerM σ (Except String α) := do
  let state ← get
  let (result, world) := operation.run.run state.world
  set { state with world }
  return result

/-- `operation.await?`. -/
def await (operation : StoreM σ α) : HandlerM σ α := do
  match ← onWorld operation with
  | .ok a => return a
  | .error e => bail e

/-- `broadcast_sender.send(message)`. -/
def enqueue (message : BroadcastMessage) : HandlerM σ Unit :=
  modify fun state => { state with broadcasts := state.broadcasts ++ [message] }

/-! ## Runs of a handler -/

section
variable {state : ServerState σ} {a : α}

/-- Reading the state is a step without effect. -/
theorem get_run : (get : HandlerM σ (ServerState σ)).run.run state = (.ok state, state) := rfl

/-- A sound lock is taken, with `unwrap` -/
theorem acquireOrPanic_run {lock : ServerState σ → Lock} (h : lock state = .healthy) :
    (acquireOrPanic lock).run.run state = (.ok (), state) := by
  unfold acquireOrPanic
  rw [run_bind_ok get_run, if_neg]
  · rfl
  · rw [h]
    simp

/-- or with an error for the other case. -/
theorem acquire_run {lock : ServerState σ → Lock} (context : String) (h : lock state = .healthy) :
    (acquire lock context).run.run state = (.ok (), state) := by
  unfold acquire
  rw [run_bind_ok get_run, if_neg]
  · rfl
  · rw [h]
    simp

/-- A call of the backend changes the world alone, and its error is a value. -/
theorem onWorld_run (operation : StoreM σ α) (state : ServerState σ) :
    (onWorld operation).run.run state =
      (.ok (operation.run.run state.world).1,
        { state with world := (operation.run.run state.world).2 }) := rfl

/-- An operation that succeeds and changes nothing. -/
theorem await_run {operation : StoreM σ α}
    (h : operation.run.run state.world = (.ok a, state.world)) :
    (await operation).run.run state = (.ok a, state) := by
  unfold await
  rw [run_bind_ok (onWorld_run operation state), h]
  rfl

end

end TimeTracker
