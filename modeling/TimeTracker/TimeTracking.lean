import TimeTracker.SeaormClient

/-!
# Tracking

`time_tracking.rs`: the scanner (`check_processes`), the session workers `init` spawns, the
calls `add_process`, `delete_process` and `pause`, and the memory they share. Each thread is
a machine whose constructors are the points between which other threads may run: one
statement of the database, one critical section of a lock, one send on a channel.
-/

namespace TimeTracker

/-! ## The shared memory -/

/-- `PROCESS_MAP`: for each tracked process whether it runs, and whether it has a session. -/
abbrev ProcessMap := Finmap fun _ : String => Bool × Bool

/-- The mutex around `PROCESS_MAP`. A thread that panics while holding it poisons it, and
then every `lock().unwrap()` panics. -/
inductive MapLock where
  | free
  | held
  | poisoned
deriving DecidableEq

/-- `structs::TrackingStatus`. -/
structure TrackingStatus where
  isTracking : Bool
  isPaused : Bool
  currentApp : Option String
  currentSessionDuration : Int
  sessionStartTime : Option String
  activeCheckpointIds : List Int
deriving DecidableEq

/-- The status of a tracker without a session. -/
def TrackingStatus.idle : TrackingStatus where
  isTracking := false
  isPaused := false
  currentApp := none
  currentSessionDuration := 0
  sessionStartTime := none
  activeCheckpointIds := []

/-- The status a session of `p` broadcasts after `counter` ticks. -/
def TrackingStatus.tracking (p : String) (counter : Nat) (now : NaiveDateTime) :
    TrackingStatus where
  isTracking := true
  isPaused := false
  currentApp := some p
  currentSessionDuration := counter
  sessionStartTime := some now.format
  activeCheckpointIds := []

/-- The memory, channels and database the threads share. `trackingStatus` and `broadcasts`
are the stored status of the WebSocket server and the status updates it has enqueued. -/
structure Shared where
  platform : Platform
  processMap : ProcessMap
  mapLock : MapLock
  pause : Bool
  spawnQueue : List String
  events : List Event
  broadcaster : Bool
  trackingStatus : TrackingStatus
  broadcasts : List TrackingStatus
  db : Store

namespace Shared

/-- `tx.send(event)`. -/
def send (s : Shared) (event : Event) : Shared := { s with events := s.events ++ [event] }

/-- `if has_active_broadcaster() { broadcast_tracking_status_update(status) }`: store the
status and enqueue the update. -/
def broadcast (s : Shared) (status : TrackingStatus) : Shared :=
  if s.broadcaster then
    { s with trackingStatus := status, broadcasts := s.broadcasts ++ [status] }
  else s

@[simp] theorem send_processMap (s : Shared) (e : Event) : (s.send e).processMap = s.processMap :=
  rfl
@[simp] theorem send_mapLock (s : Shared) (e : Event) : (s.send e).mapLock = s.mapLock := rfl
@[simp] theorem send_spawnQueue (s : Shared) (e : Event) : (s.send e).spawnQueue = s.spawnQueue :=
  rfl
@[simp] theorem send_events (s : Shared) (e : Event) : (s.send e).events = s.events ++ [e] := rfl
@[simp] theorem send_db (s : Shared) (e : Event) : (s.send e).db = s.db := rfl
@[simp] theorem send_pause (s : Shared) (e : Event) : (s.send e).pause = s.pause := rfl

@[simp] theorem broadcast_processMap (s : Shared) (st : TrackingStatus) :
    (s.broadcast st).processMap = s.processMap := by unfold broadcast; split <;> rfl
@[simp] theorem broadcast_mapLock (s : Shared) (st : TrackingStatus) :
    (s.broadcast st).mapLock = s.mapLock := by unfold broadcast; split <;> rfl
@[simp] theorem broadcast_spawnQueue (s : Shared) (st : TrackingStatus) :
    (s.broadcast st).spawnQueue = s.spawnQueue := by unfold broadcast; split <;> rfl
@[simp] theorem broadcast_events (s : Shared) (st : TrackingStatus) :
    (s.broadcast st).events = s.events := by unfold broadcast; split <;> rfl
@[simp] theorem broadcast_db (s : Shared) (st : TrackingStatus) :
    (s.broadcast st).db = s.db := by unfold broadcast; split <;> rfl
@[simp] theorem broadcast_pause (s : Shared) (st : TrackingStatus) :
    (s.broadcast st).pause = s.pause := by unfold broadcast; split <;> rfl

end Shared

/-! ## `check_processes` -/

/-- The program points of one iteration of the scanner. -/
inductive Scanner where
  /-- copy the keys of `PROCESS_MAP` -/
  | snapshot
  /-- `get_process_aliases_by_app_names(&app_names)` -/
  | aliases (appNames : List String)
  /-- `are_processes_running(&processes, Some(&process_aliases))` -/
  | processes (processes : List String) (processAliases : AliasMap)
  /-- the second critical section, over the current map -/
  | pass (m : RunningMap)
  /-- `for p in to_spawn { spawn_tx.send(p) }` -/
  | spawn (toSpawn : List String)
  /-- `m.get(p).unwrap()` failed, or the lock was poisoned -/
  | panicked
deriving DecidableEq

/-- The outcome of the second critical section. -/
inductive PassResult where
  | done (processMap : ProcessMap) (toSpawn : List String)
  | panicked (processMap : ProcessMap)

/-- `for (p, (fst, snd)) in p_map.iter_mut()`, over the keys in iteration order. -/
def passLoop (m : RunningMap) : List String → ProcessMap → List String → PassResult
  | [], processMap, toSpawn => .done processMap toSpawn
  | p :: order, processMap, toSpawn =>
    match m.lookup p, processMap.lookup p with
    -- `m.get(p).unwrap()`: the key was inserted after the snapshot
    | none, _ => .panicked processMap
    | some _, none => passLoop m order processMap toSpawn
    | some running, some (_, snd) =>
      if running then
        if !snd then passLoop m order (processMap.insert p (true, true)) (toSpawn ++ [p])
        else passLoop m order (processMap.insert p (true, snd)) toSpawn
      else passLoop m order (processMap.insert p (false, snd)) toSpawn

/-- `order` lists the keys of the map, each once: an order in which it may be iterated. -/
def isIterationOrder (order : List String) (processMap : ProcessMap) : Bool :=
  (order : Multiset String) = processMap.keys.val

def Scanner.step (inp : Input) : Scanner → Shared → Option (Scanner × Shared)
  | .snapshot, s =>
    match s.mapLock with
    | .held => none
    | .poisoned => some (.panicked, s)
    | .free =>
      if isIterationOrder inp.order s.processMap then some (.aliases inp.order, s) else none
  | .aliases appNames, s =>
    match inp.statement (.ok (getProcessAliasesByAppNames s.db appNames)) with
    | .ok processAliases => some (.processes appNames processAliases, s)
    -- `unwrap_or_default`
    | .error _ => some (.processes appNames ∅, s)
  | .processes appNames processAliases, s =>
    match areProcessesRunning s.platform appNames (some processAliases) inp.system with
    | none => some (.snapshot, s)
    | some m => if m = ∅ then some (.snapshot, s) else some (.pass m, s)
  | .pass m, s =>
    match s.mapLock with
    | .held => none
    | .poisoned => some (.panicked, s)
    | .free =>
      if isIterationOrder inp.order s.processMap then
        match passLoop m inp.order s.processMap [] with
        | .done processMap toSpawn => some (.spawn toSpawn, { s with processMap })
        | .panicked processMap => some (.panicked, { s with processMap, mapLock := .poisoned })
      else none
  | .spawn [], s => some (.snapshot, s)
  | .spawn (p :: toSpawn), s =>
    some (.spawn toSpawn, { s with spawnQueue := s.spawnQueue ++ [p] })
  | .panicked, _ => none

/-! ## The session workers -/

/-- The program points of the thread `init` spawns for a session. -/
inductive WorkerPoint where
  /-- `active!` around the `Launches` send -/
  | start
  | sendLaunches
  /-- the start broadcast -/
  | announce
  /-- the head of the loop: sleep, then `active!` -/
  | sleep
  /-- `PROCESS_MAP.lock()` -/
  | lock
  /-- a tick, with the lock held: the `Duration` send -/
  | sendDuration
  /-- a tick, with the lock held: the `Timeline` send -/
  | sendTimeline
  /-- a tick, with the lock held: the broadcast -/
  | tickBroadcast
  /-- the loop has been left: `active!` around the `LongestSession` send -/
  | leave
  | sendLongest
  /-- the final broadcast -/
  | farewell
  | finished
  | panicked
deriving DecidableEq

/-- A session worker of process `p` that has counted `counter` ticks. -/
structure Worker where
  p : String
  counter : Nat
  point : WorkerPoint
deriving DecidableEq

namespace Worker

/-- A worker as `thread::spawn` starts it. -/
def spawned (p : String) : Worker := ⟨p, 0, .start⟩

def step (inp : Input) (w : Worker) (s : Shared) : Option (Worker × Shared) :=
  match w.point with
  | .start => some ({ w with point := if s.pause then .announce else .sendLaunches }, s)
  | .sendLaunches => some ({ w with point := .announce }, s.send (w.p, .launches))
  | .announce => some ({ w with point := .sleep }, s.broadcast (.tracking w.p 0 inp.now))
  | .sleep => some ({ w with point := if s.pause then .sleep else .lock }, s)
  | .lock =>
    match s.mapLock with
    | .held => none
    | .poisoned => some ({ w with point := .panicked }, s)
    | .free =>
      match s.processMap.lookup w.p with
      -- deleted in between: the loop runs on, until the process is added again
      | none => some ({ w with point := .sleep }, s)
      | some (true, _) => some ({ w with point := .sendDuration }, { s with mapLock := .held })
      | some (false, _) =>
        some ({ w with point := .leave },
          { s with processMap := s.processMap.insert w.p (false, false) })
  | .sendDuration => some ({ w with point := .sendTimeline }, s.send (w.p, .duration))
  | .sendTimeline =>
    some ({ w with counter := w.counter + 1, point := .tickBroadcast }, s.send (w.p, .timeline))
  -- the guard of the map lives to the end of the `if let`
  | .tickBroadcast =>
    some ({ w with point := .sleep },
      { s.broadcast (.tracking w.p w.counter inp.now) with mapLock := .free })
  | .leave => some ({ w with point := if s.pause then .farewell else .sendLongest }, s)
  | .sendLongest =>
    some ({ w with point := .farewell }, s.send (sessionItem w.p w.counter, .longestSession))
  | .farewell => some ({ w with point := .finished }, s.broadcast .idle)
  | .finished => none
  | .panicked => none

end Worker

/-! ## `add_process` and `delete_process` -/

/-- The program points of `add_process`. -/
inductive AddProcess where
  /-- `get_processes()`: the duplicate check -/
  | getProcesses (process path : String)
  /-- `put_data`: read the largest id -/
  | maxId (process productName : String)
  /-- `put_data`: insert the row -/
  | insert (process productName : String) (nextId : Int)
  /-- `PROCESS_MAP.lock().insert(process, (false, false))` -/
  | insertMap (process : String)
  | returned (result : CallResult)
  | panicked
deriving DecidableEq

namespace AddProcess

/-- The error of the duplicate check. -/
def alreadyAdded (process : String) : AddError :=
  ⟨"Process \"" ++ process ++ "\" has already been added before."⟩

def duplicate (process : String) : BoxError := .addError (alreadyAdded process)

/-- The row `put_data` inserts. -/
def newApp (process productName : String) (nextId : Int) : Apps.Model where
  id := nextId
  duration := some 0
  launches := some 0
  longestSession := some 0
  name := some process
  productName := some productName
  longestSessionOn := none

def step (inp : Input) : AddProcess → Shared → Option (AddProcess × Shared)
  | .getProcesses process _path, s =>
    match inp.statement (.ok s.db.appNames) with
    | .error e => some (.returned (.error (.db e)), s)
    | .ok names =>
      -- the check and the insert below are different statements: another call may come between
      if process ∈ names then some (.returned (.error (duplicate process)), s)
      else some (.maxId process (inp.verQueryValue.getD process), s)
  | .maxId process productName, s =>
    match inp.statement (.ok s.db.apps.maxKey) with
    | .error e => some (.returned (.error (.db e)), s)
    | .ok maxResult => some (.insert process productName (Store.nextId maxResult), s)
  | .insert process productName nextId, s =>
    match inp.statement (s.db.insertApp (newApp process productName nextId)) with
    | .error e => some (.returned (.error (.db e)), s)
    | .ok db => some (.insertMap process, { s with db })
  | .insertMap process, s =>
    match s.mapLock with
    | .held => none
    | .poisoned => some (.panicked, s)
    | .free =>
      some (.returned (.ok ()),
        { s with processMap := s.processMap.insert process (false, false) })
  | .returned _, _ => none
  | .panicked, _ => none

end AddProcess

/-- The program points of `delete_process`. -/
inductive DeleteProcess where
  /-- `delete_data(process)` -/
  | deleteData (process : String)
  /-- `PROCESS_MAP.lock().remove(process)` -/
  | removeMap (process : String)
  | returned (result : CallResult)
  | panicked
deriving DecidableEq

def DeleteProcess.step (inp : Input) : DeleteProcess → Shared → Option (DeleteProcess × Shared)
  | .deleteData process, s =>
    match inp.statement (.ok (s.db.deleteApps process)) with
    | .error e => some (.returned (.error (.db e)), s)
    | .ok db => some (.removeMap process, { s with db })
  | .removeMap process, s =>
    match s.mapLock with
    | .held => none
    | .poisoned => some (.panicked, s)
    | .free => some (.returned (.ok ()), { s with processMap := s.processMap.erase process })
  | .returned _, _ => none
  | .panicked, _ => none

/-- The program points of `pause`: read the flag, then write its negation. -/
inductive Pause where
  | read
  | write (value : Bool)
  | returned
deriving DecidableEq

def Pause.step : Pause → Shared → Option (Pause × Shared)
  | .read, s => some (.write (!s.pause), s)
  | .write value, s => some (.returned, { s with pause := value })
  | .returned, _ => none

end TimeTracker
