import TimeTracker.Lib.Decimal
import TimeTracker.SeaormQueries

/-!
# The event loop

The handlers of `seaorm_client.rs` and the loop that runs them. A handler is a machine over
the database: a constructor of `Handler` is the point before one statement, with the local
variables that are still needed, and `Handler.step` executes that statement and runs on to
the next one. `none` is the end of the handler, by success or by an error it logs.

`handle_duration` and `handle_launches` differ only in the column they count in, and so do
`update_checkpoint_durations` and `update_checkpoint_sessions`: `Counter` is that column.
The broadcasts at the end of a handler read the tables and change nothing here.
-/

namespace TimeTracker

/-! ## The item of a `LongestSession` event -/

/-- `i32::from_str`. -/
def parseI32 (s : List Char) : Option Int :=
  match s with
  | '-' :: ds => (Decimal.parseNat ds).bind fun n => if n ≤ 2147483648 then some (-(n : Int)) else none
  | '+' :: ds => (Decimal.parseNat ds).bind fun n => if n ≤ 2147483647 then some (n : Int) else none
  | ds => (Decimal.parseNat ds).bind fun n => if n ≤ 2147483647 then some (n : Int) else none

/-- `format!("{};{}", p, counter)`. -/
def sessionItem (p : String) (counter : Nat) : String :=
  String.ofList (p.toList ++ ';' :: Nat.toDigits 10 counter)

/-! ## The counted columns -/

/-- The column a `Duration` or a `Launches` event counts in. -/
inductive Counter where
  | duration
  | launches
deriving DecidableEq

namespace Counter

def ofApp : Counter → Apps.Model → Option Int
  | .duration => Apps.Model.duration
  | .launches => Apps.Model.launches

/-- `app_active.duration = Set(Some(v))`, or the same for `launches`. -/
def setApp (counter : Counter) (v : Int) (a : Apps.Model) : Apps.Model :=
  match counter with
  | .duration => { a with duration := some v }
  | .launches => { a with launches := some v }

/-- The column of a checkpoint in which its app's events are counted. -/
def ofCheckpoint : Counter → Checkpoints.Model → Option Int
  | .duration => Checkpoints.Model.duration
  | .launches => Checkpoints.Model.sessionsCount

def setCheckpoint (counter : Counter) (v : Int) (now : NaiveDateTime) (c : Checkpoints.Model) :
    Checkpoints.Model :=
  match counter with
  | .duration => { c with duration := some v, lastUpdated := some now }
  | .launches => { c with sessionsCount := some v, lastUpdated := some now }

@[simp] theorem setApp_id (counter : Counter) (v : Int) (a : Apps.Model) :
    (counter.setApp v a).id = a.id := by cases counter <;> rfl

@[simp] theorem setApp_name (counter : Counter) (v : Int) (a : Apps.Model) :
    (counter.setApp v a).name = a.name := by cases counter <;> rfl

@[simp] theorem setApp_longestSession (counter : Counter) (v : Int) (a : Apps.Model) :
    (counter.setApp v a).longestSession = a.longestSession := by cases counter <;> rfl

@[simp] theorem setCheckpoint_id (counter : Counter) (v : Int) (now : NaiveDateTime)
    (c : Checkpoints.Model) : (counter.setCheckpoint v now c).id = c.id := by
  cases counter <;> rfl

@[simp] theorem setCheckpoint_appId (counter : Counter) (v : Int) (now : NaiveDateTime)
    (c : Checkpoints.Model) : (counter.setCheckpoint v now c).appId = c.appId := by
  cases counter <;> rfl

@[simp] theorem setCheckpoint_isActive (counter : Counter) (v : Int) (now : NaiveDateTime)
    (c : Checkpoints.Model) : (counter.setCheckpoint v now c).isActive = c.isActive := by
  cases counter <;> rfl

@[simp] theorem setCheckpoint_activatedAt (counter : Counter) (v : Int) (now : NaiveDateTime)
    (c : Checkpoints.Model) : (counter.setCheckpoint v now c).activatedAt = c.activatedAt := by
  cases counter <;> rfl

@[simp] theorem ofCheckpoint_setCheckpoint (counter : Counter) (v : Int) (now : NaiveDateTime)
    (c : Checkpoints.Model) : counter.ofCheckpoint (counter.setCheckpoint v now c) = some v := by
  cases counter <;> rfl

/-- Counting in one column leaves the other one alone. -/
theorem ofCheckpoint_setCheckpoint_of_ne {counter counter' : Counter} (h : counter ≠ counter')
    (v : Int) (now : NaiveDateTime) (c : Checkpoints.Model) :
    counter.ofCheckpoint (counter'.setCheckpoint v now c) = counter.ofCheckpoint c := by
  cases counter <;> cases counter' <;> first | contradiction | rfl

end Counter

/-! ## Handlers -/

/-- The program points of the event handlers. -/
inductive Handler where
  /-- `handle_longest_session`: find the app -/
  | longestFindApp (appName : String) (currentSession : Int)
  /-- `handle_longest_session`: write the new maximum -/
  | longestUpdateApp (appModel : Apps.Model) (currentSession : Int) (nowDate : NaiveDate)
  /-- `handle_duration` / `handle_launches`: find the app -/
  | countFindApp (counter : Counter) (item : String)
  /-- `handle_duration` / `handle_launches`: write the counter -/
  | countUpdateApp (counter : Counter) (appModel : Apps.Model)
  /-- `update_checkpoint_durations` / `_sessions`: read the active checkpoints -/
  | countFindActive (counter : Counter) (appId : Int)
  /-- the loop over them: read the checkpoint again -/
  | countFindCheckpoint (counter : Counter) (now : NaiveDateTime) (checkpoint : Checkpoints.Model)
      (rest : List Checkpoints.Model)
  /-- the loop over them: write the counter -/
  | countUpdateCheckpoint (counter : Counter) (now : NaiveDateTime)
      (checkpoint checkpointModel : Checkpoints.Model) (rest : List Checkpoints.Model)
  /-- `handle_timeline`: find the app -/
  | timelineFindApp (item : String)
  /-- `handle_timeline`: find today's entry -/
  | timelineFindEntry (appId : Int) (today : NaiveDate)
  /-- `handle_timeline`: count in today's entry -/
  | timelineUpdate (timelineModel : Timeline.Model)
  /-- `handle_timeline`: read the largest id -/
  | timelineMaxId (appId : Int) (today : NaiveDate)
  /-- `get_first_active_checkpoint_id` -/
  | timelineFirstCheckpoint (appId : Int) (today : NaiveDate) (nextId : Int)
  /-- `handle_timeline`: insert today's entry -/
  | timelineInsert (newTimeline : Timeline.Model)
deriving DecidableEq

/-- `handle_longest_session`: the text before the first `;` is the app's name, the text
after it the length of the session; without a `;` the event is dropped. -/
def handleLongestSession (item : String) : Option Handler :=
  match item.toList.splitOn ';' with
  | appName :: session :: _ =>
    some (.longestFindApp (String.ofList appName) ((parseI32 session).getD 0))
  | _ => none

def handleDuration (item : String) : Handler := .countFindApp .duration item

def handleLaunches (item : String) : Handler := .countFindApp .launches item

def handleTimeline (item : String) : Handler := .timelineFindApp item

def updateCheckpointDurations (appId : Int) : Handler := .countFindActive .duration appId

def updateCheckpointSessions (appId : Int) : Handler := .countFindActive .launches appId

/-- What a counting handler runs after the app's own counter is written. -/
def Counter.updateCheckpoints : Counter → Int → Handler
  | .duration => updateCheckpointDurations
  | .launches => updateCheckpointSessions

/-- `for checkpoint_value in checkpoints_arr`. -/
def forCheckpoints (counter : Counter) (now : NaiveDateTime) :
    List Checkpoints.Model → Option Handler
  | [] => none
  | checkpoint :: rest => some (.countFindCheckpoint counter now checkpoint rest)

/-- The columns `handle_longest_session` sets. -/
def setLongestSession (currentSession : Int) (nowDate : NaiveDate) (a : Apps.Model) : Apps.Model :=
  { a with longestSession := some currentSession, longestSessionOn := some nowDate }

/-- The column `handle_timeline` sets in an existing entry. -/
def setTimelineDuration (newDuration : Int) (t : Timeline.Model) : Timeline.Model :=
  { t with duration := some newDuration }

/-- The point after `handle_longest_session` has found its app. -/
def afterLongestFind (currentSession : Int) (nowDate : NaiveDate) (appModel : Apps.Model) :
    Option Handler :=
  if currentSession > appModel.longestSession.getD 0 then
    some (.longestUpdateApp appModel currentSession nowDate)
  else none

/-- One statement of a handler. -/
def Handler.step (inp : Input) : Handler → Store → Option Handler × Store
  | .longestFindApp appName currentSession, db =>
    match inp.statement (.ok (db.findApp appName)) with
    | .ok (some appModel) => (afterLongestFind currentSession inp.now.date appModel, db)
    | _ => (none, db)
  | .longestUpdateApp appModel currentSession nowDate, db =>
    match inp.statement
        (db.updateApp appModel.id (setLongestSession currentSession nowDate) fun _ => rfl) with
    | .ok db' => (none, db')
    | .error _ => (none, db)
  | .countFindApp counter item, db =>
    match inp.statement (.ok (db.findApp item)) with
    | .ok (some appModel) => (some (.countUpdateApp counter appModel), db)
    | _ => (none, db)
  | .countUpdateApp counter appModel, db =>
    let newCount := (counter.ofApp appModel).getD 0 + 1
    match inp.statement
        (db.updateApp appModel.id (counter.setApp newCount) (counter.setApp_id newCount)) with
    | .ok db' => (some (counter.updateCheckpoints appModel.id), db')
    | .error _ => (none, db)
  | .countFindActive counter appId, db =>
    match inp.statement (.ok (db.getActiveCheckpointsForApp appId)) with
    | .ok checkpoints => (forCheckpoints counter inp.now checkpoints, db)
    | .error _ => (none, db)
  | .countFindCheckpoint counter now checkpoint rest, db =>
    match inp.statement (.ok (db.checkpoints.byKey checkpoint.id)) with
    | .ok (some checkpointModel) =>
      (some (.countUpdateCheckpoint counter now checkpoint checkpointModel rest), db)
    | _ => (forCheckpoints counter now rest, db)
  | .countUpdateCheckpoint counter now checkpoint checkpointModel rest, db =>
    -- the new value comes from the row of the list, the row to write from the second read
    let newCount := (counter.ofCheckpoint checkpoint).getD 0 + 1
    match inp.statement (db.updateCheckpoint checkpointModel.id
        (counter.setCheckpoint newCount now) (counter.setCheckpoint_id newCount now)) with
    | .ok db' => (forCheckpoints counter now rest, db')
    | .error _ => (forCheckpoints counter now rest, db)
  | .timelineFindApp item, db =>
    match inp.statement (.ok (db.findApp item)) with
    | .ok (some appModel) => (some (.timelineFindEntry appModel.id inp.now.date), db)
    | _ => (none, db)
  | .timelineFindEntry appId today, db =>
    match inp.statement (.ok (db.findTimeline appId today)) with
    | .ok (some timelineModel) => (some (.timelineUpdate timelineModel), db)
    | .ok none => (some (.timelineMaxId appId today), db)
    | .error _ => (none, db)
  | .timelineUpdate timelineModel, db =>
    let newDuration := timelineModel.duration.getD 0 + 1
    match inp.statement
        (db.updateTimeline timelineModel.id (setTimelineDuration newDuration) fun _ => rfl) with
    | .ok db' => (none, db')
    | .error _ => (none, db)
  | .timelineMaxId appId today, db =>
    match inp.statement (.ok db.timeline.maxKey) with
    | .ok maxId => (some (.timelineFirstCheckpoint appId today (Store.nextId maxId)), db)
    | .error _ => (none, db)
  | .timelineFirstCheckpoint appId today nextId, db =>
    -- a failing read counts as "no active checkpoint"
    let checkpointId :=
      match inp.statement (.ok (db.getActiveCheckpointsForApp appId)) with
      | .ok checkpoints => checkpoints.head?.map Checkpoints.Model.id
      | .error _ => none
    (some (.timelineInsert ⟨nextId, today, some 1, appId, checkpointId⟩), db)
  | .timelineInsert newTimeline, db =>
    match inp.statement (db.insertTimeline newTimeline) with
    | .ok db' => (none, db')
    | .error _ => (none, db)

/-! ## The loop -/

/-- The `match receive_type` of `init_event_loop`. -/
def handle : Event → Option Handler
  | (item, .longestSession) => handleLongestSession item
  | (item, .duration) => some (handleDuration item)
  | (item, .launches) => some (handleLaunches item)
  | (item, .timeline) => some (handleTimeline item)

/-- `init_event_loop`: waiting in `rx.recv()`, or inside the handler of an event. -/
inductive EventLoop where
  | idle
  | handling (event : Event) (handler : Handler)
deriving DecidableEq

/-- The loop after a step of the handler of `event`. -/
def EventLoop.resume (event : Event) : Option Handler → EventLoop
  | some handler => .handling event handler
  | none => .idle

/-- One step of the event loop: take the next event, or run one statement of its handler. -/
def EventLoop.step (inp : Input) : EventLoop → List Event → Store →
    Option (EventLoop × List Event × Store)
  | .idle, [], _ => none
  | .idle, event :: rest, db => some (.resume event (handle event), rest, db)
  | .handling event handler, events, db =>
    let (next, db') := handler.step inp db
    some (.resume event next, events, db')

/-- The app an event names: its item, for `LongestSession` up to the first `;`. -/
def eventApp : Event → String
  | (item, .longestSession) => String.ofList (item.toList.takeWhile (· ≠ ';'))
  | (item, _) => item

/-! ## What an event says -/

/-- The text before the first separator is the first part of a split. -/
theorem head_splitOn (sep : Char) (l : List Char) :
    ∃ rest, l.splitOn sep = l.takeWhile (· ≠ sep) :: rest := by
  induction l with
  | nil => exact ⟨[], rfl⟩
  | cons x xs ih =>
    obtain ⟨rest, hrest⟩ := ih
    rw [List.splitOn_cons_eq_if_modifyHead]
    by_cases hx : x = sep
    · exact ⟨xs.splitOn sep, by simp [hx]⟩
    · exact ⟨rest, by simp [hx, hrest]⟩

/-- The app name a handler starts with. -/
def Handler.appName : Handler → Option String
  | .longestFindApp appName _ => some appName
  | .countFindApp _ item => some item
  | .timelineFindApp item => some item
  | _ => none

/-- The handler of an event starts by looking up the app the event names. -/
theorem appName_of_handle {event : Event} {hd : Handler} (h : handle event = some hd) :
    hd.appName = some (eventApp event) := by
  obtain ⟨item, kind⟩ := event
  cases kind with
  | longestSession =>
    simp only [handle, handleLongestSession] at h
    split at h
    · next appName session _ hsplit =>
      cases h
      obtain ⟨rest, hhead⟩ := head_splitOn ';' item.toList
      rw [hsplit] at hhead
      cases hhead
      rfl
    · cases h
  | _ =>
    cases h
    rfl

/-- The counter of a session is read back, as long as it fits an `i32`. -/
theorem parseI32_toDigits (n : Nat) :
    parseI32 (Nat.toDigits 10 n) = if n ≤ 2147483647 then some (n : Int) else none := by
  have hparse := Decimal.parseNat_toDigits n
  cases hdigits : Nat.toDigits 10 n with
  | nil => exact absurd hdigits Nat.toDigits_ne_nil
  | cons c cs =>
    have hc := Decimal.ne_head_toDigits hdigits
    rw [hdigits] at hparse
    unfold parseI32
    split
    · next heq => cases heq; exact absurd hc (by decide)
    · next heq => cases heq; exact absurd hc (by decide)
    · rw [hparse]
      rfl

/-- The two parts of the item of a `LongestSession` event, if there is no `;` in the name. -/
theorem splitOn_sessionItem {p : String} (hp : ';' ∉ p.toList) (n : Nat) :
    (sessionItem p n).toList.splitOn ';' = [p.toList, Nat.toDigits 10 n] := by
  have hdigits : ';' ∉ Nat.toDigits 10 n := fun h => by
    have := Decimal.isDigit_of_mem_toDigits h
    simp at this
  rw [sessionItem, String.toList_ofList, List.splitOn_append_cons_self_of_not_mem hp,
    List.splitOn_eq_singleton hdigits]

/-- **The item of a `LongestSession` event** of an app whose name has no `;` is read back as
that app and that counter. -/
theorem handleLongestSession_sessionItem {p : String} (hp : ';' ∉ p.toList) (n : Nat) :
    handleLongestSession (sessionItem p n) =
      some (.longestFindApp p (if n ≤ 2147483647 then n else 0)) := by
  rw [handleLongestSession, splitOn_sessionItem hp]
  simp only [parseI32_toDigits, String.ofList_toList]
  split <;> rfl

end TimeTracker
