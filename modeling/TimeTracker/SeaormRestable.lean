import TimeTracker.CheckpointCalls
import TimeTracker.CheckpointRows
import TimeTracker.Lib.Transactions

/-!
# The SeaORM client behind the handlers

`impl Restable for SeaORMClient`, each method over the tables. Where `SeaormQueries` has a call as a
machine that stops between two statements, a method here runs from its first statement to its last.
Nothing else uses the database meanwhile, but it may refuse any of the statements. Two worlds that
differ in nothing but the statements that are going to be refused are as good as the same (`≈`).

* `SeaORMClient.restable`: the methods, and `Environment.onDatabase`: the handlers over them.
* `Reads`: a method that changes nothing.
* **`putData_commits`** and its siblings: a method that writes once does what the machine does, or
  fails and writes nothing.
* **`setCheckpointActive_ends`**: an activation writes more than once. If it fails some of the other
  checkpoints may have been deactivated, as many as the machine had when it was stopped.
-/

namespace TimeTracker

open Json (Value)
open Transaction Transition

/-! ## The methods -/

/-- What the database and its driver add: the id of a row that is inserted without one, and the
texts of the errors. -/
structure Driver where
  newId : Store → Int
  display : DbErr → String

/-- The time of day in nanoseconds; a leap second is long. -/
def NaiveTime.nanoseconds (t : NaiveTime) : Nat :=
  ((t.hour * 60 + t.minute) * 60 + t.second) * 2000000000 + t.nano

instance : LE NaiveDateTime where
  le a b := a.date ≤ b.date ∧ (b.date ≤ a.date → a.time.nanoseconds ≤ b.time.nanoseconds)

instance (a b : NaiveDateTime) : Decidable (a ≤ b) :=
  inferInstanceAs (Decidable (a.date ≤ b.date ∧
    (b.date ≤ a.date → a.time.nanoseconds ≤ b.time.nanoseconds)))

namespace Store

/-- `checkpoints::Entity::find().filter(…).order_by_desc(Id)`. -/
def checkpointsById (db : Store) (selected : Checkpoints.Model → Bool) : List Checkpoints.Model :=
  (db.checkpoints.all selected).insertionSort fun c c' => c'.id ≤ c.id

/-- The later `last_updated` first. PostgreSQL puts NULL before every time, SQLite after. -/
def updatedBefore (backend : Backend) : Option NaiveDateTime → Option NaiveDateTime → Bool
  | some t, some t' => t' ≤ t
  | none, some _ => backend = .postgres
  | some _, none => backend = .sqlite
  | none, none => true

/-- `.filter(Id.is_in(checkpoint_ids)).order_by_desc(LastUpdated)`. -/
def checkpointsByUpdate (db : Store) (checkpointIds : List Int) : List Checkpoints.Model :=
  (db.checkpoints.all fun c => c.id ∈ checkpointIds).insertionSort
    fun c c' => updatedBefore db.backend c.lastUpdated c'.lastUpdated

/-- `.order_by_desc(Date).find_also_related(checkpoints::Entity)`: every timeline row, with its
checkpoint if it has one. -/
def timelineWithCheckpoints (db : Store) : List (Timeline.Model × Option Checkpoints.Model) :=
  (db.timeline.rows.insertionSort fun t t' => t'.date ≤ t.date).map
    fun t => (t, t.checkpointId.bind db.checkpoints.byKey)

end Store

/-- A timeline row as JSON, with its checkpoint as one more member. -/
def timelineEntryValue : Timeline.Model × Option Checkpoints.Model → Value
  | (t, none) => t.toValue
  | (t, some c) => .obj
    [("app_id", .int t.appId), ("checkpoint", c.toValue),
      ("checkpoint_id", .option .int t.checkpointId), ("date", NaiveDate.toValue t.date),
      ("duration", .option .int t.duration), ("id", .int t.id)]

namespace SeaORMClient

variable (driver : Driver)

/-- A statement that writes. -/
def execute (statement : Store → Except DbErr Store) : StoreM World Unit := do
  nextStatement
  let world ← get
  match statement world.db with
  | .ok db => set { world with db }
  | .error e => throw (driver.display e)

/-- A delete: that there is no such row is no error. -/
def executeDelete (delete : Store → Store) : StoreM World Unit := do
  nextStatement
  modify fun world => { world with db := delete world.db }

def getProcesses : StoreM World (List String) := query Store.appNames

def putData (item productName : String) : StoreM World Value := do
  let maxIdResult ← query fun db => db.apps.maxKey
  execute driver fun db =>
    db.insertApp (AddProcess.newApp item productName (Store.nextId maxIdResult))
  return .obj [("insert", .str item)]

def deleteData (item : String) : StoreM World Value := do
  executeDelete fun db => db.deleteApps item
  return .obj [("delete", .str item)]

def getAllAppIds : StoreM World (List Int) := query fun db => db.appsById.map Apps.Model.id

/-- The rows of a query on the checkpoints, as JSON. -/
def checkpointsValue (select : Store → List Checkpoints.Model) : StoreM World Value := do
  let checkpoints ← query select
  return .arr (checkpoints.map Checkpoints.Model.toValue)

def getAllCheckpoints : StoreM World Value :=
  checkpointsValue fun db => db.checkpointsById fun _ => true

def getCheckpointsForApp (appId : Int) : StoreM World Value :=
  checkpointsValue fun db => db.checkpointsById fun c => c.appId = appId

def getActiveCheckpoints : StoreM World Value :=
  checkpointsValue fun db => db.checkpointsById fun c => c.isActive = some true

def getActiveCheckpointsForApp (appId : Int) : StoreM World Value :=
  checkpointsValue fun db => db.getActiveCheckpointsForApp appId

def getCheckpointDurationsByIds (checkpointIds : List Int) : StoreM World Value :=
  if checkpointIds.isEmpty then return .arr []
  else checkpointsValue fun db => db.checkpointsByUpdate checkpointIds

def getTimelineWithCheckpoints : StoreM World Value := do
  let timelineEntries ← query Store.timelineWithCheckpoints
  return .arr (timelineEntries.map timelineEntryValue)

def createCheckpoint (name : String) (description : Option String) (appId : Int) :
    StoreM World Value := do
  let now := (← get).now
  execute driver fun db => db.insertCheckpoint (driver.newId db)
    (CreateCheckpoint.newCheckpoint name description appId now)
  return .obj [("success", .str "Checkpoint created successfully")]

/-- The block under `if is_active`: a loop over the other active checkpoints. -/
def deactivateOthers (isActive : Bool) (checkpoint : Checkpoints.Model) : StoreM World Unit :=
  if isActive then do
    let now := (← get).now
    let activeCheckpoints ← query fun db => SetCheckpointActive.otherActive db checkpoint
    activeCheckpoints.forM fun active =>
      execute driver fun db =>
        db.updateCheckpoint active.id (SetCheckpointActive.setInactive now) fun _ => rfl
  else pure ()

def setCheckpointActive (checkpointId : Int) (isActive : Bool) : StoreM World Value := do
  match ← query fun db => db.checkpoints.byKey checkpointId with
  | none => throw "Checkpoint not found"
  | some checkpoint =>
    deactivateOthers driver isActive checkpoint
    let now := (← get).now
    execute driver fun db =>
      db.updateCheckpoint checkpoint.id (SetCheckpointActive.setActive isActive now) fun _ => rfl
    return .obj [("success", .str "Checkpoint status updated successfully")]

def deleteCheckpoint (checkpointId : Int) : StoreM World Value := do
  executeDelete fun db => db.deleteCheckpoint checkpointId
  return .obj [("success", .str "Checkpoint deleted successfully")]

/-- `impl Restable for SeaORMClient`. -/
def restable : Restable World where
  getProcesses := getProcesses
  putData := putData driver
  deleteData := deleteData
  getAllApps := getAllApps
  getTimelineData := getTimelineData
  getSessionCountForApp := getSessionCountForApp
  getAllAppIds := getAllAppIds
  getAllCheckpoints := getAllCheckpoints
  getCheckpointsForApp := getCheckpointsForApp
  createCheckpoint := createCheckpoint driver
  setCheckpointActive := setCheckpointActive driver
  deleteCheckpoint := deleteCheckpoint
  getActiveCheckpoints := getActiveCheckpoints
  getActiveCheckpointsForApp := getActiveCheckpointsForApp
  getCheckpointDurationsByIds := getCheckpointDurationsByIds
  getTimelineWithCheckpoints := getTimelineWithCheckpoints

end SeaORMClient

/-- The handlers over the SeaORM client: the storage and the clock are those of the program. -/
def Environment.onDatabase (driver : Driver) (env : Environment World) : Environment World :=
  { env with
    client := SeaORMClient.restable driver
    today := do return (← get).now.date }

/-! ## Methods that only read -/

/-- Two worlds may differ in what the database makes of the statements that are still to come. -/
instance : Setoid World where
  r w' w := ∃ errs, w' = { w with errs }
  iseqv :=
    { refl := fun w => ⟨w.errs, rfl⟩
      symm := fun {_ w} ⟨_, h⟩ => ⟨w.errs, by rw [h]⟩
      trans := fun ⟨errs, h⟩ ⟨_, h'⟩ => ⟨errs, by rw [h, h']⟩ }

/-- A statement that has been served is no difference. -/
theorem World.later_equiv (w : World) (n : Nat) : w.later n ≈ w := ⟨_, rfl⟩

/-- Any error. -/
abbrev anyError (_ : String) : Prop := True

/-- The error of a database that refuses one of the next `n` statements. -/
abbrev refusal (w : World) (n : Nat) (_ : String) : Prop := w.serves n = false

/-- A method that returns something or fails, and changes nothing. -/
def Reads {α : Type} (operation : StoreM World α) : Prop :=
  ∀ w, Commits operation w (asking w fun _ => True) anyError

section
variable {α β : Type}

/-- **A statement is served or refused.** -/
theorem nextStatement_commits (w : World) :
    Commits nextStatement w (fun _ w' => w.serves 1 = true ∧ w' = w.later 1) (refusal w 1) := by
  cases hserves : w.serves 1 with
  | true => exact .inl ⟨⟨⟩, _, nextStatement_run hserves, rfl, rfl⟩
  | false =>
    obtain ⟨e, hrun⟩ := nextStatement_run_refused hserves
    exact .inr ⟨e, _, hrun, w.later_equiv 1, hserves⟩

/-- A query answers from the tables. -/
theorem query_commits (read : Store → α) (w : World) :
    Commits (query read) w
      (fun a w' => w.serves 1 = true ∧ a = read w.db ∧ w' = w.later 1) (refusal w 1) := by
  apply (nextStatement_commits w).andThen
  rintro _ _ ⟨hserves, rfl⟩
  apply Returns.bindRead .of_get
  rintro _ rfl
  exact .of_pure ⟨hserves, rfl, rfl⟩

/-- A query changes nothing. -/
theorem reads_query (read : Store → α) : Reads (query read) := by
  intro w
  apply ((query_commits read w).weaken fun _ _ => trivial).imp
  rintro _ _ ⟨-, -, rfl⟩
  exact ⟨w.later_equiv 1, trivial⟩

/-- Two methods that only read, one after the other. -/
theorem Reads.bind {operation : StoreM World α} {next : α → StoreM World β}
    (h : Reads operation) (hnext : ∀ a, Reads (next a)) : Reads (operation >>= next) := by
  intro w
  apply (h w).bind
  intro a w' hw _
  apply (hnext a w').imp
  rintro _ _ ⟨hw', -⟩
  exact ⟨Setoid.trans hw' hw, trivial⟩

/-- A method that does not even read. -/
theorem Reads.of_pure (a : α) : Reads (pure a) := fun w => .of_pure ⟨Setoid.refl w, trivial⟩

end

namespace SeaORMClient

/-- All lists of checkpoints are one query and a conversion. -/
theorem reads_checkpointsValue (select : Store → List Checkpoints.Model) :
    Reads (checkpointsValue select) := (reads_query select).bind fun _ => .of_pure _

/-- `get_all_apps` and the methods below are queries, too. -/
theorem reads_getAllApps : Reads getAllApps := (reads_query _).bind fun _ => .of_pure _

/-- The clock is read before the rows are. -/
theorem reads_getTimelineData (appName : Option String) (days : Int) :
    Reads (getTimelineData appName days) := by
  intro w
  unfold getTimelineData
  apply Commits.bindRead .of_get
  intro _ _
  exact ((reads_query _).bind fun _ => .of_pure _) w

/-- `get_session_count_for_app`. -/
theorem reads_getSessionCountForApp (appId : Int) : Reads (getSessionCountForApp appId) :=
  (reads_query _).bind fun _ => .of_pure _

/-- `get_checkpoint_durations_by_ids`: without ids there is no query. -/
theorem reads_getCheckpointDurationsByIds (checkpointIds : List Int) :
    Reads (getCheckpointDurationsByIds checkpointIds) := by
  unfold getCheckpointDurationsByIds
  split
  · exact .of_pure _
  · exact reads_checkpointsValue _

/-- `get_timeline_with_checkpoints`. -/
theorem reads_getTimelineWithCheckpoints : Reads getTimelineWithCheckpoints :=
  (reads_query _).bind fun _ => .of_pure _

/-! ## Methods that write once

A method that reads and then writes has its one chance to fail before anything is written, so it is
a transaction. -/

/-- The database has served `n` statements, the tables are changed, and nothing else. -/
def Wrote {α : Type} (w : World) (n : Nat) (change : Store → Store → Prop) : α → World → Prop :=
  fun _ w' => w.serves n = true ∧ ∃ db, change w.db db ∧ w' = { w.later n with db }

/-- The tables are changed, and nothing else that counts. -/
def Changed {α : Type} (w : World) (change : Store → Store → Prop) : α → World → Prop :=
  fun _ w' => ∃ db, change w.db db ∧ w' ≈ { w with db }

section
variable {driver : Driver} {w : World}

/-- A statement that writes is refused by the database, or by the constraints of the tables. -/
theorem execute_commits (driver : Driver) (w : World) (statement : Store → Except DbErr Store) :
    Commits (execute driver statement) w (Wrote w 1 fun db db' => statement db = .ok db')
      fun e => refusal w 1 e ∨ ∃ e, statement w.db = .error e := by
  apply Ends.bind (Ends.weaken (nextStatement_commits w) fun _ _ he => ⟨he.1, .inl he.2⟩)
  rintro _ _ ⟨hserves, rfl⟩
  apply Ends.bindRead Returns.of_get.ends
  rintro _ rfl
  cases hstatement : statement w.db with
  | error e =>
    have herror : statement (w.later 1).db = .error e := hstatement
    simp only [herror]
    exact .of_throw ⟨w.later_equiv 1, .inr ⟨e, rfl⟩⟩
  | ok db =>
    have hok : statement (w.later 1).db = .ok db := hstatement
    simp only [hok]
    exact .inl ⟨⟨⟩, _, rfl, hserves, db, hstatement, rfl⟩

/-- A delete breaks no constraint, so only the database refuses it. -/
theorem executeDelete_commits (w : World) (delete : Store → Store) :
    Commits (executeDelete delete) w (Wrote w 1 fun db db' => db' = delete db)
      (refusal w 1) := by
  apply (nextStatement_commits w).andThen
  rintro _ _ ⟨hserves, rfl⟩
  exact .of_modify ⟨hserves, _, rfl, rfl⟩

/-- The next id is free, so nothing but a refusal keeps the row out. -/
theorem insertApp_nextId (db : Store) (item productName : String) (e : DbErr) :
    db.insertApp (AddProcess.newApp item productName (Store.nextId db.apps.maxKey)) ≠ .error e := by
  intro herror
  unfold Store.insertApp at herror
  cases hins : db.apps.insert
      (AddProcess.newApp item productName (Store.nextId db.apps.maxKey)) with
  | some apps =>
    rw [hins] at herror
    cases herror
  | none => exact Store.nextId_notMem db.apps (Table.insert_eq_none.mp hins)

/-- **`put_data`** has two statements, and fails if one of them is refused. -/
theorem putData_commits (item productName : String) :
    Commits (putData driver item productName) w
      (Wrote w 2 fun db db' => db.insertApp
        (AddProcess.newApp item productName (Store.nextId db.apps.maxKey)) = .ok db')
      (refusal w 2) := by
  have hfirst : ∀ e, refusal w 1 e → refusal w 2 e := by
    intro _ hrefused
    rw [refusal, World.serves_add w 1 1, hrefused]
    rfl
  apply Ends.bind (Ends.weaken (query_commits _ w) fun e _ he => ⟨he.1, hfirst e he.2⟩)
  rintro _ _ ⟨hserves, rfl, rfl⟩
  have hboth : w.serves 2 = (w.later 1).serves 1 := by
    rw [World.serves_add w 1 1, hserves, Bool.true_and]
  apply Ends.bind (Ends.weaken (execute_commits driver (w.later 1) _) _)
  · rintro _ _ ⟨hserves', db, hdb, rfl⟩
    exact .of_pure ⟨hboth.trans hserves', db, hdb, by rw [World.later_later]⟩
  · rintro e _ ⟨hw, hrefused | ⟨e, herror⟩⟩
    · exact ⟨Setoid.trans hw (w.later_equiv 1), hboth.trans hrefused⟩
    · exact absurd herror (insertApp_nextId w.db item productName e)

/-- **`delete_data`** has one. -/
theorem deleteData_commits (item : String) :
    Commits (deleteData item) w (Wrote w 1 fun db db' => db' = db.deleteApps item)
      (refusal w 1) := by
  apply (executeDelete_commits w fun db => db.deleteApps item).andThen
  rintro _ _ ⟨hserves, _, rfl, rfl⟩
  exact .of_pure ⟨hserves, _, rfl, rfl⟩

/-- **`create_checkpoint`** is its one statement, as in the machine of `CheckpointCalls`. -/
theorem createCheckpoint_commits (name : String) (description : Option String) (appId : Int) :
    Commits (createCheckpoint driver name description appId) w
      (Changed w fun db db' =>
        (CheckpointCall.create name description appId).Completes db (.ok ()) db') anyError := by
  unfold createCheckpoint
  apply Commits.bindRead .of_get
  rintro _ rfl
  apply Commits.andThen ((execute_commits _ _ _).weaken fun _ _ => trivial)
  rintro _ _ ⟨-, db, hdb, rfl⟩
  let inp : Input := { now := w.now, newId := driver.newId w.db }
  have hstep : (CreateCheckpoint.insert name description appId).step inp w.db =
      some (.returned (.ok ()), db) := by
    simp only [CreateCheckpoint.step, Input.statement, inp, hdb]
  exact .of_pure ⟨db, .create rfl hstep, _, rfl⟩

/-- **`delete_checkpoint`** too. -/
theorem deleteCheckpoint_commits (checkpointId : Int) :
    Commits (deleteCheckpoint checkpointId) w
      (Changed w fun db db' =>
        (CheckpointCall.delete checkpointId).Completes db (.ok ()) db') anyError := by
  have hdelete := executeDelete_commits w fun db => db.deleteCheckpoint checkpointId
  apply Commits.andThen (hdelete.weaken fun _ _ => trivial)
  rintro _ _ ⟨-, _, rfl, rfl⟩
  have hstep : (DeleteCheckpoint.delete checkpointId).step {} w.db =
      some (.returned (.ok ()), w.db.deleteCheckpoint checkpointId) := rfl
  exact .of_pure ⟨_, .delete rfl hstep, _, rfl⟩

/-! ## An activation

The other active checkpoints of the app are deactivated one by one, and then the target is written.
Any of these statements may be the one that is refused. -/

/-- A row is written, or the statement fails. -/
theorem updateCheckpoint_ends (id : Int) (set : Checkpoints.Model → Checkpoints.Model)
    (hset : ∀ c, Keyed.key (set c) = Keyed.key c) :
    Ends (execute driver fun db => db.updateCheckpoint id set hset) w
      (Changed w fun db db' => db.updateCheckpoint id set hset = .ok db') fun _ w' => w' ≈ w := by
  apply Ends.imp (Ends.weaken (execute_commits driver w _) fun _ _ he => he.1)
  rintro _ _ ⟨-, db, hdb, rfl⟩
  exact ⟨db, hdb, _, rfl⟩

/-- **The loop of an activation**, and the machine over the same rows. Induction on the rows: those
before the refused one have been deactivated. -/
theorem deactivateAll_ends (checkpoint : Checkpoints.Model) (now : NaiveDateTime)
    (active : List Checkpoints.Model) : ∀ w : World,
      Ends (active.forM fun c => execute driver fun db =>
          db.updateCheckpoint c.id (SetCheckpointActive.setInactive now) fun _ => rfl) w
        (Changed w (SetCheckpointActive.Deactivated checkpoint now active []))
        fun _ w' => ∃ first rest, active = first ++ rest ∧ ∃ db, w' ≈ { w with db } ∧
          SetCheckpointActive.Deactivated checkpoint now first rest w.db db := by
  induction active with
  | nil =>
    intro w
    exact .of_pure ⟨w.db, .nil _ _ _ _, Setoid.refl w⟩
  | cons c active ih =>
    intro w
    apply Ends.bind (Ends.weaken (updateCheckpoint_ends c.id _ _) _)
    · rintro _ _ ⟨db₁, hupd, errs, rfl⟩
      apply Ends.imp (Ends.weaken (ih { w with db := db₁, errs }) _)
      · rintro _ w' ⟨db, hdeactivated, errs', rfl⟩
        exact ⟨db, hdeactivated.cons hupd, errs', rfl⟩
      · rintro _ w' ⟨first, rest, rfl, db, ⟨errs', rfl⟩, hdeactivated⟩
        exact ⟨c :: first, rest, rfl, db, ⟨errs', rfl⟩, hdeactivated.cons hupd⟩
    · rintro _ w' hw
      exact ⟨[], c :: active, rfl, w.db, hw, .nil _ _ _ _⟩

/-- What an activation that fails may leave behind. -/
def HalfActivated (w : World) (checkpointId : Int) (w' : World) : Prop :=
  ∃ db, SetCheckpointActive.HalfDone checkpointId w.db db ∧ w' ≈ { w with db }

/-- Rows have been deactivated, and then a statement is refused: if there were no rows nothing has
happened. -/
theorem halfActivated_of_deactivated {checkpointId : Int} {checkpoint : Checkpoints.Model}
    {now : NaiveDateTime} {first rest : List Checkpoints.Model} {db : Store} {w' : World}
    (hfind : w.db.checkpoints.byKey checkpointId = some checkpoint)
    (hactive : SetCheckpointActive.otherActive w.db checkpoint = first ++ rest)
    (h : SetCheckpointActive.Deactivated checkpoint now first rest w.db db)
    (hw : w' ≈ { w with db }) : w' ≈ w ∨ HalfActivated w checkpointId w' := by
  cases first with
  | nil =>
    rw [h.eq_of_nil] at hw
    exact .inl hw
  | cons c first =>
    exact .inr ⟨db, ⟨checkpoint, now, c :: first, rest, hfind, hactive, List.cons_ne_nil _ _, h⟩,
      hw⟩

/-- The statements of an activation before its last one. -/
theorem deactivateOthers_ends {checkpointId : Int} {checkpoint : Checkpoints.Model}
    (hfind : w.db.checkpoints.byKey checkpointId = some checkpoint) :
    Ends (deactivateOthers driver true checkpoint) w
      (Changed w (SetCheckpointActive.Deactivated checkpoint w.now
        (SetCheckpointActive.otherActive w.db checkpoint) []))
      fun _ w' => w' ≈ w ∨ HalfActivated w checkpointId w' := by
  apply Ends.bindRead Returns.of_get.ends
  rintro _ rfl
  apply Ends.bind (Ends.weaken (query_commits _ w) fun _ _ he => .inl he.1)
  rintro _ _ ⟨-, rfl, rfl⟩
  apply Ends.imp (Ends.weaken (deactivateAll_ends checkpoint w.now _ (w.later 1)) _)
  · rintro _ _ ⟨db, hdeactivated, errs, rfl⟩
    exact ⟨db, hdeactivated, errs, rfl⟩
  · rintro _ _ ⟨first, rest, hactive, db, ⟨errs, rfl⟩, hdeactivated⟩
    exact halfActivated_of_deactivated hfind hactive hdeactivated ⟨errs, rfl⟩

/-- A statement that is served is a step without interruption. -/
theorem uninterrupted_statement {s : SetCheckpointActive × Store} {inp : Input}
    (h : inp.err = none) : uninterrupted s (.statement inp) := h

/-- The machine before its loop. -/
theorem run_find_true {checkpointId : Int} {checkpoint : Checkpoints.Model} {db : Store}
    (now : NaiveDateTime) (hfind : db.checkpoints.byKey checkpointId = some checkpoint) :
    activation.Runs uninterrupted (.find checkpointId true, db)
      [.statement {}, .statement { now }] (SetCheckpointActive.deactivateAll checkpoint now
        (SetCheckpointActive.otherActive db checkpoint), db) := by
  have hstep : activation.step (.find checkpointId true, db) (.statement {}) =
      some (.selectActive checkpoint, db) := by
    simp only [activation, SetCheckpointActive.step, Input.statement, hfind]
    rfl
  have hselect : activation.step (.selectActive checkpoint, db) (.statement { now }) =
      some (SetCheckpointActive.deactivateAll checkpoint now
        (SetCheckpointActive.otherActive db checkpoint), db) := rfl
  exact .cons (uninterrupted_statement rfl) hstep
    (.cons (uninterrupted_statement rfl) hselect (.nil _))

/-- The machine at its last statement. -/
theorem run_update {checkpoint : Checkpoints.Model} {isActive : Bool} {db db' : Store}
    {now : NaiveDateTime} (hupd : db.updateCheckpoint checkpoint.id
      (SetCheckpointActive.setActive isActive now) (fun _ => rfl) = .ok db') :
    activation.Runs uninterrupted (.update checkpoint isActive, db) [.statement { now }]
      (.returned (.ok ()), db') := by
  have hstep : activation.step (.update checkpoint isActive, db) (.statement { now }) =
      some (.returned (.ok ()), db') := by
    simp only [activation, SetCheckpointActive.step, Input.statement, hupd]
  exact .cons (uninterrupted_statement rfl) hstep (.nil _)

/-- The last statement of an activation, and the answer. -/
theorem lastUpdate_ends (w : World) (checkpoint : Checkpoints.Model) (isActive : Bool) :
    Ends (do
        let now := (← get).now
        execute driver fun db => db.updateCheckpoint checkpoint.id
          (SetCheckpointActive.setActive isActive now) fun _ => rfl
        return Value.obj [("success", .str "Checkpoint status updated successfully")]) w
      (Changed w fun db db' => ∃ ls, activation.Runs uninterrupted (.update checkpoint isActive, db)
        ls (.returned (.ok ()), db')) fun _ w' => w' ≈ w := by
  apply Ends.bindRead Returns.of_get.ends
  rintro _ rfl
  apply Ends.bind (updateCheckpoint_ends checkpoint.id _ _)
  rintro _ _ ⟨db, hupd, errs, rfl⟩
  exact .of_pure ⟨db, ⟨_, run_update hupd⟩, errs, rfl⟩

/-- **An activation** runs its machine to the end, or it fails and nothing is changed, or it was to
activate a checkpoint and is stopped half way. -/
theorem setCheckpointActive_ends (checkpointId : Int) (isActive : Bool) :
    Ends (setCheckpointActive driver checkpointId isActive) w
      (Changed w fun db db' =>
        (CheckpointCall.setActive checkpointId isActive).Completes db (.ok ()) db')
      fun _ w' => w' ≈ w ∨ isActive = true ∧ HalfActivated w checkpointId w' := by
  apply Ends.bind (Ends.weaken (query_commits _ w) fun _ _ he => .inl he.1)
  rintro _ _ ⟨-, rfl, rfl⟩
  cases hfind : w.db.checkpoints.byKey checkpointId with
  | none => exact .of_throw (.inl (w.later_equiv 1))
  | some checkpoint =>
    cases isActive with
    | false =>
      apply Ends.imp (Ends.weaken (lastUpdate_ends (w.later 1) checkpoint false)
        fun _ _ hw => .inl (Setoid.trans hw (w.later_equiv 1)))
      rintro _ _ ⟨db, ⟨ls, hrun⟩, errs, rfl⟩
      have hstep : activation.step (.find checkpointId false, w.db) (.statement {}) =
          some (.update checkpoint false, w.db) := by
        simp only [activation, SetCheckpointActive.step, Input.statement, hfind]
        rfl
      exact ⟨db, .setActive (.cons (uninterrupted_statement rfl) hstep hrun), errs, rfl⟩
    | true =>
      apply Ends.bind (Ends.weaken (deactivateOthers_ends (w := w.later 1) hfind) _)
      · rintro _ _ ⟨db₁, hdeactivated, errs, rfl⟩
        apply Ends.imp (Ends.weaken (lastUpdate_ends { w with db := db₁, errs } checkpoint true) _)
        · rintro _ _ ⟨db, ⟨ls, hlast⟩, errs', rfl⟩
          obtain ⟨ls', hloop⟩ := hdeactivated.run
          rw [List.append_nil] at hloop
          exact ⟨db, .setActive ((run_find_true _ hfind).trans (hloop.trans hlast)), errs', rfl⟩
        · rintro _ _ ⟨errs', rfl⟩
          have hactive := (List.append_nil (SetCheckpointActive.otherActive w.db checkpoint)).symm
          exact (halfActivated_of_deactivated hfind hactive hdeactivated ⟨errs', rfl⟩).imp_right
            fun h => ⟨rfl, h⟩
      · rintro _ _ (⟨errs, rfl⟩ | ⟨db, hhalf, errs, rfl⟩)
        · exact .inl ⟨errs, rfl⟩
        · exact .inr ⟨rfl, db, hhalf, errs, rfl⟩

end

end SeaORMClient

end TimeTracker
