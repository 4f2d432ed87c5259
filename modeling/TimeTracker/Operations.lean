import TimeTracker.Steps

/-!
# One operation at a time

The calls of the storage client and the event handlers as atomic operations: an operation
starts only while no other one runs, and then runs statement by statement to its end. Each
statement may fail on its own, so a run of `serial` is a sequence of operations in which any
pattern of failures has struck, and its states are those between any two statements.
-/

namespace TimeTracker

/-- An operation, at the point it has reached. -/
inductive Operation where
  /-- `put_data`: read the largest id -/
  | putDataMaxId (item productName : String)
  /-- `put_data`: insert the row -/
  | putDataInsert (item productName : String) (nextId : Int)
  | deleteData (item : String)
  | setCheckpointActive (call : SetCheckpointActive)
  | createCheckpoint (call : CreateCheckpoint)
  | deleteCheckpoint (call : DeleteCheckpoint)
  /-- the event loop with an event -/
  | handle (event : Event) (handler : Handler)
deriving DecidableEq

namespace Operation

/-- An operation that has not run a statement yet. The handlers are started by their event. -/
def fresh : Operation → Bool
  | .putDataMaxId _ _ | .deleteData _ | .setCheckpointActive (.find _ _)
  | .createCheckpoint (.insert _ _ _) | .deleteCheckpoint (.delete _) => true
  | _ => false

/-- A statement of a call of `seaorm_queries.rs`; a call that has returned is over. -/
def stepCall {γ : Type} (step : γ → Store → Option (γ × Store)) (wrap : γ → Operation) (call : γ)
    (db : Store) : Option Operation × Store :=
  match step call db with
  | none => (none, db)
  | some (call', db') => (some (wrap call'), db')

/-- One statement of an operation, and what is left of the operation. -/
def step (inp : Input) : Operation → Store → Option Operation × Store
  | .putDataMaxId item productName, db =>
    match inp.statement (.ok db.apps.maxKey) with
    | .ok maxId => (some (.putDataInsert item productName (Store.nextId maxId)), db)
    | .error _ => (none, db)
  | .putDataInsert item productName nextId, db =>
    match inp.statement (db.insertApp (AddProcess.newApp item productName nextId)) with
    | .ok db' => (none, db')
    | .error _ => (none, db)
  | .deleteData item, db =>
    match inp.statement (.ok (db.deleteApps item)) with
    | .ok db' => (none, db')
    | .error _ => (none, db)
  | .setCheckpointActive call, db => stepCall (SetCheckpointActive.step inp) .setCheckpointActive call db
  | .createCheckpoint call, db => stepCall (CreateCheckpoint.step inp) .createCheckpoint call db
  | .deleteCheckpoint call, db => stepCall (DeleteCheckpoint.step inp) .deleteCheckpoint call db
  | .handle event handler, db =>
    let (next, db') := handler.step inp db
    (next.map (.handle event), db')

end Operation

/-- The database and the operation that is under way. -/
structure Serial where
  running : Option Operation
  db : Store

inductive SerialLabel where
  /-- a call starts -/
  | call (op : Operation)
  /-- the event loop takes an event -/
  | event (event : Event)
  /-- one statement of the operation under way -/
  | statement (inp : Input)

namespace Serial

def step (s : Serial) : SerialLabel → Option Serial
  | .call op =>
    if s.running = none ∧ op.fresh then some { s with running := some op } else none
  | .event event =>
    if s.running = none then some { s with running := (handle event).map (.handle event) }
    else none
  | .statement inp =>
    match s.running with
    | none => none
    | some op =>
      let (running, db) := op.step inp s.db
      some ⟨running, db⟩

end Serial

/-- The operations one after the other, as a transition system. -/
def serial : Transition.System Serial SerialLabel := ⟨Serial.step⟩

/-- A database without rows, and nothing under way. -/
def Serial.initial (backend : Backend) : Serial where
  running := none
  db := ⟨backend, .empty, .empty, .empty, .empty⟩

/-! ## What a step is -/

variable {s s' : Serial}

/-- A call begins when no other operation runs. -/
theorem serial_call {op : Operation} (h : serial.step s (.call op) = some s') :
    s.running = none ∧ op.fresh = true ∧ s' = { s with running := some op } := by
  simp only [serial, Serial.step] at h
  split at h
  · next hstart =>
    cases h
    exact ⟨hstart.1, hstart.2, rfl⟩
  · cases h

/-- And so does the handling of an event. -/
theorem serial_event {event : Event} (h : serial.step s (.event event) = some s') :
    s.running = none ∧ s' = { s with running := (handle event).map (.handle event) } := by
  simp only [serial, Serial.step] at h
  split at h
  · next hidle =>
    cases h
    exact ⟨hidle, rfl⟩
  · cases h

/-- A statement is one of the operation that runs. -/
theorem serial_statement {inp : Input} (h : serial.step s (.statement inp) = some s') :
    ∃ op, s.running = some op ∧ op.step inp s.db = (s'.running, s'.db) := by
  simp only [serial, Serial.step] at h
  split at h
  · cases h
  · next op hrunning =>
    cases h
    exact ⟨op, hrunning, rfl⟩

end TimeTracker
