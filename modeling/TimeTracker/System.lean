import TimeTracker.Lib.Pool
import TimeTracker.Lib.Runs
import TimeTracker.TimeTracking

/-!
# The whole program

The threads of a running tracker over their shared memory: one scanner, the main thread that
spawns workers, one event loop, the session workers, and the calls that the hotkeys, the RPC
server and the WebSocket clients have issued. `step` moves one of them; a `Label` says which
one and supplies the inputs of that step, so a list of labels is one interleaving.
-/

namespace TimeTracker

/-- A call of one of the client threads, at the point it has reached. -/
inductive Call where
  | addProcess (call : AddProcess)
  | deleteProcess (call : DeleteProcess)
  | pause (call : Pause)
  | setCheckpointActive (call : SetCheckpointActive)
  | createCheckpoint (call : CreateCheckpoint)
  | deleteCheckpoint (call : DeleteCheckpoint)
deriving DecidableEq

namespace Call

/-- A step of a call that only talks to the database. -/
def stepDb {γ : Type} (step : γ → Store → Option (γ × Store)) (wrap : γ → Call) (call : γ)
    (s : Shared) : Option (Call × Shared) :=
  match step call s.db with
  | none => none
  | some (call', db) => some (wrap call', { s with db })

def step (inp : Input) : Call → Shared → Option (Call × Shared)
  | .addProcess call, s => (call.step inp s).map fun (call', s') => (.addProcess call', s')
  | .deleteProcess call, s => (call.step inp s).map fun (call', s') => (.deleteProcess call', s')
  | .pause call, s => (call.step s).map fun (call', s') => (.pause call', s')
  | .setCheckpointActive call, s => stepDb (SetCheckpointActive.step inp) .setCheckpointActive call s
  | .createCheckpoint call, s => stepDb (CreateCheckpoint.step inp) .createCheckpoint call s
  | .deleteCheckpoint call, s => stepDb (DeleteCheckpoint.step inp) .deleteCheckpoint call s

/-- A call that has not run a statement yet. -/
def fresh : Call → Bool
  | .addProcess (.getProcesses _ _) | .deleteProcess (.deleteData _) | .pause .read
  | .setCheckpointActive (.find _ _) | .createCheckpoint (.insert _ _ _)
  | .deleteCheckpoint (.delete _) => true
  | _ => false

/-- What a call that has returned returned. -/
def result : Call → Option CallResult
  | .addProcess (.returned r) | .deleteProcess (.returned r) | .setCheckpointActive (.returned r)
  | .createCheckpoint (.returned r) | .deleteCheckpoint (.returned r) => some r
  | .pause .returned => some (.ok ())
  | _ => none

/-- A call that has died on a poisoned lock. -/
def panicked : Call → Bool
  | .addProcess .panicked | .deleteProcess .panicked => true
  | _ => false

end Call

structure Config where
  shared : Shared
  scanner : Scanner
  loop : EventLoop
  workers : List Worker
  calls : List Call

inductive Label where
  /-- the scanner -/
  | scan (inp : Input)
  /-- the main thread: `spawn_rx.recv()` and `thread::spawn` -/
  | spawn
  /-- session worker `k` -/
  | work (k : Nat) (inp : Input)
  /-- the event loop -/
  | handle (inp : Input)
  /-- call `k` -/
  | call (k : Nat) (inp : Input)

/-- A step of one of the calls. -/
def Label.isCall : Label → Bool
  | .call _ _ => true
  | _ => false

/-- A step of the scanner, the main thread or a session worker: these only read the database. -/
def Label.onlyReads : Label → Bool
  | .scan _ | .spawn | .work _ _ => true
  | _ => false

/-- What is asked of the insert of an app is decidable if it is for every row. -/
@[reducible] def decidableInsert {φ : String → String → Int → Prop} (call? : Option Call)
    (h : ∀ p productName id, Decidable (φ p productName id)) :
    Decidable (match call? with
      | some (.addProcess (.insert p productName id)) => φ p productName id
      | _ => True) := by
  split
  · exact h ..
  · exact isTrue trivial

/-- The error the database returns in a step. -/
def Label.err : Label → Option DbErr
  | .scan inp | .work _ inp | .handle inp | .call _ inp => inp.err
  | .spawn => none

namespace Config

def step (c : Config) : Label → Option Config
  | .scan inp =>
    (c.scanner.step inp c.shared).map fun (scanner, shared) => { c with scanner, shared }
  | .spawn =>
    match c.shared.spawnQueue with
    | [] => none
    | p :: rest =>
      some { c with
        shared := { c.shared with spawnQueue := rest }
        workers := c.workers ++ [Worker.spawned p] }
  | .work k inp =>
    match c.workers[k]? with
    | none => none
    | some w => (w.step inp c.shared).map fun (w', shared) =>
        { c with shared, workers := c.workers.set k w' }
  | .handle inp =>
    (c.loop.step inp c.shared.events c.shared.db).map fun (loop, events, db) =>
      { c with loop, shared := { c.shared with events, db } }
  | .call k inp =>
    match c.calls[k]? with
    | none => none
    | some call => (call.step inp c.shared).map fun (call', shared) =>
        { c with shared, calls := c.calls.set k call' }

end Config

/-- The tracker as a transition system. -/
def tracker : Transition.System Config Label := ⟨Config.step⟩

/-- The memory as `init` leaves it: `PROCESS_MAP` holds the names in the table, nothing runs
and nothing is queued. -/
def Shared.initial (platform : Platform) (db : Store) : Shared where
  platform := platform
  processMap := db.appNames.foldl (fun map p => map.insert p (false, false)) ∅
  mapLock := .free
  pause := false
  spawnQueue := []
  events := []
  broadcaster := true
  trackingStatus := .idle
  broadcasts := []
  db := db

/-- The program as `init` starts it, with the calls its clients are going to make. -/
def Config.initial (platform : Platform) (db : Store) (calls : List Call) : Config where
  shared := Shared.initial platform db
  scanner := .snapshot
  loop := .idle
  workers := []
  calls := calls

/-- A store with the one app `a`. -/
def storeWithA : Store where
  backend := .sqlite
  apps := ⟨[AddProcess.newApp "a" "a" 1], by decide⟩
  timeline := .empty
  checkpoints := .empty
  processAliases := .empty

/-- A store with the apps `a` and `b`. -/
def storeWithAB : Store where
  backend := .sqlite
  apps := ⟨[AddProcess.newApp "a" "a" 1, AddProcess.newApp "b" "b" 2], by decide⟩
  timeline := .empty
  checkpoints := .empty
  processAliases := .empty

/-- `init` puts the names in the table into `PROCESS_MAP`. -/
theorem mem_processMap_initial {platform : Platform} {db : Store} {p : String} :
    p ∈ (Shared.initial platform db).processMap ↔ p ∈ db.appNames := by
  have hfold : ∀ (names : List String) (map : ProcessMap),
      p ∈ names.foldl (fun map p => map.insert p (false, false)) map ↔ p ∈ map ∨ p ∈ names := by
    intro names
    induction names with
    | nil => simp
    | cons q rest ih =>
      intro map
      rw [List.foldl_cons, ih, Finmap.mem_insert, List.mem_cons]
      tauto
  rw [Shared.initial, hfold]
  simp [Finmap.notMem_empty]

/-! ## What a step is

One inversion lemma for each kind of label. -/

variable {c c' : Config} {inp : Input} {k : Nat}

/-- A step of the scanner changes what the threads share, and the scanner. -/
theorem step_scan (h : tracker.step c (.scan inp) = some c') :
    ∃ scanner shared, c.scanner.step inp c.shared = some (scanner, shared) ∧
      c' = { c with scanner, shared } := by
  obtain ⟨⟨scanner, shared⟩, hstep, rfl⟩ := Option.map_eq_some_iff.mp h
  exact ⟨scanner, shared, hstep, rfl⟩

/-- A worker begins for the first name of the queue. -/
theorem step_spawn (h : tracker.step c .spawn = some c') :
    ∃ p rest, c.shared.spawnQueue = p :: rest ∧
      c' = { c with
        shared := { c.shared with spawnQueue := rest }
        workers := c.workers ++ [Worker.spawned p] } := by
  simp only [tracker, Config.step] at h
  split at h
  · cases h
  · next p rest hq =>
    cases h
    exact ⟨p, rest, hq, rfl⟩

/-- A step of a worker changes what the threads share, and that worker. -/
theorem step_work (h : tracker.step c (.work k inp) = some c') :
    ∃ w w' shared, c.workers[k]? = some w ∧ w.step inp c.shared = some (w', shared) ∧
      c' = { c with shared, workers := c.workers.set k w' } := by
  simp only [tracker, Config.step] at h
  split at h
  · cases h
  · next w hw =>
    obtain ⟨⟨w', shared⟩, hstep, rfl⟩ := Option.map_eq_some_iff.mp h
    exact ⟨w, w', shared, hw, hstep, rfl⟩

/-- A step of the event loop changes the channel and the tables. -/
theorem step_handle (h : tracker.step c (.handle inp) = some c') :
    ∃ loop events db, c.loop.step inp c.shared.events c.shared.db = some (loop, events, db) ∧
      c' = { c with loop, shared := { c.shared with events, db } } := by
  obtain ⟨⟨loop, events, db⟩, hstep, rfl⟩ := Option.map_eq_some_iff.mp h
  exact ⟨loop, events, db, hstep, rfl⟩

/-- A step of a call changes what the threads share, and that call. -/
theorem step_call (h : tracker.step c (.call k inp) = some c') :
    ∃ call call' shared, c.calls[k]? = some call ∧ call.step inp c.shared = some (call', shared) ∧
      c' = { c with shared, calls := c.calls.set k call' } := by
  simp only [tracker, Config.step] at h
  split at h
  · cases h
  · next call hcall =>
    obtain ⟨⟨call', shared⟩, hstep, rfl⟩ := Option.map_eq_some_iff.mp h
    exact ⟨call, call', shared, hcall, hstep, rfl⟩

end TimeTracker
