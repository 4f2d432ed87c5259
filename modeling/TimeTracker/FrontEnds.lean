import Mathlib.Data.Finset.Basic
import TimeTracker.CommandEffects
import TimeTracker.Lib.Json.Fuel
import TimeTracker.SoundTables

/-!
# The front ends and what they are for

Processes are added and deleted by way of WebSocket commands, by JSON-RPC (`rpc.rs`), with a hotkey
(`hook.rs`) and on the command line (`main.rs`). Each has a clone of the client with a lock of its
own around it, under which nobody writes; `ServerState.clientLock` stands for all of them.

* `Registry`: the set of the names that are tracked, with its three requests.
* `Moves`: all that a request of any front end can do to the state, half an activation included.
* `Registry.Serves`: a call does to the names in the table what the registry does to its set, and
  its result is the registry's answer, unless the caller dies after the registry has done its part.
  The registry is available if the database serves the statements of the request.
* **`addProcess_serves`**, **`deleteProcess_serves`**, **`rpc_serves`**, **`message_serves`**: every
  front end serves the registry.
-/

namespace TimeTracker

open Json (Value)
open Transaction

/-! ## The registry -/

namespace Registry

inductive Request where
  | add (name : String)
  | delete (name : String)
  | list
deriving DecidableEq

inductive Answer where
  | done
  | refused
  | names (tracked : Finset String)
deriving DecidableEq

/-- The statements on which a request depends. The one that an add has left is for a broadcast. -/
def Request.statements : Request → Nat
  | .add _ => 3
  | .delete _ => 1
  | .list => 1

/-- The answer to a request, and the names that are tracked then. -/
def serve (available : Bool) (tracked : Finset String) (request : Request) :
    Answer × Finset String :=
  if available then
    match request with
    | .add name => if name ∈ tracked then (.refused, tracked) else (.done, insert name tracked)
    | .delete name => (.done, tracked.erase name)
    | .list => (.names tracked, tracked)
  else (.refused, tracked)

end Registry

/-! ## `rpc.rs` -/

/-- `jsonrpc_core::Params`. -/
inductive RpcParams where
  | array (values : List Value)
  | map (members : List (String × Value))
  | none

/-- `params.parse::<Vec<Value>>()`. -/
def RpcParams.parse : RpcParams → Option (List Value)
  | .array values => some values
  | _ => Option.none

/-- The error codes of `jsonrpc_core` that are used. -/
inductive ErrorCode where
  | parseError
  | internalError
deriving DecidableEq

/-- The methods of the RPC server. -/
inductive RpcMethod where
  | addProcess
  | getProcesses
  | deleteProcess
deriving DecidableEq

section
variable {σ : Type}

/-- `result.is_ok()`. -/
def isOk (action : HandlerM σ Unit) : HandlerM σ Bool :=
  tryCatch (do action; return true) fun
    | .error _ => return false
    | .panic => throw .panic

def rpcAddProcess (env : Environment σ) (params : RpcParams) :
    HandlerM σ (Except ErrorCode Value) := do
  match params.parse with
  | some (p :: path :: _) =>
    match p.asStr, path.asStr with
    | some p, some path =>
      if ← isOk (addProcess env p path) then
        return .ok (.str "process successfully added")
      else return .error .internalError
    | _, _ => return .error .parseError
  | _ => return .error .parseError

def rpcGetProcesses (env : Environment σ) : HandlerM σ (Except ErrorCode Value) := do
  acquireOrPanic ServerState.clientLock
  match ← onWorld env.client.getProcesses with
  | .ok processes => return .ok (.arr (processes.map .str))
  | .error _ => return .error .internalError

def rpcDeleteProcess (env : Environment σ) (params : RpcParams) :
    HandlerM σ (Except ErrorCode Value) := do
  match params.parse with
  | some (p :: _) =>
    match p.asStr with
    | some p =>
      if ← isOk (deleteProcess env p) then
        return .ok (.str "process successfully deleted")
      else return .error .internalError
    | none => return .error .parseError
  | _ => return .error .parseError

/-- A request to the RPC server. -/
def handleRpc (env : Environment σ) (params : RpcParams) :
    RpcMethod → HandlerM σ (Except ErrorCode Value)
  | .addProcess => rpcAddProcess env params
  | .getProcesses => rpcGetProcesses env
  | .deleteProcess => rpcDeleteProcess env params

/-! ## `hook.rs` and `main.rs` -/

/-- The hotkey for the window in the foreground, if there is one: a sound is played, or the error
is logged. -/
def hotkeyAdd (env : Environment σ) : Option String × Option String → HandlerM σ (Option Bool)
  | (some path, some fileName) => return some (← isOk (addProcess env fileName path))
  | _ => return none

/-- The program on the command line: a process of its own, with an empty `PROCESS_MAP` and without a
broadcaster. -/
def ServerState.commandLine (world : σ) : ServerState σ :=
  { ServerState.serving world with hasActiveBroadcaster := false }

/-- `handle_client` with the subcommand `add`. What is left of the process is what it has stored. -/
def commandLineAdd (env : Environment σ) (processName path : String) (world : σ) :
    Except Stop Unit × σ :=
  let (result, state) := (addProcess env processName path).run.run (.commandLine world)
  (result, state.world)

end

/-! ## The registry behind a call

What a call has done to the state is one of the `Moves`, up to the statements that are left to be
refused. What it has done for the registry is `Registry.Serves`: the set of names is a function of
the table (`Store.tracked`), the availability one of the statements that are to come
(`World.available`). -/

/-- The names in the table. -/
def Store.tracked (db : Store) : Finset String := db.appNames.toFinset

/-- The database serves the statements of a request. -/
def World.available (w : World) (request : Registry.Request) : Bool := w.serves request.statements

/-- What the registry does with a request now. -/
def World.serve (w : World) (request : Registry.Request) : Registry.Answer × Finset String :=
  Registry.serve (w.available request) w.db.tracked request

/-- All that a request can do to the state. -/
inductive Moves (env : Environment World) (s : ServerState World) : ServerState World → Prop where
  | stays : Moves env s s
  | added {name path : String} {db : Store} {s₁ : ServerState World}
      (hdb : Inserted env name path s db)
      (hs₁ : s₁ = { (s.later 3).withTables db with
        processMap := s.processMap.insert name (false, false) }) :
      Moves env s (s₁.pushing (appsPushed env s₁))
  | addTorn {name path : String} {db : Store} (hmap : s.processMapLock = .poisoned)
      (hdb : Inserted env name path s db) : Moves env s (s.withTables db)
  | deleted {name : String} {s₁ : ServerState World}
      (hs₁ : s₁ = { (s.later 1).withTables (s.world.db.deleteApps name) with
        processMap := s.processMap.erase name }) :
      Moves env s (s₁.pushing (appsPushed env s₁))
  | deleteTorn (name : String) (hmap : s.processMapLock = .poisoned) :
      Moves env s (s.withTables (s.world.db.deleteApps name))
  | checkpoints {call : CheckpointCall} {r : CallResult} {db : Store}
      (h : call.Completes s.world.db r db) : Moves env s (s.withTables db)
  | halfActivated {checkpointId : Int} {db : Store}
      (h : SetCheckpointActive.HalfDone checkpointId s.world.db db) : Moves env s (s.withTables db)
  | configured (config : TimeTrackingConfig) : Moves env s { s with config }
  | subscribed (id : Nat) (topics : List SubscriptionTopic) :
      Moves env s (s.pushing [.subscribe id topics])
  | unsubscribed (id : Nat) (topics : List SubscriptionTopic) :
      Moves env s (s.pushing [.unsubscribe id topics])

/-- A request has moved the state, whatever statements it has left to be refused. -/
def Moved (env : Environment World) (s s' : ServerState World) : Prop :=
  ∃ s₁, Moves env s s₁ ∧ s' ≈ s₁

/-- A request has been served: the names are those of the registry, and so is the answer, unless the
caller has died after the registry has done its part. -/
structure Registry.Serves (env : Environment World) (request : Registry.Request)
    (s : ServerState World) (answer : Option Registry.Answer) (s' : ServerState World) : Prop where
  moved : Moved env s s'
  tracked : s'.world.db.tracked = (s.world.serve request).2
  answer : answer = some (s.world.serve request).1 ∨
    answer = none ∧ s.processMapLock = .poisoned ∧ (s.world.serve request).1 = .done

/-- The answer in the result of a call. -/
def answerOf : Except Stop Unit → Option Registry.Answer
  | .ok _ => some .done
  | .error (.error _) => some .refused
  | .error .panic => none

/-- A name is tracked if it is in the table. -/
theorem Store.mem_tracked {db : Store} {name : String} : name ∈ db.tracked ↔ name ∈ db.appNames :=
  List.mem_toFinset

/-- An insert is an insert into the set, -/
theorem Store.tracked_insertApp {db db' : Store} {item productName : String} {id : Int}
    (h : db.insertApp (AddProcess.newApp item productName id) = .ok db') :
    db'.tracked = insert item db.tracked := by
  ext name
  rw [Finset.mem_insert, mem_tracked, mem_tracked, mem_appNames_insertApp h]
  have hname : (AddProcess.newApp item productName id).name = some name ↔ name = item := by
    show some item = some name ↔ _
    rw [Option.some.injEq]
    exact eq_comm
  rw [hname]
  exact or_comm

/-- and a delete takes the name away. -/
theorem Store.tracked_deleteApps (db : Store) (item : String) :
    (db.deleteApps item).tracked = db.tracked.erase item := by
  ext name
  rw [Finset.mem_erase, mem_tracked, mem_tracked, mem_appNames_deleteApps]
  exact and_comm

section
variable {driver : Driver} {env : Environment World} {s s' : ServerState World} {name : String}

/-- No statement has to be left to be refused. -/
theorem Moves.moved (h : Moves env s s') : Moved env s s' := ⟨s', h, Setoid.refl s'⟩

/-- Refused statements are no part of the tables, -/
theorem db_of_equiv (h : s' ≈ s) : s'.world.db = s.world.db := by
  obtain ⟨_, ⟨errs, rfl⟩, rfl⟩ := h
  rfl

/-- nor of the names in them. -/
theorem tracked_of_equiv (h : s' ≈ s) : s'.world.db.tracked = s.world.db.tracked :=
  congrArg Store.tracked (db_of_equiv h)

/-- An available registry takes a name it does not have. -/
theorem serve_add (hserves : s.world.serves 3 = true) (hnew : name ∉ s.world.db.appNames) :
    s.world.serve (.add name) = (.done, insert name s.world.db.tracked) := by
  have hmem : name ∉ s.world.db.tracked := mt Store.mem_tracked.mp hnew
  have havailable : s.world.available (.add name) = true := hserves
  unfold World.serve Registry.serve
  rw [havailable]
  exact if_neg hmem

/-- The registry refuses for the reasons `add_process` does. -/
theorem serve_add_refused (h : NotAddable name s) :
    s.world.serve (.add name) = (.refused, s.world.db.tracked) := by
  unfold World.serve Registry.serve
  cases havailable : s.world.available (.add name) with
  | false => rfl
  | true =>
    have hmem : name ∈ s.world.db.tracked :=
      Store.mem_tracked.mpr (h.resolve_right (Bool.not_eq_false _ ▸ havailable))
    exact if_pos hmem

/-- An available registry deletes, whether the name is there or not. -/
theorem serve_delete (hserves : s.world.serves 1 = true) :
    s.world.serve (.delete name) = (.done, s.world.db.tracked.erase name) := by
  have havailable : s.world.available (.delete name) = true := hserves
  unfold World.serve Registry.serve
  rw [havailable]
  rfl

/-- One that is not available refuses everything. -/
theorem serve_unavailable {request : Registry.Request}
    (hrefused : s.world.serves request.statements = false) :
    s.world.serve request = (.refused, s.world.db.tracked) := by
  have havailable : s.world.available request = false := hrefused
  unfold World.serve Registry.serve
  rw [havailable]
  rfl

/-- A name has been added. -/
theorem serves_add {path : String} {db : Store} {answer : Option Registry.Answer}
    (hmoved : Moved env s s') (hdb : Inserted env name path s db) (hs' : s'.world.db = db)
    (hanswer : answer = some .done ∨ answer = none ∧ s.processMapLock = .poisoned) :
    Registry.Serves env (.add name) s answer s' := by
  refine ⟨hmoved, ?_, ?_⟩
  · rw [serve_add hdb.serves hdb.new, hs']
    exact Store.tracked_insertApp hdb.stored
  · rw [serve_add hdb.serves hdb.new]
    exact hanswer.imp_right fun h => ⟨h.1, h.2, rfl⟩

/-- A name has been deleted. -/
theorem serves_delete {answer : Option Registry.Answer} (hmoved : Moved env s s')
    (hserves : s.world.serves 1 = true) (hs' : s'.world.db = s.world.db.deleteApps name)
    (hanswer : answer = some .done ∨ answer = none ∧ s.processMapLock = .poisoned) :
    Registry.Serves env (.delete name) s answer s' := by
  refine ⟨hmoved, ?_, ?_⟩
  · rw [serve_delete hserves, hs']
    exact Store.tracked_deleteApps _ _
  · rw [serve_delete hserves]
    exact hanswer.imp_right fun h => ⟨h.1, h.2, rfl⟩

/-- A request has been refused, and there is a reason. -/
theorem serves_refused {request : Registry.Request} (hs' : s' ≈ s)
    (h : s.world.serve request = (.refused, s.world.db.tracked)) :
    Registry.Serves env request s (some .refused) s' := by
  refine ⟨⟨s, .stays, hs'⟩, ?_, ?_⟩
  · rw [h]
    exact tracked_of_equiv hs'
  · rw [h]
    exact .inl rfl

/-- **`add_process` serves the registry.** -/
theorem addProcess_serves (hs : Healthy s) (name path : String) :
    ∃ result s', (addProcess (env.onDatabase driver) name path).run.run s = (result, s') ∧
      Registry.Serves env (.add name) s (answerOf result) s' := by
  have hends : Ends (addProcess (env.onDatabase driver) name path) s _ _ :=
    addProcess_ends hs name path
  rcases hends with ⟨_, s', hrun, db, s₁, hdb, rfl, hs'⟩ | ⟨stop, s', hrun, hstopped⟩
  · refine ⟨_, s', hrun, serves_add ⟨_, .added hdb rfl, hs'⟩ hdb ?_ (.inl rfl)⟩
    exact db_of_equiv hs'
  · cases stop with
    | error e =>
      obtain ⟨hs', hnot⟩ := hstopped
      exact ⟨_, s', hrun, serves_refused hs' (serve_add_refused hnot)⟩
    | panic =>
      obtain ⟨hmap, db, hdb, hs'⟩ := hstopped
      exact ⟨_, s', hrun, serves_add ⟨_, .addTorn hmap hdb, hs'⟩ hdb (db_of_equiv hs')
        (.inr ⟨rfl, hmap⟩)⟩

/-- **`delete_process` serves the registry.** -/
theorem deleteProcess_serves (hs : Healthy s) (name : String) :
    ∃ result s', (deleteProcess (env.onDatabase driver) name).run.run s = (result, s') ∧
      Registry.Serves env (.delete name) s (answerOf result) s' := by
  have hends : Ends (deleteProcess (env.onDatabase driver) name) s _ _ :=
    deleteProcess_ends hs name
  rcases hends with ⟨_, s', hrun, hserves, s₁, rfl, hs'⟩ | ⟨stop, s', hrun, hstopped⟩
  · refine ⟨_, s', hrun, serves_delete ⟨_, .deleted rfl, hs'⟩ hserves ?_ (.inl rfl)⟩
    exact db_of_equiv hs'
  · cases stop with
    | error e =>
      obtain ⟨hs', hrefused⟩ := hstopped
      exact ⟨_, s', hrun, serves_refused hs' (serve_unavailable hrefused)⟩
    | panic =>
      obtain ⟨hmap, hserves, hs'⟩ := hstopped
      exact ⟨_, s', hrun, serves_delete ⟨_, .deleteTorn name hmap, hs'⟩ hserves
        (db_of_equiv hs') (.inr ⟨rfl, hmap⟩)⟩

/-! ## JSON-RPC -/

/-- What the method and its parameters ask for, if they are well formed. -/
def rpcRequest (params : RpcParams) : RpcMethod → Option Registry.Request
  | .addProcess =>
    match params.parse with
    | some (p :: path :: _) =>
      match p.asStr, path.asStr with
      | some p, some _ => some (.add p)
      | _, _ => none
    | _ => none
  | .getProcesses => some .list
  | .deleteProcess =>
    match params.parse with
    | some (p :: _) => p.asStr.map .delete
    | _ => none

/-- The answer in the result of a request. -/
def rpcAnswer : Except Stop (Except ErrorCode Value) → Option Registry.Answer
  | .ok (.ok (.arr values)) => some (.names (values.filterMap Value.asStr).toFinset)
  | .ok (.ok _) => some .done
  | .ok (.error _) => some .refused
  | .error _ => none

/-- What `is_ok` makes of a result. -/
def okOf : Except Stop Unit → Except Stop Bool
  | .ok _ => .ok true
  | .error (.error _) => .ok false
  | .error .panic => .error .panic

/-- `is_ok` catches an error; a panic goes through it. -/
theorem isOk_run {action : HandlerM World Unit} {result : Except Stop Unit}
    (hrun : action.run.run s = (result, s')) : (isOk action).run.run s = (okOf result, s') := by
  cases result with
  | ok _ => exact run_tryCatch_ok (run_bind_ok hrun)
  | error stop =>
    have hbody : (do action; return true : HandlerM World Bool).run.run s = (.error stop, s') :=
      run_bind_error hrun
    cases stop with
    | error e => exact run_tryCatch_error hbody
    | panic => exact run_tryCatch_error hbody

/-- The end of a method that calls `action`. -/
theorem isOk_serves {request : Registry.Request} {action : HandlerM World Unit}
    {result : Except Stop Unit} {text : String} (hrun : action.run.run s = (result, s'))
    (h : Registry.Serves env request s (answerOf result) s') :
    ∃ result s', (do
      if ← isOk action then return .ok (.str text)
      else return .error .internalError : HandlerM World (Except ErrorCode Value)).run.run s =
        (result, s') ∧ Registry.Serves env request s (rpcAnswer result) s' := by
  have hok := isOk_run hrun
  cases result with
  | ok _ =>
    refine ⟨.ok (.ok (.str text)), s', ?_, h⟩
    rw [run_bind_ok hok]
    rfl
  | error stop =>
    cases stop with
    | error e =>
      refine ⟨.ok (.error .internalError), s', ?_, h⟩
      rw [run_bind_ok hok]
      rfl
    | panic => exact ⟨.error .panic, s', run_bind_error hok, h⟩

/-- An available registry tells its names. -/
theorem serve_list (hserves : s.world.serves 1 = true) :
    s.world.serve .list = (.names s.world.db.tracked, s.world.db.tracked) := by
  have havailable : s.world.available .list = true := hserves
  unfold World.serve Registry.serve
  rw [havailable]
  rfl

/-- Names that are sent as JSON strings are read off again. -/
theorem filterMap_asStr (names : List String) :
    (names.map Value.str).filterMap Value.asStr = names := by
  rw [List.filterMap_map]
  exact List.filterMap_some

/-- **The list of JSON-RPC** serves the registry, too: its one statement reads all names. -/
theorem rpcGetProcesses_serves (hs : Healthy s) :
    ∃ result s', (rpcGetProcesses (env.onDatabase driver)).run.run s = (result, s') ∧
      Registry.Serves env .list s (rpcAnswer result) s' := by
  unfold rpcGetProcesses
  rw [run_bind_ok (acquireOrPanic_run hs.clientLock)]
  have hworld := onWorld_run (query Store.appNames) s
  rcases query_commits Store.appNames s.world with ⟨_, _, hrun, hserves, rfl, rfl⟩ |
    ⟨e, w', hrun, hw', hrefused⟩
  · rw [hrun] at hworld
    have hget : (onWorld (env.onDatabase driver).client.getProcesses).run.run s =
        (.ok (.ok s.world.db.appNames), s.later 1) := hworld
    refine ⟨.ok (.ok (.arr (s.world.db.appNames.map .str))), s.later 1, ?_,
      ⟨s, .stays, s.later_equiv 1⟩, ?_, ?_⟩
    · rw [run_bind_ok hget]
      rfl
    · rw [serve_list hserves]
      rfl
    · rw [serve_list hserves, rpcAnswer, filterMap_asStr]
      exact .inl rfl
  · rw [hrun] at hworld
    have hget : (onWorld (env.onDatabase driver).client.getProcesses).run.run s =
        (.ok (.error e), { s with world := w' }) := hworld
    refine ⟨.ok (.error .internalError), { s with world := w' }, ?_,
      serves_refused ⟨w', hw', rfl⟩ (serve_unavailable hrefused)⟩
    rw [run_bind_ok hget]
    rfl

/-- The outcome of a method: the registry has been served, or the parameters are not well formed. -/
def RpcServed (env : Environment World) (request : Option Registry.Request) (s : ServerState World)
    (result : Except Stop (Except ErrorCode Value)) (s' : ServerState World) : Prop :=
  match request with
  | some request => Registry.Serves env request s (rpcAnswer result) s'
  | none => result = .ok (.error .parseError) ∧ s' = s

/-- **A request to the RPC server** serves the registry, and one that is not well formed is an error
and nothing else. -/
theorem rpc_serves (hs : Healthy s) (method : RpcMethod) (params : RpcParams) :
    ∃ result s', (handleRpc (env.onDatabase driver) params method).run.run s = (result, s') ∧
      RpcServed env (rpcRequest params method) s result s' := by
  have hinvalid : ∃ result s', (return .error .parseError :
      HandlerM World (Except ErrorCode Value)).run.run s = (result, s') ∧
      RpcServed env none s result s' := ⟨_, _, rfl, rfl, rfl⟩
  cases method with
  | getProcesses => exact rpcGetProcesses_serves hs
  | addProcess =>
    unfold handleRpc rpcAddProcess rpcRequest
    rcases params.parse with _ | _ | ⟨p, _ | ⟨path, rest⟩⟩
    · exact hinvalid
    · exact hinvalid
    · exact hinvalid
    · dsimp only
      rcases p.asStr with _ | p
      · exact hinvalid
      rcases path.asStr with _ | path
      · exact hinvalid
      have hadd : ∃ result s', (addProcess (env.onDatabase driver) p path).run.run s =
          (result, s') ∧ _ := addProcess_serves hs p path
      obtain ⟨result, s', hrun, hserves⟩ := hadd
      exact isOk_serves hrun hserves
  | deleteProcess =>
    unfold handleRpc rpcDeleteProcess rpcRequest
    rcases params.parse with _ | _ | ⟨p, rest⟩
    · exact hinvalid
    · exact hinvalid
    · dsimp only
      rcases p.asStr with _ | p
      · exact hinvalid
      have hdelete : ∃ result s', (deleteProcess (env.onDatabase driver) p).run.run s =
          (result, s') ∧ _ := deleteProcess_serves hs p
      obtain ⟨result, s', hrun, hserves⟩ := hdelete
      exact isOk_serves hrun hserves

/-! ## The hotkey and the command line

Both add only. The command line is a process of its own, so its locks are new, and the map it writes
goes with it. -/

/-- What the hotkey asks for. -/
def hotkeyRequest : Option String × Option String → Option Registry.Request
  | (some _, some fileName) => some (.add fileName)
  | _ => none

/-- The answer that is heard, or logged. -/
def hotkeyAnswer : Except Stop (Option Bool) → Option Registry.Answer
  | .ok (some true) => some .done
  | .ok _ => some .refused
  | .error _ => none

/-- **The hotkey** serves the registry, if there is a window to add. -/
theorem hotkeyAdd_serves (hs : Healthy s) (path name : String) :
    ∃ result s', (hotkeyAdd (env.onDatabase driver) (some path, some name)).run.run s =
      (result, s') ∧ Registry.Serves env (.add name) s (hotkeyAnswer result) s' := by
  have hadd : ∃ result s', (addProcess (env.onDatabase driver) name path).run.run s =
      (result, s') ∧ _ := addProcess_serves hs name path
  obtain ⟨result, s', hrun, hserves⟩ := hadd
  have hok := isOk_run hrun
  cases result with
  | ok _ => exact ⟨.ok (some true), s', run_bind_ok hok, hserves⟩
  | error stop =>
    cases stop with
    | error e => exact ⟨.ok (some false), s', run_bind_ok hok, hserves⟩
    | panic => exact ⟨.error .panic, s', run_bind_error hok, hserves⟩

/-- **The command line** serves the registry, and no lock is in its way. -/
theorem commandLineAdd_serves (driver : Driver) (env : Environment World) (name path : String)
    (w : World) :
    ∃ result s', commandLineAdd (env.onDatabase driver) name path w = (result, s'.world) ∧
      Registry.Serves env (.add name) (.commandLine w) (answerOf result) s' := by
  have hstart : Healthy (ServerState.commandLine w) := ⟨rfl, rfl, rfl⟩
  have hadd : ∃ result s', (addProcess (env.onDatabase driver) name path).run.run _ =
      (result, s') ∧ _ := addProcess_serves hstart name path
  obtain ⟨result, s', hrun, hserves⟩ := hadd
  refine ⟨result, s', ?_, hserves⟩
  unfold commandLineAdd
  rw [hrun]

/-! ## WebSocket commands

The reply is a text. Whether it is an error is read off its `type`, as a client would
(`isErrorReply`). -/

/-- What a command asks of the registry, if it is well formed. `get_apps` asks for whole rows, not
for names, and is none of its requests. -/
def commandRequest (env : Environment World) (command : WebSocketCommand) :
    Option Registry.Request := do
  let params ← (command.params env).toOption
  match command.type with
  | .addProcess =>
    let name ← stringParam params "process_name"
    let _ ← stringParam params "path"
    return .add name
  | .deleteProcess =>
    let name ← stringParam params "process_name"
    return .delete name
  | _ => none

/-- What a text asks of the registry. -/
def messageRequest (env : Environment World) (text : String) : Option Registry.Request :=
  match env.commandFromStr text with
  | .ok command => commandRequest env command
  | .error _ => none

/-- The `type` of a reply. -/
def isErrorReply (text : String) : Bool :=
  match Json.parse text with
  | some (.obj members) => (Json.lookup members "type").bind Value.asStr = some "error"
  | _ => false

/-- The answer in a reply. -/
def messageAnswer (reply : Option String) : Option Registry.Answer :=
  reply.map fun text => if isErrorReply text then .refused else .done

/-- The type of a message can be read off its text, as the text is parsed as the message
(`Json.parse_toText`). -/
theorem isErrorReply_toJson (message : WebSocketMessage) :
    isErrorReply message.toJson = decide (message.type = .error) := by
  unfold isErrorReply WebSocketMessage.toJson
  rw [Json.parse_toText]
  show decide (some message.type.rename = some "error") = _
  cases message.type <;> rfl

/-- An `add_process` with both parameters is a request to add, -/
theorem commandRequest_add {command : WebSocketCommand} {params : Params} {path : String}
    (htype : command.type = .addProcess) (hparams : command.params env = .ok params)
    (hname : stringParam params "process_name" = some name)
    (hpath : stringParam params "path" = some path) :
    commandRequest env command = some (.add name) := by
  unfold commandRequest
  rw [hparams, htype]
  show (stringParam params "process_name").bind _ = _
  rw [hname]
  show (stringParam params "path").bind _ = _
  rw [hpath]
  rfl

/-- and a `delete_process` with its one parameter a request to delete. -/
theorem commandRequest_delete {command : WebSocketCommand} {params : Params}
    (htype : command.type = .deleteProcess) (hparams : command.params env = .ok params)
    (hname : stringParam params "process_name" = some name) :
    commandRequest env command = some (.delete name) := by
  unfold commandRequest
  rw [hparams, htype]
  show (stringParam params "process_name").bind _ = _
  rw [hname]
  rfl

/-- A command that asks something of the registry is well formed. -/
theorem commandRequest_cases {command : WebSocketCommand} {request : Registry.Request}
    (h : commandRequest env command = some request) :
    ∃ params name, command.params env = .ok params ∧
      stringParam params "process_name" = some name ∧
      ((command.type = .addProcess ∧ request = .add name ∧
          ∃ path, stringParam params "path" = some path) ∨
        (command.type = .deleteProcess ∧ request = .delete name)) := by
  unfold commandRequest at h
  cases hparams : command.params env with
  | error e =>
    rw [hparams] at h
    cases h
  | ok params =>
    rw [hparams] at h
    cases htype : command.type with
    | addProcess =>
      rw [htype] at h
      change (stringParam params "process_name").bind _ = _ at h
      obtain ⟨name, hname, h⟩ := Option.bind_eq_some_iff.mp h
      obtain ⟨path, hpath, h⟩ := Option.bind_eq_some_iff.mp h
      cases h
      exact ⟨params, name, rfl, hname, .inl ⟨rfl, rfl, path, hpath⟩⟩
    | deleteProcess =>
      rw [htype] at h
      change (stringParam params "process_name").bind _ = _ at h
      obtain ⟨name, hname, h⟩ := Option.bind_eq_some_iff.mp h
      cases h
      exact ⟨params, name, rfl, hname, .inr ⟨rfl, rfl⟩⟩
    | _ =>
      rw [htype] at h
      cases h

/-- The outcome of a text: the registry has been served, or the names are what they were. -/
def MessageServed (env : Environment World) (request : Option Registry.Request)
    (s : ServerState World) (reply : Option String) (s' : ServerState World) : Prop :=
  match request with
  | some request => Registry.Serves env request s (messageAnswer reply) s'
  | none => s'.world.db.tracked = s.world.db.tracked

/-- A reply that is no error is the answer `done`, -/
theorem messageAnswer_answers {reply : String} (h : Answers reply) :
    messageAnswer (some reply) = some .done := by
  obtain ⟨message, htype, rfl⟩ := h
  unfold messageAnswer
  rw [Option.map_some, isErrorReply_toJson, decide_eq_false htype]
  rfl

/-- and an error is a refusal. -/
theorem messageAnswer_error (e : String) :
    messageAnswer (some (WebSocketMessage.error e).toJson) = some .refused := by
  unfold messageAnswer
  rw [Option.map_some, isErrorReply_toJson]
  rfl

/-- The names are in `apps` alone, -/
theorem appNames_of_apps {db db' : Store} (h : db'.apps = db.apps) :
    db'.appNames = db.appNames := by
  unfold Store.appNames
  rw [h]

/-- so what leaves that table alone leaves the names alone. -/
theorem tracked_of_apps {db db' : Store} (h : db'.apps = db.apps) : db'.tracked = db.tracked := by
  unfold Store.tracked
  rw [appNames_of_apps h]

/-- A command that is no add and no delete asks nothing of the registry. -/
theorem messageServed_of_tracked {type : CommandType} {payload : String} {reply : Option String}
    (htype : type.writesMap = false) (hsame : s'.world.db.tracked = s.world.db.tracked) :
    MessageServed env (commandRequest env ⟨type, payload⟩) s reply s' := by
  cases hrequest : commandRequest env ⟨type, payload⟩ with
  | none => exact hsame
  | some request =>
    obtain ⟨_, _, -, -, ⟨rfl, -⟩ | ⟨rfl, -⟩⟩ := commandRequest_cases hrequest
    · cases htype
    · cases htype

/-- What a command that succeeds does for the registry. -/
theorem outcome_serves {clientId : Option Nat} {command : WebSocketCommand} {reply : String}
    (hreply : Answers reply) (h : Outcome env clientId command s s') :
    MessageServed env (commandRequest env command) s (some reply) s' := by
  have hanswer := messageAnswer_answers hreply
  obtain ⟨type, payload⟩ := command
  cases h with
  | asked hasks hs' =>
    apply messageServed_of_tracked _ (tracked_of_equiv hs')
    cases type with
    | addProcess => cases hasks
    | deleteProcess => cases hasks
    | _ => rfl
  | changed hparams heffect hs' =>
    have hsame := tracked_of_equiv hs'
    cases heffect with
    | addProcess hname hpath hdb hs₁ =>
      rw [commandRequest_add rfl hparams hname hpath]
      subst hs₁
      exact serves_add ⟨_, .added hdb rfl, hs'⟩ hdb (db_of_equiv hs') (.inl hanswer)
    | deleteProcess hname hserves hs₁ =>
      rw [commandRequest_delete rfl hparams hname]
      subst hs₁
      exact serves_delete ⟨_, .deleted rfl, hs'⟩ hserves (db_of_equiv hs') (.inl hanswer)
    | createCheckpoint _ _ hdb =>
      exact messageServed_of_tracked rfl (hsame.trans (tracked_of_apps hdb.tables.1))
    | setActiveCheckpoint _ hdb =>
      exact messageServed_of_tracked rfl (hsame.trans (tracked_of_apps hdb.tables.1))
    | deleteCheckpoint _ hdb =>
      exact messageServed_of_tracked rfl (hsame.trans (tracked_of_apps hdb.tables.1))
    | updateConfig => exact messageServed_of_tracked rfl hsame
    | subscribe => exact messageServed_of_tracked rfl hsame
    | unsubscribe => exact messageServed_of_tracked rfl hsame

section
variable {checkpointId : Int} {db db' : Store}

/-- Half an activation is a matter of the checkpoints. -/
theorem SetCheckpointActive.HalfDone.apps (h : HalfDone checkpointId db db') :
    db'.apps = db.apps := by
  obtain ⟨_, _, _, _, -, -, -, hdeactivated⟩ := h
  rw [hdeactivated.rows.rest]

/-- And not of the timeline. -/
theorem SetCheckpointActive.HalfDone.timeline (h : HalfDone checkpointId db db') :
    db'.timeline = db.timeline := by
  obtain ⟨_, _, _, _, -, -, -, hdeactivated⟩ := h
  rw [hdeactivated.rows.rest]

end

/-- What a command that fails does for the registry: an add or a delete that has been refused is
refused by the registry, and one that has died has been done. -/
theorem failure_serves {command : WebSocketCommand} {stop : Stop}
    (h : CommandFailure env command s stop s') :
    MessageServed env (commandRequest env command) s (replyOf (.error stop)) s' := by
  obtain ⟨type, payload⟩ := command
  cases h with
  | refused hreason hs' =>
    cases hrequest : commandRequest env ⟨type, payload⟩ with
    | none => exact tracked_of_equiv hs'
    | some request =>
      obtain ⟨params, name, hparams, hname, hkind⟩ := commandRequest_cases hrequest
      have hreason := hreason params name hparams hname
      show Registry.Serves env request s (messageAnswer _) s'
      rw [replyOf, messageAnswer_error]
      rcases hkind with ⟨rfl, rfl, path, hpath⟩ | ⟨rfl, rfl⟩
      · exact serves_refused hs' (serve_add_refused (hreason path hpath))
      · exact serves_refused hs' (serve_unavailable hreason)
  | stopped _ hhalf =>
    cases hhalf with
    | setActiveCheckpoint _ _ hdb hs' =>
      exact messageServed_of_tracked rfl ((tracked_of_equiv hs').trans (tracked_of_apps hdb.apps))
  | died hmap hparams htorn =>
    cases htorn with
    | addProcess hname hpath hdb hs' =>
      rw [commandRequest_add rfl hparams hname hpath]
      exact serves_add ⟨_, .addTorn hmap hdb, hs'⟩ hdb (db_of_equiv hs') (.inr ⟨rfl, hmap⟩)
    | deleteProcess hname hserves hs' =>
      rw [commandRequest_delete rfl hparams hname]
      exact serves_delete ⟨_, .deleteTorn _ hmap, hs'⟩ hserves (db_of_equiv hs')
        (.inr ⟨rfl, hmap⟩)

/-- **A text of a WebSocket client** serves the registry if it is an add or a delete, and leaves the
names alone if it is anything else. -/
theorem message_serves {clientId : Nat} {text : String} {reply : Option String}
    (h : Handled env clientId text s reply s') :
    MessageServed env (messageRequest env text) s reply s' := by
  unfold messageRequest
  cases h with
  | done hcommand hreply houtcome =>
    simp only [hcommand]
    exact outcome_serves hreply houtcome
  | failed hcommand hfailure =>
    simp only [hcommand]
    exact failure_serves hfailure
  | unread hcommand =>
    simp only [hcommand]
    rfl

end

end TimeTracker
