import TimeTracker.DurationSums
import TimeTracker.Lib.Json.Decode
import TimeTracker.Lib.Json.Fuel
import TimeTracker.SeaormRestable
import TimeTracker.Statistics
import TimeTracker.System

/-!
# Ids that come from a client

Six commands take the id of a checkpoint or of an app. `extract_i32_param` reads it as an `i64` and
casts it with `as i32`, which wraps around.

* `Environment.recorded`: the backend, with the ids it is called with in a log.
* **`actsOn_handleCommand`**: a handler calls the backend with the wrapped id, or fails before it
  calls it.
* **`keepsId_iff`**: it acts on the id that the client has sent exactly if this is an `i32`.
-/

namespace TimeTracker

open Json (Value)
open Transaction (run_bind_ok run_bind_error run_tryCatch_ok run_tryCatch_error)

/-! ## The calls of the backend -/

section
variable {σ α : Type}

/-- A call of the backend with these ids. -/
def recordedCall (ids : List Int) (operation : StoreM σ α) : StoreM (σ × List Int) α :=
  ExceptT.mk do
    let (world, log) ← get
    let (result, world) := operation.run.run world
    set (world, log ++ ids)
    return result

/-- The environment of which the backend logs the ids it is called with. -/
def Environment.recorded (env : Environment σ) : Environment (σ × List Int) where
  client :=
    { getProcesses := recordedCall [] env.client.getProcesses
      putData item productName := recordedCall [] (env.client.putData item productName)
      deleteData item := recordedCall [] (env.client.deleteData item)
      getAllApps := recordedCall [] env.client.getAllApps
      getTimelineData appName days := recordedCall [] (env.client.getTimelineData appName days)
      getSessionCountForApp appId :=
        recordedCall [appId] (env.client.getSessionCountForApp appId)
      getAllAppIds := recordedCall [] env.client.getAllAppIds
      getAllCheckpoints := recordedCall [] env.client.getAllCheckpoints
      getCheckpointsForApp appId := recordedCall [appId] (env.client.getCheckpointsForApp appId)
      createCheckpoint name description appId :=
        recordedCall [appId] (env.client.createCheckpoint name description appId)
      setCheckpointActive checkpointId isActive :=
        recordedCall [checkpointId] (env.client.setCheckpointActive checkpointId isActive)
      deleteCheckpoint checkpointId :=
        recordedCall [checkpointId] (env.client.deleteCheckpoint checkpointId)
      getActiveCheckpoints := recordedCall [] env.client.getActiveCheckpoints
      getActiveCheckpointsForApp appId :=
        recordedCall [appId] (env.client.getActiveCheckpointsForApp appId)
      getCheckpointDurationsByIds checkpointIds :=
        recordedCall checkpointIds (env.client.getCheckpointDurationsByIds checkpointIds)
      getTimelineWithCheckpoints := recordedCall [] env.client.getTimelineWithCheckpoints }
  chrono := env.chrono
  commandFromStr := env.commandFromStr
  paramsFromStr := env.paramsFromStr
  appsFromValue := env.appsFromValue
  quotient := env.quotient
  verQueryValue := env.verQueryValue
  today := do
    let (world, log) ← get
    let (date, world) := env.today.run world
    set (world, log)
    return date

end

/-- The parameter with the id, for the commands that have one. -/
def CommandType.idParam : CommandType → Option String
  | .setActiveCheckpoint | .deleteCheckpoint | .getCheckpointStats => some "checkpoint_id"
  | .createCheckpoint | .getCheckpoints | .getActiveCheckpoints => some "app_id"
  | _ => none

/-! ## What a handler has done -/

section
variable {σ α β : Type} {id : Int}

/-- The backend has been called, and with no other id. -/
def Called (id : Int) (state : ServerState (σ × List Int)) : Prop :=
  state.world.2 ≠ [] ∧ ∀ i ∈ state.world.2, i = id

/-- An action that calls the backend with no other id, if at all. -/
def KeepsCalled (id : Int) (action : HandlerM (σ × List Int) α) : Prop :=
  ∀ state, Called id state → Called id (action.run.run state).2

/-- An action that calls the backend with the id and with no other, or returns an error and leaves
the world as it is. -/
def ActsOn (id : Int) (action : HandlerM (σ × List Int) α) : Prop :=
  ∀ state : ServerState (σ × List Int), state.world.2 = [] →
    Called id (action.run.run state).2 ∨
      (∃ stop, (action.run.run state).1 = .error stop) ∧
        (action.run.run state).2.world.1 = state.world.1

/-- An action that changes nothing. -/
def OnlyReads (action : HandlerM (σ × List Int) α) : Prop :=
  ∀ state, (action.run.run state).2 = state

theorem KeepsCalled.pure (a : α) :
    KeepsCalled id (Pure.pure a : HandlerM (σ × List Int) α) := fun _ h => h

theorem KeepsCalled.bind {action : HandlerM (σ × List Int) α}
    {next : α → HandlerM (σ × List Int) β} (haction : KeepsCalled id action)
    (hnext : ∀ a, KeepsCalled id (next a)) : KeepsCalled id (action >>= next) := by
  intro state hcalled
  have hafter := haction state hcalled
  cases hrun : action.run.run state with
  | mk result state' =>
    rw [hrun] at hafter
    cases result with
    | ok a =>
      rw [run_bind_ok hrun]
      exact hnext a state' hafter
    | error stop =>
      rw [run_bind_error hrun]
      exact hafter

/-- An action that only reads, and then one that acts on the id. -/
theorem ActsOn.bind {action : HandlerM (σ × List Int) α} {next : α → HandlerM (σ × List Int) β}
    (haction : OnlyReads action)
    (hnext : ∀ a state, action.run.run state = (.ok a, state) → ActsOn id (next a)) :
    ActsOn id (action >>= next) := by
  intro state hempty
  have hafter := haction state
  cases hrun : action.run.run state with
  | mk result state' =>
    rw [hrun] at hafter
    obtain rfl : state = state' := hafter.symm
    cases result with
    | ok a =>
      rw [run_bind_ok hrun]
      exact hnext a state hrun state hempty
    | error stop =>
      rw [run_bind_error hrun]
      exact .inr ⟨⟨stop, rfl⟩, rfl⟩

/-- An action that acts on the id, and then one that calls the backend with no other id. -/
theorem ActsOn.then {action : HandlerM (σ × List Int) α} {next : α → HandlerM (σ × List Int) β}
    (haction : ActsOn id action) (hnext : ∀ a, KeepsCalled id (next a)) :
    ActsOn id (action >>= next) := by
  intro state hempty
  have hafter := haction state hempty
  cases hrun : action.run.run state with
  | mk result state' =>
    rw [hrun] at hafter
    cases result with
    | ok a =>
      have hcalled : Called id state' := by
        rcases hafter with hcalled | ⟨⟨stop, herr⟩, -⟩
        · exact hcalled
        · cases herr
      rw [run_bind_ok hrun]
      exact .inl (hnext a state' hcalled)
    | error stop =>
      rw [run_bind_error hrun]
      exact hafter.imp_right fun h => ⟨⟨stop, rfl⟩, h.2⟩

/-- An action that catches the errors of another. -/
theorem KeepsCalled.tryCatch {action : HandlerM (σ × List Int) α}
    {handler : Stop → HandlerM (σ × List Int) α} (haction : KeepsCalled id action)
    (hhandler : ∀ stop, KeepsCalled id (handler stop)) :
    KeepsCalled id (MonadExcept.tryCatch action handler) := by
  intro state hcalled
  have hafter := haction state hcalled
  cases hrun : action.run.run state with
  | mk result state' =>
    rw [hrun] at hafter
    cases result with
    | ok a =>
      rw [run_tryCatch_ok hrun]
      exact hafter
    | error stop =>
      rw [run_tryCatch_error hrun]
      exact hhandler stop state' hafter

theorem KeepsCalled.bail (text : String) :
    KeepsCalled id (TimeTracker.bail text : HandlerM (σ × List Int) α) := fun _ h => h

end

/-! ## The parts of the handlers -/

section
variable {σ α : Type} {id : Int} {env : Environment σ} {payload : String} {params : Params}

theorem onlyReads_acquireClientLock :
    OnlyReads (acquireClientLock : HandlerM (σ × List Int) Unit) := by
  intro state
  unfold acquireClientLock
  rw [run_bind_ok get_run]
  split <;> rfl

theorem onlyReads_acquire (lock : ServerState (σ × List Int) → Lock) (context : String) :
    OnlyReads (acquire lock context) := by
  intro state
  unfold acquire
  rw [run_bind_ok get_run]
  split <;> rfl

theorem parsePayload_run (hpayload : payload.isEmpty = false)
    (hparams : env.paramsFromStr payload = .ok params) (state : ServerState (σ × List Int)) :
    (parsePayload env.recorded payload).run.run state = (.ok params, state) := by
  have hrecorded : env.recorded.paramsFromStr payload = .ok params := hparams
  unfold parsePayload
  rw [if_neg (by rw [hpayload]; decide), hrecorded]
  rfl

theorem onlyReads_required (key : String) (o : Option α) :
    OnlyReads (required key o : HandlerM (σ × List Int) α) := by
  intro state
  cases o <;> rfl

/-- A call of the backend with the id, under the lock of the client. -/
theorem actsOn_callDbMethod (operation : StoreM σ α) (contextMsg : String) :
    ActsOn id (callDbMethod (recordedCall [id] operation) contextMsg) := by
  unfold callDbMethod
  refine .bind (onlyReads_acquire _ _) fun _ _ _ state hempty => .inl ?_
  rw [run_bind_ok (onWorld_run _ state)]
  have hlog : ((recordedCall [id] operation).run.run state.world).2.2 = [id] := by
    show state.world.2 ++ [id] = [id]
    rw [hempty, List.nil_append]
  have hcalled : Called id { state with
      world := ((recordedCall [id] operation).run.run state.world).2 } := by
    unfold Called
    simp only [hlog]
    exact ⟨List.cons_ne_nil _ _, fun i hi => List.mem_singleton.mp hi⟩
  split
  · exact hcalled
  · exact hcalled

/-- One more call with the id. -/
theorem keepsCalled_callDbMethod (operation : StoreM σ α) (contextMsg : String) :
    KeepsCalled id (callDbMethod (recordedCall [id] operation) contextMsg) := by
  unfold callDbMethod
  refine .bind (fun state hcalled => ?_) fun _ state hcalled => ?_
  · rw [onlyReads_acquire]
    exact hcalled
  rw [run_bind_ok (onWorld_run _ state)]
  have hafter : Called id { state with
      world := ((recordedCall [id] operation).run.run state.world).2 } := by
    show state.world.2 ++ [id] ≠ [] ∧ ∀ i ∈ state.world.2 ++ [id], i = id
    refine ⟨List.append_ne_nil_of_left_ne_nil hcalled.1 _, fun i hi => ?_⟩
    rcases List.mem_append.mp hi with hi | hi
    · exact hcalled.2 i hi
    · exact List.mem_singleton.mp hi
  split
  · exact hafter
  · exact hafter

/-- The id that a handler extracts from an `i64` is the wrapped one. -/
theorem i32Param_eq {key : String} {v : Int} (hlookup : Json.lookup params key = some (.int v))
    (hv : -9223372036854775808 ≤ v ∧ v < 9223372036854775808) :
    i32Param params key = some (asI32 v) := by
  unfold i32Param
  rw [hlookup, Option.bind_some, Json.asI64_int hv.1 hv.2]
  rfl

/-- The start of each of the handlers. -/
theorem ActsOn.ofParams {next : Params → HandlerM (σ × List Int) α}
    (hpayload : payload.isEmpty = false) (hparams : env.paramsFromStr payload = .ok params)
    (hnext : ActsOn id (next params)) :
    ActsOn id (acquireClientLock >>= fun _ => parsePayload env.recorded payload >>= next) := by
  have hparse : OnlyReads (parsePayload env.recorded payload) := fun state => by
    rw [parsePayload_run hpayload hparams state]
  refine .bind onlyReads_acquireClientLock fun _ _ _ => .bind hparse fun params' state hrun => ?_
  rw [parsePayload_run hpayload hparams state] at hrun
  cases hrun
  exact hnext

theorem ofParams_run {next : Params → HandlerM (σ × List Int) α}
    {state : ServerState (σ × List Int)} (hstate : state.stateLock = .healthy)
    (hpayload : payload.isEmpty = false) (hparams : env.paramsFromStr payload = .ok params) :
    (acquireClientLock >>= fun _ => parsePayload env.recorded payload >>= next).run.run state =
      (next params).run.run state := by
  rw [run_bind_ok (acquireClientLock_run hstate),
    run_bind_ok (parsePayload_run hpayload hparams state)]

section
variable {key : String} {v : Int} {next : Int → HandlerM (σ × List Int) α}

theorem extractI32Param_run (hlookup : Json.lookup params key = some (.int v))
    (hv : -9223372036854775808 ≤ v ∧ v < 9223372036854775808)
    (state : ServerState (σ × List Int)) :
    (extractI32Param params key).run.run state = (.ok (asI32 v), state) := by
  unfold extractI32Param
  rw [i32Param_eq hlookup hv]
  rfl

/-- The start of a handler that extracts the id first. -/
theorem ofId_run {next : Params → Int → HandlerM (σ × List Int) α}
    {state : ServerState (σ × List Int)} (hstate : state.stateLock = .healthy)
    (hpayload : payload.isEmpty = false) (hparams : env.paramsFromStr payload = .ok params)
    (hlookup : Json.lookup params key = some (.int v))
    (hv : -9223372036854775808 ≤ v ∧ v < 9223372036854775808) :
    (acquireClientLock >>= fun _ => parsePayload env.recorded payload >>= fun params =>
      extractI32Param params key >>= next params).run.run state =
        (next params (asI32 v)).run.run state := by
  rw [ofParams_run hstate hpayload hparams]
  exact run_bind_ok (extractI32Param_run hlookup hv state)

/-- The handler goes on with the wrapped id. -/
theorem ActsOn.ofId (hlookup : Json.lookup params key = some (.int v))
    (hv : -9223372036854775808 ≤ v ∧ v < 9223372036854775808)
    (hnext : ActsOn id (next (asI32 v))) : ActsOn id (extractI32Param params key >>= next) := by
  refine .bind (fun state => by rw [extractI32Param_run hlookup hv]) fun appId state hrun => ?_
  rw [extractI32Param_run hlookup hv] at hrun
  cases hrun
  exact hnext

end

end

/-- The payload of a command in which `key` is this integer. -/
def SendsId {σ : Type} (env : Environment σ) (payload key : String) (v : Int) : Prop :=
  payload.isEmpty = false ∧
    ∃ params, env.paramsFromStr payload = .ok params ∧ Json.lookup params key = some (.int v)

/-- **A handler acts on the wrapped id**, in whatever payload it comes. -/
theorem actsOn_handleCommand {σ : Type} {env : Environment σ} {command : CommandType}
    {payload key : String} {v : Int} (clientId : Option Nat)
    (hkey : command.idParam = some key) (hsends : SendsId env payload key v)
    (hv : -9223372036854775808 ≤ v ∧ v < 9223372036854775808) :
    ActsOn (asI32 v) (handleCommand env.recorded clientId ⟨command, payload⟩) := by
  obtain ⟨hpayload, params, hparams, hlookup⟩ := hsends
  cases command with
  | setActiveCheckpoint =>
    cases hkey
    exact .ofParams hpayload hparams <| .ofId hlookup hv <|
      (actsOn_callDbMethod _ _).then fun _ => .pure _
  | deleteCheckpoint =>
    cases hkey
    exact .ofParams hpayload hparams <| .ofId hlookup hv <|
      (actsOn_callDbMethod _ _).then fun _ => .pure _
  | getCheckpointStats =>
    cases hkey
    exact .ofParams hpayload hparams <| .ofId hlookup hv <|
      (actsOn_callDbMethod _ _).then fun _ => .pure _
  | createCheckpoint =>
    cases hkey
    refine .ofParams hpayload hparams <| .bind (onlyReads_required _ _) fun name _ _ =>
      .ofId hlookup hv <| (actsOn_callDbMethod _ _).then fun _ => ?_
    -- the list of the checkpoints is that of the same app
    exact .tryCatch ((keepsCalled_callDbMethod _ _).bind fun _ => .pure _) fun _ => .pure _
  | getCheckpoints =>
    cases hkey
    refine .ofParams hpayload hparams ?_
    simp only [i32Param_eq hlookup hv]
    exact (actsOn_callDbMethod _ _).then fun _ => .pure _
  | getActiveCheckpoints =>
    cases hkey
    refine .ofParams hpayload hparams ?_
    simp only [i32Param_eq hlookup hv]
    exact (actsOn_callDbMethod _ _).then fun _ => .pure _
  | _ => cases hkey

/-! ## The id that has been sent -/

/-- For every payload with this integer, the handler acts on the id that is equal to it, or returns
an error and leaves the world as it is. -/
def KeepsId (command : CommandType) (v : Int) : Prop :=
  ∀ (σ : Type) (env : Environment σ) (clientId : Option Nat) (payload key : String),
    command.idParam = some key → SendsId env payload key v →
    ActsOn v (handleCommand env.recorded clientId ⟨command, payload⟩)

theorem asI32_eq_iff {v : Int} : asI32 v = v ↔ -2147483648 ≤ v ∧ v ≤ 2147483647 := by
  unfold asI32
  constructor
  · intro h
    have hbound := Int.bmod_lt (x := v) (m := 4294967296) (by decide)
    have hbound' := Int.le_bmod (x := v) (m := 4294967296) (by decide)
    omega
  · intro h
    exact Int.bmod_eq_of_le (by omega) (by omega)

/-! ## A backend that accepts every call -/

/-- It deletes checkpoints, and leaves everything else as it is. -/
def acceptingClient : Restable World where
  getProcesses := return []
  putData _ _ := return .null
  deleteData _ := return .null
  getAllApps := return .arr []
  getTimelineData _ _ := return .arr []
  getSessionCountForApp _ := return 0
  getAllAppIds := return []
  getAllCheckpoints := return .arr []
  getCheckpointsForApp _ := return .arr []
  createCheckpoint _ _ _ := return .null
  setCheckpointActive _ _ := return .null
  deleteCheckpoint := SeaORMClient.deleteCheckpoint
  getActiveCheckpoints := return .arr []
  getActiveCheckpointsForApp _ := return .arr []
  getCheckpointDurationsByIds _ := return .arr []
  getTimelineWithCheckpoints := return .arr []

/-- Payloads are JSON objects. -/
def acceptingEnvironment : Environment World :=
  { epochEnvironment with
    client := acceptingClient
    paramsFromStr := fun text =>
      match Json.parse text with
      | some (.obj members) => .ok members
      | _ => .error "expected value at line 1 column 1" }

/-- The parameters of all six commands. -/
def idParams (v : Int) : Params :=
  [("app_id", .int v), ("checkpoint_id", .int v), ("name", .str "first")]

def idPayload (v : Int) : String := Json.toText (.obj (idParams v))

/-- A server with these tables, before the first call. -/
def acceptingState (db : Store) : ServerState (World × List Int) :=
  .serving ({ db, now := .unixEpoch }, [])

section
variable {command : CommandType} {key : String} {v : Int}

theorem paramsFromStr_idPayload :
    acceptingEnvironment.paramsFromStr (idPayload v) = .ok (idParams v) := by
  show (match Json.parse (Json.toText _) with | some (.obj members) => _ | _ => _) = _
  rw [Json.parse_toText]

theorem lookup_idParams (hkey : command.idParam = some key) :
    Json.lookup (idParams v) key = some (.int v) := by
  cases command <;> cases hkey <;> rfl

theorem sendsId_idPayload (hkey : command.idParam = some key) :
    SendsId acceptingEnvironment (idPayload v) key v :=
  ⟨Json.toText_obj_isEmpty _, _, paramsFromStr_idPayload, lookup_idParams hkey⟩

/-- The backend accepts the call, and so the handler succeeds. -/
theorem handleCommand_accepted (hkey : command.idParam = some key)
    (hv : -9223372036854775808 ≤ v ∧ v < 9223372036854775808) (db : Store) :
    ∃ text, ((handleCommand acceptingEnvironment.recorded none ⟨command, idPayload v⟩).run.run
      (acceptingState db)).1 = .ok text := by
  have hempty : (idPayload v).isEmpty = false := Json.toText_obj_isEmpty _
  have hlookup := lookup_idParams (v := v) hkey
  cases command with
  | setActiveCheckpoint =>
    cases hkey
    show ∃ text, ((acquireClientLock >>= fun _ => parsePayload _ _ >>= _).run.run _).1 = _
    rw [ofId_run rfl hempty paramsFromStr_idPayload hlookup hv]
    exact ⟨_, rfl⟩
  | deleteCheckpoint =>
    cases hkey
    show ∃ text, ((acquireClientLock >>= fun _ => parsePayload _ _ >>= _).run.run _).1 = _
    rw [ofId_run rfl hempty paramsFromStr_idPayload hlookup hv]
    exact ⟨_, rfl⟩
  | getCheckpointStats =>
    cases hkey
    show ∃ text, ((acquireClientLock >>= fun _ => parsePayload _ _ >>= _).run.run _).1 = _
    rw [ofId_run rfl hempty paramsFromStr_idPayload hlookup hv]
    exact ⟨_, rfl⟩
  | createCheckpoint =>
    cases hkey
    have hname : (extractStringParam (idParams v) "name").run.run (acceptingState db) =
        (.ok "first", acceptingState db) := rfl
    show ∃ text, ((acquireClientLock >>= fun _ => parsePayload _ _ >>= _).run.run _).1 = _
    rw [ofParams_run rfl hempty paramsFromStr_idPayload, run_bind_ok hname,
      run_bind_ok (extractI32Param_run hlookup hv _)]
    exact ⟨_, rfl⟩
  | getCheckpoints =>
    cases hkey
    show ∃ text, ((acquireClientLock >>= fun _ => parsePayload _ _ >>= _).run.run _).1 = _
    rw [ofParams_run rfl hempty paramsFromStr_idPayload]
    simp only [i32Param_eq hlookup hv]
    exact ⟨_, rfl⟩
  | getActiveCheckpoints =>
    cases hkey
    show ∃ text, ((acquireClientLock >>= fun _ => parsePayload _ _ >>= _).run.run _).1 = _
    rw [ofParams_run rfl hempty paramsFromStr_idPayload]
    simp only [i32Param_eq hlookup hv]
    exact ⟨_, rfl⟩
  | _ => cases hkey

/-- **A handler acts on the id that has been sent** if and only if the id is an `i32`. -/
theorem keepsId_iff (hkey : command.idParam = some key)
    (hv : -9223372036854775808 ≤ v ∧ v < 9223372036854775808) :
    KeepsId command v ↔ IsI32 v := by
  constructor
  · intro hkeeps
    have hsends := sendsId_idPayload (v := v) hkey
    have hsent := hkeeps World acceptingEnvironment none (idPayload v) key hkey hsends
      (acceptingState storeWithA) rfl
    have hwrapped := actsOn_handleCommand none hkey hsends hv (acceptingState storeWithA) rfl
    obtain ⟨text, hok⟩ := handleCommand_accepted hkey hv storeWithA
    rcases hsent with hsent | ⟨⟨stop, herr⟩, -⟩
    · rcases hwrapped with hwrapped | ⟨⟨stop, herr⟩, -⟩
      · -- the backend has been called with one id, which is both
        obtain ⟨i, hi⟩ := List.exists_mem_of_ne_nil _ hsent.1
        have hsame : asI32 v = v := (hwrapped.2 i hi).symm.trans (hsent.2 i hi)
        exact asI32_eq_iff.mp hsame
      · rw [hok] at herr
        cases herr
    · rw [hok] at herr
      cases herr
  · intro hi32 σ env clientId payload key' hkey' hsends
    have hacts := actsOn_handleCommand clientId hkey' hsends hv
    rw [asI32_eq_iff.mpr hi32] at hacts
    exact hacts

end

/-- A delete of checkpoint 1. -/
theorem keepsId_deleteFirst : KeepsId .deleteCheckpoint 1 :=
  (keepsId_iff rfl (by decide)).mpr (by decide)

/-- The app `a` with one checkpoint. -/
def storeWithFirst : Store :=
  { storeWithA with
    checkpoints := ⟨[CreateCheckpoint.newCheckpoint "first" none 1 .unixEpoch 1], by decide⟩ }

/-- A delete of checkpoint 4294967297, as it has been sent. -/
def deleteWrapped : Except Stop String × ServerState (World × List Int) :=
  (handleCommand acceptingEnvironment.recorded none
    ⟨.deleteCheckpoint, idPayload 4294967297⟩).run.run (acceptingState storeWithFirst)

/-- It succeeds, and checkpoint 1 is gone. -/
theorem deleteWrapped_eq : ∃ text state', deleteWrapped = (.ok text, state') ∧
    state'.world.1.db = storeWithFirst.deleteCheckpoint 1 ∧ state'.world.2 = [1] := by
  have hempty : (idPayload 4294967297).isEmpty = false := Json.toText_obj_isEmpty _
  unfold deleteWrapped
  show ∃ text state', (acquireClientLock >>= fun _ => parsePayload _ _ >>= _).run.run _ = _ ∧ _
  rw [ofId_run (v := 4294967297) rfl hempty paramsFromStr_idPayload rfl (by decide)]
  exact ⟨_, _, rfl, rfl, rfl⟩

/-- **A delete of checkpoint 4294967297** deletes checkpoint 1. -/
theorem keepsId_wrapped :
    ¬ ∀ (command : CommandType) (key : String) (v : Int), command.idParam = some key →
      -9223372036854775808 ≤ v ∧ v < 9223372036854775808 → KeepsId command v := by
  intro hall
  obtain ⟨text, state', hrun, -, hlog⟩ := deleteWrapped_eq
  have hsends := sendsId_idPayload (v := 4294967297)
    (rfl : CommandType.deleteCheckpoint.idParam = some "checkpoint_id")
  have hsent := hall .deleteCheckpoint "checkpoint_id" 4294967297 rfl (by decide) World
    acceptingEnvironment none _ _ rfl hsends (acceptingState storeWithFirst) rfl
  have hafter : Called 4294967297 deleteWrapped.2 ∨ (∃ stop, deleteWrapped.1 = .error stop) ∧ _ :=
    hsent
  rw [hrun] at hafter
  rcases hafter with hcalled | ⟨⟨stop, herr⟩, -⟩
  · have hone : (1 : Int) = 4294967297 := hcalled.2 1 (hlog ▸ List.mem_singleton_self 1)
    exact absurd hone (by decide)
  · cases herr

end TimeTracker
