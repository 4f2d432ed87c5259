import Mathlib
import TimeTracker.MessageHandler
import TimeTracker.Payloads

/-!
# Responses

What the server sends back for a text. The proofs go through the handlers with Hoare triples:
each handler returns an `Answer` (a message that carries data, or a success) or fails, and what
it reports is plain, provided that everything it took into the report was plain.

* **`answer_of_command`**: this holds for the handler of every command.
* **`response_of_handleClientMessage`**: a text that is sent back is such an answer, or the error
  of a handler that failed. In a response to a `PlainRequest` every report is plain.
-/

namespace TimeTracker

open Json (Value)
open Std.Do

set_option mvcgen.warning false

variable {σ α : Type}

/-! ## Plain requests -/

/-- The errors of a call of the backend are plain texts. -/
def PlainErrors (operation : StoreM σ α) : Prop :=
  ∀ world e world', operation.run.run world = (.error e, world') → Json.plain e = true

/-- The errors of the backend are plain texts. -/
structure PlainClient (client : Restable σ) : Prop where
  getProcesses : PlainErrors client.getProcesses
  putData (item productName : String) : PlainErrors (client.putData item productName)
  deleteData (item : String) : PlainErrors (client.deleteData item)
  getAllApps : PlainErrors client.getAllApps
  getSessionCountForApp (appId : Int) : PlainErrors (client.getSessionCountForApp appId)
  getAllAppIds : PlainErrors client.getAllAppIds
  getAllCheckpoints : PlainErrors client.getAllCheckpoints
  getCheckpointsForApp (appId : Int) : PlainErrors (client.getCheckpointsForApp appId)
  createCheckpoint (name : String) (description : Option String) (appId : Int) :
    PlainErrors (client.createCheckpoint name description appId)
  setCheckpointActive (checkpointId : Int) (isActive : Bool) :
    PlainErrors (client.setCheckpointActive checkpointId isActive)
  deleteCheckpoint (checkpointId : Int) : PlainErrors (client.deleteCheckpoint checkpointId)
  getActiveCheckpoints : PlainErrors client.getActiveCheckpoints
  getActiveCheckpointsForApp (appId : Int) : PlainErrors (client.getActiveCheckpointsForApp appId)
  getCheckpointDurationsByIds (checkpointIds : List Int) :
    PlainErrors (client.getCheckpointDurationsByIds checkpointIds)
  getTimelineWithCheckpoints : PlainErrors client.getTimelineWithCheckpoints

/-- The parameters that a handler puts into a message are plain texts. -/
structure PlainStrings (params : Params) : Prop where
  name : ∀ s, stringParam params "name" = some s → Json.plain s = true
  processName : ∀ s, stringParam params "process_name" = some s → Json.plain s = true
  topics : ∀ value topics, Json.lookup params "topics" = some value →
    stringsFromValue value = some topics → ∀ s ∈ topics, Json.plain s = true

/-- The parameters of a payload; an empty payload has none. -/
def ParsesTo (env : Environment σ) (payload : String) (params : Params) : Prop :=
  payload.isEmpty ∧ params = [] ∨ env.paramsFromStr payload = .ok params

/-- The parameters of a command, or the error of parsing them, are plain texts. -/
structure PlainPayload (env : Environment σ) (payload : String) : Prop where
  error : ∀ e, env.paramsFromStr payload = .error e → Json.plain e = true
  strings : ∀ params, ParsesTo env payload params → PlainStrings params

/-- The backend does not know `process` yet. -/
def NotAdded (env : Environment σ) (process : String) (state : ServerState σ) : Prop :=
  ∀ processes world, env.client.getProcesses.run.run state.world = (.ok processes, world) →
    process ∉ processes

/-- The process an `add_process` command names is not there yet. -/
def AddsNew (env : Environment σ) (payload : String) (state : ServerState σ) : Prop :=
  ∀ params process, ParsesTo env payload params →
    stringParam params "process_name" = some process → NotAdded env process state

/-- Nothing that can get into a message breaks it: the texts of the request and of the errors
are plain, and the process to add, whose error has quotation marks, is not there yet. -/
structure PlainRequest (env : Environment σ) (text : String) (state : ServerState σ) : Prop where
  client : PlainClient env.client
  command : ∀ e, env.commandFromStr text = .error e → Json.plain e = true
  payload : ∀ command, env.commandFromStr text = .ok command → PlainPayload env command.payload
  addsNew : ∀ command, env.commandFromStr text = .ok command → command.type = .addProcess →
    AddsNew env command.payload state

/-! ## Plain texts

A report is put together with `format!`, so it is plain if its pieces are. -/

/-- A report is often a fixed text with something from outside behind it. -/
theorem plain_after {before m : String} (hbefore : Json.plain before = true)
    (hm : Json.plain m = true) : Json.plain (before ++ m) = true := by
  rw [Json.plain_append, hbefore, hm]
  rfl

/-- The same with a fixed text on either side, as in `Parameter 'name' is required`. -/
theorem plain_between {before m after : String} (hbefore : Json.plain before = true)
    (hm : Json.plain m = true) (hafter : Json.plain after = true) :
    Json.plain (before ++ m ++ after) = true := by
  rw [Json.plain_append, plain_after hbefore hm, hafter]
  rfl

/-- The names of the topics, joined by commas. Induction on the list, which `intercalate` takes two
at a time. -/
theorem plain_intercalate {separator : String} (hseparator : Json.plain separator = true) :
    ∀ {ms : List String}, (∀ m ∈ ms, Json.plain m = true) →
      Json.plain (separator.intercalate ms) = true
  | [], _ => by
    rw [String.intercalate_nil]
    rfl
  | [m], h => by
    rw [String.intercalate_singleton]
    exact h m List.mem_cons_self
  | m :: m' :: ms, h => by
    have htail := plain_intercalate hseparator fun t ht => h t (List.mem_cons_of_mem m ht)
    rw [String.intercalate_cons_cons]
    exact plain_after (plain_after (h m List.mem_cons_self) hseparator) htail

/-- A number has digits and perhaps a sign, and none of them is escaped in JSON. -/
theorem plain_displayI32 (i : Int) : Json.plain (displayI32 i) = true := by
  have hdigits : ∀ n, (Nat.toDigits 10 n).all Json.isPlain = true := fun n =>
    List.all_eq_true.mpr fun c hc => Json.isPlain_of_isDigit (Decimal.isDigit_of_mem_toDigits hc)
  rw [Json.plain, displayI32, String.toList_ofList]
  cases i with
  | ofNat n => exact hdigits n
  | negSucc n =>
    rw [Json.intText, List.all_cons, hdigits]
    rfl

/-! ## Outcomes of a handler

All triples below have one form: from any state, a handler returns an `Answer` or ends with a
`Failure`. The proposition `P` stands for all that is asked of the request. It is a hypothesis of
what is reported, not of the triple, so that the shape of an answer is known of every request. -/

/-- `m` is plain, provided that `P`. -/
def PlainIf (P : Prop) (m : String) : Prop := P → Json.plain m = true

/-- The text of an answer that a handler returns: data, or a success. -/
inductive Answer (P : Prop) : String → Prop where
  | data (message : WebSocketMessage) (herror : message.type ≠ .error)
      (hsuccess : message.type ≠ .success) (hpayload : ∃ v, Json.parse message.payload = some v) :
      Answer P message.toJson
  | success (m : String) (h : PlainIf P m) : Answer P (WebSocketMessage.success m).toJson

/-- The answer that carries a serialised value. -/
theorem Answer.value {P : Prop} {type : MessageType} {key : String} (herror : type ≠ .error)
    (hsuccess : type ≠ .success) (hkey : Json.plain key = true) (v : Value) :
    Answer P (WebSocketMessage.toJson ⟨type, jsonPayload key (Json.toText v)⟩) :=
  .data _ herror hsuccess ⟨_, parse_jsonPayload hkey v⟩

/-- How a handler ends without an answer. -/
def Failure (P : Prop) (stop : Stop) : Prop := ∀ m, stop = .error m → PlainIf P m

/-- A handler has failed with `m`. -/
theorem Failure.error {P : Prop} {m : String} (h : PlainIf P m) : Failure P (.error m) := by
  intro m' heq
  cases heq
  exact h

/-- A panic reports nothing: the thread is gone, and no text is sent. -/
theorem Failure.panic {P : Prop} : Failure P .panic := by
  intro m heq
  cases heq

/-- A plain text in front of an error keeps it plain. -/
theorem Failure.withContext {P : Prop} {context e : String} (h : Failure P (.error e))
    (hcontext : P → Json.plain context = true) : Failure P (.error (context ++ e)) :=
  .error fun hP => plain_after (hcontext hP) (h e rfl hP)

/-- Return a value with `post`, or fail with an error that is plain, provided that `P`. -/
abbrev orFails (P : Prop) (post : α → Prop) :
    PostCond α (.except Stop (.arg (ServerState σ) .pure)) :=
  post⟨fun a _ => ⌜post a⌝, fun stop _ => ⌜Failure P stop⌝⟩

/-- The same for a function that only reads: the state stays what it was. -/
abbrev readsOrFails (P : Prop) (state₀ : ServerState σ) (post : α → Prop) :
    PostCond α (.except Stop (.arg (ServerState σ) .pure)) :=
  post⟨fun a state => ⌜state = state₀ ∧ post a⌝, fun stop _ => ⌜Failure P stop⌝⟩

variable (P : Prop)

/-! ## The pieces of a handler

Each piece has one triple, tagged for `mvcgen`, which then goes through a handler by itself and
leaves what is reported to be shown plain. -/

/-- A poisoned lock is reported, in the words of the standard library. -/
@[spec] theorem acquire_spec {context : String} (lock : ServerState σ → Lock)
    (hcontext : Json.plain context = true) :
    ⦃fun _ => ⌜True⌝⦄ acquire lock context ⦃orFails P fun _ => True⦄ := by
  mvcgen [acquire, bail]
  exact .error fun _ => plain_after hcontext (by decide)

/-- `lock().unwrap()` reports nothing, it panics. -/
@[spec] theorem acquireOrPanic_spec (lock : ServerState σ → Lock) :
    ⦃fun _ => ⌜True⌝⦄ acquireOrPanic lock ⦃orFails P fun _ => True⦄ := by
  mvcgen [acquireOrPanic]
  exact .panic

/-- The client itself reports nothing yet: its error is a value here. -/
@[spec] theorem onWorld_spec {operation : StoreM σ α} :
    ⦃fun _ => ⌜True⌝⦄ onWorld operation ⦃orFails P fun _ => True⦄ := by
  mvcgen [onWorld]

/-- `?` on a method of the client passes the error on as it is. -/
@[spec] theorem await_spec {operation : StoreM σ α} (h : P → PlainErrors operation) :
    ⦃fun _ => ⌜True⌝⦄ await operation ⦃orFails P fun _ => True⦄ := by
  mvcgen [await, bail, -onWorld_spec, onWorld]
  next hrun _ heq => exact .error fun hP => h hP _ _ _ (heq ▸ hrun)

/-- `call_db_method` puts its context in front of the error. -/
@[spec] theorem callDbMethod_spec {operation : StoreM σ α} {contextMsg : String}
    (h : P → PlainErrors operation) (hcontext : P → Json.plain contextMsg = true) :
    ⦃fun _ => ⌜True⌝⦄ callDbMethod operation contextMsg ⦃orFails P fun _ => True⦄ := by
  mvcgen [callDbMethod, bail, -onWorld_spec, onWorld]
  next hrun _ heq =>
    refine .error fun hP => ?_
    have he : Json.plain _ = true := h hP _ _ _ (heq ▸ hrun)
    rw [Json.plain_append, plain_after (hcontext hP) (by decide), he]
    rfl

/-- The text about a poisoned lock is fixed. -/
@[spec] theorem acquireClientLock_spec (state₀ : ServerState σ) :
    ⦃fun state => ⌜state = state₀⌝⦄ acquireClientLock ⦃readsOrFails P state₀ fun _ => True⦄ := by
  mvcgen [acquireClientLock, bail]
  exact .error fun _ => by decide

/-- The error of the parser goes into the report, behind two fixed texts. What has been parsed is
what the payload says. -/
@[spec] theorem parsePayload_spec {env : Environment σ} {payload : String}
    (hpayload : P → PlainPayload env payload) (state₀ : ServerState σ) :
    ⦃fun state => ⌜state = state₀⌝⦄
    parsePayload env payload
    ⦃readsOrFails P state₀ fun params => ParsesTo env payload params⦄ := by
  mvcgen [parsePayload, bail]
  next hempty _ hstate => exact ⟨hstate, .inl ⟨hempty, rfl⟩⟩
  next hparams _ hstate => exact ⟨hstate, .inr hparams⟩
  next herror _ _ =>
    refine .error fun hP => ?_
    change Json.plain ("Serialization failed: " ++ ("Failed to parse payload: " ++ _)) = true
    have he := (hpayload hP).error _ herror
    exact plain_after (by decide) (plain_after (by decide) he)

/-- A parameter is there, or its key is reported between quotation marks of the text. -/
@[spec] theorem required_spec {key : String} {a? : Option α} (hkey : Json.plain key = true)
    (state₀ : ServerState σ) :
    ⦃fun state => ⌜state = state₀⌝⦄
    required key a?
    ⦃readsOrFails P state₀ fun a => a? = some a⦄ := by
  mvcgen [required, bail]
  refine .error fun _ => ?_
  change Json.plain ("Parameter '" ++ key ++ "' is required") = true
  exact plain_between (by decide) hkey (by decide)

/-- A parameter of the type the handler asks for. -/
@[spec] theorem extractStringParam_spec {params : Params} {key : String}
    (hkey : Json.plain key = true) (state₀ : ServerState σ) :
    ⦃fun state => ⌜state = state₀⌝⦄
    extractStringParam params key
    ⦃readsOrFails P state₀ fun s => stringParam params key = some s⦄ :=
  required_spec P hkey state₀

/-- The same for an `i32`, which is cast and so never refused for its size. -/
@[spec] theorem extractI32Param_spec {params : Params} {key : String}
    (hkey : Json.plain key = true) (state₀ : ServerState σ) :
    ⦃fun state => ⌜state = state₀⌝⦄
    extractI32Param params key
    ⦃readsOrFails P state₀ fun i => i32Param params key = some i⦄ :=
  required_spec P hkey state₀

/-- `update_config` has its own words for a parameter that is missing. -/
@[spec] theorem extractU64Param_spec {params : Params} {key : String}
    (hkey : Json.plain key = true) :
    ⦃fun _ => ⌜True⌝⦄ extractU64Param params key ⦃orFails P (σ := σ) fun _ => True⦄ := by
  mvcgen [extractU64Param, bail]
  exact .error fun _ => plain_after hkey (by decide)

/-! ## The handlers that answer with data

Their answer is a serialised value behind a fixed key. The reports are a fixed text and the error of
a query, or the number of an app. -/

section
variable (env : Environment σ) (payload : String)

/-- `get_apps`: one query and one array. Three things are left to show, as in the handlers below:
the errors of the query, the text in front of them, and the answer. -/
theorem handleGetApps_spec (hclient : P → PlainClient env.client) :
    ⦃fun _ => ⌜True⌝⦄ handleGetApps env ⦃orFails P (Answer P)⦄ := by
  mvcgen [handleGetApps]
  -- what is left: the errors of the query, the text put in front of them, and the answer
  · exact fun hP => (hclient hP).getAllApps
  · exact fun _ => by decide
  · exact .value (by decide) (by decide) (by decide) _

/-- `get_timeline`: the same with the query of the timeline. -/
theorem handleGetTimeline_spec (hclient : P → PlainClient env.client) :
    ⦃fun _ => ⌜True⌝⦄ handleGetTimeline env ⦃orFails P (Answer P)⦄ := by
  mvcgen [handleGetTimeline]
  · exact fun hP => (hclient hP).getTimelineWithCheckpoints
  · exact fun _ => by decide
  · exact .value (by decide) (by decide) (by decide) _

/-- `get_app_by_name` is the one handler that asks and puts a parameter into its report: the name it
has not found. -/
theorem handleGetAppByName_spec (hclient : P → PlainClient env.client)
    (hpayload : P → PlainPayload env payload) :
    ⦃fun _ => ⌜True⌝⦄ handleGetAppByName env payload ⦃orFails P (Answer P)⦄ := by
  mvcgen [handleGetAppByName, bail]
  · exact fun hP => (hclient hP).getAllApps
  · exact fun _ => by decide
  next hparams appName _ hname _ _ _ _ _ =>
    refine .error fun hP => plain_between (by decide) ?_ (by decide)
    exact ((hpayload hP).strings _ hparams.2).name appName hname.2
  · exact .value (by decide) (by decide) (by decide) _

/-- `get_tracking_status` asks no database. -/
theorem handleGetTrackingStatus_spec :
    ⦃fun _ => ⌜True⌝⦄ (handleGetTrackingStatus : HandlerM σ String) ⦃orFails P (Answer P)⦄ := by
  mvcgen [handleGetTrackingStatus]
  exact .value (by decide) (by decide) (by decide) _

/-- `get_checkpoints`: for one app or for all, by a method of its own each. -/
theorem handleGetCheckpoints_spec (hclient : P → PlainClient env.client)
    (hpayload : P → PlainPayload env payload) :
    ⦃fun _ => ⌜True⌝⦄ handleGetCheckpoints env payload ⦃orFails P (Answer P)⦄ := by
  mvcgen [handleGetCheckpoints]
  next operation _ _ _ =>
    intro hP
    simp only [operation]
    split
    · exact (hclient hP).getCheckpointsForApp _
    · exact (hclient hP).getAllCheckpoints
  · exact fun _ => by decide
  · exact .value (by decide) (by decide) (by decide) _

/-- `get_active_checkpoints`: the same, but its two branches report in words of their own. -/
theorem handleGetActiveCheckpoints_spec (hclient : P → PlainClient env.client)
    (hpayload : P → PlainPayload env payload) :
    ⦃fun _ => ⌜True⌝⦄ handleGetActiveCheckpoints env payload ⦃orFails P (Answer P)⦄ := by
  mvcgen [handleGetActiveCheckpoints]
  · exact fun hP => (hclient hP).getActiveCheckpointsForApp _
  · exact fun _ => plain_after (by decide) (plain_displayI32 _)
  · exact .value (by decide) (by decide) (by decide) _
  · exact fun hP => (hclient hP).getActiveCheckpoints
  · exact fun _ => by decide
  · exact .value (by decide) (by decide) (by decide) _

/-- `get_session_counts`: one query for the ids and one for each of them. -/
theorem handleGetSessionCounts_spec (hclient : P → PlainClient env.client) :
    ⦃fun _ => ⌜True⌝⦄ handleGetSessionCounts env ⦃orFails P (Answer P)⦄ := by
  mvcgen [handleGetSessionCounts]
  -- the loop keeps nothing in mind: each app may fail by itself
  case inv1 => exact orFails P fun _ => True
  · exact fun hP => (hclient hP).getAllAppIds
  · exact fun _ => by decide
  · exact fun hP => (hclient hP).getSessionCountForApp _
  · exact fun _ => plain_after (by decide) (plain_displayI32 _)
  · exact True.intro
  · exact fun _ h => h
  · exact True.intro
  · exact .value (by decide) (by decide) (by decide) _
  · exact ExceptConds.entails.refl _

/-- `get_statistics`: an app whose rows cannot be read is left out, so the loop reports nothing. -/
theorem handleGetStatistics_spec (hclient : P → PlainClient env.client) :
    ⦃fun _ => ⌜True⌝⦄ handleGetStatistics env ⦃orFails P (Answer P)⦄ := by
  mvcgen [handleGetStatistics, withContext, bail]
  case inv1 => exact orFails P fun _ => True
  · exact fun hP => (hclient hP).getAllApps
  · exact True.intro
  · exact True.intro
  · exact fun _ h => h
  · exact True.intro
  · exact .value (by decide) (by decide) (by decide) _
  · exact ExceptConds.entails.refl _
  next hfail => exact hfail.withContext fun _ => by decide

/-- `get_checkpoint_stats`: the payload is the array itself, without a key. -/
theorem handleGetCheckpointStats_spec (hclient : P → PlainClient env.client)
    (hpayload : P → PlainPayload env payload) :
    ⦃fun _ => ⌜True⌝⦄ handleGetCheckpointStats env payload ⦃orFails P (Answer P)⦄ := by
  mvcgen [handleGetCheckpointStats]
  · exact fun hP => (hclient hP).getCheckpointDurationsByIds _
  · exact fun _ => plain_after (by decide) (plain_displayI32 _)
  · -- this payload is the value itself
    refine .data _ ?_ ?_ ⟨_, Json.parse_toText _⟩
    · exact (by decide : MessageType.checkpointStats ≠ .error)
    · exact (by decide : MessageType.checkpointStats ≠ .success)

/-! ## The handlers that answer with a success

Their answer is a text as well, and most of them put a parameter of the command into it. -/

/-- The broadcast after a change keeps its errors to itself. -/
@[spec] theorem broadcastApps_spec :
    ⦃fun _ => ⌜True⌝⦄ broadcastApps env ⦃orFails P fun _ => True⦄ := by
  mvcgen [broadcastApps, enqueue]

/-- The duplicate check is where a name that is there would be quoted; the precondition says that it
is not. -/
theorem checkNotAdded_spec (process : String) (hclient : P → PlainClient env.client) :
    ⦃fun state => ⌜P → NotAdded env process state⌝⦄
    checkNotAdded env process
    ⦃orFails P fun _ => True⦄ := by
  mvcgen [checkNotAdded, -acquireOrPanic_spec, acquireOrPanic, -await_spec, await, -onWorld_spec,
    onWorld, bail]
  · exact .panic
  -- the name is new, so the duplicate check does not report it
  next hnew _ _ _ hrun _ heq hmem =>
    exact .error fun hP => absurd hmem (hnew hP _ _ (heq ▸ hrun))
  next hrun _ heq => exact .error fun hP => (hclient hP).getProcesses _ _ _ (heq ▸ hrun)

/-- `add_process` reports what the check, `put_data` or a lock reports. -/
theorem addProcess_spec (process path : String) (hclient : P → PlainClient env.client) :
    ⦃fun state => ⌜P → NotAdded env process state⌝⦄
    addProcess env process path
    ⦃orFails P fun _ => True⦄ := by
  mvcgen [addProcess, checkNotAdded_spec]
  exact fun hP => (hclient hP).putData _ _

/-- `delete_process` reports what `delete_data` reports. -/
theorem deleteProcess_spec (process : String) (hclient : P → PlainClient env.client) :
    ⦃fun _ => ⌜True⌝⦄ deleteProcess env process ⦃orFails P fun _ => True⦄ := by
  mvcgen [deleteProcess]
  exact fun hP => (hclient hP).deleteData process

/-- `add_process` as a command: the name of the process is quoted in the answer, and in front of an
error. -/
theorem handleAddProcess_spec (hclient : P → PlainClient env.client)
    (hpayload : P → PlainPayload env payload) :
    ⦃fun state => ⌜P → AddsNew env payload state⌝⦄
    handleAddProcess env payload
    ⦃orFails P (Answer P)⦄ := by
  mvcgen [handleAddProcess, addProcess_spec, withContext, bail]
  next hnew _ _ params _ hparams process _ hname _ _ hpath hstate =>
    intro hP
    have hnot := hnew hP params process hparams.2 hname.2
    rw [← hstate, ← hparams.1, ← hname.1, ← hpath.1] at hnot
    exact hnot
  -- the name of the process is quoted in the answer and in front of an error
  next hparams process _ hname _ _ _ _ _ _ =>
    refine .success _ fun hP => plain_after (by decide) ?_
    exact ((hpayload hP).strings _ hparams.2).processName process hname.2
  next hparams process _ hname _ _ _ _ _ _ _ hfail _ =>
    refine hfail.withContext fun hP => plain_between (by decide) ?_ (by decide)
    exact ((hpayload hP).strings _ hparams.2).processName process hname.2

/-- `delete_process` as a command quotes the name as well. -/
theorem handleDeleteProcess_spec (hclient : P → PlainClient env.client)
    (hpayload : P → PlainPayload env payload) :
    ⦃fun _ => ⌜True⌝⦄ handleDeleteProcess env payload ⦃orFails P (Answer P)⦄ := by
  mvcgen [handleDeleteProcess, withContext, deleteProcess_spec, bail]
  next hparams process _ hname _ _ _ =>
    refine .success _ fun hP => plain_after (by decide) ?_
    exact ((hpayload hP).strings _ hparams.2).processName process hname.2
  next hparams process _ hname _ _ _ _ hfail _ =>
    refine hfail.withContext fun hP => plain_between (by decide) ?_ (by decide)
    exact ((hpayload hP).strings _ hparams.2).processName process hname.2

/-- `create_checkpoint` quotes the name of the checkpoint. If the list of checkpoints cannot be read
afterwards it answers with a success instead. -/
theorem handleCreateCheckpoint_spec (hclient : P → PlainClient env.client)
    (hpayload : P → PlainPayload env payload) :
    ⦃fun _ => ⌜True⌝⦄ handleCreateCheckpoint env payload ⦃orFails P (Answer P)⦄ := by
  mvcgen [handleCreateCheckpoint]
  · exact fun hP => (hclient hP).createCheckpoint _ _ _
  next hparams name _ _ hname _ _ _ _ =>
    intro hP
    have hplain := ((hpayload hP).strings _ hparams.2).name name hname.2
    exact plain_between (by decide) hplain (by decide)
  · exact fun hP => (hclient hP).getCheckpointsForApp _
  · exact fun _ => by decide
  · exact .value (by decide) (by decide) (by decide) _
  next hparams name _ _ hname _ _ _ _ _ _ _ _ _ =>
    refine .success _ fun hP => plain_after (by decide) ?_
    exact ((hpayload hP).strings _ hparams.2).name name hname.2

/-- `set_active_checkpoint` quotes a number and one of two words. -/
theorem handleSetActiveCheckpoint_spec (hclient : P → PlainClient env.client)
    (hpayload : P → PlainPayload env payload) :
    ⦃fun _ => ⌜True⌝⦄ handleSetActiveCheckpoint env payload ⦃orFails P (Answer P)⦄ := by
  mvcgen [handleSetActiveCheckpoint]
  · exact fun hP => (hclient hP).setCheckpointActive _ _
  · exact fun _ => plain_after (by decide) (plain_displayI32 _)
  next status _ _ =>
    have hstatus : Json.plain status = true := by
      simp only [status]
      split <;> decide
    refine .success _ fun _ => plain_after ?_ (plain_displayI32 _)
    exact plain_between (by decide) hstatus (by decide)

/-- `delete_checkpoint` quotes a number. -/
theorem handleDeleteCheckpoint_spec (hclient : P → PlainClient env.client)
    (hpayload : P → PlainPayload env payload) :
    ⦃fun _ => ⌜True⌝⦄ handleDeleteCheckpoint env payload ⦃orFails P (Answer P)⦄ := by
  mvcgen [handleDeleteCheckpoint]
  · exact fun hP => (hclient hP).deleteCheckpoint _
  · exact fun _ => plain_after (by decide) (plain_displayI32 _)
  · exact .success _ fun _ => plain_after (by decide) (plain_displayI32 _)

/-- `update_config` parses its payload by itself and passes the error of the parser on. -/
theorem handleUpdateConfig_spec (hpayload : P → PlainPayload env payload) :
    ⦃fun _ => ⌜True⌝⦄ handleUpdateConfig env payload ⦃orFails P (Answer P)⦄ := by
  mvcgen [handleUpdateConfig, bail]
  · exact .success _ fun _ => by decide
  next herror _ => exact .error fun hP => (hpayload hP).error _ herror

/-- A topic that is none is quoted. Induction on the texts. -/
@[spec] theorem parseTopics_spec {topicStrings : List String}
    (h : P → ∀ s ∈ topicStrings, Json.plain s = true) :
    ⦃fun _ => ⌜True⌝⦄ parseTopics topicStrings ⦃orFails P (σ := σ) fun _ => True⦄ := by
  induction topicStrings with
  | nil => mvcgen [parseTopics]
  | cons s rest ih =>
    have ih := ih fun hP t ht => h hP t (List.mem_cons_of_mem s ht)
    mvcgen [parseTopics, ih, bail]
    exact .error fun hP => plain_after (by decide) (h hP s List.mem_cons_self)

/-- Without a client nobody can subscribe, and the text about it is fixed. -/
@[spec] theorem subscriber_spec (params : Params) (clientId : Option Nat) :
    ⦃fun _ => ⌜True⌝⦄ subscriber params clientId ⦃orFails P (σ := σ) fun _ => True⦄ := by
  mvcgen [subscriber, bail]
  · exact .error fun _ => by decide
  · exact .error fun _ => by decide

/-- `subscribe` and `unsubscribe`, which differ in a message and a word. The topics that are quoted
in the answer are names of the code. -/
theorem handleTopics_spec {message : Nat → List SubscriptionTopic → BroadcastMessage}
    {done : String} (clientId : Option Nat) (hdone : Json.plain done = true)
    (hpayload : P → PlainPayload env payload) :
    ⦃fun _ => ⌜True⌝⦄ handleTopics message done env payload clientId ⦃orFails P (Answer P)⦄ := by
  mvcgen [handleTopics, enqueue, bail]
  · exact .error fun _ => by decide
  · exact .error fun _ => by decide
  next hvalue topicStrings hstrings _ hparams =>
    exact fun hP => ((hpayload hP).strings _ hparams.2).topics _ topicStrings hvalue hstrings
  next topicNames =>
    have hnames : ∀ m ∈ topicNames, Json.plain m = true := by
      intro m hm
      obtain ⟨topic, -, rfl⟩ := List.mem_map.mp hm
      cases topic <;> decide
    refine .success _ fun _ => plain_after ?_ (plain_intercalate (by decide) hnames)
    exact plain_between (by decide) hdone (by decide)

/-! ## Any command

The command chooses the handler. `add_process` is the only one whose report depends on the state. -/

/-- A precondition that is not needed. -/
theorem fromAnyState {pre : ServerState σ → Prop} {x : HandlerM σ α} {post : α → Prop}
    (h : ⦃fun _ => ⌜True⌝⦄ x ⦃orFails P post⦄) :
    ⦃fun state => ⌜pre state⌝⦄ x ⦃orFails P post⦄ :=
  Triple.of_entails_wp (Triple.entails_wp_of_pre h fun _ _ => True.intro)

/-- **The handler of every command** answers with data or with a success, or it fails; what it
reports is plain, provided that what it was given is. -/
theorem answer_of_command (command : WebSocketCommand) (clientId : Option Nat)
    (hclient : P → PlainClient env.client) (hpayload : P → PlainPayload env command.payload) :
    ⦃fun state => ⌜P → command.type = .addProcess → AddsNew env command.payload state⌝⦄
    handleCommand env clientId command
    ⦃orFails P (Answer P)⦄ := by
  unfold handleCommand
  cases htype : command.type with
  -- the one handler that asks something of the state
  | addProcess =>
    refine Triple.of_entails_wp
      (Triple.entails_wp_of_pre (handleAddProcess_spec P env _ hclient hpayload) ?_)
    exact fun _ h hP => h hP rfl
  | getApps => exact fromAnyState P (handleGetApps_spec P env hclient)
  | getTimeline => exact fromAnyState P (handleGetTimeline_spec P env hclient)
  | getAppByName => exact fromAnyState P (handleGetAppByName_spec P env _ hclient hpayload)
  | deleteProcess => exact fromAnyState P (handleDeleteProcess_spec P env _ hclient hpayload)
  | getTrackingStatus => exact fromAnyState P (handleGetTrackingStatus_spec P)
  | getStatistics => exact fromAnyState P (handleGetStatistics_spec P env hclient)
  | getSessionCounts => exact fromAnyState P (handleGetSessionCounts_spec P env hclient)
  | getCheckpoints => exact fromAnyState P (handleGetCheckpoints_spec P env _ hclient hpayload)
  | createCheckpoint => exact fromAnyState P (handleCreateCheckpoint_spec P env _ hclient hpayload)
  | setActiveCheckpoint =>
    exact fromAnyState P (handleSetActiveCheckpoint_spec P env _ hclient hpayload)
  | deleteCheckpoint => exact fromAnyState P (handleDeleteCheckpoint_spec P env _ hclient hpayload)
  | getActiveCheckpoints =>
    exact fromAnyState P (handleGetActiveCheckpoints_spec P env _ hclient hpayload)
  | getCheckpointStats =>
    exact fromAnyState P (handleGetCheckpointStats_spec P env _ hclient hpayload)
  | updateConfig => exact fromAnyState P (handleUpdateConfig_spec P env _ hpayload)
  | subscribe =>
    exact fromAnyState P (handleTopics_spec P env _ clientId (by decide) hpayload)
  | unsubscribe =>
    exact fromAnyState P (handleTopics_spec P env _ clientId (by decide) hpayload)

end

/-! ## Responses

From the handler to the text that is sent back. -/

/-- A text the server sends back: an answer, or an error it reports. -/
def Response (P : Prop) (text : String) : Prop :=
  Answer P text ∨ ∃ m, text = (WebSocketMessage.error m).toJson ∧ PlainIf P m

/-- A text that is no command is reported with the error of the parser; a command goes to its
handler. -/
theorem handleMessageWithClientId_spec (env : Environment σ) (text : String)
    (clientId : Option Nat) :
    ⦃fun state => ⌜P → PlainRequest env text state⌝⦄
    handleMessageWithClientId env text clientId
    ⦃orFails P (Answer P)⦄ := by
  unfold handleMessageWithClientId
  cases hcommand : env.commandFromStr text with
  | ok command =>
    intro state hrequest
    have hanswer := answer_of_command P env command clientId (fun hP => (hrequest hP).client)
      fun hP => (hrequest hP).payload command hcommand
    exact hanswer state fun hP htype => (hrequest hP).addsNew command hcommand htype
  | error e =>
    mvcgen [bail]
    next hrequest => exact .error fun hP => (hrequest hP).command e hcommand

/-- The errors of a handler become a message of their own, and a panic becomes nothing. -/
theorem handleClientMessage_spec (env : Environment σ) (text : String) (clientId : Nat) :
    ⦃fun state => ⌜P → PlainRequest env text state⌝⦄
    handleClientMessage env text clientId
    ⦃⇓ response? _ => ⌜∀ responseText, response? = some responseText →
      Response P responseText⌝⦄ := by
  mvcgen [handleClientMessage, handleMessageWithClientId_spec]
  next hanswer =>
    intro responseText heq
    cases heq
    exact .inl hanswer
  next e heq _ hfail =>
    intro responseText heq'
    cases heq'
    cases heq
    exact .inr ⟨e, rfl, hfail e rfl⟩
  · intro responseText heq
    cases heq

/-- **Whatever is sent back** is an answer or an error. `P` is put to `PlainRequest` here: the
handlers have been gone through once for both readings, whether the request is plain or not. -/
theorem response_of_handleClientMessage {env : Environment σ} {state : ServerState σ}
    {text responseText : String} {clientId : Nat}
    (h : (handleClientMessage env text clientId state).1 = some responseText) :
    Response (PlainRequest env text state) responseText := by
  have hspec := handleClientMessage_spec (PlainRequest env text state) env text clientId state id
  have hrun : ∀ responseText', (handleClientMessage env text clientId state).1 =
      some responseText' → Response (PlainRequest env text state) responseText' :=
    StateM.of_wp_run_eq rfl (fun outcome => ∀ responseText', outcome.1 = some responseText' →
      Response (PlainRequest env text state) responseText') fun _ => hspec
  exact hrun responseText h

end TimeTracker
