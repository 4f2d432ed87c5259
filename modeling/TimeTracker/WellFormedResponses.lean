import Mathlib
import TimeTracker.Responses

/-!
# Well-formed responses

Whether a client can take the response to its text apart down to what the server reports.

* **`responses_wellFormed`**: a response is well-formed exactly if the message it reports is
  plain. Answers that carry data always are. For a `PlainRequest` no response is broken.
* **`not_wellFormed_known`**: adding a process a second time is never answered by a well-formed
  response, since the error quotes the name of the process.
* **`duplicate_breaks_payload`**: one such payload, which is no JSON at all.
-/

namespace TimeTracker

open Json (Value)
open Std.Do

set_option mvcgen.warning false

variable {σ α : Type}

/-! ## Responses -/

/-- A response is well-formed if what it reports is plain. -/
theorem Response.wellFormed {P : Prop} {text : String} (h : Response P text)
    (hplain : ∀ m, Reports text m → PlainIf P m → Json.plain m = true) : WellFormed text := by
  rcases h with hanswer | ⟨m, rfl, hm⟩
  · cases hanswer with
    | data message herror hsuccess hpayload => exact wellFormed_of_data herror hsuccess hpayload
    | success m hm =>
      have hreports : Reports (WebSocketMessage.success m).toJson m := .inr rfl
      exact (wellFormed_report_iff hreports).mpr (hplain m hreports hm)
  · have hreports : Reports (WebSocketMessage.error m).toJson m := .inl rfl
    exact (wellFormed_report_iff hreports).mpr (hplain m hreports hm)

/-! ## A process that is already there -/

/-- The error a client gets for a process that is already there. -/
def alreadyAddedText (process : String) : String :=
  "Failed to add process '" ++ process ++ "': " ++ (AddProcess.alreadyAdded process).display

/-- `process` is in the list the backend returns, and no lock is poisoned. -/
structure KnowsProcess (env : Environment σ) (process : String) (state : ServerState σ) : Prop where
  stateLock : state.stateLock = .healthy
  clientLock : state.clientLock = .healthy
  listed : ∃ processes world,
    env.client.getProcesses.run.run state.world = (.ok processes, world) ∧ process ∈ processes

/-- What ends with the error `e`. -/
abbrev failsWith (e : String) : PostCond α (.except Stop (.arg (ServerState σ) .pure)) :=
  post⟨fun _ _ => ⌜False⌝, fun stop _ => ⌜stop = .error e⌝⟩

theorem checkNotAdded_known (env : Environment σ) (process : String) :
    ⦃fun state => ⌜KnowsProcess env process state⌝⦄
    checkNotAdded env process
    ⦃failsWith (AddProcess.alreadyAdded process).display⦄ := by
  mvcgen [checkNotAdded, -acquireOrPanic_spec, acquireOrPanic, -await_spec, await, -onWorld_spec,
    onWorld, bail]
  next hknows hlock => exact absurd (hknows.clientLock.symm.trans hlock) (by decide)
  next hknows _ _ _ hrun names heq hnot =>
    obtain ⟨processes, world, hget, hmem⟩ := hknows.listed
    cases heq
    cases hget.symm.trans hrun
    exact hnot hmem
  next hknows _ _ _ hrun _ heq =>
    obtain ⟨processes, world, hget, hmem⟩ := hknows.listed
    cases heq
    cases hget.symm.trans hrun

theorem addProcess_known (env : Environment σ) (process path : String) :
    ⦃fun state => ⌜KnowsProcess env process state⌝⦄
    addProcess env process path
    ⦃failsWith (AddProcess.alreadyAdded process).display⦄ := by
  mvcgen [addProcess, checkNotAdded_known, -acquireOrPanic_spec]

theorem handleAddProcess_known (env : Environment σ) {payload process path : String}
    {params : Params} (hpayload : payload.isEmpty = false)
    (hparams : env.paramsFromStr payload = .ok params)
    (hname : stringParam params "process_name" = some process)
    (hpath : stringParam params "path" = some path) :
    ⦃fun state => ⌜KnowsProcess env process state⌝⦄
    handleAddProcess env payload
    ⦃failsWith (alreadyAddedText process)⦄ := by
  mvcgen [handleAddProcess, -acquireClientLock_spec, acquireClientLock, -parsePayload_spec,
    parsePayload, -extractStringParam_spec, extractStringParam, -required_spec, required,
    withContext, addProcess_known, bail]
  next hknows hlock => exact absurd (hknows.stateLock.symm.trans hlock) (by decide)
  next hempty _ => exact absurd (hpayload.symm.trans hempty) (by decide)
  next hknows _ _ _ hparams' _ hname' _ _ =>
    cases hparams.symm.trans hparams'
    cases hname.symm.trans hname'
    exact hknows
  next hparams' _ hname' _ _ _ _ _ _ hstop =>
    cases hparams.symm.trans hparams'
    cases hname.symm.trans hname'
    cases hstop
    rfl
  next hparams' _ _ hpath' =>
    cases hparams.symm.trans hparams'
    exact absurd (hpath.symm.trans hpath') (Option.some_ne_none _)
  next hparams' hname' =>
    cases hparams.symm.trans hparams'
    exact absurd (hname.symm.trans hname') (Option.some_ne_none _)
  next hparams' => cases hparams.symm.trans hparams'

/-- The answer to a command is what the client gets. -/
theorem handleClientMessage_answering {env : Environment σ} {state : ServerState σ}
    {text responseText : String} {command : WebSocketCommand} {clientId : Nat}
    (hcommand : env.commandFromStr text = .ok command)
    (hanswer : ((handleCommand env (some clientId) command).run.run state).1 = .ok responseText) :
    (handleClientMessage env text clientId state).1 = some responseText := by
  unfold handleClientMessage handleMessageWithClientId
  rw [hcommand]
  generalize hrun : (handleCommand env (some clientId) command).run.run state = outcome at hanswer
  obtain ⟨result, state'⟩ := outcome
  cases hanswer
  have happly : (handleCommand env (some clientId) command).run state = (.ok responseText, state') :=
    hrun
  simp only [bind, StateT.bind, happly]
  rfl

/-- The error of a command is what the client gets. -/
theorem handleClientMessage_failing {env : Environment σ} {state : ServerState σ}
    {text e : String} {command : WebSocketCommand} {clientId : Nat} {pre : ServerState σ → Prop}
    (hcommand : env.commandFromStr text = .ok command)
    (hfails : ⦃fun state => ⌜pre state⌝⦄ handleCommand env (some clientId) command ⦃failsWith e⦄)
    (hpre : pre state) :
    (handleClientMessage env text clientId state).1 =
      some (WebSocketMessage.error e).toJson := by
  have hspec : ⦃fun state => ⌜pre state⌝⦄
      handleClientMessage env text clientId
      ⦃⇓ response? _ => ⌜response? = some (WebSocketMessage.error e).toJson⌝⦄ := by
    unfold handleClientMessage handleMessageWithClientId
    rw [hcommand]
    mvcgen -trivial [hfails]
    next hpre => exact hpre
    next heq _ hstop =>
      -- the handler did not answer
      cases heq
    next heq _ hstop =>
      cases heq
      cases hstop
      rfl
    next heq _ hstop =>
      cases heq
      cases hstop
  exact StateM.of_wp_run_eq rfl
    (fun outcome => outcome.1 = some (WebSocketMessage.error e).toJson) fun _ => hspec state hpre

/-- **Adding a process a second time**: the response is the error that quotes its name. -/
theorem handleClientMessage_known {env : Environment σ} {state : ServerState σ}
    {text payload process path : String} {params : Params} {clientId : Nat}
    (hcommand : env.commandFromStr text = .ok ⟨.addProcess, payload⟩)
    (hpayload : payload.isEmpty = false)
    (hparams : env.paramsFromStr payload = .ok params)
    (hname : stringParam params "process_name" = some process)
    (hpath : stringParam params "path" = some path)
    (hknows : KnowsProcess env process state) :
    (handleClientMessage env text clientId state).1 =
      some (WebSocketMessage.error (alreadyAddedText process)).toJson :=
  handleClientMessage_failing hcommand (handleAddProcess_known env hpayload hparams hname hpath)
    hknows

/-- The error quotes the name. -/
theorem display_alreadyAdded_not_plain (process : String) :
    Json.plain (AddProcess.alreadyAdded process).display = false := by
  change Json.plain ("Cannot add process: " ++ ("Process \"" ++ process ++ _)) = false
  have hquote : Json.plain "Process \"" = false := by decide
  rw [Json.plain_append, Json.plain_append, Json.plain_append, hquote]
  simp only [Bool.false_and, Bool.and_false]

theorem alreadyAddedText_not_plain (process : String) :
    Json.plain (alreadyAddedText process) = false := by
  unfold alreadyAddedText
  rw [Json.plain_append, display_alreadyAdded_not_plain, Bool.and_false]

/-- **Adding a process a second time** is never answered by a well-formed response. -/
theorem not_wellFormed_known {env : Environment σ} {state : ServerState σ}
    {text payload process path responseText : String} {params : Params} {clientId : Nat}
    (hcommand : env.commandFromStr text = .ok ⟨.addProcess, payload⟩)
    (hpayload : payload.isEmpty = false)
    (hparams : env.paramsFromStr payload = .ok params)
    (hname : stringParam params "process_name" = some process)
    (hpath : stringParam params "path" = some path)
    (hknows : KnowsProcess env process state)
    (hresponse : (handleClientMessage env text clientId state).1 = some responseText) :
    ¬ WellFormed responseText := by
  rw [handleClientMessage_known hcommand hpayload hparams hname hpath hknows] at hresponse
  have hreports : Reports responseText (alreadyAddedText process) :=
    .inl (Option.some.inj hresponse).symm
  rw [wellFormed_report_iff hreports, alreadyAddedText_not_plain]
  exact Bool.false_ne_true

/-! ## A backend in memory -/

/-- A backend that keeps the names of the processes and nothing else. -/
def namesClient : Restable (List String) where
  getProcesses := get
  putData item _ := do
    modify fun names => names ++ [item]
    return .null
  deleteData item := do
    modify fun names => names.filter (· ≠ item)
    return .null
  getAllApps := return .arr []
  getTimelineData _ _ := return .arr []
  getSessionCountForApp _ := return 0
  getAllAppIds := return []
  getAllCheckpoints := return .arr []
  getCheckpointsForApp _ := return .arr []
  createCheckpoint _ _ _ := return .null
  setCheckpointActive _ _ := return .null
  deleteCheckpoint _ := return .null
  getActiveCheckpoints := return .arr []
  getActiveCheckpointsForApp _ := return .arr []
  getCheckpointDurationsByIds _ := return .arr []
  getTimelineWithCheckpoints := return .arr []

/-- The members of the object a text holds. -/
def membersFromStr (text : String) : Except String Params :=
  match Json.parse text with
  | some (.obj members) => return members
  | _ => throw "expected value at line 1 column 1"

theorem membersFromStr_toText (members : Params) :
    membersFromStr (Json.toText (.obj members)) = .ok members := by
  rw [membersFromStr, Json.parse_toText]
  rfl

def namesEnvironment : Environment (List String) where
  client := namesClient
  chrono := ⟨fun _ => none, fun _ _ => none, fun _ _ => none⟩
  commandFromStr text := do
    let members ← membersFromStr text
    match stringParam members "type", stringParam members "payload" with
    | some type, some payload =>
      if type = "add_process" then return ⟨.addProcess, payload⟩
      else throw "unknown variant"
    | _, _ => throw "missing field"
  paramsFromStr := membersFromStr
  appsFromValue _ := none
  quotient _ _ := zeroAverage
  verQueryValue _ := none
  today := return NaiveDateTime.unixEpoch.date

def namesState (names : List String) : ServerState (List String) where
  world := names
  stateLock := .healthy
  clientLock := .healthy
  trackingStatusLock := .healthy
  configLock := .healthy
  processMapLock := .healthy
  processMap := ∅
  trackingStatus := .idle
  config := ⟨60000, 10000⟩
  hasActiveBroadcaster := false
  broadcasts := []

/-- `{"process_name":…,"path":""}` -/
def addProcessParams (process : String) : Params :=
  [("process_name", .str process), ("path", .str "")]

/-- `{"type":"add_process","payload":…}` -/
def addProcessText (process : String) : String :=
  Json.toText (.obj [("type", .str "add_process"),
    ("payload", .str (Json.toText (.obj (addProcessParams process))))])

theorem namesEnvironment_command (process : String) :
    namesEnvironment.commandFromStr (addProcessText process) =
      .ok ⟨.addProcess, Json.toText (.obj (addProcessParams process))⟩ := by
  generalize hpayload : Json.toText (.obj (addProcessParams process)) = payload
  rw [addProcessText, hpayload]
  simp only [namesEnvironment, membersFromStr_toText]
  rfl

theorem namesEnvironment_params (members : Params) :
    namesEnvironment.paramsFromStr (Json.toText (.obj members)) = .ok members := by
  have hparams : namesEnvironment.paramsFromStr = membersFromStr := rfl
  rw [hparams, membersFromStr_toText]

/-- The handler adds `b`, whatever text the parameters come from. -/
theorem handleAddProcess_b {payload : String} (hpayload : payload.isEmpty = false)
    (hparams : namesEnvironment.paramsFromStr payload = .ok (addProcessParams "b")) :
    ((handleAddProcess namesEnvironment payload).run.run (namesState ["a"])).1 =
      .ok (WebSocketMessage.success "Successfully added process: b").toJson := by
  unfold handleAddProcess parsePayload
  simp only [hpayload, hparams]
  rfl

theorem handleClientMessage_b :
    (handleClientMessage namesEnvironment (addProcessText "b") 0 (namesState ["a"])).1 =
      some (WebSocketMessage.success "Successfully added process: b").toJson :=
  handleClientMessage_answering (namesEnvironment_command "b")
    (handleAddProcess_b (Json.toText_obj_isEmpty _) (namesEnvironment_params _))

theorem parsesTo_namesEnvironment {members params : Params}
    (h : ParsesTo namesEnvironment (Json.toText (.obj members)) params) : params = members := by
  rcases h with ⟨hempty, -⟩ | hparams
  · rw [Json.toText_obj_isEmpty] at hempty
    exact absurd hempty Bool.false_ne_true
  · rw [namesEnvironment_params] at hparams
    cases hparams
    rfl

theorem plainStrings_b : PlainStrings (addProcessParams "b") where
  name := by
    intro s h
    cases h
  processName := by
    intro s h
    cases h
    decide
  topics := by
    intro value topics h
    cases h

theorem plainRequest_b : PlainRequest namesEnvironment (addProcessText "b") (namesState ["a"]) where
  client := by
    -- no call of the backend fails
    constructor <;> intros <;> intro world e world' h <;> cases h
  command := by
    intro e he
    rw [namesEnvironment_command] at he
    cases he
  payload := by
    intro command hcommand
    rw [namesEnvironment_command] at hcommand
    cases hcommand
    constructor
    · intro e he
      rw [namesEnvironment_params] at he
      cases he
    · intro params hparams
      rw [parsesTo_namesEnvironment hparams]
      exact plainStrings_b
  addsNew := by
    intro command hcommand _ params process hparams hname processes world hget
    rw [namesEnvironment_command] at hcommand
    cases hcommand
    rw [parsesTo_namesEnvironment hparams] at hname
    cases hname
    cases hget
    decide

/-! ## Well-formed responses -/

/-- **Responses that are well-formed**: the payload of an error or a success holds its message
exactly if that is plain, and a response is well-formed exactly if what it reports is plain. -/
theorem responses_wellFormed (m : String) {env : Environment σ} {state : ServerState σ}
    {text responseText : String} {clientId : Nat}
    (h : (handleClientMessage env text clientId state).1 = some responseText) :
    (Json.parse (WebSocketMessage.error m).payload = some (.obj [("message", .str m)]) ↔
      Json.plain m = true) ∧
    (Json.parse (WebSocketMessage.success m).payload = some (.obj [("message", .str m)]) ↔
      Json.plain m = true) ∧
    (WellFormed responseText ↔ ∀ m', Reports responseText m' → Json.plain m' = true) ∧
    (PlainRequest env text state → WellFormed responseText) := by
  have hresponse := response_of_handleClientMessage h
  refine ⟨parse_messagePayload_iff m, parse_messagePayload_iff m, ⟨?_, ?_⟩, ?_⟩
  · intro hwell m' hm'
    exact (wellFormed_report_iff hm').mp hwell
  · intro hplain
    exact hresponse.wellFormed fun m' hm' _ => hplain m' hm'
  · intro hrequest
    exact hresponse.wellFormed fun m' _ hm' => hm' hrequest

/-- Adding `b` where there is an `a`. -/
theorem responses_wellFormed_addNew :
    (handleClientMessage namesEnvironment (addProcessText "b") 0 (namesState ["a"])).1 =
        some (WebSocketMessage.success "Successfully added process: b").toJson ∧
      WellFormed (WebSocketMessage.success "Successfully added process: b").toJson := by
  have hwell := responses_wellFormed "Successfully added process: b" handleClientMessage_b
  exact ⟨handleClientMessage_b, hwell.2.2.2 plainRequest_b⟩

/-- **Adding `a` where there is an `a`**: the payload of the error is no JSON. -/
theorem duplicate_breaks_payload :
    ∃ responseText payload,
      (handleClientMessage namesEnvironment (addProcessText "a") 0 (namesState ["a"])).1 =
        some responseText ∧
      Json.parse responseText = some (.obj [("type", .str "error"), ("payload", .str payload)]) ∧
      Json.parse payload = none := by
  have hknows : KnowsProcess namesEnvironment "a" (namesState ["a"]) :=
    ⟨rfl, rfl, ["a"], ["a"], rfl, List.mem_singleton.mpr rfl⟩
  have hresponse : (handleClientMessage namesEnvironment (addProcessText "a") 0
      (namesState ["a"])).1 = some (WebSocketMessage.error (alreadyAddedText "a")).toJson :=
    handleClientMessage_known (namesEnvironment_command "a") (Json.toText_obj_isEmpty _)
      (namesEnvironment_params (addProcessParams "a")) rfl rfl hknows
  have hlist : (alreadyAddedText "a").toList =
      "Failed to add process 'a': Cannot add process: Process ".toList ++
        '"' :: 'a' :: "\" has already been added before.".toList := by
    unfold alreadyAddedText
    simp only [String.toList_append]
    rfl
  refine ⟨_, _, hresponse, parse_toJson _, ?_⟩
  exact parse_messagePayload_none hlist (by decide) (by decide) (by decide) (by decide)

end TimeTracker
