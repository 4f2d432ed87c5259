import TimeTracker.HandlerEffects

/-!
# What a command does

Every handler over the SeaORM client, put together from its pieces.

* `Outcome`: what a command that succeeds leaves behind. The nine commands that ask something change
  nothing; each of the other eight has an `Effect`, for the parameters of its payload.
* `CommandFailure`: what a command that fails leaves behind. It has changed nothing; or it is an
  activation that has been stopped half way (`Halfway`); or it is an `add_process` or a
  `delete_process` that has died on the lock of `PROCESS_MAP` (`Torn`).
* **`handleCommand_ends`**: a handler has the outcome of its command, or fails in one of these ways,
  whatever statements the database refuses.
* **`handleClientMessage_handled`**: so every text is answered, but for the torn ones. An error that
  is sent back stands for a request that has left no trace, or for half an activation.
-/

namespace TimeTracker

open Json (Value)
open Transaction

/-! ## What a command changes -/

/-- The text of a message that is no error. -/
def Answers (text : String) : Prop :=
  ∃ message : WebSocketMessage, message.type ≠ .error ∧ text = message.toJson

/-- The topics of a subscription. -/
def topicsOf (params : Params) : Option (List SubscriptionTopic) :=
  ((Json.lookup params "topics").bind stringsFromValue).bind fun topics =>
    topics.mapM SubscriptionTopic.fromStr

/-- The client of a subscription: the one of the connection, or the one that is named. -/
def subscriberOf (params : Params) : Option Nat → Option Nat
  | some clientId => some clientId
  | none => (Json.lookup params "client_id").bind Value.asU64

/-- The parameters of a command. `update_config` parses an empty payload too. -/
def WebSocketCommand.params {σ : Type} (env : Environment σ) (command : WebSocketCommand) :
    Except String Params :=
  match command.type with
  | .updateConfig => env.paramsFromStr command.payload
  | _ => paramsOf env command.payload

/-- The commands that ask for something. -/
def CommandType.asks : CommandType → Bool
  | .getApps | .getTimeline | .getAppByName | .getTrackingStatus | .getStatistics
  | .getSessionCounts | .getCheckpoints | .getActiveCheckpoints | .getCheckpointStats => true
  | _ => false

/-- The commands that write `PROCESS_MAP`. -/
def CommandType.writesMap : CommandType → Bool
  | .addProcess | .deleteProcess => true
  | _ => false

/-- What a command with these parameters changes when it succeeds. -/
inductive Effect (env : Environment World) (clientId : Option Nat) (params : Params)
    (s : ServerState World) : CommandType → ServerState World → Prop where
  | addProcess {process path : String} {db : Store} {s₁ : ServerState World}
      (hprocess : stringParam params "process_name" = some process)
      (hpath : stringParam params "path" = some path) (hdb : Inserted env process path s db)
      (hs₁ : s₁ = { (s.later 3).withTables db with
        processMap := s.processMap.insert process (false, false) }) :
      Effect env clientId params s .addProcess (s₁.pushing (appsPushed env s₁))
  | deleteProcess {process : String} {s₁ : ServerState World}
      (hprocess : stringParam params "process_name" = some process)
      (hserves : s.world.serves 1 = true)
      (hs₁ : s₁ = { (s.later 1).withTables (s.world.db.deleteApps process) with
        processMap := s.processMap.erase process }) :
      Effect env clientId params s .deleteProcess (s₁.pushing (appsPushed env s₁))
  | createCheckpoint {name : String} {appId : Int} {db : Store}
      (hname : stringParam params "name" = some name)
      (happ : i32Param params "app_id" = some appId)
      (hdb : (CheckpointCall.create name (stringParam params "description") appId).Completes
        s.world.db (.ok ()) db) :
      Effect env clientId params s .createCheckpoint (s.withTables db)
  | setActiveCheckpoint {checkpointId : Int} {db : Store}
      (hid : i32Param params "checkpoint_id" = some checkpointId)
      (hdb : (CheckpointCall.setActive checkpointId
        (((Json.lookup params "is_active").bind Value.asBool).getD false)).Completes
        s.world.db (.ok ()) db) :
      Effect env clientId params s .setActiveCheckpoint (s.withTables db)
  | deleteCheckpoint {checkpointId : Int} {db : Store}
      (hid : i32Param params "checkpoint_id" = some checkpointId)
      (hdb : (CheckpointCall.delete checkpointId).Completes s.world.db (.ok ()) db) :
      Effect env clientId params s .deleteCheckpoint (s.withTables db)
  | updateConfig {trackingDelayMs checkDelayMs : Nat}
      (htracking : (Json.lookup params "tracking_delay_ms").bind Value.asU64 = some trackingDelayMs)
      (hcheck : (Json.lookup params "check_delay_ms").bind Value.asU64 = some checkDelayMs) :
      Effect env clientId params s .updateConfig
        { s with config := ⟨trackingDelayMs, checkDelayMs⟩ }
  | subscribe {id : Nat} {topics : List SubscriptionTopic}
      (hid : subscriberOf params clientId = some id) (htopics : topicsOf params = some topics) :
      Effect env clientId params s .subscribe (s.pushing [.subscribe id topics])
  | unsubscribe {id : Nat} {topics : List SubscriptionTopic}
      (hid : subscriberOf params clientId = some id) (htopics : topicsOf params = some topics) :
      Effect env clientId params s .unsubscribe (s.pushing [.unsubscribe id topics])

/-- What a command leaves behind that succeeds. -/
inductive Outcome (env : Environment World) (clientId : Option Nat) (command : WebSocketCommand)
    (s : ServerState World) : ServerState World → Prop where
  | asked {s' : ServerState World} (h : command.type.asks) (hs' : s' ≈ s) :
      Outcome env clientId command s s'
  | changed {params : Params} {s₁ s' : ServerState World}
      (hparams : command.params env = .ok params) (h : Effect env clientId params s command.type s₁)
      (hs' : s' ≈ s₁) : Outcome env clientId command s s'

/-! ## What a command that fails leaves behind -/

/-- What is known of a command that is refused: an `add_process` that is well formed is for a name
that is there, or the database refuses one of its statements; a `delete_process` is refused by the
database alone. -/
def Refusable (env : Environment World) (s : ServerState World) (command : WebSocketCommand) :
    Prop :=
  ∀ params process, command.params env = .ok params →
    stringParam params "process_name" = some process →
    match command.type with
    | .addProcess => ∀ path, stringParam params "path" = some path → NotAddable process s
    | .deleteProcess => s.world.serves 1 = false
    | _ => True

/-- What is left of a command that writes more than once and is stopped in between. -/
inductive Halfway (params : Params) (s : ServerState World) : CommandType → ServerState World → Prop
    where
  | setActiveCheckpoint {checkpointId : Int} {db : Store} {s' : ServerState World}
      (hid : i32Param params "checkpoint_id" = some checkpointId)
      (hactive : ((Json.lookup params "is_active").bind Value.asBool).getD false = true)
      (hdb : SetCheckpointActive.HalfDone checkpointId s.world.db db)
      (hs' : s' ≈ s.withTables db) : Halfway params s .setActiveCheckpoint s'

/-- What is left of a command that dies on the lock of `PROCESS_MAP`: the table has been written by
then, the map has not. -/
inductive Torn (env : Environment World) (params : Params) (s : ServerState World) :
    CommandType → ServerState World → Prop where
  | addProcess {process path : String} {db : Store} {s' : ServerState World}
      (hprocess : stringParam params "process_name" = some process)
      (hpath : stringParam params "path" = some path) (hdb : Inserted env process path s db)
      (hs' : s' ≈ s.withTables db) : Torn env params s .addProcess s'
  | deleteProcess {process : String} {s' : ServerState World}
      (hprocess : stringParam params "process_name" = some process)
      (hserves : s.world.serves 1 = true)
      (hs' : s' ≈ s.withTables (s.world.db.deleteApps process)) :
      Torn env params s .deleteProcess s'

/-- How a command fails. -/
inductive CommandFailure (env : Environment World) (command : WebSocketCommand)
    (s : ServerState World) : Stop → ServerState World → Prop where
  | refused {text : String} {s' : ServerState World} (hreason : Refusable env s command)
      (hs' : s' ≈ s) : CommandFailure env command s (.error text) s'
  | stopped {text : String} {params : Params} {s' : ServerState World}
      (hparams : command.params env = .ok params) (h : Halfway params s command.type s') :
      CommandFailure env command s (.error text) s'
  | died {params : Params} {s' : ServerState World} (hmap : s.processMapLock = .poisoned)
      (hparams : command.params env = .ok params) (h : Torn env params s command.type s') :
      CommandFailure env command s .panic s'

section
variable {driver : Driver} {env : Environment World} {s : ServerState World}

/-- A message whose type is not `error` is an answer. -/
theorem answers (type : MessageType) (payload : String) (h : type ≠ .error) :
    Answers (WebSocketMessage.toJson ⟨type, payload⟩) := ⟨_, h, rfl⟩

/-! ## The handlers that ask

Each reads, and answers with what it has read. A read may fail, and then the answer is an error; the
state is as good as before in either case, as a statement that has been served is all that is gone.
-/

/-- Most handlers begin with the lock and the parameters. -/
theorem withParams_ends {payload : String} {next : Params → HandlerM World String}
    {post : String → ServerState World → Prop} {bad : Stop → ServerState World → Prop}
    (hs : Healthy s)
    (hparse : ∀ stop s', s' ≈ s ∧ failing (∀ params, paramsOf env payload ≠ .ok params) stop →
      bad stop s')
    (h : ∀ params, paramsOf env payload = .ok params → Ends (next params) s post bad) :
    Ends (do
      acquireClientLock
      let params ← parsePayload (env.onDatabase driver) payload
      next params) s post bad := by
  apply Ends.bindRead (acquireClientLock_returns hs).ends
  intro _ _
  exact Ends.bindRead (Ends.weaken (parsePayload_commits payload) hparse) h

/-- The same for a handler that is a transaction. -/
theorem withParams_commits {payload : String} {next : Params → HandlerM World String}
    {post : String → ServerState World → Prop} (hs : Healthy s)
    (h : ∀ params, paramsOf env payload = .ok params → Commits (next params) s post failed) :
    Commits (do
      acquireClientLock
      let params ← parsePayload (env.onDatabase driver) payload
      next params) s post failed :=
  withParams_ends hs (fun _ _ hstop => ⟨hstop.1, hstop.2.1⟩) h

/-- A method that only reads, and an answer. -/
theorem asks_commits {α : Type} {operation : StoreM World α} {contextMsg : String} (hs : Healthy s)
    (h : Reads operation) {type : MessageType} (payload : α → String) (htype : type ≠ .error) :
    Commits (do
      let a ← callDbMethod operation contextMsg
      return WebSocketMessage.toJson ⟨type, payload a⟩) s (asking s Answers) failed := by
  apply Commits.andThen (h.callDbMethod contextMsg hs)
  rintro _ _ ⟨hs', -⟩
  exact .of_pure ⟨hs', answers _ _ htype⟩

/-- `get_apps` has no parameters. -/
theorem handleGetApps_commits (hs : Healthy s) :
    Commits (handleGetApps (env.onDatabase driver)) s (asking s Answers) failed := by
  apply Commits.bindRead (acquireClientLock_returns hs).ends
  intro _ _
  exact asks_commits hs SeaORMClient.reads_getAllApps _ (by decide)

/-- And neither has `get_timeline`. -/
theorem handleGetTimeline_commits (hs : Healthy s) :
    Commits (handleGetTimeline (env.onDatabase driver)) s (asking s Answers) failed := by
  apply Commits.bindRead (acquireClientLock_returns hs).ends
  intro _ _
  exact asks_commits hs SeaORMClient.reads_getTimelineWithCheckpoints _ (by decide)

/-- `get_app_by_name` reads all apps; a name that is not among them is an error. -/
theorem handleGetAppByName_commits (hs : Healthy s) (payload : String) :
    Commits (handleGetAppByName (env.onDatabase driver) payload) s (asking s Answers) failed := by
  apply withParams_commits hs
  intro params _
  apply Commits.bindRead ((required_commits "name" _).weaken failed_of_failing)
  intro appName _
  apply Commits.bind (SeaORMClient.reads_getAllApps.callDbMethod _ hs)
  intro appsData s' hs' _
  cases hfind : (convertToApps (env.onDatabase driver) appsData).find?
      fun app => app.name = some appName with
  | none =>
    simp only [hfind]
    exact commits_bail _
  | some foundApp =>
    simp only [hfind]
    exact .of_pure ⟨hs', answers .app _ (by decide)⟩

/-- `get_tracking_status` does not ask the database at all. -/
theorem handleGetTrackingStatus_commits (hs : Healthy s) :
    Commits handleGetTrackingStatus s (asking s Answers) failed := by
  apply Commits.bindRead (acquireClientLock_returns hs).ends
  intro _ _
  apply Commits.bindRead .of_get
  intro _ _
  exact .of_pure ⟨Setoid.refl s, answers .trackingStatus _ (by decide)⟩

/-- `get_checkpoints` reads those of one app, or all of them. -/
theorem handleGetCheckpoints_commits (hs : Healthy s) (payload : String) :
    Commits (handleGetCheckpoints (env.onDatabase driver) payload) s (asking s Answers)
      failed := by
  apply withParams_commits hs
  intro params _
  apply asks_commits hs _ _ (by decide)
  cases i32Param params "app_id" with
  | some appId => exact SeaORMClient.reads_checkpointsValue _
  | none => exact SeaORMClient.reads_checkpointsValue _

/-- And `get_active_checkpoints` those that are active. -/
theorem handleGetActiveCheckpoints_commits (hs : Healthy s) (payload : String) :
    Commits (handleGetActiveCheckpoints (env.onDatabase driver) payload) s (asking s Answers)
      failed := by
  apply withParams_commits hs
  intro params _
  cases i32Param params "app_id" with
  | some appId => exact asks_commits hs (SeaORMClient.reads_checkpointsValue _) _ (by decide)
  | none => exact asks_commits hs (SeaORMClient.reads_checkpointsValue _) _ (by decide)

/-- `get_checkpoint_stats` reads the durations of one checkpoint. -/
theorem handleGetCheckpointStats_commits (hs : Healthy s) (payload : String) :
    Commits (handleGetCheckpointStats (env.onDatabase driver) payload) s (asking s Answers)
      failed := by
  apply withParams_commits hs
  intro params _
  apply Commits.bindRead ((required_commits "checkpoint_id" _).weaken failed_of_failing)
  intro checkpointId _
  have hdurations := SeaORMClient.reads_getCheckpointDurationsByIds [checkpointId]
  apply Commits.andThen (hdurations.callDbMethod _ hs)
  rintro _ _ ⟨hs', -⟩
  exact .of_pure ⟨hs', answers .checkpointStats _ (by decide)⟩

/-- One query for the ids, and then one for each of them. -/
theorem handleGetSessionCounts_commits (hs : Healthy s) :
    Commits (handleGetSessionCounts (env.onDatabase driver)) s (asking s Answers) failed := by
  apply Commits.bindRead (acquireClientLock_returns hs).ends
  intro _ _
  have hids : Reads SeaORMClient.getAllAppIds := reads_query _
  apply Commits.bind (hids.callDbMethod _ hs)
  intro appIds s₁ hs₁ _
  apply Commits.andThen (Commits.forIn appIds _ _)
  · rintro _ _ ⟨hs', -⟩
    exact .of_pure ⟨Setoid.trans hs' hs₁, answers .sessionCountsData _ (by decide)⟩
  · intro appId counts s₂ hs₂
    have hhealthy := hs.of_equiv (Setoid.trans hs₂ hs₁)
    apply Commits.andThen ((SeaORMClient.reads_getSessionCountForApp appId).callDbMethod _ hhealthy)
    rintro count _ ⟨hs', -⟩
    exact .of_pure ⟨hs', _, rfl⟩

/-- The rows of the last 30 days are read, and then today's date. -/
theorem reads_calculateAppStatistics (app : App) :
    Reads (calculateAppStatistics (env.onDatabase driver) app) := by
  apply (SeaORMClient.reads_getTimelineData app.name 30).bind
  intro timelineData
  apply Reads.bind fun w => .inl ⟨w.now.date, w, rfl, Setoid.refl w, trivial⟩
  intro today
  exact .of_pure _

/-- An app whose rows cannot be read is left out of the statistics. -/
theorem handleGetStatistics_commits (hs : Healthy s) :
    Commits (handleGetStatistics (env.onDatabase driver)) s (asking s Answers) failed := by
  apply Commits.bindRead (acquire_returns _ hs.stateLock).ends
  intro _ _
  apply Commits.bindRead (acquire_returns _ hs.clientLock).ends
  intro _ _
  apply Commits.bind (withContext_commits SeaORMClient.reads_getAllApps.await)
  intro appsData s₁ hs₁ _
  apply Commits.andThen (Commits.forIn _ _ _)
  · rintro _ _ ⟨hs', -⟩
    exact .of_pure ⟨Setoid.trans hs' hs₁, answers .statisticsData _ (by decide)⟩
  · intro app statistics s₂ _
    apply onWorld_cases (reads_calculateAppStatistics app s₂.world)
    · rintro stats world ⟨hworld, -⟩
      exact .of_pure ⟨⟨world, hworld, rfl⟩, _, rfl⟩
    · rintro _ world ⟨hworld, -⟩
      exact .of_pure ⟨⟨world, hworld, rfl⟩, _, rfl⟩

/-! ## The handlers that change something

Each reads its parameters first, so a command that is not well formed is refused before it has asked
the database. Of the five that write the tables two take the lock of `PROCESS_MAP` as well, and one
writes more than once. -/

/-- A command that has been done, for the parameters of its payload. -/
abbrev Done (env : Environment World) (clientId : Option Nat) (payload : String)
    (s : ServerState World) (type : CommandType) : String → ServerState World → Prop :=
  fun text s' => Answers text ∧ ∃ params s₁, paramsOf env payload = .ok params ∧
    Effect env clientId params s type s₁ ∧ s' ≈ s₁

/-- A command that is refused without a statement. -/
theorem failure_of_failing {P : Prop} {command : WebSocketCommand}
    (himp : P → Refusable env s command) (stop : Stop) (s' : ServerState World)
    (h : s' ≈ s ∧ failing P stop) : CommandFailure env command s stop s' := by
  obtain ⟨hs', ⟨text, rfl⟩, hP⟩ := h
  exact .refused (himp hP) hs'

/-- The parameters that have been read are those of the command. -/
theorem params_unique {type : CommandType} {payload : String} {params params' : Params}
    (hparams : WebSocketCommand.params env ⟨type, payload⟩ = .ok params)
    (hparams' : WebSocketCommand.params env ⟨type, payload⟩ = .ok params') : params' = params :=
  Except.ok.inj (hparams'.symm.trans hparams)

/-- A command without well-formed parameters is refused for them. -/
theorem refusable_of_params {type : CommandType} {payload : String}
    (hparams : ∀ params, WebSocketCommand.params env ⟨type, payload⟩ ≠ .ok params) :
    Refusable env s ⟨type, payload⟩ := fun params _ hok => absurd hok (hparams params)

/-- A command without a name is refused for that. -/
theorem refusable_of_name {type : CommandType} {payload : String} {params : Params}
    (hparams : WebSocketCommand.params env ⟨type, payload⟩ = .ok params)
    (hmissing : stringParam params "process_name" = none) :
    Refusable env s ⟨type, payload⟩ := by
  intro params' process hok hprocess
  rw [params_unique hparams hok, hmissing] at hprocess
  cases hprocess

/-- **`add_process`** as a command. -/
theorem handleAddProcess_ends (hs : Healthy s) (payload : String) (clientId : Option Nat) :
    Ends (handleAddProcess (env.onDatabase driver) payload) s
      (Done env clientId payload s .addProcess)
      (CommandFailure env ⟨.addProcess, payload⟩ s) := by
  refine withParams_ends hs (failure_of_failing fun hunread => refusable_of_params hunread) ?_
  intro params hparams
  have hparams' : WebSocketCommand.params env ⟨.addProcess, payload⟩ = .ok params := hparams
  apply Ends.bindRead (Ends.weaken (required_commits "process_name" _)
    (failure_of_failing (refusable_of_name hparams')))
  intro process hprocess
  apply Ends.bindRead (Ends.weaken (required_commits "path" _) (failure_of_failing _))
  · intro path hpath
    apply Ends.bind (Ends.weaken (withContext_ends (addProcess_ends hs process path)) _)
    · rintro _ _ ⟨db, s₁, hdb, hs₁, hs'⟩
      exact .of_pure ⟨answers .success _ (by decide), params, _, hparams,
        .addProcess hprocess hpath hdb hs₁, hs'⟩
    · intro stop s' hstopped
      cases stop with
      | error text =>
        refine .refused (fun params' process' hok hprocess' _ _ => ?_) hstopped.1
        rw [params_unique hparams' hok, hprocess] at hprocess'
        exact Option.some.inj hprocess' ▸ hstopped.2
      | panic =>
        obtain ⟨hmap, db, hdb, hs'⟩ := hstopped
        exact .died hmap hparams' (.addProcess hprocess hpath hdb hs')
  · intro hmissing params' _ hok _ path hpath
    rw [params_unique hparams' hok, hmissing] at hpath
    cases hpath

/-- **`delete_process`** as a command. -/
theorem handleDeleteProcess_ends (hs : Healthy s) (payload : String) (clientId : Option Nat) :
    Ends (handleDeleteProcess (env.onDatabase driver) payload) s
      (Done env clientId payload s .deleteProcess)
      (CommandFailure env ⟨.deleteProcess, payload⟩ s) := by
  refine withParams_ends hs (failure_of_failing fun hunread => refusable_of_params hunread) ?_
  intro params hparams
  have hparams' : WebSocketCommand.params env ⟨.deleteProcess, payload⟩ = .ok params := hparams
  apply Ends.bindRead (Ends.weaken (required_commits "process_name" _)
    (failure_of_failing (refusable_of_name hparams')))
  intro process hprocess
  apply Ends.bind (Ends.weaken (withContext_ends (deleteProcess_ends hs process)) _)
  · rintro _ _ ⟨hserves, s₁, hs₁, hs'⟩
    exact .of_pure ⟨answers .success _ (by decide), params, _, hparams,
      .deleteProcess hprocess hserves hs₁, hs'⟩
  · intro stop s' hstopped
    cases stop with
    | error text => exact .refused (fun _ _ _ _ => hstopped.2) hstopped.1
    | panic =>
      obtain ⟨hmap, hserves, hs'⟩ := hstopped
      exact .died hmap hparams' (.deleteProcess hprocess hserves hs')

/-- What a call has written is in the tables of the server. -/
theorem withTables_of_stored {α : Type} {change : Store → Store → Prop} {a : α}
    {s' : ServerState World} (h : Stored s (SeaORMClient.Changed s.world change) a s') :
    ∃ db, change s.world.db db ∧ s' ≈ s.withTables db := by
  obtain ⟨world, ⟨db, hdb, hworld⟩, rfl⟩ := h
  exact ⟨db, hdb, world, hworld, rfl⟩

/-- A call that writes the tables, with the lock of the client. -/
theorem callWrites_commits {refused : String → Prop} {operation : StoreM World Value}
    {change : Store → Store → Prop} (contextMsg : String) (hs : Healthy s)
    (h : Commits operation s.world (SeaORMClient.Changed s.world change) refused) :
    Commits (callDbMethod operation contextMsg) s
      (fun _ s' => ∃ db, change s.world.db db ∧ s' ≈ s.withTables db) failed :=
  (callDbMethod_commits contextMsg hs h).imp fun _ _ => withTables_of_stored

/-- **An activation** is the one command that may be stopped half way. -/
theorem handleSetActiveCheckpoint_ends (hs : Healthy s) (payload : String)
    (clientId : Option Nat) :
    Ends (handleSetActiveCheckpoint (env.onDatabase driver) payload) s
      (Done env clientId payload s .setActiveCheckpoint)
      (CommandFailure env ⟨.setActiveCheckpoint, payload⟩ s) := by
  have hreason : Refusable env s ⟨.setActiveCheckpoint, payload⟩ := fun _ _ _ _ => trivial
  apply withParams_ends hs (failure_of_failing fun _ => hreason)
  intro params hparams
  apply Ends.bindRead (Ends.weaken (required_commits "checkpoint_id" _)
    (failure_of_failing fun _ => hreason))
  intro checkpointId hid
  have hactivation : Ends (SeaORMClient.setCheckpointActive driver checkpointId
      (((Json.lookup params "is_active").bind Value.asBool).getD false)) s.world _ _ :=
    SeaORMClient.setCheckpointActive_ends _ _
  apply Ends.bind (Ends.weaken (callDbMethod_ends _ hs hactivation) _)
  · intro _ s' hstored
    obtain ⟨db, hdb, hs'⟩ := withTables_of_stored hstored
    exact .of_pure ⟨answers .success _ (by decide), params, _, hparams,
      .setActiveCheckpoint hid hdb, hs'⟩
  · rintro _ _ ⟨⟨text, rfl⟩, _, world, hworld | ⟨hactive, db, hhalf, hworld⟩, rfl⟩
    · exact .refused hreason ⟨world, hworld, rfl⟩
    · exact .stopped hparams (.setActiveCheckpoint hid hactive hhalf ⟨world, hworld, rfl⟩)

/-- `delete_checkpoint` has one statement, so it is done or refused. -/
theorem handleDeleteCheckpoint_commits (hs : Healthy s) (payload : String)
    (clientId : Option Nat) :
    Commits (handleDeleteCheckpoint (env.onDatabase driver) payload) s
      (Done env clientId payload s .deleteCheckpoint) failed := by
  apply withParams_commits hs
  intro params hparams
  apply Commits.bindRead ((required_commits "checkpoint_id" _).weaken failed_of_failing)
  intro checkpointId hid
  apply Commits.andThen (callWrites_commits _ hs (SeaORMClient.deleteCheckpoint_commits _))
  rintro _ _ ⟨db, hdb, hs'⟩
  exact .of_pure ⟨answers .success _ (by decide), params, _, hparams, .deleteCheckpoint hid hdb,
    hs'⟩

/-- Once the checkpoint is there the handler answers, with the list or without it. -/
theorem handleCreateCheckpoint_commits (hs : Healthy s) (payload : String)
    (clientId : Option Nat) :
    Commits (handleCreateCheckpoint (env.onDatabase driver) payload) s
      (Done env clientId payload s .createCheckpoint) failed := by
  apply withParams_commits hs
  intro params hparams
  apply Commits.bindRead ((required_commits "name" _).weaken failed_of_failing)
  intro name hname
  apply Commits.bindRead ((required_commits "app_id" _).weaken failed_of_failing)
  intro appId happ
  apply Commits.andThen (callWrites_commits _ hs (SeaORMClient.createCheckpoint_commits _ _ _))
  rintro _ s₁ ⟨db, hdb, hs₁⟩
  have hdone : ∀ text s', Answers text → s' ≈ s₁ →
      Done env clientId payload s .createCheckpoint text s' := fun text s' hanswers hs' =>
    ⟨hanswers, params, _, hparams, .createCheckpoint hname happ hdb, Setoid.trans hs' hs₁⟩
  have hlist := SeaORMClient.reads_checkpointsValue fun db =>
    db.checkpointsById fun c => c.appId = appId
  have hs₁' : Healthy s₁ := (hs.withTables db).of_equiv hs₁
  apply Commits.recover
  · apply Commits.imp (asks_commits hs₁' hlist _ (by decide))
    rintro text s' ⟨hs', hanswers⟩
    exact hdone text s' hanswers hs'
  · intro _ s' hs' _
    exact .of_pure (hdone _ s' (answers .success _ (by decide)) hs')

/-! ## Configuration and subscriptions

Three commands change the server and not the tables. -/

/-- `update_config` has none: it is refused for its parameters alone. -/
theorem handleUpdateConfig_commits (hs : Healthy s) (payload : String) (clientId : Option Nat) :
    Commits (handleUpdateConfig (env.onDatabase driver) payload) s
      (fun text s' => Answers text ∧ ∃ params s₁, env.paramsFromStr payload = .ok params ∧
        Effect env clientId params s .updateConfig s₁ ∧ s' ≈ s₁) failed := by
  unfold handleUpdateConfig
  cases hparams : env.paramsFromStr payload with
  | error e =>
    have herror : (env.onDatabase driver).paramsFromStr payload = .error e := hparams
    rw [herror]
    exact commits_bail _
  | ok params =>
    have hok : (env.onDatabase driver).paramsFromStr payload = .ok params := hparams
    rw [hok]
    apply Commits.bindRead (extractU64Param_commits params "tracking_delay_ms")
    intro trackingDelayMs htracking
    apply Commits.bindRead (extractU64Param_commits params "check_delay_ms")
    intro checkDelayMs hcheck
    apply Commits.bindRead (acquire_returns _ hs.stateLock).ends
    intro _ _
    apply Commits.bindRead (acquire_returns _ hs.configLock).ends
    intro _ _
    exact .inl ⟨_, _, rfl, answers .success _ (by decide), params, _, rfl,
      .updateConfig htracking hcheck, Setoid.refl _⟩

/-- Topics that all have a name. Induction on the texts. -/
theorem parseTopics_commits (texts : List String) :
    Commits (parseTopics texts : HandlerM World _) s
      (reading s fun topics => texts.mapM SubscriptionTopic.fromStr = some topics) failed := by
  induction texts with
  | nil => exact .of_pure ⟨rfl, rfl⟩
  | cons text texts ih =>
    unfold parseTopics
    cases htopic : SubscriptionTopic.fromStr text with
    | none => exact commits_bail _
    | some topic =>
      apply Commits.bindRead ih
      intro topics htopics
      refine .of_pure ⟨rfl, ?_⟩
      rw [List.mapM_cons, htopic, htopics]
      rfl

/-- A client whose connection has an id does not have to name itself. -/
theorem subscriber_commits (params : Params) (clientId : Option Nat) :
    Commits (subscriber params clientId : HandlerM World Nat) s
      (reading s fun id => subscriberOf params clientId = some id) failed := by
  cases clientId with
  | some id => exact .of_pure ⟨rfl, rfl⟩
  | none =>
    unfold subscriber subscriberOf
    cases Json.lookup params "client_id" with
    | none => exact commits_bail _
    | some value =>
      show Commits _ _ (reading s fun id => value.asU64 = some id) _
      dsimp only
      cases value.asU64 with
      | none => exact commits_bail _
      | some id => exact .of_pure ⟨rfl, rfl⟩

/-- `subscribe` and `unsubscribe` differ in the message they send to the broadcaster. Nothing is
sent before all topics have been read. -/
theorem handleTopics_commits (hs : Healthy s)
    (message : Nat → List SubscriptionTopic → BroadcastMessage) (done : String) (payload : String)
    (clientId : Option Nat) :
    Commits (handleTopics message done (env.onDatabase driver) payload clientId) s
      (fun text s' => Answers text ∧ ∃ params id topics, paramsOf env payload = .ok params ∧
        subscriberOf params clientId = some id ∧ topicsOf params = some topics ∧
        s' = s.pushing [message id topics]) failed := by
  apply Commits.bindRead ((parsePayload_commits payload).weaken failed_of_failing)
  intro params hparams
  -- what comes after the two checks of the list
  have hrest : ∀ texts, (Json.lookup params "topics").bind stringsFromValue = some texts →
      Commits (do
        let topics ← parseTopics texts
        let clientId ← subscriber params clientId
        acquire ServerState.stateLock "Failed to acquire server state lock: "
        enqueue (message clientId topics)
        return (WebSocketMessage.success ("Successfully " ++ done ++ " topics: " ++
          ", ".intercalate (topics.map SubscriptionTopic.asStr))).toJson) s
        (fun text s' => Answers text ∧ ∃ params id topics, paramsOf env payload = .ok params ∧
          subscriberOf params clientId = some id ∧ topicsOf params = some topics ∧
          s' = s.pushing [message id topics]) failed := by
    intro texts htexts
    apply Commits.bindRead (parseTopics_commits texts)
    intro topics htopics
    apply Commits.bindRead (subscriber_commits params clientId)
    intro id hid
    apply Commits.bindRead (acquire_returns _ hs.stateLock).ends
    intro _ _
    refine .inl ⟨_, _, rfl, answers .success _ (by decide), params, id, topics, hparams, hid, ?_,
      rfl⟩
    unfold topicsOf
    rw [htexts]
    exact htopics
  cases hlookup : Json.lookup params "topics" with
  | none =>
    exact commits_bail_bind _
  | some topicsValue =>
    cases hvalue : stringsFromValue topicsValue with
    | none =>
      simp only [hvalue]
      exact commits_bail_bind _
    | some texts =>
      simp only [hvalue]
      apply hrest texts
      rw [hlookup]
      exact hvalue

/-! ## Every command -/

/-- Nothing is asked of the reason for which any other command is refused. -/
theorem refusable_of_not_writesMap {type : CommandType} {payload : String}
    (h : type.writesMap = false) : Refusable env s ⟨type, payload⟩ := by
  intro params process _ _
  cases type with
  | addProcess => cases h
  | deleteProcess => cases h
  | _ => trivial

/-- **A command** has its outcome, or fails in one of three ways. -/
theorem handleCommand_ends (hs : Healthy s) (clientId : Option Nat) (command : WebSocketCommand) :
    Ends (handleCommand (env.onDatabase driver) clientId command) s
      (fun text s' => Answers text ∧ Outcome env clientId command s s')
      (CommandFailure env command s) := by
  obtain ⟨type, payload⟩ := command
  -- a command that asks for something
  have hasks : ∀ {handler : HandlerM World String}, type.asks → type.writesMap = false →
      Commits handler s (asking s Answers) failed →
      Ends handler s (fun text s' => Answers text ∧ Outcome env clientId ⟨type, payload⟩ s s')
        (CommandFailure env ⟨type, payload⟩ s) := by
    intro handler htype hwrites h
    apply Ends.imp (Ends.weaken h _)
    · rintro _ _ ⟨hs', hanswers⟩
      exact ⟨hanswers, .asked htype hs'⟩
    · rintro _ _ ⟨hs', text, rfl⟩
      exact .refused (refusable_of_not_writesMap hwrites) hs'
  -- a command that changes something
  have hdone : ∀ {handler : HandlerM World String},
      Ends handler s (fun text s' => Answers text ∧ ∃ params s₁,
        WebSocketCommand.params env ⟨type, payload⟩ = .ok params ∧
        Effect env clientId params s type s₁ ∧ s' ≈ s₁) (CommandFailure env ⟨type, payload⟩ s) →
      Ends handler s (fun text s' => Answers text ∧ Outcome env clientId ⟨type, payload⟩ s s')
        (CommandFailure env ⟨type, payload⟩ s) := by
    intro handler h
    apply h.imp
    rintro _ _ ⟨hanswers, params, s₁, hparams, heffect, hs'⟩
    exact ⟨hanswers, .changed hparams heffect hs'⟩
  have hcommits : ∀ {handler : HandlerM World String} {post : String → ServerState World → Prop},
      type.writesMap = false → Commits handler s post failed →
      Ends handler s post (CommandFailure env ⟨type, payload⟩ s) := by
    intro handler post hwrites h
    apply Ends.weaken h
    rintro _ _ ⟨hs', text, rfl⟩
    exact .refused (refusable_of_not_writesMap hwrites) hs'
  cases type with
  | getApps => exact hasks rfl rfl (handleGetApps_commits hs)
  | getTimeline => exact hasks rfl rfl (handleGetTimeline_commits hs)
  | getAppByName => exact hasks rfl rfl (handleGetAppByName_commits hs payload)
  | getTrackingStatus => exact hasks rfl rfl (handleGetTrackingStatus_commits hs)
  | getStatistics => exact hasks rfl rfl (handleGetStatistics_commits hs)
  | getSessionCounts => exact hasks rfl rfl (handleGetSessionCounts_commits hs)
  | getCheckpoints => exact hasks rfl rfl (handleGetCheckpoints_commits hs payload)
  | getActiveCheckpoints => exact hasks rfl rfl (handleGetActiveCheckpoints_commits hs payload)
  | getCheckpointStats => exact hasks rfl rfl (handleGetCheckpointStats_commits hs payload)
  | addProcess => exact hdone (handleAddProcess_ends hs payload clientId)
  | deleteProcess => exact hdone (handleDeleteProcess_ends hs payload clientId)
  | setActiveCheckpoint => exact hdone (handleSetActiveCheckpoint_ends hs payload clientId)
  | createCheckpoint =>
    exact hdone (hcommits rfl (handleCreateCheckpoint_commits hs payload clientId))
  | deleteCheckpoint =>
    exact hdone (hcommits rfl (handleDeleteCheckpoint_commits hs payload clientId))
  | updateConfig => exact hdone (hcommits rfl (handleUpdateConfig_commits hs payload clientId))
  | subscribe =>
    apply hdone
    apply Ends.imp (hcommits rfl (handleTopics_commits hs .subscribe _ payload clientId))
    rintro _ _ ⟨hanswers, params, id, topics, hparams, hid, htopics, rfl⟩
    exact ⟨hanswers, params, _, hparams, .subscribe hid htopics, Setoid.refl _⟩
  | unsubscribe =>
    apply hdone
    apply Ends.imp (hcommits rfl (handleTopics_commits hs .unsubscribe _ payload clientId))
    rintro _ _ ⟨hanswers, params, id, topics, hparams, hid, htopics, rfl⟩
    exact ⟨hanswers, params, _, hparams, .unsubscribe hid htopics, Setoid.refl _⟩

/-! ## Every text -/

/-- What is sent back for the result of a handler. -/
def replyOf : Except Stop String → Option String
  | .ok responseText => some responseText
  | .error (.error e) => some (WebSocketMessage.error e).toJson
  | .error .panic => none

/-- What a text leaves behind, and the reply: it is a command that has been done, or one that has
failed, or no command. -/
inductive Handled (env : Environment World) (clientId : Nat) (text : String)
    (s : ServerState World) : Option String → ServerState World → Prop where
  | done {command : WebSocketCommand} {reply : String} {s' : ServerState World}
      (hcommand : env.commandFromStr text = .ok command) (hreply : Answers reply)
      (h : Outcome env (some clientId) command s s') : Handled env clientId text s (some reply) s'
  | failed {command : WebSocketCommand} {stop : Stop} {s' : ServerState World}
      (hcommand : env.commandFromStr text = .ok command)
      (h : CommandFailure env command s stop s') :
      Handled env clientId text s (replyOf (.error stop)) s'
  | unread {e : String} (hcommand : env.commandFromStr text = .error e) :
      Handled env clientId text s (some (WebSocketMessage.error e).toJson) s

/-- The result of the handler is turned into the reply: an error becomes an error message, and after
a panic there is none. -/
theorem handleClientMessage_run {σ : Type} {env : Environment σ} {s s' : ServerState σ}
    {text : String} {clientId : Nat} {result : Except Stop String}
    (h : (handleMessageWithClientId env text (some clientId)).run.run s = (result, s')) :
    (handleClientMessage env text clientId).run s = (replyOf result, s') := by
  unfold handleClientMessage
  rw [StateT.run_bind, h]
  cases result with
  | ok responseText => rfl
  | error stop => cases stop <;> rfl

/-- **A text** is answered, or its connection dies on the lock of `PROCESS_MAP`. -/
theorem handleClientMessage_handled (hs : Healthy s) (text : String) (clientId : Nat) :
    ∃ reply s', (handleClientMessage (env.onDatabase driver) text clientId).run s =
      (reply, s') ∧ Handled env clientId text s reply s' := by
  cases hcommand : (env.onDatabase driver).commandFromStr text with
  | error e =>
    have hrun : (handleMessageWithClientId (env.onDatabase driver) text (some clientId)).run.run s =
        (.error (.error e), s) := by
      simp only [handleMessageWithClientId, hcommand]
      rfl
    exact ⟨_, s, handleClientMessage_run hrun, .unread hcommand⟩
  | ok command =>
    have hsame : handleMessageWithClientId (env.onDatabase driver) text (some clientId) =
        handleCommand (env.onDatabase driver) (some clientId) command := by
      simp only [handleMessageWithClientId, hcommand]
    have hends : Ends (handleCommand (env.onDatabase driver) (some clientId) command) s _ _ :=
      handleCommand_ends hs (some clientId) command
    rw [← hsame] at hends
    rcases hends with ⟨reply, s', hrun, hreply, houtcome⟩ | ⟨stop, s', hrun, hfailure⟩
    · exact ⟨_, s', handleClientMessage_run hrun, .done hcommand hreply houtcome⟩
    · exact ⟨_, s', handleClientMessage_run hrun, .failed hcommand hfailure⟩

end

end TimeTracker
