import TimeTracker.FrontEnds
import TimeTracker.ProcessNames
import TimeTracker.ScanPass
import TimeTracker.SoundTables

/-!
# The program and its front ends

The threads of the tracker together with everything that comes in from outside: texts of WebSocket
clients, JSON-RPC requests, the hotkeys, the program run once more on the command line, and the end
of it all and a new start. A request runs whole, from its first statement to its last, and the
database may refuse any of them. Before it and after it any thread may move, and the event loop may
be in the middle of an event. Two requests that overlap are another matter (`ConcurrentAdds`,
`ProcessNames`).

* `Program.step`: one step of a thread, or one request, at any time.
* **`soundTables`**: the tables are sound in every reachable state.
* **`everyTextAnswered`**: in every reachable state every text is answered, but for the adds and
  deletes that come after the scanner has died. An error says that nothing is changed, but for an
  activation that is stopped half way.
* **`mapFollowsTable`**: `PROCESS_MAP` has the names of the table, but for those that came from the
  command line.
* **`servesRegistry`**: the answers given and the names tracked in a run are those of the registry,
  asked the same requests in the same order.
-/

namespace TimeTracker

open Json (Value)
open Transaction Transition

/-! ## Requests

A request is a text of a WebSocket client, a call of JSON-RPC or a hotkey. Each runs one of the
handlers of `FrontEnds`, so all that is known of it is `Served`. -/

/-- What comes in from outside. -/
inductive Request where
  | message (clientId : Nat) (text : String)
  | rpc (method : RpcMethod) (params : RpcParams)
  | hotkey (window : Option String × Option String)

/-- What goes out. -/
inductive Reply where
  | message (reply : Option String)
  | rpc (result : Except Stop (Except ErrorCode Value))
  | hotkey (result : Except Stop (Option Bool))

section
variable {σ : Type}

def Request.run (env : Environment σ) : Request → ServerState σ → Reply × ServerState σ
  | .message clientId text, s =>
    let (reply, s') := (handleClientMessage env text clientId).run s
    (.message reply, s')
  | .rpc method params, s =>
    let (result, s') := (handleRpc env params method).run.run s
    (.rpc result, s')
  | .hotkey window, s =>
    let (result, s') := (hotkeyAdd env window).run.run s
    (.hotkey result, s')

end

/-- What a request asks of the registry. -/
def Request.asks (env : Environment World) : Request → Option Registry.Request
  | .message _ text => messageRequest env text
  | .rpc method params => rpcRequest params method
  | .hotkey window => hotkeyRequest window

/-- The registry's answer in a response. -/
def Reply.answer : Reply → Option Registry.Answer
  | .message reply => messageAnswer reply
  | .rpc result => rpcAnswer result
  | .hotkey result => hotkeyAnswer result

/-- What is known of every request: it moves the state, and the names change as in the registry. -/
def Served (env : Environment World) (asks : Option Registry.Request) (s : ServerState World)
    (answer : Option Registry.Answer) (s' : ServerState World) : Prop :=
  Moved env s s' ∧
    match asks with
    | some request => Registry.Serves env request s answer s'
    | none => s'.world.db.tracked = s.world.db.tracked

section
variable {driver : Driver} {env : Environment World} {s s' : ServerState World}

/-- What a command changes is one of the moves. -/
theorem Effect.moves {clientId : Option Nat} {params : Params} {type : CommandType}
    (h : Effect env clientId params s type s') : Moves env s s' := by
  cases h with
  | addProcess _ _ hdb hs₁ => exact .added hdb hs₁
  | deleteProcess _ _ hs₁ => exact .deleted hs₁
  | createCheckpoint _ _ hdb => exact .checkpoints hdb
  | setActiveCheckpoint _ hdb => exact .checkpoints hdb
  | deleteCheckpoint _ hdb => exact .checkpoints hdb
  | updateConfig => exact .configured _
  | subscribe => exact .subscribed _ _
  | unsubscribe => exact .unsubscribed _ _

/-- And so is what a command leaves behind that has failed. -/
theorem CommandFailure.moved {command : WebSocketCommand} {stop : Stop}
    (h : CommandFailure env command s stop s') : Moved env s s' := by
  obtain ⟨type, payload⟩ := command
  cases h with
  | refused _ hs' => exact ⟨s, .stays, hs'⟩
  | stopped _ hhalf =>
    cases hhalf with
    | setActiveCheckpoint _ _ hdb hs' => exact ⟨_, .halfActivated hdb, hs'⟩
  | died hmap _ htorn =>
    cases htorn with
    | addProcess _ _ hdb hs' => exact ⟨_, .addTorn hmap hdb, hs'⟩
    | deleteProcess _ _ hs' => exact ⟨_, .deleteTorn _ hmap, hs'⟩

/-- So every text moves the state, whatever becomes of it. -/
theorem Handled.moved {clientId : Nat} {text : String} {reply : Option String}
    (h : Handled env clientId text s reply s') : Moved env s s' := by
  cases h with
  | done _ _ houtcome =>
    cases houtcome with
    | asked _ hs' => exact ⟨s, .stays, hs'⟩
    | changed _ heffect hs' => exact ⟨_, heffect.moves, hs'⟩
  | failed _ hfailure => exact hfailure.moved
  | unread => exact Moves.stays.moved

/-- A request to the WebSocket server, -/
theorem run_message {env : Environment World} {clientId : Nat} {text : String}
    {reply : Option String} (h : (handleClientMessage env text clientId).run s = (reply, s')) :
    (Request.message clientId text).run env s = (.message reply, s') := by
  rw [Request.run, h]

/-- to the RPC server, -/
theorem run_rpc {env : Environment World} {method : RpcMethod} {params : RpcParams}
    {result : Except Stop (Except ErrorCode Value)}
    (h : (handleRpc env params method).run.run s = (result, s')) :
    (Request.rpc method params).run env s = (.rpc result, s') := by
  rw [Request.run, h]

/-- and by hotkey. -/
theorem run_hotkey {env : Environment World} {window : Option String × Option String}
    {result : Except Stop (Option Bool)} (h : (hotkeyAdd env window).run.run s = (result, s')) :
    (Request.hotkey window).run env s = (.hotkey result, s') := by
  rw [Request.run, h]

/-- **Every request** is served. -/
theorem Request.served (hs : Healthy s) (request : Request) :
    Served env (request.asks env) s (request.run (env.onDatabase driver) s).1.answer
      (request.run (env.onDatabase driver) s).2 := by
  cases request with
  | message clientId text =>
    have hhandled : ∃ reply s', (handleClientMessage (env.onDatabase driver) text clientId).run s =
        (reply, s') ∧ Handled env clientId text s reply s' := handleClientMessage_handled hs _ _
    obtain ⟨reply, s', hrun, hhandled⟩ := hhandled
    rw [run_message hrun]
    exact ⟨hhandled.moved, message_serves hhandled⟩
  | rpc method params =>
    have hserved : ∃ result s', (handleRpc (env.onDatabase driver) params method).run.run s =
        (result, s') ∧ RpcServed env (rpcRequest params method) s result s' := rpc_serves hs _ _
    obtain ⟨result, s', hrun, hserved⟩ := hserved
    rw [run_rpc hrun]
    show Served env (rpcRequest params method) s _ s'
    cases hasks : rpcRequest params method with
    | none =>
      rw [hasks] at hserved
      obtain ⟨rfl, rfl⟩ := hserved
      exact ⟨Moves.stays.moved, rfl⟩
    | some request =>
      rw [hasks] at hserved
      exact ⟨hserved.moved, hserved⟩
  | hotkey window =>
    obtain ⟨_ | path, _ | name⟩ := window
    · exact ⟨Moves.stays.moved, rfl⟩
    · exact ⟨Moves.stays.moved, rfl⟩
    · exact ⟨Moves.stays.moved, rfl⟩
    · have hserves : ∃ result s', (hotkeyAdd (env.onDatabase driver)
          (some path, some name)).run.run s = (result, s') ∧
          Registry.Serves env (.add name) s (hotkeyAnswer result) s' := hotkeyAdd_serves hs _ _
      obtain ⟨result, s', hrun, hserves⟩ := hserves
      rw [run_hotkey hrun]
      exact ⟨hserves.moved, hserves⟩

end

/-! ## What a request leaves alone -/

section
variable {env : Environment World} {s s' : ServerState World}

/-- No lock is poisoned by a request. -/
theorem Moved.locks (h : Moved env s s') :
    s'.stateLock = s.stateLock ∧ s'.clientLock = s.clientLock ∧ s'.configLock = s.configLock := by
  obtain ⟨s₁, h, _, -, rfl⟩ := h
  cases h with
  | added _ hs₁ =>
    subst hs₁
    exact ⟨rfl, rfl, rfl⟩
  | deleted hs₁ =>
    subst hs₁
    exact ⟨rfl, rfl, rfl⟩
  | _ => exact ⟨rfl, rfl, rfl⟩

/-- **A request keeps the tables sound**, half an activation included. -/
theorem Moved.sound (h : Moved env s s') (hsound : s.world.db.Sound) : s'.world.db.Sound := by
  obtain ⟨s₁, h, hs'⟩ := h
  rw [db_of_equiv hs']
  cases h with
  | stays => exact hsound
  | added hdb hs₁ =>
    subst hs₁
    exact hsound.insertApp hdb.new hdb.stored
  | addTorn _ hdb => exact hsound.insertApp hdb.new hdb.stored
  | deleted hs₁ =>
    subst hs₁
    exact hsound.deleteApps _
  | deleteTorn name _ => exact hsound.deleteApps name
  | checkpoints hcall => exact hsound.completes hcall
  | halfActivated hhalf => exact hsound.halfDone hhalf
  | configured _ => exact hsound
  | subscribed _ _ => exact hsound
  | unsubscribed _ _ => exact hsound

/-- The entries are read from `timeline` alone. -/
theorem entries_of_timeline {db db' : Store} (h : db'.timeline = db.timeline) :
    db'.timelineEntries = db.timelineEntries := by
  rw [Store.timelineEntries, h, Store.timelineEntries]

/-- A checkpoint that is deleted is taken out of its rows, which keep their app, their day and their
minutes. -/
theorem CheckpointCall.Completes.entries {call : CheckpointCall} {db db' : Store} {r : CallResult}
    (h : call.Completes db r db') : db'.timelineEntries = db.timelineEntries := by
  rcases h.tables.2 with htimeline | ⟨id, rfl⟩
  · exact entries_of_timeline htimeline
  · exact entries_deleteCheckpoint db id

/-- A new app has no entries. -/
theorem entries_insertApp {db db' : Store} {app : Apps.Model} (h : db.insertApp app = .ok db') :
    db'.timelineEntries = db.timelineEntries := by
  obtain ⟨_, -, rfl⟩ := Store.insertApp_eq_ok.mp h
  rfl

/-- A request adds no row to the timeline and counts in none. -/
theorem Moved.entries (h : Moved env s s') :
    s'.world.db.timelineEntries.Sublist s.world.db.timelineEntries := by
  obtain ⟨s₁, h, hs'⟩ := h
  rw [db_of_equiv hs']
  cases h with
  | stays => exact List.Sublist.refl _
  | added hdb hs₁ =>
    subst hs₁
    rw [← entries_insertApp hdb.stored]
    exact List.Sublist.refl _
  | addTorn _ hdb =>
    rw [← entries_insertApp hdb.stored]
    exact List.Sublist.refl _
  | deleted hs₁ =>
    subst hs₁
    exact entries_deleteApps_sublist _ _
  | deleteTorn name _ => exact entries_deleteApps_sublist _ _
  | checkpoints hcall =>
    rw [← hcall.entries]
    exact List.Sublist.refl _
  | halfActivated hhalf =>
    rw [← entries_of_timeline hhalf.timeline]
    exact List.Sublist.refl _
  | configured _ => exact List.Sublist.refl _
  | subscribed _ _ => exact List.Sublist.refl _
  | unsubscribed _ _ => exact List.Sublist.refl _

/-- With a map that has only names of the table, and its lock not poisoned: the map keeps the names
it has and gets the new ones, as far as they are in the table then. -/
theorem Moved.mem_processMap (h : Moved env s s') (hmap : s.processMapLock ≠ .poisoned)
    (hsub : ∀ p ∈ s.processMap, p ∈ s.world.db.appNames) (p : String) :
    p ∈ s'.processMap ↔
      (p ∈ s.processMap ∨ p ∉ s.world.db.appNames) ∧ p ∈ s'.world.db.appNames := by
  obtain ⟨s₁, h, _, ⟨errs, rfl⟩, rfl⟩ := h
  show p ∈ s₁.processMap ↔
    (p ∈ s.processMap ∨ p ∉ s.world.db.appNames) ∧ p ∈ s₁.world.db.appNames
  have hsame : s₁.processMap = s.processMap → s₁.world.db.appNames = s.world.db.appNames →
      (p ∈ s₁.processMap ↔
        (p ∈ s.processMap ∨ p ∉ s.world.db.appNames) ∧ p ∈ s₁.world.db.appNames) := by
    intro hsame hnames
    rw [hsame, hnames]
    have := hsub p
    tauto
  cases h with
  | stays => exact hsame rfl rfl
  | @added name path db _ hdb hs₁ =>
    subst hs₁
    show p ∈ s.processMap.insert name (false, false) ↔ _ ∧ p ∈ db.appNames
    have hname : (AddProcess.newApp name ((env.verQueryValue path).getD name)
        (Store.nextId s.world.db.apps.maxKey)).name = some p ↔ p = name := by
      show some name = some p ↔ _
      rw [Option.some.injEq]
      exact eq_comm
    rw [Finmap.mem_insert, Store.mem_appNames_insertApp hdb.stored, hname]
    have := hsub p
    have : p = name → p ∉ s.world.db.appNames := fun heq => heq ▸ hdb.new
    tauto
  | addTorn hpoisoned => exact absurd hpoisoned hmap
  | @deleted name _ hs₁ =>
    subst hs₁
    show p ∈ s.processMap.erase name ↔ _ ∧ p ∈ (s.world.db.deleteApps name).appNames
    rw [Finmap.mem_erase, Store.mem_appNames_deleteApps]
    have := hsub p
    tauto
  | deleteTorn name hpoisoned => exact absurd hpoisoned hmap
  | checkpoints hcall => exact hsame rfl (appNames_of_apps hcall.tables.1)
  | halfActivated hhalf => exact hsame rfl (appNames_of_apps hhalf.apps)
  | configured _ => exact hsame rfl rfl
  | subscribed _ _ => exact hsame rfl rfl
  | unsubscribed _ _ => exact hsame rfl rfl

end

/-! ## The program -/

/-- The requests that lock `PROCESS_MAP`. -/
def Registry.Request.writes : Registry.Request → Bool
  | .add _ | .delete _ => true
  | .list => false

/-- The threads of the tracker, and what the front ends keep besides. The calls of the tracker's own
machine are not used: requests are run whole. -/
structure Program where
  threads : Config
  stateLock : Lock
  clientLock : Lock
  trackingStatusLock : Lock
  configLock : Lock
  config : TimeTrackingConfig
  broadcasts : List BroadcastMessage

/-- What can happen. The database may refuse any of the statements of a request, or that of a step
of a thread. -/
inductive Action where
  | thread (l : Label)
  | request (r : Request) (now : NaiveDateTime) (errs : List (Option String))
  /-- the hotkey for `pause` -/
  | pause
  /-- the program, with the subcommand `add` -/
  | commandLine (processName path : String) (now : NaiveDateTime) (errs : List (Option String))
  /-- the end of the program, wherever its threads are, and `init` -/
  | restart (config : TimeTrackingConfig)

namespace Program

/-- The program as `init` starts it. -/
def initial (platform : Platform) (db : Store) (config : TimeTrackingConfig) : Program where
  threads := .initial platform db []
  stateLock := .healthy
  clientLock := .healthy
  trackingStatusLock := .healthy
  configLock := .healthy
  config := config
  broadcasts := []

abbrev db (p : Program) : Store := p.threads.shared.db

abbrev processMap (p : Program) : ProcessMap := p.threads.shared.processMap

abbrev mapLock (p : Program) : MapLock := p.threads.shared.mapLock

/-- The world a request finds. -/
def world (p : Program) (now : NaiveDateTime) (errs : List (Option String)) : World :=
  ⟨p.db, now, errs⟩

/-- The state a request finds. -/
def server (p : Program) (now : NaiveDateTime) (errs : List (Option String)) :
    ServerState World where
  world := p.world now errs
  stateLock := p.stateLock
  clientLock := p.clientLock
  trackingStatusLock := p.trackingStatusLock
  configLock := p.configLock
  processMapLock := if p.mapLock = .poisoned then .poisoned else .healthy
  processMap := p.processMap
  trackingStatus := p.threads.shared.trackingStatus
  config := p.config
  hasActiveBroadcaster := p.threads.shared.broadcaster
  broadcasts := p.broadcasts

/-- The state a request leaves behind. -/
def after (p : Program) (s : ServerState World) : Program where
  threads := { p.threads with
    shared := { p.threads.shared with
      db := s.world.db
      processMap := s.processMap
      trackingStatus := s.trackingStatus
      broadcaster := s.hasActiveBroadcaster } }
  stateLock := s.stateLock
  clientLock := s.clientLock
  trackingStatusLock := s.trackingStatusLock
  configLock := s.configLock
  config := s.config
  broadcasts := s.broadcasts

/-- The program with other tables. -/
def withTables (p : Program) (db : Store) : Program :=
  { p with threads := { p.threads with shared := { p.threads.shared with db } } }

def step (driver : Driver) (env : Environment World) (p : Program) : Action → Option Program
  | .thread l =>
    if l.isCall then none
    else (tracker.step p.threads l).map fun threads => { p with threads }
  | .request r now errs =>
    -- an add or a delete waits while a session worker has the lock of `PROCESS_MAP`, for a tick
    if p.mapLock = .held ∧ (r.asks env).any Registry.Request.writes then none
    else some (p.after (r.run (env.onDatabase driver) (p.server now errs)).2)
  | .pause =>
    let shared := p.threads.shared
    some { p with threads := { p.threads with shared := { shared with pause := !shared.pause } } }
  | .commandLine processName path now errs =>
    some (p.withTables
      (commandLineAdd (env.onDatabase driver) processName path (p.world now errs)).2.db)
  | .restart config => some (initial p.threads.shared.platform p.db config)

end Program

/-- The program as a transition system. -/
def program (driver : Driver) (env : Environment World) : System Program Action :=
  ⟨Program.step driver env⟩

/-- Tables without rows. -/
def noTables : Store := ⟨.sqlite, .empty, .empty, .empty, .empty⟩

/-- A driver that counts the rows. -/
def countingDriver : Driver := ⟨fun db => db.checkpoints.rows.length + 1, fun _ => "refused"⟩

/-- An add by JSON-RPC and one on the command line, a scan that begins, and two more requests, one
of them refused. -/
def someActions : List Action :=
  [.request (.rpc .addProcess (.array [.str "a", .str "a.exe"])) .unixEpoch [],
    .commandLine "b" "b.exe" .unixEpoch [],
    .thread (.scan { now := .unixEpoch, order := ["a"] }),
    .request (.rpc .deleteProcess (.array [.str "c"])) .unixEpoch [some "refused"],
    .request (.rpc .getProcesses .none) .unixEpoch []]

/-- The actions can be taken one after the other, and the scanner lives. -/
theorem runs_someActions :
    ∃ p, (program countingDriver epochEnvironment).Runs (fun _ _ => True)
        (.initial .linux noTables ⟨60000, 10000⟩) someActions p ∧ p.threads.scanner ≠ .panicked :=
  ⟨_, System.runs_of_exec rfl, by decide⟩

/-! ## What a step of the program can do -/

section
variable {driver : Driver} {env : Environment World} {p p' : Program}

/-- A thread moves as it does in the tracker's own machine, where the calls are left out. -/
theorem Program.step_thread {l : Label} (h : (program driver env).step p (.thread l) = some p') :
    l.isCall = false ∧ ∃ threads, tracker.step p.threads l = some threads ∧
      p' = { p with threads } := by
  change (if l.isCall then none else _) = _ at h
  cases hl : l.isCall with
  | true =>
    rw [if_pos hl] at h
    cases h
  | false =>
    rw [if_neg (by rw [hl]; decide)] at h
    obtain ⟨threads, hstep, rfl⟩ := Option.map_eq_some_iff.mp h
    exact ⟨rfl, threads, hstep, rfl⟩

/-- What the command line stores, it has stored as any other add. -/
theorem Program.step_commandLine {processName path : String} {now : NaiveDateTime}
    {errs : List (Option String)}
    (h : (program driver env).step p (.commandLine processName path now errs) = some p') :
    ∃ result s', commandLineAdd (env.onDatabase driver) processName path (p.world now errs) =
        (result, s'.world) ∧
      Registry.Serves env (.add processName) (.commandLine (p.world now errs)) (answerOf result)
        s' ∧
      p' = p.withTables s'.world.db := by
  obtain ⟨result, s', hrun, hserves⟩ :=
    commandLineAdd_serves driver env processName path (p.world now errs)
  refine ⟨result, s', hrun, hserves, ?_⟩
  have hstep : p.withTables (commandLineAdd (env.onDatabase driver) processName path
      (p.world now errs)).2.db = p' := Option.some.inj h
  rw [← hstep, hrun]

end

/-! ## Locks

The handlers take the locks with `unwrap` or with an error, so they depend on none of them being
poisoned. A lock is poisoned by a thread that panics while it has it; requests never do that, and of
the threads only the scanner does. -/

/-- No lock of the server is ever poisoned, and that of `PROCESS_MAP` only by the scanner. -/
structure LocksHealthy (p : Program) : Prop where
  stateLock : p.stateLock = .healthy
  clientLock : p.clientLock = .healthy
  configLock : p.configLock = .healthy
  poisoned : poisonedByScanner p.threads

section
variable {driver : Driver} {env : Environment World} {p p' : Program}

/-- `init` makes new locks. -/
theorem locksHealthy_initial (platform : Platform) (db : Store) (config : TimeTrackingConfig) :
    LocksHealthy (.initial platform db config) := by
  refine ⟨rfl, rfl, rfl, ?_⟩
  intro hlock
  cases hlock

/-- So a request finds the locks it needs sound. -/
theorem LocksHealthy.healthy (hlocks : LocksHealthy p) (now : NaiveDateTime)
    (errs : List (Option String)) : Healthy (p.server now errs) :=
  ⟨hlocks.stateLock, hlocks.clientLock, hlocks.configLock⟩

/-- The state a request finds has the lock of `PROCESS_MAP` poisoned if the program has. -/
theorem poisoned_of_server {now : NaiveDateTime} {errs : List (Option String)}
    (h : (p.server now errs).processMapLock = .poisoned) : p.mapLock = .poisoned := by
  change (if p.mapLock = .poisoned then Lock.poisoned else .healthy) = .poisoned at h
  by_cases hlock : p.mapLock = .poisoned
  · exact hlock
  · rw [if_neg hlock] at h
    cases h

/-- A request that is not kept waiting is served. -/
theorem LocksHealthy.step_request (hlocks : LocksHealthy p) {r : Request} {now : NaiveDateTime}
    {errs : List (Option String)}
    (h : (program driver env).step p (.request r now errs) = some p') :
    ∃ reply s', r.run (env.onDatabase driver) (p.server now errs) = (reply, s') ∧
      Served env (r.asks env) (p.server now errs) reply.answer s' ∧ p' = p.after s' := by
  refine ⟨_, _, rfl, r.served (hlocks.healthy now errs), ?_⟩
  change (if p.mapLock = .held ∧ (r.asks env).any Registry.Request.writes then none else _) = _ at h
  by_cases hwaits : p.mapLock = .held ∧ (r.asks env).any Registry.Request.writes
  · rw [if_pos hwaits] at h
    cases h
  · rw [if_neg hwaits] at h
    exact (Option.some.inj h).symm

/-- No step poisons a lock but one of the scanner, and that is the lock of `PROCESS_MAP`. -/
theorem locksHealthy_step {a : Action} (hlocks : LocksHealthy p)
    (h : (program driver env).step p a = some p') : LocksHealthy p' := by
  cases a with
  | thread l =>
    obtain ⟨-, threads, hstep, rfl⟩ := Program.step_thread h
    exact { hlocks with poisoned := poisonedByScanner_step hlocks.poisoned hstep }
  | request r now errs =>
    obtain ⟨_, s', -, ⟨hmoved, -⟩, rfl⟩ := hlocks.step_request h
    obtain ⟨hstate, hclient, hconfig⟩ := hmoved.locks
    exact {
      stateLock := hstate.trans hlocks.stateLock
      clientLock := hclient.trans hlocks.clientLock
      configLock := hconfig.trans hlocks.configLock
      poisoned := hlocks.poisoned }
  | pause =>
    cases h
    exact ⟨hlocks.stateLock, hlocks.clientLock, hlocks.configLock, hlocks.poisoned⟩
  | commandLine processName path now errs =>
    obtain ⟨_, s', -, -, rfl⟩ := Program.step_commandLine h
    exact ⟨hlocks.stateLock, hlocks.clientLock, hlocks.configLock, hlocks.poisoned⟩
  | restart config =>
    cases h
    exact locksHealthy_initial _ _ _

variable {ok : Program → Action → Prop} {platform : Platform} {db : Store}
  {config : TimeTrackingConfig} {actions : List Action}

/-- The locks are sound in every state of a run. -/
theorem locksHealthy_of_runs
    (h : (program driver env).Runs ok (.initial platform db config) actions p) : LocksHealthy p :=
  h.invariant (fun _ _ _ hlocks _ hstep => locksHealthy_step hlocks hstep)
    (locksHealthy_initial platform db config)

/-! ## Every text is answered -/

/-- The tables are sound, and the event loop has what it relies on. -/
structure TablesInvariant (p : Program) : Prop where
  sound : p.db.Sound
  timeline : TimelineInvariant p.threads

/-- At the start the event loop is idle, and relies on nothing. -/
theorem tablesInvariant_initial (hsound : db.Sound) :
    TablesInvariant (.initial platform db config) := by
  refine ⟨hsound, hsound.days, ?_⟩
  intro _ _ hloop
  cases hloop

/-- A step of a thread: only the statements of the event loop write to the tables. -/
theorem Store.Sound.step {c c' : Config} {l : Label} (hsound : c.shared.db.Sound)
    (htimeline : TimelineInvariant c) (hl : l.isCall = false) (h : tracker.step c l = some c') :
    c'.shared.db.Sound := by
  obtain ⟨-, hdb | ⟨inp, loop, events, hstep⟩⟩ := step_db_of_not_call hl h
  · rw [hdb]
    exact hsound
  rcases EventLoop.step_cases hstep with ⟨_, -, -, hdb, -⟩ | ⟨event, hd, next, hloop, -, hrun, -⟩
  · rw [hdb]
    exact hsound
  · exact hsound.handlerStep (htimeline.awaits event hd hloop) hrun

/-- A step of the program is one of the event loop, which keeps the tables sound by the lemmas of
`SoundTables`, or a request, or it writes nothing. -/
theorem tablesInvariant_step {a : Action} (hlocks : LocksHealthy p) (hinv : TablesInvariant p)
    (h : (program driver env).step p a = some p') : TablesInvariant p' := by
  cases a with
  | thread l =>
    obtain ⟨hl, threads, hstep, rfl⟩ := Program.step_thread h
    constructor
    · exact hinv.sound.step hinv.timeline hl hstep
    · exact timelineInvariant_step _ _ _ hinv.timeline hstep
  | request r now errs =>
    obtain ⟨_, s', -, ⟨hmoved, -⟩, rfl⟩ := hlocks.step_request h
    constructor
    · exact hmoved.sound hinv.sound
    · exact hinv.timeline.of_sublist rfl hmoved.entries
  | pause =>
    cases h
    exact ⟨hinv.sound, hinv.timeline.days, hinv.timeline.awaits⟩
  | commandLine processName path now errs =>
    obtain ⟨_, s', -, hserves, rfl⟩ := Program.step_commandLine h
    constructor
    · exact hserves.moved.sound hinv.sound
    · exact hinv.timeline.of_sublist rfl hserves.moved.entries
  | restart config =>
    cases h
    exact tablesInvariant_initial hinv.sound

/-- **The tables are sound** in every state that can be reached from sound tables. -/
theorem soundTables (hsound : db.Sound)
    (h : (program driver env).Runs ok (.initial platform db config) actions p) : p.db.Sound := by
  have hinv : LocksHealthy p ∧ TablesInvariant p := by
    apply h.invariant
    · intro _ _ _ hinv _ hstep
      exact ⟨locksHealthy_step hinv.1 hstep, tablesInvariant_step hinv.1 hinv.2 hstep⟩
    · exact ⟨locksHealthy_initial platform db config, tablesInvariant_initial hsound⟩
  exact hinv.2.sound

/-- From empty tables, which are sound. -/
theorem soundTables_someActions :
    ∃ p, (program countingDriver epochEnvironment).Runs (fun _ _ => True)
        (.initial .linux noTables ⟨60000, 10000⟩) someActions p ∧ p.db.Sound := by
  obtain ⟨p, hrun, -⟩ := runs_someActions
  exact ⟨p, hrun, soundTables (Store.sound_empty .sqlite) hrun⟩

end

/-! ## `PROCESS_MAP` and the table -/

/-- These names after a request: a name may be deleted. -/
def namesLeft (names : Finset String) (w : World) : Option Registry.Request → Finset String
  | some (.delete name) => if w.serves 1 then names.erase name else names
  | _ => names

/-- The names that the command line has put into the table since the last start, and that nobody has
deleted. -/
def outside (driver : Driver) (env : Environment World) (names : Finset String) (p : Program) :
    Action → Finset String
  | .request r now errs => namesLeft names (p.world now errs) (r.asks env)
  | .commandLine processName path now errs =>
    let (result, _) := commandLineAdd (env.onDatabase driver) processName path (p.world now errs)
    if answerOf result = some .done then insert processName names else names
  | .restart _ => ∅
  | _ => names

/-- While the scanner lives, the map has the names of the table but for these. -/
structure MapInvariant (names : Finset String) (p : Program) : Prop where
  locks : LocksHealthy p
  subset : names ⊆ p.db.tracked
  mapped : p.threads.scanner ≠ .panicked →
    ∀ q, q ∈ p.processMap ↔ q ∈ p.db.tracked ∧ q ∉ names

section
variable {driver : Driver} {env : Environment World} {p p' : Program} {names : Finset String}

/-- `init` fills the map from the table. -/
theorem mapInvariant_initial (platform : Platform) (db : Store) (config : TimeTrackingConfig) :
    MapInvariant ∅ (.initial platform db config) := by
  refine ⟨locksHealthy_initial _ _ _, Finset.empty_subset _, fun _ q => ?_⟩
  have hmap : q ∈ (Shared.initial platform db).processMap ↔ q ∈ db.appNames :=
    mem_processMap_initial
  show q ∈ (Shared.initial platform db).processMap ↔ q ∈ db.tracked ∧ q ∉ (∅ : Finset String)
  rw [hmap, Store.mem_tracked]
  simp

/-- A scanner that has died stays dead. -/
theorem scanner_panicked {c c' : Config} {l : Label} (h : tracker.step c l = some c')
    (hdead : c.scanner = .panicked) : c'.scanner = .panicked := by
  cases l with
  | scan inp =>
    obtain ⟨_, _, hstep, rfl⟩ := step_scan h
    rw [hdead] at hstep
    cases hstep
  | spawn =>
    obtain ⟨_, _, -, rfl⟩ := step_spawn h
    exact hdead
  | work k inp =>
    obtain ⟨_, _, _, -, -, rfl⟩ := step_work h
    exact hdead
  | handle inp =>
    obtain ⟨_, _, _, -, rfl⟩ := step_handle h
    exact hdead
  | call k inp =>
    obtain ⟨_, _, _, -, -, rfl⟩ := step_call h
    exact hdead

/-- The names after a step of a thread, and the keys of the map. -/
theorem names_of_thread {c c' : Config} {l : Label} (hl : l.isCall = false)
    (h : tracker.step c l = some c') :
    c'.shared.db.tracked = c.shared.db.tracked ∧
      ∀ q, q ∈ c'.shared.processMap ↔ q ∈ c.shared.processMap := by
  constructor
  · unfold Store.tracked
    rw [Store.appNames_eq, identities_of_not_call hl h, ← Store.appNames_eq]
  · intro q
    have hwrite : mapWrite q c l = none := by
      cases l <;> first | rfl | cases hl
    have hmem := mem_processMap_step h q
    rw [hwrite] at hmem
    exact decide_eq_decide.mp hmem

/-- The registry takes a new name, or it refuses and keeps what it has. -/
theorem serve_add_cases (w : World) (name : String) :
    name ∉ w.db.tracked ∧ w.serve (.add name) = (.done, insert name w.db.tracked) ∨
      w.serve (.add name) = (.refused, w.db.tracked) := by
  unfold World.serve Registry.serve
  cases w.available (.add name) with
  | false => exact .inr rfl
  | true =>
    by_cases hmem : name ∈ w.db.tracked
    · exact .inr (if_pos hmem)
    · exact .inl ⟨hmem, if_neg hmem⟩

/-- The names after a request that are left are still in the table, and no other is gone from it. -/
theorem namesLeft_served {asks : Option Registry.Request} {now : NaiveDateTime}
    {errs : List (Option String)} {answer : Option Registry.Answer} {s' : ServerState World}
    (hsub : names ⊆ p.db.tracked) (h : Served env asks (p.server now errs) answer s') :
    namesLeft names (p.world now errs) asks ⊆ s'.world.db.tracked ∧
      ∀ q ∈ s'.world.db.tracked, (q ∈ namesLeft names (p.world now errs) asks ↔ q ∈ names) := by
  obtain ⟨-, htracked⟩ := h
  have hkept : namesLeft names (p.world now errs) asks = names →
      p.db.tracked ⊆ s'.world.db.tracked →
      namesLeft names (p.world now errs) asks ⊆ s'.world.db.tracked ∧
        ∀ q ∈ s'.world.db.tracked, (q ∈ namesLeft names (p.world now errs) asks ↔ q ∈ names) := by
    intro hleft hgrown
    rw [hleft]
    exact ⟨hsub.trans hgrown, fun _ _ => Iff.rfl⟩
  cases asks with
  | none => exact hkept rfl htracked.ge
  | some request =>
    have hnames : s'.world.db.tracked = ((p.world now errs).serve request).2 := htracked.tracked
    cases request with
    | list =>
      apply hkept rfl
      rw [hnames]
      unfold World.serve Registry.serve
      split <;> exact Finset.Subset.refl _
    | add name =>
      apply hkept rfl
      rw [hnames]
      rcases serve_add_cases (p.world now errs) name with ⟨-, hserve⟩ | hserve
      · rw [hserve]
        exact Finset.subset_insert _ _
      · rw [hserve]
        exact Finset.Subset.refl _
    | delete name =>
      cases hserves : (p.world now errs).serves 1 with
      | false =>
        have hserve : (p.server now errs).world.serve (.delete name) =
            (.refused, p.db.tracked) := serve_unavailable hserves
        apply hkept
        · unfold namesLeft
          rw [hserves]
          rfl
        · rw [hnames]
          exact (congrArg Prod.snd hserve).ge
      | true =>
        have hserve : (p.server now errs).world.serve (.delete name) =
            (.done, p.db.tracked.erase name) := serve_delete hserves
        have hleft : namesLeft names (p.world now errs) (some (.delete name)) =
            names.erase name := by
          unfold namesLeft
          rw [hserves]
          rfl
        have herased : s'.world.db.tracked = p.db.tracked.erase name :=
          hnames.trans (congrArg Prod.snd hserve)
        rw [herased, hleft]
        refine ⟨Finset.erase_subset_erase name hsub, fun q hq => ?_⟩
        rw [Finset.mem_erase]
        exact and_iff_right (Finset.mem_erase.mp hq).1

/-- **A request** adds to the table and to the map, or deletes from both. -/
theorem mapInvariant_request {r : Request} {now : NaiveDateTime} {errs : List (Option String)}
    (hinv : MapInvariant names p)
    (h : (program driver env).step p (.request r now errs) = some p') :
    MapInvariant (namesLeft names (p.world now errs) (r.asks env)) p' := by
  have hlocks := locksHealthy_step hinv.locks h
  obtain ⟨reply, s', -, hserved, rfl⟩ := hinv.locks.step_request h
  obtain ⟨hsub, hkept⟩ := namesLeft_served hinv.subset hserved
  refine ⟨hlocks, hsub, fun hlives q => ?_⟩
  have hmapped := hinv.mapped hlives
  have hhealthy : (p.server now errs).processMapLock ≠ .poisoned := fun hpoisoned =>
    hlives (hinv.locks.poisoned (poisoned_of_server hpoisoned))
  have hmem := hserved.1.mem_processMap hhealthy
    (fun q hq => Store.mem_tracked.mp ((hmapped q).mp hq).1) q
  rw [← Store.mem_tracked, ← Store.mem_tracked] at hmem
  have hold := hmapped q
  have hname := hkept q
  have hin : q ∈ names → q ∈ p.db.tracked := fun h => hinv.subset h
  show q ∈ s'.processMap ↔
    q ∈ s'.world.db.tracked ∧ q ∉ namesLeft names (p.world now errs) (r.asks env)
  rw [hmem]
  show (q ∈ p.processMap ∨ q ∉ p.db.tracked) ∧ q ∈ s'.world.db.tracked ↔ _
  tauto

/-- **A run of the command line** adds to the table alone. -/
theorem mapInvariant_commandLine {processName path : String} {now : NaiveDateTime}
    {errs : List (Option String)} (hinv : MapInvariant names p)
    (h : (program driver env).step p (.commandLine processName path now errs) = some p') :
    MapInvariant (outside driver env names p (.commandLine processName path now errs)) p' := by
  have hlocks := locksHealthy_step hinv.locks h
  obtain ⟨result, s', hrun, hserves, rfl⟩ := Program.step_commandLine h
  have hanswer : answerOf result = some ((p.world now errs).serve (.add processName)).1 :=
    hserves.answer.resolve_right fun hdied => by cases hdied.2.1
  have htracked : s'.world.db.tracked = ((p.world now errs).serve (.add processName)).2 :=
    hserves.tracked
  rw [outside, hrun]
  show MapInvariant (if answerOf result = some .done then insert processName names else names) _
  rw [hanswer]
  rcases serve_add_cases (p.world now errs) processName with ⟨hnew, hserve⟩ | hserve
  · rw [hserve] at htracked ⊢
    refine ⟨hlocks, ?_, fun hlives q => ?_⟩
    · show insert processName names ⊆ s'.world.db.tracked
      rw [htracked]
      exact Finset.insert_subset_insert _ hinv.subset
    · show q ∈ p.processMap ↔ q ∈ s'.world.db.tracked ∧ q ∉ insert processName names
      rw [hinv.mapped hlives, htracked, Finset.mem_insert, Finset.mem_insert]
      have hne : q ∈ p.db.tracked → q ≠ processName := fun hq heq => hnew (heq ▸ hq)
      tauto
  · rw [hserve] at htracked ⊢
    refine ⟨hlocks, ?_, fun hlives q => ?_⟩
    · show names ⊆ s'.world.db.tracked
      rw [htracked]
      exact hinv.subset
    · show q ∈ p.processMap ↔ q ∈ s'.world.db.tracked ∧ q ∉ names
      rw [htracked]
      exact hinv.mapped hlives q

/-- **A step of the program**: the threads leave both alone, a request changes both, the command
line the table alone, and a new start fills the map anew. -/
theorem mapInvariant_step {a : Action} (hinv : MapInvariant names p)
    (h : (program driver env).step p a = some p') :
    MapInvariant (outside driver env names p a) p' := by
  have hlocks := locksHealthy_step hinv.locks h
  cases a with
  | thread l =>
    obtain ⟨hl, threads, hstep, rfl⟩ := Program.step_thread h
    obtain ⟨htracked, hmap⟩ := names_of_thread hl hstep
    refine ⟨hlocks, ?_, fun hlives q => ?_⟩
    · show names ⊆ threads.shared.db.tracked
      rw [htracked]
      exact hinv.subset
    · show q ∈ threads.shared.processMap ↔ q ∈ threads.shared.db.tracked ∧ q ∉ names
      rw [htracked, hmap]
      exact hinv.mapped (fun hdead => hlives (scanner_panicked hstep hdead)) q
  | request r now errs => exact mapInvariant_request hinv h
  | pause =>
    cases h
    exact ⟨hlocks, hinv.subset, hinv.mapped⟩
  | commandLine processName path now errs => exact mapInvariant_commandLine hinv h
  | restart config =>
    cases h
    exact mapInvariant_initial _ _ _

/-- **`PROCESS_MAP` follows the table.** As long as the scanner lives, the map has exactly the names
of the table, but for those that another process has put there since the start. -/
theorem mapFollowsTable {ok : Program → Action → Prop} {platform : Platform} {db : Store}
    {config : TimeTrackingConfig} {actions : List Action}
    (h : (program driver env).Runs ok (.initial platform db config) actions p)
    (hlives : p.threads.scanner ≠ .panicked) (name : String) :
    name ∈ p.processMap ↔ name ∈ p.db.tracked ∧
      name ∉ (program driver env).history (outside driver env) ∅
        (.initial platform db config) actions := by
  have hinv := h.invariant_history (fun _ _ _ _ hinv _ hstep => mapInvariant_step hinv hstep)
    (mapInvariant_initial platform db config)
  exact hinv.mapped hlives name

/-- After these actions the map lacks the name that came from the command line. -/
theorem mapFollowsTable_someActions :
    ∃ p, (program countingDriver epochEnvironment).Runs (fun _ _ => True)
        (.initial .linux noTables ⟨60000, 10000⟩) someActions p ∧
      ("b" ∈ p.processMap ↔ "b" ∈ p.db.tracked ∧
        "b" ∉ (program countingDriver epochEnvironment).history
          (outside countingDriver epochEnvironment) ∅
          (.initial .linux noTables ⟨60000, 10000⟩) someActions) := by
  obtain ⟨p, hrun, hlives⟩ := runs_someActions
  exact ⟨p, hrun, mapFollowsTable hrun hlives "b"⟩

end

/-! ## The registry behind the program -/

/-- A request, as the registry answers it and as it was answered. -/
structure Exchange where
  request : Registry.Request
  expected : Registry.Answer
  given : Option Registry.Answer
  lock : MapLock

/-- The answer is the registry's, or none has been given, after the scanner has died: then the
registry has done what was asked for. -/
def Exchange.Kept (e : Exchange) : Prop :=
  e.given = some e.expected ∨ e.given = none ∧ e.lock = .poisoned ∧ e.expected = .done

/-- The registry, asked whatever the program is asked. -/
def exchanges (driver : Driver) (env : Environment World)
    (log : Finset String × List Exchange) (p : Program) :
    Action → Finset String × List Exchange
  | .request r now errs =>
    let w := p.world now errs
    match r.asks env with
    | some request =>
      let (expected, tracked) := Registry.serve (w.available request) log.1 request
      let (reply, _) := r.run (env.onDatabase driver) (p.server now errs)
      (tracked, log.2 ++ [⟨request, expected, reply.answer, p.mapLock⟩])
    | none => log
  | .commandLine processName path now errs =>
    let w := p.world now errs
    let request := .add processName
    let (expected, tracked) := Registry.serve (w.available request) log.1 request
    let (result, _) := commandLineAdd (env.onDatabase driver) processName path w
    (tracked, log.2 ++ [⟨request, expected, answerOf result, .free⟩])
  | _ => log

/-- The names are those of the registry, and every answer so far is. -/
structure RegistryInvariant (log : Finset String × List Exchange) (p : Program) : Prop where
  locks : LocksHealthy p
  tracked : p.db.tracked = log.1
  kept : ∀ e ∈ log.2, e.Kept

section
variable {driver : Driver} {env : Environment World} {p p' : Program}
  {log : Finset String × List Exchange}

/-- One more exchange. -/
theorem RegistryInvariant.append (hinv : RegistryInvariant log p) {e : Exchange} (he : e.Kept)
    (hlocks : LocksHealthy p') : RegistryInvariant (p'.db.tracked, log.2 ++ [e]) p' := by
  refine ⟨hlocks, rfl, fun e' he' => ?_⟩
  rcases List.mem_append.mp he' with hold | hnew
  · exact hinv.kept e' hold
  · rw [List.mem_singleton.mp hnew]
    exact he

/-- A request that has been served is an exchange that has been kept. -/
theorem kept_of_serves {request : Registry.Request} {answer : Option Registry.Answer}
    {now : NaiveDateTime} {errs : List (Option String)} {s' : ServerState World}
    (h : Registry.Serves env request (p.server now errs) answer s') :
    Exchange.Kept ⟨request, ((p.world now errs).serve request).1, answer, p.mapLock⟩ := by
  rcases h.answer with hgiven | ⟨hnone, hlock, hdone⟩
  · exact .inl hgiven
  · exact .inr ⟨hnone, poisoned_of_server hlock, hdone⟩

/-- **A step of the program**: what is asked is asked of the registry, and nothing else changes the
names. -/
theorem registryInvariant_step {a : Action} (hinv : RegistryInvariant log p)
    (h : (program driver env).step p a = some p') :
    RegistryInvariant (exchanges driver env log p a) p' := by
  have hlocks := locksHealthy_step hinv.locks h
  cases a with
  | thread l =>
    obtain ⟨hl, threads, hstep, rfl⟩ := Program.step_thread h
    exact ⟨hlocks, (names_of_thread hl hstep).1.trans hinv.tracked, hinv.kept⟩
  | request r now errs =>
    obtain ⟨reply, s', hrun, ⟨-, hserved⟩, rfl⟩ := hinv.locks.step_request h
    rw [exchanges, hrun]
    cases hasks : r.asks env with
    | none =>
      rw [hasks] at hserved
      exact ⟨hlocks, hserved.trans hinv.tracked, hinv.kept⟩
    | some request =>
      rw [hasks] at hserved
      rw [← hinv.tracked]
      show RegistryInvariant (((p.world now errs).serve request).2,
        log.2 ++ [⟨request, ((p.world now errs).serve request).1, reply.answer, p.mapLock⟩])
        (p.after s')
      have htracked : s'.world.db.tracked = ((p.world now errs).serve request).2 :=
        hserved.tracked
      rw [← htracked]
      exact hinv.append (kept_of_serves hserved) hlocks
  | pause =>
    cases h
    exact ⟨hlocks, hinv.tracked, hinv.kept⟩
  | commandLine processName path now errs =>
    obtain ⟨result, s', hrun, hserves, rfl⟩ := Program.step_commandLine h
    rw [exchanges, hrun, ← hinv.tracked]
    show RegistryInvariant (((p.world now errs).serve (.add processName)).2,
      log.2 ++ [⟨.add processName, ((p.world now errs).serve (.add processName)).1,
        answerOf result, .free⟩]) (p.withTables s'.world.db)
    have htracked : s'.world.db.tracked = ((p.world now errs).serve (.add processName)).2 :=
      hserves.tracked
    rw [← htracked]
    apply hinv.append (.inl _) hlocks
    exact hserves.answer.resolve_right fun hdied => by cases hdied.2.1
  | restart config =>
    cases h
    exact ⟨hlocks, hinv.tracked, hinv.kept⟩

/-- **The program serves the registry.** Whatever comes in at whatever front end, between whatever
steps of the threads and however often the program is started anew: the names that are tracked and
the answers that are given are those of one registry that is asked the same. -/
theorem servesRegistry {ok : Program → Action → Prop} {platform : Platform} {db : Store}
    {config : TimeTrackingConfig} {actions : List Action}
    (h : (program driver env).Runs ok (.initial platform db config) actions p) :
    let log := (program driver env).history (exchanges driver env) (db.tracked, [])
      (.initial platform db config) actions
    p.db.tracked = log.1 ∧ ∀ e ∈ log.2, e.Kept := by
  have hinv := h.invariant_history (fun _ _ _ _ hinv _ hstep => registryInvariant_step hinv hstep)
    (a := (db.tracked, [])) ⟨locksHealthy_initial platform db config, rfl, fun _ he => by cases he⟩
  exact ⟨hinv.tracked, hinv.kept⟩

/-- These actions ask the registry four times: two names are added, a delete is refused, and the
names are listed. -/
theorem servesRegistry_someActions :
    ∃ p, (program countingDriver epochEnvironment).Runs (fun _ _ => True)
        (.initial .linux noTables ⟨60000, 10000⟩) someActions p ∧
      let log := (program countingDriver epochEnvironment).history
        (exchanges countingDriver epochEnvironment) (noTables.tracked, [])
        (.initial .linux noTables ⟨60000, 10000⟩) someActions
      p.db.tracked = log.1 ∧ ∀ e ∈ log.2, e.Kept := by
  obtain ⟨p, hrun, -⟩ := runs_someActions
  exact ⟨p, hrun, servesRegistry hrun⟩

end

end TimeTracker
