import TimeTracker.SeaormRestable

/-!
# What the pieces of a handler do

The handlers over the SeaORM client, on a server whose own locks are sound (`Healthy`), piece by
piece: the locks, the parameters, the calls of the client, and `add_process` and `delete_process`.
Each piece has one lemma, which says how it ends, whatever the database refuses. A piece that has no
statement leaves the state as it is (`reading`); a piece that only reads leaves it as good as it is
(`asking`).

The lock of `PROCESS_MAP` is another matter than the other locks, as the scanner may have died with
it: whoever takes it then dies as well, after the tables have been written.

* `failing P`: the error of a piece that fails if `P`; until then nothing has been written.
* `Stopped`: an error after which nothing is changed, or a panic after which something is.
* **`addProcess_ends`**, **`deleteProcess_ends`**: the table and the map are both written, or an
  error is returned and neither is, or the table is written and the caller dies.
-/

namespace TimeTracker

open Json (Value)
open Transaction

/-! ## The pieces of a handler

What is asked of the server is asked of its locks; what a handler finds in its parameters is up to
the client that sent them. -/

/-- Two states of the server are as good as the same if their worlds are and all else is equal. -/
instance {σ : Type} [Setoid σ] : Setoid (ServerState σ) where
  r s' s := ∃ world, world ≈ s.world ∧ s' = { s with world }
  iseqv :=
    { refl := fun s => ⟨s.world, Setoid.refl _, rfl⟩
      symm := fun {_ s} ⟨_, hworld, h⟩ => ⟨s.world, by rw [h]; exact Setoid.symm hworld, by rw [h]⟩
      trans := fun ⟨world, hworld, h⟩ ⟨_, hworld', h'⟩ =>
        ⟨world, by rw [h'] at hworld; exact Setoid.trans hworld hworld', by rw [h, h']⟩ }

/-- The locks the handlers take are not poisoned. That of `PROCESS_MAP` is another matter: the
scanner may have died with it. -/
structure Healthy {σ : Type} (s : ServerState σ) : Prop where
  stateLock : s.stateLock = .healthy
  clientLock : s.clientLock = .healthy
  configLock : s.configLock = .healthy

/-- The end of a handler that returns `Err`. -/
def failed (stop : Stop) : Prop := ∃ text, stop = .error text

/-- The same, if `P`. -/
def failing (P : Prop) (stop : Stop) : Prop := failed stop ∧ P

/-- The reason of a failure can be left out. -/
theorem failed_of_failing {P : Prop} (stop : Stop) (h : failing P stop) : failed stop := h.1

/-- An error is a failure; a panic is not. -/
theorem failed_error (text : String) : failed (.error text) := ⟨text, rfl⟩

/-- The parameters of a payload; an empty payload has none. -/
def paramsOf {σ : Type} (env : Environment σ) (payload : String) : Except String Params :=
  if payload.isEmpty then .ok [] else env.paramsFromStr payload

section
variable {σ α : Type} {s : ServerState σ}

/-- A lock that is sound is taken, and nothing else happens; each of the three ways the source takes
a lock is one lemma. -/
theorem acquireClientLock_returns (hs : Healthy s) :
    Returns acquireClientLock s (reading s fun _ => True) :=
  ⟨⟨⟩, s, acquireClientLock_run hs.stateLock, rfl, trivial⟩

/-- Locked with a context for the error there would be. -/
theorem acquire_returns {lock : ServerState σ → Lock} (context : String) (h : lock s = .healthy) :
    Returns (acquire lock context) s (reading s fun _ => True) :=
  ⟨⟨⟩, s, acquire_run context h, rfl, trivial⟩

/-- Locked with `unwrap`. -/
theorem acquireOrPanic_returns {lock : ServerState σ → Lock} (h : lock s = .healthy) :
    Returns (acquireOrPanic lock) s (reading s fun _ => True) :=
  ⟨⟨⟩, s, acquireOrPanic_run h, rfl, trivial⟩

/-- The lock is sound, or the caller dies on the spot. -/
theorem acquireOrPanic_ends (lock : ServerState σ → Lock) (s : ServerState σ) :
    Ends (acquireOrPanic lock) s (reading s fun _ => lock s = .healthy)
      fun stop s' => stop = .panic ∧ lock s = .poisoned ∧ s' = s := by
  cases hlock : lock s with
  | healthy => exact .inl ⟨⟨⟩, s, acquireOrPanic_run hlock, rfl, rfl⟩
  | poisoned =>
    refine .inr ⟨.panic, s, ?_, rfl, rfl, rfl⟩
    unfold acquireOrPanic
    rw [run_bind_ok get_run, if_pos hlock]
    rfl

/-! ### Calls of the client

The client sees the world, and the handler sees the rest. -/

/-- What a method of the backend does, in the state of the server. -/
def Stored (s : ServerState σ) (post : α → σ → Prop) : α → ServerState σ → Prop :=
  fun a s' => ∃ world, post a world ∧ s' = { s with world }

/-- How a method of the backend fails, in the state of the server. -/
def StoreFailed (s : ServerState σ) (bad : String → σ → Prop) : Stop → ServerState σ → Prop :=
  fun stop s' => failed stop ∧ ∃ e world, bad e world ∧ s' = { s with world }

/-- A method that has returned or failed. What comes after it is told which. -/
theorem onWorld_cases {β : Type} {operation : StoreM σ α} {post : α → σ → Prop}
    {bad : String → σ → Prop} {final : β → ServerState σ → Prop}
    {worse : Stop → ServerState σ → Prop} {next : Except String α → HandlerM σ β}
    (h : Ends operation s.world post bad)
    (hok : ∀ a world, post a world → Ends (next (.ok a)) { s with world } final worse)
    (herror : ∀ e world, bad e world → Ends (next (.error e)) { s with world } final worse) :
    Ends (onWorld operation >>= next) s final worse := by
  rcases h with ⟨a, world, hrun, hpost⟩ | ⟨e, world, hrun, hbad⟩
  · have hworld := onWorld_run operation s
    rw [hrun] at hworld
    unfold Ends Returns Fails
    rw [run_bind_ok hworld]
    exact hok a world hpost
  · have hworld := onWorld_run operation s
    rw [hrun] at hworld
    unfold Ends Returns Fails
    rw [run_bind_ok hworld]
    exact herror e world hbad

/-- A method that is awaited with `?`: it returns what it returns, and its error becomes that of the
handler. -/
theorem await_ends {operation : StoreM σ α} {post : α → σ → Prop} {bad : String → σ → Prop}
    (h : Ends operation s.world post bad) :
    Ends (await operation) s (Stored s post) (StoreFailed s bad) :=
  onWorld_cases h (fun _ world hpost => .of_pure ⟨world, hpost, rfl⟩)
    fun e world hbad => .of_throw ⟨failed_error e, e, world, hbad, rfl⟩

/-- The same for `call_db_method!`, which takes the lock of the client first and puts a context on
the error. -/
theorem callDbMethod_ends {operation : StoreM σ α} {post : α → σ → Prop}
    {bad : String → σ → Prop} (contextMsg : String) (hs : Healthy s)
    (h : Ends operation s.world post bad) :
    Ends (callDbMethod operation contextMsg) s (Stored s post) (StoreFailed s bad) := by
  apply Ends.bindRead (acquire_returns _ hs.clientLock).ends
  intro _ _
  exact onWorld_cases h (fun _ world hpost => .of_pure ⟨world, hpost, rfl⟩)
    fun e world hbad => .of_throw ⟨failed_error _, e, world, hbad, rfl⟩

end

/-! ### Pieces that change nothing -/

section
variable {σ α : Type} [Setoid σ] {env : Environment σ} {s s' : ServerState σ}

/-- A statement poisons no lock. -/
theorem Healthy.of_equiv (hs : Healthy s) (h : s' ≈ s) : Healthy s' := by
  obtain ⟨world, -, rfl⟩ := h
  exact ⟨hs.stateLock, hs.clientLock, hs.configLock⟩

/-- `bail!` returns an error and has done nothing before it. -/
theorem commits_bail (text : String) {post : α → ServerState σ → Prop} :
    Commits (bail text : HandlerM σ α) s post failed := .of_throw (failed_error text)

/-- Nothing comes after an error. -/
theorem commits_bail_bind {β : Type} (text : String) {next : α → HandlerM σ β}
    {post : β → ServerState σ → Prop} : Commits (bail text >>= next) s post failed :=
  .bindRead (commits_bail text) fun _ (h : False) => h.elim

/-- The payload has parameters, or the handler fails before it has asked the database. -/
theorem parsePayload_commits (payload : String) :
    Commits (parsePayload env payload) s (reading s fun params => paramsOf env payload = .ok params)
      (failing (∀ params, paramsOf env payload ≠ .ok params)) := by
  unfold parsePayload paramsOf
  cases payload.isEmpty with
  | true => exact .of_pure ⟨rfl, rfl⟩
  | false =>
    cases env.paramsFromStr payload with
    | ok params => exact .of_pure ⟨rfl, rfl⟩
    | error e =>
      refine .of_throw ⟨failed_error _, fun params hok => ?_⟩
      cases hok

/-- A parameter is there, or the handler fails. -/
theorem required_commits (key : String) (a? : Option α) :
    Commits (required key a? : HandlerM σ α) s (reading s fun a => a? = some a)
      (failing (a? = none)) := by
  cases a? with
  | some a => exact .of_pure ⟨rfl, rfl⟩
  | none => exact .of_throw ⟨failed_error _, rfl⟩

/-- A parameter that must be a number in range. -/
theorem extractU64Param_commits (params : Params) (key : String) :
    Commits (extractU64Param params key : HandlerM σ Nat) s
      (reading s fun n => (Json.lookup params key).bind Value.asU64 = some n) failed := by
  unfold extractU64Param
  cases (Json.lookup params key).bind Value.asU64 with
  | some n => exact .of_pure ⟨rfl, rfl⟩
  | none => exact commits_bail _

/-- A method that fails and has changed nothing, in the state of the server. -/
theorem failing_of_storeFailed {refused : String → Prop} (stop : Stop) (s' : ServerState σ)
    (h : StoreFailed s (fun e world => world ≈ s.world ∧ refused e) stop s') :
    s' ≈ s ∧ failing (∃ e, refused e) stop := by
  obtain ⟨hfailed, e, world, ⟨hworld, he⟩, rfl⟩ := h
  exact ⟨⟨world, hworld, rfl⟩, hfailed, e, he⟩

/-- A method that fails before it writes makes a handler that does. -/
theorem await_commits {operation : StoreM σ α} {post : α → σ → Prop} {refused : String → Prop}
    (h : Commits operation s.world post refused) :
    Commits (await operation) s (Stored s post) (failing (∃ e, refused e)) :=
  Ends.weaken (await_ends h) failing_of_storeFailed

/-- The same with the lock of the client. -/
theorem callDbMethod_commits {operation : StoreM σ α} {post : α → σ → Prop}
    {refused : String → Prop} (contextMsg : String) (hs : Healthy s)
    (h : Commits operation s.world post refused) :
    Commits (callDbMethod operation contextMsg) s (Stored s post) failed :=
  Ends.weaken (callDbMethod_ends contextMsg hs h) fun stop s' hstop =>
    ⟨(failing_of_storeFailed stop s' hstop).1, hstop.1⟩

/-- The context of an error is no other error. -/
theorem withContext_commits {context : String} {action : HandlerM σ α}
    {post : α → ServerState σ → Prop} (h : Commits action s post failed) :
    Commits (withContext context action) s post failed := by
  apply Ends.tryCatch h
  rintro _ s' ⟨hs', text, rfl⟩
  exact .of_throw ⟨hs', failed_error _⟩

end

/-- A method that only reads. -/
theorem Reads.callDbMethod {α : Type} {operation : StoreM World α} {s : ServerState World}
    (h : Reads operation) (contextMsg : String) (hs : Healthy s) :
    Commits (callDbMethod operation contextMsg) s (asking s fun _ => True) failed := by
  apply (callDbMethod_commits contextMsg hs (h s.world)).imp
  rintro _ _ ⟨world, ⟨hworld, -⟩, rfl⟩
  exact ⟨⟨world, hworld, rfl⟩, trivial⟩

/-- And when it is awaited. -/
theorem Reads.await {α : Type} {operation : StoreM World α} {s : ServerState World}
    (h : Reads operation) :
    Commits (await operation) s (asking s fun _ => True) failed := by
  apply ((await_commits (h s.world)).weaken failed_of_failing).imp
  rintro _ _ ⟨world, ⟨hworld, -⟩, rfl⟩
  exact ⟨⟨world, hworld, rfl⟩, trivial⟩

/-! ## Processes -/

/-- The server with other tables. -/
def ServerState.withTables (s : ServerState World) (db : Store) : ServerState World :=
  { s with world := { s.world with db } }

/-- The server after `n` more statements. -/
def ServerState.later (s : ServerState World) (n : Nat) : ServerState World :=
  { s with world := s.world.later n }

/-- What is broadcast once the apps have changed, if the database serves the query. -/
def appsPushed (env : Environment World) (s : ServerState World) : List BroadcastMessage :=
  if s.hasActiveBroadcaster && s.world.serves 1 then
    ((env.appsFromValue (.arr (s.world.db.appsById.map Apps.Model.toValue))).map
      BroadcastMessage.appsUpdate).toList
  else []

/-- The server after `push`. -/
def ServerState.pushing (s : ServerState World) (push : List BroadcastMessage) :
    ServerState World :=
  { s with broadcasts := s.broadcasts ++ push }

/-- A name that is there already, or a database that refuses one of the three statements of an
`add_process`. -/
def NotAddable (process : String) (s : ServerState World) : Prop :=
  process ∈ s.world.db.appNames ∨ s.world.serves 3 = false

/-- The three statements of an `add_process` have been served, and the row is stored. -/
structure Inserted (env : Environment World) (process path : String) (s : ServerState World)
    (db : Store) : Prop where
  serves : s.world.serves 3 = true
  new : process ∉ s.world.db.appNames
  stored : s.world.db.insertApp (AddProcess.newApp process ((env.verQueryValue path).getD process)
    (Store.nextId s.world.db.apps.maxKey)) = .ok db

section
variable {driver : Driver} {env : Environment World} {s s' : ServerState World}

/-- The locks do not depend on what is stored, -/
theorem Healthy.withTables (hs : Healthy s) (db : Store) : Healthy (s.withTables db) :=
  ⟨hs.stateLock, hs.clientLock, hs.configLock⟩

/-- nor on how many statements have been served. -/
theorem Healthy.later (hs : Healthy s) (n : Nat) : Healthy (s.later n) :=
  ⟨hs.stateLock, hs.clientLock, hs.configLock⟩

/-- A state in which fewer statements are left to be refused is as good as the same. -/
theorem ServerState.later_equiv (s : ServerState World) (n : Nat) : s.later n ≈ s :=
  ⟨_, s.world.later_equiv n, rfl⟩

/-- Statements served one after the other are served together. -/
theorem ServerState.later_later (s : ServerState World) (m n : Nat) :
    (s.later m).later n = s.later (m + n) := by
  unfold later
  rw [World.later_later]

/-- A message that is broadcast is broadcast, however many statements are served. -/
theorem ServerState.pushing_congr (h : s' ≈ s) (push : List BroadcastMessage) :
    s'.pushing push ≈ s.pushing push := by
  obtain ⟨world, hworld, rfl⟩ := h
  exact ⟨world, hworld, rfl⟩

/-- Nothing to broadcast is no change. -/
theorem ServerState.pushing_nil (s : ServerState World) : s.pushing [] = s := by
  unfold pushing
  rw [List.append_nil]

/-- All apps are read, or the query is refused. -/
theorem getAllApps_commits (w : World) :
    Commits (env.onDatabase driver).client.getAllApps w
      (fun apps w' => w.serves 1 = true ∧ apps = .arr (w.db.appsById.map Apps.Model.toValue) ∧
        w' = w.later 1) (refusal w 1) := by
  apply (query_commits Store.appsById w).andThen
  rintro _ _ ⟨hserves, rfl, rfl⟩
  exact .of_pure ⟨hserves, rfl, rfl⟩

/-- **The broadcast after a change** does not fail any more: without an answer to its query it is
left out. -/
theorem broadcastApps_ends (hs : Healthy s) {bad : Stop → ServerState World → Prop} :
    Ends (broadcastApps (env.onDatabase driver)) s
      (fun _ s' => s' ≈ s.pushing (appsPushed env s)) bad := by
  have hnothing : ∀ s', appsPushed env s = [] → s' ≈ s → s' ≈ s.pushing (appsPushed env s) := by
    intro s' hpush hs'
    rw [hpush, ServerState.pushing_nil]
    exact hs'
  unfold broadcastApps
  apply Ends.bindRead Returns.of_get.ends
  rintro _ rfl
  cases hactive : s.hasActiveBroadcaster with
  | false =>
    refine .of_pure (hnothing s ?_ (Setoid.refl s))
    unfold appsPushed
    rw [hactive]
    rfl
  | true =>
    apply Ends.bindRead (acquireOrPanic_returns hs.clientLock).ends
    intro _ _
    have hlist : Commits (env.onDatabase driver).client.getAllApps s.world _ _ :=
      getAllApps_commits s.world
    apply onWorld_cases hlist
    · rintro _ _ ⟨hserves, rfl, rfl⟩
      have hpush : appsPushed env s = ((env.appsFromValue
          (.arr (s.world.db.appsById.map Apps.Model.toValue))).map
            BroadcastMessage.appsUpdate).toList := by
        unfold appsPushed
        rw [hactive, hserves]
        rfl
      cases happs : env.appsFromValue (.arr (s.world.db.appsById.map Apps.Model.toValue)) with
      | none =>
        have hnone : (env.onDatabase driver).appsFromValue
            (.arr (s.world.db.appsById.map Apps.Model.toValue)) = none := happs
        rw [happs] at hpush
        simp only [hnone]
        exact .of_pure (hnothing (s.later 1) hpush (s.later_equiv 1))
      | some appsVec =>
        have hsome : (env.onDatabase driver).appsFromValue
            (.arr (s.world.db.appsById.map Apps.Model.toValue)) = some appsVec := happs
        rw [happs] at hpush
        simp only [hsome]
        apply Ends.bindRead Returns.of_get.ends
        rintro _ rfl
        rw [if_pos hs.stateLock, hpush]
        exact (Returns.of_modify (ServerState.pushing_congr (s.later_equiv 1) _)).ends
    · rintro e _ ⟨⟨errs, rfl⟩, hrefused⟩
      refine .of_pure (hnothing _ ?_ ⟨_, ⟨errs, rfl⟩, rfl⟩)
      unfold appsPushed
      rw [hrefused, Bool.and_false]
      rfl

/-- The end of `add_process` and `delete_process`: the map follows the table, or the caller dies on
its lock. -/
theorem updateMap_ends (hs : Healthy s) (change : ProcessMap → ProcessMap) :
    Ends (do
        acquireOrPanic ServerState.processMapLock
        modify fun state => { state with processMap := change state.processMap }
        broadcastApps (env.onDatabase driver)) s
      (fun _ s' => ∃ s₁ : ServerState World, s₁ = { s with processMap := change s.processMap } ∧
        s' ≈ s₁.pushing (appsPushed env s₁))
      fun stop s' => stop = .panic ∧ s.processMapLock = .poisoned ∧ s' = s := by
  apply Ends.bindRead (acquireOrPanic_ends ServerState.processMapLock s)
  intro _ _
  have hmodify : Returns (modify fun state : ServerState World =>
      { state with processMap := change state.processMap } : HandlerM World PUnit) s fun _ s' =>
      s' = { s with processMap := change s.processMap } := .of_modify rfl
  apply Ends.bind hmodify.ends
  rintro _ _ rfl
  have hs₁ : Healthy { s with processMap := change s.processMap } :=
    ⟨hs.stateLock, hs.clientLock, hs.configLock⟩
  apply Ends.imp (broadcastApps_ends hs₁)
  intro _ s' h
  exact ⟨_, rfl, h⟩

/-- `put_data`, awaited: it fails if the database refuses one of its statements. -/
theorem awaitPutData_commits (process productName : String) :
    Commits (await ((env.onDatabase driver).client.putData process productName)) s
      (Stored s (SeaORMClient.Wrote s.world 2 fun db db' => db.insertApp
        (AddProcess.newApp process productName (Store.nextId db.apps.maxKey)) = .ok db'))
      (failing (s.world.serves 2 = false)) := by
  apply (await_commits (SeaORMClient.putData_commits process productName)).weaken
  rintro _ ⟨hfailed, e, hrefusal⟩
  exact ⟨hfailed, hrefusal⟩

/-- `delete_data`, awaited: it has one statement. -/
theorem awaitDeleteData_commits (process : String) :
    Commits (await ((env.onDatabase driver).client.deleteData process)) s
      (Stored s (SeaORMClient.Wrote s.world 1 fun db db' => db' = db.deleteApps process))
      (failing (s.world.serves 1 = false)) := by
  apply (await_commits (SeaORMClient.deleteData_commits process)).weaken
  rintro _ ⟨hfailed, e, hrefusal⟩
  exact ⟨hfailed, hrefusal⟩

/-- The duplicate check is one statement. -/
theorem checkNotAdded_commits (hs : Healthy s) (process : String) :
    Commits (checkNotAdded (env.onDatabase driver) process) s
      (fun _ s' => s' = s.later 1 ∧ s.world.serves 1 = true ∧ process ∉ s.world.db.appNames)
      (failing (NotAddable process s)) := by
  apply Commits.bindRead (acquireOrPanic_returns hs.clientLock).ends
  intro _ _
  apply Ends.bind (Ends.weaken (await_commits (query_commits Store.appNames s.world)) _)
  · rintro _ _ ⟨_, ⟨hserves, rfl, rfl⟩, rfl⟩
    by_cases hmem : process ∈ s.world.db.appNames
    · rw [if_pos hmem]
      exact .of_throw ⟨s.later_equiv 1, failed_error _, .inl hmem⟩
    · rw [if_neg hmem]
      exact .of_pure ⟨rfl, hserves, hmem⟩
  · rintro _ _ ⟨hs', hfailed, e, hrefused⟩
    refine ⟨hs', hfailed, .inr ?_⟩
    rw [World.serves_add s.world 1 2, hrefused]
    rfl

/-! ### How they end -/

/-- A handler that returns an error has changed nothing, and there is a reason; one that panics has
changed something. -/
def Stopped (s : ServerState World) (reason : Prop) (torn : ServerState World → Prop) :
    Stop → ServerState World → Prop
  | .error _, s' => s' ≈ s ∧ reason
  | .panic, s' => torn s'

/-- A piece that fails before it writes is stopped with nothing changed. -/
theorem stopped_of_failing {P reason : Prop} {torn : ServerState World → Prop} (himp : P → reason)
    (stop : Stop) (s' : ServerState World) (h : s' ≈ s ∧ failing P stop) :
    Stopped s reason torn stop s' := by
  obtain ⟨hs', ⟨text, rfl⟩, hP⟩ := h
  exact ⟨hs', himp hP⟩

/-- A context changes the text of an error, and not that it is one; a panic goes through it. -/
theorem withContext_ends {α : Type} {context : String} {action : HandlerM World α}
    {post : α → ServerState World → Prop} {reason : Prop} {torn : ServerState World → Prop}
    (h : Ends action s post (Stopped s reason torn)) :
    Ends (withContext context action) s post (Stopped s reason torn) := by
  apply Ends.tryCatch h
  intro stop s' hstopped
  cases stop with
  | error text => exact .of_throw hstopped
  | panic => exact .of_throw hstopped

/-- **`add_process`** writes the table and then the map. -/
theorem addProcess_ends (hs : Healthy s) (process path : String) :
    Ends (addProcess (env.onDatabase driver) process path) s
      (fun _ s' => ∃ db s₁, Inserted env process path s db ∧
        s₁ = { (s.later 3).withTables db with
          processMap := s.processMap.insert process (false, false) } ∧
        s' ≈ s₁.pushing (appsPushed env s₁))
      (Stopped s (NotAddable process s) fun s' => s.processMapLock = .poisoned ∧
        ∃ db, Inserted env process path s db ∧ s' ≈ s.withTables db) := by
  apply Ends.bind (Ends.weaken (checkNotAdded_commits hs process) (stopped_of_failing id))
  rintro _ _ ⟨rfl, hserves, hnew⟩
  have hthree : s.world.serves 3 = (s.later 1).world.serves 2 := by
    rw [World.serves_add s.world 1 2, hserves, Bool.true_and]
    rfl
  apply Ends.bindRead (acquireOrPanic_returns (hs.later 1).clientLock).ends
  intro _ _
  apply Ends.bind (Ends.weaken (awaitPutData_commits process _) _)
  · rintro _ _ ⟨_, ⟨hserves', db, hdb, rfl⟩, rfl⟩
    have hinserted : Inserted env process path s db := ⟨hthree.trans hserves', hnew, hdb⟩
    show Ends _ (((s.later 1).later 2).withTables db) _ _
    rw [ServerState.later_later]
    apply Ends.imp (Ends.weaken (updateMap_ends ((hs.later 3).withTables db)
      fun map => map.insert process (false, false)) _)
    · rintro _ s' ⟨s₁, rfl, hs'⟩
      exact ⟨db, _, hinserted, rfl, hs'⟩
    · rintro _ _ ⟨rfl, hpoisoned, rfl⟩
      exact ⟨hpoisoned, db, hinserted, _, ⟨_, rfl⟩, rfl⟩
  · rintro _ s' ⟨hs', hfailed, hrefused⟩
    exact stopped_of_failing id _ _
      ⟨Setoid.trans hs' (s.later_equiv 1), hfailed, .inr (hthree.trans hrefused)⟩

/-- **`delete_process`** too. -/
theorem deleteProcess_ends (hs : Healthy s) (process : String) :
    Ends (deleteProcess (env.onDatabase driver) process) s
      (fun _ s' => s.world.serves 1 = true ∧ ∃ s₁,
        s₁ = { (s.later 1).withTables (s.world.db.deleteApps process) with
          processMap := s.processMap.erase process } ∧
        s' ≈ s₁.pushing (appsPushed env s₁))
      (Stopped s (s.world.serves 1 = false) fun s' => s.processMapLock = .poisoned ∧
        s.world.serves 1 = true ∧ s' ≈ s.withTables (s.world.db.deleteApps process)) := by
  apply Ends.bindRead (acquireOrPanic_returns hs.clientLock).ends
  intro _ _
  apply Ends.bind (Ends.weaken (awaitDeleteData_commits process) (stopped_of_failing id))
  rintro _ _ ⟨_, ⟨hserves, _, rfl, rfl⟩, rfl⟩
  apply Ends.imp (Ends.weaken (updateMap_ends
    ((hs.later 1).withTables (s.world.db.deleteApps process)) fun map => map.erase process) _)
  · rintro _ s' ⟨s₁, rfl, hs'⟩
    exact ⟨hserves, _, rfl, hs'⟩
  · rintro _ _ ⟨rfl, hpoisoned, rfl⟩
    exact ⟨hpoisoned, hserves, _, ⟨_, rfl⟩, rfl⟩

end

end TimeTracker
