import Mathlib.Data.List.TakeWhile
import TimeTracker.Ledgers

/-!
# The longest session

A session worker sends its length as `p;n`, the name of its app and the counter joined by a
semicolon, and `handle_longest_session` splits the text at every semicolon and takes the first two
parts.

* `eventLoop` is the event loop on its own, over a channel that nobody else writes to;
  **`eventLoop_ends`**: it handles every event that is waiting.
* **`longestInvariant_step`**: what the longest session of an app will be when the sessions that are
  waiting have been handled does not change.
* **`longest_session_iff`**: the sessions of an app are recorded as they were sent if and only if
  there is no semicolon in its name.
-/

namespace TimeTracker

open Transition

/-! ## The event loop on its own -/

/-- The event loop, its channel and the database. -/
structure Handling where
  loop : EventLoop
  events : List Event
  db : Store

/-- The event loop, step by step, with nothing else going on. -/
def eventLoop : System Handling Input where
  step s inp :=
    (s.loop.step inp s.events s.db).map fun (loop, events, db) => ⟨loop, events, db⟩

/-- The database refuses no statement. -/
def unfailing (_ : Handling) (inp : Input) : Prop := inp.err = none

instance (s : Handling) (inp : Input) : Decidable (unfailing s inp) := by
  unfold unfailing
  infer_instance

section
variable {s s' : Handling} {inp : Input}

/-- A step of the event loop takes an event or runs one statement. -/
theorem eventLoop_step (h : eventLoop.step s inp = some s') :
    (∃ event, s.loop = .idle ∧ s.events = event :: s'.events ∧ s'.db = s.db ∧
      s'.loop = .resume event (handle event)) ∨
    (∃ event hd next, s.loop = .handling event hd ∧ s'.events = s.events ∧
      hd.step inp s.db = (next, s'.db) ∧ s'.loop = .resume event next) := by
  obtain ⟨⟨loop, events, db⟩, hstep, rfl⟩ := Option.map_eq_some_iff.mp h
  exact EventLoop.step_cases hstep

end

/-! ### It ends -/

/-- How many statements a handler has left, at most, with `n` checkpoints in the table. -/
def Handler.statementsLeft (n : Nat) : Handler → Nat
  | .longestFindApp _ _ => 2
  | .longestUpdateApp _ _ _ => 1
  | .countFindApp _ _ => 3 + 2 * n
  | .countUpdateApp _ _ => 2 + 2 * n
  | .countFindActive _ _ => 1 + 2 * n
  | .countFindCheckpoint _ _ _ rest => 2 + 2 * rest.length
  | .countUpdateCheckpoint _ _ _ _ rest => 1 + 2 * rest.length
  | .timelineFindApp _ => 5
  | .timelineFindEntry _ _ => 4
  | .timelineUpdate _ => 1
  | .timelineMaxId _ _ => 3
  | .timelineFirstCheckpoint _ _ _ => 2
  | .timelineInsert _ => 1

/-- What an event loop has left to do. An event waits for its handler, of at most `5 + 2 * n`
statements. -/
def Handling.statementsLeft (s : Handling) : Nat :=
  let n := s.db.checkpoints.rows.length
  (match s.loop with
    | .idle => 0
    | .handling _ hd => hd.statementsLeft n) + (6 + 2 * n) * s.events.length

section
variable {inp : Input} {hd : Handler} {next : Option Handler} {db db' : Store}

/-- The statements of a handler that has ended, or goes on. -/
def statementsLeftOf (n : Nat) : Option Handler → Nat
  | none => 0
  | some hd => hd.statementsLeft n

theorem statementsLeft_forCheckpoints (n : Nat) (counter : Counter) (now : NaiveDateTime)
    (checkpoints : List Checkpoints.Model) :
    statementsLeftOf n (forCheckpoints counter now checkpoints) ≤ 2 * checkpoints.length := by
  cases checkpoints with
  | nil => exact Nat.le_refl 0
  | cons c rest =>
    show 2 + 2 * rest.length ≤ 2 * (rest.length + 1)
    omega

/-- The event loop adds no checkpoint and removes none. -/
theorem length_checkpoints_of_step (h : hd.step inp db = (next, db')) :
    db'.checkpoints.rows.length = db.checkpoints.rows.length := by
  rcases Handler.step_db h with rfl | ⟨_, _, _, -, hupd⟩ | ⟨_, _, -, hupd⟩ |
    ⟨_, _, _, _, _, -, hupd⟩ | ⟨_, -, hupd⟩ | ⟨_, -, hins⟩
  · rfl
  · obtain ⟨_, -, rfl⟩ := Store.updateApp_eq_ok.mp hupd
    rfl
  · obtain ⟨_, -, rfl⟩ := Store.updateApp_eq_ok.mp hupd
    rfl
  · obtain ⟨_, htable, rfl⟩ := Store.updateCheckpoint_eq_ok.mp hupd
    show List.length _ = _
    rw [(Table.update_eq_some.mp htable).2, Table.rewrite, List.length_map]
  · obtain ⟨_, -, rfl⟩ := Store.updateTimeline_eq_ok.mp hupd
    rfl
  · obtain ⟨-, _, -, rfl⟩ := Store.insertTimeline_eq_ok hins
    rfl

/-- A statement is one less to run. -/
theorem statementsLeft_step (h : hd.step inp db = (next, db')) :
    statementsLeftOf db.checkpoints.rows.length next <
      hd.statementsLeft db.checkpoints.rows.length := by
  have hfor := statementsLeft_forCheckpoints db.checkpoints.rows.length
  cases Handler.statement_of_step h with
  | dropped =>
    cases hd <;> simp only [statementsLeftOf, Handler.statementsLeft] <;> omega
  | @countWritten counter _ _ _ =>
    cases counter <;>
      simp only [statementsLeftOf, Handler.statementsLeft, Counter.updateCheckpoints,
        updateCheckpointDurations, updateCheckpointSessions] <;> omega
  | @activeFound counter appId _ hnext =>
    subst hnext
    have hle : (db.getActiveCheckpointsForApp appId).length ≤ db.checkpoints.rows.length := by
      rw [Store.getActiveCheckpointsForApp, List.length_insertionSort]
      exact List.length_filter_le _ _
    have hrows := hfor counter inp.now (db.getActiveCheckpointsForApp appId)
    simp only [Handler.statementsLeft]
    omega
  | @checkpointSkipped counter now _ rest _ hnext
  | @checkpointWritten counter now _ _ rest _ _ hnext _
  | @checkpointRefused counter now _ _ rest _ hnext =>
    subst hnext
    have hrest := hfor counter now rest
    simp only [Handler.statementsLeft]
    omega
  | _ =>
    simp only [statementsLeftOf, Handler.statementsLeft]
    omega

/-- An event starts with no more statements than are counted for it. -/
theorem statementsLeft_handle (n : Nat) (event : Event) :
    statementsLeftOf n (handle event) ≤ 5 + 2 * n := by
  obtain ⟨item, kind⟩ := event
  cases kind with
  | longestSession =>
    simp only [handle, handleLongestSession]
    split <;> simp only [statementsLeftOf, Handler.statementsLeft] <;> omega
  | _ =>
    simp only [handle, handleDuration, handleLaunches, handleTimeline, statementsLeftOf,
      Handler.statementsLeft]
    omega

theorem statementsLeft_resume (s : Handling) (event : Event) (next : Option Handler) :
    Handling.statementsLeft { s with loop := .resume event next } =
      statementsLeftOf s.db.checkpoints.rows.length next +
        (6 + 2 * s.db.checkpoints.rows.length) * s.events.length := by
  cases next <;> rfl

end

section
variable {s s' : Handling} {inp : Input}

/-- Every step of the event loop leaves less to do. -/
theorem eventLoop_decreases (h : eventLoop.step s inp = some s') :
    s'.statementsLeft < s.statementsLeft := by
  rcases eventLoop_step h with ⟨event, hidle, hevents, hdb, hloop⟩ |
    ⟨event, hd, next, hbusy, hevents, hstep, hloop⟩
  · have hnew : s' = { s' with loop := .resume event (handle event) } := by rw [← hloop]
    rw [hnew, statementsLeft_resume, hdb]
    have hle := statementsLeft_handle s.db.checkpoints.rows.length event
    simp only [Handling.statementsLeft, hidle, hevents, List.length_cons, Nat.mul_add]
    omega
  · have hnew : s' = { s' with loop := .resume event next } := by rw [← hloop]
    rw [hnew, statementsLeft_resume, length_checkpoints_of_step hstep, hevents]
    have hlt := statementsLeft_step hstep
    simp only [Handling.statementsLeft, hbusy]
    omega

/-- The event loop stops only where no event is waiting. -/
theorem exists_eventLoop_step (s : Handling) (inp : Input)
    (hbusy : s.loop ≠ .idle ∨ s.events ≠ []) : ∃ s', eventLoop.step s inp = some s' := by
  obtain ⟨loop, events, db⟩ := s
  cases loop with
  | idle =>
    cases events with
    | nil => exact absurd rfl (hbusy.resolve_left fun h => h rfl)
    | cons event rest => exact ⟨_, rfl⟩
  | handling event hd => exact ⟨_, rfl⟩

/-- **Every event that is waiting gets handled**, whatever the clock says meanwhile. -/
theorem eventLoop_ends (s : Handling) (inputs : Nat → Input)
    (hinputs : ∀ i, (inputs i).err = none) :
    ∃ m s', eventLoop.Runs unfailing s ((List.range m).map inputs) s' ∧
      s'.loop = .idle ∧ s'.events = [] := by
  refine System.exists_run_to Handling.statementsLeft _ inputs (fun _ i => hinputs i)
    (fun s i hbusy => ?_) le_rfl
  obtain ⟨s', hstep⟩ := exists_eventLoop_step s (inputs i) (not_and_or.mp hbusy)
  exact ⟨s', hstep, eventLoop_decreases hstep⟩

end

/-! ## The sessions that are waiting -/

/-- The event of a session of `p` that has ended at `counter`. -/
def sessionEvent (p : String) (counter : Nat) : Event := (sessionItem p counter, .longestSession)

/-- The `LongestSession` events. -/
def sessionEvents (events : List Event) : List Event :=
  events.filter fun event => event.2 = .longestSession

/-- The length of the session that is being handled, as long as it is not recorded. -/
def EventLoop.session : EventLoop → List Int
  | .handling _ (.longestFindApp _ n) | .handling _ (.longestUpdateApp _ n _) => [n]
  | _ => []

/-- The event loop handles a session of `p`, or no session. -/
def EventLoop.sessionOf (p : String) (db : Store) : EventLoop → Prop
  | .handling _ (.longestFindApp q _) => q = p
  | .handling _ (.longestUpdateApp app n _) =>
    db.findApp p = some app ∧ app.longestSession.getD 0 < n
  | _ => True

/-- The `longest_session` of the app with an id. -/
def Store.longestOfId (db : Store) (i : Int) : Option (Option Int) :=
  (db.apps.byKey i).map Apps.Model.longestSession

/-- The sessions of `p` will make its longest session `goal`, and the other apps are as they were
in `db₀`. -/
structure LongestInvariant (p : String) (goal : Int) (db₀ : Store) (s : Handling) : Prop where
  identities : s.db.identities = db₀.identities
  loop : s.loop.sessionOf p s.db
  waiting : ∃ counters : List Nat, (∀ n ∈ counters, n ≤ 2147483647) ∧
    sessionEvents s.events = counters.map (sessionEvent p) ∧
    (s.loop.session ++ counters.map Nat.cast).foldl max (s.db.longestSessionOf p) = goal
  others : ∀ i, db₀.idOf p ≠ some i → s.db.longestOfId i = db₀.longestOfId i

section
variable {inp : Input} {hd hd' : Handler} {next : Option Handler} {db db' : Store} {p : String}
  {event : Event} {app : Apps.Model}

theorem session_of_kind_ne (h : hd.kind ≠ .longestSession) :
    (EventLoop.handling event hd).session = [] := by
  cases hd with
  | longestFindApp | longestUpdateApp => exact absurd rfl h
  | _ => rfl

theorem sessionOf_of_kind_ne (h : hd.kind ≠ .longestSession) :
    (EventLoop.handling event hd).sessionOf p db := by
  cases hd with
  | longestFindApp | longestUpdateApp => exact absurd rfl h
  | _ => trivial

/-- A loop that does not handle a session, before and after. -/
theorem resume_of_kind_ne (event : Event) (p : String) (db : Store)
    (h : ∀ hd, next = some hd → hd.kind ≠ .longestSession) :
    (EventLoop.resume event next).session = [] ∧ (EventLoop.resume event next).sessionOf p db := by
  cases next with
  | none => exact ⟨rfl, trivial⟩
  | some hd => exact ⟨session_of_kind_ne (h hd rfl), sessionOf_of_kind_ne (h hd rfl)⟩

theorem kind_of_handle (h : handle event = some hd) : hd.kind = event.2 := by
  obtain ⟨item, kind⟩ := event
  cases kind with
  | longestSession =>
    simp only [handle, handleLongestSession] at h
    split at h <;> cases h
    rfl
  | _ =>
    cases h
    rfl

/-- An update of the table of the apps that leaves the longest sessions alone. -/
theorem longest_of_keep {id : Int} {set : Apps.Model → Apps.Model}
    {hset : ∀ a, Keyed.key (set a) = Keyed.key a} (hupd : db.updateApp id set hset = .ok db')
    (hname : ∀ a, (set a).name = a.name) (hkeep : ∀ a, (set a).longestSession = a.longestSession) :
    (∀ p, db'.longestSessionOf p = db.longestSessionOf p) ∧
      ∀ i, db'.longestOfId i = db.longestOfId i := by
  constructor
  · intro p
    rw [Store.longestSessionOf, Store.columnOf, Store.findApp_updateApp hupd hname, Store.columnOf]
    cases db.findApp p with
    | none => rfl
    | some a =>
      rw [Option.map_some, Option.bind_some, Option.bind_some]
      split
      · rw [hkeep]
      · rfl
  · intro i
    obtain ⟨apps, htable, rfl⟩ := Store.updateApp_eq_ok.mp hupd
    simp only [Store.longestOfId, Table.byKey_update htable]
    split
    · rw [Option.map_map]
      exact congrArg (Option.map · (db.apps.byKey i)) (funext hkeep)
    · rfl

/-- A statement that leaves the table of the apps alone. -/
theorem longest_of_apps_eq (happs : db'.apps = db.apps) :
    (∀ p, db'.longestSessionOf p = db.longestSessionOf p) ∧
      ∀ i, db'.longestOfId i = db.longestOfId i := by
  constructor
  · exact fun p => Store.columnOf_congr happs
  · intro i
    rw [Store.longestOfId, happs, Store.longestOfId]

/-- The handler of any other event leaves the longest sessions alone. -/
theorem longest_of_kind_ne (hkind : hd.kind ≠ .longestSession)
    (h : hd.step inp db = (next, db')) :
    (∀ p, db'.longestSessionOf p = db.longestSessionOf p) ∧
      ∀ i, db'.longestOfId i = db.longestOfId i := by
  rcases Handler.step_db h with rfl | ⟨_, _, _, rfl, -⟩ | ⟨counter, _, -, hupd⟩ |
    ⟨_, _, _, _, _, -, hupd⟩ | ⟨_, -, hupd⟩ | ⟨_, -, hins⟩
  · exact ⟨fun _ => rfl, fun _ => rfl⟩
  · exact absurd rfl hkind
  · exact longest_of_keep hupd (counter.setApp_name _) (counter.setApp_longestSession _)
  · obtain ⟨_, -, rfl⟩ := Store.updateCheckpoint_eq_ok.mp hupd
    exact longest_of_apps_eq rfl
  · obtain ⟨_, -, rfl⟩ := Store.updateTimeline_eq_ok.mp hupd
    exact longest_of_apps_eq rfl
  · obtain ⟨-, _, -, rfl⟩ := Store.insertTimeline_eq_ok hins
    exact longest_of_apps_eq rfl

/-- The update of `handle_longest_session` writes the longest session of its app, and no other. -/
theorem longest_of_updateApp {n : Int} {date : NaiveDate} (happ : db.findApp p = some app)
    (hupd : db.updateApp app.id (setLongestSession n date) (fun _ => rfl) = .ok db') :
    db'.longestSessionOf p = n ∧
      ∀ i, db.idOf p ≠ some i → db'.longestOfId i = db.longestOfId i := by
  constructor
  · rw [Store.longestSessionOf, Store.columnOf_updateApp _ happ hupd fun _ => rfl, if_pos rfl]
    rfl
  · intro i hi
    have hne : i ≠ app.id := fun heq => hi (by rw [Store.idOf, happ, heq, Option.map_some])
    obtain ⟨apps, htable, rfl⟩ := Store.updateApp_eq_ok.mp hupd
    simp only [Store.longestOfId, Table.byKey_update htable, if_neg hne]

end

/-! ## One step -/

section
variable {inp : Input} {db₀ : Store} {s s' : Handling} {p : String} {goal : Int}

/-- The event loop takes an event. -/
theorem longestInvariant_take {event : Event} (hp : ';' ∉ p.toList)
    (hinv : LongestInvariant p goal db₀ s) (hidle : s.loop = .idle)
    (hevents : s.events = event :: s'.events) (hdb : s'.db = s.db)
    (hloop : s'.loop = .resume event (handle event)) : LongestInvariant p goal db₀ s' := by
  obtain ⟨counters, hfits, hwaiting, hgoal⟩ := hinv.waiting
  rw [hidle] at hgoal
  by_cases hkind : event.2 = .longestSession
  · -- the next session: it is read as it was sent
    rw [hevents, sessionEvents, List.filter_cons_of_pos (by simpa using hkind)] at hwaiting
    cases counters with
    | nil => cases hwaiting
    | cons n counters =>
      rw [List.map_cons, List.cons.injEq] at hwaiting
      have hn := hfits n List.mem_cons_self
      have hhandle : handle event = some (.longestFindApp p n) := by
        rw [hwaiting.1]
        show handleLongestSession (sessionItem p n) = _
        rw [handleLongestSession_sessionItem hp, if_pos hn]
      rw [hhandle] at hloop
      refine ⟨hdb ▸ hinv.identities, ?_, ⟨counters, fun m hm =>
        hfits m (List.mem_cons_of_mem n hm), hwaiting.2, ?_⟩, hdb ▸ hinv.others⟩
      · rw [hloop]
        rfl
      · rw [hloop, hdb]
        exact hgoal
  · rw [hevents, sessionEvents, List.filter_cons_of_neg (by simpa using hkind)] at hwaiting
    have hnext : ∀ hd, handle event = some hd → hd.kind ≠ .longestSession := fun hd hhandle => by
      rw [kind_of_handle hhandle]
      exact hkind
    have hother := resume_of_kind_ne event p s'.db hnext
    refine ⟨hdb ▸ hinv.identities, ?_, ⟨counters, hfits, hwaiting, ?_⟩, hdb ▸ hinv.others⟩
    · rw [hloop]
      exact hother.2
    · rw [hloop, hother.1, hdb]
      exact hgoal

/-- The handler of a session looks up its app, and compares the lengths. -/
theorem longestInvariant_find {event : Event} {q : String} {n : Int} {next : Option Handler}
    (hmem : p ∈ db₀.appNames) (hinv : LongestInvariant p goal db₀ s)
    (hbusy : s.loop = .handling event (.longestFindApp q n)) (hevents : s'.events = s.events)
    (hinp : inp.err = none)
    (hstep : (Handler.longestFindApp q n).step inp s.db = (next, s'.db))
    (hloop : s'.loop = .resume event next) : LongestInvariant p goal db₀ s' := by
  obtain ⟨counters, hfits, hwaiting, hgoal⟩ := hinv.waiting
  have hq : q = p := by
    have hloop := hinv.loop
    rw [hbusy] at hloop
    exact hloop
  have hnames : p ∈ s.db.appNames := by
    rw [Store.appNames_eq, hinv.identities, ← Store.appNames_eq]
    exact hmem
  obtain ⟨app, happ⟩ := Store.findApp_isSome hnames
  rw [hq] at hstep
  simp only [Handler.step, Input.statement_of_none hinp, happ, afterLongestFind] at hstep
  have hlongest : s.db.longestSessionOf p = app.longestSession.getD 0 :=
    Store.columnOf_of_findApp _ happ
  rw [hbusy] at hgoal
  split at hstep
  · next hlonger =>
    obtain ⟨rfl, hdb⟩ := Prod.mk.inj hstep
    refine ⟨hdb ▸ hinv.identities, ?_, ⟨counters, hfits, hevents ▸ hwaiting, ?_⟩,
      hdb ▸ hinv.others⟩
    · rw [hloop, ← hdb]
      exact ⟨happ, hlonger⟩
    · rw [hloop, ← hdb]
      exact hgoal
  · next hnot =>
    obtain ⟨rfl, hdb⟩ := Prod.mk.inj hstep
    refine ⟨hdb ▸ hinv.identities, ?_, ⟨counters, hfits, hevents ▸ hwaiting, ?_⟩,
      hdb ▸ hinv.others⟩
    · rw [hloop]
      trivial
    · -- no longer than the longest so far, which is the maximum already
      rw [hloop, ← hdb]
      have hmax : max (s.db.longestSessionOf p) n = s.db.longestSessionOf p :=
        max_eq_left (by rw [hlongest]; exact not_lt.mp hnot)
      rw [← hgoal]
      show List.foldl max _ (List.map Nat.cast counters) =
        List.foldl max (max (s.db.longestSessionOf p) n) (List.map Nat.cast counters)
      rw [hmax]

/-- The handler of a session writes a new longest session. -/
theorem longestInvariant_update {event : Event} {app : Apps.Model} {n : Int} {date : NaiveDate}
    {next : Option Handler} (hinv : LongestInvariant p goal db₀ s)
    (hbusy : s.loop = .handling event (.longestUpdateApp app n date))
    (hevents : s'.events = s.events) (hinp : inp.err = none)
    (hstep : (Handler.longestUpdateApp app n date).step inp s.db = (next, s'.db))
    (hloop : s'.loop = .resume event next) : LongestInvariant p goal db₀ s' := by
  obtain ⟨counters, hfits, hwaiting, hgoal⟩ := hinv.waiting
  obtain ⟨happ, hlonger⟩ : s.db.findApp p = some app ∧ app.longestSession.getD 0 < n := by
    have hloop := hinv.loop
    rw [hbusy] at hloop
    exact hloop
  obtain ⟨db, hupd⟩ : ∃ db, s.db.updateApp app.id (setLongestSession n date) (fun _ => rfl) =
      .ok db := Store.updateApp_isOk _ happ
  simp only [Handler.step, Input.statement_of_none hinp, hupd] at hstep
  cases hstep
  obtain ⟨hnow, hothers⟩ := longest_of_updateApp happ hupd
  have hlongest : s.db.longestSessionOf p = app.longestSession.getD 0 :=
    Store.columnOf_of_findApp _ happ
  refine ⟨?_, ?_, ⟨counters, hfits, hevents ▸ hwaiting, ?_⟩, fun i hi => ?_⟩
  · rw [Store.identities_updateApp hupd fun _ => rfl, hinv.identities]
  · rw [hloop]
    trivial
  · have hmax : max (s.db.longestSessionOf p) n = n :=
      max_eq_right (by rw [hlongest]; exact hlonger.le)
    rw [hbusy] at hgoal
    rw [hloop, hnow, ← hgoal]
    show List.foldl max n _ =
      List.foldl max (max (s.db.longestSessionOf p) n) (List.map Nat.cast counters)
    rw [hmax]
    rfl
  · rw [← Store.idOf_congr hinv.identities] at hi
    rw [hothers i hi]
    exact hinv.others i (Store.idOf_congr hinv.identities p ▸ hi)

/-- **One step of the event loop**: what the longest session of `p` is going to be stays the same,
and the longest sessions of the other apps stay as they are. -/
theorem longestInvariant_step (hp : ';' ∉ p.toList) (hmem : p ∈ db₀.appNames) (s : Handling)
    (inp : Input) (s' : Handling) (hinv : LongestInvariant p goal db₀ s) (hinp : unfailing s inp)
    (hstep : eventLoop.step s inp = some s') : LongestInvariant p goal db₀ s' := by
  rcases eventLoop_step hstep with ⟨event, hidle, hevents, hdb, hloop⟩ |
    ⟨event, hd, next, hbusy, hevents, hstep, hloop⟩
  · exact longestInvariant_take hp hinv hidle hevents hdb hloop
  · by_cases hkind : hd.kind = .longestSession
    · cases hd with
      | longestFindApp q n =>
        exact longestInvariant_find hmem hinv hbusy hevents hinp hstep hloop
      | longestUpdateApp app n date =>
        exact longestInvariant_update hinv hbusy hevents hinp hstep hloop
      | countFindApp counter | countUpdateApp counter | countFindActive counter
      | countFindCheckpoint counter | countUpdateCheckpoint counter =>
        cases counter <;> cases hkind
      | _ => cases hkind
    · -- a handler of another event goes on with one of the same kind
      obtain ⟨counters, hfits, hwaiting, hgoal⟩ := hinv.waiting
      obtain ⟨hsame, hothers⟩ := longest_of_kind_ne hkind hstep
      have hnext : ∀ hd', next = some hd' → hd'.kind ≠ .longestSession := fun hd' hnext => by
        rw [hnext] at hstep
        rw [Handler.step_kind hstep]
        exact hkind
      have hother := resume_of_kind_ne event p s'.db hnext
      have hidentities : s'.db.identities = s.db.identities := by
        have hall : EventLoop.step inp (.handling event hd) s.events s.db =
            some (.resume event next, s.events, s'.db) := by
          simp only [EventLoop.step, hstep]
        exact EventLoop.step_identities hall
      refine ⟨hidentities.trans hinv.identities, ?_, ⟨counters, hfits, hevents ▸ hwaiting, ?_⟩,
        fun i hi => (hothers i).trans (hinv.others i hi)⟩
      · rw [hloop]
        exact hother.2
      · rw [hbusy, session_of_kind_ne hkind] at hgoal
        rw [hloop, hother.1, hsame]
        exact hgoal

end

/-! ## Sequences of sessions -/

/-- The sessions of `p` are recorded as they were sent, among any other events. -/
structure SessionsRecorded (p : String) : Prop where
  decodes : ∀ n : Nat, n ≤ 2147483647 →
    handleLongestSession (sessionItem p n) = some (.longestFindApp p n)
  ends : ∀ (db : Store) (events : List Event) (inputs : Nat → Input),
    (∀ i, (inputs i).err = none) →
    ∃ m s', eventLoop.Runs unfailing ⟨.idle, events, db⟩ ((List.range m).map inputs) s' ∧
      s'.loop = .idle ∧ s'.events = []
  /-- once all events are handled, the longest session is the maximum, and no other app has got
  another longest session -/
  maximum : ∀ (db : Store) (events : List Event) (counters : List Nat) (inputs : List Input)
    (s' : Handling), p ∈ db.appNames → (∀ n ∈ counters, n ≤ 2147483647) →
    sessionEvents events = counters.map (sessionEvent p) →
    eventLoop.Runs unfailing ⟨.idle, events, db⟩ inputs s' → s'.loop = .idle → s'.events = [] →
    s'.db.longestSessionOf p = (counters.map Nat.cast).foldl max (db.longestSessionOf p) ∧
      ∀ i, db.idOf p ≠ some i → s'.db.longestOfId i = db.longestOfId i

/-- The name that is read from an item has no semicolon. -/
theorem notMem_of_decodes {p : String} {n : Nat} {m : Int}
    (h : handleLongestSession (sessionItem p n) = some (.longestFindApp p m)) :
    ';' ∉ p.toList := by
  have hhandle : handle (sessionEvent p n) = some (.longestFindApp p m) := h
  have hname : p = eventApp (sessionEvent p n) := Option.some.inj (appName_of_handle hhandle)
  intro hmem
  rw [hname] at hmem
  simp only [eventApp, sessionEvent, String.toList_ofList] at hmem
  exact absurd (List.mem_takeWhile_imp hmem) (by simp)

/-- **The sessions of an app are recorded as they were sent** if and only if its name has no
semicolon. -/
theorem longest_session_iff (p : String) : SessionsRecorded p ↔ ';' ∉ p.toList := by
  constructor
  · intro hrecorded
    exact notMem_of_decodes (hrecorded.decodes 0 (Nat.zero_le _))
  · intro hp
    refine ⟨fun n hn => ?_, fun db events inputs => eventLoop_ends _ inputs,
      fun db events counters inputs s' hmem hfits hevents hrun hidle hempty => ?_⟩
    · rw [handleLongestSession_sessionItem hp, if_pos hn]
    · have hstart : LongestInvariant p
          ((counters.map Nat.cast).foldl max (db.longestSessionOf p)) db ⟨.idle, events, db⟩ :=
        ⟨rfl, trivial, ⟨counters, hfits, hevents, rfl⟩, fun _ _ => rfl⟩
      have hend := hrun.invariant (longestInvariant_step hp hmem) hstart
      obtain ⟨rest, -, hrest, hgoal⟩ := hend.waiting
      -- nothing is waiting, so nothing is left to be recorded
      have hnone : rest = [] := by
        rw [hempty] at hrest
        exact (List.map_eq_nil_iff.mp hrest.symm)
      rw [hidle, hnone] at hgoal
      exact ⟨hgoal, hend.others⟩

/-- The apps `a;7` and `a`. -/
def semicolonStore : Store :=
  { storeWithA with
    apps := ⟨[AddProcess.newApp "a;7" "a" 1, AddProcess.newApp "a" "a" 2], by decide⟩ }

/-- **A session of `a;7` is recorded as one of `a`**, and with another length. -/
theorem longest_session_semicolon : ¬ ∀ p : String, SessionsRecorded p := by
  intro hall
  have hend : (eventLoop.execWhere unfailing ⟨.idle, [sessionEvent "a;7" 5], semicolonStore⟩
      [{}, {}, {}]).map (fun s => decide (s.loop = .idle ∧ s.events = [] ∧
        s.db.longestOfId 2 = some (some 7))) = some true := by
    decide
  obtain ⟨s, hexec, hs⟩ := Option.map_eq_some_iff.mp hend
  obtain ⟨hidle, hempty, hseven⟩ := of_decide_eq_true hs
  have hother := ((hall "a;7").maximum semicolonStore [sessionEvent "a;7" 5] [5] _ s (by decide)
    (by decide) rfl (System.runs_of_execWhere hexec) hidle hempty).2 2 (by decide)
  rw [hseven] at hother
  cases hother

end TimeTracker
