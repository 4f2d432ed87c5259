import Mathlib.Algebra.Order.BigOperators.Group.List
import TimeTracker.TimelineDays
import TimeTracker.TwoLedgers

/-!
# The sessions in the ledgers

A session leaves three traces in the tables. Its `Launches` event is counted in the row of the app,
its ticks are counted in the duration and, day by day, in the timeline, and its `LongestSession`
event raises the longest session to its length. In a run without pause the traces of all sessions
of an app add up:

* `SessionBooks`: the launches are the sessions, the duration is the sum of their ticks, and no
  session is longer than the longest one, up to the events still to be written.
* `DaysInvariant`: the timeline rows of an app are one for each day on which one of its `Timeline`
  events was handled.
* **`sessionLedger_of_run`**: both, in every state of every run.
-/

namespace TimeTracker

/-! ## Workers -/

/-- A worker that has not sent its `Launches` event. -/
def Worker.beforeLaunch (w : Worker) : Bool := w.point = .start || w.point = .sendLaunches

/-- A worker that has sent its `LongestSession` event. -/
def Worker.reported (w : Worker) : Bool := w.point = .farewell || w.point = .finished

/-- What a step of a worker outside a pause sends at the two ends of its session. -/
structure WorkerReports (w w' : Worker) (sent : List Event) : Prop where
  launch : (if w'.beforeLaunch then 1 else 0) + sent.count (w.p, .launches) =
    if w.beforeLaunch then 1 else 0
  report : w'.reported = true → w'.counter = w.counter ∧
    (w.reported = true ∨ (sessionItem w.p w.counter, .longestSession) ∈ sent)

theorem Worker.step_reports {inp : Input} {w w' : Worker} {s s' : Shared}
    (hpause : s.pause = false) (h : w.step inp s = some (w', s')) :
    WorkerReports w w' w.sends := by
  obtain ⟨hcounter, hnext⟩ := Worker.step_point h
  rw [hpause] at hnext
  obtain ⟨p, counter, point⟩ := w
  cases point with
  | finished | panicked => cases hnext
  | lock =>
    simp only [WorkerPoint.next, List.mem_cons, List.not_mem_nil, or_false] at hnext
    rcases hnext with hpoint' | hpoint' | hpoint' | hpoint' <;>
      exact ⟨by simp [Worker.beforeLaunch, Worker.sends, hpoint'],
        by simp [Worker.reported, hpoint']⟩
  | sendLongest =>
    have hpoint' : w'.point = .farewell := List.mem_singleton.mp hnext
    exact ⟨by simp [Worker.beforeLaunch, Worker.sends, hpoint'],
      fun _ => ⟨hcounter, .inr (List.mem_singleton_self _)⟩⟩
  | farewell =>
    have hpoint' : w'.point = .finished := List.mem_singleton.mp hnext
    exact ⟨by simp [Worker.beforeLaunch, Worker.sends, hpoint'], fun _ => ⟨hcounter, .inl rfl⟩⟩
  | _ =>
    -- before the launch, or in the loop
    have hpoint' := List.mem_singleton.mp hnext
    exact ⟨by simp [Worker.beforeLaunch, Worker.sends, hpoint'],
      by simp [Worker.reported, hpoint']⟩

/-! ## The books of the sessions -/

/-- The sessions of `p`, ended or not. -/
def sessionsOf (p : String) (workers : List Worker) : Nat := workers.countP fun w => w.p = p

/-- The sessions of `p` whose `Launches` event is not sent yet. -/
def sessionsBeforeLaunch (p : String) (workers : List Worker) : Nat :=
  workers.countP fun w => w.p = p && w.beforeLaunch

/-- The ticks of all sessions of `p`. -/
def ticksOf (p : String) (workers : List Worker) : Nat :=
  (workers.map fun w => if w.p = p then w.ticks else 0).sum

def Store.launchesOf : Store → String → Int := Store.columnOf Apps.Model.launches

/-- The events `es` are still to be written, oldest first. A session longer than an `i32` is
read as an empty one. -/
structure SessionBooks (db : Store) (es : List Event) (workers : List Worker) : Prop where
  owners : ∀ w ∈ workers, w.p ∈ db.appNames
  launches : ∀ p ∈ db.appNames, db.launchesOf p + es.count (p, .launches) +
    sessionsBeforeLaunch p workers = sessionsOf p workers
  ticks : ∀ p ∈ db.appNames, db.durationOf p + es.count (p, .duration) = ticksOf p workers
  longest : ∀ w ∈ workers, w.reported = true → w.counter ≤ 2147483647 →
    (w.counter : Int) ≤ db.longestSessionOf w.p ∨
      ∃ e ∈ es, sessionOf e = some (w.p, (w.counter : Int))

section
variable {db db' : Store} {es : List Event} {workers : List Worker} {e : Event} {p : String}

/-- **A worker moves on.** -/
theorem SessionBooks.send {w w' : Worker} {k : Nat} {sent : List Event}
    (hbooks : SessionBooks db es workers) (hsemi : ∀ p ∈ db.appNames, ';' ∉ p.toList)
    (hk : workers[k]? = some w) (hp : w'.p = w.p) (hsends : WorkerSends w w' sent)
    (hreports : WorkerReports w w' sent) : SessionBooks db (es ++ sent) (workers.set k w') := by
  have hmem := hbooks.owners w (List.mem_of_getElem? hk)
  have hother : ∀ q kind, kind ≠ .longestSession → q ≠ w.p → sent.count (q, kind) = 0 :=
    fun _ _ => hsends.count_of_ne (hsemi w.p hmem)
  refine ⟨?_, fun q hq => ?_, fun q hq => ?_, ?_⟩
  · refine Pool.forall_set ?_ hbooks.owners fun _ _ _ _ hu => hu
    rw [hp]
    exact hmem
  · have hlaunches := hbooks.launches q hq
    have hlaunch := hreports.launch
    have hall := Pool.countP_set (fun w => w.p = q) w' hk
    have hbefore := Pool.countP_set (fun w => w.p = q && w.beforeLaunch) w' hk
    unfold sessionsBeforeLaunch sessionsOf at *
    rw [List.count_append]
    by_cases hqp : q = w.p
    · subst hqp
      simp only [hp, decide_true, Bool.true_and] at hall hbefore
      omega
    · have hne : w.p ≠ q := fun h => hqp h.symm
      rw [hother q .launches (by decide) hqp]
      simp only [hp, hne, decide_false, Bool.false_and, Bool.false_eq_true, if_false]
        at hall hbefore
      omega
  · have hticks := hbooks.ticks q hq
    have hcount := hsends.ticks
    have hsum := Pool.sum_set (fun w => if w.p = q then w.ticks else 0) w' hk
    unfold ticksOf at *
    rw [List.count_append]
    by_cases hqp : q = w.p
    · subst hqp
      rw [if_pos hp, if_pos rfl] at hsum
      omega
    · have hne : ¬ w.p = q := fun h => hqp h.symm
      rw [hother q .duration (by decide) hqp]
      have hne' : ¬ w'.p = q := by
        rw [hp]
        exact hne
      rw [if_neg hne', if_neg hne] at hsum
      omega
  · -- the report of the worker is among the events, or it was there before
    have hkeep : ∀ u ∈ workers, u.reported = true → u.counter ≤ 2147483647 →
        (u.counter : Int) ≤ db.longestSessionOf u.p ∨
          ∃ e ∈ es ++ sent, sessionOf e = some (u.p, (u.counter : Int)) := by
      intro u hu hreported hle
      refine (hbooks.longest u hu hreported hle).imp_right ?_
      intro ⟨e, he, hsession⟩
      exact ⟨e, List.mem_append_left _ he, hsession⟩
    refine Pool.forall_set ?_ hkeep fun _ _ _ _ hu => hu
    intro hreported hle
    obtain ⟨hcounter, hsent⟩ := hreports.report hreported
    rw [hp, hcounter]
    rw [hcounter] at hle
    rcases hsent with hold | hnew
    · exact hkeep w (List.mem_of_getElem? hk) hold hle
    · refine .inr ⟨_, List.mem_append_right _ hnew, ?_⟩
      rw [sessionOf_sessionItem (hsemi w.p hmem), if_pos hle]

/-- A new session has not launched, and has no ticks. -/
theorem SessionBooks.spawn (hbooks : SessionBooks db es workers) (hp : p ∈ db.appNames) :
    SessionBooks db es (workers ++ [Worker.spawned p]) where
  owners w hw := by
    rcases List.mem_append.mp hw with hw | hw
    · exact hbooks.owners w hw
    · rw [List.mem_singleton.mp hw]
      exact hp
  launches q hq := by
    have hlaunches := hbooks.launches q hq
    have hbefore : (Worker.spawned p).beforeLaunch = true := rfl
    have hspawned : (Worker.spawned p).p = p := rfl
    unfold sessionsBeforeLaunch sessionsOf at *
    rw [List.countP_append, List.countP_append, List.countP_singleton, List.countP_singleton,
      hbefore, Bool.and_true, hspawned]
    omega
  ticks q hq := by
    have hticks := hbooks.ticks q hq
    have hzero : (if (Worker.spawned p).p = q then (Worker.spawned p).ticks else 0) = 0 := by
      split <;> rfl
    unfold ticksOf at *
    rw [List.map_append, List.sum_append, List.map_singleton, List.sum_singleton, hzero]
    omega
  longest w hw hreported hle := by
    rcases List.mem_append.mp hw with hw | hw
    · exact hbooks.longest w hw hreported hle
    · rw [List.mem_singleton.mp hw] at hreported
      cases hreported

/-- The books are in the table `apps`. -/
theorem SessionBooks.congr (hbooks : SessionBooks db es workers) (happs : db'.apps = db.apps) :
    SessionBooks db' es workers := by
  have hnames : db'.appNames = db.appNames := by rw [Store.appNames, happs, Store.appNames]
  have hlaunches : ∀ q, db'.launchesOf q = db.launchesOf q := fun _ => Store.columnOf_congr happs
  have hduration : ∀ q, db'.durationOf q = db.durationOf q := fun _ => Store.columnOf_congr happs
  have hlongest : ∀ q, db'.longestSessionOf q = db.longestSessionOf q :=
    fun _ => Store.columnOf_congr happs
  constructor
  all_goals simp only [hnames, hlaunches, hduration, hlongest]
  · exact hbooks.owners
  · exact hbooks.launches
  · exact hbooks.ticks
  · exact hbooks.longest

/-- What the end of an event leaves in the row of an app, next to `Applied`: a launch is counted,
and a longest session is raised. -/
structure SessionApplied (event : Event) (db db' : Store) : Prop where
  launches : ∀ p ∈ db.appNames,
    db'.launchesOf p = db.launchesOf p + if event = (p, .launches) then 1 else 0
  keeps : ∀ p, db.longestSessionOf p ≤ db'.longestSessionOf p
  raises : ∀ p n, sessionOf event = some (p, n) → n ≤ db'.longestSessionOf p

/-- **The oldest event is written.** -/
theorem SessionBooks.apply (hbooks : SessionBooks db (e :: es) workers)
    (happlied : Applied e db db') (hsession : SessionApplied e db db')
    (hnames : db'.appNames = db.appNames) : SessionBooks db' es workers := by
  have hcount : ∀ q kind, (e :: es).count (q, kind) =
      es.count (q, kind) + if e = (q, kind) then 1 else 0 := by
    intro q kind
    rw [List.count_cons]
    simp only [beq_iff_eq]
  refine ⟨fun w hw => ?_, fun q hq => ?_, fun q hq => ?_, fun w hw hreported hle => ?_⟩
  · rw [hnames]
    exact hbooks.owners w hw
  · rw [hnames] at hq
    have hlaunches := hbooks.launches q hq
    rw [hcount] at hlaunches
    rw [hsession.launches q hq, ← hlaunches]
    split <;> push_cast <;> ring
  · rw [hnames] at hq
    have hticks := hbooks.ticks q hq
    rw [hcount] at hticks
    rw [happlied.duration q hq, ← hticks]
    split <;> push_cast <;> ring
  · rcases hbooks.longest w hw hreported hle with hold | ⟨x, hx, hof⟩
    · exact .inl (le_trans hold (hsession.keeps w.p))
    · rcases List.mem_cons.mp hx with rfl | hx
      · exact .inl (hsession.raises w.p _ hof)
      · exact .inr ⟨x, hx, hof⟩

/-- **A new app** has no sessions. -/
theorem SessionBooks.insertApp {row : Apps.Model} (hbooks : SessionBooks db es workers)
    (hname : row.name = some p) (hnew : p ∉ db.appNames) (hduration : row.duration = some 0)
    (hlaunches : row.launches = some 0) (hnamed : ∀ e ∈ es, eventApp e ∈ db.appNames)
    (h : db.insertApp row = .ok db') : SessionBooks db' es workers := by
  have hold := fun q => Store.mem_appNames_insertApp_iff h hname (q := q)
  have hsame : ∀ q ∈ db.appNames, ∀ column, db'.columnOf column q = db.columnOf column q :=
    fun q hq => (Store.ledgers_insertApp_of_mem h hq).1
  have hcount : ∀ kind, kind ≠ ReceiveTypes.longestSession → es.count (p, kind) = 0 :=
    fun _ => count_eq_zero_of_named hnamed hnew
  have hother : ∀ w ∈ workers, w.p ≠ p := fun w hw heq => hnew (heq ▸ hbooks.owners w hw)
  refine ⟨fun w hw => (hold _).mpr (.inl (hbooks.owners w hw)), fun q hq => ?_, fun q hq => ?_,
    fun w hw hreported hle => ?_⟩
  · rcases (hold q).mp hq with hq | rfl
    · show db'.columnOf _ q + _ + _ = _
      rw [hsame q hq]
      exact hbooks.launches q hq
    · have hnone : sessionsOf q workers = 0 :=
        List.countP_eq_zero.mpr fun w hw => by simpa using hother w hw
      have hnone' : sessionsBeforeLaunch q workers = 0 :=
        List.countP_eq_zero.mpr fun w hw => by simp [hother w hw]
      rw [hnone, hnone', hcount _ (by decide), Store.launchesOf,
        Store.columnOf_insertApp_self h hname hnew hlaunches]
      rfl
  · rcases (hold q).mp hq with hq | rfl
    · show db'.columnOf _ q + _ = _
      rw [hsame q hq]
      exact hbooks.ticks q hq
    · have hnone : ticksOf q workers = 0 := by
        refine List.sum_eq_zero fun x hx => ?_
        obtain ⟨w, hw, rfl⟩ := List.mem_map.mp hx
        exact if_neg (hother w hw)
      rw [hnone, hcount _ (by decide), Store.durationOf,
        Store.columnOf_insertApp_self h hname hnew hduration]
      rfl
  · have hlongest : db'.longestSessionOf w.p = db.longestSessionOf w.p :=
      hsame w.p (hbooks.owners w hw) _
    rw [hlongest]
    exact hbooks.longest w hw hreported hle

end

/-! ## The handlers -/

section
variable {inp : Input} {event : Event} {hd hd' : Handler} {next : Option Handler} {db db' : Store}
  {p : String} {app : Apps.Model}

/-- A handler that is going to write the longest session is going to raise it. -/
def Handler.raises : Handler → Prop
  | .longestUpdateApp app n _ => app.longestSession.getD 0 ≤ n
  | _ => True

theorem raises_of_handle (h : handle event = some hd) : hd.raises := by
  have hname := appName_of_handle h
  cases hd <;> first | exact True.intro | cases hname

/-- An item that is no session item ends no session. -/
theorem sessionOf_of_handle_eq_none (h : handle event = none) : sessionOf event = none := by
  obtain ⟨item, kind⟩ := event
  cases kind with
  | longestSession =>
    have hitem : handleLongestSession item = none := h
    simp only [sessionOf, hitem]
  | _ => cases h

theorem Handler.step_raises (h : hd.step inp db = (some hd', db')) : hd'.raises := by
  cases Handler.statement_of_step h with
  | longestFound _ hlonger => exact le_of_lt hlonger
  | @countWritten counter _ _ _ => cases counter <;> trivial
  | activeFound hnext | checkpointSkipped hnext | checkpointWritten hnext _
  | checkpointRefused hnext =>
    obtain ⟨checkpoint, rest, -, rfl⟩ := forCheckpoints_eq_some hnext
    trivial
  | _ => trivial

/-- A handler of a `Timeline` event handles one. -/
theorem kind_of_consistent (hkind : hd.kind = .timeline) (hcons : hd.consistent event db) :
    event.2 = .timeline := by
  have hentry : ∀ appId, entryFor event db appId → event.2 = .timeline := by
    intro appId ⟨q, app, _, _, hevent⟩
    rw [hevent]
  cases hd with
  | timelineFindApp item =>
    rw [show event = (item, .timeline) from hcons]
  | timelineFindEntry appId _ => exact hentry appId hcons
  | timelineUpdate entry => exact hentry entry.appId hcons.2
  | timelineMaxId appId _ => exact hentry appId hcons
  | timelineFirstCheckpoint appId _ _ => exact hentry appId hcons.1
  | timelineInsert row => exact hentry row.appId hcons.1
  | longestFindApp _ _ | longestUpdateApp _ _ _ => cases hkind
  | countFindApp counter _ | countUpdateApp counter _ | countFindActive counter _
  | countFindCheckpoint counter _ _ _ | countUpdateCheckpoint counter _ _ _ _ =>
    cases counter <;> cases hkind

theorem apps_of_kind (hkind : hd.kind = .timeline) (h : hd.step inp db = (next, db')) :
    db'.apps = db.apps := by
  rcases Handler.step_db h with rfl | ⟨_, _, _, rfl, -⟩ | ⟨counter, _, rfl, -⟩ |
    ⟨_, _, _, _, _, -, hupd⟩ | ⟨_, -, hupd⟩ | ⟨_, -, hins⟩
  · rfl
  · cases hkind
  · cases counter <;> cases hkind
  · obtain ⟨_, -, rfl⟩ := Store.updateCheckpoint_eq_ok.mp hupd
    rfl
  · obtain ⟨_, -, rfl⟩ := Store.updateTimeline_eq_ok.mp hupd
    rfl
  · obtain ⟨-, _, -, rfl⟩ := Store.insertTimeline_eq_ok hins
    rfl

/-- An event that leaves the apps alone and ends no session. -/
theorem sessionApplied_of_same (hlaunches : event.2 ≠ .launches) (hsession : sessionOf event = none)
    (happs : db'.apps = db.apps) : SessionApplied event db db' where
  launches q _ := by
    have hne : event ≠ (q, .launches) := fun h => hlaunches (h ▸ rfl)
    rw [if_neg hne, add_zero, Store.launchesOf, Store.columnOf_congr happs]
  keeps q := by
    rw [Store.longestSessionOf, Store.columnOf_congr happs]
  raises q n h := by
    rw [hsession] at h
    cases h

/-- The handlers of `Timeline` events leave the apps alone. -/
theorem sessionApplied_timeline (hkind : hd.kind = .timeline) (hcons : hd.consistent event db)
    (h : hd.step inp db = (next, db')) : SessionApplied event db db' := by
  have hevent : event.2 = .timeline := kind_of_consistent hkind hcons
  apply sessionApplied_of_same
  · rw [hevent]
    decide
  · rw [Option.eq_none_iff_forall_ne_some]
    intro ⟨q, n⟩ hsession
    rw [kind_of_sessionOf hsession] at hevent
    cases hevent
  · exact apps_of_kind hkind h

/-- The update of `handle_duration` and of `handle_launches`. -/
theorem sessionApplied_count {counter : Counter} (hevent : event = (p, counter.kind))
    (happ : db.findApp p = some app)
    (h : db.updateApp app.id (counter.setApp ((counter.ofApp app).getD 0 + 1))
      (counter.setApp_id _) = .ok db') : SessionApplied event db db' := by
  have hname := counter.setApp_name ((counter.ofApp app).getD 0 + 1)
  refine ⟨fun q _ => ?_, fun q => ?_, fun q n hsession => ?_⟩
  · rw [Store.launchesOf, Store.columnOf_updateApp _ happ h hname, hevent]
    by_cases hq : q = p
    · rw [if_pos hq, hq, Store.columnOf_of_findApp _ happ]
      cases counter <;> simp [Counter.kind, Counter.setApp, Counter.ofApp]
    · have hne : ¬ (p, counter.kind) = (q, .launches) := fun he => hq (Prod.ext_iff.mp he).1.symm
      rw [if_neg hq, if_neg hne, add_zero]
  · rw [Store.longestSessionOf, Store.columnOf_updateApp _ happ h hname]
    split
    · next heq => rw [heq, Store.columnOf_of_findApp _ happ, counter.setApp_longestSession]
    · exact le_refl _
  · have hkind := kind_of_sessionOf hsession
    rw [hevent] at hkind
    cases counter <;> cases hkind

/-- The update of `handle_longest_session`. -/
theorem sessionApplied_longest {n : Int} {nowDate : NaiveDate}
    (hsession : sessionOf event = some (p, n)) (happ : db.findApp p = some app)
    (hraises : app.longestSession.getD 0 ≤ n)
    (h : db.updateApp app.id (setLongestSession n nowDate) (fun _ => rfl) = .ok db') :
    SessionApplied event db db' := by
  have hlongest : ∀ q, db'.longestSessionOf q = if q = p then n else db.longestSessionOf q :=
    fun q => Store.columnOf_updateApp _ happ h (fun _ => rfl) q
  refine ⟨fun q _ => ?_, fun q => ?_, fun q m hof => ?_⟩
  · have hne : event ≠ (q, .launches) := by
      intro heq
      rw [heq] at hsession
      cases hsession
    rw [if_neg hne, add_zero, Store.launchesOf,
      Store.columnOf_updateApp _ happ h fun _ => rfl]
    split
    · next hq => rw [hq, Store.columnOf_of_findApp _ happ]; rfl
    · rfl
  · rw [hlongest]
    split
    · next hq =>
      rw [hq, Store.longestSessionOf, Store.columnOf_of_findApp _ happ]
      exact hraises
    · exact le_refl _
  · rw [hsession] at hof
    cases hof
    rw [hlongest, if_pos rfl]

/-- **The last statement of an event**, seen from the sessions. -/
theorem Handler.step_session (hcons : hd.consistent event db) (hraises : hd.raises)
    (hnamed : eventApp event ∈ db.appNames) (herr : inp.err = none) (hw : hd.written = false)
    (hend : (EventLoop.resume event next).unwritten = []) (h : hd.step inp db = (next, db')) :
    SessionApplied event db db' := by
  by_cases hkind : hd.kind = .timeline
  case pos => exact sessionApplied_timeline hkind hcons h
  cases hd with
  | longestFindApp p n =>
    have hsession : sessionOf event = some (p, n) := hcons
    rw [eventApp_of_sessionOf hsession] at hnamed
    obtain ⟨app, happ⟩ := Store.findApp_isSome hnamed
    simp only [Handler.step, Input.statement_of_none herr, happ, afterLongestFind] at h
    split at h
    · -- the update is still to come
      cases h
      cases hend
    · next hle =>
      cases h
      refine ⟨fun q _ => ?_, fun q => le_refl _, fun q m hof => ?_⟩
      · have hne : event ≠ (q, .launches) := by
          intro heq
          rw [heq] at hsession
          cases hsession
        rw [if_neg hne, add_zero]
      · rw [hsession] at hof
        cases hof
        rw [Store.longestSessionOf, Store.columnOf_of_findApp _ happ]
        exact not_lt.mp hle
  | longestUpdateApp app n date =>
    obtain ⟨p, happ, hsession⟩ := hcons
    obtain ⟨db'', hupd⟩ : ∃ db'', db.updateApp app.id (setLongestSession n date) (fun _ => rfl) =
        .ok db'' := Store.updateApp_isOk _ happ
    simp only [Handler.step, Input.statement_of_none herr, hupd] at h
    cases h
    exact sessionApplied_longest hsession happ hraises hupd
  | countFindApp counter item =>
    have hevent : event = (item, counter.kind) := hcons
    rw [hevent, eventApp_of_kind (by cases counter <;> simp [Counter.kind])] at hnamed
    obtain ⟨app, happ⟩ := Store.findApp_isSome hnamed
    simp only [Handler.step, Input.statement_of_none herr, happ] at h
    cases h
    cases hend
  | countUpdateApp counter app =>
    obtain ⟨p, happ, hevent⟩ := hcons
    obtain ⟨db'', hupd⟩ := Store.updateApp_isOk
      (counter.setApp_id ((counter.ofApp app).getD 0 + 1)) happ
    simp only [Handler.step, Input.statement_of_none herr, hupd] at h
    cases h
    exact sessionApplied_count hevent happ hupd
  | countFindActive _ _ | countFindCheckpoint _ _ _ _ | countUpdateCheckpoint _ _ _ _ _ => cases hw
  | _ => exact absurd rfl hkind

end

/-! ## The days of the timeline -/

/-- The apps and days that have a row. -/
def Store.days (db : Store) : List (Int × NaiveDate) := db.timelineEntries.map TimelineEntry.day

/-- The app and the day a handler has still to find a row for, or to insert one. -/
def Handler.dayUnderWay : Handler → Option (Int × NaiveDate)
  | .timelineFindEntry appId today | .timelineMaxId appId today
  | .timelineFirstCheckpoint appId today _ => some (appId, today)
  | .timelineInsert row => some (row.appId, row.date)
  | _ => none

def EventLoop.dayUnderWay : EventLoop → Option (Int × NaiveDate)
  | .idle => none
  | .handling _ hd => hd.dayUnderWay

/-- The days of an app, with the one that is under way. -/
def dayOf (db : Store) (loop : EventLoop) (day : Int × NaiveDate) : Prop :=
  day ∈ db.days ∨ loop.dayUnderWay = some day

section
variable {inp : Input} {event : Event} {hd hd' : Handler} {next : Option Handler} {db db' : Store}

theorem dayUnderWay_of_kind (h : hd.kind ≠ .timeline) : hd.dayUnderWay = none := by
  cases hd <;> first | rfl | exact absurd rfl h

theorem dayUnderWay_resume_of_kind (hkind : hd.kind ≠ .timeline)
    (h : hd.step inp db = (next, db')) : (EventLoop.resume event next).dayUnderWay = none := by
  cases next with
  | none => rfl
  | some hd' =>
    apply dayUnderWay_of_kind
    rw [Handler.step_kind h]
    exact hkind

/-- A minute more in a row is no new day. -/
theorem Store.days_updateTimeline {entry : Timeline.Model}
    (hawaits : ∀ t ∈ db.timelineEntries, t.id = entry.id → t.duration = entry.duration)
    (h : db.updateTimeline entry.id (setTimelineDuration (entry.duration.getD 0 + 1))
      (fun _ => rfl) = .ok db') : db'.days = db.days := by
  have hcounted : TimelineEntry.day ∘ countedIn entry.id = TimelineEntry.day :=
    funext (countedIn_day entry.id)
  unfold Store.days
  rw [entries_updateTimeline hawaits h, List.map_map, hcounted]

theorem Store.days_insertTimeline {row : Timeline.Model} (h : db.insertTimeline row = .ok db') :
    db'.days = db.days ++ [(row.appId, row.date)] := by
  obtain ⟨-, timeline, htable, rfl⟩ := Store.insertTimeline_eq_ok h
  unfold Store.days Store.timelineEntries
  show (timeline.rows.map _).map _ = _
  rw [(Table.insert_eq_some.mp htable).2, List.map_append, List.map_append]
  rfl

/-- The handlers of other events leave the days alone. -/
theorem dayOf_step_of_kind (hkind : hd.kind ≠ .timeline) (h : hd.step inp db = (next, db'))
    (day : Int × NaiveDate) :
    dayOf db' (.resume event next) day ↔ dayOf db (.handling event hd) day := by
  have hdays : db'.days = db.days := by
    unfold Store.days Store.timelineEntries
    rcases Handler.step_db h with rfl | ⟨_, _, _, -, hupd⟩ | ⟨_, _, -, hupd⟩ |
      ⟨_, _, _, _, _, -, hupd⟩ | ⟨entry, rfl, -⟩ | ⟨row, rfl, -⟩
    · rfl
    · obtain ⟨_, -, rfl⟩ := Store.updateApp_eq_ok.mp hupd
      rfl
    · obtain ⟨_, -, rfl⟩ := Store.updateApp_eq_ok.mp hupd
      rfl
    · obtain ⟨_, -, rfl⟩ := Store.updateCheckpoint_eq_ok.mp hupd
      rfl
    · exact absurd rfl hkind
    · exact absurd rfl hkind
  have hnow : (EventLoop.handling event hd).dayUnderWay = none := dayUnderWay_of_kind hkind
  unfold dayOf
  rw [hdays, hnow, dayUnderWay_resume_of_kind hkind h]

/-- **A statement of `handle_timeline`** after it has read the clock keeps the days, with the one
that is under way. -/
theorem dayOf_step (hcons : hd.consistent event db) (hawaits : hd.awaits db) (herr : inp.err = none)
    (hfound : ∀ item, hd ≠ .timelineFindApp item) (h : hd.step inp db = (next, db'))
    (day : Int × NaiveDate) :
    dayOf db' (.resume event next) day ↔ dayOf db (.handling event hd) day := by
  by_cases hkind : hd.kind = .timeline
  case neg => exact dayOf_step_of_kind hkind h day
  cases hd with
  | timelineFindApp item => exact absurd rfl (hfound item)
  | timelineFindEntry appId today =>
    simp only [Handler.step, Input.statement_of_none herr] at h
    cases hentry : db.findTimeline appId today with
    | none =>
      rw [hentry] at h
      cases h
      exact Iff.rfl
    | some entry =>
      rw [hentry] at h
      cases h
      -- the row that was found is the one that was under way
      obtain ⟨hrow, hof⟩ := Table.mem_of_one hentry
      rw [Bool.and_eq_true, decide_eq_true_iff, decide_eq_true_iff] at hof
      have hday : (appId, today) ∈ db.days := by
        rw [← hof.1, ← hof.2]
        exact List.mem_map_of_mem (List.mem_map_of_mem hrow)
      constructor
      · intro hin
        rcases hin with hin | hin
        · exact .inl hin
        · cases hin
      · intro hin
        rcases hin with hin | hin
        · exact .inl hin
        · cases hin
          exact .inl hday
  | timelineUpdate entry =>
    obtain ⟨hrow, -⟩ := hcons
    obtain ⟨db'', hupd⟩ : ∃ db'', db.updateTimeline entry.id
        (setTimelineDuration (entry.duration.getD 0 + 1)) (fun _ => rfl) = .ok db'' :=
      Store.updateTimeline_isOk _ hrow
    simp only [Handler.step, Input.statement_of_none herr, hupd] at h
    cases h
    unfold dayOf
    rw [Store.days_updateTimeline hawaits hupd]
    rfl
  | timelineMaxId appId today =>
    simp only [Handler.step, Input.statement_of_none herr] at h
    cases h
    exact Iff.rfl
  | timelineFirstCheckpoint appId today nextId =>
    cases h
    exact Iff.rfl
  | timelineInsert row =>
    obtain ⟨⟨p, app, happ, hid, -⟩, hfree, hcheckpoint, -⟩ := hcons
    have hkey : row.appId ∈ db.apps.keys := by
      rw [← hid]
      exact Table.key_mem_keys (Store.findApp_eq_some happ).1
    obtain ⟨db'', hins⟩ := Store.insertTimeline_isOk hkey hcheckpoint hfree
    simp only [Handler.step, Input.statement_of_none herr, hins] at h
    cases h
    unfold dayOf
    rw [Store.days_insertTimeline hins, List.mem_append, List.mem_singleton]
    constructor
    · intro hin
      rcases hin with (hin | rfl) | hin
      · exact .inl hin
      · exact .inr rfl
      · cases hin
    · intro hin
      rcases hin with hin | hin
      · exact .inl (.inl hin)
      · cases hin
        exact .inl (.inr rfl)
  | longestFindApp _ _ | longestUpdateApp _ _ _ => cases hkind
  | countFindApp counter _ | countUpdateApp counter _ | countFindActive counter _
  | countFindCheckpoint counter _ _ _ | countUpdateCheckpoint counter _ _ _ _ =>
    cases counter <;> cases hkind

end

/-! ## The program -/

/-- The sessions of a tracker that is never paused, next to its two ledgers. -/
structure SessionLedgerInvariant (c : Config) : Prop where
  ledger : LedgerInvariant c
  timeline : TimelineInvariant c
  names : c.shared.db.appNames.Nodup
  pause : c.shared.pause = false
  calls : ∀ call ∈ c.calls, ∃ add, call = .addProcess add
  raises : ∀ event hd, c.loop = .handling event hd → hd.raises
  books : SessionBooks c.shared.db (unwritten c) c.workers

section
variable {c c' : Config} {inp : Input} {k : Nat}

theorem sessionLedgerInvariant_scan (hinv : SessionLedgerInvariant c)
    (h : tracker.step c (.scan inp) = some c') : SessionLedgerInvariant c' := by
  have hledger := ledgerInvariant_scan hinv.ledger h
  have htimeline := timelineInvariant_step c _ c' hinv.timeline h
  obtain ⟨sc, s, hstep, rfl⟩ := step_scan h
  have hsame : s.db = c.shared.db ∧ s.events = c.shared.events ∧ s.pause = c.shared.pause := by
    rcases Scanner.step_cases hstep with ⟨-, -, rfl⟩ | ⟨_, _, _, -, -, -, -, -, rfl⟩ |
      ⟨_, _, -, -, -, -, -, rfl⟩ | ⟨_, _, -, -, rfl⟩ <;> exact ⟨rfl, rfl, rfl⟩
  obtain ⟨hdb, hevents, hpause⟩ := hsame
  refine ⟨hledger, htimeline, ?_, ?_, hinv.calls, hinv.raises, ?_⟩
  · rw [hdb]
    exact hinv.names
  · rw [hpause]
    exact hinv.pause
  · unfold unwritten
    rw [hdb, hevents]
    exact hinv.books

theorem sessionLedgerInvariant_spawn (hinv : SessionLedgerInvariant c)
    (h : tracker.step c .spawn = some c') : SessionLedgerInvariant c' := by
  have hledger := ledgerInvariant_spawn hinv.ledger h
  have htimeline := timelineInvariant_step c _ c' hinv.timeline h
  obtain ⟨p, rest, hqueue, rfl⟩ := step_spawn h
  have hp : p ∈ c.shared.db.appNames :=
    hinv.ledger.spawnQueue p (by rw [hqueue]; exact List.mem_cons_self)
  exact ⟨hledger, htimeline, hinv.names, hinv.pause, hinv.calls, hinv.raises, hinv.books.spawn hp⟩

theorem sessionLedgerInvariant_work (hinv : SessionLedgerInvariant c)
    (h : tracker.step c (.work k inp) = some c') : SessionLedgerInvariant c' := by
  have hledger := ledgerInvariant_work hinv.ledger h
  have htimeline := timelineInvariant_step c _ c' hinv.timeline h
  obtain ⟨w, w', s, hk, hstep, rfl⟩ := step_work h
  obtain ⟨-, hp, hdb, hevents, hsends⟩ := Worker.step_sends hstep
  have hreports := Worker.step_reports hinv.pause hstep
  have hbooks := hinv.books.send hinv.ledger.semicolon hk hp hsends hreports
  refine ⟨hledger, htimeline, ?_, ?_, hinv.calls, hinv.raises, ?_⟩
  · rw [hdb]
    exact hinv.names
  · rw [Worker.step_pause hstep]
    exact hinv.pause
  · unfold unwritten at hbooks ⊢
    rw [hdb, hevents, ← List.append_assoc]
    exact hbooks

theorem sessionLedgerInvariant_handle (hinv : SessionLedgerInvariant c)
    (hok : keepsNames c (.handle inp))
    (h : tracker.step c (.handle inp) = some c') : SessionLedgerInvariant c' := by
  have hledger := ledgerInvariant_handle hinv.ledger hok h
  have htimeline := timelineInvariant_step c _ c' hinv.timeline h
  obtain ⟨loop, events, db, hstep, rfl⟩ := step_handle h
  have hnames : db.appNames = c.shared.db.appNames := by
    rw [Store.appNames_eq, Store.appNames_eq, EventLoop.step_identities hstep]
  have hrest : (∀ event hd, loop = .handling event hd → hd.raises) ∧
      SessionBooks db (loop.unwritten ++ events) c.workers := by
    rcases EventLoop.step_cases hstep with ⟨event, hidle, hevents, rfl, rfl⟩ |
      ⟨event, hd, next, hhandling, rfl, hnext, rfl⟩
    · have hqueue : unwritten c = event :: events := by
        rw [unwritten, hidle, hevents]
        rfl
      have hbooks := hinv.books
      rw [hqueue] at hbooks
      cases hhandle : handle event with
      | none =>
        -- an item that is no session item is dropped
        have hkind : event.2 = .longestSession := kind_of_handle_eq_none hhandle
        refine ⟨fun _ _ hloop => (by cases hloop), hbooks.apply ?_ ?_ rfl⟩
        · exact applied_of_same (by rw [hkind]; decide) (by rw [hkind]; decide) rfl rfl
        · exact sessionApplied_of_same (by rw [hkind]; decide)
            (sessionOf_of_handle_eq_none hhandle) rfl
      | some hd =>
        refine ⟨fun event' hd' hloop => ?_, ?_⟩
        · cases hloop
          exact raises_of_handle hhandle
        · have hstart : hd.consistent event c.shared.db ∧ hd.written = false :=
            consistent_of_handle hhandle
          have hpending : (EventLoop.resume event (some hd)).unwritten = [event] := by
            simp [EventLoop.resume, EventLoop.unwritten, hstart.2]
          rw [hpending]
          exact hbooks
    · refine ⟨fun event' hd' hloop => ?_, ?_⟩
      · cases next with
        | none => cases hloop
        | some hd'' =>
          cases hloop
          exact Handler.step_raises hnext
      · have hbooks := hinv.books
        rcases (hinv.ledger.step_ledgers hok hhandling hnext).ledgers with
          ⟨hpending, happs, -⟩ | ⟨hw, hpending, happlied⟩
        · rw [hpending, ← hhandling]
          exact hbooks.congr happs
        · rw [unwritten_of_handling hhandling hw] at hbooks
          rw [hpending]
          refine hbooks.apply happlied ?_ hnames
          exact Handler.step_session (hinv.ledger.handler event hd hhandling)
            (hinv.raises event hd hhandling) (hinv.ledger.named hhandling hw) hok hw hpending hnext
  refine ⟨hledger, htimeline, ?_, hinv.pause, hinv.calls, hrest.1, hrest.2⟩
  show db.appNames.Nodup
  rw [hnames]
  exact hinv.names

/-- A call that adds no app. -/
theorem sessionLedgerInvariant_of_call {add : AddProcess} {s : Shared}
    (hinv : SessionLedgerInvariant c)
    (hledger : LedgerInvariant { c with shared := s, calls := c.calls.set k (.addProcess add) })
    (htimeline : TimelineInvariant { c with shared := s, calls := c.calls.set k (.addProcess add) })
    (hdb : s.db = c.shared.db) (hevents : s.events = c.shared.events)
    (hpause : s.pause = c.shared.pause) :
    SessionLedgerInvariant { c with shared := s, calls := c.calls.set k (.addProcess add) } := by
  refine ⟨hledger, htimeline, ?_, ?_, ?_, hinv.raises, ?_⟩
  · show s.db.appNames.Nodup
    rw [hdb]
    exact hinv.names
  · show s.pause = false
    rw [hpause]
    exact hinv.pause
  · exact Pool.forall_set ⟨add, rfl⟩ hinv.calls fun _ _ _ _ h => h
  · unfold unwritten
    rw [hdb, hevents]
    exact hinv.books

/-- Where all calls are calls of `add_process`, a step of a call is a step of one of them. -/
theorem step_call_adds (hcalls : ∀ call ∈ c.calls, ∃ add, call = .addProcess add)
    (h : tracker.step c (.call k inp) = some c') :
    ∃ add add' s, c.calls[k]? = some (.addProcess add) ∧
      add.step inp c.shared = some (add', s) ∧
      c' = { c with shared := s, calls := c.calls.set k (.addProcess add') } := by
  obtain ⟨call, call', s, hk, hstep, rfl⟩ := step_call h
  obtain ⟨add, rfl⟩ := hcalls call (List.mem_of_getElem? hk)
  obtain ⟨⟨add', s'⟩, hadd, heq⟩ := Option.map_eq_some_iff.mp hstep
  cases heq
  exact ⟨add, add', s, hk, hadd, rfl⟩

theorem sessionLedgerInvariant_call (hinv : SessionLedgerInvariant c)
    (hok : keepsNames c (.call k inp))
    (h : tracker.step c (.call k inp) = some c') : SessionLedgerInvariant c' := by
  have hledger := ledgerInvariant_call hinv.ledger hok h
  have htimeline := timelineInvariant_step c _ c' hinv.timeline h
  obtain ⟨add, add', s, hk, hstep, rfl⟩ := step_call_adds hinv.calls h
  rcases AddProcess.step_shared hstep with ⟨_, rfl⟩ |
    ⟨p, productName, id, apps, rfl, rfl, -, hins, rfl⟩
  · exact sessionLedgerInvariant_of_call hinv hledger htimeline rfl rfl rfl
  · -- the insert of the row, under a new name
    simp only [keepsNames, hk] at hok
    have hinsert : c.shared.db.insertApp (AddProcess.newApp p productName id) =
        .ok { c.shared.db with apps } := Store.insertApp_eq_ok.mpr ⟨apps, hins, rfl⟩
    refine ⟨hledger, htimeline, ?_, hinv.pause, ?_, hinv.raises, ?_⟩
    · show (Store.appNames { c.shared.db with apps }).Nodup
      rw [Store.appNames_eq, Store.identities_insertApp hins, List.filterMap_append,
        ← Store.appNames_eq]
      refine List.nodup_append.mpr ⟨hinv.names, List.nodup_singleton p, ?_⟩
      intro q hq q' hq' heq
      rw [← heq] at hq'
      exact hok.1 (List.mem_singleton.mp hq' ▸ hq)
    · exact Pool.forall_set ⟨_, rfl⟩ hinv.calls fun _ _ _ _ h => h
    · exact hinv.books.insertApp rfl hok.1 rfl rfl hinv.ledger.books.named hinsert

/-- **Every step keeps the books of the sessions.** -/
theorem sessionLedgerInvariant_step (c : Config) (l : Label) (c' : Config)
    (hinv : SessionLedgerInvariant c)
    (hok : keepsNames c l) (h : tracker.step c l = some c') : SessionLedgerInvariant c' := by
  cases l with
  | scan inp => exact sessionLedgerInvariant_scan hinv h
  | spawn => exact sessionLedgerInvariant_spawn hinv h
  | work k inp => exact sessionLedgerInvariant_work hinv h
  | handle inp => exact sessionLedgerInvariant_handle hinv hok h
  | call k inp => exact sessionLedgerInvariant_call hinv hok h

end

/-! ## The days of an app -/

/-- The days on which a `Timeline` event of `p` was handled, each once. The day is that of the clock
when the handler has found the app. -/
def tickedDays (p : String) (days : List NaiveDate) (c : Config) : Label → List NaiveDate
  | .handle inp =>
    match c.loop with
    | .handling _ (.timelineFindApp item) =>
      if item = p ∧ inp.now.date ∉ days then inp.now.date :: days else days
    | _ => days
  | _ => days

/-- The rows of `p`, with the one that is under way, are one for each of the days. -/
structure DaysInvariant (p : String) (days : List NaiveDate) (c : Config) : Prop where
  nodup : days.Nodup
  known : days ≠ [] → p ∈ c.shared.db.appNames
  rows : ∀ appId, c.shared.db.idOf p = some appId →
    ∀ d, d ∈ days ↔ dayOf c.shared.db c.loop (appId, d)

section
variable {c c' : Config} {inp : Input} {k : Nat} {p : String} {days : List NaiveDate}
  {event : Event} {hd : Handler}

/-- The app of a day that is under way is the app of the event. -/
theorem entryFor_of_dayUnderWay {db : Store} {day : Int × NaiveDate}
    (hcons : hd.consistent event db) (hday : hd.dayUnderWay = some day) :
    entryFor event db day.1 := by
  cases hd with
  | timelineFindEntry appId today =>
    cases hday
    exact hcons
  | timelineMaxId appId today =>
    cases hday
    exact hcons
  | timelineFirstCheckpoint appId today nextId =>
    cases hday
    exact hcons.1
  | timelineInsert row =>
    cases hday
    exact hcons.1
  | _ => cases hday

/-- The app of a day is there. -/
theorem mem_keys_of_dayOf {day : Int × NaiveDate} (hinv : LedgerInvariant c)
    (hday : dayOf c.shared.db c.loop day) : day.1 ∈ c.shared.db.apps.keys := by
  rcases hday with hrow | hunder
  · obtain ⟨t, ht, rfl⟩ := List.mem_map.mp hrow
    obtain ⟨r, hr, rfl⟩ := List.mem_map.mp ht
    exact hinv.keys r hr
  · cases hloop : c.loop with
    | idle =>
      rw [hloop] at hunder
      cases hunder
    | handling event hd =>
      rw [hloop] at hunder
      obtain ⟨q, app, happ, hid, -⟩ :=
        entryFor_of_dayUnderWay (hinv.handler event hd hloop) hunder
      rw [← hid]
      exact Table.key_mem_keys (Store.findApp_eq_some happ).1

theorem tickedDays_of_ne (hloop : c.loop = .handling event hd)
    (hne : ∀ item, hd ≠ .timelineFindApp item) : tickedDays p days c (.handle inp) = days := by
  unfold tickedDays
  rw [hloop]
  cases hd <;> first | rfl | exact absurd rfl (hne _)

/-- A step that changes neither the days nor the ids. -/
theorem DaysInvariant.of_same (hdays : DaysInvariant p days c)
    (hnames : c'.shared.db.appNames = c.shared.db.appNames)
    (hid : c'.shared.db.idOf p = c.shared.db.idOf p)
    (hsame : ∀ day, dayOf c'.shared.db c'.loop day ↔ dayOf c.shared.db c.loop day) :
    DaysInvariant p days c' where
  nodup := hdays.nodup
  known h := by
    rw [hnames]
    exact hdays.known h
  rows appId happ d := by
    rw [hid] at happ
    rw [hsame]
    exact hdays.rows appId happ d

theorem tickedDays_findApp {item : String}
    (hloop : c.loop = .handling event (.timelineFindApp item)) :
    tickedDays p days c (.handle inp) =
      if item = p ∧ inp.now.date ∉ days then inp.now.date :: days else days := by
  unfold tickedDays
  rw [hloop]

/-- The clock adds its day to those of the app of the event. -/
theorem mem_tickedDays (hloop : c.loop = .handling event (.timelineFindApp p)) (d : NaiveDate) :
    d ∈ tickedDays p days c (.handle inp) ↔ d ∈ days ∨ d = inp.now.date := by
  rw [tickedDays_findApp hloop]
  by_cases hin : inp.now.date ∈ days
  · rw [if_neg (fun hnot => hnot.2 hin)]
    constructor
    · exact .inl
    · intro hd
      rcases hd with hd | rfl
      · exact hd
      · exact hin
  · rw [if_pos ⟨rfl, hin⟩, List.mem_cons, or_comm]

theorem nodup_tickedDays (hnodup : days.Nodup) {item : String}
    (hloop : c.loop = .handling event (.timelineFindApp item)) :
    (tickedDays p days c (.handle inp)).Nodup := by
  rw [tickedDays_findApp hloop]
  split
  · next hnew => exact List.nodup_cons.mpr ⟨hnew.2, hnodup⟩
  · exact hnodup

/-- `handle_timeline` has found its app and reads the clock. -/
theorem daysInvariant_find {item : String} {next : Option Handler} {db : Store}
    {events : List Event} (hinv : LedgerInvariant c) (hdays : DaysInvariant p days c)
    (herr : inp.err = none) (hloop : c.loop = .handling event (.timelineFindApp item))
    (hnext : (Handler.timelineFindApp item).step inp c.shared.db = (next, db)) :
    DaysInvariant p (tickedDays p days c (.handle inp))
      { c with loop := .resume event next, shared := { c.shared with events, db } } := by
  have hevent : event = (item, .timeline) := hinv.handler event _ hloop
  have hnamed : item ∈ c.shared.db.appNames := by
    have hnamed := hinv.named hloop rfl
    rw [hevent] at hnamed
    exact hnamed
  obtain ⟨app, happ⟩ := Store.findApp_isSome hnamed
  simp only [Handler.step, Input.statement_of_none herr, happ] at hnext
  cases hnext
  -- before this statement no day was under way
  have hold : ∀ day, dayOf c.shared.db c.loop day ↔ day ∈ c.shared.db.days := by
    intro day
    unfold dayOf
    rw [hloop]
    exact or_iff_left fun hunder => (by cases hunder)
  refine ⟨nodup_tickedDays hdays.nodup hloop, ?_, fun appId hid d => ?_⟩
  · intro hne
    by_cases hitem : item = p
    · rw [← hitem]
      exact hnamed
    · rw [tickedDays_findApp hloop, if_neg fun h => hitem h.1] at hne
      exact hdays.known hne
  change c.shared.db.idOf p = some appId at hid
  show _ ↔ (appId, d) ∈ c.shared.db.days ∨ some (app.id, inp.now.date) = some (appId, d)
  rw [Option.some_inj, Prod.mk.injEq, ← hold, ← hdays.rows appId hid d]
  by_cases hitem : item = p
  · subst hitem
    have hsame : app.id = appId := by
      rw [Store.idOf, happ] at hid
      exact Option.some.inj hid
    rw [mem_tickedDays hloop, and_iff_right hsame, @eq_comm _ d]
  · -- the day of another app is under way
    have hne : app.id ≠ appId := by
      obtain ⟨a, ha, rfl⟩ := Option.map_eq_some_iff.mp hid
      exact fun heq => Store.id_ne_of_findApp happ ha (fun h => hitem h.symm) heq.symm
    rw [tickedDays_findApp hloop, if_neg fun h => hitem h.1]
    exact (or_iff_left fun hunder => hne hunder.1).symm

theorem daysInvariant_handle (hinv : SessionLedgerInvariant c) (hdays : DaysInvariant p days c)
    (hok : keepsNames c (.handle inp)) (h : tracker.step c (.handle inp) = some c') :
    DaysInvariant p (tickedDays p days c (.handle inp)) c' := by
  obtain ⟨loop, events, db, hstep, rfl⟩ := step_handle h
  have hidentities := EventLoop.step_identities hstep
  have hnames : db.appNames = c.shared.db.appNames := by
    rw [Store.appNames_eq, Store.appNames_eq, hidentities]
  rcases EventLoop.step_cases hstep with ⟨event, hidle, hevents, rfl, rfl⟩ |
    ⟨event, hd, next, hhandling, rfl, hnext, rfl⟩
  · have hticked : tickedDays p days c (.handle inp) = days := by
      unfold tickedDays
      rw [hidle]
    rw [hticked]
    refine hdays.of_same rfl rfl fun day => ?_
    have hstart : (EventLoop.resume event (handle event)).dayUnderWay = none := by
      cases hhandle : handle event with
      | none => rfl
      | some hd =>
        have hname := appName_of_handle hhandle
        cases hd <;> first | rfl | cases hname
    unfold dayOf
    rw [hidle, hstart]
    rfl
  · by_cases hfound : ∃ item, hd = .timelineFindApp item
    · obtain ⟨item, rfl⟩ := hfound
      exact daysInvariant_find hinv.ledger hdays hok hhandling hnext
    · have hne : ∀ item, hd ≠ .timelineFindApp item := fun item heq => hfound ⟨item, heq⟩
      rw [tickedDays_of_ne hhandling hne]
      refine hdays.of_same hnames (Store.idOf_congr hidentities p) fun day => ?_
      rw [hhandling]
      exact dayOf_step (hinv.ledger.handler event hd hhandling)
        (hinv.timeline.awaits event hd hhandling) hok hne hnext day

/-- The insert of `put_data`: a new app has no days, and the others keep theirs. -/
theorem daysInvariant_insertApp {q productName : String} {id : Int} {apps : Table Apps.Model}
    {calls : List Call} (hinv : LedgerInvariant c) (hdays : DaysInvariant p days c)
    (hins : c.shared.db.apps.insert (AddProcess.newApp q productName id) = some apps) :
    DaysInvariant p days
      { c with shared := { c.shared with db := { c.shared.db with apps } }, calls } := by
  have hinsert : c.shared.db.insertApp (AddProcess.newApp q productName id) =
      .ok { c.shared.db with apps } := Store.insertApp_eq_ok.mpr ⟨apps, hins, rfl⟩
  refine ⟨hdays.nodup, fun h => ?_, fun appId hid d => ?_⟩
  · exact (Store.mem_appNames_insertApp hinsert p).mpr (.inl (hdays.known h))
  · show d ∈ days ↔ dayOf c.shared.db c.loop (appId, d)
    change (Store.findApp { c.shared.db with apps } p).map Apps.Model.id = some appId at hid
    cases happ : c.shared.db.findApp p with
    | some app =>
      rw [Store.findApp_insertApp_of_some hinsert happ] at hid
      refine hdays.rows appId ?_ d
      rw [Store.idOf, happ]
      exact hid
    | none =>
      rw [Store.findApp_insertApp hinsert, happ, Option.none_or] at hid
      have hnone : days = [] := by
        by_contra hne
        obtain ⟨app, hfound⟩ := Store.findApp_isSome (hdays.known hne)
        rw [happ] at hfound
        cases hfound
      have hnew : appId ∉ c.shared.db.apps.keys := by
        split at hid
        · cases hid
          exact (Table.insert_eq_some.mp hins).1
        · cases hid
      rw [hnone]
      constructor
      · intro hd
        cases hd
      · intro hday
        exact absurd (mem_keys_of_dayOf hinv hday) hnew

theorem daysInvariant_call (hinv : SessionLedgerInvariant c) (hdays : DaysInvariant p days c)
    (h : tracker.step c (.call k inp) = some c') :
    DaysInvariant p days c' := by
  obtain ⟨add, add', s, -, hstep, rfl⟩ := step_call_adds hinv.calls h
  rcases AddProcess.step_shared hstep with ⟨_, rfl⟩ | ⟨_, _, _, _, rfl, rfl, -, hins, rfl⟩
  · exact hdays.of_same rfl rfl fun _ => Iff.rfl
  · exact daysInvariant_insertApp hinv.ledger hdays hins

/-- **Every step keeps the rows one for each day.** -/
theorem daysInvariant_step (c : Config) (l : Label) (c' : Config) (hinv : SessionLedgerInvariant c)
    (hdays : DaysInvariant p days c) (hok : keepsNames c l) (h : tracker.step c l = some c') :
    DaysInvariant p (tickedDays p days c l) c' := by
  cases l with
  | handle inp => exact daysInvariant_handle hinv hdays hok h
  | call k inp => exact daysInvariant_call hinv hdays h
  | _ =>
    obtain ⟨-, hloop, hdb⟩ := step_of_onlyReads rfl h
    refine hdays.of_same (by rw [hdb]) (by rw [hdb]) fun day => ?_
    rw [hdb, hloop]

end

/-! ## Runs -/

/-- A tracker that starts without timeline, counters and sessions, and whose only calls are calls of
`add_process`. -/
structure StartsEmpty (c : Config) : Prop where
  agreed : StartsAgreed c
  names : c.shared.db.appNames.Nodup
  timeline : c.shared.db.timeline.rows = []
  duration : ∀ p ∈ c.shared.db.appNames, c.shared.db.durationOf p = 0
  launches : ∀ p ∈ c.shared.db.appNames, c.shared.db.launchesOf p = 0
  workers : c.workers = []
  pause : c.shared.pause = false
  calls : ∀ call ∈ c.calls, ∃ add, call = .addProcess add

/-- Every session of `p` has ended, and all its events are handled. -/
structure Config.sessionsEnded (c : Config) (p : String) : Prop where
  workers : ∀ w ∈ c.workers, w.p = p → w.point = .finished
  events : ∀ e ∈ unwritten c, eventApp e ≠ p

section
variable {c c₀ : Config} {ls : List Label} {p : String}

theorem sessionLedgerInvariant_of_startsEmpty (hstart : StartsEmpty c) :
    SessionLedgerInvariant c := by
  have hnone : c.shared.db.timelineEntries = [] := by
    unfold Store.timelineEntries
    rw [hstart.timeline]
    rfl
  have hempty : unwritten c = [] := by
    unfold unwritten
    rw [hstart.agreed.loop, hstart.agreed.events]
    rfl
  refine ⟨ledgerInvariant_of_startsAgreed hstart.agreed fun p hp => ?_, ?_, hstart.names,
    hstart.pause, hstart.calls, fun event hd hloop => ?_, ?_⟩
  · rw [hstart.duration p hp]
  · refine ⟨?_, fun event hd hloop => ?_⟩
    · unfold Store.oneEntryPerDay
      rw [hnone]
      exact List.nodup_nil
    · rw [hstart.agreed.loop] at hloop
      cases hloop
  · rw [hstart.agreed.loop] at hloop
    cases hloop
  · rw [hempty, hstart.workers]
    refine ⟨fun w hw => absurd hw List.not_mem_nil, fun p hp => ?_, fun p hp => ?_,
      fun w hw => absurd hw List.not_mem_nil⟩
    · rw [hstart.launches p hp]
      rfl
    · rw [hstart.duration p hp]
      rfl

theorem daysInvariant_of_startsEmpty (hstart : StartsEmpty c) : DaysInvariant p [] c where
  nodup := List.nodup_nil
  known h := absurd rfl h
  rows appId _ d := by
    have hdays : c.shared.db.days = [] := by
      unfold Store.days Store.timelineEntries
      rw [hstart.timeline]
      rfl
    unfold dayOf
    rw [hdays, hstart.agreed.loop]
    constructor
    · intro hd
      cases hd
    · intro hday
      rcases hday with hday | hday <;> cases hday

/-- **The sessions in the ledgers**, in every state of every run. -/
theorem sessionLedger_of_run (hstart : StartsEmpty c₀) (hrun : tracker.Runs keepsNames c₀ ls c) :
    SessionLedgerInvariant c ∧ DaysInvariant p (tracker.history (tickedDays p) [] c₀ ls) c :=
  hrun.invariant_history (g := tickedDays p)
    (I := fun days c => SessionLedgerInvariant c ∧ DaysInvariant p days c)
    (fun _ c l c' hinv hok hstep => ⟨sessionLedgerInvariant_step c l c' hinv.1 hok hstep,
      daysInvariant_step c l c' hinv.1 hinv.2 hok hstep⟩)
    ⟨sessionLedgerInvariant_of_startsEmpty hstart, daysInvariant_of_startsEmpty hstart⟩

/-- No event of an app whose sessions have ended is on its way. -/
theorem Config.sessionsEnded.count (hended : c.sessionsEnded p) {kind : ReceiveTypes}
    (hkind : kind ≠ .longestSession) : (unwritten c).count (p, kind) = 0 :=
  List.count_eq_zero.mpr fun he => hended.events _ he (eventApp_of_kind hkind)

/-- The launches of an app are its sessions. -/
theorem launchesOf_eq (hinv : SessionLedgerInvariant c) (hended : c.sessionsEnded p)
    (hp : p ∈ c.shared.db.appNames) : c.shared.db.launchesOf p = sessionsOf p c.workers := by
  have hbefore : sessionsBeforeLaunch p c.workers = 0 := by
    refine List.countP_eq_zero.mpr fun w hw hcounted => ?_
    rw [Bool.and_eq_true, decide_eq_true_iff] at hcounted
    have hpoint := hended.workers w hw hcounted.1
    simp [Worker.beforeLaunch, hpoint] at hcounted
  have hlaunches := hinv.books.launches p hp
  rw [hended.count (by decide), hbefore] at hlaunches
  omega

/-- The duration of an app is what its timeline adds up to. -/
theorem timelineDurationOf_eq (hinv : SessionLedgerInvariant c) (hended : c.sessionsEnded p)
    (hp : p ∈ c.shared.db.appNames) :
    c.shared.db.timelineDurationOf p = c.shared.db.durationOf p := by
  have hbetween : workersBetween p c.workers = 0 := by
    refine List.countP_eq_zero.mpr fun w hw hcounted => ?_
    rw [Bool.and_eq_true, decide_eq_true_iff] at hcounted
    have hpoint := hended.workers w hw hcounted.1
    simp [Worker.betweenSends, hpoint] at hcounted
  have htime := hinv.ledger.books.time p hp
  rw [hended.count (by decide), hended.count (by decide), hbetween] at htime
  omega

/-- The ticks of sessions of bounded length. -/
theorem ticksOf_le {workers : List Worker} {n : Int}
    (h : ∀ w ∈ workers, w.p = p → (w.ticks : Int) ≤ n) :
    (ticksOf p workers : Int) ≤ sessionsOf p workers * n := by
  induction workers with
  | nil => simp [ticksOf, sessionsOf]
  | cons w workers ih =>
    have hrest := ih fun u hu => h u (List.mem_cons_of_mem w hu)
    unfold ticksOf sessionsOf at *
    rw [List.map_cons, List.sum_cons, List.countP_cons]
    by_cases hp : w.p = p
    · have hw := h w List.mem_cons_self hp
      rw [if_pos hp, if_pos (decide_eq_true hp)]
      rw [Nat.cast_add, Nat.cast_add, Nat.cast_one, add_mul, one_mul]
      omega
    · rw [if_neg hp, if_neg (by simpa using hp), Nat.zero_add, Nat.add_zero]
      exact hrest

/-- The ticks of one session are among those of all. -/
theorem le_ticksOf {workers : List Worker} {w : Worker} (hw : w ∈ workers) (hp : w.p = p) :
    w.ticks ≤ ticksOf p workers := by
  have hmem : w.ticks ∈ workers.map fun u : Worker => if u.p = p then u.ticks else 0 :=
    List.mem_map.mpr ⟨w, hw, if_pos hp⟩
  exact List.le_sum_of_mem hmem

/-- **The mean session is at most the longest one**: what the sessions of an app have ticked is at
most their number times the longest. -/
theorem durationOf_le (hinv : SessionLedgerInvariant c) (hended : c.sessionsEnded p)
    (hp : p ∈ c.shared.db.appNames) (hfits : c.shared.db.durationOf p ≤ 2147483647) :
    c.shared.db.durationOf p ≤ sessionsOf p c.workers * c.shared.db.longestSessionOf p := by
  have hticks : c.shared.db.durationOf p = ticksOf p c.workers := by
    have hticks := hinv.books.ticks p hp
    rw [hended.count (by decide)] at hticks
    omega
  rw [hticks]
  refine ticksOf_le fun w hw hwp => ?_
  have hpoint := hended.workers w hw hwp
  -- a session has ticked no more than all sessions together
  have hcounter : w.ticks = w.counter := by simp [Worker.ticks, Worker.betweenSends, hpoint]
  have hone : w.ticks ≤ ticksOf p c.workers := le_ticksOf hw hwp
  have hreported : w.reported = true := by simp [Worker.reported, hpoint]
  rw [hcounter] at hone ⊢
  rcases hinv.books.longest w hw hreported (by omega) with hle | ⟨e, he, hsession⟩
  · rw [hwp] at hle
    exact hle
  · rw [hwp] at hsession
    exact absurd (eventApp_of_sessionOf hsession) (hended.events e he)

/-- The rows of an app are on its days. -/
theorem mem_dates_iff (db : Store) (appId : Int) (d : NaiveDate) :
    d ∈ (db.timeline.all fun t => t.appId = appId).map Timeline.Model.date ↔
      (appId, d) ∈ db.days := by
  unfold Store.days Store.timelineEntries Table.all
  simp only [List.map_map, List.mem_map, List.mem_filter, decide_eq_true_eq]
  constructor
  · intro ⟨t, ⟨ht, happ⟩, hd⟩
    exact ⟨t, ht, Prod.ext happ hd⟩
  · intro ⟨t, ht, hday⟩
    exact ⟨t, ⟨ht, congrArg Prod.fst hday⟩, congrArg Prod.snd hday⟩

theorem nodup_dates {db : Store} (h : db.oneEntryPerDay) (appId : Int) :
    ((db.timeline.all fun t => t.appId = appId).map Timeline.Model.date).Nodup := by
  unfold Store.oneEntryPerDay Store.timelineEntries at h
  rw [List.map_map] at h
  have hdays := h.sublist (List.filter_sublist.map _ : List.Sublist
    ((db.timeline.all fun t => t.appId = appId).map (TimelineEntry.day ∘ Timeline.Model.entry)) _)
  -- the rows of one app differ in the date
  refine List.Nodup.of_map (fun d => (appId, d)) ?_
  rw [List.map_map]
  have hsame : (db.timeline.all fun t => t.appId = appId).map
      ((fun d => (appId, d)) ∘ Timeline.Model.date) =
      (db.timeline.all fun t => t.appId = appId).map
        (TimelineEntry.day ∘ Timeline.Model.entry) := by
    refine List.map_congr_left fun t ht => ?_
    have happ : t.appId = appId := of_decide_eq_true (List.mem_filter.mp ht).2
    exact Prod.ext happ.symm rfl
  rw [hsame]
  exact hdays

/-- The days of an app whose sessions have ended are those of its rows: none is under way. -/
theorem mem_days_iff {days : List NaiveDate} {appId : Int} (hinv : SessionLedgerInvariant c)
    (hdays : DaysInvariant p days c) (hended : c.sessionsEnded p)
    (hid : c.shared.db.idOf p = some appId) (d : NaiveDate) :
    d ∈ days ↔
      d ∈ (c.shared.db.timeline.all fun t => t.appId = appId).map Timeline.Model.date := by
  rw [mem_dates_iff, hdays.rows appId hid d]
  refine or_iff_left fun hunder => ?_
  cases hloop : c.loop with
  | idle =>
    rw [hloop] at hunder
    cases hunder
  | handling event hd =>
    rw [hloop] at hunder
    obtain ⟨q, app, happ, hof, hevent⟩ :=
      entryFor_of_dayUnderWay (hinv.ledger.handler event hd hloop) hunder
    obtain ⟨a, ha, haid⟩ := Option.map_eq_some_iff.mp hid
    have hq : q = p := by
      by_contra hne
      exact Store.id_ne_of_findApp ha happ hne (hof.trans haid.symm)
    have hw : hd.written = false := by
      cases hd <;> first | rfl | cases hunder
    apply hended.events event
    · rw [unwritten_of_handling hloop hw]
      exact List.mem_cons_self
    · rw [hevent, hq]
      rfl

/-- The rows of an app whose sessions have ended are one for each of its days. -/
theorem length_days_eq {days : List NaiveDate} {appId : Int} (hinv : SessionLedgerInvariant c)
    (hdays : DaysInvariant p days c) (hended : c.sessionsEnded p)
    (hid : c.shared.db.idOf p = some appId) :
    (c.shared.db.timeline.all fun t => t.appId = appId).length = days.length := by
  have hrows := nodup_dates hinv.timeline.days appId
  have hperm := (List.perm_ext_iff_of_nodup hrows hdays.nodup).mpr fun d =>
    (mem_days_iff hinv hdays hended hid d).symm
  rw [← hperm.length_eq, List.length_map]

end

end TimeTracker
