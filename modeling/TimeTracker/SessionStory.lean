import TimeTracker.ReportedStatus
import TimeTracker.SessionEvents

/-!
# The story of a session

The status updates one session worker broadcasts over its life: one at its start, one after each
tick and one at its end. The start and the ticks each read the clock and report what they read as
the start time of the session.

* **`StatusLog.agrees_work`**: the updates of a worker at each of its points.
* **`session_story_iff`**: the updates count the ticks from zero and end idle; they name one start
  time if and only if every tick reads the clock as the start did.
* **`start_time_moves`**: so a tick a minute later moves the start time.
* `Worker.step_broadcasts`: what a step of a worker broadcasts is what the log of the session
  records.
-/

namespace TimeTracker

open Transition

/-! ## The log of the updates -/

/-- What a step of a worker broadcasts, with a notifier registered. -/
def Worker.statuses (inp : Input) (w : Worker) : List TrackingStatus :=
  match w.point with
  | .announce => [.tracking w.p 0 inp.now]
  | .tickBroadcast => [.tracking w.p w.counter inp.now]
  | .farewell => [.idle]
  | _ => []

/-- The updates a worker has broadcast, each with the number of `Duration` events it had sent by
then; this number now; and the clock as it read it, at the start and at each tick. -/
structure StatusLog where
  updates : List (TrackingStatus × Nat)
  durations : Nat
  startedAt : Option NaiveDateTime
  tickTimes : List NaiveDateTime

namespace StatusLog

def empty : StatusLog := ⟨[], 0, none, []⟩

/-- The log after a step of its worker. -/
def work (inp : Input) (broadcaster : Bool) (log : StatusLog) (w : Worker) : StatusLog where
  updates := log.updates ++
    if broadcaster then (w.statuses inp).map fun status => (status, log.durations) else []
  durations := log.durations + w.sends.count (w.p, .duration)
  startedAt := if w.point = .announce then some inp.now else log.startedAt
  tickTimes := if w.point = .tickBroadcast then log.tickTimes ++ [inp.now] else log.tickTimes

/-- The log of worker `k`, as a variable of the run. -/
def record (k : Nat) (log : StatusLog) (c : Config) : Label → StatusLog
  | .work j inp =>
    if j = k then
      match c.workers[k]? with
      | some w => log.work inp c.shared.broadcaster w
      | none => log
    else log
  | _ => log

end StatusLog

/-- What a step of a worker broadcasts. -/
theorem Worker.step_broadcasts {inp : Input} {w w' : Worker} {s s' : Shared}
    (hserver : s.broadcaster = true) (h : w.step inp s = some (w', s')) :
    s'.broadcasts = s.broadcasts ++ w.statuses inp := by
  have hquiet : ∀ {s'' : Shared}, s''.broadcasts = s.broadcasts →
      s''.broadcasts = s.broadcasts ++ [] := by
    intro s'' hsame
    rw [hsame, List.append_nil]
  obtain ⟨p, counter, point⟩ := w
  cases point with
  | finished | panicked => cases h
  | lock =>
    simp only [Worker.step] at h
    split at h
    · cases h
    · cases h
      exact hquiet rfl
    · split at h <;> cases h <;> exact hquiet rfl
  | start | sendLaunches | sleep | sendDuration | sendTimeline | leave | sendLongest =>
    cases h
    exact hquiet rfl
  | announce | tickBroadcast | farewell =>
    cases h
    simp only [Shared.broadcast, hserver, if_true]
    rfl

/-! ## The updates at each point -/

/-- The updates of the ticks at these times, each with the number of ticks so far. -/
def tickUpdates (p : String) (times : List NaiveDateTime) : List (TrackingStatus × Nat) :=
  times.mapIdx fun i now => (.tracking p (i + 1 : Nat) now, i + 1)

theorem tickUpdates_concat (p : String) (times : List NaiveDateTime) (now : NaiveDateTime) :
    tickUpdates p (times ++ [now]) =
      tickUpdates p times ++ [(.tracking p (times.length + 1 : Nat) now, times.length + 1)] :=
  List.mapIdx_concat

/-- The log of a worker that has started: the update of its start, those of its ticks, of which
it has broadcast `ticks`, and what it has broadcast after them. -/
def StatusLog.told (log : StatusLog) (w : Worker) (ticks : Nat)
    (last : List (TrackingStatus × Nat)) : Prop :=
  ∃ t₀, log.startedAt = some t₀ ∧ log.tickTimes.length = ticks ∧
    log.updates = (.tracking w.p 0 t₀, 0) :: tickUpdates w.p log.tickTimes ++ last

/-- What the log of a worker says at each of its points. -/
def StatusLog.agrees (log : StatusLog) (w : Worker) : Prop :=
  match w.point with
  | .start | .sendLaunches | .announce =>
    w.counter = 0 ∧ log.updates = [] ∧ log.durations = 0 ∧ log.tickTimes = []
  | .sleep | .lock | .sendDuration | .leave | .sendLongest | .farewell =>
    log.durations = w.counter ∧ log.told w w.counter []
  | .sendTimeline => log.durations = w.counter + 1 ∧ log.told w w.counter []
  -- the tick is counted, and not broadcast yet
  | .tickBroadcast => log.durations = w.counter ∧ ∃ n, w.counter = n + 1 ∧ log.told w n []
  | .finished => log.durations = w.counter ∧ log.told w w.counter [(.idle, w.counter)]
  | .panicked => True

/-- The log agrees with a worker that has just been spawned. -/
theorem StatusLog.agrees_spawned (p : String) : StatusLog.empty.agrees (.spawned p) :=
  ⟨rfl, rfl, rfl, rfl⟩

section Work

variable {inp : Input} {log : StatusLog} {w w' : Worker} {s s' : Shared}

/-- A step that reads no clock keeps what the log says of the start and the ticks, and adds what
it broadcasts. -/
theorem StatusLog.told_work {ticks : Nat} (h : log.told w ticks []) (hp : w'.p = w.p)
    (hstart : w.point ≠ .announce) (htick : w.point ≠ .tickBroadcast) :
    (log.work inp true w).told w' ticks
      ((w.statuses inp).map fun status => (status, log.durations)) := by
  obtain ⟨t₀, hstartedAt, hlength, hupdates⟩ := h
  refine ⟨t₀, ?_, ?_, ?_⟩
  · show (if w.point = .announce then some inp.now else log.startedAt) = some t₀
    rw [if_neg hstart, hstartedAt]
  · show (if w.point = .tickBroadcast then log.tickTimes ++ [inp.now] else log.tickTimes).length = _
    rw [if_neg htick, hlength]
  · show log.updates ++ (w.statuses inp).map (fun status => (status, log.durations)) =
      (.tracking w'.p 0 t₀, 0) :: tickUpdates w'.p
        (if w.point = .tickBroadcast then log.tickTimes ++ [inp.now] else log.tickTimes) ++
        (w.statuses inp).map fun status => (status, log.durations)
    rw [if_neg htick, hp, hupdates, List.append_nil]

/-- A step that broadcasts nothing and sends no `Duration` event keeps all the log says. -/
theorem StatusLog.quiet_work {ticks n : Nat} (hlog : log.durations = n ∧ log.told w ticks [])
    (hp : w'.p = w.p) (hstatuses : w.statuses inp = [])
    (hsends : w.sends.count (w.p, .duration) = 0) :
    (log.work inp true w).durations = n ∧ (log.work inp true w).told w' ticks [] := by
  have hstart : w.point ≠ .announce := fun h => by simp [Worker.statuses, h] at hstatuses
  have htick : w.point ≠ .tickBroadcast := fun h => by simp [Worker.statuses, h] at hstatuses
  have htold : (log.work inp true w).told w' ticks
      ((w.statuses inp).map fun status => (status, log.durations)) :=
    StatusLog.told_work hlog.2 hp hstart htick
  rw [hstatuses] at htold
  refine ⟨?_, htold⟩
  show log.durations + w.sends.count (w.p, .duration) = n
  rw [hsends, hlog.1]
  rfl

/-- **One step of the worker.** Split by its point: the log grows by what the step broadcasts. -/
theorem StatusLog.agrees_work (hagrees : log.agrees w) (h : w.step inp s = some (w', s')) :
    (log.work inp true w).agrees w' := by
  obtain ⟨p, counter, point⟩ := w
  cases point with
  | finished | panicked => cases h
  | start =>
    obtain ⟨hcounter, hupdates, hdurations, htimes⟩ := hagrees
    cases h
    have hlog : counter = 0 ∧ log.updates ++ [] = [] ∧ log.durations + 0 = 0 ∧
        log.tickTimes = [] := ⟨hcounter, by rw [hupdates]; rfl, hdurations, htimes⟩
    cases s.pause with
    | true => exact hlog
    | false => exact hlog
  | sendLaunches =>
    obtain ⟨hcounter, hupdates, hdurations, htimes⟩ := hagrees
    cases h
    refine ⟨hcounter, ?_, ?_, htimes⟩
    · show log.updates ++ [] = []
      rw [hupdates]
      rfl
    · show log.durations + [(p, ReceiveTypes.launches)].count (p, .duration) = 0
      rw [hdurations]
      simp
  | announce =>
    -- the clock is read for the first update
    obtain ⟨hcounter, hupdates, hdurations, htimes⟩ := hagrees
    cases h
    have hcounter' : counter = 0 := hcounter
    refine ⟨?_, inp.now, rfl, ?_, ?_⟩
    · show log.durations + 0 = counter
      rw [hdurations, hcounter']
    · show log.tickTimes.length = counter
      rw [htimes, hcounter']
      rfl
    · show log.updates ++ [(.tracking p 0 inp.now, log.durations)] =
        (.tracking p 0 inp.now, 0) :: tickUpdates p log.tickTimes ++ []
      rw [hupdates, hdurations, htimes]
      rfl
  | sleep =>
    cases h
    have hnext : ∀ w' : Worker, w'.p = p → (log.work inp true ⟨p, counter, .sleep⟩).durations =
        counter ∧ (log.work inp true ⟨p, counter, .sleep⟩).told w' counter [] :=
      fun w' hp => StatusLog.quiet_work hagrees hp rfl rfl
    cases s.pause with
    | true => exact hnext _ rfl
    | false => exact hnext _ rfl
  | lock =>
    have hnext : ∀ w' : Worker, w'.p = p → (log.work inp true ⟨p, counter, .lock⟩).durations =
        counter ∧ (log.work inp true ⟨p, counter, .lock⟩).told w' counter [] :=
      fun w' hp => StatusLog.quiet_work hagrees hp rfl rfl
    simp only [Worker.step] at h
    split at h
    · cases h
    · cases h
      trivial
    · -- no entry, a tick, or the end of the loop
      split at h
      · cases h
        exact hnext _ rfl
      · cases h
        exact hnext _ rfl
      · cases h
        exact hnext _ rfl
  | sendDuration =>
    obtain ⟨hdurations, htold⟩ := hagrees
    cases h
    refine ⟨?_, StatusLog.told_work htold rfl (by simp) (by simp)⟩
    show log.durations + [(p, ReceiveTypes.duration)].count (p, .duration) = counter + 1
    rw [hdurations]
    simp
  | sendTimeline =>
    -- the counter is incremented here
    obtain ⟨hdurations, htold⟩ := hagrees
    cases h
    refine ⟨?_, counter, rfl, StatusLog.told_work htold rfl (by simp) (by simp)⟩
    show log.durations + [(p, ReceiveTypes.timeline)].count (p, .duration) = counter + 1
    rw [hdurations]
    simp
  | tickBroadcast =>
    -- the clock is read again, for the update of the tick
    obtain ⟨hdurations, n, hcounter, t₀, hstartedAt, hlength, hupdates⟩ := hagrees
    cases h
    have hcounter' : counter = n + 1 := hcounter
    refine ⟨hdurations, t₀, hstartedAt, ?_, ?_⟩
    · show (log.tickTimes ++ [inp.now]).length = counter
      rw [List.length_append, hlength, hcounter']
      rfl
    · show log.updates ++ [(.tracking p counter inp.now, log.durations)] =
        (.tracking p 0 t₀, 0) :: tickUpdates p (log.tickTimes ++ [inp.now]) ++ []
      rw [hupdates, hdurations, tickUpdates_concat, hlength, List.append_nil, List.append_nil,
        List.cons_append, hcounter']
  | leave =>
    cases h
    have hnext : ∀ w' : Worker, w'.p = p → (log.work inp true ⟨p, counter, .leave⟩).durations =
        counter ∧ (log.work inp true ⟨p, counter, .leave⟩).told w' counter [] :=
      fun w' hp => StatusLog.quiet_work hagrees hp rfl rfl
    cases s.pause with
    | true => exact hnext _ rfl
    | false => exact hnext _ rfl
  | sendLongest =>
    cases h
    exact StatusLog.quiet_work hagrees rfl rfl (by simp [Worker.sends])
  | farewell =>
    obtain ⟨hdurations, htold⟩ := hagrees
    cases h
    refine ⟨hdurations, ?_⟩
    have hlast : (log.work inp true ⟨p, counter, .farewell⟩).told ⟨p, counter, .finished⟩ counter
        (((Worker.mk p counter .farewell).statuses inp).map fun status =>
          (status, log.durations)) :=
      StatusLog.told_work htold rfl (by simp) (by simp)
    rw [show (Worker.mk p counter .farewell).statuses inp = [.idle] from rfl, List.map_singleton,
      hdurations] at hlast
    exact hlast

end Work

/-! ## Runs -/

/-- The log of worker `k` agrees with the worker after any step of the program. -/
theorem StatusLog.agrees_step {c c' : Config} {l : Label} {k : Nat} {p : String} {log : StatusLog}
    (hserver : c.shared.broadcaster = true)
    (hagrees : ∃ w, c.workers[k]? = some w ∧ w.p = p ∧ log.agrees w)
    (h : tracker.step c l = some c') :
    ∃ w, c'.workers[k]? = some w ∧ w.p = p ∧ (log.record k c l).agrees w := by
  obtain ⟨w, hk, hp, hlog⟩ := hagrees
  rcases step_worker hk h with ⟨inp, w', rfl, hstep, hk'⟩ | ⟨hother, hk'⟩
  · have hp' : w'.p = w.p := (Worker.step_cases hstep).1
    refine ⟨w', hk', hp'.trans hp, ?_⟩
    rw [StatusLog.record, if_pos rfl, hk, hserver]
    exact StatusLog.agrees_work hlog hstep
  · -- another thread: the log of `k` is as it was
    have hsame : log.record k c l = log := by
      cases l with
      | work j inp => exact if_neg fun hjk => hother inp (by rw [hjk])
      | _ => rfl
    exact ⟨w, hk', hp, by rw [hsame]; exact hlog⟩

/-- The updates of a session of `n` ticks that tell one story: the ticks are counted from zero,
each update names the start time `t₀` and counts the `Duration` events sent so far, and the last
one is idle. -/
def sessionStory (p : String) (t₀ : NaiveDateTime) (n : Nat) : List (TrackingStatus × Nat) :=
  (List.range (n + 1)).map (fun k => (.tracking p k t₀, k)) ++ [(.idle, n)]

theorem tracking_inj {p : String} {n : Nat} {now t₀ : NaiveDateTime} :
    TrackingStatus.tracking p n now = TrackingStatus.tracking p n t₀ ↔
      now.format = t₀.format := by
  simp [TrackingStatus.tracking]

/-- The updates of the ticks name the start time where their readings of the clock do. -/
theorem tickUpdates_eq_iff {p : String} {t₀ : NaiveDateTime} {times : List NaiveDateTime} :
    tickUpdates p times =
        (List.range times.length).map (fun i => (.tracking p (i + 1 : Nat) t₀, i + 1)) ↔
      ∀ now ∈ times, now.format = t₀.format := by
  constructor
  · intro h now hnow
    obtain ⟨i, hi, rfl⟩ := List.getElem_of_mem hnow
    have hget := congrArg (fun updates => updates[i]?) h
    simp only [tickUpdates, List.getElem?_mapIdx, List.getElem?_map, List.getElem?_range hi,
      List.getElem?_eq_getElem hi, Option.map_some, Option.some.injEq, Prod.mk.injEq] at hget
    exact tracking_inj.mp hget.1
  · intro hall
    apply List.ext_getElem
    · simp [tickUpdates]
    · intro i hi hi'
      have hlt : i < times.length := by simpa [tickUpdates] using hi
      simp only [tickUpdates, List.getElem_mapIdx, List.getElem_map, List.getElem_range]
      rw [tracking_inj.mpr (hall times[i] (List.getElem_mem hlt))]

/-- **When a session tells one story.** The updates of a finished worker count its ticks from
zero to the last one and end idle, whatever happened in between; they all name the time at which
the session started if and only if each tick has read the clock as the start did. -/
theorem session_story_iff {c₀ c : Config} {ls : List Label} {k : Nat} {p : String} {w : Worker}
    (hserver : c₀.shared.broadcaster = true) (hspawned : c₀.workers[k]? = some (.spawned p))
    (hrun : tracker.Runs (fun _ _ => True) c₀ ls c)
    (hk : c.workers[k]? = some w) (hfinished : w.point = .finished) :
    ∃ log t₀, tracker.history (StatusLog.record k) .empty c₀ ls = log ∧
      log.startedAt = some t₀ ∧ log.tickTimes.length = log.durations ∧
      (log.updates = sessionStory p t₀ log.durations ↔
        ∀ now ∈ log.tickTimes, now.format = t₀.format) := by
  have hlog := hrun.invariant_history (g := StatusLog.record k)
    (I := fun log c => c.shared.broadcaster = true ∧
      ∃ w, c.workers[k]? = some w ∧ w.p = p ∧ StatusLog.agrees log w)
    (fun log c l c' hagrees _ h =>
      ⟨broadcaster_step hagrees.1 h, StatusLog.agrees_step hagrees.1 hagrees.2 h⟩)
    ⟨hserver, .spawned p, hspawned, rfl, StatusLog.agrees_spawned p⟩
  generalize tracker.history (StatusLog.record k) .empty c₀ ls = log at hlog ⊢
  obtain ⟨-, u, hu, rfl, hagrees⟩ := hlog
  rw [hk] at hu
  cases hu
  rw [StatusLog.agrees, hfinished] at hagrees
  obtain ⟨hdurations, t₀, hstartedAt, hlength, hupdates⟩ := hagrees
  refine ⟨log, t₀, rfl, hstartedAt, hlength.trans hdurations.symm, ?_⟩
  rw [hupdates, hdurations, ← hlength, sessionStory, List.range_succ_eq_map, List.map_cons,
    List.map_map, List.append_cancel_right_eq, List.cons.injEq, ← tickUpdates_eq_iff]
  exact and_iff_right rfl

/-! ## A tick a minute later -/

/-- A minute after midnight of 1 January 1970. -/
def minuteLater : NaiveDateTime := ⟨NaiveDateTime.unixEpoch.date, ⟨0, 1, 0, 0, by decide⟩⟩

/-- The session of `a` starts at midnight and counts one tick at the time `now`; then it ends. -/
def oneTick (now : NaiveDateTime) : List Label :=
  List.replicate 7 (.work 0 {}) ++ [.work 0 { now }] ++
    [.scan { order := ["a"] }, .scan {}, .scan {}, .scan { order := ["a"] }] ++
    List.replicate 5 (.work 0 {})

/-- A run of the session of `a`, from the moment its worker is spawned. -/
def openedRun (ls : List Label) : Option (Config × Config) :=
  (tracker.exec (.initial .linux storeWithA []) openSessionOfA).bind fun c₀ =>
    (tracker.execWhere (fun c _ => "a" ∈ c.shared.processMap) c₀ ls).map fun c => (c₀, c)

theorem openedRun_eq_some {ls : List Label} {c₀ c : Config} (h : openedRun ls = some (c₀, c)) :
    tracker.Runs (fun _ _ => True) (.initial .linux storeWithA []) openSessionOfA c₀ ∧
      tracker.Runs (fun c _ => "a" ∈ c.shared.processMap) c₀ ls c := by
  obtain ⟨d₀, hopened, hrest⟩ := Option.bind_eq_some_iff.mp h
  obtain ⟨d, hexec, heq⟩ := Option.map_eq_some_iff.mp hrest
  cases heq
  exact ⟨System.runs_of_exec hopened, System.runs_of_execWhere hexec⟩

/-- **A start time that moves**: the update of the tick names the time of the tick. -/
theorem start_time_moves :
    ¬ ∀ (platform : Platform) (db : Store) (calls : List Call) (ls₀ ls : List Label)
      (c₀ c : Config) (k : Nat) (p : String) (w : Worker),
      tracker.Runs (fun _ _ => True) (.initial platform db calls) ls₀ c₀ →
      c₀.workers[k]? = some (.spawned p) →
      tracker.Runs (fun c _ => p ∈ c.shared.processMap) c₀ ls c →
      c.workers[k]? = some w → w.point = .finished →
      ∃ t₀ n, (tracker.history (StatusLog.record k) .empty c₀ ls).updates =
        sessionStory p t₀ n := by
  intro hall
  have hend : (openedRun (oneTick minuteLater)).map (fun r => decide
      (r.1.workers[0]? = some (.spawned "a") ∧
        (r.2.workers[0]?.map Worker.point) = some .finished ∧
        (tracker.history (StatusLog.record 0) .empty r.1 (oneTick minuteLater)).updates =
          [(.tracking "a" 0 .unixEpoch, 0), (.tracking "a" 1 minuteLater, 1), (.idle, 1)])) =
      some true := by decide
  obtain ⟨⟨c₀, c⟩, hsession, hc⟩ := Option.map_eq_some_iff.mp hend
  obtain ⟨hspawned, hfinished, hupdates⟩ := of_decide_eq_true hc
  obtain ⟨hopened, hrun⟩ := openedRun_eq_some hsession
  obtain ⟨w, hw, hpoint⟩ := Option.map_eq_some_iff.mp hfinished
  obtain ⟨t₀, n, hstory⟩ := hall _ _ _ _ (oneTick minuteLater) c₀ c 0 "a" w hopened hspawned hrun
    hw hpoint
  rw [hupdates] at hstory
  -- one tick, whose update names another time than the first update
  have hn : n = 1 := by
    have hlength := congrArg List.length hstory
    simp only [sessionStory, List.length_cons, List.length_nil, List.length_append,
      List.length_map, List.length_range] at hlength
    omega
  subst hn
  have hnamed : [(TrackingStatus.tracking "a" (0 : Nat) .unixEpoch, 0),
      (.tracking "a" (1 : Nat) minuteLater, 1), (.idle, 1)] =
      [(.tracking "a" (0 : Nat) t₀, 0), (.tracking "a" (1 : Nat) t₀, 1), (.idle, 1)] := hstory
  simp only [List.cons.injEq, Prod.mk.injEq, and_true, tracking_inj] at hnamed
  have hsame : NaiveDateTime.unixEpoch.format = minuteLater.format :=
    hnamed.1.trans hnamed.2.symm
  exact absurd hsame (by decide)

/-- A tick whose clock says what it said at the start: the updates name one start time. -/
theorem session_story_oneTick :
    ∃ c₀ c, openedRun (oneTick .unixEpoch) = some (c₀, c) ∧ ∃ log t₀,
      tracker.history (StatusLog.record 0) .empty c₀ (oneTick .unixEpoch) = log ∧
      log.startedAt = some t₀ ∧ log.tickTimes.length = log.durations ∧
      (log.updates = sessionStory "a" t₀ log.durations ↔
        ∀ now ∈ log.tickTimes, now.format = t₀.format) ∧
      log.tickTimes = [.unixEpoch] ∧ log.updates = sessionStory "a" t₀ 1 := by
  have hend : (openedRun (oneTick .unixEpoch)).map (fun r => decide
      (r.1.shared.broadcaster = true ∧ r.1.workers[0]? = some (.spawned "a") ∧
        (r.2.workers[0]?.map Worker.point) = some .finished ∧
        (tracker.history (StatusLog.record 0) .empty r.1 (oneTick .unixEpoch)).startedAt =
          some .unixEpoch ∧
        (tracker.history (StatusLog.record 0) .empty r.1 (oneTick .unixEpoch)).tickTimes =
          [.unixEpoch])) = some true := by decide
  obtain ⟨⟨c₀, c⟩, hsession, hc⟩ := Option.map_eq_some_iff.mp hend
  obtain ⟨hserver, hspawned, hfinished, hstart, hticks⟩ := of_decide_eq_true hc
  obtain ⟨-, hrun⟩ := openedRun_eq_some hsession
  obtain ⟨w, hw, hpoint⟩ := Option.map_eq_some_iff.mp hfinished
  obtain ⟨log, t₀, rfl, hstartedAt, hlength, hiff⟩ :=
    session_story_iff hserver hspawned (hrun.mono fun _ _ _ => trivial) hw hpoint
  refine ⟨c₀, c, hsession, _, t₀, rfl, hstartedAt, hlength, hiff, hticks, ?_⟩
  have hone : (tracker.history (StatusLog.record 0) .empty c₀ (oneTick .unixEpoch)).durations =
      1 := by
    rw [← hlength]
    exact congrArg List.length hticks
  rw [← hone]
  apply hiff.mpr
  intro now hnow
  rw [show _ = [NaiveDateTime.unixEpoch] from hticks] at hnow
  rw [List.mem_singleton.mp hnow, Option.some.inj (hstartedAt.symm.trans hstart)]

end TimeTracker
