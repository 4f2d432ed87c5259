import TimeTracker.Sessions

/-!
# The events of a session

What one session worker sends over its life, whatever the other threads do. Each tick sends a
`Duration` event and right after it a `Timeline` event. The `Launches` event before them and
the `LongestSession` event after them stand behind `active!`, so they are sent exactly where
the pause flag is down at that moment: once when the worker starts, once when it has left its
loop. The two reads have nothing to do with the pauses in between.

* **`session_events`**: the events of a finished session, in the order the worker sent them, for
  every schedule and every pattern of pauses.
* **`uncounted_session`**: a pause that ends before the first tick leaves a session with
  minutes and without a launch.
* `Worker.step_events`: what a step of a worker puts into the event channel is what the log of the
  session records.
-/

namespace TimeTracker

/-! ## The log of a session -/

/-- What a worker has sent, and what the pause flag said at its two reads outside the loop. -/
structure SessionLog where
  sent : List Event
  pausedAtStart : Option Bool
  pausedAtEnd : Option Bool

namespace SessionLog

def empty : SessionLog := ⟨[], none, none⟩

/-- The log after a step of its worker, under this pause flag. -/
def work (log : SessionLog) (w : Worker) (pause : Bool) : SessionLog where
  sent := log.sent ++ w.sends
  pausedAtStart := if w.point = .start then some pause else log.pausedAtStart
  pausedAtEnd := if w.point = .leave then some pause else log.pausedAtEnd

/-- The log of worker `k`, as a variable of the run. -/
def record (k : Nat) (log : SessionLog) (c : Config) : Label → SessionLog
  | .work j _ =>
    if j = k then
      match c.workers[k]? with
      | some w => log.work w c.shared.pause
      | none => log
    else log
  | _ => log

end SessionLog

/-! ## What is sent -/

/-- The `Launches` event, unless the tracker is paused. -/
def launchEvents (p : String) (paused : Bool) : List Event :=
  if paused then [] else [(p, .launches)]

/-- The events of `n` ticks: each `Timeline` event right after its `Duration` event. -/
def tickEvents (p : String) (n : Nat) : List Event :=
  (List.replicate n [(p, .duration), (p, .timeline)]).flatten

/-- The `LongestSession` event of a session of `n` ticks, unless the tracker is paused. -/
def endEvents (p : String) (n : Nat) (paused : Bool) : List Event :=
  if paused then [] else [(sessionItem p n, .longestSession)]

theorem tickEvents_succ (p : String) (n : Nat) :
    tickEvents p (n + 1) = tickEvents p n ++ [(p, .duration)] ++ [(p, .timeline)] := by
  rw [tickEvents, List.replicate_succ', List.flatten_append, List.flatten_singleton,
    List.append_assoc]
  rfl

theorem count_tickEvents (p : String) (n : Nat) : (tickEvents p n).count (p, .duration) = n := by
  induction n with
  | zero => rfl
  | succ n ih =>
    rw [tickEvents_succ, List.count_append, List.count_append, ih]
    simp

/-! ## The log at each point -/

/-- The log of a worker in its loop: what it sent at its start, and its ticks so far. -/
def SessionLog.ticked (log : SessionLog) (w : Worker) (current : List Event) : Prop :=
  ∃ paused, log.pausedAtStart = some paused ∧
    log.sent = launchEvents w.p paused ++ tickEvents w.p w.counter ++ current

/-- What the log of a worker says at each of its points. -/
def SessionLog.agrees (log : SessionLog) (w : Worker) : Prop :=
  match w.point with
  | .start => w.counter = 0 ∧ log.sent = []
  | .sendLaunches => w.counter = 0 ∧ log.sent = [] ∧ log.pausedAtStart = some false
  | .announce | .sleep | .lock | .sendDuration | .tickBroadcast | .leave => log.ticked w []
  | .sendTimeline => log.ticked w [(w.p, .duration)]
  | .sendLongest => log.ticked w [] ∧ log.pausedAtEnd = some false
  | .farewell | .finished =>
    ∃ paused, log.pausedAtEnd = some paused ∧ log.ticked w (endEvents w.p w.counter paused)
  | .panicked => True

/-- The log agrees with a worker that has just been spawned. -/
theorem agrees_spawned (p : String) : SessionLog.empty.agrees (.spawned p) := ⟨rfl, rfl⟩

/-- A step that sends nothing and reads no flag keeps what the log says about the loop. -/
theorem SessionLog.ticked_work {log : SessionLog} {w : Worker} {current : List Event}
    (h : log.ticked w current) (w' : Worker) (pause : Bool) (hp : w'.p = w.p)
    (hcounter : w'.counter = w.counter) (hstart : w.point ≠ .start) :
    (log.work w pause).ticked w' (current ++ w.sends) := by
  obtain ⟨paused, hpaused, hsent⟩ := h
  refine ⟨paused, ?_, ?_⟩
  · show (if w.point = .start then some pause else log.pausedAtStart) = some paused
    rw [if_neg hstart, hpaused]
  · show log.sent ++ w.sends = _
    rw [hsent, hp, hcounter, List.append_assoc]

/-- **One step of the worker.** Split by its point: the log grows by what the step sends. -/
theorem SessionLog.agrees_work {inp : Input} {log : SessionLog} {w w' : Worker} {s s' : Shared}
    (hagrees : log.agrees w) (h : w.step inp s = some (w', s')) :
    (log.work w s.pause).agrees w' := by
  obtain ⟨p, counter, point⟩ := w
  cases point with
  | finished | panicked => cases h
  | start =>
    obtain ⟨hcounter, hsent⟩ := hagrees
    cases h
    cases hpause : s.pause with
    | true =>
      -- the launch is not counted
      refine ⟨true, rfl, ?_⟩
      show log.sent ++ [] = _
      rw [hsent, show counter = 0 from hcounter]
      rfl
    | false =>
      refine ⟨hcounter, ?_, rfl⟩
      show log.sent ++ [] = _
      rw [hsent, List.append_nil]
  | sendLaunches =>
    obtain ⟨hcounter, hsent, hpaused⟩ := hagrees
    cases h
    refine ⟨false, hpaused, ?_⟩
    show log.sent ++ [(p, .launches)] = _
    rw [hsent, show counter = 0 from hcounter]
    rfl
  | announce =>
    cases h
    exact SessionLog.ticked_work hagrees _ s.pause rfl rfl (by simp)
  | sleep =>
    cases h
    have hticked := SessionLog.ticked_work hagrees ⟨p, counter, if s.pause then .sleep else .lock⟩ s.pause
      rfl rfl (by simp)
    cases hpause : s.pause with
    | true => rw [hpause] at hticked; exact hticked
    | false => rw [hpause] at hticked; exact hticked
  | lock =>
    have hticked : ∀ w' : Worker, w'.p = p → w'.counter = counter →
        (log.work ⟨p, counter, .lock⟩ s.pause).ticked w' [] := fun w' hp hcounter =>
      SessionLog.ticked_work hagrees w' s.pause hp hcounter (by simp)
    simp only [Worker.step] at h
    split at h
    · cases h
    · cases h
      trivial
    · -- no entry, a tick, or the end of the loop
      split at h
      · cases h
        exact hticked _ rfl rfl
      · cases h
        exact hticked _ rfl rfl
      · cases h
        exact hticked _ rfl rfl
  | sendDuration =>
    cases h
    exact SessionLog.ticked_work hagrees _ s.pause rfl rfl (by simp)
  | sendTimeline =>
    -- the counter is incremented here, and the pair of events is complete
    obtain ⟨paused, hpaused, hsent⟩ := hagrees
    cases h
    refine ⟨paused, hpaused, ?_⟩
    show log.sent ++ [(p, .timeline)] = _
    rw [hsent, tickEvents_succ]
    simp only [List.append_assoc, List.append_nil]
  | tickBroadcast =>
    cases h
    exact SessionLog.ticked_work hagrees _ s.pause rfl rfl (by simp)
  | leave =>
    have hticked : ∀ w' : Worker, w'.p = p → w'.counter = counter →
        (log.work ⟨p, counter, .leave⟩ s.pause).ticked w' [] := fun w' hp hcounter =>
      SessionLog.ticked_work hagrees w' s.pause hp hcounter (by simp)
    cases h
    cases hpause : s.pause with
    | true =>
      rw [hpause] at hticked
      exact ⟨true, rfl, hticked _ rfl rfl⟩
    | false =>
      rw [hpause] at hticked
      exact ⟨hticked _ rfl rfl, rfl⟩
  | sendLongest =>
    obtain ⟨hticked, hpaused⟩ := hagrees
    cases h
    exact ⟨false, hpaused, SessionLog.ticked_work hticked _ s.pause rfl rfl (by simp)⟩
  | farewell =>
    obtain ⟨paused, hpaused, hticked⟩ := hagrees
    cases h
    refine ⟨paused, hpaused, ?_⟩
    have hdone := SessionLog.ticked_work hticked ⟨p, counter, .finished⟩ s.pause rfl rfl (by simp)
    rw [show Worker.sends ⟨p, counter, .farewell⟩ = [] from rfl, List.append_nil] at hdone
    exact hdone

/-! ## Runs -/

/-- The log of worker `k` agrees with the worker after any step of the program. -/
theorem SessionLog.agrees_step {c c' : Config} {l : Label} {k : Nat} {p : String}
    {log : SessionLog} (hagrees : ∃ w, c.workers[k]? = some w ∧ w.p = p ∧ log.agrees w)
    (h : tracker.step c l = some c') :
    ∃ w, c'.workers[k]? = some w ∧ w.p = p ∧ (log.record k c l).agrees w := by
  obtain ⟨w, hk, hp, hlog⟩ := hagrees
  rcases step_worker hk h with ⟨inp, w', rfl, hstep, hk'⟩ | ⟨hother, hk'⟩
  · have hp' : w'.p = w.p := (Worker.step_cases hstep).1
    refine ⟨w', hk', hp'.trans hp, ?_⟩
    rw [SessionLog.record, if_pos rfl, hk]
    exact SessionLog.agrees_work hlog hstep
  · -- another thread: the log of `k` is as it was
    have hsame : log.record k c l = log := by
      cases l with
      | work j inp => exact if_neg fun hjk => hother inp (by rw [hjk])
      | _ => rfl
    exact ⟨w, hk', hp, by rw [hsame]; exact hlog⟩

/-- **The events of a session.** A worker that was spawned for `p` and has finished sent: its
`Launches` event, unless the tracker was paused when it started; for each tick a `Duration`
event and right after it a `Timeline` event; and the `LongestSession` event with the number of
its ticks, unless the tracker was paused when it had left its loop. -/
theorem session_events {c₀ c : Config} {ls : List Label} {k : Nat} {p : String} {w : Worker}
    (hspawned : c₀.workers[k]? = some (.spawned p))
    (hrun : tracker.Runs (fun _ _ => True) c₀ ls c)
    (hk : c.workers[k]? = some w) (hfinished : w.point = .finished) :
    ∃ n pausedAtStart pausedAtEnd,
      (tracker.history (SessionLog.record k) .empty c₀ ls).sent.count (p, .duration) = n ∧
      tracker.history (SessionLog.record k) .empty c₀ ls =
        ⟨launchEvents p pausedAtStart ++ tickEvents p n ++ endEvents p n pausedAtEnd,
          some pausedAtStart, some pausedAtEnd⟩ := by
  have hlog := hrun.invariant_history (g := SessionLog.record k)
    (I := fun log c => ∃ w, c.workers[k]? = some w ∧ w.p = p ∧ SessionLog.agrees log w)
    (fun log c l c' hagrees _ h => SessionLog.agrees_step hagrees h)
    ⟨.spawned p, hspawned, rfl, agrees_spawned p⟩
  generalize tracker.history (SessionLog.record k) .empty c₀ ls = log at hlog ⊢
  obtain ⟨u, hu, hp, hagrees⟩ := hlog
  rw [hk] at hu
  cases hu
  rw [SessionLog.agrees, hfinished] at hagrees
  obtain ⟨pausedAtEnd, hend, pausedAtStart, hstart, hsent⟩ := hagrees
  rw [hp] at hsent
  refine ⟨w.counter, pausedAtStart, pausedAtEnd, ?_, ?_⟩
  · -- the ticks are the only `Duration` events
    have hlaunch : (launchEvents p pausedAtStart).count (p, .duration) = 0 := by
      cases pausedAtStart <;> simp [launchEvents]
    have hclose : (endEvents p w.counter pausedAtEnd).count (p, .duration) = 0 := by
      cases pausedAtEnd <;> simp [endEvents]
    rw [hsent, List.count_append, List.count_append, hlaunch, hclose, count_tickEvents]
    omega
  · cases log
    cases hstart
    cases hend
    cases hsent
    rfl

/-! ## A pause around the start

The tracker is paused while the worker starts, and resumed before the first tick. -/

/-- The events the session of `p` would have sent without a pause. -/
def allEvents (p : String) (n : Nat) : List Event :=
  launchEvents p false ++ tickEvents p n ++ endEvents p n false

/-- The session of `a` is opened. -/
def openSessionOfA : List Label := scanOfA ++ [.scan {}, .spawn]

/-- Paused at the start, one tick, and the end. -/
def pausedAtStart : List Label :=
  [.call 0 {}, .call 0 {}, .work 0 {}, .work 0 {}, .call 1 {}, .call 1 {}] ++
    List.replicate 5 (.work 0 {}) ++
    [.scan { order := ["a"] }, .scan {}, .scan {}, .scan { order := ["a"] }] ++
    List.replicate 5 (.work 0 {})

/-- The one process `a`, and two pause toggles to come. -/
def twoPauses : Config := .initial .linux storeWithA [.pause .read, .pause .read]

/-- The run of the session of `a`, from the moment its worker is spawned. -/
def pausedRun : Option (Config × Config) :=
  (tracker.exec twoPauses openSessionOfA).bind fun c₀ =>
    (tracker.execWhere (fun c _ => "a" ∈ c.shared.processMap) c₀ pausedAtStart).map fun c => (c₀, c)

theorem pausedRun_eq_some {c₀ c : Config} (h : pausedRun = some (c₀, c)) :
    tracker.Runs (fun _ _ => True) twoPauses openSessionOfA c₀ ∧
      tracker.Runs (fun c _ => "a" ∈ c.shared.processMap) c₀ pausedAtStart c := by
  obtain ⟨d₀, hopened, hrest⟩ := Option.bind_eq_some_iff.mp h
  obtain ⟨d, hexec, heq⟩ := Option.map_eq_some_iff.mp hrest
  cases heq
  exact ⟨Transition.System.runs_of_exec hopened, Transition.System.runs_of_execWhere hexec⟩

/-- **A session that was not counted as a launch.** -/
theorem uncounted_session :
    ¬ ∀ (platform : Platform) (db : Store) (calls : List Call) (ls₀ ls : List Label)
      (c₀ c : Config) (k : Nat) (p : String) (w : Worker),
      tracker.Runs (fun _ _ => True) (.initial platform db calls) ls₀ c₀ →
      c₀.workers[k]? = some (.spawned p) →
      tracker.Runs (fun c _ => p ∈ c.shared.processMap) c₀ ls c →
      c.workers[k]? = some w → w.point = .finished →
      ∃ n, (tracker.history (SessionLog.record k) .empty c₀ ls).sent = allEvents p n := by
  intro hall
  have hend : pausedRun.map (fun r => decide (r.1.workers[0]? = some (.spawned "a") ∧
      (r.2.workers[0]?.map Worker.point) = some .finished ∧
      (tracker.history (SessionLog.record 0) .empty r.1 pausedAtStart).sent =
        tickEvents "a" 1 ++ endEvents "a" 1 false)) = some true := by decide
  obtain ⟨⟨c₀, c⟩, hpaused, hc⟩ := Option.map_eq_some_iff.mp hend
  obtain ⟨hspawned, hfinished, hsent⟩ := of_decide_eq_true hc
  obtain ⟨hopened, hrun⟩ := pausedRun_eq_some hpaused
  obtain ⟨w, hw, hpoint⟩ := Option.map_eq_some_iff.mp hfinished
  obtain ⟨n, hn⟩ := hall _ _ _ _ pausedAtStart c₀ c 0 "a" w hopened hspawned hrun hw hpoint
  -- the launch is missing from the head of the list
  rw [hsent] at hn
  cases hn

/-- The events of that session: no launch, one tick, and the end. -/
theorem session_events_pausedAtStart :
    ∃ c₀ c, pausedRun = some (c₀, c) ∧ ∃ n pausedStart pausedEnd,
      (tracker.history (SessionLog.record 0) .empty c₀ pausedAtStart).sent.count
        ("a", .duration) = n ∧
      tracker.history (SessionLog.record 0) .empty c₀ pausedAtStart =
        ⟨launchEvents "a" pausedStart ++ tickEvents "a" n ++ endEvents "a" n pausedEnd,
          some pausedStart, some pausedEnd⟩ := by
  have hend : pausedRun.map (fun r => decide (r.1.workers[0]? = some (.spawned "a") ∧
      (r.2.workers[0]?.map Worker.point) = some .finished)) = some true := by decide
  obtain ⟨⟨c₀, c⟩, hpaused, hc⟩ := Option.map_eq_some_iff.mp hend
  obtain ⟨hspawned, hfinished⟩ := of_decide_eq_true hc
  obtain ⟨-, hrun⟩ := pausedRun_eq_some hpaused
  obtain ⟨w, hw, hpoint⟩ := Option.map_eq_some_iff.mp hfinished
  exact ⟨c₀, c, hpaused,
    session_events hspawned (hrun.mono fun _ _ _ => trivial) hw hpoint⟩

end TimeTracker
