import TimeTracker.TwoLedgers

/-!
# One minute at a time

A session worker sends the two events of a minute with the lock of `PROCESS_MAP` held, so the
events of two minutes never cross in the channel, whatever the number of sessions. The channel is a
run of a machine with two states: between two minutes, and in the middle of the minute of an app.

* `minuteOrder`: the machine.
* **`minutesInvariant_step`**: what is still to be written is a run of it. It begins in the middle
  of a minute if the first half has been written, and ends in the middle of one if a worker is
  between its two sends.
* `minutes_count`: how many events of each kind such a run has.
* **`oneMinuteAtATime`**: so it is in every run.
-/

namespace TimeTracker

open Transition

/-! ## The machine -/

/-- The app in the middle of whose minute the channel is, after an event. -/
def minute : Option String → Event → Option (Option String)
  | none, (p, .duration) => some (some p)
  | some q, (p, .timeline) => if p = q then some none else none
  | half, (_, .launches) => some half
  | half, (_, .longestSession) => some half
  | _, _ => none

/-- The events of the minutes, one minute after the other. -/
def minuteOrder : System (Option String) Event := ⟨minute⟩

/-- The events lead from the middle of the minute of `half` to the middle of that of `last`, or
from and to the time between two minutes. -/
abbrev MinutesRun (half : Option String) (es : List Event) (last : Option String) : Prop :=
  minuteOrder.Runs (fun _ _ => True) half es last

section
variable {half half' last : Option String} {es : List Event} {e : Event} {p : String}

theorem minute_duration (h : minute half (p, .duration) = some half') :
    half = none ∧ half' = some p := by
  cases half with
  | none =>
    cases h
    exact ⟨rfl, rfl⟩
  | some q => cases h

theorem minute_timeline (h : minute half (p, .timeline) = some half') :
    half = some p ∧ half' = none := by
  cases half with
  | none => cases h
  | some q =>
    change (if p = q then some none else none) = some half' at h
    split at h
    · next heq =>
      cases h
      exact ⟨by rw [heq], rfl⟩
    · cases h

/-- What an event does to the halves of a minute. -/
theorem minute_count (h : minute half e = some half') :
    (if half' = some p then 1 else 0) + (if e = (p, .timeline) then 1 else 0) =
      (if half = some p then 1 else 0) + (if e = (p, .duration) then 1 else 0) := by
  obtain ⟨q, kind⟩ := e
  cases kind with
  | duration =>
    obtain ⟨rfl, rfl⟩ := minute_duration h
    by_cases hqp : q = p <;> simp [hqp]
  | timeline =>
    obtain ⟨rfl, rfl⟩ := minute_timeline h
    by_cases hqp : q = p <;> simp [hqp]
  | launches | longestSession =>
    have hsame : half' = half := by
      cases half <;> exact (Option.some.inj h).symm
    rw [hsame]
    simp

/-- **The halves of the minutes of an app**: there is a second half for each first half, but for the
minute the run begins in the middle of and the minute it ends in the middle of. -/
theorem minutes_count (h : MinutesRun half es last) :
    es.count (p, .timeline) + (if last = some p then 1 else 0) =
      es.count (p, .duration) + (if half = some p then 1 else 0) := by
  induction h with
  | nil half => rfl
  | @cons half half' last e es _ hstep _ ih =>
    have hone := minute_count (p := p) hstep
    rw [List.count_cons, List.count_cons]
    simp only [beq_iff_eq]
    omega

/-- One event more. -/
theorem MinutesRun.concat {last' : Option String} (h : MinutesRun half es last)
    (hstep : minute last e = some last') : MinutesRun half (es ++ [e]) last' :=
  h.trans (.cons trivial hstep (.nil last'))

/-- The first event is taken. -/
theorem MinutesRun.tail (h : MinutesRun half (e :: es) last) :
    ∃ half', minute half e = some half' ∧ MinutesRun half' es last := by
  cases h with
  | cons _ hstep hrest => exact ⟨_, hstep, hrest⟩

end

/-! ## The lock -/

/-- A worker that has locked `PROCESS_MAP` for a tick. -/
def Worker.inTick (w : Worker) : Bool :=
  match w.point with
  | .sendDuration | .sendTimeline | .tickBroadcast => true
  | _ => false

theorem Worker.inTick_of_betweenSends (w : Worker) (h : w.betweenSends = true) :
    w.inTick = true := by
  have hpoint : w.point = .sendTimeline := of_decide_eq_true h
  rw [inTick, hpoint]

section
variable {inp : Input} {w w' : Worker} {s s' : Shared}

/-- A step of a worker takes the lock as the worker begins a tick, and releases it as the tick
ends. -/
theorem Worker.step_inTick (h : w.step inp s = some (w', s'))
    (hheld : w.inTick = true → s.mapLock = .held) :
    (if w'.inTick = true then 1 else 0) + (if s.mapLock = .held then 1 else 0) =
      (if w.inTick = true then 1 else 0) + (if s'.mapLock = .held then 1 else 0) := by
  obtain ⟨p, counter, point⟩ := w
  cases point with
  | finished | panicked => cases h
  | lock =>
    simp only [Worker.step] at h
    split at h
    · cases h
    · next hlock =>
      cases h
      simp [inTick, hlock]
    · next hlock =>
      split at h <;> cases h <;> simp [inTick, hlock]
  | tickBroadcast =>
    have hlock := hheld rfl
    cases h
    simp [inTick, hlock]
  | start | sleep | leave =>
    cases h
    cases hpause : s.pause <;> simp [inTick]
  | announce | farewell =>
    cases h
    simp [inTick]
  | sendLaunches | sendDuration | sendTimeline | sendLongest =>
    cases h
    rfl

/-- **What a worker sends goes on with the minute it is in.** -/
theorem Worker.step_minute {last : Option String} (h : w.step inp s = some (w', s'))
    (hlast : w.betweenSends = true → last = some w.p)
    (hfirst : w.inTick = true → w.betweenSends = false → last = none) :
    ∃ last', MinutesRun last w.sends last' ∧ ∀ q,
      (if last' = some q then 1 else 0) + (if (w.p = q && w.betweenSends) = true then 1 else 0) =
        (if last = some q then 1 else 0) +
          if (w.p = q && w'.betweenSends) = true then 1 else 0 := by
  obtain ⟨-, hnext⟩ := Worker.step_point h
  obtain ⟨p, counter, point⟩ := w
  -- away from the two sends the worker is between minutes before and after
  have hquiet : point ≠ .sendTimeline → w'.point ≠ .sendTimeline →
      MinutesRun last (Worker.sends ⟨p, counter, point⟩) last →
      ∃ last', MinutesRun last (Worker.sends ⟨p, counter, point⟩) last' ∧ ∀ q,
        (if last' = some q then 1 else 0) +
            (if (p = q && (Worker.mk p counter point).betweenSends) = true then 1 else 0) =
          (if last = some q then 1 else 0) +
            if (p = q && w'.betweenSends) = true then 1 else 0 := by
    intro hpoint hpoint' hrun
    have hnow : (Worker.mk p counter point).betweenSends = false := decide_eq_false hpoint
    have hthen : w'.betweenSends = false := decide_eq_false hpoint'
    refine ⟨last, hrun, fun q => ?_⟩
    rw [hnow, hthen]
  cases point with
  | finished | panicked => cases hnext
  | start | announce | sleep | lock | tickBroadcast | leave | farewell =>
    refine hquiet (by simp) (fun hpoint' => ?_) (.nil last)
    rw [hpoint'] at hnext
    cases hpause : s.pause <;> simp [WorkerPoint.next, hpause] at hnext
  | sendLaunches =>
    have hpoint' : w'.point = .announce := List.mem_singleton.mp hnext
    refine hquiet (by simp) (by simp [hpoint']) (.cons trivial ?_ (.nil last))
    cases last <;> rfl
  | sendLongest =>
    have hpoint' : w'.point = .farewell := List.mem_singleton.mp hnext
    refine hquiet (by simp) (by simp [hpoint']) (.cons trivial ?_ (.nil last))
    cases last <;> rfl
  | sendDuration =>
    have hpoint' : w'.point = .sendTimeline := List.mem_singleton.mp hnext
    have hthen : w'.betweenSends = true := decide_eq_true hpoint'
    obtain rfl : last = none := hfirst rfl rfl
    refine ⟨some p, .cons trivial rfl (.nil _), fun q => ?_⟩
    rw [hthen]
    simp [betweenSends]
  | sendTimeline =>
    have hpoint' : w'.point = .tickBroadcast := List.mem_singleton.mp hnext
    have hthen : w'.betweenSends = false := by simp [betweenSends, hpoint']
    obtain rfl : last = some p := hlast rfl
    refine ⟨none, .cons trivial (if_pos rfl) (.nil _), fun q => ?_⟩
    rw [hthen]
    simp [betweenSends]

end

/-! ## The channel -/

/-- The lock of `PROCESS_MAP` is held by the one worker that is in a tick, and the events still to
be written are the minutes of one worker after the other. -/
structure MinutesInvariant (half last : Option String) (c : Config) : Prop where
  lock : c.workers.countP Worker.inTick = if c.shared.mapLock = .held then 1 else 0
  events : MinutesRun half (unwritten c) last
  between : ∀ p, workersBetween p c.workers = if last = some p then 1 else 0

section
variable {half last : Option String} {c c' : Config} {inp : Input} {k : Nat}

/-- A step that sends nothing and neither takes nor releases the lock. -/
theorem MinutesInvariant.congr (hinv : MinutesInvariant half last c)
    (hworkers : c'.workers = c.workers) (hunwritten : unwritten c' = unwritten c)
    (hlock : c'.shared.mapLock = .held ↔ c.shared.mapLock = .held) :
    MinutesInvariant half last c' := by
  constructor
  · simp only [hworkers, hlock]
    exact hinv.lock
  · rw [hunwritten]
    exact hinv.events
  · rw [hworkers]
    exact hinv.between

theorem minutesInvariant_scan (hinv : MinutesInvariant half last c)
    (h : tracker.step c (.scan inp) = some c') : MinutesInvariant half last c' := by
  obtain ⟨sc, s, hstep, rfl⟩ := step_scan h
  rcases Scanner.step_cases hstep with ⟨-, -, rfl⟩ | ⟨_, _, _, -, -, -, -, -, rfl⟩ |
    ⟨_, _, -, hfree, -, -, -, rfl⟩ | ⟨_, _, -, -, rfl⟩
  · exact hinv.congr rfl rfl Iff.rfl
  · exact hinv.congr rfl rfl Iff.rfl
  -- the scanner dies with the lock in its hands, which it can only have taken free
  · refine hinv.congr rfl rfl (iff_of_false (fun hheld => by cases hheld) ?_)
    rw [hfree]
    decide
  · exact hinv.congr rfl rfl Iff.rfl

theorem minutesInvariant_spawn (hinv : MinutesInvariant half last c)
    (h : tracker.step c .spawn = some c') : MinutesInvariant half last c' := by
  obtain ⟨p, rest, -, rfl⟩ := step_spawn h
  constructor
  · show (c.workers ++ [Worker.spawned p]).countP Worker.inTick = _
    rw [List.countP_append, List.countP_singleton]
    exact hinv.lock
  · exact hinv.events
  · intro q
    show workersBetween q (c.workers ++ [Worker.spawned p]) = _
    rw [workersBetween, List.countP_append, List.countP_singleton]
    have hidle : (decide ((Worker.spawned p).p = q) && (Worker.spawned p).betweenSends) = false :=
      Bool.and_false _
    rw [hidle]
    exact hinv.between q

/-- The worker that begins a minute finds none begun. -/
theorem MinutesInvariant.last_eq_none (hinv : MinutesInvariant half last c) {w : Worker}
    (hk : c.workers[k]? = some w) (htick : w.inTick = true) (hw : w.betweenSends = false) :
    last = none := by
  have halone : c.workers.countP Worker.inTick = 1 := by
    have hpos : 0 < c.workers.countP Worker.inTick :=
      List.countP_pos_iff.mpr ⟨w, List.mem_of_getElem? hk, htick⟩
    have hlock := hinv.lock
    split at hlock <;> omega
  cases hlast : last with
  | none => rfl
  | some q =>
    have hbetween := hinv.between q
    have hzero : workersBetween q c.workers = 0 := by
      apply Pool.countP_eq_zero_of_alone ?_ halone hk htick
      · rw [hw, Bool.and_false]
      · exact fun u hu => u.inTick_of_betweenSends (Bool.and_eq_true_iff.mp hu).2
    rw [hzero, if_pos hlast] at hbetween
    cases hbetween

/-- The worker that ends a minute is in the middle of it. -/
theorem MinutesInvariant.last_eq_some (hinv : MinutesInvariant half last c) {w : Worker}
    (hk : c.workers[k]? = some w) (hw : w.betweenSends = true) : last = some w.p := by
  have hpos : 0 < workersBetween w.p c.workers :=
    List.countP_pos_iff.mpr ⟨w, List.mem_of_getElem? hk, by simp [hw]⟩
  have hbetween := hinv.between w.p
  split at hbetween
  · assumption
  · omega

/-- **A worker moves on.** -/
theorem minutesInvariant_work (hinv : MinutesInvariant half last c)
    (h : tracker.step c (.work k inp) = some c') : ∃ last', MinutesInvariant half last' c' := by
  obtain ⟨w, w', s, hk, hstep, rfl⟩ := step_work h
  have hheld : w.inTick = true → c.shared.mapLock = .held := by
    intro htick
    have hpos : 0 < c.workers.countP Worker.inTick :=
      List.countP_pos_iff.mpr ⟨w, List.mem_of_getElem? hk, htick⟩
    have hlock := hinv.lock
    by_contra hfree
    rw [if_neg hfree] at hlock
    omega
  obtain ⟨-, hp, -, hevents, -⟩ := Worker.step_sends hstep
  obtain ⟨last', hsends, hlast'⟩ :=
    Worker.step_minute hstep (hinv.last_eq_some hk) (hinv.last_eq_none hk)
  refine ⟨last', ?_, ?_, fun q => ?_⟩
  · have htick := Worker.step_inTick hstep hheld
    have hset := Pool.countP_set Worker.inTick w' hk
    have hlock := hinv.lock
    show (c.workers.set k w').countP Worker.inTick = if s.mapLock = .held then 1 else 0
    omega
  · have hunwritten : c.loop.unwritten ++ s.events = unwritten c ++ w.sends := by
      rw [hevents, ← List.append_assoc, unwritten]
    show MinutesRun half (c.loop.unwritten ++ s.events) last'
    rw [hunwritten]
    exact hinv.events.trans hsends
  · have hset := Pool.countP_set (fun u => u.p = q && u.betweenSends) w' hk
    have hbetween := hinv.between q
    have hone := hlast' q
    rw [workersBetween] at hbetween
    simp only [hp] at hset
    show (c.workers.set k w').countP (fun u => u.p = q && u.betweenSends) = _
    omega

/-- The event loop writes the oldest event, or drops it, or leaves it for later. -/
theorem EventLoop.step_unwritten {loop loop' : EventLoop} {events events' : List Event}
    {db db' : Store} (h : loop.step inp events db = some (loop', events', db')) :
    loop'.unwritten ++ events' = loop.unwritten ++ events ∨
      ∃ e, loop.unwritten ++ events = e :: (loop'.unwritten ++ events') := by
  rcases EventLoop.step_cases h with ⟨event, rfl, rfl, -, rfl⟩ |
    ⟨event, hd, next, rfl, rfl, hnext, rfl⟩
  · cases hhandle : handle event with
    | none => exact .inr ⟨event, rfl⟩
    | some hd =>
      have hfresh : hd.consistent event db ∧ hd.written = false := consistent_of_handle hhandle
      left
      simp [EventLoop.resume, EventLoop.unwritten, hfresh.2]
  · cases hw : hd.written with
    | true =>
      have hstep : LedgerStep event hd next db db' := ledgerStep_checkpoints hw hnext
      rcases hstep.ledgers with ⟨hsame, -, -⟩ | ⟨hnot, -⟩
      · rw [hsame]
        exact .inl rfl
      · rw [hw] at hnot
        cases hnot
    | false =>
      have hnow : (EventLoop.handling event hd).unwritten = [event] := by
        simp [EventLoop.unwritten, hw]
      rw [hnow]
      cases next with
      | none => exact .inr ⟨event, rfl⟩
      | some hd' =>
        cases hw' : hd'.written with
        | true => exact .inr ⟨event, by simp [EventLoop.resume, EventLoop.unwritten, hw']⟩
        | false => exact .inl (by simp [EventLoop.resume, EventLoop.unwritten, hw'])

theorem minutesInvariant_handle (hinv : MinutesInvariant half last c)
    (h : tracker.step c (.handle inp) = some c') : ∃ half', MinutesInvariant half' last c' := by
  obtain ⟨loop, events, db, hstep, rfl⟩ := step_handle h
  rcases EventLoop.step_unwritten hstep with hsame | ⟨e, htail⟩
  · exact ⟨half, hinv.congr rfl hsame Iff.rfl⟩
  · have hevents := hinv.events
    rw [unwritten, htail] at hevents
    obtain ⟨half', -, hrest⟩ := hevents.tail
    exact ⟨half', hinv.lock, hrest, hinv.between⟩

/-- **One step of any thread.** -/
theorem minutesInvariant_step {l : Label} (hinv : MinutesInvariant half last c)
    (h : tracker.step c l = some c') : ∃ half' last', MinutesInvariant half' last' c' := by
  cases l with
  | scan inp => exact ⟨half, last, minutesInvariant_scan hinv h⟩
  | spawn => exact ⟨half, last, minutesInvariant_spawn hinv h⟩
  | work k inp => exact ⟨half, minutesInvariant_work hinv h⟩
  | handle inp =>
    obtain ⟨half', hinv'⟩ := minutesInvariant_handle hinv h
    exact ⟨half', last, hinv'⟩
  | call k inp =>
    obtain ⟨call, call', s, -, hstep, rfl⟩ := step_call h
    obtain ⟨-, hevents, hlock, -⟩ := Call.step_cases hstep
    refine ⟨half, last, hinv.congr rfl ?_ ?_⟩
    · show c.loop.unwritten ++ s.events = unwritten c
      rw [hevents, unwritten]
    · show s.mapLock = .held ↔ _
      rw [hlock]

/-- A tracker that has just been started. -/
theorem minutesInvariant_initial (platform : Platform) (db : Store) (calls : List Call) :
    MinutesInvariant none none (.initial platform db calls) :=
  ⟨rfl, .nil none, fun _ => rfl⟩

/-! ## Runs -/

/-- The minutes in the channel: one after the other, and for each app as many second halves as first
halves, but for the minute of `half`, whose first half has been written, and for the minute that a
worker is in the middle of. -/
structure MinutesInOrder (half : Option String) (c : Config) : Prop where
  order : ∃ last, MinutesRun half (unwritten c) last
  halves : ∀ p, queued .timeline p c + workersBetween p c.workers =
    queued .duration p c + if half = some p then 1 else 0

theorem MinutesInvariant.inOrder (hinv : MinutesInvariant half last c) :
    MinutesInOrder half c := by
  refine ⟨⟨last, hinv.events⟩, fun p => ?_⟩
  have hcount := minutes_count (p := p) hinv.events
  rw [hinv.between p]
  exact hcount

/-- **One minute at a time**: in every run of any threads and calls, whatever the database does, no
two workers are in a tick at the same time, and the minutes in the channel do not cross. -/
theorem oneMinuteAtATime {platform : Platform} {db : Store} {calls : List Call} {ls : List Label}
    (h : tracker.Runs (fun _ _ => True) (.initial platform db calls) ls c) :
    (c.workers.countP Worker.inTick = if c.shared.mapLock = .held then 1 else 0) ∧
      ∃ half, MinutesInOrder half c := by
  have hinv : ∃ half last, MinutesInvariant half last c := by
    apply h.invariant
    · rintro _ _ _ ⟨half, last, hinv⟩ _ hstep
      exact minutesInvariant_step hinv hstep
    · exact ⟨none, none, minutesInvariant_initial platform db calls⟩
  obtain ⟨half, last, hinv⟩ := hinv
  exact ⟨hinv.lock, half, hinv.inOrder⟩

/-- A session of `a` in its first minute, and the event loop behind it. -/
def sessionInATick : List Label :=
  scanA [⟨"a", false⟩] ++ [.scan {}, .spawn] ++ List.replicate 6 (.work 0 {}) ++
    List.replicate 7 (.handle {})

theorem oneMinuteAtATime_sessionInATick :
    ∃ c, tracker.exec (.initial .linux (storeWithTimes 0) []) sessionInATick = some c ∧
      c.shared.mapLock = .held ∧
      c.workers.countP Worker.inTick = (if c.shared.mapLock = .held then 1 else 0) ∧
      ∃ half, MinutesInOrder half c := by
  have hend : (tracker.exec (.initial .linux (storeWithTimes 0) []) sessionInATick).map
      (fun c => decide (c.shared.mapLock = .held)) = some true := by
    decide
  obtain ⟨c, hexec, hc⟩ := Option.map_eq_some_iff.mp hend
  obtain ⟨hlock, horder⟩ := oneMinuteAtATime (System.runs_of_exec hexec)
  exact ⟨c, hexec, of_decide_eq_true hc, hlock, horder⟩

end

end TimeTracker
