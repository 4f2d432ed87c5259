import TimeTracker.Counts
import TimeTracker.Minutes

/-!
# The program comes to rest

Nothing waits for ever. Adds and deletes wait for the lock of `PROCESS_MAP`, which a session worker
holds for a tick, and events wait for the event loop. Both threads count while they go on, and a
sum that does not fit would be their end: so there has to be room for the counts (`Program.Room`).

* `exists_release`: the worker that holds the lock releases it with its next three steps at most.
* `exists_drained`: left to itself, the event loop empties its channel, whatever the database
  answers.
* **`comesToRest`**: both, from every state between two requests in which there is room.
-/

namespace TimeTracker

open Transition

/-! ## The lock -/

/-- The steps a worker has left in its tick. -/
def Worker.ticksLeft (w : Worker) : Nat :=
  match w.point with
  | .sendDuration => 3
  | .sendTimeline => 2
  | .tickBroadcast => 1
  | _ => 0

theorem Worker.ticksLeft_pos {w : Worker} (h : w.inTick = true) : 0 < w.ticksLeft := by
  obtain ⟨p, counter, point⟩ := w
  cases point with
  | sendDuration => exact Nat.succ_pos 2
  | sendTimeline => exact Nat.succ_pos 1
  | tickBroadcast => exact Nat.succ_pos 0
  | _ => cases h

/-- The events a worker has left to send in its tick. -/
def Worker.sendsLeft (w : Worker) : Nat :=
  match w.point with
  | .sendDuration => 2
  | .sendTimeline => 1
  | _ => 0

/-- The minute a worker is about to count can be counted. -/
def Worker.Room (w : Worker) : Prop := w.sendsLeft ≠ 0 → (w.counter : Int) < i32Max

instance (w : Worker) : Decidable w.Room := by
  unfold Worker.Room
  infer_instance

/-- The event loop of the program, by itself. -/
def Program.handling (p : Program) : Handling :=
  ⟨p.threads.loop, p.threads.shared.events, p.db⟩

section
variable {driver : Driver} {env : Environment World} {ok : Program → Action → Prop}
  {p p' : Program}

/-- A step of a thread is one of the program. -/
theorem step_of_thread {l : Label} {threads : Config} (hl : l.isCall = false)
    (h : tracker.step p.threads l = some threads) :
    (program driver env).step p (.thread l) = some { p with threads } := by
  show (if l.isCall then none
    else (tracker.step p.threads l).map fun threads => { p with threads }) = _
  rw [hl, if_neg Bool.false_ne_true, h, Option.map_some]

/-- What a worker in its tick does with its next step: it moves on, or releases the lock, and takes
up no more room than was kept for it. -/
structure MovesOn (env : Environment World) (p : Program) (w : Worker) (a : Action) (p' : Program)
    (w' : Worker) : Prop where
  ticksLeft : w'.ticksLeft + 1 = w.ticksLeft
  goesOn : w'.inTick = true ∨ p'.mapLock = .free
  room : ∀ n, p.handling.Room (n + w.sendsLeft) → p'.handling.Room (n + w'.sendsLeft)
  counts : w.Room → fits env p a ∧ w'.Room

/-- A worker in its tick moves on. -/
theorem exists_work {k : Nat} {w : Worker} (inp : Input) (hk : p.threads.workers[k]? = some w)
    (htick : w.inTick = true) :
    ∃ p' w', (program driver env).step p (.thread (.work k inp)) = some p' ∧
      p'.threads.workers[k]? = some w' ∧
      MovesOn env p w (.thread (.work k inp)) p' w' := by
  have hmoves : ∀ w' s, w.step inp p.threads.shared = some (w', s) →
      (program driver env).step p (.thread (.work k inp)) = some { p with
        threads := { p.threads with shared := s, workers := p.threads.workers.set k w' } } := by
    intro w' s hstep
    have hthreads : tracker.step p.threads (.work k inp) = some { p.threads with
        shared := s, workers := p.threads.workers.set k w' } := by
      show p.threads.step (.work k inp) = _
      simp only [Config.step, hk, hstep, Option.map_some]
    exact step_of_thread rfl hthreads
  have hsum : ∀ n, (Action.thread (.work k inp)).sum env p = some n ↔ w.sum = some n := by
    intro n
    show p.threads.workers[k]?.bind Worker.sum = some n ↔ _
    rw [hk]
    rfl
  obtain ⟨q, counter, point⟩ := w
  cases point with
  | sendDuration =>
    refine ⟨_, _, hmoves _ _ rfl, Pool.getElem?_set_self hk, rfl, .inl rfl, fun n hroom => ?_,
      fun hcounter => ⟨fun n hn => ?_, fun _ => ?_⟩⟩
    · exact hroom.send (q, .duration)
    · cases (hsum n).mp hn
    · exact hcounter (by show 2 ≠ 0; decide)
  | sendTimeline =>
    refine ⟨_, _, hmoves _ _ rfl, Pool.getElem?_set_self hk, rfl, .inl rfl, fun n hroom => ?_,
      fun hcounter => ⟨fun n hn => ?_, fun hsends => absurd rfl hsends⟩⟩
    · exact hroom.send (q, .timeline)
    · have hn : ((counter : Int) + 1) = n := Option.some.inj ((hsum n).mp hn)
      have hlt : (counter : Int) < i32Max := hcounter (by show 1 ≠ 0; decide)
      omega
  | tickBroadcast =>
    refine ⟨_, _, hmoves _ _ rfl, Pool.getElem?_set_self hk, rfl, .inr rfl, fun n hroom => ?_,
      fun _ => ⟨fun n hn => ?_, fun hsends => absurd rfl hsends⟩⟩
    · show Handling.Room (n + 0) ⟨p.threads.loop, (p.threads.shared.broadcast _).events,
        (p.threads.shared.broadcast _).db⟩
      rw [Shared.broadcast_events, Shared.broadcast_db]
      exact hroom
    · cases (hsum n).mp hn
  | _ => cases htick

/-- **The lock is released**, by the worker that holds it and with its next steps. Induction on the
steps it has left. -/
theorem exists_release {k r : Nat} (inp : Input) (n : Nat) :
    ∀ {p : Program} {w : Worker}, p.threads.workers[k]? = some w → w.inTick = true →
      w.ticksLeft ≤ n → w.Room → p.handling.Room (r + w.sendsLeft) → ∃ m p', m ≤ n ∧
        (program driver env).Runs (fits env) p
          (List.replicate m (.thread (.work k inp))) p' ∧ p'.mapLock = .free ∧
        p'.handling.Room r := by
  induction n with
  | zero =>
    intro p w hk htick hle
    have hpos := Worker.ticksLeft_pos htick
    omega
  | succ n ih =>
    intro p w hk htick hle hcounter hroom
    have hwork : ∃ p' w', (program driver env).step p _ = some p' ∧ _ := exists_work inp hk htick
    obtain ⟨p₁, w₁, hstep, hk₁, hmoves⟩ := hwork
    have hless := hmoves.ticksLeft
    have hroom₁ := hmoves.room r hroom
    obtain ⟨hfits, hcounter₁⟩ := hmoves.counts hcounter
    rcases hmoves.goesOn with htick₁ | hfree
    · obtain ⟨m, p', hm, hrun, hfree, hroom'⟩ := ih hk₁ htick₁ (by omega) hcounter₁ hroom₁
      exact ⟨m + 1, p', by omega, .cons hfits hstep hrun, hfree, hroom'⟩
    · exact ⟨1, p₁, by omega, .cons hfits hstep (.nil p₁), hfree,
        hroom₁.mono (Nat.le_add_right r _)⟩

/-! ## The event loop -/

/-- A step of the event loop is one of the program. -/
theorem exists_handle {inp : Input} {s : Handling} (h : eventLoop.step p.handling inp = some s) :
    ∃ p', (program driver env).step p (.thread (.handle inp)) = some p' ∧ p'.handling = s := by
  obtain ⟨⟨loop, events, db⟩, hstep, rfl⟩ := Option.map_eq_some_iff.mp h
  have hstep' : p.threads.loop.step inp p.threads.shared.events p.threads.shared.db =
      some (loop, events, db) := hstep
  have hthreads : tracker.step p.threads (.handle inp) = some { p.threads with
      loop, shared := { p.threads.shared with events, db } } := by
    show p.threads.step (.handle inp) = _
    simp only [Config.step, hstep', Option.map_some]
  exact ⟨_, step_of_thread rfl hthreads, rfl⟩

/-- And the other way round; it touches nothing else. -/
theorem step_of_handle {inp : Input}
    (h : (program driver env).step p (.thread (.handle inp)) = some p') :
    eventLoop.step p.handling inp = some p'.handling ∧ p'.mapLock = p.mapLock ∧
      p'.threads.workers = p.threads.workers := by
  obtain ⟨-, threads, hthreads, rfl⟩ := Program.step_thread h
  obtain ⟨loop, events, db, hstep, rfl⟩ := step_handle hthreads
  refine ⟨?_, rfl, rfl⟩
  show (p.threads.loop.step inp p.threads.shared.events p.threads.shared.db).map _ = _
  rw [hstep]
  rfl

/-- The event loop waits for events, and there are none. -/
def Program.drained (p : Program) : Prop :=
  p.threads.loop = .idle ∧ p.threads.shared.events = []

/-- **The event loop empties its channel**, whatever the clock says and the database answers, and
touches nothing else. -/
theorem exists_drained {r : Nat} (inputs : Nat → Input) (p : Program) (hroom : p.handling.Room r) :
    ∃ n p', (program driver env).Runs (fits env) p
        ((List.range n).map fun i => .thread (.handle (inputs i))) p' ∧
      p'.drained ∧ p'.mapLock = p.mapLock ∧ p'.threads.workers = p.threads.workers := by
  have hends : ∃ n p', (program driver env).Runs
      (fun _ a => ∃ inp, a = Action.thread (.handle inp)) p
      ((List.range n).map fun i => .thread (.handle (inputs i))) p' ∧ p'.drained := by
    refine System.exists_run_to (fun p => p.handling.statementsLeft) _
      (fun i => Action.thread (.handle (inputs i))) (fun _ i => ⟨inputs i, rfl⟩)
      (fun p i hbusy => ?_) (Nat.le_refl _)
    obtain ⟨s, hstep⟩ := exists_eventLoop_step p.handling (inputs i) (not_and_or.mp hbusy)
    obtain ⟨p', hstep', hhandling⟩ := exists_handle hstep
    refine ⟨p', hstep', ?_⟩
    rw [hhandling]
    exact eventLoop_decreases hstep
  obtain ⟨n, p', hrun, hdrained⟩ := hends
  -- there is room at every step, and the lock and the workers are left alone
  have hstrong : (program driver env).Runs (fits env) p
        ((List.range n).map fun i => .thread (.handle (inputs i))) p' ∧
      p'.handling.Room r ∧ p'.mapLock = p.mapLock ∧ p'.threads.workers = p.threads.workers := by
    refine hrun.strengthen (I := fun q => q.handling.Room r ∧ q.mapLock = p.mapLock ∧
      q.threads.workers = p.threads.workers) ?_ ?_ ⟨hroom, rfl, rfl⟩
    · rintro q _ q' ⟨hroom, hlock, hworkers⟩ ⟨inp, rfl⟩ hstep
      obtain ⟨hloop, hlock', hworkers'⟩ := step_of_handle hstep
      exact ⟨room_step hroom hloop, hlock'.trans hlock, hworkers'.trans hworkers⟩
    · rintro q _ ⟨hroom, -⟩ ⟨inp, rfl⟩ n hn
      have hle := hroom.sum_le hn
      omega
  obtain ⟨hfits, -, hlock, hworkers⟩ := hstrong
  exact ⟨n, p', hfits, hdrained, hlock, hworkers⟩

/-! ## Both -/

/-- There is room for all that has been sent, and for the minute that is being sent. -/
structure Program.Room (p : Program) : Prop where
  handling : p.handling.Room 2
  workers : ∀ w ∈ p.threads.workers, w.Room

instance (p : Program) : Decidable p.Room :=
  decidable_of_iff (p.handling.Room 2 ∧ ∀ w ∈ p.threads.workers, w.Room)
    ⟨fun h => ⟨h.1, h.2⟩, fun h => ⟨h.handling, h.workers⟩⟩

/-- Nothing is on its way, and nobody is kept waiting. -/
structure Program.AtRest (p : Program) : Prop where
  drained : p.drained
  lock : p.mapLock ≠ .held
  workers : ∀ w ∈ p.threads.workers, w.inTick = false

/-- What is known of the channel and the lock in every state of the program. -/
theorem minutesInvariant_of_runs {platform : Platform} {db : Store} {config : TimeTrackingConfig}
    {actions : List Action}
    (h : (program driver env).Runs ok (.initial platform db config) actions p) :
    ∃ half last, MinutesInvariant half last p.threads := by
  have hinv : LocksHealthy p ∧ ∃ half last, MinutesInvariant half last p.threads := by
    apply h.invariant
    · rintro p₁ a p₂ ⟨hlocks, half, last, hinv⟩ _ hstep
      refine ⟨locksHealthy_step hlocks hstep, ?_⟩
      cases a with
      | thread l =>
        obtain ⟨-, threads, hthreads, rfl⟩ := Program.step_thread hstep
        exact minutesInvariant_step hinv hthreads
      | request r now errs =>
        obtain ⟨_, s', -, -, rfl⟩ := hlocks.step_request hstep
        exact ⟨half, last, hinv.congr rfl rfl Iff.rfl⟩
      | pause =>
        cases hstep
        exact ⟨half, last, hinv.congr rfl rfl Iff.rfl⟩
      | commandLine processName path now errs =>
        obtain ⟨_, s', -, -, rfl⟩ := Program.step_commandLine hstep
        exact ⟨half, last, hinv.congr rfl rfl Iff.rfl⟩
      | restart config =>
        cases hstep
        exact ⟨none, none, minutesInvariant_initial _ _ _⟩
    · exact ⟨locksHealthy_initial _ _ _, none, none, minutesInvariant_initial _ _ _⟩
  exact hinv.2

/-- With the lock released, nobody is in a tick. -/
theorem MinutesInvariant.nobody {c : Config} {half last : Option String}
    (hinv : MinutesInvariant half last c) (hfree : c.shared.mapLock ≠ .held) :
    ∀ w ∈ c.workers, w.inTick = false := by
  have hlock := hinv.lock
  rw [if_neg hfree] at hlock
  intro w hw
  exact Bool.eq_false_iff.mpr (List.countP_eq_zero.mp hlock w hw)

/-- **The program comes to rest**, from every state it can be in between two requests, if there is
room: at most three steps of one session worker, and then steps of the event loop, whatever the
clock says and the database answers to them. Whatever is counted on the way fits. -/
theorem comesToRest {platform : Platform} {db : Store} {config : TimeTrackingConfig}
    {actions : List Action}
    (h : (program driver env).Runs ok (.initial platform db config) actions p) (hroom : p.Room)
    (inp : Input) (inputs : Nat → Input) :
    ∃ k m n p', m ≤ 3 ∧
      (program driver env).Runs (fits env) p
        (List.replicate m (.thread (.work k inp)) ++
          (List.range n).map fun i => .thread (.handle (inputs i))) p' ∧
      p'.AtRest := by
  have hrun : (program driver env).Runs (fun _ _ => True) (.initial platform db config) actions p :=
    h.mono fun _ _ _ => trivial
  -- with the lock released, the event loop is all that has to go on
  have hrest : ∀ ls p₁, (program driver env).Runs (fits env) p ls p₁ →
      p₁.mapLock ≠ .held → p₁.handling.Room 0 →
      ∃ n p', (program driver env).Runs (fits env) p
        (ls ++ (List.range n).map fun i => .thread (.handle (inputs i))) p' ∧ p'.AtRest := by
    intro ls p₁ hls hfree hroom₁
    obtain ⟨half, last, hinv⟩ :=
      minutesInvariant_of_runs (hrun.trans (hls.mono fun _ _ _ => trivial))
    obtain ⟨n, p', hdrain, hdrained, hlock, hworkers⟩ := exists_drained inputs p₁ hroom₁
    refine ⟨n, p', hls.trans hdrain, hdrained, ?_, ?_⟩
    · rw [hlock]
      exact hfree
    · rw [hworkers]
      exact hinv.nobody hfree
  by_cases hheld : p.mapLock = .held
  · obtain ⟨half, last, hinv⟩ := minutesInvariant_of_runs hrun
    have hone := hinv.lock
    rw [if_pos hheld] at hone
    have hpos : 0 < p.threads.workers.countP Worker.inTick := by omega
    obtain ⟨w, hw, htick⟩ := List.countP_pos_iff.mp hpos
    obtain ⟨k, hk⟩ := List.mem_iff_getElem?.mp hw
    have hle : w.ticksLeft ≤ 3 := by
      unfold Worker.ticksLeft
      split <;> omega
    have hsends : 0 + w.sendsLeft ≤ 2 := by
      unfold Worker.sendsLeft
      split <;> omega
    obtain ⟨m, p₁, hm, hwork, hfree, hroom₁⟩ := exists_release inp 3 hk htick hle
      (hroom.workers w hw) (hroom.handling.mono hsends)
    obtain ⟨n, p', hgoes, hatRest⟩ := hrest _ p₁ hwork (by rw [hfree]; decide) hroom₁
    exact ⟨k, m, n, p', hm, hgoes, hatRest⟩
  · obtain ⟨n, p', hgoes, hatRest⟩ := hrest [] p (.nil p) hheld
      (hroom.handling.mono (Nat.zero_le 2))
    exact ⟨0, 0, n, p', Nat.zero_le 3, hgoes, hatRest⟩

/-- From the middle of a minute, with a database that answers nothing. -/
theorem comesToRest_sessionInATick :
    ∃ p, (program countingDriver epochEnvironment).Runs (fun _ _ => True)
        (.initial .linux (storeWithTimes 0) ⟨60000, 10000⟩) (sessionInATick.map .thread) p ∧
      p.mapLock = .held ∧ p.Room ∧
      ∃ k m n p', m ≤ 3 ∧
        (program countingDriver epochEnvironment).Runs (fits epochEnvironment) p
          (List.replicate m (.thread (.work k {})) ++
            (List.range n).map fun _ => .thread (.handle { err := some (.exec "refused") })) p' ∧
        p'.AtRest := by
  have hend : ((program countingDriver epochEnvironment).exec
      (.initial .linux (storeWithTimes 0) ⟨60000, 10000⟩) (sessionInATick.map .thread)).map
      (fun p => decide (p.mapLock = .held ∧ p.Room)) = some true := by
    decide
  obtain ⟨p, hexec, hp⟩ := Option.map_eq_some_iff.mp hend
  obtain ⟨hheld, hroom⟩ := of_decide_eq_true hp
  have hrun := System.runs_of_exec hexec
  exact ⟨p, hrun, hheld, hroom,
    comesToRest hrun hroom {} fun _ => { err := some (.exec "refused") }⟩

end

end TimeTracker
