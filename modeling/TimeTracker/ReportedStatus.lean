import TimeTracker.Sessions

/-!
# The reported status

The sessions of all processes report through one stored `TrackingStatus`: a worker overwrites
it when it starts, at each tick and when it ends. The first two say "tracking, this process",
the last says "not tracking", whatever the other workers are doing.

* **`statusMatches_iff`**: the status matches the live sessions in every state of a run if and
  only if each final broadcast of the run happens while no other session is live (and a worker
  that dies on a poisoned lock leaves the status to one that is).
* **`two_sessions_one_ends`**: two sessions, and the end of one of them.
-/

namespace TimeTracker

/-! ## What is reported -/

/-- `get_current_tracking_status`. -/
def Shared.getCurrentTrackingStatus (s : Shared) : TrackingStatus := s.trackingStatus

/-- A worker between its start broadcast and its final broadcast. -/
def Worker.inPhase (w : Worker) : Bool :=
  match w.point with
  | .sleep | .lock | .sendDuration | .sendTimeline | .tickBroadcast | .leave | .sendLongest
  | .farewell => true
  | .start | .sendLaunches | .announce | .finished | .panicked => false

/-- A worker in its phase is of the process the status names. -/
def namesOneOf (status : TrackingStatus) (workers : List Worker) : Prop :=
  ∃ w ∈ workers, w.inPhase = true ∧ status.currentApp = some w.p

instance (status : TrackingStatus) (workers : List Worker) :
    Decidable (namesOneOf status workers) :=
  inferInstanceAs (Decidable (∃ w ∈ workers, _))

/-- The status matches the live sessions. -/
structure StatusMatches (c : Config) : Prop where
  live : (∃ w ∈ c.workers, w.inPhase = true) →
    c.shared.getCurrentTrackingStatus.isTracking = true ∧
      namesOneOf c.shared.getCurrentTrackingStatus c.workers
  idle : (∀ w ∈ c.workers, w.inPhase = false) →
    c.shared.getCurrentTrackingStatus.isTracking = false

/-- The final broadcast of a worker happens while no other worker is in its phase, and a worker
that dies on the poisoned lock leaves one whose process the status names. -/
def endsAlone (c : Config) : Label → Prop
  | .work k _ => ∀ w ∈ c.workers[k]?,
    (w.point = .farewell → ∀ u ∈ c.workers.eraseIdx k, u.inPhase = false) ∧
    (w.point = .lock → c.shared.mapLock = .poisoned →
      namesOneOf c.shared.getCurrentTrackingStatus (c.workers.eraseIdx k))
  | _ => True

instance (c : Config) (l : Label) : Decidable (endsAlone c l) :=
  match l with
  | .work k _ => inferInstanceAs (Decidable (∀ w ∈ c.workers[k]?, _ ∧ _))
  | .scan _ | .spawn | .handle _ | .call _ _ => isTrue trivial

/-! ## The steps -/

variable {inp : Input}

/-- What a step of a worker does to the status, if there is a server to report to. -/
theorem Worker.step_status {w w' : Worker} {s s' : Shared} (hserver : s.broadcaster = true)
    (h : w.step inp s = some (w', s')) :
    s'.broadcaster = true ∧ w'.p = w.p ∧
    -- the start broadcast, and the broadcast of a tick
    ((w'.inPhase = true ∧ s'.trackingStatus.isTracking = true ∧
        s'.trackingStatus.currentApp = some w.p ∧ w.point ≠ .farewell ∧ w.point ≠ .lock) ∨
      -- the final broadcast
      (w.point = .farewell ∧ w'.inPhase = false ∧ s'.trackingStatus = .idle) ∨
      -- the death on the poisoned lock
      (w.point = .lock ∧ s.mapLock = .poisoned ∧ w'.inPhase = false ∧
        s'.trackingStatus = s.trackingStatus) ∨
      (w'.inPhase = w.inPhase ∧ s'.trackingStatus = s.trackingStatus ∧ w.point ≠ .farewell ∧
        (w.point = .lock → s.mapLock ≠ .poisoned))) := by
  obtain ⟨p, counter, point⟩ := w
  cases point with
  | finished | panicked => cases h
  | start =>
    cases h
    refine ⟨hserver, rfl, .inr (.inr (.inr ⟨?_, rfl, by simp, by simp⟩))⟩
    cases s.pause <;> rfl
  | sleep =>
    cases h
    refine ⟨hserver, rfl, .inr (.inr (.inr ⟨?_, rfl, by simp, by simp⟩))⟩
    cases s.pause <;> rfl
  | leave =>
    cases h
    refine ⟨hserver, rfl, .inr (.inr (.inr ⟨?_, rfl, by simp, by simp⟩))⟩
    cases s.pause <;> rfl
  | lock =>
    simp only [Worker.step] at h
    split at h
    · cases h
    · next hpoisoned =>
      cases h
      exact ⟨hserver, rfl, .inr (.inr (.inl ⟨rfl, hpoisoned, rfl, rfl⟩))⟩
    · next hfree =>
      have hlive : s.mapLock ≠ .poisoned := by rw [hfree]; simp
      split at h <;> cases h <;>
        exact ⟨hserver, rfl, .inr (.inr (.inr ⟨rfl, rfl, by simp, fun _ => hlive⟩))⟩
  | sendLaunches | sendDuration | sendTimeline | sendLongest =>
    cases h
    exact ⟨hserver, rfl, .inr (.inr (.inr ⟨rfl, rfl, by simp, by simp⟩))⟩
  | announce =>
    cases h
    rw [Shared.broadcast, if_pos hserver]
    exact ⟨hserver, rfl, .inl ⟨rfl, rfl, rfl, by simp, by simp⟩⟩
  | tickBroadcast =>
    cases h
    rw [Shared.broadcast, if_pos hserver]
    exact ⟨hserver, rfl, .inl ⟨rfl, rfl, rfl, by simp, by simp⟩⟩
  | farewell =>
    cases h
    rw [Shared.broadcast, if_pos hserver]
    exact ⟨hserver, rfl, .inr (.inl ⟨rfl, rfl, rfl⟩)⟩

/-- No call touches the status. -/
theorem Call.step_status {call call' : Call} {s s' : Shared}
    (h : call.step inp s = some (call', s')) :
    s'.broadcaster = s.broadcaster ∧ s'.trackingStatus = s.trackingStatus := by
  rcases Call.step_machine h with ⟨a, a', -, -, hstep⟩ | ⟨d, d', -, -, hstep⟩ |
    ⟨p, p', -, -, hstep⟩ | ⟨a, a', db, -, -, -, rfl⟩ | ⟨a, a', db, -, -, -, rfl⟩ |
    ⟨a, a', db, -, -, -, rfl⟩
  · rcases AddProcess.step_shared hstep with ⟨_, rfl⟩ | ⟨_, _, _, _, -, -, -, -, rfl⟩
    · exact ⟨rfl, rfl⟩
    · exact ⟨rfl, rfl⟩
  · rcases DeleteProcess.step_shared hstep with ⟨_, rfl⟩ | ⟨_, -, -, rfl⟩
    · exact ⟨rfl, rfl⟩
    · exact ⟨rfl, rfl⟩
  · rcases Pause.step_cases hstep with ⟨-, -, rfl⟩ | ⟨_, -, -, rfl⟩ <;> exact ⟨rfl, rfl⟩
  · exact ⟨rfl, rfl⟩
  · exact ⟨rfl, rfl⟩
  · exact ⟨rfl, rfl⟩

/-- Only workers touch the status. A new worker is not in its phase. -/
theorem step_status {c c' : Config} {l : Label} (hl : ∀ k inp, l ≠ .work k inp)
    (h : tracker.step c l = some c') :
    c'.shared.broadcaster = c.shared.broadcaster ∧
      c'.shared.trackingStatus = c.shared.trackingStatus ∧
      ∀ u, u.inPhase = true → (u ∈ c'.workers ↔ u ∈ c.workers) := by
  cases l with
  | scan inp =>
    obtain ⟨sc, s, hstep, rfl⟩ := step_scan h
    rcases Scanner.step_cases hstep with ⟨-, -, rfl⟩ | ⟨_, _, _, -, -, -, -, -, rfl⟩ |
      ⟨_, _, -, -, -, -, -, rfl⟩ | ⟨_, _, -, -, rfl⟩ <;> exact ⟨rfl, rfl, fun _ _ => Iff.rfl⟩
  | spawn =>
    obtain ⟨p, rest, -, rfl⟩ := step_spawn h
    refine ⟨rfl, rfl, fun u hu => ?_⟩
    have hnew : u ≠ .spawned p := by
      rintro rfl
      cases hu
    rw [List.mem_append, List.mem_singleton]
    exact or_iff_left hnew
  | work k inp => exact absurd rfl (hl k inp)
  | handle inp =>
    obtain ⟨_, _, _, -, rfl⟩ := step_handle h
    exact ⟨rfl, rfl, fun _ _ => Iff.rfl⟩
  | call k inp =>
    obtain ⟨call, call', s, -, hstep, rfl⟩ := step_call h
    obtain ⟨hserver, hstatus⟩ := Call.step_status hstep
    exact ⟨hserver, hstatus, fun _ _ => Iff.rfl⟩

/-- The server stays registered. -/
theorem broadcaster_step {c c' : Config} {l : Label} (hserver : c.shared.broadcaster = true)
    (h : tracker.step c l = some c') : c'.shared.broadcaster = true := by
  cases l with
  | work k inp =>
    obtain ⟨w, w', s, -, hstep, rfl⟩ := step_work h
    exact (Worker.step_status hserver hstep).1
  | _ => exact (step_status (fun _ _ hl => by cases hl) h).1.trans hserver

/-! ## Which steps keep the status truthful -/

/-- What it means that the status matches, for worker `k` and the others. -/
theorem statusMatches_iff_others {c : Config} {k : Nat} {w : Worker}
    (hk : c.workers[k]? = some w) :
    StatusMatches c ↔
      (w.inPhase = true ∨ (∃ u ∈ c.workers.eraseIdx k, u.inPhase = true) →
        c.shared.trackingStatus.isTracking = true ∧
        (w.inPhase = true ∧ c.shared.trackingStatus.currentApp = some w.p ∨
          namesOneOf c.shared.trackingStatus (c.workers.eraseIdx k))) ∧
      (w.inPhase = false ∧ (∀ u ∈ c.workers.eraseIdx k, u.inPhase = false) →
        c.shared.trackingStatus.isTracking = false) := by
  have hmem : ∀ u, u ∈ c.workers ↔ u = w ∨ u ∈ c.workers.eraseIdx k := fun u => Pool.mem_iff hk
  -- each of the three says something of all workers: of this one and of the others
  have hany : (∃ u ∈ c.workers, u.inPhase = true) ↔
      w.inPhase = true ∨ ∃ u ∈ c.workers.eraseIdx k, u.inPhase = true := by
    simp only [hmem, or_and_right, exists_or, exists_eq_left]
  have hall : (∀ u ∈ c.workers, u.inPhase = false) ↔
      w.inPhase = false ∧ ∀ u ∈ c.workers.eraseIdx k, u.inPhase = false := by
    simp only [hmem, or_imp, forall_and, forall_eq]
  have hnames : namesOneOf c.shared.trackingStatus c.workers ↔
      w.inPhase = true ∧ c.shared.trackingStatus.currentApp = some w.p ∨
        namesOneOf c.shared.trackingStatus (c.workers.eraseIdx k) := by
    simp only [namesOneOf, hmem, or_and_right, exists_or, exists_eq_left]
  rw [← hany, ← hall, ← hnames]
  exact ⟨fun h => ⟨h.live, h.idle⟩, fun h => ⟨h.1, h.2⟩⟩

/-- **Exactly the final broadcasts of lone sessions keep the status truthful**, and every other
step does. -/
theorem statusMatches_step_iff (c : Config) (l : Label) (c' : Config)
    (hserver : c.shared.broadcaster = true) (hmatches : StatusMatches c)
    (h : tracker.step c l = some c') : StatusMatches c' ↔ endsAlone c l := by
  cases l with
  | work k inp =>
    obtain ⟨w, w', s, hk, hstep, rfl⟩ := step_work h
    obtain ⟨-, hp, hcases⟩ := Worker.step_status hserver hstep
    have hset : (c.workers.set k w').eraseIdx k = c.workers.eraseIdx k := List.eraseIdx_set_eq
    -- the same for the workers before and after the step: the others have not moved
    have hbefore := (statusMatches_iff_others hk).mp hmatches
    rw [statusMatches_iff_others (Pool.getElem?_set_self hk)]
    simp only [endsAlone, hk, hset, Option.mem_some_iff, forall_eq']
    generalize c.workers.eraseIdx k = others at hbefore ⊢
    rcases hcases with ⟨hphase, htracking, happ, hnotLast, hnotLock⟩ | ⟨hlast, hphase, hidle⟩ |
      ⟨hlock, hpoisoned, hphase, hsame⟩ | ⟨hphase, hsame, hnotLast, hnotPoisoned⟩
    · -- the worker announces itself
      refine iff_of_true ⟨fun _ => ⟨htracking, .inl ⟨hphase, ?_⟩⟩, fun hnone => ?_⟩
        ⟨fun hl => absurd hl hnotLast, fun hl => absurd hl hnotLock⟩
      · rw [happ, hp]
      · rw [hphase] at hnone
        cases hnone.1
    · -- the final broadcast says that nothing is tracked: true if the others are not in phase
      have hnot : w'.inPhase ≠ true := by simp [hphase]
      rw [hidle]
      constructor
      · rintro ⟨hlive, -⟩
        refine ⟨fun _ u hu => ?_, fun hlock => ?_⟩
        · cases hu' : u.inPhase with
          | false => rfl
          | true => exact absurd (hlive (.inr ⟨u, hu, hu'⟩)).1 (by decide)
        · rw [hlast] at hlock
          cases hlock
      · rintro ⟨hothers, -⟩
        refine ⟨fun hsome => ?_, fun _ => rfl⟩
        rcases hsome with hw | ⟨u, hu, hu'⟩
        · exact absurd hw hnot
        · rw [hothers hlast u hu] at hu'
          cases hu'
    · -- the worker dies: what it reported last stays
      have hlive : w.inPhase = true := by rw [Worker.inPhase, hlock]
      have htracking := (hbefore.1 (.inl hlive)).1
      rw [hsame]
      constructor
      · rintro ⟨hnames, hidle⟩
        refine ⟨fun hlast => ?_, fun _ _ => ?_⟩
        · rw [hlock] at hlast
          cases hlast
        · by_cases hothers : ∃ u ∈ others, u.inPhase = true
          · rcases (hnames (.inr hothers)).2 with ⟨hw, -⟩ | hnamed
            · rw [hphase] at hw
              cases hw
            · exact hnamed
          · have hall : ∀ u ∈ others, u.inPhase = false := fun u hu =>
              Bool.eq_false_iff.mpr fun hu' => hothers ⟨u, hu, hu'⟩
            rw [hidle ⟨hphase, hall⟩] at htracking
            cases htracking
      · rintro ⟨-, hnamed⟩
        have hnames := hnamed hlock hpoisoned
        refine ⟨fun _ => ⟨htracking, .inr hnames⟩, fun hnone => ?_⟩
        obtain ⟨u, hu, hu', -⟩ := hnames
        rw [hnone.2 u hu] at hu'
        cases hu'
    · -- nothing is reported, and the worker stays in its phase or outside
      rw [hphase, hsame, hp]
      exact iff_of_true hbefore
        ⟨fun hl => absurd hl hnotLast, fun hl hpoisoned => absurd hpoisoned (hnotPoisoned hl)⟩
  | _ =>
    -- another thread
    obtain ⟨-, hstatus, hmem⟩ := step_status (fun _ _ hl => by cases hl) h
    refine iff_of_true ⟨fun ⟨w, hw, hphase⟩ => ?_, fun hnone => ?_⟩ trivial
    · obtain ⟨htracking, u, hu, huphase, happ⟩ := hmatches.live ⟨w, (hmem w hphase).mp hw, hphase⟩
      rw [Shared.getCurrentTrackingStatus, hstatus]
      exact ⟨htracking, u, (hmem u huphase).mpr hu, huphase, happ⟩
    · rw [Shared.getCurrentTrackingStatus, hstatus]
      refine hmatches.idle fun w hw => Bool.eq_false_iff.mpr fun hphase => ?_
      rw [hnone w ((hmem w hphase).mpr hw)] at hphase
      cases hphase

/-! ## Runs -/

/-- **When the reported status is true.** In a run with a server, the status matches the live
sessions in every state if and only if every session ends alone. -/
theorem statusMatches_iff {c₀ c : Config} {ls : List Label}
    (hserver : c₀.shared.broadcaster = true) (hstart : StatusMatches c₀)
    (hrun : tracker.Runs (fun _ _ => True) c₀ ls c) :
    tracker.Runs endsAlone c₀ ls c ↔
      tracker.Runs (fun c _ => StatusMatches c) c₀ ls c ∧ StatusMatches c :=
  hrun.guard_iff (fun _ _ _ hserver h => broadcaster_step hserver h) statusMatches_step_iff hserver
    hstart

/-! ## The condition is needed

Two tracked processes that both run; one of them ends. -/

/-- A scan of a map with the keys `a` and `b`, up to the spawn queue; `system` says what runs. -/
def scanOfAB (system : List SysProcess) : List Label :=
  [.scan { order := ["a", "b"] }, .scan {}, .scan { system }, .scan { order := ["a", "b"] }]

/-- The sessions of `a` and `b` start. -/
def bothStart : List Label :=
  scanOfAB [⟨"a", false⟩, ⟨"b", false⟩] ++ List.replicate 3 (.scan {}) ++ [.spawn, .spawn] ++
    List.replicate 3 (.work 0 {}) ++ List.replicate 3 (.work 1 {})

/-- Both start, and the session of `b` ends. -/
def oneOfTwoEnds : List Label :=
  bothStart ++ scanOfAB [⟨"a", false⟩] ++ List.replicate 5 (.work 1 {})

/-- The session of `a` starts and ends; `b` never runs. -/
def sessionOfAEnds : List Label :=
  scanOfAB [⟨"a", false⟩] ++ List.replicate 2 (.scan {}) ++ [.spawn] ++
    List.replicate 3 (.work 0 {}) ++ scanOfAB [] ++ List.replicate 5 (.work 0 {})

theorem statusMatches_initial (platform : Platform) (db : Store) (calls : List Call) :
    StatusMatches (.initial platform db calls) where
  live := by
    rintro ⟨w, hw, -⟩
    cases hw
  idle _ := rfl

/-- **Two sessions, one ends**: nothing is reported while the other one goes on. -/
theorem two_sessions_one_ends :
    ¬ ∀ (platform : Platform) (db : Store) (calls : List Call) (ls : List Label) (c : Config),
      tracker.Runs (fun _ _ => True) (.initial platform db calls) ls c → StatusMatches c := by
  intro hall
  have hend : (tracker.exec (.initial .linux storeWithAB []) oneOfTwoEnds).map (fun c =>
      decide ((∃ w ∈ c.workers, w.inPhase = true) ∧
        c.shared.getCurrentTrackingStatus.isTracking = false)) = some true := by decide
  obtain ⟨c, hexec, hc⟩ := Option.map_eq_some_iff.mp hend
  obtain ⟨hlive, hidle⟩ := of_decide_eq_true hc
  have hmatches := hall _ _ _ _ c (Transition.System.runs_of_exec hexec)
  rw [(hmatches.live hlive).1] at hidle
  cases hidle

/-- One session, from its start to its end: the status is true throughout. -/
theorem statusMatches_sessionOfAEnds :
    ∃ c, tracker.execWhere endsAlone (.initial .linux storeWithAB []) sessionOfAEnds = some c ∧
      tracker.Runs (fun c _ => StatusMatches c) (.initial .linux storeWithAB []) sessionOfAEnds c ∧
      StatusMatches c := by
  have hend : (tracker.execWhere endsAlone (.initial .linux storeWithAB [])
      sessionOfAEnds).isSome = true := by decide
  obtain ⟨c, hexec⟩ := Option.isSome_iff_exists.mp hend
  have hrun := Transition.System.runs_of_execWhere hexec
  have hstart := statusMatches_initial .linux storeWithAB []
  exact ⟨c, hexec, (statusMatches_iff rfl hstart (hrun.mono fun _ _ _ => trivial)).mp hrun⟩

end TimeTracker
