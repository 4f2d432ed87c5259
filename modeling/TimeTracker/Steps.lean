import TimeTracker.Lib.Iteration
import TimeTracker.System

/-!
# What a step of each thread can do

Inversion and frame lemmas for the machines of `TimeTracking` and the calls: which parts of
the shared memory a step touches, and how. Every invariant of the whole program is derived
from these; a machine is unfolded again only where one of its statements is to be run.
-/

namespace TimeTracker

variable {inp : Input} {s s' : Shared}

/-! ## The scanner -/

/-- The names the scanner still has to send to the spawn queue. -/
def Scanner.toSpawn : Scanner → List String
  | .spawn toSpawn => toSpawn
  | _ => []

/-- A step of the scanner reads, or is the second critical section (finished or panicked in
it), or sends one name to the spawn queue. -/
theorem Scanner.step_cases {sc sc' : Scanner} (h : sc.step inp s = some (sc', s')) :
    (sc.toSpawn = [] ∧ sc'.toSpawn = [] ∧ s' = s) ∨
    (∃ m processMap toSpawn, sc = .pass m ∧ s.mapLock = .free ∧
      isIterationOrder inp.order s.processMap = true ∧
      passLoop m inp.order s.processMap [] = .done processMap toSpawn ∧
      sc' = .spawn toSpawn ∧ s' = { s with processMap }) ∨
    (∃ m processMap, sc = .pass m ∧ s.mapLock = .free ∧
      isIterationOrder inp.order s.processMap = true ∧
      passLoop m inp.order s.processMap [] = .panicked processMap ∧
      sc' = .panicked ∧ s' = { s with processMap, mapLock := .poisoned }) ∨
    (∃ p rest, sc = .spawn (p :: rest) ∧ sc' = .spawn rest ∧
      s' = { s with spawnQueue := s.spawnQueue ++ [p] }) := by
  cases sc with
  | snapshot =>
    simp only [Scanner.step] at h
    split at h
    · cases h
    · cases h; exact .inl ⟨rfl, rfl, rfl⟩
    · split at h
      · cases h; exact .inl ⟨rfl, rfl, rfl⟩
      · cases h
  | aliases appNames =>
    simp only [Scanner.step] at h
    split at h <;> cases h <;> exact .inl ⟨rfl, rfl, rfl⟩
  | processes appNames processAliases =>
    simp only [Scanner.step] at h
    split at h
    · cases h; exact .inl ⟨rfl, rfl, rfl⟩
    · split at h <;> cases h <;> exact .inl ⟨rfl, rfl, rfl⟩
  | pass m =>
    simp only [Scanner.step] at h
    split at h
    · cases h
    · cases h; exact .inl ⟨rfl, rfl, rfl⟩
    · next hfree =>
      split at h
      · next horder =>
        split at h
        · next processMap toSpawn hpass =>
          cases h
          exact .inr (.inl ⟨m, processMap, toSpawn, rfl, hfree, horder, hpass, rfl, rfl⟩)
        · next processMap hpass =>
          cases h
          exact .inr (.inr (.inl ⟨m, processMap, rfl, hfree, horder, hpass, rfl, rfl⟩))
      · cases h
  | spawn toSpawn =>
    cases toSpawn with
    | nil => cases h; exact .inl ⟨rfl, rfl, rfl⟩
    | cons p rest => cases h; exact .inr (.inr (.inr ⟨p, rest, rfl, rfl, rfl⟩))
  | panicked => cases h

/-- An iteration order lists the keys of the map, each once. -/
theorem isIterationOrder_iff {order : List String} {processMap : ProcessMap} :
    isIterationOrder order processMap = true ↔
      order.Nodup ∧ ∀ p, p ∈ order ↔ p ∈ processMap := by
  rw [isIterationOrder, decide_eq_true_iff]
  exact Iteration.coe_eq_keys_iff

/-- The entry the second critical section leaves for a process. -/
def passEntry (running : Bool) (entry : Bool × Bool) : Bool × Bool := (running, entry.2 || running)

/-- The processes the second critical section opens a session for. -/
def opensSession (m : RunningMap) (processMap : ProcessMap) (p : String) : Bool :=
  m.lookup p = some true && (processMap.lookup p).map Prod.snd = some false

theorem passLoop_cons {m : RunningMap} {p : String} {order : List String}
    {processMap : ProcessMap} {acc : List String} {running : Bool} {entry : Bool × Bool}
    (hm : m.lookup p = some running) (hentry : processMap.lookup p = some entry) :
    passLoop m (p :: order) processMap acc =
      passLoop m order (processMap.insert p (passEntry running entry))
        (acc ++ if opensSession m processMap p then [p] else []) := by
  obtain ⟨fst, snd⟩ := entry
  rw [passLoop, hm, hentry]
  cases running <;> cases snd <;> simp [passEntry, opensSession, hm, hentry]

theorem opensSession_insert_of_ne {m : RunningMap} {processMap : ProcessMap} {p q : String}
    {entry : Bool × Bool} (h : p ≠ q) :
    opensSession m (processMap.insert q entry) p = opensSession m processMap p := by
  rw [opensSession, opensSession, Finmap.lookup_insert_of_ne _ h]

/-- **The second critical section, finished.** Every entry gets its new flags, and the
processes to spawn are those that run and had no session, each once. Induction on the
iteration order: an entry is written once, so the entries still to visit are the old ones. -/
theorem passLoop_done {m : RunningMap} {order : List String} (hnodup : order.Nodup) :
    ∀ {processMap processMap' : ProcessMap} {acc toSpawn : List String},
      passLoop m order processMap acc = .done processMap' toSpawn →
      toSpawn = acc ++ order.filter (opensSession m processMap) ∧
      (∀ p ∉ order, processMap'.lookup p = processMap.lookup p) ∧
      (∀ p ∈ order, ∀ entry, processMap.lookup p = some entry →
        ∃ running, m.lookup p = some running ∧
          processMap'.lookup p = some (passEntry running entry)) := by
  induction order with
  | nil =>
    intro processMap processMap' acc toSpawn h
    cases h
    exact ⟨by simp, fun _ _ => rfl, by simp⟩
  | cons q order ih =>
    intro processMap processMap' acc toSpawn h
    obtain ⟨hq, hnodup⟩ := List.nodup_cons.mp hnodup
    have hne : ∀ p ∈ order, p ≠ q := fun p hp he => hq (he ▸ hp)
    cases hm : m.lookup q with
    | none => simp [passLoop, hm] at h
    | some running =>
      cases hentry : processMap.lookup q with
      | none =>
        rw [passLoop, hm, hentry] at h
        obtain ⟨happ, hout, hin⟩ := ih hnodup h
        refine ⟨?_, fun p hp => hout p fun h' => hp (List.mem_cons_of_mem _ h'), ?_⟩
        · rw [happ, List.filter_cons_of_neg]
          simp [opensSession, hentry]
        · intro p hp entry he
          rcases List.mem_cons.mp hp with rfl | hp
          · rw [hentry] at he; cases he
          · exact hin p hp entry he
      | some entry =>
        rw [passLoop_cons hm hentry] at h
        obtain ⟨happ, hout, hin⟩ := ih hnodup h
        refine ⟨?_, ?_, ?_⟩
        · have hfilter : order.filter (opensSession m (processMap.insert q (passEntry running entry)))
              = order.filter (opensSession m processMap) :=
            List.filter_congr fun p hp => opensSession_insert_of_ne (hne p hp)
          rw [happ, hfilter, List.append_assoc, List.filter_cons]
          split <;> rfl
        · intro p hp
          rw [List.mem_cons, not_or] at hp
          rw [hout p hp.2, Finmap.lookup_insert_of_ne _ hp.1]
        · intro p hp e he
          rcases List.mem_cons.mp hp with rfl | hp
          · rw [hentry] at he
            cases he
            exact ⟨running, hm, by rw [hout p hq, Finmap.lookup_insert]⟩
          · exact hin p hp e (by rw [Finmap.lookup_insert_of_ne _ (hne p hp), he])

theorem passLoop_panicked_of_notMem {m : RunningMap} {order : List String} {p : String}
    (hp : p ∉ order) : ∀ {processMap processMap' : ProcessMap} {acc : List String},
      passLoop m order processMap acc = .panicked processMap' →
      processMap'.lookup p = processMap.lookup p := by
  induction order with
  | nil => intro processMap processMap' acc h; cases h
  | cons q order ih =>
    intro processMap processMap' acc h
    rw [List.mem_cons, not_or] at hp
    cases hm : m.lookup q with
    | none =>
      simp only [passLoop, hm] at h
      cases h
      rfl
    | some running =>
      cases hentry : processMap.lookup q with
      | none =>
        rw [passLoop, hm, hentry] at h
        exact ih hp.2 h
      | some entry =>
        rw [passLoop_cons hm hentry] at h
        rw [ih hp.2 h, Finmap.lookup_insert_of_ne _ hp.1]

/-- **The second critical section, panicked.** The entries visited before the panic have
their new flags, the others are as they were. -/
theorem passLoop_panicked {m : RunningMap} {order : List String} (hnodup : order.Nodup) :
    ∀ {processMap processMap' : ProcessMap} {acc : List String},
      passLoop m order processMap acc = .panicked processMap' →
      ∀ p, processMap'.lookup p = processMap.lookup p ∨
        ∃ running entry, processMap.lookup p = some entry ∧
          processMap'.lookup p = some (passEntry running entry) := by
  induction order with
  | nil => intro processMap processMap' acc h; cases h
  | cons q order ih =>
    intro processMap processMap' acc h p
    obtain ⟨hq, hnodup⟩ := List.nodup_cons.mp hnodup
    cases hm : m.lookup q with
    | none =>
      simp only [passLoop, hm] at h
      cases h
      exact .inl rfl
    | some running =>
      cases hentry : processMap.lookup q with
      | none =>
        rw [passLoop, hm, hentry] at h
        exact ih hnodup h p
      | some entry =>
        rw [passLoop_cons hm hentry] at h
        by_cases hpq : p = q
        · subst hpq
          refine .inr ⟨running, entry, hentry, ?_⟩
          rw [passLoop_panicked_of_notMem hq h, Finmap.lookup_insert]
        · simpa only [Finmap.lookup_insert_of_ne _ hpq] using ih hnodup h p

/-- **When the second critical section panics**: some key of the current map was not asked
about. -/
theorem passLoop_panics_iff {m : RunningMap} {order : List String} :
    ∀ {processMap : ProcessMap} {acc : List String},
      (∃ processMap', passLoop m order processMap acc = .panicked processMap') ↔
        ∃ p ∈ order, p ∉ m := by
  induction order with
  | nil => simp [passLoop]
  | cons q order ih =>
    intro processMap acc
    rw [List.exists_mem_cons_iff]
    cases hm : m.lookup q with
    | none =>
      have hq : q ∉ m := Finmap.lookup_eq_none.mp hm
      simp [passLoop, hm, hq]
    | some running =>
      have hq : q ∈ m := Finmap.mem_of_lookup_eq_some hm
      cases hentry : processMap.lookup q with
      | none =>
        rw [passLoop, hm, hentry, ih]
        simp [hq]
      | some entry =>
        rw [passLoop_cons hm hentry, ih]
        simp [hq]

/-! ## The session workers -/

/-- A worker that has not left its loop. -/
def Worker.live (w : Worker) : Bool :=
  match w.point with
  | .leave | .sendLongest | .farewell | .finished | .panicked => false
  | _ => true

/-- A step of a worker keeps the process it tracks, the spawn queue and the database. It
touches `PROCESS_MAP` only where it leaves its loop: it found its process not running and
clears the session flag. -/
theorem Worker.step_cases {w w' : Worker} (h : w.step inp s = some (w', s')) :
    w'.p = w.p ∧ s'.spawnQueue = s.spawnQueue ∧ s'.db = s.db ∧
    ((s'.processMap = s.processMap ∧ (w'.live = true → w.live = true)) ∨
      ∃ snd, s.processMap.lookup w.p = some (false, snd) ∧
        s'.processMap = s.processMap.insert w.p (false, false) ∧
        w.live = true ∧ w'.live = false) := by
  obtain ⟨p, counter, point⟩ := w
  cases point with
  | finished => cases h
  | panicked => cases h
  | lock =>
    simp only [Worker.step] at h
    split at h
    · cases h
    · cases h; exact ⟨rfl, rfl, rfl, .inl ⟨rfl, fun _ => rfl⟩⟩
    · split at h
      · cases h; exact ⟨rfl, rfl, rfl, .inl ⟨rfl, fun _ => rfl⟩⟩
      · cases h; exact ⟨rfl, rfl, rfl, .inl ⟨rfl, fun _ => rfl⟩⟩
      · next snd hlook => cases h; exact ⟨rfl, rfl, rfl, .inr ⟨snd, hlook, rfl, rfl, rfl⟩⟩
  | leave =>
    cases h
    refine ⟨rfl, rfl, rfl, .inl ⟨rfl, ?_⟩⟩
    dsimp only
    split <;> simp [Worker.live]
  | _ =>
    cases h
    exact ⟨rfl, by simp, by simp, .inl ⟨by simp, by simp [Worker.live]⟩⟩

/-- A worker does not poison the lock. -/
theorem Worker.step_mapLock {w w' : Worker} (h : w.step inp s = some (w', s'))
    (hpoisoned : s'.mapLock = .poisoned) : s.mapLock = .poisoned := by
  obtain ⟨p, counter, point⟩ := w
  cases point with
  | finished => cases h
  | panicked => cases h
  | lock =>
    simp only [Worker.step] at h
    split at h
    · cases h
    · next hl => exact hl
    · next hl =>
      split at h
      · cases h; exact hpoisoned
      · cases h; cases hpoisoned
      · cases h; exact hpoisoned
  | tickBroadcast => cases h; cases hpoisoned
  | _ => cases h; simpa using hpoisoned

/-- A worker only reads the pause flag. -/
theorem Worker.step_pause {w w' : Worker} (h : w.step inp s = some (w', s')) :
    s'.pause = s.pause := by
  obtain ⟨p, counter, point⟩ := w
  cases point with
  | finished => cases h
  | panicked => cases h
  | lock =>
    simp only [Worker.step] at h
    split at h
    · cases h
    · cases h
      rfl
    · split at h <;> cases h <;> rfl
  | _ =>
    cases h
    simp

/-- Where a worker may be after a step, by its point and the pause flag. -/
def WorkerPoint.next (pause : Bool) : WorkerPoint → List WorkerPoint
  | .start => [if pause then .announce else .sendLaunches]
  | .sendLaunches => [.announce]
  | .announce => [.sleep]
  | .sleep => [if pause then .sleep else .lock]
  | .lock => [.panicked, .sleep, .sendDuration, .leave]
  | .sendDuration => [.sendTimeline]
  | .sendTimeline => [.tickBroadcast]
  | .tickBroadcast => [.sleep]
  | .leave => [if pause then .farewell else .sendLongest]
  | .sendLongest => [.farewell]
  | .farewell => [.finished]
  | .finished | .panicked => []

/-- **Where a step takes a worker**: it counts the ticks, and moves on to a next point. -/
theorem Worker.step_point {w w' : Worker} (h : w.step inp s = some (w', s')) :
    w'.counter = w.counter + (if w.point = .sendTimeline then 1 else 0) ∧
      w'.point ∈ w.point.next s.pause := by
  obtain ⟨p, counter, point⟩ := w
  cases point with
  | finished | panicked => cases h
  | lock =>
    simp only [Worker.step] at h
    split at h
    · cases h
    · cases h
      exact ⟨rfl, by simp [WorkerPoint.next]⟩
    · -- no entry, a tick, or the end of the loop
      split at h <;> cases h <;> exact ⟨rfl, by simp [WorkerPoint.next]⟩
  | _ =>
    cases h
    exact ⟨rfl, List.mem_singleton_self _⟩

/-- What a step of a worker sends. -/
def Worker.sends (w : Worker) : List Event :=
  match w.point with
  | .sendLaunches => [(w.p, .launches)]
  | .sendDuration => [(w.p, .duration)]
  | .sendTimeline => [(w.p, .timeline)]
  | .sendLongest => [(sessionItem w.p w.counter, .longestSession)]
  | _ => []

/-- **What a step of a worker puts into the event channel.** -/
theorem Worker.step_events {w w' : Worker} (h : w.step inp s = some (w', s')) :
    s'.events = s.events ++ w.sends := by
  obtain ⟨p, counter, point⟩ := w
  have hquiet : ∀ {s'' : Shared}, s''.events = s.events → s''.events = s.events ++ [] := by
    intro s'' hsame
    rw [hsame, List.append_nil]
  cases point with
  | finished | panicked => cases h
  | lock =>
    -- the ticks are sent after this point: here the worker only looks
    simp only [Worker.step] at h
    split at h
    · cases h
    · cases h
      exact hquiet rfl
    · split at h <;> cases h <;> exact hquiet rfl
  | start | sleep | leave =>
    cases h
    exact hquiet rfl
  | announce | farewell =>
    cases h
    exact hquiet (Shared.broadcast_events _ _)
  | tickBroadcast =>
    cases h
    exact hquiet (Shared.broadcast_events s _)
  | sendLaunches | sendDuration | sendTimeline | sendLongest =>
    cases h
    rfl

/-! ## The event loop -/

/-- What one statement of a handler can do: the handler it goes on with, and the tables it leaves.
Each point of a handler has its rules; a statement that fails or finds no app drops the event. -/
inductive Handler.Statement (inp : Input) (db : Store) :
    Handler → Option Handler → Store → Prop where
  | dropped (hd : Handler) : Statement inp db hd none db
  | longestFound {appName : String} {n : Int} {app : Apps.Model}
      (hfind : db.findApp appName = some app) (hlonger : app.longestSession.getD 0 < n) :
      Statement inp db (.longestFindApp appName n)
        (some (.longestUpdateApp app n inp.now.date)) db
  | longestWritten {app : Apps.Model} {n : Int} {date : NaiveDate} {db' : Store}
      (hupd : db.updateApp app.id (setLongestSession n date) (fun _ => rfl) = .ok db') :
      Statement inp db (.longestUpdateApp app n date) none db'
  | countFound {counter : Counter} {item : String} {app : Apps.Model}
      (hfind : db.findApp item = some app) :
      Statement inp db (.countFindApp counter item) (some (.countUpdateApp counter app)) db
  | countWritten {counter : Counter} {app : Apps.Model} {db' : Store}
      (hupd : db.updateApp app.id (counter.setApp ((counter.ofApp app).getD 0 + 1))
        (counter.setApp_id _) = .ok db') :
      Statement inp db (.countUpdateApp counter app) (some (counter.updateCheckpoints app.id)) db'
  | activeFound {counter : Counter} {appId : Int} {next : Option Handler}
      (hnext : next = forCheckpoints counter inp.now (db.getActiveCheckpointsForApp appId)) :
      Statement inp db (.countFindActive counter appId) next db
  | checkpointFound {counter : Counter} {now : NaiveDateTime}
      {checkpoint model : Checkpoints.Model} {rest : List Checkpoints.Model}
      (hfind : db.checkpoints.byKey checkpoint.id = some model) :
      Statement inp db (.countFindCheckpoint counter now checkpoint rest)
        (some (.countUpdateCheckpoint counter now checkpoint model rest)) db
  /-- deleted meanwhile, or not readable: the loop goes on with the next checkpoint -/
  | checkpointSkipped {counter : Counter} {now : NaiveDateTime} {checkpoint : Checkpoints.Model}
      {rest : List Checkpoints.Model} {next : Option Handler}
      (hnext : next = forCheckpoints counter now rest) :
      Statement inp db (.countFindCheckpoint counter now checkpoint rest) next db
  | checkpointWritten {counter : Counter} {now : NaiveDateTime}
      {checkpoint model : Checkpoints.Model} {rest : List Checkpoints.Model}
      {next : Option Handler} {db' : Store} (hnext : next = forCheckpoints counter now rest)
      (hupd : db.updateCheckpoint model.id
        (counter.setCheckpoint ((counter.ofCheckpoint checkpoint).getD 0 + 1) now)
        (counter.setCheckpoint_id _ _) = .ok db') :
      Statement inp db (.countUpdateCheckpoint counter now checkpoint model rest) next db'
  /-- the checkpoint misses the event, and the loop goes on -/
  | checkpointRefused {counter : Counter} {now : NaiveDateTime}
      {checkpoint model : Checkpoints.Model} {rest : List Checkpoints.Model}
      {next : Option Handler} (hnext : next = forCheckpoints counter now rest) :
      Statement inp db (.countUpdateCheckpoint counter now checkpoint model rest) next db
  | timelineFound {item : String} {app : Apps.Model} (hfind : db.findApp item = some app) :
      Statement inp db (.timelineFindApp item) (some (.timelineFindEntry app.id inp.now.date)) db
  | entryFound {appId : Int} {today : NaiveDate} {entry : Timeline.Model}
      (hfind : db.findTimeline appId today = some entry) :
      Statement inp db (.timelineFindEntry appId today) (some (.timelineUpdate entry)) db
  | entryMissing {appId : Int} {today : NaiveDate}
      (hfind : db.findTimeline appId today = none) :
      Statement inp db (.timelineFindEntry appId today) (some (.timelineMaxId appId today)) db
  | entryWritten {entry : Timeline.Model} {db' : Store}
      (hupd : db.updateTimeline entry.id (setTimelineDuration (entry.duration.getD 0 + 1))
        (fun _ => rfl) = .ok db') :
      Statement inp db (.timelineUpdate entry) none db'
  | idFound {appId : Int} {today : NaiveDate} :
      Statement inp db (.timelineMaxId appId today)
        (some (.timelineFirstCheckpoint appId today (Store.nextId db.timeline.maxKey))) db
  /-- the first active checkpoint, or none where it is not readable -/
  | checkpointChosen {appId nextId : Int} {today : NaiveDate} {checkpointId : Option Int}
      (hchosen : ∀ id ∈ checkpointId, ∃ checkpoint,
        (db.getActiveCheckpointsForApp appId).head? = some checkpoint ∧ checkpoint.id = id) :
      Statement inp db (.timelineFirstCheckpoint appId today nextId)
        (some (.timelineInsert ⟨nextId, today, some 1, appId, checkpointId⟩)) db
  | entryInserted {row : Timeline.Model} {db' : Store} (hins : db.insertTimeline row = .ok db') :
      Statement inp db (.timelineInsert row) none db'

theorem forCheckpoints_eq_some {counter : Counter} {now : NaiveDateTime}
    {checkpoints : List Checkpoints.Model} {hd : Handler}
    (h : some hd = forCheckpoints counter now checkpoints) :
    ∃ checkpoint rest, checkpoints = checkpoint :: rest ∧
      hd = .countFindCheckpoint counter now checkpoint rest := by
  cases checkpoints with
  | nil => cases h
  | cons checkpoint rest =>
    cases h
    exact ⟨checkpoint, rest, rfl, rfl⟩

/-- **Every statement of a handler follows one of the rules.** -/
theorem Handler.statement_of_step {hd : Handler} {next : Option Handler} {db db' : Store}
    (h : hd.step inp db = (next, db')) : hd.Statement inp db next db' := by
  cases hd with
  | longestFindApp appName n =>
    simp only [Handler.step, afterLongestFind] at h
    split at h
    · next app hst =>
      split at h
      · next hlonger =>
        cases h
        exact .longestFound (Except.ok.inj (Input.statement_eq_ok.mp hst).2) hlonger
      · cases h
        exact .dropped _
    · cases h
      exact .dropped _
  | longestUpdateApp app n date =>
    simp only [Handler.step] at h
    split at h
    · next db'' hst =>
      cases h
      exact .longestWritten (Input.statement_eq_ok.mp hst).2
    · cases h
      exact .dropped _
  | countFindApp counter item =>
    simp only [Handler.step] at h
    split at h
    · next app hst =>
      cases h
      exact .countFound (Except.ok.inj (Input.statement_eq_ok.mp hst).2)
    · cases h
      exact .dropped _
  | countUpdateApp counter app =>
    simp only [Handler.step] at h
    split at h
    · next db'' hst =>
      cases h
      exact .countWritten (Input.statement_eq_ok.mp hst).2
    · cases h
      exact .dropped _
  | countFindActive counter appId =>
    simp only [Handler.step] at h
    split at h
    · next checkpoints hst =>
      cases h
      have hread := Except.ok.inj (Input.statement_eq_ok.mp hst).2
      exact .activeFound (by rw [hread])
    · cases h
      exact .dropped _
  | countFindCheckpoint counter now checkpoint rest =>
    simp only [Handler.step] at h
    split at h
    · next model hst =>
      cases h
      exact .checkpointFound (Except.ok.inj (Input.statement_eq_ok.mp hst).2)
    · cases h
      exact .checkpointSkipped rfl
  | countUpdateCheckpoint counter now checkpoint model rest =>
    simp only [Handler.step] at h
    split at h
    · next db'' hst =>
      cases h
      exact .checkpointWritten rfl (Input.statement_eq_ok.mp hst).2
    · cases h
      exact .checkpointRefused rfl
  | timelineFindApp item =>
    simp only [Handler.step] at h
    split at h
    · next app hst =>
      cases h
      exact .timelineFound (Except.ok.inj (Input.statement_eq_ok.mp hst).2)
    · cases h
      exact .dropped _
  | timelineFindEntry appId today =>
    simp only [Handler.step] at h
    split at h
    · next entry hst =>
      cases h
      exact .entryFound (Except.ok.inj (Input.statement_eq_ok.mp hst).2)
    · next hst =>
      cases h
      exact .entryMissing (Except.ok.inj (Input.statement_eq_ok.mp hst).2)
    · cases h
      exact .dropped _
  | timelineUpdate entry =>
    simp only [Handler.step] at h
    split at h
    · next db'' hst =>
      cases h
      exact .entryWritten (Input.statement_eq_ok.mp hst).2
    · cases h
      exact .dropped _
  | timelineMaxId appId today =>
    simp only [Handler.step] at h
    split at h
    · next maxId hst =>
      cases h
      have hread := Except.ok.inj (Input.statement_eq_ok.mp hst).2
      rw [← hread]
      exact .idFound
    · cases h
      exact .dropped _
  | timelineFirstCheckpoint appId today nextId =>
    cases h
    refine .checkpointChosen fun id hid => ?_
    split at hid
    · next checkpoints hst =>
      have hread := Except.ok.inj (Input.statement_eq_ok.mp hst).2
      rw [hread]
      exact Option.map_eq_some_iff.mp hid
    · cases hid
  | timelineInsert row =>
    simp only [Handler.step] at h
    split at h
    · next db'' hst =>
      cases h
      exact .entryInserted (Input.statement_eq_ok.mp hst).2
    · cases h
      exact .dropped _

/-- The statement a handler sends, where it is one that writes. -/
theorem Handler.step_db {hd : Handler} {next : Option Handler} {db db' : Store}
    (h : hd.step inp db = (next, db')) :
    db' = db ∨
    (∃ app n date, hd = .longestUpdateApp app n date ∧
      db.updateApp app.id (setLongestSession n date) (fun _ => rfl) = .ok db') ∨
    (∃ counter app, hd = .countUpdateApp counter app ∧
      db.updateApp app.id (counter.setApp ((counter.ofApp app).getD 0 + 1))
        (counter.setApp_id _) = .ok db') ∨
    (∃ counter now checkpoint model rest,
      hd = .countUpdateCheckpoint counter now checkpoint model rest ∧
      db.updateCheckpoint model.id
        (counter.setCheckpoint ((counter.ofCheckpoint checkpoint).getD 0 + 1) now)
        (counter.setCheckpoint_id _ _) = .ok db') ∨
    (∃ entry, hd = .timelineUpdate entry ∧
      db.updateTimeline entry.id (setTimelineDuration (entry.duration.getD 0 + 1))
        (fun _ => rfl) = .ok db') ∨
    (∃ entry, hd = .timelineInsert entry ∧ db.insertTimeline entry = .ok db') := by
  cases Handler.statement_of_step h with
  | longestWritten hupd => exact .inr (.inl ⟨_, _, _, rfl, hupd⟩)
  | countWritten hupd => exact .inr (.inr (.inl ⟨_, _, rfl, hupd⟩))
  | checkpointWritten _ hupd => exact .inr (.inr (.inr (.inl ⟨_, _, _, _, _, rfl, hupd⟩)))
  | entryWritten hupd => exact .inr (.inr (.inr (.inr (.inl ⟨_, rfl, hupd⟩))))
  | entryInserted hins => exact .inr (.inr (.inr (.inr (.inr ⟨_, rfl, hins⟩))))
  | _ => exact .inl rfl

/-- A step of the event loop takes an event or runs one statement. -/
theorem EventLoop.step_cases {loop loop' : EventLoop} {events events' : List Event}
    {db db' : Store} (h : loop.step inp events db = some (loop', events', db')) :
    (∃ event, loop = .idle ∧ events = event :: events' ∧ db' = db ∧
      loop' = .resume event (handle event)) ∨
    (∃ event hd next, loop = .handling event hd ∧ events' = events ∧
      hd.step inp db = (next, db') ∧ loop' = .resume event next) := by
  cases loop with
  | idle =>
    cases events with
    | nil => cases h
    | cons event rest => cases h; exact .inl ⟨event, rfl, rfl, rfl, rfl⟩
  | handling event hd =>
    cases h
    exact .inr ⟨event, hd, _, rfl, rfl, rfl, rfl⟩

/-- The event loop counts; it neither adds nor removes nor renames an app. -/
theorem EventLoop.step_identities {loop loop' : EventLoop} {events events' : List Event}
    {db db' : Store} (h : loop.step inp events db = some (loop', events', db')) :
    db'.identities = db.identities := by
  rcases EventLoop.step_cases h with ⟨_, -, -, rfl, -⟩ | ⟨_, hd, next, -, -, hstep, -⟩
  · rfl
  · rcases Handler.step_db hstep with rfl | ⟨_, _, _, -, hupd⟩ | ⟨counter, _, -, hupd⟩ |
      ⟨_, _, _, _, _, -, hupd⟩ | ⟨_, -, hupd⟩ | ⟨_, -, hins⟩
    · rfl
    -- the columns that are written are neither the id nor the name
    · exact Store.identities_updateApp hupd fun _ => rfl
    · exact Store.identities_updateApp hupd (counter.setApp_name _)
    · obtain ⟨_, -, rfl⟩ := Store.updateCheckpoint_eq_ok.mp hupd
      rfl
    · obtain ⟨_, -, rfl⟩ := Store.updateTimeline_eq_ok.mp hupd
      rfl
    · obtain ⟨-, _, -, rfl⟩ := Store.insertTimeline_eq_ok hins
      rfl

/-- The foreign key of `timeline` holds after a step of the event loop. -/
theorem EventLoop.step_timelineKeys {loop loop' : EventLoop} {events events' : List Event}
    {db db' : Store} (hkeys : db.timelineKeys) (h : loop.step inp events db = some (loop', events', db')) :
    db'.timelineKeys := by
  rcases EventLoop.step_cases h with ⟨_, -, -, rfl, -⟩ | ⟨_, hd, next, -, -, hstep, -⟩
  · exact hkeys
  · rcases Handler.step_db hstep with rfl | ⟨_, _, _, -, hupd⟩ | ⟨_, _, -, hupd⟩ |
      ⟨_, _, _, _, _, -, hupd⟩ | ⟨_, -, hupd⟩ | ⟨_, -, hins⟩
    · exact hkeys
    · exact Store.timelineKeys_updateApp hkeys hupd
    · exact Store.timelineKeys_updateApp hkeys hupd
    · obtain ⟨_, -, rfl⟩ := Store.updateCheckpoint_eq_ok.mp hupd
      exact hkeys
    · exact Store.timelineKeys_updateTimeline hkeys hupd fun _ => rfl
    · exact Store.timelineKeys_insertTimeline hkeys hins

/-- The event loop counts in checkpoints; it neither adds nor removes nor activates one. -/
theorem EventLoop.step_checkpoints {loop loop' : EventLoop} {events events' : List Event}
    {db db' : Store} (h : loop.step inp events db = some (loop', events', db')) :
    db'.checkpoints = db.checkpoints ∨
      ∃ event counter now checkpoint model rest,
        loop = .handling event (.countUpdateCheckpoint counter now checkpoint model rest) ∧
        db.updateCheckpoint model.id
          (counter.setCheckpoint ((counter.ofCheckpoint checkpoint).getD 0 + 1) now)
          (counter.setCheckpoint_id _ _) = .ok db' := by
  rcases EventLoop.step_cases h with ⟨_, -, -, rfl, -⟩ | ⟨event, hd, next, rfl, -, hstep, -⟩
  · exact .inl rfl
  · rcases Handler.step_db hstep with rfl | ⟨_, _, _, -, hupd⟩ | ⟨_, _, -, hupd⟩ |
      ⟨counter, now, checkpoint, model, rest, rfl, hupd⟩ | ⟨_, -, hupd⟩ | ⟨_, -, hins⟩
    · exact .inl rfl
    · obtain ⟨_, -, rfl⟩ := Store.updateApp_eq_ok.mp hupd
      exact .inl rfl
    · obtain ⟨_, -, rfl⟩ := Store.updateApp_eq_ok.mp hupd
      exact .inl rfl
    · exact .inr ⟨event, counter, now, checkpoint, model, rest, rfl, hupd⟩
    · obtain ⟨_, -, rfl⟩ := Store.updateTimeline_eq_ok.mp hupd
      exact .inl rfl
    · obtain ⟨-, _, -, rfl⟩ := Store.insertTimeline_eq_ok hins
      exact .inl rfl

/-! ## The calls -/

/-- A step of an activation: the read of the target, the select of the other active rows, one
deactivation, or the update of the target. -/
theorem SetCheckpointActive.step_cases {call call' : SetCheckpointActive} {db db' : Store}
    (h : call.step inp db = some (call', db')) :
    (∃ e, call' = .returned (.error e) ∧ db' = db) ∨
    (∃ id isActive checkpoint, call = .find id isActive ∧ db' = db ∧
      db.checkpoints.byKey id = some checkpoint ∧
      call' = if isActive then .selectActive checkpoint else .update checkpoint false) ∨
    (∃ checkpoint, call = .selectActive checkpoint ∧ db' = db ∧
      call' = deactivateAll checkpoint inp.now (otherActive db checkpoint)) ∨
    (∃ checkpoint now active rest, call = .deactivate checkpoint now active rest ∧
      db.updateCheckpoint active.id (setInactive now) (fun _ => rfl) = .ok db' ∧
      call' = deactivateAll checkpoint now rest) ∨
    (∃ checkpoint isActive, call = .update checkpoint isActive ∧
      db.updateCheckpoint checkpoint.id (setActive isActive inp.now) (fun _ => rfl) = .ok db' ∧
      call' = .returned (.ok ())) := by
  cases call with
  | find id isActive =>
    simp only [SetCheckpointActive.step] at h
    split at h
    · cases h; exact .inl ⟨_, rfl, rfl⟩
    · cases h; exact .inl ⟨_, rfl, rfl⟩
    · next checkpoint hst =>
      have hkey := Except.ok.inj (Input.statement_eq_ok.mp hst).2
      refine .inr (.inl ⟨id, isActive, checkpoint, rfl, ?_⟩)
      split at h <;> cases h <;> simp_all
  | selectActive checkpoint =>
    simp only [SetCheckpointActive.step] at h
    split at h
    · cases h; exact .inl ⟨_, rfl, rfl⟩
    · next active hst =>
      cases h
      have hactive := Except.ok.inj (Input.statement_eq_ok.mp hst).2
      exact .inr (.inr (.inl ⟨checkpoint, rfl, rfl, by rw [hactive]⟩))
  | deactivate checkpoint now active rest =>
    simp only [SetCheckpointActive.step] at h
    split at h
    · cases h; exact .inl ⟨_, rfl, rfl⟩
    · next db'' hst =>
      cases h
      exact .inr (.inr (.inr (.inl
        ⟨checkpoint, now, active, rest, rfl, (Input.statement_eq_ok.mp hst).2, rfl⟩)))
  | update checkpoint isActive =>
    simp only [SetCheckpointActive.step] at h
    split at h
    · cases h; exact .inl ⟨_, rfl, rfl⟩
    · next db'' hst =>
      cases h
      exact .inr (.inr (.inr (.inr
        ⟨checkpoint, isActive, rfl, (Input.statement_eq_ok.mp hst).2, rfl⟩)))
  | returned _ => cases h

/-- An activation writes checkpoints only. -/
theorem SetCheckpointActive.step_frame {call call' : SetCheckpointActive} {db db' : Store}
    (h : call.step inp db = some (call', db')) :
    db'.apps = db.apps ∧ db'.timeline = db.timeline := by
  rcases SetCheckpointActive.step_cases h with ⟨_, -, rfl⟩ | ⟨_, _, _, -, rfl, -⟩ |
    ⟨_, -, rfl, -⟩ | ⟨_, _, _, _, -, hupd, -⟩ | ⟨_, _, -, hupd, -⟩
  · exact ⟨rfl, rfl⟩
  · exact ⟨rfl, rfl⟩
  · exact ⟨rfl, rfl⟩
  · obtain ⟨_, -, rfl⟩ := Store.updateCheckpoint_eq_ok.mp hupd
    exact ⟨rfl, rfl⟩
  · obtain ⟨_, -, rfl⟩ := Store.updateCheckpoint_eq_ok.mp hupd
    exact ⟨rfl, rfl⟩

/-- `create_checkpoint` inserts its row, or fails. -/
theorem CreateCheckpoint.step_cases {call call' : CreateCheckpoint} {db db' : Store}
    (h : call.step inp db = some (call', db')) :
    ∃ name description appId, call = .insert name description appId ∧
      ((∃ e, call' = .returned (.error e) ∧ db' = db) ∨
        (call' = .returned (.ok ()) ∧ appId ∈ db.apps.keys ∧ ∃ checkpoints,
          db.checkpoints.insert (newCheckpoint name description appId inp.now
            (db.generatedId inp.newId)) = some checkpoints ∧
          db' = { db with checkpoints })) := by
  cases call with
  | insert name description appId =>
    refine ⟨name, description, appId, rfl, ?_⟩
    simp only [CreateCheckpoint.step] at h
    split at h
    · cases h; exact .inl ⟨_, rfl, rfl⟩
    · next db'' hst =>
      cases h
      exact .inr ⟨rfl, Store.insertCheckpoint_eq_ok (Input.statement_eq_ok.mp hst).2⟩
  | returned _ => cases h

/-- `delete_checkpoint` deletes its row, or fails. -/
theorem DeleteCheckpoint.step_cases {call call' : DeleteCheckpoint} {db db' : Store}
    (h : call.step inp db = some (call', db')) :
    ∃ checkpointId, call = .delete checkpointId ∧
      ((∃ e, call' = .returned (.error e) ∧ db' = db) ∨
        (call' = .returned (.ok ()) ∧ db' = db.deleteCheckpoint checkpointId)) := by
  cases call with
  | delete checkpointId =>
    refine ⟨checkpointId, rfl, ?_⟩
    simp only [DeleteCheckpoint.step] at h
    split at h
    · cases h; exact .inl ⟨_, rfl, rfl⟩
    · next db'' hst =>
      cases h
      exact .inr ⟨rfl, (Except.ok.inj (Input.statement_eq_ok.mp hst).2).symm⟩
  | returned _ => cases h

theorem Call.stepDb_shared {γ : Type} {step : γ → Store → Option (γ × Store)} {wrap : γ → Call}
    {call : γ} {next : Call} (h : Call.stepDb step wrap call s = some (next, s')) :
    ∃ db, s' = { s with db } ∧ ∃ call', next = wrap call' ∧ step call s.db = some (call', db) := by
  unfold Call.stepDb at h
  split at h
  · cases h
  · next call' db hstep =>
    cases h
    exact ⟨db, rfl, call', rfl, hstep⟩

/-- A step of `add_process`: a statement that fails, the duplicate check, the read of the
largest id, the insert of the row, or the insert into `PROCESS_MAP`. -/
theorem AddProcess.step_cases {call call' : AddProcess} (h : call.step inp s = some (call', s')) :
    (∃ e, inp.err = some e ∧ (∀ p, call ≠ .insertMap p) ∧ s' = s ∧
      call' = .returned (.error (.db e))) ∨
    (∃ p path, call = .getProcesses p path ∧ inp.err = none ∧ s' = s ∧
      (p ∈ s.db.appNames ∧ call' = .returned (.error (duplicate p)) ∨
        p ∉ s.db.appNames ∧ call' = .maxId p (inp.verQueryValue.getD p))) ∨
    (∃ p productName, call = .maxId p productName ∧ inp.err = none ∧ s' = s ∧
      call' = .insert p productName (Store.nextId s.db.apps.maxKey)) ∨
    (∃ p productName id, call = .insert p productName id ∧ inp.err = none ∧
      (id ∈ s.db.apps.keys ∧ s' = s ∧ call' = .returned (.error (.db .uniqueViolation)) ∨
        ∃ apps, s.db.apps.insert (newApp p productName id) = some apps ∧
          s' = { s with db := { s.db with apps } } ∧ call' = .insertMap p)) ∨
    (∃ p, call = .insertMap p ∧
      (s.mapLock = .poisoned ∧ s' = s ∧ call' = .panicked ∨
        s.mapLock = .free ∧ s' = { s with processMap := s.processMap.insert p (false, false) } ∧
          call' = .returned (.ok ()))) := by
  cases herr : inp.err with
  | some e =>
    cases call with
    -- no statement: the failure does not reach it
    | insertMap p =>
      simp only [AddProcess.step] at h
      split at h
      · cases h
      · next hl => cases h; exact .inr (.inr (.inr (.inr ⟨p, rfl, .inl ⟨hl, rfl, rfl⟩⟩)))
      · next hl => cases h; exact .inr (.inr (.inr (.inr ⟨p, rfl, .inr ⟨hl, rfl, rfl⟩⟩)))
    | returned _ => cases h
    | panicked => cases h
    | _ =>
      simp only [AddProcess.step, Input.statement, herr] at h
      cases h
      exact .inl ⟨e, rfl, by simp, rfl, rfl⟩
  | none =>
    cases call with
    | getProcesses p path =>
      simp only [AddProcess.step, Input.statement_of_none herr] at h
      refine .inr (.inl ⟨p, path, rfl, rfl, ?_⟩)
      split at h
      · next hp => cases h; exact ⟨rfl, .inl ⟨hp, rfl⟩⟩
      · next hp => cases h; exact ⟨rfl, .inr ⟨hp, rfl⟩⟩
    | maxId p productName =>
      simp only [AddProcess.step, Input.statement_of_none herr] at h
      cases h
      exact .inr (.inr (.inl ⟨p, productName, rfl, rfl, rfl, rfl⟩))
    | insert p productName id =>
      simp only [AddProcess.step, Input.statement_of_none herr, Store.insertApp] at h
      refine .inr (.inr (.inr (.inl ⟨p, productName, id, rfl, rfl, ?_⟩)))
      cases hins : s.db.apps.insert (newApp p productName id) with
      | none =>
        rw [hins] at h
        cases h
        exact .inl ⟨Table.insert_eq_none.mp hins, rfl, rfl⟩
      | some apps =>
        rw [hins] at h
        cases h
        exact .inr ⟨apps, rfl, rfl, rfl⟩
    | insertMap p =>
      simp only [AddProcess.step] at h
      split at h
      · cases h
      · next hl => cases h; exact .inr (.inr (.inr (.inr ⟨p, rfl, .inl ⟨hl, rfl, rfl⟩⟩)))
      · next hl => cases h; exact .inr (.inr (.inr (.inr ⟨p, rfl, .inr ⟨hl, rfl, rfl⟩⟩)))
    | returned _ => cases h
    | panicked => cases h

/-- **What `add_process` writes** in one step: `PROCESS_MAP` at most, or the row of the new app. -/
theorem AddProcess.step_shared {call call' : AddProcess} (h : call.step inp s = some (call', s')) :
    (∃ processMap, s' = { s with processMap }) ∨
    (∃ p productName id apps, call = .insert p productName id ∧ call' = .insertMap p ∧
      inp.err = none ∧ s.db.apps.insert (newApp p productName id) = some apps ∧
      s' = { s with db := { s.db with apps } }) := by
  have hsame : ∃ processMap, s = { s with processMap } := ⟨s.processMap, rfl⟩
  rcases AddProcess.step_cases h with ⟨e, -, -, rfl, -⟩ | ⟨p, path, -, -, rfl, -⟩ |
    ⟨p, pn, -, -, rfl, -⟩ | ⟨p, pn, id, rfl, herr, ⟨-, rfl, -⟩ | ⟨apps, hins, rfl, rfl⟩⟩ |
    ⟨p, -, ⟨-, rfl, -⟩ | ⟨-, rfl, -⟩⟩
  · exact .inl hsame
  · exact .inl hsame
  · exact .inl hsame
  · exact .inl hsame
  · exact .inr ⟨p, pn, id, apps, rfl, rfl, herr, hins, rfl⟩
  · exact .inl hsame
  · exact .inl ⟨_, rfl⟩

/-- A step of `delete_process`: the delete of the rows, or the remove from `PROCESS_MAP`. -/
theorem DeleteProcess.step_cases {call call' : DeleteProcess}
    (h : call.step inp s = some (call', s')) :
    (∃ p, call = .deleteData p ∧
      ((∃ e, inp.err = some e ∧ s' = s ∧ call' = .returned (.error (.db e))) ∨
        inp.err = none ∧ s' = { s with db := s.db.deleteApps p } ∧ call' = .removeMap p)) ∨
    (∃ p, call = .removeMap p ∧
      (s.mapLock = .poisoned ∧ s' = s ∧ call' = .panicked ∨
        s.mapLock = .free ∧ s' = { s with processMap := s.processMap.erase p } ∧
          call' = .returned (.ok ()))) := by
  cases call with
  | deleteData p =>
    refine .inl ⟨p, rfl, ?_⟩
    cases herr : inp.err with
    | some e =>
      simp only [DeleteProcess.step, Input.statement, herr] at h
      cases h
      exact .inl ⟨e, rfl, rfl, rfl⟩
    | none =>
      simp only [DeleteProcess.step, Input.statement_of_none herr] at h
      cases h
      exact .inr ⟨rfl, rfl, rfl⟩
  | removeMap p =>
    simp only [DeleteProcess.step] at h
    refine .inr ⟨p, rfl, ?_⟩
    split at h
    · cases h
    · next hl => cases h; exact .inl ⟨hl, rfl, rfl⟩
    · next hl => cases h; exact .inr ⟨hl, rfl, rfl⟩
  | returned _ => cases h
  | panicked => cases h

/-- **What `delete_process` writes** in one step: `PROCESS_MAP` at most, or the tables, by the
delete. -/
theorem DeleteProcess.step_shared {call call' : DeleteProcess}
    (h : call.step inp s = some (call', s')) :
    (∃ processMap, s' = { s with processMap }) ∨
    (∃ p, call = .deleteData p ∧ call' = .removeMap p ∧
      s' = { s with db := s.db.deleteApps p }) := by
  have hsame : ∃ processMap, s = { s with processMap } := ⟨s.processMap, rfl⟩
  rcases DeleteProcess.step_cases h with ⟨p, rfl, ⟨e, -, rfl, -⟩ | ⟨-, rfl, rfl⟩⟩ |
    ⟨p, -, ⟨-, rfl, -⟩ | ⟨-, rfl, -⟩⟩
  · exact .inl hsame
  · exact .inr ⟨p, rfl, rfl, rfl⟩
  · exact .inl hsame
  · exact .inl ⟨_, rfl⟩

/-- A step of a call is a step of the machine it runs. -/
theorem Call.step_machine {call call' : Call} (h : call.step inp s = some (call', s')) :
    (∃ a a', call = .addProcess a ∧ call' = .addProcess a' ∧ a.step inp s = some (a', s')) ∨
    (∃ d d', call = .deleteProcess d ∧ call' = .deleteProcess d' ∧
      d.step inp s = some (d', s')) ∨
    (∃ p p', call = .pause p ∧ call' = .pause p' ∧ p.step s = some (p', s')) ∨
    (∃ a a' db, call = .setCheckpointActive a ∧ call' = .setCheckpointActive a' ∧
      a.step inp s.db = some (a', db) ∧ s' = { s with db }) ∨
    (∃ a a' db, call = .createCheckpoint a ∧ call' = .createCheckpoint a' ∧
      a.step inp s.db = some (a', db) ∧ s' = { s with db }) ∨
    (∃ a a' db, call = .deleteCheckpoint a ∧ call' = .deleteCheckpoint a' ∧
      a.step inp s.db = some (a', db) ∧ s' = { s with db }) := by
  cases call with
  | addProcess a =>
    obtain ⟨⟨a', s''⟩, hstep, heq⟩ := Option.map_eq_some_iff.mp h
    cases heq
    exact .inl ⟨a, a', rfl, rfl, hstep⟩
  | deleteProcess d =>
    obtain ⟨⟨d', s''⟩, hstep, heq⟩ := Option.map_eq_some_iff.mp h
    cases heq
    exact .inr (.inl ⟨d, d', rfl, rfl, hstep⟩)
  | pause p =>
    obtain ⟨⟨p', s''⟩, hstep, heq⟩ := Option.map_eq_some_iff.mp h
    cases heq
    exact .inr (.inr (.inl ⟨p, p', rfl, rfl, hstep⟩))
  | setCheckpointActive a =>
    obtain ⟨db, hs, a', rfl, hstep⟩ := Call.stepDb_shared h
    exact .inr (.inr (.inr (.inl ⟨a, a', db, rfl, rfl, hstep, hs⟩)))
  | createCheckpoint a =>
    obtain ⟨db, hs, a', rfl, hstep⟩ := Call.stepDb_shared h
    exact .inr (.inr (.inr (.inr (.inl ⟨a, a', db, rfl, rfl, hstep, hs⟩))))
  | deleteCheckpoint a =>
    obtain ⟨db, hs, a', rfl, hstep⟩ := Call.stepDb_shared h
    exact .inr (.inr (.inr (.inr (.inr ⟨a, a', db, rfl, rfl, hstep, hs⟩))))

theorem Pause.step_cases {call call' : Pause} (h : call.step s = some (call', s')) :
    (call = .read ∧ call' = .write (!s.pause) ∧ s' = s) ∨
    (∃ value, call = .write value ∧ call' = .returned ∧ s' = { s with pause := value }) := by
  cases call with
  | read => cases h; exact .inl ⟨rfl, rfl, rfl⟩
  | write value => cases h; exact .inr ⟨value, rfl, rfl, rfl⟩
  | returned => cases h

/-- A step of a call leaves the spawn queue, the event channel and the lock alone. It writes
`PROCESS_MAP` at two points only: the insert of `add_process` and the remove of
`delete_process`, and these write nothing else. -/
theorem Call.step_cases {call call' : Call} (h : call.step inp s = some (call', s')) :
    s'.spawnQueue = s.spawnQueue ∧ s'.events = s.events ∧ s'.mapLock = s.mapLock ∧
    (s'.processMap = s.processMap ∨
      (∃ p, call = .addProcess (.insertMap p) ∧ call' = .addProcess (.returned (.ok ())) ∧
        s.mapLock = .free ∧ s' = { s with processMap := s.processMap.insert p (false, false) }) ∨
      (∃ p, call = .deleteProcess (.removeMap p) ∧ call' = .deleteProcess (.returned (.ok ())) ∧
        s.mapLock = .free ∧ s' = { s with processMap := s.processMap.erase p })) := by
  rcases Call.step_machine h with ⟨a, a', rfl, rfl, hstep⟩ | ⟨d, d', rfl, rfl, hstep⟩ |
    ⟨p, p', rfl, rfl, hstep⟩ | ⟨a, a', db, rfl, rfl, -, rfl⟩ | ⟨a, a', db, rfl, rfl, -, rfl⟩ |
    ⟨a, a', db, rfl, rfl, -, rfl⟩
  · rcases AddProcess.step_cases hstep with ⟨e, -, -, rfl, -⟩ | ⟨p, path, -, -, rfl, -⟩ |
      ⟨p, pn, -, -, rfl, -⟩ | ⟨p, pn, id, -, -, ⟨-, rfl, -⟩ | ⟨apps, -, rfl, -⟩⟩ |
      ⟨p, rfl, ⟨-, rfl, -⟩ | ⟨hfree, rfl, rfl⟩⟩
    · exact ⟨rfl, rfl, rfl, .inl rfl⟩
    · exact ⟨rfl, rfl, rfl, .inl rfl⟩
    · exact ⟨rfl, rfl, rfl, .inl rfl⟩
    · exact ⟨rfl, rfl, rfl, .inl rfl⟩
    · exact ⟨rfl, rfl, rfl, .inl rfl⟩
    · exact ⟨rfl, rfl, rfl, .inl rfl⟩
    · exact ⟨rfl, rfl, rfl, .inr (.inl ⟨p, rfl, rfl, hfree, rfl⟩)⟩
  · rcases DeleteProcess.step_cases hstep with ⟨p, -, ⟨e, -, rfl, -⟩ | ⟨-, rfl, -⟩⟩ |
      ⟨p, rfl, ⟨-, rfl, -⟩ | ⟨hfree, rfl, rfl⟩⟩
    · exact ⟨rfl, rfl, rfl, .inl rfl⟩
    · exact ⟨rfl, rfl, rfl, .inl rfl⟩
    · exact ⟨rfl, rfl, rfl, .inl rfl⟩
    · exact ⟨rfl, rfl, rfl, .inr (.inr ⟨p, rfl, rfl, hfree, rfl⟩)⟩
  · rcases Pause.step_cases hstep with ⟨-, -, rfl⟩ | ⟨_, -, -, rfl⟩
    · exact ⟨rfl, rfl, rfl, .inl rfl⟩
    · exact ⟨rfl, rfl, rfl, .inl rfl⟩
  · exact ⟨rfl, rfl, rfl, .inl rfl⟩
  · exact ⟨rfl, rfl, rfl, .inl rfl⟩
  · exact ⟨rfl, rfl, rfl, .inl rfl⟩

/-- A call changes the apps at two points only: the insert of `put_data` and the delete of
`delete_data`. -/
theorem Call.step_apps {call call' : Call} (h : call.step inp s = some (call', s')) :
    s'.db.apps = s.db.apps ∨
    (∃ p productName id apps, call = .addProcess (.insert p productName id) ∧
      call' = .addProcess (.insertMap p) ∧ inp.err = none ∧
      s.db.apps.insert (AddProcess.newApp p productName id) = some apps ∧
      s' = { s with db := { s.db with apps } }) ∨
    (∃ p, call = .deleteProcess (.deleteData p) ∧ call' = .deleteProcess (.removeMap p) ∧
      s' = { s with db := s.db.deleteApps p }) := by
  rcases Call.step_machine h with ⟨a, a', rfl, rfl, hstep⟩ | ⟨d, d', rfl, rfl, hstep⟩ |
    ⟨p, p', rfl, rfl, hstep⟩ | ⟨a, a', db, rfl, rfl, hstep, rfl⟩ |
    ⟨a, a', db, rfl, rfl, hstep, rfl⟩ | ⟨a, a', db, rfl, rfl, hstep, rfl⟩
  · rcases AddProcess.step_shared hstep with ⟨_, rfl⟩ | ⟨p, pn, id, apps, rfl, rfl, herr, hins, rfl⟩
    · exact .inl rfl
    · exact .inr (.inl ⟨p, pn, id, apps, rfl, rfl, herr, hins, rfl⟩)
  · rcases DeleteProcess.step_shared hstep with ⟨_, rfl⟩ | ⟨p, rfl, rfl, rfl⟩
    · exact .inl rfl
    · exact .inr (.inr ⟨p, rfl, rfl, rfl⟩)
  · rcases Pause.step_cases hstep with ⟨-, -, rfl⟩ | ⟨_, -, -, rfl⟩
    · exact .inl rfl
    · exact .inl rfl
  · exact .inl (SetCheckpointActive.step_frame hstep).1
  · obtain ⟨_, _, _, -, ⟨_, -, rfl⟩ | ⟨-, -, _, -, rfl⟩⟩ := CreateCheckpoint.step_cases hstep
    · exact .inl rfl
    · exact .inl rfl
  · obtain ⟨_, -, ⟨_, -, rfl⟩ | ⟨-, rfl⟩⟩ := DeleteCheckpoint.step_cases hstep
    · exact .inl rfl
    · exact .inl rfl

/-- A call changes the timeline at two points only: the cascade of `delete_data`, and the
foreign key of a deleted checkpoint. -/
theorem Call.step_timeline {call call' : Call} (h : call.step inp s = some (call', s')) :
    s'.db.timeline = s.db.timeline ∨
    (∃ p, call = .deleteProcess (.deleteData p) ∧ s' = { s with db := s.db.deleteApps p }) ∨
    (∃ id, call = .deleteCheckpoint (.delete id) ∧
      s' = { s with db := s.db.deleteCheckpoint id }) := by
  rcases Call.step_machine h with ⟨a, a', rfl, rfl, hstep⟩ | ⟨d, d', rfl, rfl, hstep⟩ |
    ⟨p, p', rfl, rfl, hstep⟩ | ⟨a, a', db, rfl, rfl, hstep, rfl⟩ |
    ⟨a, a', db, rfl, rfl, hstep, rfl⟩ | ⟨a, a', db, rfl, rfl, hstep, rfl⟩
  · rcases AddProcess.step_shared hstep with ⟨_, rfl⟩ | ⟨_, _, _, _, -, -, -, -, rfl⟩
    · exact .inl rfl
    · exact .inl rfl
  · rcases DeleteProcess.step_shared hstep with ⟨_, rfl⟩ | ⟨p, rfl, -, rfl⟩
    · exact .inl rfl
    · exact .inr (.inl ⟨p, rfl, rfl⟩)
  · rcases Pause.step_cases hstep with ⟨-, -, rfl⟩ | ⟨_, -, -, rfl⟩ <;> exact .inl rfl
  · exact .inl (SetCheckpointActive.step_frame hstep).2
  · obtain ⟨_, _, _, -, ⟨_, -, rfl⟩ | ⟨-, -, _, -, rfl⟩⟩ := CreateCheckpoint.step_cases hstep
    · exact .inl rfl
    · exact .inl rfl
  · obtain ⟨id, rfl, ⟨_, -, rfl⟩ | ⟨-, rfl⟩⟩ := DeleteCheckpoint.step_cases hstep
    · exact .inl rfl
    · exact .inr (.inr ⟨id, rfl, rfl⟩)

/-! ## Steps of the other threads -/

/-- The scanner, the main thread and the workers keep the calls, the event loop and the
database. -/
theorem step_of_onlyReads {c c' : Config} {l : Label} (hl : l.onlyReads = true)
    (h : tracker.step c l = some c') :
    c'.calls = c.calls ∧ c'.loop = c.loop ∧ c'.shared.db = c.shared.db := by
  cases l with
  | scan inp =>
    obtain ⟨sc, s, hstep, rfl⟩ := step_scan h
    rcases Scanner.step_cases hstep with ⟨-, -, rfl⟩ | ⟨_, _, _, -, -, -, -, -, rfl⟩ |
      ⟨_, _, -, -, -, -, -, rfl⟩ | ⟨_, _, -, -, rfl⟩ <;> exact ⟨rfl, rfl, rfl⟩
  | spawn =>
    obtain ⟨_, _, -, rfl⟩ := step_spawn h
    exact ⟨rfl, rfl, rfl⟩
  | work k inp =>
    obtain ⟨w, w', s, -, hstep, rfl⟩ := step_work h
    obtain ⟨-, -, hdb, -⟩ := Worker.step_cases hstep
    exact ⟨rfl, rfl, hdb⟩
  | _ => cases hl

/-- One worker over a step of the program: it moves itself, or it stays where it is. Workers
are only ever appended. -/
theorem step_worker {c c' : Config} {l : Label} {k : Nat} {w : Worker}
    (hk : c.workers[k]? = some w) (h : tracker.step c l = some c') :
    (∃ inp w', l = .work k inp ∧ w.step inp c.shared = some (w', c'.shared) ∧
      c'.workers[k]? = some w') ∨
    ((∀ inp, l ≠ .work k inp) ∧ c'.workers[k]? = some w) := by
  cases l with
  | scan inp =>
    obtain ⟨_, _, -, rfl⟩ := step_scan h
    exact .inr ⟨nofun, hk⟩
  | spawn =>
    obtain ⟨_, _, -, rfl⟩ := step_spawn h
    have hlt : k < c.workers.length := (List.getElem?_eq_some_iff.mp hk).1
    exact .inr ⟨nofun, (List.getElem?_append_left hlt).trans hk⟩
  | work j inp =>
    obtain ⟨u, u', shared, hj, hstep, rfl⟩ := step_work h
    by_cases hjk : j = k
    · rw [hjk, hk] at hj
      cases hj
      rw [hjk]
      exact .inl ⟨inp, u', rfl, hstep, Pool.getElem?_set_self hk⟩
    · have hne : ∀ inp', Label.work j inp ≠ .work k inp' := by
        intro inp' heq
        cases heq
        exact hjk rfl
      exact .inr ⟨hne, (List.getElem?_set_ne hjk).trans hk⟩
  | handle inp =>
    obtain ⟨_, _, _, -, rfl⟩ := step_handle h
    exact .inr ⟨nofun, hk⟩
  | call j inp =>
    obtain ⟨_, _, _, -, -, rfl⟩ := step_call h
    exact .inr ⟨nofun, hk⟩

/-- A step that is no step of a call keeps the calls, and the database unless it is a step of
the event loop. -/
theorem step_db_of_not_call {c c' : Config} {l : Label} (hl : l.isCall = false)
    (h : tracker.step c l = some c') :
    c'.calls = c.calls ∧
      (c'.shared.db = c.shared.db ∨ ∃ inp loop events,
        c.loop.step inp c.shared.events c.shared.db = some (loop, events, c'.shared.db)) := by
  cases l with
  | handle inp =>
    obtain ⟨loop, events, db, hstep, rfl⟩ := step_handle h
    exact ⟨rfl, .inr ⟨inp, loop, events, hstep⟩⟩
  | call k inp => cases hl
  | _ =>
    obtain ⟨hcalls, -, hdb⟩ := step_of_onlyReads rfl h
    exact ⟨hcalls, .inl hdb⟩

/-- A step that is no step of a call keeps the ids and names of the apps. -/
theorem identities_of_not_call {c c' : Config} {l : Label} (hl : l.isCall = false)
    (h : tracker.step c l = some c') :
    c'.shared.db.identities = c.shared.db.identities := by
  obtain ⟨-, hdb | ⟨inp, loop, events, hstep⟩⟩ := step_db_of_not_call hl h
  · rw [hdb]
  · exact EventLoop.step_identities hstep

end TimeTracker
