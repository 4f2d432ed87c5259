import Mathlib.Algebra.BigOperators.Ring.Finset
import TimeTracker.Counts
import TimeTracker.Minutes

/-!
# What a kill costs

The program is killed at any moment and started again. What its threads have not told the database
yet is lost: the events in the channel, and the session workers with what they were about to send.
The two ledgers of an app then differ as if a worker had fallen silent between its two sends, and
this is how the invariant of `TwoLedgers` goes on across a kill: with the fallen workers of all
kills among the workers.

* `Config.withFallen`: the tracker with such workers besides its own. It takes the same steps.
* **`crashInvariant_step`**: one step of the whole program.
* **`killsCostMinutes`**: after `n` kills the durations of all apps together are at most `n + 1`
  minutes ahead of the timelines, and none is behind.
-/

namespace TimeTracker

open Transition

/-! ## Deletes that find nothing

The runs of this module delete no app and no checkpoint. A delete among their steps has found no row
then, and it leaves the ledgers as they are. -/

namespace Store

variable {db : Store}

/-- A delete that leaves the ids of all apps has changed no app and no row of the timeline. -/
theorem deleteApps_of_keys {name : String}
    (hkeys : ∀ id ∈ db.apps.keys, id ∈ (db.deleteApps name).apps.keys) :
    (db.deleteApps name).apps = db.apps ∧ (db.deleteApps name).timeline = db.timeline := by
  have hkeys' : ∀ id ∈ db.apps.keys,
      id ∈ (db.apps.delete fun a => a.name = some name).keys := hkeys
  obtain ⟨happs, hnone⟩ := Table.delete_eq_self hkeys'
  have hgone : (db.apps.all fun a => a.name = some name) = [] :=
    List.filter_eq_nil_iff.mpr fun a ha => by rw [hnone a ha]; decide
  refine ⟨happs, ?_⟩
  simp only [deleteApps, hgone, List.map_nil, List.not_mem_nil, decide_false]
  have hcheckpoints : (db.checkpoints.all fun _ => false) = [] :=
    List.filter_eq_nil_iff.mpr fun _ _ => by decide
  have htimeline : (db.timeline.delete fun _ => false) = db.timeline := by
    apply (Table.delete_eq_self _).1
    intro id hid
    obtain ⟨t, ht, hkey⟩ := Table.mem_keys.mp hid
    exact Table.mem_keys.mpr ⟨t, Table.mem_delete.mpr ⟨ht, rfl⟩, hkey⟩
  simp only [hcheckpoints, List.map_nil, List.not_mem_nil, if_false, htimeline]
  exact Table.updateAll_eq_self _ fun _ _ => rfl

/-- A delete that leaves the ids of all checkpoints has not changed the timeline. -/
theorem deleteCheckpoint_of_keys (hlinked : db.Linked) {id : Int}
    (hkeys : ∀ i ∈ db.checkpoints.keys, i ∈ (db.deleteCheckpoint id).checkpoints.keys) :
    (db.deleteCheckpoint id).timeline = db.timeline := by
  have hkeys' : ∀ i ∈ db.checkpoints.keys,
      i ∈ (db.checkpoints.delete fun c => c.id = id).keys := hkeys
  obtain ⟨-, hnone⟩ := Table.delete_eq_self hkeys'
  -- a row that refers to a checkpoint refers to one that is there
  have hother : ∀ t ∈ db.timeline.rows, t.checkpointId ≠ some id := by
    intro t ht hid
    obtain ⟨c, hc, hkey⟩ := Table.mem_keys.mp (hlinked.timelineCheckpoints t ht id hid)
    exact absurd hkey (of_decide_eq_false (hnone c hc))
  exact Table.updateAll_eq_self (fun t => by split <;> rfl) fun t ht => if_neg (hother t ht)

end Store

/-! ## The fallen -/

/-- A session worker of `p` that a kill has stopped between its two sends. -/
def Worker.fallen (p : String) : Worker := ⟨p, 0, .sendTimeline⟩

/-- The tracker with the fallen workers of earlier kills besides its own. -/
def Config.withFallen (fallen : List String) (c : Config) : Config :=
  { c with workers := fallen.map Worker.fallen ++ c.workers }

/-- The same step past `n` more workers. -/
def Label.past (n : Nat) : Label → Label
  | .work k inp => .work (n + k) inp
  | l => l

section
variable {fallen : List String} {c c' : Config} {l : Label}

/-- The workers of the tracker come after the fallen ones, -/
theorem getElem?_withFallen (k : Nat) :
    (c.withFallen fallen).workers[fallen.length + k]? = c.workers[k]? := by
  show (fallen.map Worker.fallen ++ c.workers)[fallen.length + k]? = _
  rw [List.getElem?_append_right (by simp)]
  simp

/-- and a step of one of them leaves the fallen where they are. -/
theorem set_withFallen (k : Nat) (w : Worker) :
    (c.withFallen fallen).workers.set (fallen.length + k) w =
      fallen.map Worker.fallen ++ c.workers.set k w := by
  show (fallen.map Worker.fallen ++ c.workers).set (fallen.length + k) w = _
  rw [List.set_append_right _ _ (by simp)]
  simp

/-- **The fallen are in nobody's way.** -/
theorem step_withFallen (h : tracker.step c l = some c') :
    tracker.step (c.withFallen fallen) (l.past fallen.length) = some (c'.withFallen fallen) := by
  cases l with
  | scan inp =>
    obtain ⟨scanner, shared, hstep, rfl⟩ := step_scan h
    have hstep' : (c.withFallen fallen).scanner.step inp (c.withFallen fallen).shared =
        some (scanner, shared) := hstep
    show Config.step (c.withFallen fallen) (.scan inp) = _
    simp only [Config.step, hstep', Option.map_some]
    rfl
  | spawn =>
    obtain ⟨p, rest, hqueue, rfl⟩ := step_spawn h
    have happend : (c.withFallen fallen).workers ++ [Worker.spawned p] =
        fallen.map Worker.fallen ++ (c.workers ++ [Worker.spawned p]) := List.append_assoc _ _ _
    have hqueue' : (c.withFallen fallen).shared.spawnQueue = p :: rest := hqueue
    show Config.step (c.withFallen fallen) .spawn = _
    simp only [Config.step, hqueue', happend]
    rfl
  | work k inp =>
    obtain ⟨w, w', shared, hk, hstep, rfl⟩ := step_work h
    have hk' : (c.withFallen fallen).workers[fallen.length + k]? = some w := by
      rw [getElem?_withFallen, hk]
    have hstep' : w.step inp (c.withFallen fallen).shared = some (w', shared) := hstep
    show Config.step (c.withFallen fallen) (.work (fallen.length + k) inp) = _
    simp only [Config.step, hk', hstep', Option.map_some, set_withFallen]
    rfl
  | handle inp =>
    obtain ⟨loop, events, db, hstep, rfl⟩ := step_handle h
    have hstep' : (c.withFallen fallen).loop.step inp (c.withFallen fallen).shared.events
        (c.withFallen fallen).shared.db = some (loop, events, db) := hstep
    show Config.step (c.withFallen fallen) (.handle inp) = _
    simp only [Config.step, hstep', Option.map_some]
    rfl
  | call k inp =>
    obtain ⟨call, call', shared, hk, hstep, rfl⟩ := step_call h
    have hk' : (c.withFallen fallen).calls[k]? = some call := hk
    have hstep' : call.step inp (c.withFallen fallen).shared = some (call', shared) := hstep
    show Config.step (c.withFallen fallen) (.call k inp) = _
    simp only [Config.step, hk', hstep', Option.map_some]
    rfl

/-- Every fallen worker counts as one between its two sends. -/
theorem workersBetween_withFallen (p : String) :
    workersBetween p (c.withFallen fallen).workers =
      fallen.count p + workersBetween p c.workers := by
  have hfallen : (fallen.map Worker.fallen).countP (fun w => w.p = p && w.betweenSends) =
      fallen.count p := by
    rw [List.countP_map, List.count]
    apply List.countP_congr
    intro q _
    simp only [Function.comp_apply, Worker.fallen, Worker.betweenSends, decide_true,
      Bool.and_true, beq_iff_eq]
    exact decide_eq_true_iff
  show (fallen.map Worker.fallen ++ c.workers).countP _ = _
  rw [List.countP_append, hfallen, workersBetween]

end

/-! ## Tables that grow -/

section
variable {db db' : Store} {event : Event} {hd : Handler} {c : Config} {s : Shared}

/-- What a handler holds is still there if no checkpoint is gone. -/
theorem consistent_congr (happs : db'.apps = db.apps) (htimeline : db'.timeline = db.timeline)
    (hcheckpoints : ∀ id ∈ db.checkpoints.keys, id ∈ db'.checkpoints.keys)
    (h : hd.consistent event db) : hd.consistent event db' := by
  have hfind : ∀ p, db'.findApp p = db.findApp p := fun p => Store.findApp_congr happs
  have hentry : ∀ {appId}, entryFor event db appId → entryFor event db' appId := by
    rintro appId ⟨p, app, happ, hid, hevent⟩
    exact ⟨p, app, (hfind p).trans happ, hid, hevent⟩
  cases hd with
  | longestUpdateApp app n date =>
    obtain ⟨p, happ, hevent⟩ := h
    exact ⟨p, (hfind p).trans happ, hevent⟩
  | countUpdateApp counter app =>
    obtain ⟨p, happ, hevent⟩ := h
    exact ⟨p, (hfind p).trans happ, hevent⟩
  | timelineFindEntry appId today => exact hentry h
  | timelineMaxId appId today => exact hentry h
  | timelineUpdate entry => exact ⟨htimeline ▸ h.1, hentry h.2⟩
  | timelineFirstCheckpoint appId today id => exact ⟨hentry h.1, htimeline ▸ h.2⟩
  | timelineInsert entry =>
    obtain ⟨hfor, hfree, hrefs, hone⟩ := h
    exact ⟨hentry hfor, htimeline ▸ hfree, fun id hid => hcheckpoints id (hrefs id hid), hone⟩
  | _ => exact h

/-- What a call asks of the names holds with more of them. -/
theorem pausesOrAdds_mono {call : Call} (hnames : ∀ q ∈ db.appNames, q ∈ db'.appNames)
    (h : call.pausesOrAdds db) : call.pausesOrAdds db' := by
  unfold Call.pausesOrAdds at h ⊢
  split at h
  · trivial
  · exact hnames _ h
  · trivial
  · exact h

/-- Between two steps of the tracker the tables are changed elsewhere, but not the ledgers. -/
theorem LedgerInvariant.congr (hinv : LedgerInvariant c) (happs : s.db.apps = c.shared.db.apps)
    (htimeline : s.db.timeline = c.shared.db.timeline)
    (hcheckpoints : ∀ id ∈ c.shared.db.checkpoints.keys, id ∈ s.db.checkpoints.keys)
    (hevents : s.events = c.shared.events) (hqueue : s.spawnQueue = c.shared.spawnQueue)
    (hmap : ∀ q ∈ s.processMap, q ∈ c.shared.processMap) :
    LedgerInvariant { c with shared := s } := by
  have hnames : s.db.appNames = c.shared.db.appNames := appNames_of_apps happs
  constructor
  all_goals simp only [hnames, hqueue, unwritten, hevents]
  · exact hinv.semicolon
  · intro t ht
    rw [htimeline] at ht
    rw [happs]
    exact hinv.keys t ht
  · exact fun q hq => hinv.processMap q (hmap q hq)
  · exact hinv.toSpawn
  · exact hinv.spawnQueue
  · exact fun call hcall => pausesOrAdds_mono (fun q hq => hnames ▸ hq) (hinv.calls call hcall)
  · exact fun event hd hloop =>
      consistent_congr happs htimeline hcheckpoints (hinv.handler event hd hloop)
  · exact hinv.books.congr happs htimeline

/-- Between two steps of the tracker an app is added. -/
theorem LedgerInvariant.added (hinv : LedgerInvariant c) {p productName : String} {id : Int}
    (hnew : p ∉ c.shared.db.appNames) (hsemi : ';' ∉ p.toList)
    (hins : c.shared.db.insertApp (AddProcess.newApp p productName id) = .ok s.db)
    (hevents : s.events = c.shared.events) (hqueue : s.spawnQueue = c.shared.spawnQueue)
    (hmap : ∀ q ∈ s.processMap, q ∈ c.shared.processMap ∨ q = p) :
    LedgerInvariant { c with shared := s } := by
  have hmem : ∀ q, q ∈ s.db.appNames ↔ q ∈ c.shared.db.appNames ∨ q = p := fun q =>
    Store.mem_appNames_insertApp_iff hins rfl
  have hmore : ∀ q ∈ c.shared.db.appNames, q ∈ s.db.appNames := fun q hq => (hmem q).mpr (.inl hq)
  have hkeys : s.db.timelineKeys := by
    obtain ⟨apps, hinsert, hdb⟩ := Store.insertApp_eq_ok.mp hins
    rw [hdb]
    intro t ht
    show t.appId ∈ apps.keys
    rw [Table.keys_insert hinsert]
    exact List.mem_append_left _ (hinv.keys t ht)
  constructor
  all_goals simp only [hqueue, unwritten, hevents]
  · intro q hq
    rcases (hmem q).mp hq with hq | rfl
    · exact hinv.semicolon q hq
    · exact hsemi
  · exact hkeys
  · intro q hq
    rcases hmap q hq with hq | rfl
    · exact hmore q (hinv.processMap q hq)
    · exact (hmem q).mpr (.inr rfl)
  · exact fun q hq => hmore q (hinv.toSpawn q hq)
  · exact fun q hq => hmore q (hinv.spawnQueue q hq)
  · exact fun call hcall => pausesOrAdds_mono hmore (hinv.calls call hcall)
  · exact fun event hd hloop => consistent_insertApp hins (hinv.handler event hd hloop)
  · exact hinv.books.insertApp hinv.keys rfl hnew rfl rfl hins

end

/-! ## What a request does to the tables -/

section
variable {env : Environment World} {s s' : ServerState World}

/-- A request that deletes nothing leaves the ledgers and `PROCESS_MAP` alone, or adds an app. -/
theorem Moved.grows (h : Moved env s s') (hsound : s.world.db.Sound)
    (happs : ∀ id ∈ s.world.db.apps.keys, id ∈ s'.world.db.apps.keys)
    (hcheckpoints : ∀ id ∈ s.world.db.checkpoints.keys, id ∈ s'.world.db.checkpoints.keys) :
    (s'.world.db.apps = s.world.db.apps ∧ s'.world.db.timeline = s.world.db.timeline ∧
      ∀ q ∈ s'.processMap, q ∈ s.processMap) ∨
    ∃ p productName id, p ∉ s.world.db.appNames ∧
      s.world.db.insertApp (AddProcess.newApp p productName id) = .ok s'.world.db ∧
      ∀ q ∈ s'.processMap, q ∈ s.processMap ∨ q = p := by
  obtain ⟨s₁, h, _, ⟨errs, rfl⟩, rfl⟩ := h
  cases h with
  | stays => exact .inl ⟨rfl, rfl, fun _ hq => hq⟩
  | @added p path db _ hdb hs₁ =>
    subst hs₁
    refine .inr ⟨p, _, _, hdb.new, hdb.stored, fun q hq => ?_⟩
    rcases Finmap.mem_insert.mp hq with hqp | hq
    · exact .inr hqp
    · exact .inl hq
  | addTorn hmap hdb => exact .inr ⟨_, _, _, hdb.new, hdb.stored, fun _ hq => .inl hq⟩
  | deleted hs₁ =>
    subst hs₁
    obtain ⟨happs', htimeline⟩ := Store.deleteApps_of_keys happs
    exact .inl ⟨happs', htimeline, fun q hq => (Finmap.mem_erase.mp hq).2⟩
  | deleteTorn name hmap =>
    obtain ⟨happs', htimeline⟩ := Store.deleteApps_of_keys happs
    exact .inl ⟨happs', htimeline, fun _ hq => hq⟩
  | checkpoints hcall =>
    refine .inl ⟨hcall.tables.1, ?_, fun _ hq => hq⟩
    rcases hcall.tables.2 with htimeline | ⟨id, hdb⟩
    · exact htimeline
    · subst hdb
      exact Store.deleteCheckpoint_of_keys hsound.toLinked hcheckpoints
  | halfActivated hhalf => exact .inl ⟨hhalf.apps, hhalf.timeline, fun _ hq => hq⟩
  | configured _ => exact .inl ⟨rfl, rfl, fun _ hq => hq⟩
  | subscribed _ _ => exact .inl ⟨rfl, rfl, fun _ hq => hq⟩
  | unsubscribed _ _ => exact .inl ⟨rfl, rfl, fun _ hq => hq⟩

end

/-! ## The invariant -/

/-- The apps a minute of whose timeline is missing: those of the fallen, and the one whose minute is
half written. -/
def outstanding (fallen : List String) (half : Option String) : List String := fallen ++ half.toList

/-- The books of a program that has been killed: with the `fallen` workers of all kills, they are
the books of a tracker that has never been killed. -/
structure CrashInvariant (fallen : List String) (half last : Option String) (p : Program) :
    Prop where
  locks : LocksHealthy p
  tables : TablesInvariant p
  minutes : MinutesInvariant half last p.threads
  ledgers : LedgerInvariant (p.threads.withFallen fallen)
  timeline : ∀ q ∈ p.db.appNames, 0 ≤ p.db.timelineDurationOf q

section
variable {driver : Driver} {env : Environment World} {p p' : Program} {fallen : List String}
  {half last : Option String}

/-- **What a kill costs each app**: the minutes whose second half is lost, or would be now. -/
theorem CrashInvariant.duration (hinv : CrashInvariant fallen half last p) {q : String}
    (hq : q ∈ p.db.appNames) :
    p.db.durationOf q = p.db.timelineDurationOf q + (outstanding fallen half).count q := by
  have htime := hinv.ledgers.books.time q hq
  rw [workersBetween_withFallen, hinv.minutes.between q] at htime
  have hhalves : (unwritten p.threads).count (q, .timeline) + (if last = some q then 1 else 0) =
      (unwritten p.threads).count (q, .duration) + if half = some q then 1 else 0 :=
    minutes_count hinv.minutes.events
  have hhalf : half.toList.count q = if half = some q then 1 else 0 := by
    cases half with
    | none => rfl
    | some r => simp [List.count_singleton, beq_iff_eq]
  rw [outstanding, List.count_append, hhalf]
  change p.db.durationOf q + (unwritten p.threads).count (q, .duration) =
    p.db.timelineDurationOf q + (unwritten p.threads).count (q, .timeline) + _ at htime
  omega

/-- The apps that have lost a minute are there. -/
theorem CrashInvariant.named (hinv : CrashInvariant fallen half last p) {q : String}
    (hq : q ∈ outstanding fallen half) : q ∈ p.db.appNames := by
  have hworker : ∀ w ∈ (p.threads.withFallen fallen).workers, w.betweenSends = true →
      w.p ∈ p.db.appNames := by
    intro w hw hbetween
    have hpoint : w.point = .sendTimeline := of_decide_eq_true hbetween
    exact (hinv.ledgers.books.workers w hw (by simp [Worker.over, hpoint])).1
  rcases List.mem_append.mp hq with hq | hq
  · exact hworker (Worker.fallen q) (List.mem_append_left _ (List.mem_map_of_mem hq)) rfl
  -- the second half of the minute is in the channel, or in the hands of a worker
  · have hhalf : half = some q := Option.mem_toList.mp hq
    have hcount := minutes_count (p := q) hinv.minutes.events
    rw [if_pos hhalf, ← hinv.minutes.between q] at hcount
    rcases Nat.eq_zero_or_pos ((unwritten p.threads).count (q, .timeline)) with hzero | hpos
    · have hbetween : 0 < workersBetween q p.threads.workers := by omega
      obtain ⟨w, hw, hcounted⟩ := List.countP_pos_iff.mp hbetween
      rw [Bool.and_eq_true, decide_eq_true_iff] at hcounted
      rw [← hcounted.1]
      exact hworker w (List.mem_append_right _ hw) hcounted.2
    · exact hinv.ledgers.books.named _ (List.count_pos_iff.mp hpos)

/-! ## The steps -/

/-- The event loop lets no timeline shrink. -/
theorem timelineDurationOf_mono {c c' : Config} {l : Label} {q : String} (hinv : LedgerInvariant c)
    (hok : keepsNames c l) (hl : l.isCall = false) (h : tracker.step c l = some c')
    (hq : q ∈ c.shared.db.appNames) :
    c.shared.db.timelineDurationOf q ≤ c'.shared.db.timelineDurationOf q := by
  cases l with
  | call k inp => cases hl
  | handle inp =>
    obtain ⟨loop, events, db, hstep, rfl⟩ := step_handle h
    rcases EventLoop.step_cases hstep with ⟨_, -, -, rfl, -⟩ | ⟨event, hd, next, hloop, -, hrun, -⟩
    · exact le_refl _
    · rcases (hinv.step_ledgers hok hloop hrun).ledgers with ⟨-, happs, htimeline⟩ |
        ⟨-, -, happlied⟩
      · exact (Store.timelineDurationOf_congr happs htimeline).ge
      · rw [happlied.timeline q hq]
        split <;> omega
  | scan inp =>
    obtain ⟨-, -, hdb⟩ := step_of_onlyReads rfl h
    rw [hdb]
  | spawn =>
    obtain ⟨-, -, hdb⟩ := step_of_onlyReads rfl h
    rw [hdb]
  | work k inp =>
    obtain ⟨-, -, hdb⟩ := step_of_onlyReads rfl h
    rw [hdb]

/-- The database does not fail in the action, if it is one of the event loop. -/
def Action.works : Action → Bool
  | .thread (.handle inp) => inp.err.isNone
  | _ => true

/-- The database does not fail under the event loop, no app and no checkpoint is deleted, and the
name of a new app has no `;`. -/
def keepsBooks (driver : Driver) (env : Environment World) (p : Program) (a : Action) : Prop :=
  a.works = true ∧ ∀ p' ∈ p.step driver env a,
    (∀ id ∈ p.db.apps.keys, id ∈ p'.db.apps.keys) ∧
    (∀ id ∈ p.db.checkpoints.keys, id ∈ p'.db.checkpoints.keys) ∧
    ∀ q ∈ p'.db.appNames, ';' ∉ q.toList

instance (driver : Driver) (env : Environment World) (p : Program) (a : Action) :
    Decidable (keepsBooks driver env p a) := by
  unfold keepsBooks
  infer_instance

/-- A step of a thread is one of the tracker with the fallen (`step_withFallen`), so the invariant
of the ledgers goes on. -/
theorem crashInvariant_thread {l : Label} (hinv : CrashInvariant fallen half last p)
    (hok : keepsBooks driver env p (.thread l))
    (h : (program driver env).step p (.thread l) = some p') :
    ∃ half' last', CrashInvariant fallen half' last' p' := by
  have hlocks := locksHealthy_step hinv.locks h
  have htables := tablesInvariant_step hinv.locks hinv.tables h
  obtain ⟨hl, threads, hstep, rfl⟩ := Program.step_thread h
  obtain ⟨half', last', hminutes⟩ := minutesInvariant_step hinv.minutes hstep
  have hkeeps : keepsNames (p.threads.withFallen fallen) (l.past fallen.length) := by
    cases l with
    | call k inp => cases hl
    | handle inp => exact Option.isNone_iff_eq_none.mp hok.1
    | _ => trivial
  have hpast : (l.past fallen.length).isCall = false := by
    cases l with
    | call k inp => cases hl
    | _ => rfl
  have hledgers := ledgerInvariant_step _ _ _ hinv.ledgers hkeeps (step_withFallen hstep)
  refine ⟨half', last', hlocks, htables, hminutes, hledgers, fun q hq => ?_⟩
  have hnames : threads.shared.db.appNames = p.db.appNames := by
    rw [Store.appNames_eq, identities_of_not_call hl hstep, ← Store.appNames_eq]
  have hold : q ∈ p.db.appNames := hnames ▸ hq
  have hmono := timelineDurationOf_mono hinv.ledgers hkeeps hpast (step_withFallen hstep) hold
  exact (hinv.timeline q hold).trans hmono

/-- The tables are changed elsewhere: the ledgers are as they were, or an app is added. -/
theorem CrashInvariant.tables_changed {s : Shared} (hinv : CrashInvariant fallen half last p)
    (hlocks : LocksHealthy p') (htables : TablesInvariant p')
    (hthreads : p'.threads = { p.threads with shared := s })
    (hevents : s.events = p.threads.shared.events)
    (hqueue : s.spawnQueue = p.threads.shared.spawnQueue)
    (hlock : s.mapLock = p.threads.shared.mapLock)
    (hcheckpoints : ∀ id ∈ p.db.checkpoints.keys, id ∈ s.db.checkpoints.keys)
    (hsemi : ∀ q ∈ s.db.appNames, ';' ∉ q.toList)
    (h : (s.db.apps = p.db.apps ∧ s.db.timeline = p.db.timeline ∧
        ∀ q ∈ s.processMap, q ∈ p.processMap) ∨
      ∃ q productName id, q ∉ p.db.appNames ∧
        p.db.insertApp (AddProcess.newApp q productName id) = .ok s.db ∧
        ∀ r ∈ s.processMap, r ∈ p.processMap ∨ r = q) :
    CrashInvariant fallen half last p' := by
  have hminutes : MinutesInvariant half last p'.threads := by
    rw [hthreads]
    refine hinv.minutes.congr rfl ?_ ?_
    · show p.threads.loop.unwritten ++ s.events = unwritten p.threads
      rw [hevents, unwritten]
    · show s.mapLock = .held ↔ _
      rw [hlock]
  have hfallen : p'.threads.withFallen fallen =
      { p.threads.withFallen fallen with shared := s } := by
    rw [hthreads]
    rfl
  have hdb : p'.db = s.db := by rw [Program.db, hthreads]
  rcases h with ⟨happs, htimeline, hmap⟩ | ⟨q, productName, id, hnew, hins, hmap⟩
  · refine ⟨hlocks, htables, hminutes, ?_, fun r hr => ?_⟩
    · rw [hfallen]
      exact hinv.ledgers.congr happs htimeline hcheckpoints hevents hqueue hmap
    · rw [hdb] at hr ⊢
      rw [Store.timelineDurationOf_congr happs htimeline]
      exact hinv.timeline r (appNames_of_apps happs ▸ hr)
  · have hmem := fun r => Store.mem_appNames_insertApp_iff hins rfl (q := r)
    refine ⟨hlocks, htables, hminutes, ?_, fun r hr => ?_⟩
    · rw [hfallen]
      exact hinv.ledgers.added hnew (hsemi q ((hmem q).mpr (.inr rfl))) hins hevents hqueue hmap
    · rw [hdb] at hr ⊢
      rcases (hmem r).mp hr with hr | rfl
      · rw [(Store.ledgers_insertApp_of_mem hins hr).2]
        exact hinv.timeline r hr
      · exact (Store.timelineDurationOf_insertApp hins hinv.ledgers.keys rfl hnew).ge

/-- **A kill and a new start**: what the killed threads owed, nobody will pay. -/
theorem crashInvariant_restart (hinv : CrashInvariant fallen half last p)
    (config : TimeTrackingConfig) (hlocks : LocksHealthy
      (.initial p.threads.shared.platform p.db config))
    (htables : TablesInvariant (.initial p.threads.shared.platform p.db config)) :
    CrashInvariant (outstanding fallen half) none none
      (.initial p.threads.shared.platform p.db config) := by
  refine ⟨hlocks, htables, minutesInvariant_initial _ _ _, ?_, hinv.timeline⟩
  have hbooks := hinv.ledgers.books
  refine ⟨hinv.ledgers.semicolon, hinv.ledgers.keys, fun q hq => mem_processMap_initial.mp hq,
    fun _ hq => absurd hq List.not_mem_nil, fun _ hq => absurd hq List.not_mem_nil,
    fun _ hcall => absurd hcall List.not_mem_nil, fun _ _ hloop => (by cases hloop), ?_⟩
  refine ⟨fun _ he => absurd he List.not_mem_nil, fun q hq => ?_, hbooks.longest, hbooks.nonneg,
    fun w hw hlive => ?_, fun earlier e later q n hsplit => ?_⟩
  · rw [workersBetween_withFallen]
    have hduration := hinv.duration hq
    show p.db.durationOf q + (0 : Nat) = p.db.timelineDurationOf q + (0 : Nat) +
      ((outstanding fallen half).count q + 0 : Nat)
    omega
  · rcases List.mem_append.mp hw with hw | hw
    · obtain ⟨q, hq, rfl⟩ := List.mem_map.mp hw
      have hname := hinv.named hq
      refine ⟨hname, ?_⟩
      -- the minute whose second half is lost has been counted in the duration
      have hduration := hinv.duration hname
      have htimeline := hinv.timeline q hname
      have hcount : 0 < (outstanding fallen half).count q := List.count_pos_iff.mpr hq
      show ((1 : Nat) : Int) ≤ p.db.durationOf q + (0 : Nat)
      omega
    · exact absurd hw List.not_mem_nil
  · have hempty : [] = earlier ++ e :: later := hsplit
    simp at hempty

/-- The kills of a run. -/
def Action.isRestart : Action → Bool
  | .restart _ => true
  | _ => false

/-- **One step of the program**: a kill costs at most one minute more. -/
theorem crashInvariant_step {a : Action} (hinv : CrashInvariant fallen half last p)
    (hok : keepsBooks driver env p a) (h : (program driver env).step p a = some p') :
    ∃ fallen' half' last', CrashInvariant fallen' half' last' p' ∧
      fallen'.length ≤ fallen.length + if a.isRestart = true then 1 else 0 := by
  have hlocks := locksHealthy_step hinv.locks h
  have htables := tablesInvariant_step hinv.locks hinv.tables h
  obtain ⟨happs, hcheckpoints, hsemi⟩ := hok.2 p' h
  cases a with
  | thread l =>
    obtain ⟨half', last', hinv'⟩ := crashInvariant_thread hinv hok h
    exact ⟨fallen, half', last', hinv', Nat.le_add_right _ _⟩
  | request r now errs =>
    obtain ⟨_, s', -, ⟨hmoved, -⟩, rfl⟩ := hinv.locks.step_request h
    refine ⟨fallen, half, last, ?_, Nat.le_add_right _ _⟩
    exact hinv.tables_changed hlocks htables rfl rfl rfl rfl hcheckpoints hsemi
      (hmoved.grows hinv.tables.sound happs hcheckpoints)
  | pause =>
    cases h
    refine ⟨fallen, half, last, ?_, Nat.le_add_right _ _⟩
    exact hinv.tables_changed hlocks htables rfl rfl rfl rfl hcheckpoints hsemi
      (.inl ⟨rfl, rfl, fun _ hq => hq⟩)
  | commandLine processName path now errs =>
    obtain ⟨_, s', -, hserves, rfl⟩ := Program.step_commandLine h
    refine ⟨fallen, half, last, ?_, Nat.le_add_right _ _⟩
    apply hinv.tables_changed hlocks htables rfl rfl rfl rfl hcheckpoints hsemi
    rcases hserves.moved.grows hinv.tables.sound happs hcheckpoints with ⟨hsame, htimeline, -⟩ |
      ⟨q, productName, id, hnew, hins, -⟩
    · exact .inl ⟨hsame, htimeline, fun _ hq => hq⟩
    · exact .inr ⟨q, productName, id, hnew, hins, fun _ hq => .inl hq⟩
  | restart config =>
    cases h
    refine ⟨outstanding fallen half, none, none,
      crashInvariant_restart hinv config hlocks htables, ?_⟩
    rw [outstanding, List.length_append]
    have hone : half.toList.length ≤ 1 := by
      cases half <;> simp
    show fallen.length + half.toList.length ≤ fallen.length + 1
    omega

end

/-! ## Runs -/

/-- Sound tables in which the two ledgers of each app agree. -/
structure Store.Agreed (db : Store) : Prop where
  sound : db.Sound
  semicolon : ∀ q ∈ db.appNames, ';' ∉ q.toList
  time : ∀ q ∈ db.appNames, db.durationOf q = db.timelineDurationOf q
  longest : ∀ q ∈ db.appNames, db.longestSessionOf q ≤ db.durationOf q
  nonneg : ∀ q ∈ db.appNames, 0 ≤ db.durationOf q

/-- How far the durations of all apps together are ahead of the timelines. -/
def Store.ahead (db : Store) : Int :=
  ∑ q ∈ db.tracked, (db.durationOf q - db.timelineDurationOf q)

/-- After `n` kills: no timeline is ahead of its duration, and the durations of all apps together
are ahead by at most one minute for each kill and the minute that is just being written. -/
structure CostsMinutes (n : Nat) (p : Program) : Prop where
  timeline : ∀ q ∈ p.db.tracked, p.db.timelineDurationOf q ≤ p.db.durationOf q
  longest : ∀ q ∈ p.db.tracked, p.db.longestSessionOf q ≤ p.db.durationOf q
  total : p.db.ahead ≤ n + 1
  written : unwritten p.threads = [] → (∀ w ∈ p.threads.workers, w.betweenSends = false) →
    p.db.ahead ≤ n

section
variable {driver : Driver} {env : Environment World} {p : Program} {fallen : List String}
  {half last : Option String}

/-- At the start nobody has fallen. -/
theorem crashInvariant_initial {db : Store} (h : db.Agreed) (platform : Platform)
    (config : TimeTrackingConfig) : CrashInvariant [] none none (.initial platform db config) := by
  have hstart : StartsAgreed (Config.initial platform db []) := by
    refine ⟨h.semicolon, h.sound.timelineApps, fun _ => mem_processMap_initial, rfl, rfl, ?_, rfl,
      rfl, ?_, h.time, h.longest⟩
    · exact fun _ hw => absurd hw List.not_mem_nil
    · exact fun _ hcall => absurd hcall List.not_mem_nil
  refine ⟨locksHealthy_initial _ _ _, tablesInvariant_initial h.sound,
    minutesInvariant_initial _ _ _, ledgerInvariant_of_startsAgreed hstart h.nonneg, ?_⟩
  intro q hq
  have htime := h.time q hq
  have hnonneg := h.nonneg q hq
  show 0 ≤ db.timelineDurationOf q
  omega

/-- All apps together have lost the minutes that are outstanding. -/
theorem CrashInvariant.ahead (hinv : CrashInvariant fallen half last p) :
    p.db.ahead = (outstanding fallen half).length := by
  have hcount : ∑ q ∈ p.db.tracked, (outstanding fallen half).count q =
      (outstanding fallen half).length := by
    have hall : ∀ q ∈ (outstanding fallen half : Multiset String), q ∈ p.db.tracked := fun q hq =>
      Store.mem_tracked.mpr (hinv.named (Multiset.mem_coe.mp hq))
    have hsum := Multiset.sum_count_eq_card hall
    simpa only [Multiset.coe_count, Multiset.coe_card] using hsum
  rw [← hcount, Store.ahead, Nat.cast_sum]
  apply Finset.sum_congr rfl
  intro q hq
  have hduration := hinv.duration (Store.mem_tracked.mp hq)
  omega

/-- The fallen are at most as many as the kills, and half a minute may be on its way besides. -/
theorem CrashInvariant.costsMinutes {n : Nat} (hinv : CrashInvariant fallen half last p)
    (hn : fallen.length ≤ n) : CostsMinutes n p := by
  have hlength : p.db.ahead = fallen.length + half.toList.length := by
    rw [hinv.ahead, outstanding, List.length_append, Nat.cast_add]
  refine ⟨fun q hq => ?_, fun q hq => ?_, ?_, fun hempty hidle => ?_⟩
  · have hduration := hinv.duration (Store.mem_tracked.mp hq)
    omega
  · exact hinv.ledgers.books.longest q (Store.mem_tracked.mp hq)
  · have hone : half.toList.length ≤ 1 := by
      cases half <;> simp
    omega
  -- with nothing on its way, no minute is half written
  · have hnone : half = none := by
      cases hhalf : half with
      | none => rfl
      | some q =>
        have hzero : workersBetween q p.threads.workers = 0 :=
          List.countP_eq_zero.mpr fun w hw => by simp [hidle w hw]
        have hcount := minutes_count (p := q) hinv.minutes.events
        rw [← hinv.minutes.between q, hzero, hempty, if_pos hhalf] at hcount
        simp at hcount
    rw [hlength, hnone]
    show (fallen.length : Int) + 0 ≤ n
    omega

/-- What is asked of the steps of a run: they keep the books, and what they count fits an `i32`. -/
def keepsCount (driver : Driver) (env : Environment World) (p : Program) (a : Action) : Prop :=
  keepsBooks driver env p a ∧ fits env p a

instance (driver : Driver) (env : Environment World) (p : Program) (a : Action) :
    Decidable (keepsCount driver env p a) := by
  unfold keepsCount
  infer_instance

/-- **What kills cost.** However often the program is killed, wherever its threads are then and
whatever requests come in meanwhile: the durations are ahead of the timelines by at most one minute
for each kill, all apps together, and the minute that is just being written. -/
theorem killsCostMinutes {platform : Platform} {db : Store} {config : TimeTrackingConfig}
    {actions : List Action} (hdb : db.Agreed)
    (h : (program driver env).Runs (keepsCount driver env) (.initial platform db config)
      actions p) :
    CostsMinutes (actions.countP Action.isRestart) p := by
  have hinv := h.invariant_history
    (g := fun n _ a => n + if Action.isRestart a = true then 1 else 0)
    (I := fun n p => ∃ fallen half last, CrashInvariant fallen half last p ∧ fallen.length ≤ n)
    (a := 0) ?_ ⟨[], none, none, crashInvariant_initial hdb platform config, Nat.le_refl 0⟩
  · rw [h.history_countP, Nat.zero_add] at hinv
    obtain ⟨fallen, half, last, hinv, hle⟩ := hinv
    exact hinv.costsMinutes hle
  · rintro n p₁ a p₂ ⟨fallen, half, last, hinv, hle⟩ hok hstep
    obtain ⟨fallen', half', last', hinv', hle'⟩ := crashInvariant_step hinv hok.1 hstep
    exact ⟨fallen', half', last', hinv', by omega⟩

end

/-! ## A kill in the middle of a minute -/

/-- A session of `a` in its first minute: the first half is written, and then comes a kill. -/
def killedInATick : List Action :=
  sessionInATick.map .thread ++ [.restart ⟨60000, 10000⟩]

/-- The tables of the run below. -/
theorem agreed_storeWithTimes : (storeWithTimes 0).Agreed := by
  have hstart := startsAgreed_storeWithTimes 0
  have hlinked : (storeWithTimes 0).Linked := by
    constructor
    · exact hstart.keys
    · decide
    · decide
    · decide
    · decide
    · decide
    · decide
  exact ⟨⟨hlinked, by decide, by decide⟩, hstart.semicolon, hstart.time, hstart.longest, by decide⟩

/-- After one kill in the middle of a minute the duration is one minute ahead. -/
theorem killsCostMinutes_killedInATick :
    ∃ p, (program countingDriver epochEnvironment).execWhere
        (keepsCount countingDriver epochEnvironment)
        (.initial .linux (storeWithTimes 0) ⟨60000, 10000⟩) killedInATick = some p ∧
      p.db.durationOf "a" = 1 ∧ p.db.timelineDurationOf "a" = 0 ∧
      CostsMinutes (killedInATick.countP Action.isRestart) p := by
  have hend : ((program countingDriver epochEnvironment).execWhere
      (keepsCount countingDriver epochEnvironment)
      (.initial .linux (storeWithTimes 0) ⟨60000, 10000⟩) killedInATick).map (fun p =>
        decide (p.db.durationOf "a" = 1 ∧ p.db.timelineDurationOf "a" = 0)) = some true := by
    decide
  obtain ⟨p, hexec, hp⟩ := Option.map_eq_some_iff.mp hend
  obtain ⟨hduration, htimeline⟩ := of_decide_eq_true hp
  exact ⟨p, hexec, hduration, htimeline,
    killsCostMinutes agreed_storeWithTimes (System.runs_of_execWhere hexec)⟩

end TimeTracker
