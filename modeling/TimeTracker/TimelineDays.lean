import TimeTracker.Steps

/-!
# One timeline row for each app and day

`handle_timeline` looks up today's row of an app, and counts in it or inserts it, one statement
at a time; the table has no unique index on app and day. Between its statements apps and
checkpoints may be deleted, and ids of deleted apps given to new ones, but nothing else adds a
row or counts in one.

* **`oneRowPerDay`**: in every reachable state the ids and the pairs of app and day are pairwise
  distinct, and a `Timeline` event raises the duration of a row that stays by at most 1.
* **`Handler.awaits`**: what a handler has read about the timeline and relies on.
* **`Handler.step_entries`**: the three things a statement of a handler can do to the timeline.
-/

namespace TimeTracker

/-! ## What a handler relies on -/

/-- A row of the timeline but for its checkpoint. -/
structure TimelineEntry where
  id : Int
  appId : Int
  date : NaiveDate
  duration : Option Int
deriving DecidableEq

def Timeline.Model.entry (t : Timeline.Model) : TimelineEntry := ⟨t.id, t.appId, t.date, t.duration⟩

def Store.timelineEntries (db : Store) : List TimelineEntry :=
  db.timeline.rows.map Timeline.Model.entry

/-- The app and the day of a row. -/
def TimelineEntry.day (t : TimelineEntry) : Int × NaiveDate := (t.appId, t.date)

/-- The rows of the timeline are one for each app and day. -/
def Store.oneEntryPerDay (db : Store) : Prop := (db.timelineEntries.map TimelineEntry.day).Nodup

instance (db : Store) : Decidable db.oneEntryPerDay := inferInstanceAs (Decidable (List.Nodup _))

/-- A handler that is going to count in a row has read its duration, and one that is going to
insert a row has found none for its app and day. -/
def Handler.awaits (db : Store) : Handler → Prop
  | .timelineUpdate entry => ∀ t ∈ db.timelineEntries, t.id = entry.id → t.duration = entry.duration
  | .timelineMaxId appId today => (appId, today) ∉ db.timelineEntries.map TimelineEntry.day
  | .timelineFirstCheckpoint appId today _ =>
    (appId, today) ∉ db.timelineEntries.map TimelineEntry.day
  | .timelineInsert row => (row.appId, row.date) ∉ db.timelineEntries.map TimelineEntry.day
  | _ => True

/-- The rows are one for each app and day, and the running handler has what it relies on. -/
structure TimelineInvariant (c : Config) : Prop where
  days : c.shared.db.oneEntryPerDay
  awaits : ∀ event hd, c.loop = .handling event hd → hd.awaits c.shared.db

/-! ## What is deleted -/

section
variable {db db' : Store}

theorem entries_deleteApps_sublist (db : Store) (p : String) :
    (db.deleteApps p).timelineEntries.Sublist db.timelineEntries := by
  have hsame : ∀ (q : Timeline.Model → Prop) [DecidablePred q],
      Timeline.Model.entry ∘ (fun t => if q t then { t with checkpointId := none } else t) =
        Timeline.Model.entry := by
    intro q _
    funext t
    show Timeline.Model.entry (if q t then _ else t) = _
    split <;> rfl
  unfold Store.timelineEntries Store.deleteApps Table.updateAll Table.delete
  rw [List.map_map, hsame]
  exact List.filter_sublist.map _

theorem entries_deleteCheckpoint (db : Store) (id : Int) :
    (db.deleteCheckpoint id).timelineEntries = db.timelineEntries := by
  unfold Store.timelineEntries Store.deleteCheckpoint Table.updateAll
  rw [List.map_map]
  refine List.map_congr_left fun t _ => ?_
  show Timeline.Model.entry (if _ then _ else t) = _
  split <;> rfl

/-- A call adds no row of the timeline and counts in none. -/
theorem Call.step_entries {inp : Input} {call call' : Call} {s s' : Shared}
    (h : call.step inp s = some (call', s')) :
    s'.db.timelineEntries.Sublist s.db.timelineEntries := by
  rcases Call.step_timeline h with hsame | ⟨p, -, rfl⟩ | ⟨id, -, rfl⟩
  · unfold Store.timelineEntries
    rw [hsame]
  · exact entries_deleteApps_sublist s.db p
  · rw [entries_deleteCheckpoint]

/-- What a handler relies on is not disturbed by rows that go. -/
theorem Handler.awaits_of_subset {hd : Handler} (hawaits : hd.awaits db)
    (hsub : db'.timelineEntries ⊆ db.timelineEntries) : hd.awaits db' := by
  have hdays : ∀ day, day ∉ db.timelineEntries.map TimelineEntry.day →
      day ∉ db'.timelineEntries.map TimelineEntry.day := by
    intro day hnot hmem
    exact hnot (List.map_subset _ hsub hmem)
  cases hd with
  | timelineUpdate entry => exact fun t ht hid => hawaits t (hsub ht) hid
  | timelineMaxId appId today => exact hdays _ hawaits
  | timelineFirstCheckpoint appId today nextId => exact hdays _ hawaits
  | timelineInsert row => exact hdays _ hawaits
  | _ => trivial

end

/-! ## What a handler writes -/

section
variable {inp : Input} {hd hd' : Handler} {next : Option Handler} {db db' : Store}

/-- The row with this id counts one more. -/
def countedIn (id : Int) (t : TimelineEntry) : TimelineEntry :=
  if t.id = id then { t with duration := some (t.duration.getD 0 + 1) } else t

theorem countedIn_id (id : Int) (t : TimelineEntry) : (countedIn id t).id = t.id := by
  unfold countedIn
  split <;> rfl

theorem countedIn_day (id : Int) (t : TimelineEntry) : (countedIn id t).day = t.day := by
  unfold countedIn
  split <;> rfl

/-- An update of the timeline writes the duration of one row. -/
theorem entries_updateTimeline {entry : Timeline.Model}
    (hawaits : ∀ t ∈ db.timelineEntries, t.id = entry.id → t.duration = entry.duration)
    (h : db.updateTimeline entry.id (setTimelineDuration (entry.duration.getD 0 + 1))
      (fun _ => rfl) = .ok db') :
    db'.timelineEntries = db.timelineEntries.map (countedIn entry.id) := by
  obtain ⟨timeline, hupd, rfl⟩ := Store.updateTimeline_eq_ok.mp h
  unfold Store.timelineEntries at hawaits ⊢
  show timeline.rows.map Timeline.Model.entry = _
  rw [(Table.update_eq_some.mp hupd).2, Table.rewrite, List.map_map, List.map_map]
  refine List.map_congr_left fun t ht => ?_
  -- what is written is the duration that was read, plus one; the row still has that duration
  have hread := hawaits t.entry (List.mem_map_of_mem ht)
  show Timeline.Model.entry (if t.id = entry.id then _ else t) = countedIn entry.id t.entry
  unfold countedIn
  by_cases hid : t.id = entry.id
  · have hduration : t.duration = entry.duration := hread hid
    rw [if_pos hid, if_pos (show t.entry.id = entry.id from hid)]
    show (⟨t.id, t.appId, t.date, some (entry.duration.getD 0 + 1)⟩ : TimelineEntry) =
      ⟨t.id, t.appId, t.date, some (t.duration.getD 0 + 1)⟩
    rw [hduration]
  · rw [if_neg hid, if_neg (show ¬ t.entry.id = entry.id from hid)]

/-- **A statement of a handler**, seen from the timeline: nothing, one more in one row, or a new
row. The last two end the event. -/
theorem Handler.step_entries (hawaits : hd.awaits db) (h : hd.step inp db = (next, db')) :
    db'.timelineEntries = db.timelineEntries ∨
    (next = none ∧ ∃ id, db'.timelineEntries = db.timelineEntries.map (countedIn id)) ∨
    (next = none ∧ ∃ new : TimelineEntry, new.id ∉ db.timeline.keys ∧
      new.day ∉ db.timelineEntries.map TimelineEntry.day ∧
      db'.timelineEntries = db.timelineEntries ++ [new]) := by
  cases Handler.statement_of_step h with
  | longestWritten hupd | countWritten hupd =>
    obtain ⟨_, -, rfl⟩ := Store.updateApp_eq_ok.mp hupd
    exact .inl rfl
  | checkpointWritten _ hupd =>
    obtain ⟨_, -, rfl⟩ := Store.updateCheckpoint_eq_ok.mp hupd
    exact .inl rfl
  | entryWritten hupd => exact .inr (.inl ⟨rfl, _, entries_updateTimeline hawaits hupd⟩)
  | @entryInserted row _ hins =>
    obtain ⟨-, timeline, htable, rfl⟩ := Store.insertTimeline_eq_ok hins
    obtain ⟨hnew, hrows⟩ := Table.insert_eq_some.mp htable
    refine .inr (.inr ⟨rfl, row.entry, hnew, hawaits, ?_⟩)
    show timeline.rows.map Timeline.Model.entry = _
    rw [hrows, List.map_append]
    rfl
  | _ => exact .inl rfl

/-- The next statement of a handler relies on what the last one has read. -/
theorem Handler.step_awaits (hawaits : hd.awaits db) (h : hd.step inp db = (some hd', db')) :
    hd'.awaits db' := by
  cases Handler.statement_of_step h with
  | @entryFound appId today entry hfind =>
    -- the row that was found is the only one with its id
    intro t ht hid
    obtain ⟨r, hr, rfl⟩ := List.mem_map.mp ht
    have heq : r = entry := Table.eq_of_key_eq hr (Table.mem_of_one hfind).1 hid
    rw [heq]
    rfl
  | @entryMissing appId today hfind =>
    intro hmem
    obtain ⟨t, ht, hday⟩ := List.mem_map.mp hmem
    obtain ⟨r, hr, rfl⟩ := List.mem_map.mp ht
    have happ : r.appId = appId := congrArg Prod.fst hday
    have hdate : r.date = today := congrArg Prod.snd hday
    simpa [happ, hdate] using Table.one_eq_none hfind r hr
  | idFound | checkpointChosen => exact hawaits
  | @countWritten counter _ _ _ => cases counter <;> trivial
  | activeFound hnext | checkpointSkipped hnext | checkpointWritten hnext _
  | checkpointRefused hnext =>
    obtain ⟨checkpoint, rest, -, rfl⟩ := forCheckpoints_eq_some hnext
    trivial
  | _ => trivial

/-- The handler of a new event has read nothing yet. -/
theorem awaits_of_handle {event : Event} (h : handle event = some hd) : hd.awaits db := by
  have hname := appName_of_handle h
  cases hd <;> first | exact True.intro | cases hname

end

/-! ## Every step -/

section
variable {c c' : Config}

theorem Store.oneEntryPerDay_of_step {db db' : Store} {hd : Handler} {next : Option Handler}
    {inp : Input} (hdays : db.oneEntryPerDay) (hawaits : hd.awaits db)
    (h : hd.step inp db = (next, db')) : db'.oneEntryPerDay := by
  unfold Store.oneEntryPerDay at hdays ⊢
  rcases Handler.step_entries hawaits h with hsame | ⟨-, id, hcount⟩ | ⟨-, new, -, hfree, hinsert⟩
  · rwa [hsame]
  · have hday : TimelineEntry.day ∘ countedIn id = TimelineEntry.day := funext (countedIn_day id)
    rwa [hcount, List.map_map, hday]
  -- the handler has looked for a row of this day and found none, and none has come since
  · rw [hinsert, List.map_append, List.nodup_append]
    refine ⟨hdays, List.nodup_singleton _, ?_⟩
    intro day hday day' hnew heq
    rw [List.map_singleton, List.mem_singleton] at hnew
    exact hfree (by rw [← hnew, ← heq]; exact hday)

/-- A step that only takes rows away. -/
theorem TimelineInvariant.of_sublist (hinv : TimelineInvariant c) (hloop : c'.loop = c.loop)
    (hsub : c'.shared.db.timelineEntries.Sublist c.shared.db.timelineEntries) :
    TimelineInvariant c' := by
  refine ⟨hinv.days.sublist (hsub.map _), fun event hd h => ?_⟩
  rw [hloop] at h
  exact Handler.awaits_of_subset (hinv.awaits event hd h) hsub.subset

/-- **Every step keeps the rows one for each app and day.** -/
theorem timelineInvariant_step (c : Config) (l : Label) (c' : Config) (hinv : TimelineInvariant c)
    (h : tracker.step c l = some c') : TimelineInvariant c' := by
  cases l with
  | handle inp =>
    obtain ⟨loop, events, db, hstep, rfl⟩ := step_handle h
    rcases EventLoop.step_cases hstep with ⟨event, -, -, rfl, rfl⟩ |
      ⟨event, hd, next, hloop, -, hnext, rfl⟩
    · refine ⟨hinv.days, fun event' hd' h' => ?_⟩
      change EventLoop.resume event (handle event) = .handling event' hd' at h'
      cases hhandle : handle event with
      | none => rw [hhandle] at h'; cases h'
      | some hd =>
        rw [hhandle] at h'
        cases h'
        exact awaits_of_handle hhandle
    · have hawaits := hinv.awaits event hd hloop
      refine ⟨Store.oneEntryPerDay_of_step hinv.days hawaits hnext, fun event' hd' h' => ?_⟩
      change EventLoop.resume event next = .handling event' hd' at h'
      cases next with
      | none => cases h'
      | some hd'' =>
        cases h'
        exact Handler.step_awaits hawaits hnext
  | call k inp =>
    obtain ⟨call, call', shared, -, hstep, rfl⟩ := step_call h
    exact hinv.of_sublist rfl (Call.step_entries hstep)
  | _ =>
    obtain ⟨-, hloop, hdb⟩ := step_of_onlyReads rfl h
    exact hinv.of_sublist hloop (by rw [hdb])

end

/-! ## A `Timeline` event as a whole -/

/-- The event loop is handling a `Timeline` event, and the row `id` is there. -/
def Config.countsBeside (c : Config) (id : Int) : Prop :=
  (∃ item hd, c.loop = .handling (item, .timeline) hd) ∧ id ∈ c.shared.db.timeline.keys

/-- In the course of a `Timeline` event the row `id` has kept its duration, or the event has
ended and raised it by 1. -/
structure RaisedOnce (id : Int) (duration : Int) (c : Config) : Prop where
  invariant : TimelineInvariant c
  raised : ∀ t ∈ c.shared.db.timelineEntries, t.id = id →
    t.duration.getD 0 = duration ∨ c.loop = .idle ∧ t.duration.getD 0 = duration + 1

theorem raisedOnce_step {id duration : Int} {c c' : Config} {l : Label}
    (hinv : RaisedOnce id duration c) (hbeside : c.countsBeside id)
    (h : tracker.step c l = some c') : RaisedOnce id duration c' := by
  obtain ⟨⟨item, hd, hloop⟩, hmem⟩ := hbeside
  have hnext := timelineInvariant_step c l c' hinv.invariant h
  -- the event has not ended before this step
  have hkept : ∀ t ∈ c.shared.db.timelineEntries, t.id = id → t.duration.getD 0 = duration := by
    intro t ht hid
    refine (hinv.raised t ht hid).resolve_right fun hended => ?_
    rw [hloop] at hended
    cases hended.1
  have hsub : c'.shared.db.timelineEntries ⊆ c.shared.db.timelineEntries →
      RaisedOnce id duration c' := fun hsub =>
    ⟨hnext, fun t ht hid => .inl (hkept t (hsub ht) hid)⟩
  cases l with
  | handle inp =>
    obtain ⟨loop, events, db, hstep, rfl⟩ := step_handle h
    rcases EventLoop.step_cases hstep with ⟨_, hidle, -⟩ | ⟨event, hd', next, hhd, -, hrun, rfl⟩
    · rw [hloop] at hidle
      cases hidle
    · have hawaits := hinv.invariant.awaits event hd' hhd
      rcases Handler.step_entries hawaits hrun with hsame | ⟨rfl, id', hcount⟩ |
        ⟨-, new, hnew, -, hinsert⟩
      · exact hsub (by rw [hsame]; exact List.Subset.refl _)
      · refine ⟨hnext, fun t ht hid => ?_⟩
        change t ∈ db.timelineEntries at ht
        rw [hcount] at ht
        obtain ⟨r, hr, rfl⟩ := List.mem_map.mp ht
        rw [countedIn_id] at hid
        have hold := hkept r hr hid
        unfold countedIn
        by_cases hr' : r.id = id'
        · rw [if_pos hr']
          right
          exact ⟨rfl, by rw [← hold]; rfl⟩
        · rw [if_neg hr']
          exact .inl hold
      · refine ⟨hnext, fun t ht hid => .inl ?_⟩
        change t ∈ db.timelineEntries at ht
        rw [hinsert, List.mem_append, List.mem_singleton] at ht
        rcases ht with hold | rfl
        · exact hkept t hold hid
        · -- the new row has another id
          rw [hid] at hnew
          exact absurd hmem hnew
  | call k inp =>
    obtain ⟨call, call', shared, -, hstep, rfl⟩ := step_call h
    exact hsub (Call.step_entries hstep).subset
  | _ =>
    obtain ⟨-, -, hdb⟩ := step_of_onlyReads rfl h
    exact hsub (by rw [hdb]; exact List.Subset.refl _)

/-- Ids are distinct, pairs of app and day are distinct, and from this state on, up to the end
of the `Timeline` event that is being handled, a row that stays keeps its duration or gains 1. -/
structure Config.CountsOncePerDay (c : Config) : Prop where
  ids : (c.shared.db.timeline.rows.map fun t => t.id).Nodup
  days : (c.shared.db.timeline.rows.map fun t => (t.appId, t.date)).Nodup
  counted : ∀ ls c', ∀ t ∈ c.shared.db.timeline.rows, ∀ t' ∈ c'.shared.db.timeline.rows,
    t'.id = t.id → tracker.Runs (fun c _ => c.countsBeside t.id) c ls c' →
      t.duration.getD 0 ≤ t'.duration.getD 0 ∧ t'.duration.getD 0 ≤ t.duration.getD 0 + 1

/-- **One row for each app and day**, in every run of the program from a state in which the
event loop waits: whatever the clock says, whatever is deleted and whichever statement fails. -/
theorem oneRowPerDay {c₀ c : Config} {ls : List Label} (hidle : c₀.loop = .idle)
    (hdays : c₀.shared.db.oneEntryPerDay) (hrun : tracker.Runs (fun _ _ => True) c₀ ls c) :
    c.CountsOncePerDay := by
  have hstart : TimelineInvariant c₀ := ⟨hdays, fun event hd h => by rw [hidle] at h; cases h⟩
  have hinv : TimelineInvariant c :=
    hrun.invariant (fun c l c' hinv _ h => timelineInvariant_step c l c' hinv h) hstart
  refine ⟨c.shared.db.timeline.pk, ?_, fun ls' c' t ht t' ht' hid hevent => ?_⟩
  · have hdays := hinv.days
    unfold Store.oneEntryPerDay Store.timelineEntries at hdays
    rw [List.map_map] at hdays
    exact hdays
  -- from this state on, with the duration the row has now
  · have hself : RaisedOnce t.id (t.duration.getD 0) c := by
      refine ⟨hinv, fun e he heid => .inl ?_⟩
      obtain ⟨r, hr, rfl⟩ := List.mem_map.mp he
      rw [Table.eq_of_key_eq hr ht heid]
      rfl
    have hend : RaisedOnce t.id (t.duration.getD 0) c' :=
      hevent.invariant (fun _ _ _ hinv hbeside h => raisedOnce_step hinv hbeside h) hself
    have hcases := hend.raised t'.entry (List.mem_map_of_mem ht') hid
    change t'.duration.getD 0 = _ ∨ _ ∧ t'.duration.getD 0 = _ at hcases
    omega

/-! A run of the theorem: two `Timeline` events of `a` on one day, and the app is deleted and
added again between them. -/

/-- Two `Timeline` events of `a` are in the channel, and a client is going to delete `a`, and
to add it again. -/
def twoTimelineEvents : Config :=
  { Config.initial .linux storeWithA
      [.deleteProcess (.deleteData "a"), .addProcess (.getProcesses "a" "a")] with
    shared := { Shared.initial .linux storeWithA with
      events := [("a", .timeline), ("a", .timeline)] } }

/-- The first event inserts the row. After the second one has found its app, the app is deleted
and added again, with the same id; the read of the checkpoints fails, and a row is inserted. -/
def deleteBetween : List Label :=
  List.replicate 8 (.handle {}) ++ List.replicate 2 (.call 0 {}) ++
    List.replicate 4 (.call 1 {}) ++
    [.handle {}, .handle {}, .handle { err := some (.exec "locked") }, .handle {}]

/-- The row is a new one, under the old id. -/
theorem oneRowPerDay_deleteBetween :
    ∃ c, tracker.execWhere (fun _ _ => True) twoTimelineEvents deleteBetween = some c ∧
      c.shared.db.timelineEntries = [⟨1, 1, NaiveDateTime.unixEpoch.date, some 1⟩] ∧
      c.CountsOncePerDay := by
  have hend : (tracker.execWhere (fun _ _ => True) twoTimelineEvents deleteBetween).map (fun c =>
      decide (c.shared.db.timelineEntries = [⟨1, 1, NaiveDateTime.unixEpoch.date, some 1⟩])) =
        some true := by decide
  obtain ⟨c, hexec, hrows⟩ := Option.map_eq_some_iff.mp hend
  exact ⟨c, hexec, of_decide_eq_true hrows, oneRowPerDay rfl (by decide)
    (Transition.System.runs_of_execWhere hexec)⟩

end TimeTracker
