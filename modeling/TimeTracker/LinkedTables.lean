import TimeTracker.CheckpointCalls
import TimeTracker.TimelineDays

/-!
# What every interleaving keeps

The threads of the program and the calls of its clients write to the tables one statement at a time,
in any order, and the database may refuse any of them. Two names may become equal that way, and two
checkpoints of an app active. What a single statement keeps is safe.

* `Store.Linked`: the foreign keys, the two indices that tell the rows of an app apart, and the
  columns of a checkpoint that are written together.
* `Store.Linked.handlerStep`, `Store.Linked.callStep`: a statement of an event handler, and one of a
  call.
* `lives`: the program, killed at any moment and started again.
* **`linkedTables`**: every run keeps the tables linked.
-/

namespace TimeTracker

open Transition

/-- The app and the name of a checkpoint. -/
def Checkpoints.Model.label (c : Checkpoints.Model) : Int × String := (c.appId, c.name)

structure Store.Linked (db : Store) : Prop where
  timelineApps : db.timelineKeys
  timelineCheckpoints : ∀ t ∈ db.timeline.rows, ∀ id ∈ t.checkpointId, id ∈ db.checkpoints.keys
  checkpointApps : ∀ c ∈ db.checkpoints.rows, c.appId ∈ db.apps.keys
  aliasApps : ∀ a ∈ db.processAliases.rows, a.appId ∈ db.apps.keys
  /-- the unique index on `name` and `app_id` -/
  labels : (db.checkpoints.rows.map Checkpoints.Model.label).Nodup
  days : db.oneEntryPerDay
  activated : activatedWhenActive db

/-- A database without rows. -/
theorem Store.linked_empty (backend : Backend) :
    Store.Linked ⟨backend, .empty, .empty, .empty, .empty⟩ := by
  constructor
  · intro t ht
    cases ht
  · intro t ht
    cases ht
  · intro c hc
    cases hc
  · intro a ha
    cases ha
  · exact List.nodup_nil
  · exact List.nodup_nil
  · intro c hc
    cases hc

section
variable {db db' : Store}

/-! ## Apps -/

/-- The apps are rewritten or joined by others; nothing else is touched. -/
theorem Store.Linked.ofApps (h : db.Linked) {apps : Table Apps.Model}
    (hkeys : db.apps.keys ⊆ apps.keys) : Store.Linked { db with apps } where
  timelineApps t ht := hkeys (h.timelineApps t ht)
  timelineCheckpoints := h.timelineCheckpoints
  checkpointApps c hc := hkeys (h.checkpointApps c hc)
  aliasApps a ha := hkeys (h.aliasApps a ha)
  labels := h.labels
  days := h.days
  activated := h.activated

/-- A new app, whatever its name. -/
theorem Store.Linked.insertApp (h : db.Linked) {app : Apps.Model} {apps : Table Apps.Model}
    (hins : db.apps.insert app = some apps) : Store.Linked { db with apps } := by
  apply h.ofApps
  rw [Table.keys_insert hins]
  exact List.subset_append_left _ _

/-- An update of an app. -/
theorem Store.Linked.updateApp (h : db.Linked) {id : Int} {set : Apps.Model → Apps.Model}
    {hset : ∀ a, Keyed.key (set a) = Keyed.key a} (hupd : db.updateApp id set hset = .ok db') :
    db'.Linked := by
  obtain ⟨apps, htable, rfl⟩ := Store.updateApp_eq_ok.mp hupd
  apply h.ofApps
  rw [Table.keys_update htable]
  exact List.Subset.refl _

/-- An app whose id is not among the deleted ones stays. -/
theorem mem_keys_deleteApps {p : String} {id : Int} (hid : id ∈ db.apps.keys)
    (hkept : id ∉ (db.apps.all fun a => a.name = some p).map Apps.Model.id) :
    id ∈ (db.deleteApps p).apps.keys := by
  obtain ⟨a, ha, rfl⟩ := Table.mem_keys.mp hid
  apply Table.mem_keys.mpr
  refine ⟨a, Table.mem_delete.mpr ⟨ha, ?_⟩, rfl⟩
  apply decide_eq_false
  intro hname
  exact hkept (List.mem_map.mpr ⟨a, Table.mem_all.mpr ⟨ha, decide_eq_true hname⟩, rfl⟩)

/-- What refers to an app goes with it. -/
theorem Store.Linked.deleteApps (h : db.Linked) (p : String) : (db.deleteApps p).Linked where
  timelineApps := Store.timelineKeys_deleteApps h.timelineApps p
  timelineCheckpoints t ht id hid := by
    obtain ⟨t', ht', rfl⟩ := List.mem_map.mp ht
    obtain ⟨hold, -⟩ := Table.mem_delete.mp ht'
    -- the reference is left only if the checkpoint is
    by_cases hgone : t'.checkpointId ∈ ((db.checkpoints.all fun c =>
        c.appId ∈ (db.apps.all fun a => a.name = some p).map Apps.Model.id).map
        Checkpoints.Model.id).map some
    · rw [if_pos hgone] at hid
      cases hid
    · rw [if_neg hgone] at hid
      obtain ⟨c, hc, rfl⟩ := Table.mem_keys.mp (h.timelineCheckpoints t' hold id hid)
      apply Table.mem_keys.mpr
      refine ⟨c, Table.mem_delete.mpr ⟨hc, ?_⟩, rfl⟩
      apply decide_eq_false
      intro happ
      apply hgone
      rw [Option.mem_def.mp hid]
      exact List.mem_map_of_mem (List.mem_map_of_mem (Table.mem_all.mpr ⟨hc, decide_eq_true happ⟩))
  checkpointApps c hc := by
    obtain ⟨hold, hkept⟩ := Table.mem_delete.mp hc
    exact mem_keys_deleteApps (h.checkpointApps c hold) (of_decide_eq_false hkept)
  aliasApps a ha := by
    obtain ⟨hold, hkept⟩ := Table.mem_delete.mp ha
    exact mem_keys_deleteApps (h.aliasApps a hold) (of_decide_eq_false hkept)
  labels := h.labels.sublist (List.filter_sublist.map _)
  days := h.days.sublist ((entries_deleteApps_sublist db p).map _)
  activated c hc := h.activated c (Table.mem_delete.mp hc).1

/-! ## Checkpoints -/

/-- A checkpoint is updated, with the columns others refer to left alone. -/
theorem Store.Linked.updateCheckpoint (h : db.Linked) {id : Int}
    {set : Checkpoints.Model → Checkpoints.Model} {hset : ∀ c, Keyed.key (set c) = Keyed.key c}
    (hlabel : ∀ c, (set c).label = c.label)
    (hactivated : ∀ c, (c.activatedAt.isSome = true ↔ c.isActive = some true) →
      ((set c).activatedAt.isSome = true ↔ (set c).isActive = some true))
    (hupd : db.updateCheckpoint id set hset = .ok db') : db'.Linked := by
  obtain ⟨checkpoints, htable, rfl⟩ := Store.updateCheckpoint_eq_ok.mp hupd
  have hmem := fun {c : Checkpoints.Model} => (Table.mem_update (x := c) htable).mp
  constructor
  · exact h.timelineApps
  · intro t ht id' hid'
    show id' ∈ checkpoints.keys
    rw [Table.keys_update htable]
    exact h.timelineCheckpoints t ht id' hid'
  · intro c hc
    obtain ⟨r, hr, rfl⟩ := hmem hc
    have happ : (set r).appId = r.appId := congrArg Prod.fst (hlabel r)
    split
    · rw [happ]
      exact h.checkpointApps r hr
    · exact h.checkpointApps r hr
  · exact h.aliasApps
  · show (checkpoints.rows.map _).Nodup
    rw [Table.map_update _ hlabel htable]
    exact h.labels
  · exact h.days
  · intro c hc
    obtain ⟨r, hr, rfl⟩ := hmem hc
    split
    · exact hactivated r (h.activated r hr)
    · exact h.activated r hr

/-- A new checkpoint, whose name is new to its app. -/
theorem Store.Linked.insertCheckpoint (h : db.Linked) {name : String} {description : Option String}
    {appId candidate : Int} {now : NaiveDateTime}
    (hins : db.insertCheckpoint candidate
      (CreateCheckpoint.newCheckpoint name description appId now) = .ok db') : db'.Linked := by
  have hunused : (appId, name) ∉ db.checkpoints.rows.map Checkpoints.Model.label := by
    unfold Store.insertCheckpoint at hins
    cases hbackend : db.backend with
    | postgres =>
      rw [hbackend] at hins
      cases hins
    | sqlite =>
      rw [hbackend] at hins
      dsimp only at hins
      split at hins
      · cases hins
      · split at hins
        · cases hins
        · next hunused =>
          intro hmem
          obtain ⟨c, hc, hlabel⟩ := List.mem_map.mp hmem
          exact hunused ⟨c, hc, congrArg Prod.snd hlabel, congrArg Prod.fst hlabel⟩
  obtain ⟨happ, checkpoints, htable, rfl⟩ := Store.insertCheckpoint_eq_ok hins
  have hmem := fun {c : Checkpoints.Model} => (Table.mem_insert (x := c) htable).mp
  constructor
  · exact h.timelineApps
  · intro t ht id hid
    show id ∈ checkpoints.keys
    rw [Table.keys_insert htable]
    exact List.mem_append_left _ (h.timelineCheckpoints t ht id hid)
  · intro c hc
    rcases hmem hc with hold | rfl
    · exact h.checkpointApps c hold
    · exact happ
  · exact h.aliasApps
  · show (checkpoints.rows.map _).Nodup
    rw [(Table.insert_eq_some.mp htable).2, List.map_append, List.map_singleton,
      ← List.concat_eq_append]
    exact h.labels.concat hunused
  · exact h.days
  -- the new row is not active
  · intro c hc
    rcases hmem hc with hold | rfl
    · exact h.activated c hold
    · constructor
      · intro hsome
        cases hsome
      · intro hactive
        cases hactive

/-- The rows of the timeline let go of a deleted checkpoint. -/
theorem Store.Linked.deleteCheckpoint (h : db.Linked) (checkpointId : Int) :
    (db.deleteCheckpoint checkpointId).Linked where
  timelineApps t ht := by
    obtain ⟨t', ht', -, happ⟩ := Store.of_mem_timeline_deleteCheckpoint ht
    rw [← happ]
    exact h.timelineApps t' ht'
  timelineCheckpoints t ht id hid := by
    obtain ⟨t', ht', rfl⟩ := List.mem_map.mp ht
    by_cases hgone : t'.checkpointId = some checkpointId
    · rw [if_pos hgone] at hid
      cases hid
    · rw [if_neg hgone] at hid
      obtain ⟨c, hc, rfl⟩ := Table.mem_keys.mp (h.timelineCheckpoints t' ht' id hid)
      apply Table.mem_keys.mpr
      refine ⟨c, Table.mem_delete.mpr ⟨hc, ?_⟩, rfl⟩
      apply decide_eq_false
      rintro rfl
      exact hgone hid
  checkpointApps c hc := h.checkpointApps c (Table.mem_delete.mp hc).1
  aliasApps := h.aliasApps
  labels := h.labels.sublist (List.filter_sublist.map _)
  days := by
    unfold Store.oneEntryPerDay
    rw [entries_deleteCheckpoint]
    exact h.days
  activated c hc := h.activated c (Table.mem_delete.mp hc).1

/-! ## The timeline -/

/-- A new row of the timeline refers to an app and a checkpoint that are there. -/
theorem Store.Linked.insertTimeline (h : db.Linked) {row : Timeline.Model}
    (hdays : db'.oneEntryPerDay) (hins : db.insertTimeline row = .ok db') : db'.Linked := by
  have hcheckpoint : ∀ id ∈ row.checkpointId, id ∈ db.checkpoints.keys := by
    unfold Store.insertTimeline at hins
    split at hins
    · cases hins
    · split at hins
      · cases hins
      · next hfound =>
        intro id hid
        by_contra hmissing
        exact hfound ⟨id, hid, hmissing⟩
  have happs := Store.timelineKeys_insertTimeline h.timelineApps hins
  obtain ⟨-, timeline, htable, rfl⟩ := Store.insertTimeline_eq_ok hins
  constructor
  · exact happs
  · intro t ht
    rcases (Table.mem_insert htable).mp ht with hold | rfl
    · exact h.timelineCheckpoints t hold
    · exact hcheckpoint
  · exact h.checkpointApps
  · exact h.aliasApps
  · exact h.labels
  · exact hdays
  · exact h.activated

/-- Counting in a row of the timeline keeps what it refers to. -/
theorem Store.Linked.updateTimeline (h : db.Linked) {id newDuration : Int}
    (hdays : db'.oneEntryPerDay)
    (hupd : db.updateTimeline id (setTimelineDuration newDuration) (fun _ => rfl) = .ok db') :
    db'.Linked := by
  have happs := Store.timelineKeys_updateTimeline h.timelineApps hupd fun _ => rfl
  obtain ⟨timeline, htable, rfl⟩ := Store.updateTimeline_eq_ok.mp hupd
  constructor
  · exact happs
  · intro t ht
    obtain ⟨r, hr, rfl⟩ := (Table.mem_update htable).mp ht
    split
    · exact h.timelineCheckpoints r hr
    · exact h.timelineCheckpoints r hr
  · exact h.checkpointApps
  · exact h.aliasApps
  · exact h.labels
  · exact hdays
  · exact h.activated

/-! ## A statement -/

/-- **A statement of a handler** keeps the tables linked, if the handler still has what it relies
on. -/
theorem Store.Linked.handlerStep (h : db.Linked) {inp : Input} {hd : Handler}
    {next : Option Handler} (hawaits : hd.awaits db) (hstep : hd.step inp db = (next, db')) :
    db'.Linked := by
  have hdays := Store.oneEntryPerDay_of_step h.days hawaits hstep
  cases Handler.statement_of_step hstep with
  | longestWritten hupd | countWritten hupd => exact h.updateApp hupd
  | @checkpointWritten counter _ _ _ _ _ _ _ hupd =>
    apply h.updateCheckpoint _ _ hupd
    · intro _
      cases counter <;> rfl
    -- counting in a checkpoint neither activates nor deactivates it
    · intro c hc
      rw [Counter.setCheckpoint_activatedAt, Counter.setCheckpoint_isActive]
      exact hc
  | entryWritten hupd => exact h.updateTimeline hdays hupd
  | entryInserted hins => exact h.insertTimeline hdays hins
  | _ => exact h

/-- A statement of an activation writes `is_active` and `activated_at` together. -/
theorem Store.Linked.activationStep (h : db.Linked) {inp : Input} {call call' : SetCheckpointActive}
    (hstep : call.step inp db = some (call', db')) : db'.Linked := by
  rcases SetCheckpointActive.step_cases hstep with ⟨_, -, rfl⟩ | ⟨_, _, _, -, rfl, -⟩ |
    ⟨_, -, rfl, -⟩ | ⟨_, _, _, _, -, hupd, -⟩ | ⟨_, isActive, -, hupd, -⟩
  · exact h
  · exact h
  · exact h
  · apply h.updateCheckpoint _ _ hupd
    · exact fun _ => rfl
    · intro _ _
      constructor <;> intro hset <;> cases hset
  · apply h.updateCheckpoint _ _ hupd
    · exact fun _ => rfl
    · intro _ _
      cases isActive
      · constructor <;> intro hset <;> cases hset
      · exact iff_of_true rfl rfl

/-- The insert of `create_checkpoint`. -/
theorem Store.Linked.createStep (h : db.Linked) {inp : Input} {call call' : CreateCheckpoint}
    (hstep : call.step inp db = some (call', db')) : db'.Linked := by
  cases call with
  | returned _ => cases hstep
  | insert name description appId =>
    simp only [CreateCheckpoint.step] at hstep
    split at hstep
    · cases hstep
      exact h
    · next hstatement =>
      cases hstep
      exact h.insertCheckpoint (Input.statement_eq_ok.mp hstatement).2

end

/-- **A statement of a call** keeps the tables linked. -/
theorem Store.Linked.callStep {inp : Input} {call call' : Call} {s s' : Shared}
    (h : s.db.Linked) (hcall : call.step inp s = some (call', s')) : s'.db.Linked := by
  rcases Call.step_machine hcall with ⟨a, a', rfl, rfl, hstep⟩ | ⟨d, d', rfl, rfl, hstep⟩ |
    ⟨p, p', rfl, rfl, hstep⟩ | ⟨a, a', db, rfl, rfl, hstep, rfl⟩ |
    ⟨a, a', db, rfl, rfl, hstep, rfl⟩ | ⟨a, a', db, rfl, rfl, hstep, rfl⟩
  · rcases AddProcess.step_shared hstep with ⟨_, rfl⟩ | ⟨_, _, _, _, -, -, -, hins, rfl⟩
    · exact h
    · exact h.insertApp hins
  · rcases DeleteProcess.step_shared hstep with ⟨_, rfl⟩ | ⟨p, -, -, rfl⟩
    · exact h
    · exact h.deleteApps p
  · rcases Pause.step_cases hstep with ⟨-, -, rfl⟩ | ⟨_, -, -, rfl⟩
    · exact h
    · exact h
  · exact h.activationStep hstep
  · exact h.createStep hstep
  · obtain ⟨id, -, ⟨_, -, rfl⟩ | ⟨-, rfl⟩⟩ := DeleteCheckpoint.step_cases hstep
    · exact h
    · exact h.deleteCheckpoint id

/-! ## Every run -/

/-- A step of the program, or its end and the next start. -/
inductive LivesLabel where
  | step (l : Label)
  /-- the program is killed, wherever its threads are, and started again; its clients are going to
  make `calls` -/
  | restart (calls : List Call)

def Config.livesStep (c : Config) : LivesLabel → Option Config
  | .step l => c.step l
  | .restart calls =>
    if calls.all Call.fresh then some (.initial c.shared.platform c.shared.db calls) else none

/-- The program over several lives. -/
def lives : System Config LivesLabel := ⟨Config.livesStep⟩

/-- The tables are linked, and the event loop has what it relies on. -/
structure LinkedInvariant (c : Config) : Prop where
  linked : c.shared.db.Linked
  timeline : TimelineInvariant c

theorem linkedInvariant_initial {platform : Platform} {db : Store} {calls : List Call}
    (hdb : db.Linked) : LinkedInvariant (.initial platform db calls) := by
  refine ⟨hdb, hdb.days, ?_⟩
  intro _ _ hloop
  cases hloop

/-- A step of any thread. -/
theorem Store.Linked.step {c c' : Config} {l : Label} (h : c.shared.db.Linked)
    (htimeline : TimelineInvariant c) (hstep : tracker.step c l = some c') :
    c'.shared.db.Linked := by
  cases l with
  | handle inp =>
    obtain ⟨loop, events, db, hloop, rfl⟩ := step_handle hstep
    rcases EventLoop.step_cases hloop with ⟨_, -, -, rfl, -⟩ | ⟨event, hd, next, hhd, -, hrun, -⟩
    · exact h
    · exact h.handlerStep (htimeline.awaits event hd hhd) hrun
  | call k inp =>
    obtain ⟨call, call', shared, -, hcall, rfl⟩ := step_call hstep
    exact h.callStep hcall
  | _ =>
    obtain ⟨-, -, hdb⟩ := step_of_onlyReads rfl hstep
    rw [hdb]
    exact h

theorem linkedInvariant_step {c c' : Config} {l : LivesLabel} (hinv : LinkedInvariant c)
    (h : lives.step c l = some c') : LinkedInvariant c' := by
  cases l with
  | step l =>
    constructor
    · exact hinv.linked.step hinv.timeline h
    · exact timelineInvariant_step c l c' hinv.timeline h
  | restart calls =>
    simp only [lives, Config.livesStep] at h
    split at h
    · cases h
      exact linkedInvariant_initial hinv.linked
    · cases h

/-- **The tables stay linked** over every interleaving of the statements of all threads and calls,
with any of them refused and the program killed at any moment. -/
theorem linkedTables {platform : Platform} {db : Store} {calls : List Call}
    {ls : List LivesLabel} {c : Config} (hdb : db.Linked)
    (h : lives.Runs (fun _ _ => True) (.initial platform db calls) ls c) :
    c.shared.db.Linked := by
  have hinv := h.invariant (fun _ _ _ hinv _ hstep => linkedInvariant_step hinv hstep)
    (linkedInvariant_initial hdb)
  exact hinv.linked

/-- The app `a` with a checkpoint that is active, and a day spent under it. -/
def dayUnderCheckpoint : Store :=
  { storeWithA with
    checkpoints := ⟨[activeCheckpoint 1 "first"], by decide⟩
    timeline := ⟨[⟨1, NaiveDateTime.unixEpoch.date, some 7, 1, some 1⟩], by decide⟩ }

theorem linked_dayUnderCheckpoint : dayUnderCheckpoint.Linked := by
  constructor <;> decide

/-- The app is deleted between two statements that activate its checkpoint, and added again in the
next life. -/
def deletedWhileActivated : List LivesLabel :=
  [.step (.call 0 {}), .step (.call 1 {}), .step (.call 0 {}), .step (.call 0 {}),
    .restart [.addProcess (.getProcesses "a" "/a"), .createCheckpoint (.insert "first" none 1)],
    .step (.call 0 {}), .step (.call 0 {}), .step (.call 0 {}), .step (.call 1 {})]

theorem linkedTables_deletedWhileActivated :
    ∃ c, lives.execWhere (fun _ _ => True) (.initial .linux dayUnderCheckpoint
        [.setCheckpointActive (.find 1 true), .deleteProcess (.deleteData "a")])
        deletedWhileActivated = some c ∧
      c.shared.db.checkpoints.keys = [1] ∧ c.shared.db.Linked := by
  have hend : (lives.execWhere (fun _ _ => True) (.initial .linux dayUnderCheckpoint
      [.setCheckpointActive (.find 1 true), .deleteProcess (.deleteData "a")])
      deletedWhileActivated).map (fun c => c.shared.db.checkpoints.keys) = some [1] := by decide
  obtain ⟨c, hexec, hkeys⟩ := Option.map_eq_some_iff.mp hend
  exact ⟨c, hexec, hkeys, linkedTables linked_dayUnderCheckpoint
    (System.runs_of_execWhere hexec)⟩

end TimeTracker
