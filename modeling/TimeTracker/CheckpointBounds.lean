import TimeTracker.Operations

/-!
# A checkpoint within its app

A `Duration` or `Launches` event is counted in the app first and in its active checkpoints
afterwards, one statement each, and any of them may fail. The order is what matters: where the
app is not counted, its checkpoints are not either, and a checkpoint that misses an event only
falls behind.

* **`checkpoint_within_app`**: whatever fails, no checkpoint has counted more minutes or more
  sessions than its app, between any two statements.
* **`Bounded`** is the invariant of the tables, **`Handler.ready`** what a counting handler
  knows at each point: from the update of the app to the end, the copies of the checkpoints it
  still has to count in are one behind.
-/

namespace TimeTracker

/-! ## The tables -/

/-- The counter of an app has already counted what is still to be counted in `c`. -/
def Behind (counter : Counter) (db : Store) (c : Checkpoints.Model) : Prop :=
  ∀ a ∈ db.apps.rows, a.id = c.appId →
    (counter.ofCheckpoint c).getD 0 + 1 ≤ (counter.ofApp a).getD 0

/-- Every checkpoint belongs to an app that is there and has counted no more than it. -/
structure Bounded (db : Store) : Prop where
  nonneg : ∀ counter : Counter, ∀ a ∈ db.apps.rows, 0 ≤ (counter.ofApp a).getD 0
  app : ∀ c ∈ db.checkpoints.rows, c.appId ∈ db.apps.keys
  le : ∀ counter : Counter, ∀ c ∈ db.checkpoints.rows, ∀ a ∈ db.apps.rows, a.id = c.appId →
    (counter.ofCheckpoint c).getD 0 ≤ (counter.ofApp a).getD 0

section
variable {db db' : Store}

/-- Only `apps` and `checkpoints` matter. -/
theorem Bounded.congr (hb : Bounded db) (happs : db'.apps = db.apps)
    (hcheckpoints : db'.checkpoints = db.checkpoints) : Bounded db' := by
  refine ⟨?_, ?_, ?_⟩
  · rw [happs]
    exact hb.nonneg
  · rw [happs, hcheckpoints]
    exact hb.app
  · rw [happs, hcheckpoints]
    exact hb.le

/-- An update of an app that lowers no counter. -/
theorem Bounded.updateApp {id : Int} {set : Apps.Model → Apps.Model}
    {hset : ∀ a, Keyed.key (set a) = Keyed.key a} (hb : Bounded db)
    (hupd : db.updateApp id set hset = .ok db')
    (hle : ∀ counter : Counter, ∀ a ∈ db.apps.rows, a.id = id →
      (counter.ofApp a).getD 0 ≤ (counter.ofApp (set a)).getD 0) : Bounded db' := by
  obtain ⟨apps, htable, rfl⟩ := Store.updateApp_eq_ok.mp hupd
  -- a row afterwards is a row before, under the same id and with counters at least as large
  have hrow : ∀ a' ∈ apps.rows, ∃ a ∈ db.apps.rows, a.id = a'.id ∧
      ∀ counter : Counter, (counter.ofApp a).getD 0 ≤ (counter.ofApp a').getD 0 := by
    intro a' ha'
    obtain ⟨a, ha, rfl⟩ := (Table.mem_update htable).mp ha'
    by_cases hid : Keyed.key a = id
    · rw [if_pos hid]
      exact ⟨a, ha, (hset a).symm, fun counter => hle counter a ha hid⟩
    · rw [if_neg hid]
      exact ⟨a, ha, rfl, fun _ => le_rfl⟩
  refine ⟨fun counter a' ha' => ?_, fun c hc => ?_, fun counter c hc a' ha' hid => ?_⟩
  · obtain ⟨a, ha, -, hcounter⟩ := hrow a' ha'
    exact (hb.nonneg counter a ha).trans (hcounter counter)
  · rw [Table.keys_update htable]
    exact hb.app c hc
  · obtain ⟨a, ha, haid, hcounter⟩ := hrow a' ha'
    exact (hb.le counter c hc a ha (haid.trans hid)).trans (hcounter counter)

/-- An update of a checkpoint that keeps it within its app. -/
theorem Bounded.updateCheckpoint {id : Int} {set : Checkpoints.Model → Checkpoints.Model}
    {hset : ∀ c, Keyed.key (set c) = Keyed.key c} (hb : Bounded db)
    (hupd : db.updateCheckpoint id set hset = .ok db') (happ : ∀ c, (set c).appId = c.appId)
    (hle : ∀ counter : Counter, ∀ c ∈ db.checkpoints.rows, c.id = id → ∀ a ∈ db.apps.rows,
      a.id = c.appId → (counter.ofCheckpoint (set c)).getD 0 ≤ (counter.ofApp a).getD 0) :
    Bounded db' := by
  obtain ⟨checkpoints, htable, rfl⟩ := Store.updateCheckpoint_eq_ok.mp hupd
  refine ⟨hb.nonneg, fun c' hc' => ?_, fun counter c' hc' a ha hid => ?_⟩
  · obtain ⟨c, hc, rfl⟩ := (Table.mem_update htable).mp hc'
    split
    · rw [happ]
      exact hb.app c hc
    · exact hb.app c hc
  · obtain ⟨c, hc, rfl⟩ := (Table.mem_update htable).mp hc'
    by_cases hkey : Keyed.key c = id
    · rw [if_pos hkey] at hid ⊢
      exact hle counter c hc hkey a ha (hid.trans (happ c))
    · rw [if_neg hkey] at hid ⊢
      exact hb.le counter c hc a ha hid

/-- A new app has counted nothing, and no checkpoint carries its id. -/
theorem Bounded.insertApp {item productName : String} {id : Int} (hb : Bounded db)
    (hins : db.insertApp (AddProcess.newApp item productName id) = .ok db') : Bounded db' := by
  obtain ⟨apps, htable, rfl⟩ := Store.insertApp_eq_ok.mp hins
  have hfree : id ∉ db.apps.keys := (Table.insert_eq_some.mp htable).1
  refine ⟨fun counter a ha => ?_, fun c hc => ?_, fun counter c hc a ha hid => ?_⟩
  · rcases (Table.mem_insert htable).mp ha with ha | rfl
    · exact hb.nonneg counter a ha
    · cases counter <;> exact le_rfl
  · rw [Table.keys_insert htable]
    exact List.mem_append_left _ (hb.app c hc)
  · rcases (Table.mem_insert htable).mp ha with ha | rfl
    · exact hb.le counter c hc a ha hid
    · have hkey : c.appId ∈ db.apps.keys := hb.app c hc
      rw [← hid] at hkey
      exact absurd hkey hfree

/-- A new checkpoint has counted nothing. -/
theorem Bounded.insertCheckpoint {name : String} {description : Option String} {appId id : Int}
    {now : NaiveDateTime} {checkpoints : Table Checkpoints.Model} (hb : Bounded db)
    (happ : appId ∈ db.apps.keys)
    (hins : db.checkpoints.insert (CreateCheckpoint.newCheckpoint name description appId now id) =
      some checkpoints) : Bounded { db with checkpoints } := by
  refine ⟨hb.nonneg, fun c hc => ?_, fun counter c hc a ha hid => ?_⟩
  · rcases (Table.mem_insert hins).mp hc with hc | rfl
    · exact hb.app c hc
    · exact happ
  · rcases (Table.mem_insert hins).mp hc with hc | rfl
    · exact hb.le counter c hc a ha hid
    · have hzero : (counter.ofCheckpoint
          (CreateCheckpoint.newCheckpoint name description appId now id)).getD 0 = 0 := by
        cases counter <;> rfl
      rw [hzero]
      exact hb.nonneg counter a ha

/-- Deleting apps takes their checkpoints with them. -/
theorem Bounded.deleteApps (hb : Bounded db) (item : String) : Bounded (db.deleteApps item) := by
  have hrow : ∀ c ∈ (db.deleteApps item).checkpoints.rows, c ∈ db.checkpoints.rows ∧
      ∀ a ∈ db.apps.rows, a.id = c.appId → a.name ≠ some item := by
    intro c hc
    obtain ⟨hc, hkept⟩ := Table.mem_delete.mp hc
    refine ⟨hc, fun a ha hid hname => ?_⟩
    have hgone : c.appId ∉ (db.apps.all fun a => a.name = some item).map Apps.Model.id := by
      simpa using hkept
    exact hgone (List.mem_map.mpr ⟨a, Table.mem_all.mpr ⟨ha, by simpa using hname⟩, hid⟩)
  refine ⟨fun counter a ha => ?_, fun c hc => ?_, fun counter c hc a ha hid => ?_⟩
  · exact hb.nonneg counter a (Table.mem_delete.mp ha).1
  · obtain ⟨hc, hkept⟩ := hrow c hc
    obtain ⟨a, ha, haid⟩ := Table.mem_keys.mp (hb.app c hc)
    have hname := hkept a ha haid
    exact Table.mem_keys.mpr ⟨a, Table.mem_delete.mpr ⟨ha, by simpa using hname⟩, haid⟩
  · exact hb.le counter c (hrow c hc).1 a (Table.mem_delete.mp ha).1 hid

theorem Bounded.deleteCheckpoint (hb : Bounded db) (id : Int) :
    Bounded (db.deleteCheckpoint id) := by
  refine ⟨hb.nonneg, fun c hc => ?_, fun counter c hc => ?_⟩
  · exact hb.app c (Table.mem_delete.mp hc).1
  · exact hb.le counter c (Table.mem_delete.mp hc).1

end

/-! ## The event handlers -/

/-- A copy of a checkpoint that a handler is going to count in. -/
structure CopyBehind (counter : Counter) (db : Store) (copy : Checkpoints.Model) : Prop where
  behind : Behind counter db copy
  app : ∀ c ∈ db.checkpoints.rows, c.id = copy.id → c.appId = copy.appId

/-- What a handler knows at each point. -/
def Handler.ready (db : Store) : Handler → Prop
  | .countUpdateApp _ a => a ∈ db.apps.rows
  | .countFindActive counter appId =>
    ∀ c ∈ db.checkpoints.rows, c.appId = appId → Behind counter db c
  | .countFindCheckpoint counter _ checkpoint rest =>
    ∀ copy ∈ checkpoint :: rest, CopyBehind counter db copy
  | .countUpdateCheckpoint counter _ checkpoint model rest =>
    model.id = checkpoint.id ∧ ∀ copy ∈ checkpoint :: rest, CopyBehind counter db copy
  | _ => True

section
variable {inp : Input} {db db' : Store}

theorem ready_forCheckpoints {counter : Counter} {now : NaiveDateTime}
    {copies : List Checkpoints.Model} (h : ∀ copy ∈ copies, CopyBehind counter db copy) :
    ∀ hd ∈ forCheckpoints counter now copies, hd.ready db := by
  intro hd hhd
  cases copies with
  | nil => cases hhd
  | cons checkpoint rest =>
    cases hhd
    exact h

/-- The update of the app: its counter grows by one, and then its checkpoints are behind. -/
theorem bounded_countUpdateApp {counter : Counter} {a : Apps.Model} (hb : Bounded db)
    (hready : a ∈ db.apps.rows)
    (hupd : db.updateApp a.id (counter.setApp ((counter.ofApp a).getD 0 + 1))
      (counter.setApp_id _) = .ok db') :
    Bounded db' ∧ (counter.updateCheckpoints a.id).ready db' := by
  have hself : ∀ b ∈ db.apps.rows, b.id = a.id → b = a := fun b hb' hid =>
    Table.eq_of_key_eq hb' hready hid
  refine ⟨hb.updateApp hupd fun counter' b hb' hid => ?_, ?_⟩
  · rw [hself b hb' hid]
    cases counter <;> cases counter' <;> simp [Counter.ofApp, Counter.setApp]
  · obtain ⟨apps, htable, rfl⟩ := Store.updateApp_eq_ok.mp hupd
    have hbehind : ∀ c ∈ db.checkpoints.rows, c.appId = a.id →
        Behind counter { db with apps } c := by
      intro c hc hcapp b hb' hid
      obtain ⟨r, hr, rfl⟩ := (Table.mem_update htable).mp hb'
      by_cases hkey : Keyed.key r = a.id
      · -- the row that was written, one more than it was
        have hle := hb.le counter c hc a hready hcapp.symm
        rw [if_pos hkey, hself r hr hkey]
        cases counter <;> simpa [Counter.ofApp, Counter.setApp] using hle
      · rw [if_neg hkey] at hid
        exact absurd (hid.trans hcapp) hkey
    cases counter <;> exact hbehind

/-- The update of a checkpoint: the copy is one behind the app, so one more is not too much. -/
theorem bounded_countUpdateCheckpoint {counter : Counter} {now : NaiveDateTime}
    {checkpoint model : Checkpoints.Model} {rest : List Checkpoints.Model} (hb : Bounded db)
    (hmodel : model.id = checkpoint.id)
    (hcopies : ∀ copy ∈ checkpoint :: rest, CopyBehind counter db copy)
    (hupd : db.updateCheckpoint model.id
      (counter.setCheckpoint ((counter.ofCheckpoint checkpoint).getD 0 + 1) now)
      (counter.setCheckpoint_id _ _) = .ok db') :
    Bounded db' ∧ ∀ copy ∈ rest, CopyBehind counter db' copy := by
  obtain ⟨hbehind, happ⟩ := hcopies checkpoint List.mem_cons_self
  refine ⟨hb.updateCheckpoint hupd (fun c => by simp) ?_, fun copy hcopy => ?_⟩
  · intro counter' c hc hid a ha haid
    by_cases hcounter : counter' = counter
    · subst hcounter
      rw [Counter.ofCheckpoint_setCheckpoint]
      exact hbehind a ha (haid.trans (happ c hc (hid.trans hmodel)))
    -- the other counter is not written
    · rw [Counter.ofCheckpoint_setCheckpoint_of_ne hcounter]
      exact hb.le counter' c hc a ha haid
  · obtain ⟨hcopy, hcopyapp⟩ := hcopies copy (List.mem_cons_of_mem _ hcopy)
    obtain ⟨checkpoints, htable, rfl⟩ := Store.updateCheckpoint_eq_ok.mp hupd
    refine ⟨hcopy, fun c hc hid => ?_⟩
    obtain ⟨r, hr, rfl⟩ := (Table.mem_update htable).mp hc
    by_cases hkey : Keyed.key r = model.id
    · rw [if_pos hkey, Counter.setCheckpoint_id] at hid
      rw [if_pos hkey, Counter.setCheckpoint_appId]
      exact hcopyapp r hr hid
    · rw [if_neg hkey] at hid ⊢
      exact hcopyapp r hr hid

/-- **One statement of a handler**, whether it takes effect or fails. -/
theorem Handler.step_bounded {hd : Handler} {next : Option Handler} (hb : Bounded db)
    (hready : hd.ready db) (h : hd.step inp db = (next, db')) :
    Bounded db' ∧ ∀ hd' ∈ next, hd'.ready db' := by
  cases Handler.statement_of_step h with
  | longestWritten hupd =>
    refine ⟨hb.updateApp hupd fun counter a _ _ => ?_, by simp⟩
    cases counter <;> exact le_rfl
  | countFound hfind =>
    refine ⟨hb, fun hd' hhd' => ?_⟩
    cases hhd'
    exact (Store.findApp_eq_some hfind).1
  | countWritten hupd =>
    -- the app comes first: if a later statement fails, its checkpoints are behind
    obtain ⟨hb', hnext⟩ := bounded_countUpdateApp hb hready hupd
    refine ⟨hb', fun hd' hhd' => ?_⟩
    cases hhd'
    exact hnext
  | activeFound hnext =>
    subst hnext
    refine ⟨hb, ready_forCheckpoints fun copy hcopy => ?_⟩
    obtain ⟨hrow, happ, -⟩ := Store.mem_getActiveCheckpointsForApp.mp hcopy
    refine ⟨hready copy hrow happ, fun c hc hid => ?_⟩
    rw [Table.eq_of_key_eq hc hrow hid]
  | checkpointFound hfind =>
    refine ⟨hb, fun hd' hhd' => ?_⟩
    cases hhd'
    exact ⟨(Table.mem_of_byKey hfind).2, hready⟩
  | checkpointSkipped hnext =>
    subst hnext
    exact ⟨hb, ready_forCheckpoints fun copy hcopy => hready copy (List.mem_cons_of_mem _ hcopy)⟩
  | checkpointWritten hnext hupd =>
    subst hnext
    obtain ⟨hmodel, hcopies⟩ := hready
    obtain ⟨hb', hrest⟩ := bounded_countUpdateCheckpoint hb hmodel hcopies hupd
    exact ⟨hb', ready_forCheckpoints hrest⟩
  | checkpointRefused hnext =>
    -- the checkpoint stays behind
    subst hnext
    obtain ⟨-, hcopies⟩ := hready
    exact ⟨hb, ready_forCheckpoints fun copy hcopy => hcopies copy (List.mem_cons_of_mem _ hcopy)⟩
  | entryWritten hupd =>
    obtain ⟨_, -, rfl⟩ := Store.updateTimeline_eq_ok.mp hupd
    exact ⟨hb.congr rfl rfl, by simp⟩
  | entryInserted hins =>
    obtain ⟨-, _, -, rfl⟩ := Store.insertTimeline_eq_ok hins
    exact ⟨hb.congr rfl rfl, by simp⟩
  | _ => exact ⟨hb, by simp [Handler.ready]⟩

end

/-! ## Any operation -/

/-- What an operation knows at each point: only the handlers count. -/
def Operation.ready (db : Store) : Operation → Prop
  | .handle _ handler => handler.ready db
  | _ => True

/-- The tables and the operation under way. -/
structure SerialBounded (s : Serial) : Prop where
  db : Bounded s.db
  running : ∀ op ∈ s.running, op.ready s.db

/-- An activation writes neither counter. -/
theorem bounded_setCheckpointActive {inp : Input} {call call' : SetCheckpointActive}
    {db db' : Store} (hb : Bounded db) (h : call.step inp db = some (call', db')) :
    Bounded db' := by
  rcases SetCheckpointActive.step_cases h with ⟨_, -, rfl⟩ | ⟨_, _, _, -, rfl, -⟩ |
    ⟨_, -, rfl, -⟩ | ⟨_, _, _, _, -, hupd, -⟩ | ⟨_, _, -, hupd, -⟩
  · exact hb
  · exact hb
  · exact hb
  · refine hb.updateCheckpoint hupd (fun _ => rfl) fun counter c hc _ a ha hid => ?_
    cases counter <;> exact hb.le _ c hc a ha hid
  · refine hb.updateCheckpoint hupd (fun _ => rfl) fun counter c hc _ a ha hid => ?_
    cases counter <;> exact hb.le _ c hc a ha hid

/-- **One statement of an operation**, whether it takes effect or fails. -/
theorem Operation.step_bounded {inp : Input} {op : Operation} {next : Option Operation}
    {db db' : Store} (hb : Bounded db) (hready : op.ready db)
    (h : op.step inp db = (next, db')) : Bounded db' ∧ ∀ op' ∈ next, op'.ready db' := by
  cases op with
  | putDataMaxId item productName =>
    simp only [Operation.step] at h
    split at h <;> cases h <;> exact ⟨hb, by simp [Operation.ready]⟩
  | putDataInsert item productName nextId =>
    simp only [Operation.step] at h
    split at h
    · next db'' hst =>
      cases h
      exact ⟨hb.insertApp (Input.statement_eq_ok.mp hst).2, by simp⟩
    · cases h
      exact ⟨hb, by simp⟩
  | deleteData item =>
    simp only [Operation.step] at h
    split at h
    · next db'' hst =>
      cases h
      have hdelete := Except.ok.inj (Input.statement_eq_ok.mp hst).2
      exact ⟨hdelete ▸ hb.deleteApps item, by simp⟩
    · cases h
      exact ⟨hb, by simp⟩
  | setCheckpointActive call =>
    simp only [Operation.step, Operation.stepCall] at h
    split at h
    · cases h
      exact ⟨hb, by simp⟩
    · next call' db'' hstep =>
      cases h
      exact ⟨bounded_setCheckpointActive hb hstep, by simp [Operation.ready]⟩
  | createCheckpoint call =>
    simp only [Operation.step, Operation.stepCall] at h
    split at h
    · cases h
      exact ⟨hb, by simp⟩
    · next call' db'' hstep =>
      cases h
      refine ⟨?_, by simp [Operation.ready]⟩
      obtain ⟨_, _, _, -, ⟨_, -, rfl⟩ | ⟨-, happ, _, hins, rfl⟩⟩ :=
        CreateCheckpoint.step_cases hstep
      · exact hb
      · exact hb.insertCheckpoint happ hins
  | deleteCheckpoint call =>
    simp only [Operation.step, Operation.stepCall] at h
    split at h
    · cases h
      exact ⟨hb, by simp⟩
    · next call' db'' hstep =>
      cases h
      refine ⟨?_, by simp [Operation.ready]⟩
      obtain ⟨_, -, ⟨_, -, rfl⟩ | ⟨-, rfl⟩⟩ := DeleteCheckpoint.step_cases hstep
      · exact hb
      · exact hb.deleteCheckpoint _
  | handle event handler =>
    simp only [Operation.step] at h
    cases hstep : handler.step inp db with
    | mk next' db'' =>
      rw [hstep] at h
      cases h
      obtain ⟨hb', hnext⟩ := Handler.step_bounded hb hready hstep
      refine ⟨hb', fun op' hop' => ?_⟩
      obtain ⟨hd', hhd', rfl⟩ := Option.map_eq_some_iff.mp hop'
      exact hnext hd' hhd'

/-- A handler starts by looking its app up. -/
theorem ready_of_handle {event : Event} {hd : Handler} (db : Store) (h : handle event = some hd) :
    hd.ready db := by
  have happ := appName_of_handle h
  cases hd <;> trivial

theorem serialBounded_step (s : Serial) (l : SerialLabel) (s' : Serial) (hinv : SerialBounded s)
    (h : serial.step s l = some s') : SerialBounded s' := by
  cases l with
  | call op =>
    obtain ⟨-, hfresh, rfl⟩ := serial_call h
    refine ⟨hinv.db, fun op' hop' => ?_⟩
    cases hop'
    -- a call does not start as a handler
    cases op <;> trivial
  | event event =>
    obtain ⟨-, rfl⟩ := serial_event h
    refine ⟨hinv.db, fun op hop => ?_⟩
    obtain ⟨hd, hhd, rfl⟩ := Option.map_eq_some_iff.mp hop
    exact ready_of_handle s.db hhd
  | statement inp =>
    obtain ⟨op, hrunning, hstep⟩ := serial_statement h
    obtain ⟨hdb, hnext⟩ := Operation.step_bounded hinv.db (hinv.running op hrunning) hstep
    exact ⟨hdb, hnext⟩

theorem serialBounded_initial (backend : Backend) : SerialBounded (.initial backend) := by
  refine ⟨⟨?_, ?_, ?_⟩, ?_⟩
  · intro counter a ha
    cases ha
  · intro c hc
    cases hc
  · intro counter c hc
    cases hc
  · intro op hop
    cases hop

/-- **A checkpoint never exceeds its app, whatever fails**: from empty tables, after any
operations and between any two of their statements, each of which may have failed. -/
theorem checkpoint_within_app {backend : Backend} {ls : List SerialLabel} {s : Serial}
    (hrun : serial.Runs (fun _ _ => True) (.initial backend) ls s) :
    ∀ c ∈ s.db.checkpoints.rows, ∀ a ∈ s.db.apps.rows, a.id = c.appId →
      c.duration.getD 0 ≤ a.duration.getD 0 ∧ c.sessionsCount.getD 0 ≤ a.launches.getD 0 := by
  have hinv : SerialBounded s := hrun.invariant
    (fun s l s' hinv _ h => serialBounded_step s l s' hinv h) (serialBounded_initial backend)
  intro c hc a ha hid
  exact ⟨hinv.db.le .duration c hc a ha hid, hinv.db.le .launches c hc a ha hid⟩

/-- An app with an active checkpoint, and two `Duration` events of it. The second one is counted
in the app and then fails. -/
def countsAndFails : List SerialLabel :=
  [.call (.putDataMaxId "a" "a"), .statement {}, .statement {},
    .call (.createCheckpoint (.insert "c" none 1)), .statement {}, .statement {},
    .call (.setCheckpointActive (.find 1 true)), .statement {}, .statement {}, .statement {},
    .statement {},
    .event ("a", .duration), .statement {}, .statement {}, .statement {}, .statement {},
    .statement {},
    .event ("a", .duration), .statement {}, .statement {}, .statement {}, .statement {},
    .statement { err := some (.exec "disk I/O error") }]

theorem checkpoint_within_app_countsAndFails :
    ∃ s, serial.exec (.initial .sqlite) countsAndFails = some s ∧
      s.db.apps.rows.map Apps.Model.duration = [some 2] ∧
      s.db.checkpoints.rows.map Checkpoints.Model.duration = [some 1] ∧
      ∀ c ∈ s.db.checkpoints.rows, ∀ a ∈ s.db.apps.rows, a.id = c.appId →
        c.duration.getD 0 ≤ a.duration.getD 0 ∧ c.sessionsCount.getD 0 ≤ a.launches.getD 0 := by
  have hend : (serial.exec (.initial .sqlite) countsAndFails).map (fun s =>
      (s.db.apps.rows.map Apps.Model.duration,
        s.db.checkpoints.rows.map Checkpoints.Model.duration)) =
      some ([some 2], [some 1]) := by decide
  obtain ⟨s, hexec, hs⟩ := Option.map_eq_some_iff.mp hend
  obtain ⟨happs, hcheckpoints⟩ := Prod.mk.inj hs
  exact ⟨s, hexec, happs, hcheckpoints,
    checkpoint_within_app (Transition.System.runs_of_exec hexec)⟩

end TimeTracker
