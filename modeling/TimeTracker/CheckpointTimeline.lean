import TimeTracker.CheckpointCounters
import TimeTracker.Ledgers
import TimeTracker.Operations

/-!
# The time attributed to a checkpoint

A minute of an app is counted in its active checkpoints by the `Duration` event, and in a row of
the timeline by the `Timeline` event that follows. The row carries the checkpoint that was active
when the row was inserted; the minutes that follow on the same day go to it whatever is active by
then.

* **`attributed_le`**: as long as every row that is found for today carries a checkpoint that is
  active, or none, no checkpoint is attributed more time than it has counted.
* **`attributed_after_deactivation`**: without that condition it is, one minute after it has
  been deactivated.
* **`Handler.step_attributes`**: between the two events of a minute, the active checkpoints of the
  app are one ahead of the timeline, so that the row of the day may be given the minute.
-/

namespace TimeTracker

/-! ## Minutes as pairs of events -/

/-- Operations one after the other, and the app whose `Timeline` event is the next event. -/
structure Ticking where
  state : Serial
  owed : Option String

namespace Ticking

/-- A `Timeline` event follows the `Duration` event of its app at once, and only that. -/
def step (s : Ticking) : SerialLabel → Option Ticking
  | .call op =>
    if s.owed = none then (serial.step s.state (.call op)).map fun state => { s with state }
    else none
  | .event (item, kind) =>
    if s.owed = if kind = .timeline then some item else none then
      (serial.step s.state (.event (item, kind))).map fun state =>
        { state, owed := if kind = .duration then some item else none }
    else none
  | .statement inp =>
    (serial.step s.state (.statement inp)).map fun state => { s with state }

/-- No operation is under way and no event is owed. -/
def idle (s : Ticking) : Prop := s.state.running = none ∧ s.owed = none

instance (s : Ticking) : Decidable s.idle := inferInstanceAs (Decidable (_ ∧ _))

/-- A database with apps but neither timeline rows nor checkpoints. -/
def initial (backend : Backend) (apps : Table Apps.Model)
    (processAliases : Table ProcessAliases.Model) : Ticking where
  state := ⟨none, ⟨backend, apps, .empty, .empty, processAliases⟩⟩
  owed := none

end Ticking

/-- Operations with the minutes of the apps, as a transition system. -/
def ticking : Transition.System Ticking SerialLabel := ⟨Ticking.step⟩

/-- Checkpoints are created and activated, events are handled, and no statement fails. -/
def SerialLabel.succeeds : SerialLabel → Bool
  | .call (.setCheckpointActive _) | .call (.createCheckpoint _) => true
  | .call _ => false
  | .event _ => true
  | .statement inp => inp.err.isNone

/-- The row `handle_timeline` is going to find for today. -/
def Operation.entryOfToday (db : Store) : Operation → Option Timeline.Model
  | .handle _ (.timelineFindEntry appId today) => db.findTimeline appId today
  | _ => none

/-- A row that is found for today carries no checkpoint, or one that is active. -/
def attributesToActive (s : Ticking) : SerialLabel → Prop
  | .statement _ => ∀ t ∈ s.state.running.bind (Operation.entryOfToday s.state.db),
    ∀ id ∈ t.checkpointId, ∃ c ∈ s.state.db.checkpoints.rows, c.id = id ∧ c.isActive = some true
  | _ => True

instance (s : Ticking) (l : SerialLabel) : Decidable (attributesToActive s l) :=
  match l with
  | .statement _ => inferInstanceAs (Decidable
      (∀ t ∈ s.state.running.bind (Operation.entryOfToday s.state.db), _))
  | .call _ | .event _ => isTrue trivial

/-! ## Two ledgers of a checkpoint -/

namespace Store

/-- The time the timeline attributes to checkpoint `id`. -/
def attributed (db : Store) (id : Int) : Int :=
  db.timeline.sumBy fun t => if t.checkpointId = some id then t.duration.getD 0 else 0

/-- `id` is an active checkpoint of the app. -/
def activeFor (db : Store) (appId id : Int) : Prop :=
  id ∈ (db.getActiveCheckpointsForApp appId).map Checkpoints.Model.id

/-- Checkpoint `id` is there, and is a checkpoint of the app. -/
def belongs (db : Store) (id appId : Int) : Prop :=
  ∃ c ∈ db.checkpoints.rows, c.id = id ∧ c.appId = appId

theorem activeFor_iff {db : Store} {appId id : Int} : db.activeFor appId id ↔
    ∃ c ∈ db.checkpoints.rows, c.id = id ∧ c.appId = appId ∧ c.isActive = some true := by
  unfold activeFor
  rw [List.mem_map]
  constructor
  · intro ⟨c, hc, hid⟩
    obtain ⟨hrow, happ, hactive⟩ := mem_getActiveCheckpointsForApp.mp hc
    exact ⟨c, hrow, hid, happ, hactive⟩
  · intro ⟨c, hrow, hid, happ, hactive⟩
    exact ⟨c, mem_getActiveCheckpointsForApp.mpr ⟨hrow, happ, hactive⟩, hid⟩

/-- An update that leaves the app column alone leaves the checkpoints with their apps. -/
theorem belongs_updateCheckpoint {db db' : Store} {k : Int}
    {set : Checkpoints.Model → Checkpoints.Model} {hset : ∀ c, Keyed.key (set c) = Keyed.key c}
    (h : db.updateCheckpoint k set hset = .ok db') (happ : ∀ c, (set c).appId = c.appId)
    {id appId : Int} (hbelongs : db.belongs id appId) : db'.belongs id appId := by
  obtain ⟨checkpoints, hupd, rfl⟩ := updateCheckpoint_eq_ok.mp h
  obtain ⟨c, hc, hid, hof⟩ := hbelongs
  refine ⟨_, (Table.mem_update hupd).mpr ⟨c, hc, rfl⟩, ?_⟩
  split
  · exact ⟨(hset c).trans hid, (happ c).trans hof⟩
  · exact ⟨hid, hof⟩

/-- Counting in a row attributes one more minute to its checkpoint. -/
theorem attributed_updateTimeline {db db' : Store} {t : Timeline.Model}
    (ht : t ∈ db.timeline.rows)
    (h : db.updateTimeline t.id (setTimelineDuration (t.duration.getD 0 + 1)) (fun _ => rfl)
      = .ok db') (id : Int) :
    db'.attributed id = db.attributed id + if t.checkpointId = some id then 1 else 0 := by
  obtain ⟨timeline, hupd, rfl⟩ := updateTimeline_eq_ok.mp h
  unfold attributed
  rw [Table.sumBy_update _ ht hupd]
  show _ - (if t.checkpointId = some id then t.duration.getD 0 else 0)
    + (if t.checkpointId = some id then t.duration.getD 0 + 1 else 0) = _
  by_cases hid : t.checkpointId = some id
  · rw [if_pos hid, if_pos hid, if_pos hid]
    omega
  · rw [if_neg hid, if_neg hid, if_neg hid]
    omega

theorem attributed_insertTimeline {db db' : Store} {t : Timeline.Model}
    (hone : t.duration = some 1) (h : db.insertTimeline t = .ok db') (id : Int) :
    db'.attributed id = db.attributed id + if t.checkpointId = some id then 1 else 0 := by
  obtain ⟨-, timeline, hins, rfl⟩ := insertTimeline_eq_ok h
  unfold attributed
  rw [Table.sumBy_insert _ hins, hone]
  rfl

end Store

/-- The minutes checkpoint `id` has counted, and those the event loop is about to count there. -/
def minutes (db : Store) (loop : EventLoop) (id : Int) : Int :=
  db.counted .duration id + loop.pending .duration id

/-- The active checkpoints of the app have counted a minute the timeline does not have yet. -/
def Ahead (db : Store) (loop : EventLoop) (appId : Int) : Prop :=
  ∀ id, db.activeFor appId id → db.attributed id + 1 ≤ minutes db loop id

/-- After the `Duration` event of an app its active checkpoints are ahead. -/
def Counted (event : Event) (db : Store) (loop : EventLoop) : Prop :=
  event.2 = .duration → ∀ appId, db.idOf event.1 = some appId → Ahead db loop appId

/-- What a handler of a minute knows at each point. -/
def Handler.attributes (event : Event) (db : Store) (hd : Handler) : Prop :=
  match hd with
  | .countFindApp _ item => item = event.1
  | .countUpdateApp _ app => ∃ p, db.findApp p = some app ∧ p = event.1
  | .countFindActive _ appId => db.idOf event.1 = some appId
  | .countFindCheckpoint _ _ _ _ | .countUpdateCheckpoint _ _ _ _ _ =>
    Counted event db (.handling event hd)
  | .timelineFindApp item => ∀ appId, db.idOf item = some appId → Ahead db .idle appId
  | .timelineFindEntry appId _ | .timelineMaxId appId _ | .timelineFirstCheckpoint appId _ _ =>
    Ahead db .idle appId
  | .timelineUpdate entry => entry ∈ db.timeline.rows ∧
    ∀ id, entry.checkpointId = some id → db.attributed id + 1 ≤ minutes db .idle id
  | .timelineInsert row => row.duration = some 1 ∧
    ∀ id, row.checkpointId = some id → db.activeFor row.appId id ∧
      db.attributed id + 1 ≤ minutes db .idle id
  | _ => True

/-- The tables: no checkpoint is attributed more than it has counted, and a row carries a
checkpoint of its own app. -/
structure Attributed (db : Store) (loop : EventLoop) : Prop where
  copies : CopiesInvariant loop db
  le : ∀ id, db.attributed id ≤ minutes db loop id
  rows : ∀ t ∈ db.timeline.rows, ∀ id, t.checkpointId = some id → db.belongs id t.appId

/-! ## The handlers -/

section
variable {inp : Input} {event : Event} {hd : Handler} {next : Option Handler} {db db' : Store}
  {appId : Int}

/-- A statement of a handler as a step of the event loop. -/
theorem handling_step (h : hd.step inp db = (next, db')) :
    EventLoop.step inp (.handling event hd) [] db = some (.resume event next, [], db') := by
  simp only [EventLoop.step, h]

/-- The minutes grow by what is read. -/
theorem minutes_step (herr : inp.err = none) (hcopies : CopiesInvariant (.handling event hd) db)
    (h : hd.step inp db = (next, db')) (id : Int) :
    minutes db' (.resume event next) id = minutes db (.handling event hd) id +
      EventLoop.reads .duration id (.handling event hd) db := by
  have htotal := (EventLoop.step_counts herr hcopies (handling_step h)).total .duration id
  exact htotal

/-- A handler activates no checkpoint. -/
theorem activeFor_step (h : hd.step inp db = (next, db')) {id : Int}
    (hactive : db'.activeFor appId id) : db.activeFor appId id := by
  rw [Store.activeFor_iff] at hactive ⊢
  obtain ⟨c, hc, hid, happ, hon⟩ := hactive
  rcases Handler.step_db h with rfl | ⟨_, _, _, -, hupd⟩ | ⟨_, _, -, hupd⟩ |
    ⟨counter, _, _, model, _, -, hupd⟩ | ⟨_, -, hupd⟩ | ⟨_, -, hins⟩
  · exact ⟨c, hc, hid, happ, hon⟩
  · obtain ⟨_, -, rfl⟩ := Store.updateApp_eq_ok.mp hupd
    exact ⟨c, hc, hid, happ, hon⟩
  · obtain ⟨_, -, rfl⟩ := Store.updateApp_eq_ok.mp hupd
    exact ⟨c, hc, hid, happ, hon⟩
  · obtain ⟨checkpoints, htable, rfl⟩ := Store.updateCheckpoint_eq_ok.mp hupd
    obtain ⟨r, hr, rfl⟩ := (Table.mem_update htable).mp hc
    by_cases hkey : Keyed.key r = model.id
    · rw [if_pos hkey] at hid happ hon
      exact ⟨r, hr, by simpa using hid, by simpa using happ, by simpa using hon⟩
    · rw [if_neg hkey] at hid happ hon
      exact ⟨r, hr, hid, happ, hon⟩
  · obtain ⟨_, -, rfl⟩ := Store.updateTimeline_eq_ok.mp hupd
    exact ⟨c, hc, hid, happ, hon⟩
  · obtain ⟨-, _, -, rfl⟩ := Store.insertTimeline_eq_ok hins
    exact ⟨c, hc, hid, happ, hon⟩

/-- A handler leaves the ids of the apps alone. -/
theorem idOf_step (h : hd.step inp db = (next, db')) (p : String) : db'.idOf p = db.idOf p := by
  have hstep : EventLoop.step inp (.handling (p, .duration) hd) [] db = some _ := handling_step h
  exact Store.idOf_congr (EventLoop.step_identities hstep) p

/-- The active checkpoints of an app stay ahead as long as the timeline does not change. -/
theorem ahead_step (herr : inp.err = none) (hcopies : CopiesInvariant (.handling event hd) db)
    (h : hd.step inp db = (next, db')) (htimeline : db'.timeline = db.timeline)
    (hahead : Ahead db (.handling event hd) appId) : Ahead db' (.resume event next) appId := by
  intro id hactive
  have hold := hahead id (activeFor_step h hactive)
  have hminutes := minutes_step herr hcopies h id
  have hsame : db'.attributed id = db.attributed id := by
    unfold Store.attributed
    rw [htimeline]
  have hreads : (0 : Int) ≤ EventLoop.reads .duration id (.handling event hd) db := by omega
  omega

/-- Reading the active checkpoints of the app puts them ahead. -/
theorem ahead_findActive {counter : Counter} (hcounter : counter = .duration)
    (herr : inp.err = none)
    (htables : Attributed db (.handling event (.countFindActive counter appId)))
    (h : (Handler.countFindActive counter appId).step inp db = (next, db')) (hdb : db' = db) :
    Ahead db' (.resume event next) appId := by
  subst hcounter hdb
  intro id hactive
  have hminutes := minutes_step herr htables.copies h id
  have hle := htables.le id
  -- the checkpoint is in the list that was just read, so its minute is on the way
  have hreads : EventLoop.reads .duration id
      (.handling event (.countFindActive .duration appId)) db' = 1 := if_pos ⟨rfl, hactive⟩
  rw [hreads] at hminutes
  push_cast at hminutes
  omega

/-- What is left of the handler of a minute, and what is known when it is over. -/
structure HandlerAttributes (event : Event) (next : Option Handler) (db : Store) : Prop where
  goesOn : ∀ hd, next = some hd → hd.kind = event.2 ∧ hd.attributes event db
  done : next = none → Counted event db .idle

/-- The handler of another event than `Duration` is over. -/
theorem handlerAttributes_none (hkind : event.2 ≠ .duration) :
    HandlerAttributes event none db :=
  ⟨fun hd h => (by cases h), fun _ h => absurd h hkind⟩

theorem handlerAttributes_some (hkind : hd.kind = event.2) (hattr : hd.attributes event db) :
    HandlerAttributes event (some hd) db :=
  ⟨fun hd h => (by cases h; exact ⟨hkind, hattr⟩), fun h => (by cases h)⟩

/-- The loop over the active checkpoints. -/
theorem handlerAttributes_forCheckpoints {counter : Counter} {now : NaiveDateTime}
    {checkpoints : List Checkpoints.Model} (hkind : counter.kind = event.2)
    (hcounted : Counted event db (.resume event (forCheckpoints counter now checkpoints))) :
    HandlerAttributes event (forCheckpoints counter now checkpoints) db := by
  cases checkpoints with
  | nil => exact ⟨fun hd h => (by cases h), fun _ => hcounted⟩
  | cons checkpoint rest => exact handlerAttributes_some hkind hcounted

/-- `Counted` over a step that leaves the timeline alone. -/
theorem counted_step (herr : inp.err = none) (hcopies : CopiesInvariant (.handling event hd) db)
    (h : hd.step inp db = (next, db')) (htimeline : db'.timeline = db.timeline)
    (hcounted : Counted event db (.handling event hd)) :
    Counted event db' (.resume event next) := by
  intro hduration appId hid
  rw [idOf_step h] at hid
  exact ahead_step herr hcopies h htimeline (hcounted hduration appId hid)

/-- The handler of a `Duration` or a `Launches` event. -/
theorem handlerAttributes_count (counter : Counter) (herr : inp.err = none)
    (hkind : hd.kind = event.2) (hcount : hd.kind = counter.kind)
    (hattr : hd.attributes event db) (htables : Attributed db (.handling event hd))
    (h : hd.step inp db = (next, db')) : HandlerAttributes event next db' := by
  cases hd with
  | countFindApp counter' item =>
    simp only [Handler.step, Input.statement_of_none herr] at h
    cases hfind : db.findApp item with
    | none =>
      rw [hfind] at h
      cases h
      -- there is no such app
      refine ⟨fun hd hnext => (by cases hnext), fun _ _ appId hid => ?_⟩
      have hitem : item = event.1 := hattr
      rw [Store.idOf, ← hitem, hfind] at hid
      cases hid
    | some app =>
      rw [hfind] at h
      cases h
      exact handlerAttributes_some hkind ⟨item, hfind, hattr⟩
  | countUpdateApp counter' app =>
    obtain ⟨p, hfind, hp⟩ := hattr
    obtain ⟨db'', hupd⟩ := Store.updateApp_isOk
      (counter'.setApp_id ((counter'.ofApp app).getD 0 + 1)) hfind
    have hstep := h
    simp only [Handler.step, Input.statement_of_none herr, hupd] at h
    cases h
    have hid : db'.idOf event.1 = some app.id := by
      rw [idOf_step hstep, Store.idOf, ← hp, hfind]
      rfl
    cases counter' with
    | duration => exact handlerAttributes_some hkind hid
    | launches => exact handlerAttributes_some hkind hid
  | countFindActive counter' appId =>
    have hstep := h
    simp only [Handler.step, Input.statement_of_none herr] at h
    cases h
    refine handlerAttributes_forCheckpoints hkind fun hduration appId' hid => ?_
    have hidOf : db.idOf event.1 = some appId := hattr
    rw [hidOf] at hid
    cases hid
    have hcounter : counter' = .duration := by
      cases counter' with
      | duration => rfl
      | launches => cases hkind.trans hduration
    exact ahead_findActive hcounter herr htables hstep rfl
  | countFindCheckpoint counter' now checkpoint rest =>
    obtain ⟨model, -, rfl, rfl⟩ := stepCounts_findCheckpoint herr htables.copies h
    exact handlerAttributes_some hkind (counted_step herr htables.copies h rfl hattr)
  | countUpdateCheckpoint counter' now checkpoint model rest =>
    have hstep := h
    obtain ⟨rfl, -, -⟩ := stepCounts_updateCheckpoint herr htables.copies h
    have htimeline : db'.timeline = db.timeline := by
      simp only [Handler.step, Input.statement_of_none herr] at h
      split at h
      · next hupd =>
        obtain ⟨_, -, rfl⟩ := Store.updateCheckpoint_eq_ok.mp hupd
        cases h
        rfl
      · cases h
        rfl
    exact handlerAttributes_forCheckpoints hkind
      (counted_step herr htables.copies hstep htimeline hattr)
  | _ => cases counter <;> cases hcount

/-- The handler of a `Timeline` event. -/
theorem handlerAttributes_timeline (hkind : hd.kind = event.2) (htimeline : hd.kind = .timeline)
    (hattr : hd.attributes event db) (htables : Attributed db (.handling event hd))
    (hactive : ∀ t ∈ (Operation.handle event hd).entryOfToday db, ∀ id ∈ t.checkpointId,
      ∃ c ∈ db.checkpoints.rows, c.id = id ∧ c.isActive = some true)
    (h : hd.step inp db = (next, db')) : HandlerAttributes event next db' := by
  have hother : event.2 ≠ .duration := by
    rw [← hkind, htimeline]
    simp
  cases Handler.statement_of_step h with
  | dropped | entryWritten | entryInserted | longestWritten => exact handlerAttributes_none hother
  | timelineFound hfind =>
    refine handlerAttributes_some hkind (hattr _ ?_)
    rw [Store.idOf, hfind]
    rfl
  | @entryFound appId today entry hfind =>
    obtain ⟨hrow, hday⟩ := Table.mem_of_one hfind
    rw [Bool.and_eq_true, decide_eq_true_iff] at hday
    refine handlerAttributes_some hkind ⟨hrow, fun id hid => ?_⟩
    -- the checkpoint of the row is active, and of the row's app
    obtain ⟨c, hc, hcid, hon⟩ := hactive entry hfind id hid
    obtain ⟨c', hc', hcid', happ⟩ := htables.rows entry hrow id hid
    have hsame : c = c' := Table.eq_of_key_eq hc hc' (hcid.trans hcid'.symm)
    refine hattr id (Store.activeFor_iff.mpr ⟨c, hc, hcid, ?_, hon⟩)
    rw [hsame, happ, hday.1]
  | entryMissing | idFound => exact handlerAttributes_some hkind hattr
  | @checkpointChosen appId nextId today checkpointId hchosen =>
    refine handlerAttributes_some hkind ⟨rfl, fun id hid => ?_⟩
    obtain ⟨c, hhead, rfl⟩ := hchosen id hid
    -- the checkpoint of a new row is active at the read, so its minute was counted
    have hfirst : db.activeFor appId c.id := List.mem_map_of_mem (List.mem_of_mem_head? hhead)
    exact ⟨hfirst, hattr c.id hfirst⟩
  | longestFound => cases htimeline
  | @countFound counter | @countWritten counter | @activeFound counter
  | @checkpointFound counter | @checkpointSkipped counter | @checkpointWritten counter
  | @checkpointRefused counter =>
    cases counter <;> cases htimeline

/-- **One statement of a handler**: what it goes on with, and what is known when it is over. -/
theorem Handler.step_attributes (herr : inp.err = none) (hkind : hd.kind = event.2)
    (hattr : hd.attributes event db) (htables : Attributed db (.handling event hd))
    (hactive : ∀ t ∈ (Operation.handle event hd).entryOfToday db, ∀ id ∈ t.checkpointId,
      ∃ c ∈ db.checkpoints.rows, c.id = id ∧ c.isActive = some true)
    (h : hd.step inp db = (next, db')) : HandlerAttributes event next db' := by
  cases hevent : hd.kind with
  | longestSession =>
    have hother : event.2 ≠ .duration := by
      rw [← hkind, hevent]
      simp
    cases hd with
    | longestFindApp appName n =>
      cases Handler.statement_of_step h with
      | dropped => exact handlerAttributes_none hother
      | longestFound => exact handlerAttributes_some hkind trivial
    | longestUpdateApp appModel n date =>
      cases Handler.statement_of_step h with
      | dropped | longestWritten => exact handlerAttributes_none hother
    | countFindApp counter _ | countUpdateApp counter _ | countFindActive counter _
    | countFindCheckpoint counter _ _ _ | countUpdateCheckpoint counter _ _ _ _ =>
      cases counter <;> cases hevent
    | _ => cases hevent
  | duration => exact handlerAttributes_count .duration herr hkind hevent hattr htables h
  | launches => exact handlerAttributes_count .launches herr hkind hevent hattr htables h
  | timeline => exact handlerAttributes_timeline hkind hevent hattr htables hactive h

/-- **One statement of a handler keeps the tables.** -/
theorem attributed_handler (herr : inp.err = none) (hattr : hd.attributes event db)
    (htables : Attributed db (.handling event hd)) (h : hd.step inp db = (next, db')) :
    Attributed db' (.resume event next) := by
  have hcopies := (EventLoop.step_counts herr htables.copies (handling_step h)).copies
  have hgrow : ∀ id, minutes db (.handling event hd) id ≤ minutes db' (.resume event next) id := by
    intro id
    have hminutes := minutes_step herr htables.copies h id
    omega
  -- the statements that leave the timeline alone
  have hkeep : db'.timeline = db.timeline →
      (∀ id appId, db.belongs id appId → db'.belongs id appId) →
      Attributed db' (.resume event next) := by
    intro htimeline hbelongs
    refine ⟨hcopies, fun id => ?_, fun t ht id hid => ?_⟩
    · have hsame : db'.attributed id = db.attributed id := by
        unfold Store.attributed
        rw [htimeline]
      rw [hsame]
      exact le_trans (htables.le id) (hgrow id)
    · rw [htimeline] at ht
      exact hbelongs _ _ (htables.rows t ht id hid)
  rcases Handler.step_db h with rfl | ⟨_, _, _, -, hupd⟩ | ⟨_, _, -, hupd⟩ |
    ⟨counter, _, _, _, _, -, hupd⟩ | ⟨entry, rfl, hupd⟩ | ⟨row, rfl, hins⟩
  · exact hkeep rfl fun _ _ hbelongs => hbelongs
  · obtain ⟨_, -, rfl⟩ := Store.updateApp_eq_ok.mp hupd
    exact hkeep rfl fun _ _ hbelongs => hbelongs
  · obtain ⟨_, -, rfl⟩ := Store.updateApp_eq_ok.mp hupd
    exact hkeep rfl fun _ _ hbelongs => hbelongs
  · have hbelongs : ∀ id appId, db.belongs id appId → db'.belongs id appId := fun _ _ =>
      Store.belongs_updateCheckpoint hupd fun c => by cases counter <;> rfl
    obtain ⟨_, -, rfl⟩ := Store.updateCheckpoint_eq_ok.mp hupd
    exact hkeep rfl hbelongs
  · -- the row found for today gets the minute its checkpoint is ahead
    obtain ⟨hrow, hahead⟩ := hattr
    refine ⟨hcopies, fun id => ?_, ?_⟩
    · rw [Store.attributed_updateTimeline hrow hupd]
      refine le_trans ?_ (hgrow id)
      split
      · next hid => exact hahead id hid
      · rw [Int.add_zero]
        exact htables.le id
    · obtain ⟨timeline, htable, rfl⟩ := Store.updateTimeline_eq_ok.mp hupd
      intro t ht id hid
      obtain ⟨r, hr, rfl⟩ := (Table.mem_update htable).mp ht
      have hold := htables.rows r hr id
      split at hid
      · next hkey =>
        rw [if_pos hkey]
        exact hold hid
      · next hkey =>
        rw [if_neg hkey]
        exact hold hid
  · -- the new row starts with the minute its checkpoint is ahead
    obtain ⟨hone, hahead⟩ := hattr
    refine ⟨hcopies, fun id => ?_, ?_⟩
    · rw [Store.attributed_insertTimeline hone hins]
      refine le_trans ?_ (hgrow id)
      split
      · next hid => exact (hahead id hid).2
      · rw [Int.add_zero]
        exact htables.le id
    · obtain ⟨-, timeline, htable, rfl⟩ := Store.insertTimeline_eq_ok hins
      intro t ht id hid
      rcases (Table.mem_insert htable).mp ht with ht | rfl
      · exact htables.rows t ht id hid
      · obtain ⟨c, hc, hcid, happ, -⟩ := Store.activeFor_iff.mp (hahead id hid).1
        exact ⟨c, hc, hcid, happ⟩

end

/-! ## The calls -/

section
variable {inp : Input} {db db' : Store}

/-- A call leaves the timeline, the counters and the apps of the checkpoints alone. -/
theorem attributed_of_call (htimeline : db'.timeline = db.timeline)
    (hcounted : ∀ id, db'.counted .duration id = db.counted .duration id)
    (hbelongs : ∀ id appId, db.belongs id appId → db'.belongs id appId)
    (htables : Attributed db .idle) : Attributed db' .idle := by
  refine ⟨⟨List.nodup_nil, fun _ h => absurd h List.not_mem_nil, trivial⟩, fun id => ?_,
    fun t ht id hid => ?_⟩
  · have hle := htables.le id
    unfold minutes at hle ⊢
    unfold Store.attributed at hle ⊢
    rw [htimeline, hcounted]
    exact hle
  · rw [htimeline] at ht
    exact hbelongs _ _ (htables.rows t ht id hid)

/-- A call of the storage client as a step of a call next to other ones. -/
theorem callCounts_of_stepDb {γ : Type} {step : γ → Store → Option (γ × Store)}
    {wrap : γ → Call} {a a' : γ} (herr : inp.err = none) (hdel : (wrap a).deletes = false)
    (hwrap : ∀ s, (wrap a).step inp s = Call.stepDb step wrap a s)
    (h : step a db = some (a', db')) : CallCounts (wrap a) inp db db' := by
  let s : Shared := { (Config.initial .linux db []).shared with db }
  have hstep : (wrap a).step inp s = some (wrap a', { s with db := db' }) := by
    rw [hwrap]
    unfold Call.stepDb
    rw [h]
  exact Call.step_counts herr hdel hstep

theorem attributed_setCheckpointActive {call call' : SetCheckpointActive}
    (herr : inp.err = none) (htables : Attributed db .idle)
    (h : call.step inp db = some (call', db')) : Attributed db' .idle := by
  have hcounts : CallCounts (.setCheckpointActive call) inp db db' :=
    callCounts_of_stepDb herr rfl (fun _ => rfl) h
  refine attributed_of_call (SetCheckpointActive.step_frame h).2 (hcounts.counted .duration) ?_
    htables
  intro id appId hbelongs
  rcases SetCheckpointActive.step_cases h with ⟨_, -, rfl⟩ | ⟨_, _, _, -, rfl, -⟩ |
    ⟨_, -, rfl, -⟩ | ⟨_, _, _, _, -, hupd, -⟩ | ⟨_, _, -, hupd, -⟩
  · exact hbelongs
  · exact hbelongs
  · exact hbelongs
  · exact Store.belongs_updateCheckpoint hupd (fun _ => rfl) hbelongs
  · exact Store.belongs_updateCheckpoint hupd (fun _ => rfl) hbelongs

theorem attributed_createCheckpoint {call call' : CreateCheckpoint}
    (herr : inp.err = none) (htables : Attributed db .idle)
    (h : call.step inp db = some (call', db')) : Attributed db' .idle := by
  have hcounts : CallCounts (.createCheckpoint call) inp db db' :=
    callCounts_of_stepDb herr rfl (fun _ => rfl) h
  obtain ⟨_, _, _, -, ⟨_, -, rfl⟩ | ⟨-, -, checkpoints, hins, rfl⟩⟩ :=
    CreateCheckpoint.step_cases h
  · exact htables
  · have hbelongs : ∀ id appId, db.belongs id appId →
        Store.belongs { db with checkpoints } id appId := by
      intro id appId ⟨c, hc, hof⟩
      exact ⟨c, (Table.mem_insert hins).mpr (.inl hc), hof⟩
    refine attributed_of_call ?_ (hcounts.counted .duration) hbelongs htables
    rfl

end

/-! ## Runs -/

/-- The event loop among the operations. -/
def Serial.loop (s : Serial) : EventLoop :=
  match s.running with
  | some (.handle event hd) => .handling event hd
  | _ => .idle

/-- The operations of a run: activations, creations, and handlers of events. The app whose minute
is under way is remembered until its `Timeline` event. -/
def Operation.ticks (s : Ticking) : Operation → Prop
  | .setCheckpointActive _ | .createCheckpoint _ => s.owed = none
  | .handle event hd => hd.kind = event.2 ∧ hd.attributes event s.state.db ∧
    s.owed = if event.2 = .duration then some event.1 else none
  | _ => False

/-- What holds between any two statements of a run. -/
structure TickingInvariant (s : Ticking) : Prop where
  tables : Attributed s.state.db s.state.loop
  running : ∀ op, s.state.running = some op → op.ticks s
  owed : s.state.running = none → ∀ item, s.owed = some item →
    Counted (item, .duration) s.state.db .idle

section
variable {s s' : Ticking}

theorem ticking_call {op : Operation} (h : ticking.step s (.call op) = some s') :
    s.owed = none ∧ s.state.running = none ∧
      s' = { s with state := { s.state with running := some op } } := by
  simp only [ticking, Ticking.step] at h
  split at h
  · next howed =>
    obtain ⟨state, hstep, rfl⟩ := Option.map_eq_some_iff.mp h
    obtain ⟨hidle, -, rfl⟩ := serial_call hstep
    exact ⟨howed, hidle, rfl⟩
  · cases h

theorem ticking_event {event : Event} (h : ticking.step s (.event event) = some s') :
    s.owed = (if event.2 = .timeline then some event.1 else none) ∧ s.state.running = none ∧
      s' = ⟨⟨(handle event).map (.handle event), s.state.db⟩,
        if event.2 = .duration then some event.1 else none⟩ := by
  obtain ⟨item, kind⟩ := event
  simp only [ticking, Ticking.step] at h
  by_cases howed : s.owed = if kind = .timeline then some item else none
  · rw [if_pos howed] at h
    obtain ⟨state, hstep, rfl⟩ := Option.map_eq_some_iff.mp h
    obtain ⟨hidle, rfl⟩ := serial_event hstep
    exact ⟨howed, hidle, rfl⟩
  · rw [if_neg howed] at h
    cases h

theorem ticking_statement {inp : Input} (h : ticking.step s (.statement inp) = some s') :
    ∃ op, s.state.running = some op ∧ ∃ running db, op.step inp s.state.db = (running, db) ∧
      s' = { s with state := ⟨running, db⟩ } := by
  simp only [ticking, Ticking.step] at h
  obtain ⟨state, hstep, rfl⟩ := Option.map_eq_some_iff.mp h
  obtain ⟨op, hrunning, hop⟩ := serial_statement hstep
  exact ⟨op, hrunning, state.running, state.db, hop, rfl⟩

/-- The handler of an event starts with what its first statement needs. -/
theorem attributes_of_handle {item : String} {kind : ReceiveTypes} {hd : Handler} {db : Store}
    (hcounted : kind = .timeline → Counted (item, .duration) db .idle)
    (h : handle (item, kind) = some hd) : hd.kind = kind ∧ hd.attributes (item, kind) db := by
  cases kind with
  | longestSession =>
    simp only [handle, handleLongestSession] at h
    split at h <;> cases h
    exact ⟨rfl, trivial⟩
  | duration =>
    cases h
    exact ⟨rfl, rfl⟩
  | launches =>
    cases h
    exact ⟨rfl, rfl⟩
  | timeline =>
    cases h
    exact ⟨rfl, hcounted rfl rfl⟩

/-- The start of a handler leaves nothing to count. -/
theorem attributed_of_handle {event : Event} {db : Store} (htables : Attributed db .idle) :
    Attributed db (.resume event (handle event)) := by
  obtain ⟨hto, hreread⟩ := toCount_of_handle event
  have hminutes : ∀ id, minutes db (.resume event (handle event)) id = minutes db .idle id := by
    intro id
    unfold minutes EventLoop.pending
    rw [hto]
    rfl
  refine ⟨⟨by rw [hto]; exact List.nodup_nil, fun x hx => ?_, hreread⟩, fun id => ?_, htables.rows⟩
  · rw [hto] at hx
    cases hx
  · rw [hminutes]
    exact htables.le id

theorem loop_resume (event : Event) (next : Option Handler) (db : Store) :
    Serial.loop ⟨next.map (.handle event), db⟩ = .resume event next := by
  cases next <;> rfl

/-- Between two operations the event loop is idle. -/
theorem TickingInvariant.attributed_idle (hinv : TickingInvariant s)
    (hidle : s.state.running = none) : Attributed s.state.db .idle := by
  have htables := hinv.tables
  unfold Serial.loop at htables
  rw [hidle] at htables
  exact htables

/-- A handler goes on, or is over. -/
theorem tickingInvariant_handler {event : Event} {next : Option Handler} {db : Store}
    (htables : Attributed db (.resume event next)) (hattr : HandlerAttributes event next db) :
    TickingInvariant ⟨⟨next.map (.handle event), db⟩,
      if event.2 = .duration then some event.1 else none⟩ where
  tables := by
    rw [loop_resume]
    exact htables
  running op hop := by
    obtain ⟨hd, hnext, rfl⟩ := Option.map_eq_some_iff.mp hop
    obtain ⟨hkind, hknown⟩ := hattr.goesOn hd hnext
    exact ⟨hkind, hknown, rfl⟩
  owed hidle item howed := by
    have hdone := hattr.done (Option.map_eq_none_iff.mp hidle)
    split at howed
    · next hduration =>
      cases howed
      exact fun _ => hdone hduration
    · cases howed

/-- A call starts. -/
theorem tickingInvariant_call {op : Operation} (hinv : TickingInvariant s)
    (hsucceeds : (SerialLabel.call op).succeeds = true)
    (h : ticking.step s (.call op) = some s') : TickingInvariant s' := by
  obtain ⟨howed, hidle, rfl⟩ := ticking_call h
  have htables := hinv.attributed_idle hidle
  cases op with
  | setCheckpointActive call =>
    exact ⟨htables, fun op hop => (by cases hop; exact howed), fun hnone => (by cases hnone)⟩
  | createCheckpoint call =>
    exact ⟨htables, fun op hop => (by cases hop; exact howed), fun hnone => (by cases hnone)⟩
  | _ => cases hsucceeds

/-- The event loop takes an event. -/
theorem tickingInvariant_event {event : Event} (hinv : TickingInvariant s)
    (h : ticking.step s (.event event) = some s') : TickingInvariant s' := by
  obtain ⟨howed, hidle, rfl⟩ := ticking_event h
  obtain ⟨item, kind⟩ := event
  have htables := hinv.attributed_idle hidle
  -- the minute before a `Timeline` event was counted
  have hcounted : kind = .timeline → Counted (item, .duration) s.state.db .idle := by
    intro hkind
    refine hinv.owed hidle item ?_
    rw [howed]
    exact if_pos hkind
  refine tickingInvariant_handler (attributed_of_handle htables) ⟨fun hd hnext => ?_, ?_⟩
  · exact attributes_of_handle hcounted hnext
  · intro hnone hkind
    have hlongest := kind_of_handle_eq_none hnone
    rw [hkind] at hlongest
    cases hlongest

/-- A statement of the operation under way. -/
theorem tickingInvariant_statement {inp : Input} (hinv : TickingInvariant s)
    (herr : inp.err = none) (hactive : attributesToActive s (.statement inp))
    (h : ticking.step s (.statement inp) = some s') : TickingInvariant s' := by
  obtain ⟨op, hrunning, running, db, hstep, rfl⟩ := ticking_statement h
  have hticks := hinv.running op hrunning
  have htables := hinv.tables
  unfold Serial.loop at htables
  rw [hrunning] at htables
  cases op with
  | setCheckpointActive call =>
    have howed : s.owed = none := hticks
    simp only [Operation.step, Operation.stepCall] at hstep
    split at hstep
    · cases hstep
      exact ⟨htables, fun op hop => (by cases hop), fun _ item hitem => (by
        rw [howed] at hitem
        cases hitem)⟩
    · next call' db' hcall =>
      cases hstep
      have hnew := attributed_setCheckpointActive herr htables hcall
      exact ⟨hnew, fun op hop => (by cases hop; exact howed), fun hnone => (by cases hnone)⟩
  | createCheckpoint call =>
    have howed : s.owed = none := hticks
    simp only [Operation.step, Operation.stepCall] at hstep
    split at hstep
    · cases hstep
      exact ⟨htables, fun op hop => (by cases hop), fun _ item hitem => (by
        rw [howed] at hitem
        cases hitem)⟩
    · next call' db' hcall =>
      cases hstep
      have hnew := attributed_createCheckpoint herr htables hcall
      exact ⟨hnew, fun op hop => (by cases hop; exact howed), fun hnone => (by cases hnone)⟩
  | handle event hd =>
    obtain ⟨hkind, hattr, howed⟩ := hticks
    cases hnext : hd.step inp s.state.db with
    | mk next db' =>
      simp only [Operation.step, hnext] at hstep
      cases hstep
      rw [howed]
      refine tickingInvariant_handler (attributed_handler herr hattr htables hnext) ?_
      refine Handler.step_attributes herr hkind hattr htables ?_ hnext
      intro t ht
      refine hactive t ?_
      rw [hrunning]
      exact ht
  -- nothing is deleted in such a run
  | _ => cases hticks

/-- **One step keeps the invariant.** -/
theorem tickingInvariant_step {l : SerialLabel} (hinv : TickingInvariant s)
    (hok : l.succeeds = true ∧ attributesToActive s l) (h : ticking.step s l = some s') :
    TickingInvariant s' := by
  obtain ⟨hsucceeds, hactive⟩ := hok
  cases l with
  | call op => exact tickingInvariant_call hinv hsucceeds h
  | event event => exact tickingInvariant_event hinv h
  | statement inp =>
    exact tickingInvariant_statement hinv (Option.isNone_iff_eq_none.mp hsucceeds) hactive h

end

theorem tickingInvariant_initial (backend : Backend) (apps : Table Apps.Model)
    (processAliases : Table ProcessAliases.Model) :
    TickingInvariant (.initial backend apps processAliases) where
  tables := ⟨⟨List.nodup_nil, fun _ h => absurd h List.not_mem_nil, trivial⟩,
    fun _ => le_refl _, fun _ h => absurd h List.not_mem_nil⟩
  running _ hop := by cases hop
  owed _ _ howed := by cases howed

/-- **The time attributed to a checkpoint**: in a run in which every row found for today carries
no checkpoint or an active one, no checkpoint is attributed more than it has counted. -/
theorem attributed_le {backend : Backend} {apps : Table Apps.Model}
    {processAliases : Table ProcessAliases.Model} {ls : List SerialLabel} {s : Ticking}
    (hrun : ticking.Runs (fun s l => l.succeeds = true ∧ attributesToActive s l)
      (.initial backend apps processAliases) ls s) (hidle : s.idle)
    {c : Checkpoints.Model} (hc : c ∈ s.state.db.checkpoints.rows) :
    s.state.db.attributed c.id ≤ c.duration.getD 0 := by
  have hinv := hrun.invariant (I := TickingInvariant)
    (fun _ _ _ hinv hok hstep => tickingInvariant_step hinv hok hstep)
    (tickingInvariant_initial backend apps processAliases)
  have hle := (hinv.attributed_idle hidle.1).le c.id
  have hcounted : s.state.db.counted .duration c.id = c.duration.getD 0 :=
    Table.column_of_mem _ _ hc
  unfold minutes at hle
  rw [hcounted] at hle
  show _ ≤ _
  have hpending : EventLoop.idle.pending .duration c.id = 0 := rfl
  rw [hpending] at hle
  omega

/-- The app `a`, without minutes. -/
def tickingWithA : Ticking := .initial .sqlite storeWithA.apps .empty

/-- A checkpoint of `a`, with the id 1. -/
def createFirst : List SerialLabel :=
  [.call (.createCheckpoint (.insert "first" none 1)), .statement { newId := 1 }, .statement {}]

/-- The activation and the deactivation of the checkpoint. -/
def activateFirst : List SerialLabel :=
  .call (.setCheckpointActive (.find 1 true)) :: List.replicate 4 (.statement {})

def deactivateFirst : List SerialLabel :=
  .call (.setCheckpointActive (.find 1 false)) :: List.replicate 3 (.statement {})

/-- A minute of `a`, with `n` statements for its `Duration` and `m` for its `Timeline` event. -/
def minuteOfA (n m : Nat) : List SerialLabel :=
  .event ("a", .duration) :: List.replicate n (.statement {}) ++
    .event ("a", .timeline) :: List.replicate m (.statement {})

/-- Two minutes under the checkpoint: the first one inserts the row of the day, the second one
finds it. -/
theorem attributed_le_twoMinutes :
    ∃ s c, ticking.execWhere (fun s l => l.succeeds = true ∧ attributesToActive s l) tickingWithA
        (createFirst ++ activateFirst ++ minuteOfA 5 5 ++ minuteOfA 5 3) = some s ∧
      s.state.db.checkpoints.rows = [c] ∧ s.state.db.attributed c.id = 2 ∧ c.duration = some 2 ∧
      s.state.db.attributed c.id ≤ c.duration.getD 0 := by
  have hend : (ticking.execWhere (fun s l => l.succeeds = true ∧ attributesToActive s l)
      tickingWithA (createFirst ++ activateFirst ++ minuteOfA 5 5 ++ minuteOfA 5 3)).map
      (fun s => decide (s.idle ∧ s.state.db.attributed 1 = 2 ∧
        s.state.db.checkpoints.rows.map (fun c => (c.id, c.duration)) = [(1, some 2)])) =
      some true := by decide
  obtain ⟨s, hexec, hs⟩ := Option.map_eq_some_iff.mp hend
  obtain ⟨hidle, hattributed, hrows⟩ := of_decide_eq_true hs
  obtain ⟨c, hc, hcolumns⟩ := List.map_eq_singleton_iff.mp hrows
  obtain ⟨hid, hduration⟩ := Prod.mk.inj hcolumns
  refine ⟨s, c, hexec, hc, ?_, hduration, ?_⟩
  · rw [hid]
    exact hattributed
  · refine attributed_le (Transition.System.runs_of_execWhere hexec) hidle ?_
    rw [hc]
    exact List.mem_singleton_self c

/-- The checkpoint is deactivated after its first minute; the second minute of the day is
attributed to it all the same. -/
theorem attributed_after_deactivation :
    ¬ ∀ ls s, ticking.Runs (fun _ l => l.succeeds = true) tickingWithA ls s → s.idle →
      ∀ c ∈ s.state.db.checkpoints.rows, s.state.db.attributed c.id ≤ c.duration.getD 0 := by
  intro hall
  have hend : (ticking.execWhere (fun _ l => l.succeeds = true) tickingWithA
      (createFirst ++ activateFirst ++ minuteOfA 5 5 ++ deactivateFirst ++ minuteOfA 3 3)).map
      (fun s => decide (s.idle ∧ s.state.db.attributed 1 = 2 ∧
        s.state.db.checkpoints.rows.map (fun c => (c.id, c.duration)) = [(1, some 1)])) =
      some true := by decide
  obtain ⟨s, hexec, hs⟩ := Option.map_eq_some_iff.mp hend
  obtain ⟨hidle, hattributed, hrows⟩ := of_decide_eq_true hs
  obtain ⟨c, hc, hcolumns⟩ := List.map_eq_singleton_iff.mp hrows
  obtain ⟨hid, hduration⟩ := Prod.mk.inj hcolumns
  have hle := hall _ s (Transition.System.runs_of_execWhere hexec) hidle c (by
    rw [hc]
    exact List.mem_singleton_self c)
  rw [hid, hattributed, hduration] at hle
  exact absurd hle (by decide)

end TimeTracker
