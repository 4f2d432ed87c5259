import TimeTracker.Steps

/-!
# The counters of a checkpoint

Two threads write the rows of `checkpoints` from copies they hold over several statements:
the event loop counts a `Duration` or `Launches` event in every active checkpoint of its app,
and a client activates or deactivates checkpoints. They write different columns, and the
event loop is the only one that writes the counters, so no count is lost and no activation is
undone.

* `checkpoint_counts`: while nothing is deleted and no statement fails, a counter of a
  checkpoint is what it was plus the number of events whose read of the active checkpoints
  returned the checkpoint, and its activity is what the last activation statement wrote.
-/

namespace TimeTracker

/-! ## Runs without failures and deletions -/

/-- The next step of the call deletes rows. -/
def Call.deletes : Call → Bool
  | .deleteProcess (.deleteData _) | .deleteCheckpoint (.delete _) => true
  | _ => false

/-- A step in which no statement fails and nothing is deleted. -/
def keepsRows (c : Config) (l : Label) : Prop :=
  l.err = none ∧
    match l with
    | .call k _ => ∀ call ∈ c.calls[k]?, call.deletes = false
    | _ => True

instance (c : Config) (l : Label) : Decidable (keepsRows c l) :=
  match l with
  | .call k inp =>
    inferInstanceAs (Decidable (inp.err = none ∧ ∀ call ∈ c.calls[k]?, call.deletes = false))
  | .scan inp | .work _ inp | .handle inp => inferInstanceAs (Decidable (inp.err = none ∧ True))
  | .spawn => isTrue ⟨rfl, trivial⟩

/-! ## The columns -/

namespace Store

/-- A counter of checkpoint `id`; NULL, and a checkpoint that is not there yet, count as 0. -/
def counted (db : Store) (counter : Counter) (id : Int) : Int :=
  db.checkpoints.column (fun c => (counter.ofCheckpoint c).getD 0) 0 id

/-- `is_active` and `activated_at` of checkpoint `id`; a checkpoint that is not there yet
reads as `create_checkpoint` makes it. -/
def activity (db : Store) (id : Int) : Option Bool × Option NaiveDateTime :=
  db.checkpoints.column (fun c => (c.isActive, c.activatedAt)) (some false, none) id

end Store

/-! ## The event loop -/

/-- The checkpoints a counting handler has read and not yet counted in, as it has read them. -/
def Handler.toCount : Handler → List (Counter × Checkpoints.Model)
  | .countFindCheckpoint counter _ checkpoint rest => (checkpoint :: rest).map (counter, ·)
  | .countUpdateCheckpoint counter _ checkpoint _ rest => (checkpoint :: rest).map (counter, ·)
  | _ => []

def EventLoop.toCount : EventLoop → List (Counter × Checkpoints.Model)
  | .idle => []
  | .handling _ handler => handler.toCount

theorem toCount_forCheckpoints (event : Event) (counter : Counter) (now : NaiveDateTime)
    (checkpoints : List Checkpoints.Model) :
    (EventLoop.resume event (forCheckpoints counter now checkpoints)).toCount =
      checkpoints.map (counter, ·) := by
  cases checkpoints <;> rfl

/-- The row to write is the row of the list. -/
def EventLoop.rereadSame : EventLoop → Prop
  | .handling _ (.countUpdateCheckpoint _ _ checkpoint model _) => model.id = checkpoint.id
  | _ => True

theorem rereadSame_forCheckpoints (event : Event) (counter : Counter) (now : NaiveDateTime)
    (checkpoints : List Checkpoints.Model) :
    (EventLoop.resume event (forCheckpoints counter now checkpoints)).rereadSame := by
  cases checkpoints <;> trivial

/-- The copies the event loop holds are of distinct rows, which are still there and whose
counter is what it was. -/
structure CopiesInvariant (loop : EventLoop) (db : Store) : Prop where
  nodup : (loop.toCount.map fun x => x.2.id).Nodup
  fresh : ∀ x ∈ loop.toCount, x.2.id ∈ db.checkpoints.keys ∧
    db.counted x.1 x.2.id = (x.1.ofCheckpoint x.2).getD 0
  reread : loop.rereadSame

/-- How often the event loop still has to count in `counter` of checkpoint `id`. -/
def EventLoop.pending (counter : Counter) (id : Int) (loop : EventLoop) : Nat :=
  (loop.toCount.map fun x => (x.1, x.2.id)).count (counter, id)

/-- A step of the event loop reads the active checkpoints for `counter` and finds `id` among
them: whether, as 0 or 1. -/
def EventLoop.reads (counter : Counter) (id : Int) (loop : EventLoop) (db : Store) : Nat :=
  match loop with
  | .handling _ (.countFindActive counter' appId) =>
    if counter' = counter ∧ id ∈ (db.getActiveCheckpointsForApp appId).map Checkpoints.Model.id
    then 1 else 0
  | _ => 0

section
variable {inp : Input} {loop loop' : EventLoop} {events events' : List Event} {db db' : Store}

/-- The steps of the event loop outside the loop over the checkpoints. -/
theorem toCount_of_other (event : Event) {hd : Handler} {next : Option Handler}
    (h : hd.step inp db = (next, db')) (hempty : hd.toCount = [])
    (hne : ∀ counter appId, hd ≠ .countFindActive counter appId) :
    (EventLoop.resume event next).toCount = [] ∧ (EventLoop.resume event next).rereadSame := by
  cases Handler.statement_of_step h with
  | activeFound => exact absurd rfl (hne _ _)
  | checkpointFound | checkpointSkipped | checkpointWritten | checkpointRefused => cases hempty
  | @countWritten counter _ _ _ => cases counter <;> exact ⟨rfl, trivial⟩
  | _ => exact ⟨rfl, trivial⟩

/-- The next event: its handler starts with the read of its app. -/
theorem toCount_of_handle (event : Event) :
    (EventLoop.resume event (handle event)).toCount = [] ∧
      (EventLoop.resume event (handle event)).rereadSame := by
  obtain ⟨item, kind⟩ := event
  cases kind
  · simp only [handle, handleLongestSession]
    split <;> exact ⟨rfl, trivial⟩
  all_goals exact ⟨rfl, trivial⟩

/-- What a step of the event loop does to the counters: what is counted and what is still to
count grow together by what the step reads. -/
structure StepCounts (loop loop' : EventLoop) (db db' : Store) : Prop where
  copies : CopiesInvariant loop' db'
  total : ∀ counter id, db'.counted counter id + loop'.pending counter id =
    db.counted counter id + loop.pending counter id + loop.reads counter id db

/-- A step outside the loop over the checkpoints. -/
theorem stepCounts_of_same (hinv : CopiesInvariant loop db) (hto : loop'.toCount = loop.toCount)
    (hreread : loop'.rereadSame) (hreads : ∀ counter id, loop.reads counter id db = 0)
    (hdb : db'.checkpoints = db.checkpoints) : StepCounts loop loop' db db' := by
  have hcounted : ∀ counter id, db'.counted counter id = db.counted counter id := fun _ _ => by
    rw [Store.counted, hdb, Store.counted]
  refine ⟨⟨hto ▸ hinv.nodup, fun x hx => ?_, hreread⟩, fun counter id => ?_⟩
  · rw [hdb, hcounted]
    exact hinv.fresh x (hto ▸ hx)
  · rw [hcounted, hreads, EventLoop.pending, hto, EventLoop.pending]
    omega

/-- Reading the active checkpoints: the copies are the rows themselves, each once. -/
theorem stepCounts_findActive (event : Event) (counter : Counter) (appId : Int)
    (now : NaiveDateTime) (db : Store) :
    StepCounts (.handling event (.countFindActive counter appId))
      (.resume event (forCheckpoints counter now (db.getActiveCheckpointsForApp appId)))
      db db := by
  have hto := toCount_forCheckpoints event counter now (db.getActiveCheckpointsForApp appId)
  have hnodup := Store.nodup_getActiveCheckpointsForApp db appId
  refine ⟨⟨?_, fun x hx => ?_, rereadSame_forCheckpoints ..⟩, fun counter' id => ?_⟩
  · rw [hto, List.map_map]
    exact hnodup
  · rw [hto] at hx
    obtain ⟨c, hc, rfl⟩ := List.mem_map.mp hx
    obtain ⟨hrow, -, -⟩ := Store.mem_getActiveCheckpointsForApp.mp hc
    exact ⟨Table.key_mem_keys hrow, Table.column_of_mem _ _ hrow⟩
  -- the read lists a checkpoint once, so it owes one count or none
  · have hpairs : ((db.getActiveCheckpointsForApp appId).map fun c => (counter, c.id)).Nodup :=
      (List.nodup_map_iff_inj_on (List.Nodup.of_map _ hnodup)).mpr fun c hc c' hc' he =>
        List.inj_on_of_nodup_map hnodup hc hc' (Prod.mk.inj he).2
    have hpending : (EventLoop.resume event (forCheckpoints counter now
        (db.getActiveCheckpointsForApp appId))).pending counter' id =
        EventLoop.reads counter' id (.handling event (.countFindActive counter appId)) db := by
      rw [EventLoop.pending, hto, List.map_map]
      change ((db.getActiveCheckpointsForApp appId).map fun c => (counter, c.id)).count
        (counter', id) = _
      rw [List.Nodup.count hpairs]
      change _ = if counter = counter' ∧
        id ∈ (db.getActiveCheckpointsForApp appId).map Checkpoints.Model.id then 1 else 0
      refine if_congr ?_ rfl rfl
      simp only [List.mem_map, Prod.mk.injEq]
      grind
    have hzero : EventLoop.pending counter' id (.handling event (.countFindActive counter appId))
        = 0 := rfl
    rw [hpending, hzero]
    omega

/-- Reading a checkpoint of the list again: it is there, and it is the same row. -/
theorem stepCounts_findCheckpoint {event : Event} {counter : Counter} {now : NaiveDateTime}
    {checkpoint : Checkpoints.Model} {rest : List Checkpoints.Model} {next : Option Handler}
    (herr : inp.err = none)
    (hinv : CopiesInvariant (.handling event (.countFindCheckpoint counter now checkpoint rest)) db)
    (h : (Handler.countFindCheckpoint counter now checkpoint rest).step inp db = (next, db')) :
    ∃ model, model.id = checkpoint.id ∧ db' = db ∧
      next = some (.countUpdateCheckpoint counter now checkpoint model rest) := by
  have hkey : checkpoint.id ∈ db.checkpoints.keys :=
    (hinv.fresh (counter, checkpoint) List.mem_cons_self).1
  rw [Handler.step, Input.statement_of_none herr] at h
  -- nothing deletes it between the two reads
  cases hrow : db.checkpoints.byKey checkpoint.id with
  | none => exact absurd hkey (Table.byKey_eq_none.mp hrow)
  | some model =>
    rw [hrow] at h
    cases h
    exact ⟨model, (Table.mem_of_byKey hrow).2, rfl, rfl⟩

/-- Counting in a checkpoint: the counter grows by one, because the copy still says what the
row says. -/
theorem stepCounts_updateCheckpoint {event : Event} {counter : Counter} {now : NaiveDateTime}
    {checkpoint model : Checkpoints.Model} {rest : List Checkpoints.Model}
    {next : Option Handler} (herr : inp.err = none)
    (hinv : CopiesInvariant
      (.handling event (.countUpdateCheckpoint counter now checkpoint model rest)) db)
    (h : (Handler.countUpdateCheckpoint counter now checkpoint model rest).step inp db
      = (next, db')) :
    next = forCheckpoints counter now rest ∧
      (∀ id, id ∈ db'.checkpoints.keys ↔ id ∈ db.checkpoints.keys) ∧
      (∀ counter' id, db'.counted counter' id = db.counted counter' id +
        if (counter, checkpoint.id) = (counter', id) then 1 else 0) := by
  have hmodel : model.id = checkpoint.id := hinv.reread
  obtain ⟨hkey, hcopy⟩ := hinv.fresh (counter, checkpoint) List.mem_cons_self
  rw [Handler.step, Input.statement_of_none herr] at h
  cases hupd : db.updateCheckpoint model.id
      (counter.setCheckpoint ((counter.ofCheckpoint checkpoint).getD 0 + 1) now)
      (counter.setCheckpoint_id _ now) with
  | error e => exact absurd (hmodel ▸ hkey) (Store.updateCheckpoint_eq_error hupd)
  | ok db'' =>
    rw [hupd] at h
    cases h
    obtain ⟨checkpoints, htable, rfl⟩ := Store.updateCheckpoint_eq_ok.mp hupd
    refine ⟨rfl, fun id => by rw [Table.keys_update htable], fun counter' id => ?_⟩
    by_cases hcounter : counter' = counter
    -- what is written is the copy's count and one more, and the copy is still right
    · subst hcounter
      have hwritten := Table.column_update (i := id) (d := 0)
        (g := fun c => (counter'.ofCheckpoint c).getD 0) htable
        (fun r => by rw [Counter.ofCheckpoint_setCheckpoint])
      rw [Store.counted, hwritten, hmodel]
      by_cases hid : id = checkpoint.id
      · subst hid
        rw [if_pos rfl, if_pos rfl, hcopy]
        rfl
      · rw [if_neg hid, if_neg fun h => hid (Prod.mk.inj h).2.symm, add_zero, Store.counted]
    · have hkept := Table.column_update_of_keep (i := id) (d := 0)
        (g := fun c => (counter'.ofCheckpoint c).getD 0) htable fun r => by
          rw [Counter.ofCheckpoint_setCheckpoint_of_ne hcounter]
      rw [Store.counted, hkept, if_neg fun h => hcounter (Prod.mk.inj h).1.symm, add_zero,
        Store.counted]

/-- Counting in a checkpoint takes it off the list of those still to count in. -/
theorem stepCounts_of_update {event : Event} {counter : Counter} {now : NaiveDateTime}
    {checkpoint model : Checkpoints.Model} {rest : List Checkpoints.Model}
    {next : Option Handler} (herr : inp.err = none)
    (hinv : CopiesInvariant
      (.handling event (.countUpdateCheckpoint counter now checkpoint model rest)) db)
    (h : (Handler.countUpdateCheckpoint counter now checkpoint model rest).step inp db
      = (next, db')) :
    StepCounts (.handling event (.countUpdateCheckpoint counter now checkpoint model rest))
      (.resume event next) db db' := by
  obtain ⟨rfl, hkeys, hcounted⟩ := stepCounts_updateCheckpoint herr hinv h
  have hto := toCount_forCheckpoints event counter now rest
  have hnodup : (checkpoint.id :: rest.map Checkpoints.Model.id).Nodup := by
    have hold := hinv.nodup
    simpa only [EventLoop.toCount, Handler.toCount, List.map_cons, List.map_map,
      Function.comp_def] using hold
  obtain ⟨hnotMem, hrest⟩ := List.nodup_cons.mp hnodup
  refine ⟨⟨?_, fun x hx => ?_, rereadSame_forCheckpoints ..⟩, fun counter' id => ?_⟩
  · rw [hto, List.map_map]
    exact hrest
  · rw [hto] at hx
    obtain ⟨c, hc, rfl⟩ := List.mem_map.mp hx
    -- another row of the list: it has not been written
    have hne : checkpoint.id ≠ c.id := fun he => hnotMem (he ▸ List.mem_map_of_mem hc)
    obtain ⟨hkey, hcopy⟩ := hinv.fresh (counter, c)
      (List.mem_cons_of_mem _ (List.mem_map_of_mem hc))
    refine ⟨(hkeys c.id).mpr hkey, ?_⟩
    rw [hcounted, if_neg fun he => hne (Prod.mk.inj he).2, add_zero]
    exact hcopy
  · have hpending : EventLoop.pending counter' id
        (.handling event (.countUpdateCheckpoint counter now checkpoint model rest)) =
        (EventLoop.resume event (forCheckpoints counter now rest)).pending counter' id +
          if (counter, checkpoint.id) = (counter', id) then 1 else 0 := by
      rw [EventLoop.pending, EventLoop.pending, hto]
      simp only [EventLoop.toCount, Handler.toCount, List.map_cons, List.count_cons, beq_iff_eq]
    have hreads : EventLoop.reads counter' id
        (.handling event (.countUpdateCheckpoint counter now checkpoint model rest)) db = 0 := rfl
    rw [hcounted, hpending, hreads]
    split <;> push_cast <;> ring

/-- **A step of the event loop** counts what it has read. -/
theorem EventLoop.step_counts (herr : inp.err = none) (hinv : CopiesInvariant loop db)
    (h : loop.step inp events db = some (loop', events', db')) : StepCounts loop loop' db db' := by
  have hdb := EventLoop.step_checkpoints h
  rcases EventLoop.step_cases h with ⟨event, rfl, -, rfl, rfl⟩ |
    ⟨event, hd, next, rfl, -, hstep, rfl⟩
  · obtain ⟨hto, hreread⟩ := toCount_of_handle event
    exact stepCounts_of_same hinv hto hreread (fun _ _ => rfl) rfl
  · cases hd with
    | countFindActive counter appId =>
      rw [Handler.step, Input.statement_of_none herr] at hstep
      cases hstep
      exact stepCounts_findActive event counter appId inp.now db
    | countFindCheckpoint counter now checkpoint rest =>
      obtain ⟨model, hmodel, rfl, rfl⟩ := stepCounts_findCheckpoint herr hinv hstep
      exact stepCounts_of_same hinv rfl hmodel (fun _ _ => rfl) rfl
    | countUpdateCheckpoint counter now checkpoint model rest =>
      exact stepCounts_of_update herr hinv hstep
    | _ =>
      obtain ⟨hto, hreread⟩ := toCount_of_other event hstep rfl (by simp)
      refine stepCounts_of_same hinv hto hreread (fun _ _ => rfl) ?_
      rcases hdb with hdb | ⟨_, _, _, _, _, _, heq, -⟩
      · exact hdb
      · cases heq

end

/-- The event loop leaves the activity of the checkpoints alone. -/
theorem EventLoop.step_activity {inp : Input} {loop loop' : EventLoop} {events events' : List Event}
    {db db' : Store} (h : loop.step inp events db = some (loop', events', db')) (id : Int) :
    db'.activity id = db.activity id := by
  rcases EventLoop.step_checkpoints h with hdb | ⟨_, counter, now, _, _, _, -, hupd⟩
  · rw [Store.activity, hdb, Store.activity]
  · obtain ⟨checkpoints, htable, rfl⟩ := Store.updateCheckpoint_eq_ok.mp hupd
    exact Table.column_update_of_keep htable fun r => by
      rw [Counter.setCheckpoint_isActive, Counter.setCheckpoint_activatedAt]

/-! ## The calls -/

/-- What the next statement of a call writes to `is_active` and `activated_at` of checkpoint
`id`, where it is a statement of `set_checkpoint_active` that touches the row. -/
def Call.activityWrite (inp : Input) (db : Store) (id : Int) :
    Call → Option (Option Bool × Option NaiveDateTime)
  | .setCheckpointActive (.deactivate _ _ active _) =>
    if active.id = id ∧ id ∈ db.checkpoints.keys then some (some false, none) else none
  | .setCheckpointActive (.update checkpoint isActive) =>
    if checkpoint.id = id ∧ id ∈ db.checkpoints.keys then
      some (some isActive, if isActive then some inp.now else none)
    else none
  | _ => none

/-- What a step of a call does to the rows of `checkpoints`: the rows stay, no counter is
touched, and the activity is touched by the activation statements only. -/
structure CallCounts (call : Call) (inp : Input) (db db' : Store) : Prop where
  keys : ∀ id ∈ db.checkpoints.keys, id ∈ db'.checkpoints.keys
  counted : ∀ counter id, db'.counted counter id = db.counted counter id
  activity : ∀ id, db'.activity id = (call.activityWrite inp db id).getD (db.activity id)

section
variable {inp : Input} {call : Call} {db db' : Store}

theorem callCounts_of_same (hdb : db'.checkpoints = db.checkpoints)
    (hwrite : ∀ id, call.activityWrite inp db id = none) : CallCounts call inp db db' where
  keys id hid := hdb ▸ hid
  counted counter id := by rw [Store.counted, hdb, Store.counted]
  activity id := by rw [hwrite, Store.activity, hdb, Store.activity, Option.getD_none]

/-- An update of the activity of row `k`, or its failure because there is no such row. -/
theorem callCounts_of_update {k : Int} {set : Checkpoints.Model → Checkpoints.Model}
    {hset : ∀ c, Keyed.key (set c) = Keyed.key c}
    {written : Option Bool × Option NaiveDateTime}
    (hupd : db.updateCheckpoint k set hset = .ok db' ∨
      db' = db ∧ ∃ e, db.updateCheckpoint k set hset = .error e)
    (hcounters : ∀ (counter : Counter) c, counter.ofCheckpoint (set c) = counter.ofCheckpoint c)
    (hactivity : ∀ c, ((set c).isActive, (set c).activatedAt) = written)
    (hwrite : ∀ id, call.activityWrite inp db id =
      if k = id ∧ id ∈ db.checkpoints.keys then some written else none) :
    CallCounts call inp db db' := by
  rcases hupd with hupd | ⟨rfl, e, hupd⟩
  · obtain ⟨checkpoints, htable, rfl⟩ := Store.updateCheckpoint_eq_ok.mp hupd
    have hkey := (Table.update_eq_some.mp htable).1
    refine ⟨fun id hid => by rw [Table.keys_update htable]; exact hid, fun counter id => ?_,
      fun id => ?_⟩
    · exact Table.column_update_of_keep htable fun c => by rw [hcounters]
    · rw [Store.activity, Table.column_update htable hactivity, hwrite]
      by_cases hid : id = k
      · subst hid
        rw [if_pos rfl, if_pos ⟨rfl, hkey⟩, Option.getD_some]
      · rw [if_neg hid, if_neg fun h => hid h.1.symm, Option.getD_none, Store.activity]
  -- no such row: the statement fails and writes nothing
  · have hnone := Store.updateCheckpoint_eq_error hupd
    refine callCounts_of_same rfl fun id => ?_
    rw [hwrite, if_neg]
    rintro ⟨rfl, hid⟩
    exact hnone hid

/-- A new checkpoint has counted nothing and is inactive: what it read as before. -/
theorem callCounts_of_insert {row : Checkpoints.Model} {checkpoints : Table Checkpoints.Model}
    (hins : db.checkpoints.insert row = some checkpoints)
    (hcounters : ∀ counter : Counter, counter.ofCheckpoint row = none)
    (hactivity : (row.isActive, row.activatedAt) = (some false, none))
    (hwrite : ∀ id, call.activityWrite inp db id = none) :
    CallCounts call inp db { db with checkpoints } := by
  refine ⟨fun id hid => ?_, fun counter id => ?_, fun id => ?_⟩
  · rw [Table.keys_insert hins]
    exact List.mem_append_left _ hid
  · have hcolumn := Table.column_insert (i := id)
      (g := fun c : Checkpoints.Model => (counter.ofCheckpoint c).getD 0) hins
    rw [hcounters] at hcolumn
    exact hcolumn
  · have hcolumn := Table.column_insert (i := id)
      (g := fun c : Checkpoints.Model => (c.isActive, c.activatedAt)) hins
    rw [hactivity] at hcolumn
    rw [hwrite, Option.getD_none]
    exact hcolumn

/-- **A step of a call** that neither fails nor deletes. -/
theorem Call.step_counts {call' : Call} {s s' : Shared} (herr : inp.err = none)
    (hdel : call.deletes = false) (h : call.step inp s = some (call', s')) :
    CallCounts call inp s.db s'.db := by
  rcases Call.step_machine h with ⟨a, a', rfl, rfl, hstep⟩ | ⟨d, d', rfl, rfl, hstep⟩ |
    ⟨_, _, rfl, rfl, hstep⟩ | ⟨a, a', db, rfl, rfl, hstep, rfl⟩ | ⟨a, a', db, rfl, rfl, hstep, rfl⟩ |
    ⟨a, a', db, rfl, rfl, hstep, rfl⟩
  · refine callCounts_of_same ?_ fun _ => rfl
    rcases AddProcess.step_shared hstep with ⟨_, rfl⟩ | ⟨_, _, _, _, -, -, -, -, rfl⟩
    · rfl
    · rfl
  · refine callCounts_of_same ?_ fun _ => rfl
    rcases DeleteProcess.step_shared hstep with ⟨_, rfl⟩ | ⟨q, rfl, -, -⟩
    · rfl
    · cases hdel
  · refine callCounts_of_same ?_ fun _ => rfl
    rcases Pause.step_cases hstep with ⟨-, -, rfl⟩ | ⟨_, -, -, rfl⟩ <;> rfl
  · cases a with
    | find id isActive =>
      refine callCounts_of_same ?_ fun _ => rfl
      rcases SetCheckpointActive.step_cases hstep with ⟨_, -, rfl⟩ | ⟨_, _, _, -, rfl, -⟩ |
        ⟨_, heq, -⟩ | ⟨_, _, _, _, heq, -⟩ | ⟨_, _, heq, -⟩ <;> first | rfl | cases heq
    | selectActive checkpoint =>
      refine callCounts_of_same ?_ fun _ => rfl
      rcases SetCheckpointActive.step_cases hstep with ⟨_, -, rfl⟩ | ⟨_, _, _, heq, -⟩ |
        ⟨_, -, rfl, -⟩ | ⟨_, _, _, _, heq, -⟩ | ⟨_, _, heq, -⟩ <;> first | rfl | cases heq
    | deactivate checkpoint now active rest =>
      have hupd : s.db.updateCheckpoint active.id (SetCheckpointActive.setInactive now)
          (fun _ => rfl) = .ok db ∨ db = s.db ∧ ∃ e, s.db.updateCheckpoint active.id
            (SetCheckpointActive.setInactive now) (fun _ => rfl) = .error e := by
        rw [SetCheckpointActive.step, Input.statement_of_none herr] at hstep
        split at hstep <;> cases hstep
        · next e hupd => exact .inr ⟨rfl, e, hupd⟩
        · next hupd => exact .inl hupd
      exact callCounts_of_update hupd (fun counter _ => by cases counter <;> rfl) (fun _ => rfl)
        fun _ => rfl
    | update checkpoint isActive =>
      have hupd : s.db.updateCheckpoint checkpoint.id
          (SetCheckpointActive.setActive isActive inp.now) (fun _ => rfl) = .ok db ∨
          db = s.db ∧ ∃ e, s.db.updateCheckpoint checkpoint.id
            (SetCheckpointActive.setActive isActive inp.now) (fun _ => rfl) = .error e := by
        rw [SetCheckpointActive.step, Input.statement_of_none herr] at hstep
        split at hstep <;> cases hstep
        · next e hupd => exact .inr ⟨rfl, e, hupd⟩
        · next hupd => exact .inl hupd
      exact callCounts_of_update hupd (fun counter _ => by cases counter <;> rfl) (fun _ => rfl)
        fun _ => rfl
    | returned _ => cases hstep
  · obtain ⟨name, description, appId, rfl, ⟨_, -, rfl⟩ | ⟨-, -, checkpoints, hins, rfl⟩⟩ :=
      CreateCheckpoint.step_cases hstep
    · exact callCounts_of_same rfl fun _ => rfl
    · exact callCounts_of_insert hins (fun counter => by cases counter <;> rfl) rfl fun _ => rfl
  · obtain ⟨_, rfl, -⟩ := DeleteCheckpoint.step_cases hstep
    cases hdel

end

/-! ## Runs -/

/-- The reads of the active checkpoints for `counter` that returned checkpoint `id`. -/
def activeReads (counter : Counter) (id : Int) (n : Nat) (c : Config) : Label → Nat
  | .handle _ => n + c.loop.reads counter id c.shared.db
  | _ => n

/-- What a step of the program writes to the activity of checkpoint `id`. -/
def activityWrite (id : Int) (c : Config) :
    Label → Option (Option Bool × Option NaiveDateTime)
  | .call k inp => c.calls[k]?.bind fun call => call.activityWrite inp c.shared.db id
  | _ => none

/-- The copies of the event loop are in order, and what is counted in checkpoint `id` and
still to be counted there is what was counted at the start and has been read since. -/
structure CountsInvariant (counter : Counter) (id start : Int) (n : Nat) (c : Config) : Prop where
  copies : CopiesInvariant c.loop c.shared.db
  total : c.shared.db.counted counter id + c.loop.pending counter id = start + n

section
variable {counter : Counter} {id start : Int} {n : Nat} {c c' : Config} {l : Label}

theorem countsInvariant_step (hinv : CountsInvariant counter id start n c) (hok : keepsRows c l)
    (h : tracker.step c l = some c') :
    CountsInvariant counter id start (activeReads counter id n c l) c' := by
  cases l with
  | call k inp =>
    obtain ⟨call, call', s, hk, hstep, rfl⟩ := step_call h
    have hcounts := Call.step_counts hok.1 (hok.2 call hk) hstep
    refine ⟨⟨hinv.copies.nodup, fun x hx => ?_, hinv.copies.reread⟩, ?_⟩
    -- a call writes no counter, so the copies of the event loop stay right
    · obtain ⟨hkey, hcopy⟩ := hinv.copies.fresh x hx
      exact ⟨hcounts.keys _ hkey, (hcounts.counted _ _).trans hcopy⟩
    · change s.db.counted counter id + _ = _
      rw [hcounts.counted]
      exact hinv.total
  | handle inp =>
    obtain ⟨loop, events, db, hstep, rfl⟩ := step_handle h
    have hcounts := EventLoop.step_counts hok.1 hinv.copies hstep
    refine ⟨hcounts.copies, ?_⟩
    have htotal := hcounts.total counter id
    have hold := hinv.total
    simp only [activeReads]
    push_cast
    omega
  | _ =>
    obtain ⟨-, hloop, hdb⟩ := step_of_onlyReads rfl h
    refine ⟨?_, ?_⟩
    · rw [hloop, hdb]
      exact hinv.copies
    · rw [hloop, hdb]
      exact hinv.total

/-- The activity of a checkpoint after a step. -/
theorem activity_step (hok : keepsRows c l) (h : tracker.step c l = some c') :
    c'.shared.db.activity id = (activityWrite id c l).getD (c.shared.db.activity id) := by
  cases l with
  | call k inp =>
    obtain ⟨call, call', s, hk, hstep, rfl⟩ := step_call h
    rw [activityWrite, hk]
    exact (Call.step_counts hok.1 (hok.2 call hk) hstep).activity id
  | handle inp =>
    obtain ⟨loop, events, db, hstep, rfl⟩ := step_handle h
    exact EventLoop.step_activity hstep id
  | _ =>
    obtain ⟨-, -, hdb⟩ := step_of_onlyReads rfl h
    rw [hdb]
    rfl

end

/-- **No checkpoint update is lost.** In every run in which no statement fails and nothing is
deleted, between states in which the event loop is idle: each counter of a checkpoint is what
it was plus the number of events whose read of the active checkpoints returned it, and its
activity is what the last activation statement that touched it wrote. -/
theorem checkpoint_counts {c₀ c : Config} {ls : List Label} (hidle₀ : c₀.loop = .idle)
    (hrun : tracker.Runs keepsRows c₀ ls c) (hidle : c.loop = .idle) {r : Checkpoints.Model}
    (hr : r ∈ c.shared.db.checkpoints.rows) :
    (∀ counter : Counter, (counter.ofCheckpoint r).getD 0 =
      c₀.shared.db.counted counter r.id + tracker.history (activeReads counter r.id) 0 c₀ ls) ∧
    (r.isActive, r.activatedAt) =
      (tracker.history (Transition.System.lastWrite (activityWrite r.id)) none c₀ ls).getD
        (c₀.shared.db.activity r.id) := by
  constructor
  · intro counter
    have hstart : CountsInvariant counter r.id (c₀.shared.db.counted counter r.id) 0 c₀ := by
      refine ⟨?_, by rw [hidle₀]; rfl⟩
      rw [hidle₀]
      exact ⟨List.nodup_nil, fun _ h => absurd h List.not_mem_nil, trivial⟩
    have hinv := hrun.invariant_history (g := activeReads counter r.id)
      (I := CountsInvariant counter r.id (c₀.shared.db.counted counter r.id))
      (fun _ _ _ _ hinv hok hstep => countsInvariant_step hinv hok hstep) hstart
    have htotal := hinv.total
    rw [hidle] at htotal
    have hcolumn : c.shared.db.counted counter r.id = (counter.ofCheckpoint r).getD 0 :=
      Table.column_of_mem _ _ hr
    rw [← hcolumn, ← htotal]
    exact (Int.add_zero _).symm
  · have hcolumn : c.shared.db.activity r.id = (r.isActive, r.activatedAt) :=
      Table.column_of_mem _ _ hr
    rw [← hcolumn]
    exact hrun.read_eq_lastWrite (fun c => c.shared.db.activity r.id)
      fun _ _ _ hok hstep => activity_step hok hstep

/-- One active checkpoint of the app `a`, a `Duration` event of `a` in the channel, and a
client that deactivates the checkpoint. -/
def countAndDeactivate : Config :=
  let initial := Config.initial .linux
    { storeWithA with
      checkpoints := ⟨[{ CreateCheckpoint.newCheckpoint "first" none 1 .unixEpoch 1 with
        isActive := some true, activatedAt := some .unixEpoch }], by decide⟩ }
    [.setCheckpointActive (.find 1 false)]
  { initial with shared := { initial.shared with events := [("a", .duration)] } }

/-- The client deactivates the checkpoint between the two statements of the event loop that
read and write it. -/
def deactivateWhileCounting : List Label :=
  [.handle {}, .handle {}, .handle {}, .handle {}, .call 0 {}, .handle {}, .call 0 {}, .handle {}]

/-- The event is counted, and the checkpoint stays deactivated. -/
theorem checkpoint_counts_deactivateWhileCounting :
    ∃ c r, tracker.execWhere keepsRows countAndDeactivate deactivateWhileCounting = some c ∧
      c.shared.db.checkpoints.rows = [r] ∧ r.duration = some 1 ∧ r.isActive = some false ∧
      (∀ counter : Counter, (counter.ofCheckpoint r).getD 0 =
        countAndDeactivate.shared.db.counted counter r.id +
          tracker.history (activeReads counter r.id) 0 countAndDeactivate
            deactivateWhileCounting) ∧
      (r.isActive, r.activatedAt) =
        (tracker.history (Transition.System.lastWrite (activityWrite r.id)) none
          countAndDeactivate deactivateWhileCounting).getD
          (countAndDeactivate.shared.db.activity r.id) := by
  have hend : (tracker.execWhere keepsRows countAndDeactivate deactivateWhileCounting).map
      (fun c => decide (c.loop = .idle ∧ c.shared.db.checkpoints.rows.map (fun r =>
        (r.duration, r.isActive)) = [(some 1, some false)])) = some true := by decide
  obtain ⟨c, hexec, hc⟩ := Option.map_eq_some_iff.mp hend
  obtain ⟨hidle, hrows⟩ := of_decide_eq_true hc
  obtain ⟨r, hr, hcolumns⟩ := List.map_eq_singleton_iff.mp hrows
  have hmem : r ∈ c.shared.db.checkpoints.rows := by rw [hr]; exact List.mem_cons_self
  have hcounts := checkpoint_counts rfl (Transition.System.runs_of_execWhere hexec) hidle hmem
  exact ⟨c, r, hexec, hr, congrArg Prod.fst hcolumns, congrArg Prod.snd hcolumns, hcounts⟩

end TimeTracker
