import TimeTracker.Activation
import TimeTracker.LinkedTables

/-!
# Sound tables

Besides what every statement keeps, the tables have names that differ and one active checkpoint for
each app. Nothing but the code keeps these two, and only where no other call runs in between.

* `Store.Sound`: linked tables, names, active checkpoints.
* **`Store.Sound.handlerStep`**: a statement of an event handler keeps it, if the handler still has
  what it relies on (`Handler.awaits`).
* **`Store.Sound.completes`**: so does every checkpoint call that is run to its end, and so do an
  activation that is stopped half way (`Store.Sound.halfDone`) and the insert and the delete of an
  app.
-/

namespace TimeTracker

structure Store.Sound (db : Store) : Prop extends Store.Linked db where
  names : db.appNames.Nodup
  oneActive : oneActivePerApp db

/-- A database without rows. -/
theorem Store.sound_empty (backend : Backend) :
    Store.Sound ⟨backend, .empty, .empty, .empty, .empty⟩ := by
  refine ⟨Store.linked_empty backend, List.nodup_nil, ?_⟩
  intro c hc
  cases hc

section
variable {db db' : Store}

/-! ## Apps -/

/-- An app whose name is new. -/
theorem Store.Sound.insertApp (h : db.Sound) {item productName : String} {id : Int}
    (hnew : item ∉ db.appNames)
    (hins : db.insertApp (AddProcess.newApp item productName id) = .ok db') : db'.Sound := by
  obtain ⟨apps, htable, rfl⟩ := Store.insertApp_eq_ok.mp hins
  refine ⟨h.toLinked.insertApp htable, ?_, h.oneActive⟩
  have hnames : Store.appNames { db with apps } = db.appNames ++ [item] := by
    rw [Store.appNames_eq, Store.identities_insertApp htable, List.filterMap_append,
      ← Store.appNames_eq]
    rfl
  rw [hnames, ← List.concat_eq_append]
  exact h.names.concat hnew

/-- What refers to an app goes with it. -/
theorem Store.Sound.deleteApps (h : db.Sound) (p : String) : (db.deleteApps p).Sound where
  toLinked := h.toLinked.deleteApps p
  names := h.names.sublist (Store.appNames_deleteApps_sublist db p)
  oneActive c hc c' hc' :=
    h.oneActive c (Table.mem_delete.mp hc).1 c' (Table.mem_delete.mp hc').1

/-! ## Checkpoint calls -/

/-- A new checkpoint is not active. -/
theorem oneActivePerApp_insert {name : String} {description : Option String} {appId id : Int}
    {now : NaiveDateTime} {checkpoints : Table Checkpoints.Model} (hone : oneActivePerApp db)
    (hins : db.checkpoints.insert (CreateCheckpoint.newCheckpoint name description appId now id) =
      some checkpoints) : oneActivePerApp { db with checkpoints } := by
  have hmem := fun {c : Checkpoints.Model} => (Table.mem_insert (x := c) hins).mp
  intro c hc c' hc' hsame hactive hactive'
  rcases hmem hc with hold | rfl
  · rcases hmem hc' with hold' | rfl
    · exact hone c hold c' hold' hsame hactive hactive'
    · cases hactive'
  · cases hactive

/-- After an activation the target is the only active checkpoint of its app. -/
theorem oneActivePerApp_activated {checkpoint : Checkpoints.Model}
    {selected updated : NaiveDateTime} (hone : oneActivePerApp db)
    (hmem : checkpoint ∈ db.checkpoints.rows)
    (hrows : Rewritten (SetCheckpointActive.activated checkpoint selected updated) db db') :
    oneActivePerApp db' := by
  intro c hc c' hc' hsame hactive hactive'
  rw [hrows.rows] at hc hc'
  obtain ⟨r, hr, rfl⟩ := List.mem_map.mp hc
  obtain ⟨r', hr', rfl⟩ := List.mem_map.mp hc'
  have htarget : ∀ row ∈ db.checkpoints.rows, row.id = checkpoint.id →
      row.appId = checkpoint.appId := fun row hrow hid => by
    rw [Table.eq_of_key_eq hrow hmem hid]
  rw [SetCheckpointActive.activated_appId, SetCheckpointActive.activated_appId] at hsame
  by_cases happ : r.appId = checkpoint.appId
  · rw [SetCheckpointActive.activated_isActive happ] at hactive
    rw [SetCheckpointActive.activated_isActive (hsame ▸ happ)] at hactive'
    rw [SetCheckpointActive.activated_id, SetCheckpointActive.activated_id, hactive, hactive']
  -- the rows of another app are as they were
  · have happ' : r'.appId ≠ checkpoint.appId := hsame ▸ happ
    rw [SetCheckpointActive.activated_of_ne (htarget r hr) happ] at hactive ⊢
    rw [SetCheckpointActive.activated_of_ne (htarget r' hr') happ'] at hactive' ⊢
    exact hone r hr r' hr' hsame hactive hactive'

/-- Rows that are active after they have been rewritten are those of before. -/
theorem oneActivePerApp_rewritten {f : Checkpoints.Model → Checkpoints.Model}
    (hone : oneActivePerApp db) (hrows : Rewritten f db db')
    (hkept : ∀ r, (f r).isActive = some true → f r = r) : oneActivePerApp db' := by
  intro c hc c' hc' hsame hactive hactive'
  rw [hrows.rows] at hc hc'
  obtain ⟨r, hr, rfl⟩ := List.mem_map.mp hc
  obtain ⟨r', hr', rfl⟩ := List.mem_map.mp hc'
  have heq := hkept r hactive
  have heq' := hkept r' hactive'
  rw [heq] at hsame hactive ⊢
  rw [heq'] at hsame hactive' ⊢
  exact hone r hr r' hr' hsame hactive hactive'

/-- A row that is active after a deactivation was not the target. -/
theorem oneActivePerApp_deactivated {id : Int} {updated : NaiveDateTime}
    (hone : oneActivePerApp db)
    (hrows : Rewritten (SetCheckpointActive.deactivated id updated) db db') :
    oneActivePerApp db' := by
  apply oneActivePerApp_rewritten hone hrows
  intro r hactive
  unfold SetCheckpointActive.deactivated at hactive ⊢
  by_cases hid : r.id = id
  · rw [if_pos hid] at hactive
    cases hactive
  · exact if_neg hid

/-- A run of an activation is one statement after the other. -/
theorem Store.Linked.activationRun {call call' : SetCheckpointActive} {ls : List ActivationLabel}
    (h : db.Linked) (hrun : activation.Runs uninterrupted (call, db) ls (call', db')) :
    db'.Linked := by
  refine hrun.invariant (I := fun s => s.2.Linked) ?_ h
  rintro s (inp | checkpointId) s' hs hok hstep
  · exact hs.activationStep hstep
  · exact hok.elim

/-- A call that is run to its end is so statement by statement. -/
theorem Store.Linked.completes (h : db.Linked) {call : CheckpointCall} {r : CallResult}
    (hcall : call.Completes db r db') : db'.Linked := by
  cases hcall with
  | create _ hstep => exact h.createStep hstep
  | setActive hrun => exact h.activationRun hrun
  | delete _ hstep =>
    obtain ⟨checkpointId, -, ⟨_, -, rfl⟩ | ⟨-, rfl⟩⟩ := DeleteCheckpoint.step_cases hstep
    · exact h
    · exact h.deleteCheckpoint checkpointId

/-- What a checkpoint call can do outside its own table: a delete takes the checkpoint out of the
timeline. -/
theorem CheckpointCall.Completes.tables {call : CheckpointCall} {r : CallResult}
    (h : call.Completes db r db') :
    db'.apps = db.apps ∧ (db'.timeline = db.timeline ∨ ∃ id, db' = db.deleteCheckpoint id) := by
  cases h with
  | create _ hstep =>
    obtain ⟨_, _, _, -, ⟨_, -, rfl⟩ | ⟨-, -, _, -, rfl⟩⟩ := CreateCheckpoint.step_cases hstep
    · exact ⟨rfl, .inl rfl⟩
    · exact ⟨rfl, .inl rfl⟩
  | setActive hrun =>
    rcases SetCheckpointActive.run_find hrun with ⟨-, -, rfl⟩ |
      ⟨_, -, -, -, ⟨-, _, _, hrows⟩ | ⟨-, _, hrows⟩⟩
    · exact ⟨rfl, .inl rfl⟩
    · rw [hrows.rest]
      exact ⟨rfl, .inl rfl⟩
    · rw [hrows.rest]
      exact ⟨rfl, .inl rfl⟩
  | delete _ hstep =>
    obtain ⟨_, -, ⟨_, -, rfl⟩ | ⟨-, rfl⟩⟩ := DeleteCheckpoint.step_cases hstep
    · exact ⟨rfl, .inl rfl⟩
    · exact ⟨rfl, .inr ⟨_, rfl⟩⟩

/-- **A checkpoint call that is run to its end.** -/
theorem Store.Sound.completes (h : db.Sound) {call : CheckpointCall} {r : CallResult}
    (hcall : call.Completes db r db') : db'.Sound := by
  refine ⟨h.toLinked.completes hcall, ?_, ?_⟩
  · unfold Store.appNames
    rw [hcall.tables.1]
    exact h.names
  cases hcall with
  | create _ hstep =>
    obtain ⟨_, _, _, -, ⟨_, -, rfl⟩ | ⟨-, -, _, hins, rfl⟩⟩ := CreateCheckpoint.step_cases hstep
    · exact h.oneActive
    · exact oneActivePerApp_insert h.oneActive hins
  | setActive hrun =>
    rcases SetCheckpointActive.run_find hrun with ⟨-, -, rfl⟩ |
      ⟨_, hmem, -, -, ⟨-, _, _, hrows⟩ | ⟨-, _, hrows⟩⟩
    · exact h.oneActive
    · exact oneActivePerApp_activated h.oneActive hmem hrows
    · exact oneActivePerApp_deactivated h.oneActive hrows
  | delete _ hstep =>
    obtain ⟨_, -, ⟨_, -, rfl⟩ | ⟨-, rfl⟩⟩ := DeleteCheckpoint.step_cases hstep
    · exact h.oneActive
    · intro c hc c' hc'
      exact h.oneActive c (Table.mem_delete.mp hc).1 c' (Table.mem_delete.mp hc').1

/-- **An activation that is stopped half way** has deactivated checkpoints, and activated none. -/
theorem Store.Sound.halfDone (h : db.Sound) {checkpointId : Int}
    (hhalf : SetCheckpointActive.HalfDone checkpointId db db') : db'.Sound := by
  obtain ⟨checkpoint, now, first, rest, -, -, -, ⟨ls, hrun⟩, hrows⟩ := hhalf
  refine ⟨h.toLinked.activationRun hrun, ?_, ?_⟩
  · rw [hrows.rest]
    exact h.names
  · apply oneActivePerApp_rewritten h.oneActive hrows
    intro r hactive
    by_cases hid : r.id ∈ first.map Checkpoints.Model.id
    · rw [if_pos hid] at hactive
      cases hactive
    · exact if_neg hid

/-! ## The event handlers -/

/-- A handler renames no app. -/
theorem Handler.step_appNames {inp : Input} {hd : Handler} {next : Option Handler}
    (hstep : hd.step inp db = (next, db')) : db'.appNames = db.appNames := by
  have hids : db'.identities = db.identities := by
    cases Handler.statement_of_step hstep with
    | longestWritten hupd => exact Store.identities_updateApp hupd fun _ => rfl
    | @countWritten counter _ _ hupd =>
      exact Store.identities_updateApp hupd (counter.setApp_name _)
    | checkpointWritten _ hupd =>
      obtain ⟨_, -, rfl⟩ := Store.updateCheckpoint_eq_ok.mp hupd
      rfl
    | entryWritten hupd =>
      obtain ⟨_, -, rfl⟩ := Store.updateTimeline_eq_ok.mp hupd
      rfl
    | entryInserted hins =>
      obtain ⟨-, _, -, rfl⟩ := Store.insertTimeline_eq_ok hins
      rfl
    | _ => rfl
  rw [Store.appNames_eq, hids, ← Store.appNames_eq]

/-- A handler activates no checkpoint. -/
theorem Handler.step_oneActive {inp : Input} {hd : Handler} {next : Option Handler}
    (hone : oneActivePerApp db) (hstep : hd.step inp db = (next, db')) : oneActivePerApp db' := by
  cases Handler.statement_of_step hstep with
  | longestWritten hupd | countWritten hupd =>
    obtain ⟨_, -, rfl⟩ := Store.updateApp_eq_ok.mp hupd
    exact hone
  | @checkpointWritten counter now _ _ _ _ _ _ hupd =>
    rw [oneActivePerApp_iff] at hone ⊢
    intro appId i i' hi hi'
    have hbefore : ∀ {i}, isActiveIn db' i appId → isActiveIn db i appId :=
      isActiveIn_of_update hupd (counter.setCheckpoint_appId _ now)
        (counter.setCheckpoint_isActive _ now)
    exact hone appId i i' (hbefore hi) (hbefore hi')
  | entryWritten hupd =>
    obtain ⟨_, -, rfl⟩ := Store.updateTimeline_eq_ok.mp hupd
    exact hone
  | entryInserted hins =>
    obtain ⟨-, _, -, rfl⟩ := Store.insertTimeline_eq_ok hins
    exact hone
  | _ => exact hone

/-- **A statement of a handler** keeps the tables sound. -/
theorem Store.Sound.handlerStep (h : db.Sound) {inp : Input} {hd : Handler}
    {next : Option Handler} (hawaits : hd.awaits db) (hstep : hd.step inp db = (next, db')) :
    db'.Sound where
  toLinked := h.toLinked.handlerStep hawaits hstep
  names := by
    rw [Handler.step_appNames hstep]
    exact h.names
  oneActive := Handler.step_oneActive h.oneActive hstep

end

end TimeTracker
