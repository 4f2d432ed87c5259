import TimeTracker.CheckpointCalls

/-!
# Activations that fail

`set_checkpoint_active` deactivates the other active rows of the app one by one, before the update
of its target. There is no transaction around the statements: what has been written before one of
them fails stays. A statement fails where the database refuses it, and where another client has
deleted the row in the meantime.

* **`Deactivating`**: what a call has written at each of its points, in terms of the rows it has
  deactivated (`deactivatedRows`, a history of the run).
* **`failed_activation_iff`**: a failed call has changed nothing exactly if none of them is left.
-/

namespace TimeTracker

open Transition

/-! ## What has been written -/

/-- The rows that are left have the activity they had. -/
def activityKept (db₀ db : Store) : Prop :=
  ∀ c ∈ db.checkpoints.rows, ∃ c₀ ∈ db₀.checkpoints.rows, c₀.id = c.id ∧
    c₀.isActive = c.isActive ∧ c₀.activatedAt = c.activatedAt ∧ c₀.lastUpdated = c.lastUpdated

/-- The rows of the loop that the call has deactivated and that nobody has deleted since, as a
history of the run. -/
def deactivatedRows (ids : List Int) (s : SetCheckpointActive × Store) :
    ActivationLabel → List Int
  | .statement inp =>
    match s.1 with
    | .deactivate _ _ active _ =>
      if inp.err = none ∧ active.id ∈ s.2.checkpoints.keys then active.id :: ids else ids
    | _ => ids
  | .delete checkpointId => ids.filter (· ≠ checkpointId)

/-- What an activation has written so far, up to its last update: the rows of `ids` are not active
any more, and the other rows are the old ones. -/
structure Deactivating (db₀ : Store) (ids : List Int) (s : SetCheckpointActive × Store) :
    Prop where
  old : ∀ c ∈ s.2.checkpoints.rows, c.id ∉ ids → c ∈ db₀.checkpoints.rows
  written : ∀ id ∈ ids, ∃ c ∈ s.2.checkpoints.rows, c.id = id ∧ c.isActive = some false
  wasActive : ∀ id ∈ ids, ∃ c ∈ db₀.checkpoints.rows, c.id = id ∧ c.isActive = some true
  /-- the rows that are still to be deactivated were active, too -/
  toWrite : ∀ checkpoint now active rest, s.1 = .deactivate checkpoint now active rest →
    ∀ a ∈ active :: rest, ∃ c ∈ db₀.checkpoints.rows, c.id = a.id ∧ c.isActive = some true
  /-- before the loop nothing has been written -/
  untouched : (∃ id isActive, s.1 = .find id isActive) ∨
    (∃ checkpoint, s.1 = .selectActive checkpoint) → ids = []

instance (db₀ db : Store) : Decidable (activityKept db₀ db) := by
  unfold activityKept
  infer_instance

/-- After the last update a call has not failed. -/
def Deactivating.orOk (db₀ : Store) (ids : List Int) (s : SetCheckpointActive × Store) : Prop :=
  s.1 = .returned (.ok ()) ∨ Deactivating db₀ ids s

section
variable {db₀ db : Store} {ids : List Int} {call call' : SetCheckpointActive}

/-- A step that writes nothing. -/
theorem Deactivating.set_call (h : Deactivating db₀ ids (call, db))
    (htoWrite : ∀ checkpoint now active rest, call' = .deactivate checkpoint now active rest →
      ∀ a ∈ active :: rest, ∃ c ∈ db₀.checkpoints.rows, c.id = a.id ∧ c.isActive = some true)
    (huntouched : (∃ id isActive, call' = .find id isActive) ∨
      (∃ checkpoint, call' = .selectActive checkpoint) → ids = []) :
    Deactivating db₀ ids (call', db) :=
  ⟨h.old, h.written, h.wasActive, htoWrite, huntouched⟩

theorem Deactivating.error (h : Deactivating db₀ ids (call, db)) (e : BoxError) :
    Deactivating db₀ ids (.returned (.error e), db) :=
  h.set_call (fun _ _ _ _ h => by cases h) fun h => by
    rcases h with ⟨_, _, h⟩ | ⟨_, h⟩ <;> cases h

/-- Another client deletes a checkpoint. -/
theorem Deactivating.delete (h : Deactivating db₀ ids (call, db)) (checkpointId : Int) :
    Deactivating db₀ (ids.filter (· ≠ checkpointId)) (call, db.deleteCheckpoint checkpointId) := by
  have hids : ∀ id, id ∈ ids.filter (· ≠ checkpointId) ↔ id ∈ ids ∧ id ≠ checkpointId :=
    fun id => by rw [List.mem_filter, decide_eq_true_iff]
  have hrows : ∀ c, c ∈ (db.deleteCheckpoint checkpointId).checkpoints.rows ↔
      c ∈ db.checkpoints.rows ∧ c.id ≠ checkpointId := fun c => by
    show c ∈ (db.checkpoints.delete _).rows ↔ _
    rw [Table.mem_delete, decide_eq_false_iff_not]
  refine ⟨fun c hc hnot => ?_, fun id hid => ?_, fun id hid => ?_, h.toWrite, fun hfirst => ?_⟩
  · obtain ⟨hc, hne⟩ := (hrows c).mp hc
    exact h.old c hc fun hmem => hnot ((hids c.id).mpr ⟨hmem, hne⟩)
  · obtain ⟨hid, hne⟩ := (hids id).mp hid
    obtain ⟨c, hc, rfl, hact⟩ := h.written id hid
    exact ⟨c, (hrows c).mpr ⟨hc, hne⟩, rfl, hact⟩
  · exact h.wasActive id ((hids id).mp hid).1
  · rw [h.untouched hfirst, List.filter_nil]

/-- A deactivating update. -/
theorem Deactivating.deactivate {checkpoint active : Checkpoints.Model} {now : NaiveDateTime}
    {rest : List Checkpoints.Model} {db' : Store}
    (h : Deactivating db₀ ids (.deactivate checkpoint now active rest, db))
    (hupd : Rewritten (fun c => if c.id = active.id then
      SetCheckpointActive.setInactive now c else c) db db')
    (hkey : active.id ∈ db.checkpoints.keys) :
    Deactivating db₀ (active.id :: ids)
      (SetCheckpointActive.deactivateAll checkpoint now rest, db') := by
  have hrow : ∀ c ∈ db.checkpoints.rows, (if c.id = active.id then
      SetCheckpointActive.setInactive now c else c) ∈ db'.checkpoints.rows := fun c hc => by
    rw [hupd.rows]
    exact List.mem_map_of_mem hc
  refine ⟨fun c' hc' hnot => ?_, fun id hid => ?_, fun id hid => ?_, ?_, fun hfirst => ?_⟩
  · rw [hupd.rows] at hc'
    obtain ⟨c, hc, rfl⟩ := List.mem_map.mp hc'
    rw [List.mem_cons, not_or] at hnot
    -- the row that was written carries the id of the list's head
    split at hnot
    · next hid => exact absurd hid hnot.1
    · next hid =>
      rw [if_neg hid]
      exact h.old c hc hnot.2
  · by_cases hactive : id = active.id
    · obtain ⟨c, hc, hcid⟩ := Table.mem_keys.mp hkey
      have hcid : c.id = active.id := hcid
      refine ⟨_, hrow c hc, ?_, ?_⟩
      · rw [if_pos hcid, hactive, ← hcid]
        rfl
      · rw [if_pos hcid]
        rfl
    · obtain ⟨c, hc, rfl, hact⟩ := h.written id ((List.mem_cons.mp hid).resolve_left hactive)
      have hmem := hrow c hc
      rw [if_neg hactive] at hmem
      exact ⟨c, hmem, rfl, hact⟩
  · rcases List.mem_cons.mp hid with rfl | hid
    · exact h.toWrite _ _ _ _ rfl active List.mem_cons_self
    · exact h.wasActive id hid
  · intro checkpoint' now' active' rest' heq a ha
    cases rest with
    | nil => cases heq
    | cons b rest =>
      cases heq
      exact h.toWrite _ _ _ _ rfl a (List.mem_cons_of_mem _ ha)
  · cases rest <;> rcases hfirst with ⟨_, _, heq⟩ | ⟨_, heq⟩ <;> cases heq

/-- The first two statements write nothing. -/
theorem Deactivating.find {inp : Input} {id : Int} {isActive : Bool}
    {s' : SetCheckpointActive × Store} (h : Deactivating db₀ ids (.find id isActive, db))
    (hstep : (SetCheckpointActive.find id isActive).step inp db = some s') :
    Deactivating db₀ ids s' := by
  have hids : ids = [] := h.untouched (.inl ⟨id, isActive, rfl⟩)
  simp only [SetCheckpointActive.step] at hstep
  split at hstep
  · cases hstep
    exact h.error _
  · cases hstep
    exact h.error _
  · split at hstep <;> cases hstep <;>
      exact h.set_call (fun _ _ _ _ heq => by cases heq) fun _ => hids

theorem Deactivating.selectActive {inp : Input} {checkpoint : Checkpoints.Model}
    {s' : SetCheckpointActive × Store} (h : Deactivating db₀ ids (.selectActive checkpoint, db))
    (hstep : (SetCheckpointActive.selectActive checkpoint).step inp db = some s') :
    Deactivating db₀ ids s' := by
  have hids : ids = [] := h.untouched (.inr ⟨checkpoint, rfl⟩)
  simp only [SetCheckpointActive.step] at hstep
  split at hstep
  · cases hstep
    exact h.error _
  · next active hst =>
    cases hstep
    have hactive := Except.ok.inj (Input.statement_eq_ok.mp hst).2
    refine h.set_call (fun checkpoint' now active' rest heq a ha => ?_) fun _ => hids
    have hmem : a ∈ active := by
      cases active with
      | nil => cases heq
      | cons b rest =>
        cases heq
        exact ha
    -- the rows that are selected now are those of the start
    rw [← hactive] at hmem
    obtain ⟨hrow, -, hact, -⟩ := SetCheckpointActive.mem_otherActive.mp hmem
    exact ⟨a, h.old a hrow (hids ▸ List.not_mem_nil), rfl, hact⟩

/-- A turn of the loop: the row is deactivated, or the call fails and writes nothing. -/
theorem Deactivating.loop {inp : Input} {checkpoint active : Checkpoints.Model}
    {now : NaiveDateTime} {rest : List Checkpoints.Model} {s' : SetCheckpointActive × Store}
    (h : Deactivating db₀ ids (.deactivate checkpoint now active rest, db))
    (hstep : (SetCheckpointActive.deactivate checkpoint now active rest).step inp db = some s') :
    Deactivating db₀
      (deactivatedRows ids (.deactivate checkpoint now active rest, db) (.statement inp)) s' := by
  simp only [SetCheckpointActive.step] at hstep
  simp only [deactivatedRows]
  split at hstep
  · next e hst =>
    cases hstep
    rw [if_neg]
    · exact h.error _
    · rintro ⟨hinp, hkey⟩
      obtain ⟨db', hupd⟩ := exists_updateCheckpoint
        (SetCheckpointActive.setInactive now) (fun _ => rfl) hkey
      rw [Input.statement_of_none hinp, hupd] at hst
      cases hst
  · next db' hst =>
    cases hstep
    obtain ⟨hinp, hupd⟩ := Input.statement_eq_ok.mp hst
    obtain ⟨checkpoints, htable, rfl⟩ := Store.updateCheckpoint_eq_ok.mp hupd
    have hkey : active.id ∈ db.checkpoints.keys := (Table.update_eq_some.mp htable).1
    rw [if_pos ⟨hinp, hkey⟩]
    exact h.deactivate (rewritten_update hupd) hkey

/-- **What one step of the call, or of another client, does** to what has been written so far. -/
theorem deactivating_step (ids : List Int) (s : SetCheckpointActive × Store) (l : ActivationLabel)
    (s' : SetCheckpointActive × Store) (h : Deactivating.orOk db₀ ids s) (_ : True)
    (hstep : activation.step s l = some s') :
    Deactivating.orOk db₀ (deactivatedRows ids s l) s' := by
  obtain ⟨call, db⟩ := s
  rcases h with hok | h
  · -- the call is over, only another client can take a step
    have hok : call = .returned (.ok ()) := hok
    subst hok
    cases l with
    | statement inp => cases hstep
    | delete checkpointId =>
      cases hstep
      exact .inl rfl
  cases l with
  | delete checkpointId =>
    cases hstep
    exact .inr (h.delete checkpointId)
  | statement inp =>
    have hstep : call.step inp db = some s' := hstep
    cases call with
    | returned r => cases hstep
    | find id isActive => exact .inr (h.find hstep)
    | selectActive checkpoint => exact .inr (h.selectActive hstep)
    | deactivate checkpoint now active rest => exact .inr (h.loop hstep)
    | update checkpoint isActive =>
      simp only [SetCheckpointActive.step] at hstep
      split at hstep
      · cases hstep
        exact .inr (h.error _)
      · cases hstep
        exact .inl rfl

end

/-- **A failed activation has changed nothing** if and only if none of the rows that it has
deactivated is left: at every statement that can fail, whatever other clients delete meanwhile. -/
theorem failed_activation_iff {db₀ db : Store} {id : Int} {isActive : Bool}
    {ls : List ActivationLabel} {e : BoxError}
    (hrun : activation.Runs (fun _ _ => True) (.find id isActive, db₀) ls
      (.returned (.error e), db)) :
    activityKept db₀ db ↔
      activation.history deactivatedRows [] (.find id isActive, db₀) ls = [] := by
  have hstart : Deactivating.orOk db₀ [] (.find id isActive, db₀) :=
    .inr ⟨fun _ hc _ => hc, fun _ h => absurd h List.not_mem_nil,
      fun _ h => absurd h List.not_mem_nil, fun _ _ _ _ h => (by cases h), fun _ => rfl⟩
  have hend := hrun.invariant_history deactivating_step hstart
  rcases hend with hok | hend
  · cases hok
  constructor
  · intro hkept
    refine List.eq_nil_iff_forall_not_mem.mpr fun i hi => ?_
    -- a deactivated row was active before, and that it is not any more was to be excluded
    obtain ⟨c, hc, hcid, hinactive⟩ := hend.written i hi
    obtain ⟨c₀, hc₀, hid₀, hact₀⟩ := hend.wasActive i hi
    obtain ⟨c₁, hc₁, hid₁, hact₁, -⟩ := hkept c hc
    have heq : c₁ = c₀ := Table.eq_of_key_eq hc₁ hc₀ (hid₁.trans (hcid.trans hid₀.symm))
    rw [heq, hact₀, hinactive] at hact₁
    cases hact₁
  · intro hids c hc
    rw [hids] at hend
    exact ⟨c, hend.old c hc List.not_mem_nil, rfl, rfl, rfl, rfl⟩

/-- The app `a` with three checkpoints, of which two are active, and an activation of the third
one that the database refuses at the first deactivating update. -/
def refusedAtFirstUpdate : List ActivationLabel :=
  [.statement {}, .statement {}, .statement { err := some (.exec "disk is full") }]

/-- The activation deactivates the two, but another client deletes its target meanwhile. -/
def targetDeleted : List ActivationLabel :=
  [.statement {}, .statement {}, .statement {}, .delete 1, .statement {}, .statement {}]

/-- Nothing has changed where the first update fails. -/
theorem failed_activation_refusedAtFirstUpdate :
    ∃ e db, activation.Runs (fun _ _ => True) (.find 1 true, twoActiveOfThree)
        refusedAtFirstUpdate (.returned (.error e), db) ∧ activityKept twoActiveOfThree db := by
  have hend : (activation.exec (.find 1 true, twoActiveOfThree) refusedAtFirstUpdate).map
      (fun s => decide (s.1 = .returned (.error (.db (.exec "disk is full"))))) = some true := by
    decide
  obtain ⟨⟨call, db⟩, hexec, hcall⟩ := Option.map_eq_some_iff.mp hend
  have hcall : call = _ := of_decide_eq_true hcall
  subst hcall
  have hrun := System.runs_of_exec hexec
  exact ⟨_, db, hrun, (failed_activation_iff hrun).mpr (by decide)⟩

/-- **Two checkpoints are deactivated, and none is active**, after an activation that returns an
error: its target was deleted before the last update. -/
theorem failed_activation_targetDeleted :
    ¬ ∀ (db₀ db : Store) (id : Int) (isActive : Bool) (ls : List ActivationLabel) (e : BoxError),
      activation.Runs (fun _ _ => True) (.find id isActive, db₀) ls (.returned (.error e), db) →
      activityKept db₀ db := by
  intro hall
  have hend : (activation.exec (.find 1 true, twoActiveOfThree) targetDeleted).map
      (fun s => decide (s.1 = .returned (.error (.db .recordNotUpdated)) ∧
        ¬ activityKept twoActiveOfThree s.2)) = some true := by
    decide
  obtain ⟨⟨call, db⟩, hexec, hs⟩ := Option.map_eq_some_iff.mp hend
  obtain ⟨hcall, hchanged⟩ := of_decide_eq_true hs
  have hcall : call = _ := hcall
  subst hcall
  exact hchanged (hall _ _ _ _ _ _ (System.runs_of_exec hexec))

end TimeTracker
