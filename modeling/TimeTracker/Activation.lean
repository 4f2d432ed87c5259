import TimeTracker.Steps

/-!
# Activating checkpoints at the same time

An activation selects the other active checkpoints of its app, deactivates them one by one,
and then activates its target. Between the select and the last update another activation may
activate a checkpoint that is on nobody's list.

* `one_active_per_app`: no app gets two active checkpoints, in every run in which a
  checkpoint is activated only while every other activation of its app that has made its
  select is going to deactivate it, or targets it as well;
* `two_active`: without that condition, two overlapping activations both succeed and leave
  two active checkpoints.
-/

namespace TimeTracker

/-- No app has two active checkpoints. -/
def oneActivePerApp (db : Store) : Prop :=
  ∀ c ∈ db.checkpoints.rows, ∀ c' ∈ db.checkpoints.rows,
    c.appId = c'.appId → c.isActive = some true → c'.isActive = some true → c.id = c'.id

instance (db : Store) : Decidable (oneActivePerApp db) := by
  unfold oneActivePerApp
  infer_instance

/-- Checkpoint `id` is a checkpoint of `appId`, and active. -/
def isActiveIn (db : Store) (id appId : Int) : Prop :=
  ∃ c ∈ db.checkpoints.rows, c.id = id ∧ c.appId = appId ∧ c.isActive = some true

theorem oneActivePerApp_iff {db : Store} :
    oneActivePerApp db ↔
      ∀ appId id id', isActiveIn db id appId → isActiveIn db id' appId → id = id' := by
  constructor
  · rintro h appId _ _ ⟨c, hc, rfl, happ, hact⟩ ⟨c', hc', rfl, happ', hact'⟩
    exact h c hc c' hc' (happ.trans happ'.symm) hact hact'
  · intro h c hc c' hc' happ hact hact'
    exact h c'.appId c.id c'.id ⟨c, hc, rfl, happ, hact⟩ ⟨c', hc', rfl, rfl, hact'⟩

/-! ## What the statements do to the active checkpoints -/

section
variable {db db' : Store} {id i appId : Int} {now : NaiveDateTime}

/-- After an update that leaves the app column alone, the rows belong to the apps they
belonged to. -/
theorem appId_of_update {set : Checkpoints.Model → Checkpoints.Model}
    {hset : ∀ c, Keyed.key (set c) = Keyed.key c}
    (h : db.updateCheckpoint id set hset = .ok db') (happ : ∀ c, (set c).appId = c.appId) :
    ∀ row ∈ db'.checkpoints.rows, ∃ r ∈ db.checkpoints.rows,
      r.id = row.id ∧ r.appId = row.appId := by
  obtain ⟨checkpoints, hupd, rfl⟩ := Store.updateCheckpoint_eq_ok.mp h
  intro row hrow
  obtain ⟨r, hr, rfl⟩ := (Table.mem_update hupd).mp hrow
  refine ⟨r, hr, ?_⟩
  split
  · exact ⟨(hset r).symm, (happ r).symm⟩
  · exact ⟨rfl, rfl⟩

/-- A row that is active after an update that leaves the activity alone was active before. -/
theorem isActiveIn_of_update {set : Checkpoints.Model → Checkpoints.Model}
    {hset : ∀ c, Keyed.key (set c) = Keyed.key c}
    (h : db.updateCheckpoint id set hset = .ok db')
    (happ : ∀ c, (set c).appId = c.appId) (hact : ∀ c, (set c).isActive = c.isActive)
    (hactive : isActiveIn db' i appId) :
    isActiveIn db i appId := by
  obtain ⟨checkpoints, hupd, rfl⟩ := Store.updateCheckpoint_eq_ok.mp h
  obtain ⟨c, hc, hid, ha, hactive⟩ := hactive
  obtain ⟨r, hr, rfl⟩ := (Table.mem_update hupd).mp hc
  by_cases hkey : Keyed.key r = id
  · rw [if_pos hkey] at hid ha hactive
    exact ⟨r, hr, (hset r).symm.trans hid, (happ r).symm.trans ha, (hact r).symm.trans hactive⟩
  · rw [if_neg hkey] at hid ha hactive
    exact ⟨r, hr, hid, ha, hactive⟩

/-- A row that is active after an update of its activity: one that was active and is not the
updated one, or the updated one, if it was activated. -/
theorem isActiveIn_setActivity {value : Bool} {set : Checkpoints.Model → Checkpoints.Model}
    {hset : ∀ c, Keyed.key (set c) = Keyed.key c}
    (h : db.updateCheckpoint id set hset = .ok db')
    (happ : ∀ c, (set c).appId = c.appId) (hact : ∀ c, (set c).isActive = some value)
    (hactive : isActiveIn db' i appId) :
    (isActiveIn db i appId ∧ i ≠ id) ∨
      (value = true ∧ i = id ∧ ∃ c ∈ db.checkpoints.rows, c.id = id ∧ c.appId = appId) := by
  obtain ⟨checkpoints, hupd, rfl⟩ := Store.updateCheckpoint_eq_ok.mp h
  obtain ⟨c, hc, rfl, ha, hactive⟩ := hactive
  obtain ⟨r, hr, rfl⟩ := (Table.mem_update hupd).mp hc
  by_cases hkey : Keyed.key r = id
  · rw [if_pos hkey] at ha hactive ⊢
    have hid : (set r).id = id := (hset r).trans hkey
    have hvalue : value = true := Option.some.inj ((hact r).symm.trans hactive)
    exact .inr ⟨hvalue, hid, r, hr, hkey, (happ r).symm.trans ha⟩
  · rw [if_neg hkey] at ha hactive ⊢
    exact .inl ⟨⟨r, hr, rfl, ha, hactive⟩, hkey⟩

end

/-! ## The activations -/

/-- The rows an activation past its select is still going to deactivate, with its target. -/
def SetCheckpointActive.remaining : SetCheckpointActive → Option (Checkpoints.Model × List Int)
  | .deactivate checkpoint _ active rest =>
    some (checkpoint, active.id :: rest.map Checkpoints.Model.id)
  | .update checkpoint true => some (checkpoint, [])
  | _ => none

theorem SetCheckpointActive.remaining_deactivateAll (checkpoint : Checkpoints.Model)
    (now : NaiveDateTime) (active : List Checkpoints.Model) :
    (deactivateAll checkpoint now active).remaining =
      some (checkpoint, active.map Checkpoints.Model.id) := by
  cases active <;> rfl

/-- The row a call of `set_checkpoint_active` has read as its target. -/
def SetCheckpointActive.target : SetCheckpointActive → Option Checkpoints.Model
  | .selectActive checkpoint | .deactivate checkpoint _ _ _ | .update checkpoint _ =>
    some checkpoint
  | _ => none

/-- An activation that has made its select takes care of checkpoint `id` of `appId`: it is
its own target, or still to be deactivated. -/
def Call.covers (appId id : Int) : Call → Bool
  | .setCheckpointActive call =>
    match call.remaining with
    | some (checkpoint, ids) => checkpoint.appId ≠ appId || checkpoint.id = id || id ∈ ids
    | none => true
  | _ => true

/-- A checkpoint is activated only while every other activation of its app past its select
takes care of it. -/
def activationsCovered (c : Config) : Label → Prop
  | .call k _ =>
    match c.calls[k]? with
    | some (.setCheckpointActive (.update checkpoint true)) =>
      ∀ other ∈ c.calls.eraseIdx k, other.covers checkpoint.appId checkpoint.id = true
    | _ => True
  | _ => True

instance (c : Config) (l : Label) : Decidable (activationsCovered c l) := by
  unfold activationsCovered
  split
  · split <;> infer_instance
  · infer_instance

/-- An active checkpoint is taken care of by every activation of its app past its select, and
the target an activation has read still belongs to the app it belonged to. -/
structure ActivationInvariant (c : Config) : Prop where
  one : oneActivePerApp c.shared.db
  calls : ∀ call ∈ c.calls, ∃ a, call = .setCheckpointActive a
  target : ∀ a checkpoint, Call.setCheckpointActive a ∈ c.calls → a.target = some checkpoint →
    ∀ row ∈ c.shared.db.checkpoints.rows, row.id = checkpoint.id → row.appId = checkpoint.appId
  covered : ∀ call ∈ c.calls, ∀ id appId, isActiveIn c.shared.db id appId →
    call.covers appId id = true

/-- A step after which the rows belong to the same apps, no new checkpoint is active, and the
calls are as they were. -/
theorem ActivationInvariant.of_subset {c c' : Config} (hinv : ActivationInvariant c)
    (hcalls : c'.calls = c.calls)
    (hrows : ∀ row ∈ c'.shared.db.checkpoints.rows, ∃ r ∈ c.shared.db.checkpoints.rows,
      r.id = row.id ∧ r.appId = row.appId)
    (hactive : ∀ i appId, isActiveIn c'.shared.db i appId → isActiveIn c.shared.db i appId) :
    ActivationInvariant c' where
  one := oneActivePerApp_iff.mpr fun appId id id' h h' =>
    oneActivePerApp_iff.mp hinv.one appId id id' (hactive _ _ h) (hactive _ _ h')
  calls := hcalls ▸ hinv.calls
  target a checkpoint ha htarget row hrow hid := by
    obtain ⟨r, hr, hrid, hrapp⟩ := hrows row hrow
    rw [← hrapp]
    exact hinv.target a checkpoint (hcalls ▸ ha) htarget r hr (hrid.trans hid)
  covered call hcall id appId h := hinv.covered call (hcalls ▸ hcall) id appId (hactive _ _ h)

/-- The select of an activation lists every active checkpoint of the app but the target. -/
theorem covers_selectActive {db : Store} {checkpoint : Checkpoints.Model} {now : NaiveDateTime}
    {i appId : Int} (hactive : isActiveIn db i appId) :
    (Call.setCheckpointActive (SetCheckpointActive.deactivateAll checkpoint now
      (SetCheckpointActive.otherActive db checkpoint))).covers appId i = true := by
  obtain ⟨c, hc, rfl, happ, hact⟩ := hactive
  rw [Call.covers, SetCheckpointActive.remaining_deactivateAll]
  simp only [Bool.or_eq_true, decide_eq_true_eq]
  -- an active row of the app that is not the target is one the select returns
  by_cases hother : checkpoint.appId = appId ∧ checkpoint.id ≠ c.id
  · refine .inr (List.mem_map.mpr ⟨c, ?_, rfl⟩)
    rw [SetCheckpointActive.otherActive, Table.mem_all]
    simp [hc, happ, hact, hother.1, Ne.symm hother.2]
  · grind

section
variable {c : Config} {k : Nat} {a a' : SetCheckpointActive} {db : Store}

/-- A step of activation `k` keeps the invariant if the rows belong to the same apps, the new
state of `k` fits the rows, and every activation takes care of whatever is active now. -/
theorem ActivationInvariant.set_call (hinv : ActivationInvariant c)
    (hrows : ∀ row ∈ db.checkpoints.rows, ∃ r ∈ c.shared.db.checkpoints.rows,
      r.id = row.id ∧ r.appId = row.appId)
    (hone : oneActivePerApp db)
    (htarget : ∀ checkpoint, a'.target = some checkpoint →
      ∀ row ∈ db.checkpoints.rows, row.id = checkpoint.id → row.appId = checkpoint.appId)
    (hself : ∀ i appId, isActiveIn db i appId →
      (Call.setCheckpointActive a').covers appId i = true)
    (hothers : ∀ j call, j ≠ k → c.calls[j]? = some call → ∀ i appId, isActiveIn db i appId →
      call.covers appId i = true) :
    ActivationInvariant { c with
      shared := { c.shared with db }
      calls := c.calls.set k (.setCheckpointActive a') } where
  one := hone
  calls := Pool.forall_set ⟨a', rfl⟩ hinv.calls fun _ _ _ _ h => h
  target b checkpoint hb hcheckpoint row hrow hid := by
    rcases List.mem_or_eq_of_mem_set hb with hb | heq
    · obtain ⟨r, hr, hrid, hrapp⟩ := hrows row hrow
      rw [← hrapp]
      exact hinv.target b checkpoint hb hcheckpoint r hr (hrid.trans hid)
    · cases heq
      exact htarget checkpoint hcheckpoint row hrow hid
  covered call hcall id appId hactive := by
    revert call
    exact Pool.forall_set (P := fun _ => True) (hself id appId hactive) (fun _ _ => trivial)
      fun j call hjk hj _ => hothers j call hjk hj id appId hactive

/-- A step of activation `k` after which no new checkpoint is active. -/
theorem ActivationInvariant.set_call_of_subset (hinv : ActivationInvariant c)
    (hrows : ∀ row ∈ db.checkpoints.rows, ∃ r ∈ c.shared.db.checkpoints.rows,
      r.id = row.id ∧ r.appId = row.appId)
    (hactive : ∀ i appId, isActiveIn db i appId → isActiveIn c.shared.db i appId)
    (htarget : ∀ checkpoint, a'.target = some checkpoint →
      ∀ row ∈ db.checkpoints.rows, row.id = checkpoint.id → row.appId = checkpoint.appId)
    (hself : ∀ i appId, isActiveIn db i appId →
      (Call.setCheckpointActive a').covers appId i = true) :
    ActivationInvariant { c with
      shared := { c.shared with db }
      calls := c.calls.set k (.setCheckpointActive a') } := by
  refine hinv.set_call hrows ?_ htarget hself ?_
  · exact oneActivePerApp_iff.mpr fun appId id id' h h' =>
      oneActivePerApp_iff.mp hinv.one appId id id' (hactive _ _ h) (hactive _ _ h')
  · intro j call _ hj i appId h
    exact hinv.covered call (List.mem_of_getElem? hj) i appId (hactive i appId h)

end

/-- The activating update: whatever was active in the app was on the list of this activation,
so only the target is active now, and the others take care of it. -/
theorem activationInvariant_activate {c : Config} {k : Nat} {checkpoint : Checkpoints.Model}
    {now : NaiveDateTime} {db : Store} {result : CallResult} (hinv : ActivationInvariant c)
    (hk : c.calls[k]? = some (.setCheckpointActive (.update checkpoint true)))
    (hok : ∀ other ∈ c.calls.eraseIdx k, other.covers checkpoint.appId checkpoint.id = true)
    (hupd : c.shared.db.updateCheckpoint checkpoint.id
      (SetCheckpointActive.setActive true now) (fun _ => rfl) = .ok db) :
    ActivationInvariant { c with
      shared := { c.shared with db }
      calls := c.calls.set k (.setCheckpointActive (.returned result)) } := by
  have hcall := List.mem_of_getElem? hk
  -- what is active now: what was, except the target; or the target, in its app
  have hnow : ∀ i appId, isActiveIn db i appId →
      (isActiveIn c.shared.db i appId ∧ i ≠ checkpoint.id) ∨
        (i = checkpoint.id ∧ appId = checkpoint.appId) := by
    intro i appId h
    rcases isActiveIn_setActivity hupd (fun _ => rfl) (fun _ => rfl) h with hold | ⟨-, hi, r, hr, hid, happ⟩
    · exact .inl hold
    · exact .inr ⟨hi, happ.symm.trans (hinv.target _ checkpoint hcall rfl r hr hid)⟩
  have hnone : ∀ i, isActiveIn c.shared.db i checkpoint.appId → i = checkpoint.id := by
    intro i h
    have hcovers := hinv.covered _ hcall i checkpoint.appId h
    simpa [Call.covers, SetCheckpointActive.remaining, eq_comm] using hcovers
  -- the target may have been active before, but no other checkpoint of its app is
  refine hinv.set_call (appId_of_update hupd fun _ => rfl) ?_ (fun _ h => by cases h)
    (fun _ _ _ => rfl) ?_
  · refine oneActivePerApp_iff.mpr fun appId id id' h h' => ?_
    rcases hnow id appId h with ⟨hold, hne⟩ | ⟨hid, happ⟩ <;>
      rcases hnow id' appId h' with ⟨hold', hne'⟩ | ⟨hid', happ'⟩
    · exact oneActivePerApp_iff.mp hinv.one appId id id' hold hold'
    · exact absurd (hnone id (happ' ▸ hold)) hne
    · exact absurd (hnone id' (happ ▸ hold')) hne'
    · rw [hid, hid']
  · intro j call hjk hj i appId h
    rcases hnow i appId h with ⟨hold, -⟩ | ⟨rfl, rfl⟩
    · exact hinv.covered call (List.mem_of_getElem? hj) i appId hold
    · exact hok call (List.mem_eraseIdx_iff_getElem?.mpr ⟨j, hjk, hj⟩)

theorem activationInvariant_call {c c' : Config} {k : Nat} {inp : Input}
    (hinv : ActivationInvariant c) (hok : activationsCovered c (.call k inp))
    (h : tracker.step c (.call k inp) = some c') : ActivationInvariant c' := by
  obtain ⟨call, call', s, hk, hstep, rfl⟩ := step_call h
  have hcall := List.mem_of_getElem? hk
  obtain ⟨a, rfl⟩ := hinv.calls call hcall
  obtain ⟨db, rfl, a', rfl, ha⟩ := Call.stepDb_shared hstep
  have htarget := fun checkpoint => hinv.target a checkpoint hcall
  have hsame : ∀ row ∈ c.shared.db.checkpoints.rows, ∃ r ∈ c.shared.db.checkpoints.rows,
      r.id = row.id ∧ r.appId = row.appId := fun row hrow => ⟨row, hrow, rfl, rfl⟩
  rcases SetCheckpointActive.step_cases ha with ⟨e, rfl, rfl⟩ |
    ⟨id, isActive, checkpoint, rfl, rfl, hfound, rfl⟩ | ⟨checkpoint, rfl, rfl, rfl⟩ |
    ⟨checkpoint, now, active, rest, rfl, hupd, rfl⟩ | ⟨checkpoint, isActive, rfl, hupd, rfl⟩
  · exact hinv.set_call_of_subset hsame (fun _ _ h => h) (fun _ h => by cases h) fun _ _ _ => rfl
  · -- the row that was read is the row that is there
    have hread : ∀ row ∈ c.shared.db.checkpoints.rows, row.id = checkpoint.id →
        row.appId = checkpoint.appId := by
      intro row hrow hid
      rw [Table.eq_of_key_eq hrow (Table.mem_of_byKey hfound).1 hid]
    refine hinv.set_call_of_subset hsame (fun _ _ h => h) ?_ ?_
    · intro checkpoint' h
      cases isActive <;> cases h <;> exact hread
    · intro i appId _
      cases isActive <;> rfl
  · refine hinv.set_call_of_subset hsame (fun _ _ h => h) ?_ fun _ _ h => covers_selectActive h
    intro checkpoint' h
    have heq : checkpoint' = checkpoint := by
      cases hlist : SetCheckpointActive.otherActive c.shared.db checkpoint <;>
        rw [hlist] at h <;> cases h <;> rfl
    exact heq ▸ htarget checkpoint rfl
  · -- one row less to deactivate, and it is not active any more
    have hnow : ∀ i appId, isActiveIn db i appId →
        isActiveIn c.shared.db i appId ∧ i ≠ active.id := by
      intro i appId h
      rcases isActiveIn_setActivity hupd (fun _ => rfl) (fun _ => rfl) h with hold | ⟨hval, -⟩
      · exact hold
      · cases hval
    have hrows := appId_of_update hupd fun _ => rfl
    refine hinv.set_call_of_subset hrows (fun i appId h => (hnow i appId h).1) ?_ ?_
    · intro checkpoint' h row hrow hid
      obtain ⟨r, hr, hrid, hrapp⟩ := hrows row hrow
      have heq : checkpoint' = checkpoint := by cases rest <;> cases h <;> rfl
      rw [← hrapp, heq]
      exact htarget checkpoint rfl r hr (hrid.trans (heq ▸ hid))
    · intro i appId h
      obtain ⟨hold, hne⟩ := hnow i appId h
      have hcovers := hinv.covered _ hcall i appId hold
      rw [Call.covers, SetCheckpointActive.remaining_deactivateAll]
      simpa [Call.covers, SetCheckpointActive.remaining, hne] using hcovers
  · cases isActive with
    | true =>
      simp only [activationsCovered, hk] at hok
      exact activationInvariant_activate hinv hk hok hupd
    | false =>
      have hnow : ∀ i appId, isActiveIn db i appId → isActiveIn c.shared.db i appId := by
        intro i appId h
        rcases isActiveIn_setActivity hupd (fun _ => rfl) (fun _ => rfl) h with hold | ⟨hval, -⟩
        · exact hold.1
        · cases hval
      exact hinv.set_call_of_subset (appId_of_update hupd fun _ => rfl) hnow
        (fun _ h => by cases h) fun _ _ _ => rfl

theorem activationInvariant_step (c : Config) (l : Label) (c' : Config)
    (hinv : ActivationInvariant c) (hok : activationsCovered c l)
    (h : tracker.step c l = some c') : ActivationInvariant c' := by
  cases hl : l.isCall with
  | false =>
    obtain ⟨hcalls, hdb⟩ := step_db_of_not_call hl h
    have hrows : c'.shared.db.checkpoints = c.shared.db.checkpoints → ActivationInvariant c' := by
      intro heq
      refine hinv.of_subset hcalls (fun row hrow => ⟨row, heq ▸ hrow, rfl, rfl⟩) ?_
      rintro i appId ⟨r, hr, hactive⟩
      exact ⟨r, heq ▸ hr, hactive⟩
    rcases hdb with hdb | ⟨inp, loop, events, hstep⟩
    · exact hrows (by rw [hdb])
    · rcases EventLoop.step_checkpoints hstep with heq | ⟨_, counter, _, _, _, _, -, hupd⟩
      · exact hrows heq
      · -- the counters of a checkpoint say nothing about its activity
        have happ := counter.setCheckpoint_appId
        have hact := counter.setCheckpoint_isActive
        exact hinv.of_subset hcalls (appId_of_update hupd (happ _ _)) fun _ _ =>
          isActiveIn_of_update hupd (happ _ _) (hact _ _)
  | true =>
    cases l with
    | call k inp => exact activationInvariant_call hinv hok h
    | _ => cases hl

/-! ## Runs -/

/-- **No app gets two active checkpoints**, in every state of every run of the activations in
which a checkpoint is activated only while the other activations take care of it. -/
theorem one_active_per_app {c₀ c : Config} {ls : List Label}
    (hone : oneActivePerApp c₀.shared.db)
    (hcalls : ∀ call ∈ c₀.calls, ∃ id isActive, call = .setCheckpointActive (.find id isActive))
    (hrun : tracker.Runs activationsCovered c₀ ls c) : oneActivePerApp c.shared.db := by
  refine (hrun.invariant activationInvariant_step ⟨hone, ?_, ?_, ?_⟩).one
  · intro call hcall
    obtain ⟨id, isActive, rfl⟩ := hcalls call hcall
    exact ⟨_, rfl⟩
  · intro a checkpoint ha htarget
    obtain ⟨id, isActive, heq⟩ := hcalls _ ha
    cases heq
    cases htarget
  · intro call hcall _ _ _
    obtain ⟨id, isActive, rfl⟩ := hcalls call hcall
    rfl

/-- A checkpoint of the app `a`. -/
def inactiveCheckpoint (id : Int) (name : String) : Checkpoints.Model :=
  CreateCheckpoint.newCheckpoint name none 1 .unixEpoch id

/-- The app `a` with two checkpoints, and two clients that activate one each. -/
def twoActivations : Config :=
  .initial .linux
    { storeWithA with
      checkpoints := ⟨[inactiveCheckpoint 1 "first", inactiveCheckpoint 2 "second"], by decide⟩ }
    [.setCheckpointActive (.find 1 true), .setCheckpointActive (.find 2 true)]

/-- Both activations select before either of them updates its target. -/
def selectSelectUpdateUpdate : List Label :=
  [.call 0 {}, .call 0 {}, .call 1 {}, .call 1 {}, .call 0 {}, .call 1 {}]

/-- The second activation selects after the first one has updated its target. -/
def selectUpdateSelectUpdate : List Label :=
  [.call 0 {}, .call 1 {}, .call 0 {}, .call 0 {}, .call 1 {}, .call 1 {}, .call 1 {}]

/-- **Two active checkpoints of one app**, after two overlapping activations that both
return `Ok`. -/
theorem two_active :
    ¬ ∀ (c₀ c : Config) (ls : List Label), oneActivePerApp c₀.shared.db →
      (∀ call ∈ c₀.calls, ∃ id isActive, call = .setCheckpointActive (.find id isActive)) →
      tracker.Runs (fun _ l => l.isCall = true) c₀ ls c →
      (∀ call ∈ c.calls, call.result = some (.ok ())) → oneActivePerApp c.shared.db := by
  intro hall
  have hend : (tracker.execWhere (fun _ l => l.isCall = true) twoActivations
      selectSelectUpdateUpdate).map (fun c => decide ((∀ call ∈ c.calls,
        call.result = some (.ok ())) ∧ ¬ oneActivePerApp c.shared.db)) = some true := by decide
  obtain ⟨c, hexec, hc⟩ := Option.map_eq_some_iff.mp hend
  obtain ⟨hok, htwo⟩ := of_decide_eq_true hc
  refine htwo (hall twoActivations c _ (by decide) ?_
    (Transition.System.runs_of_execWhere hexec) hok)
  intro call hcall
  rcases List.mem_cons.mp hcall with rfl | hcall
  · exact ⟨1, true, rfl⟩
  · exact ⟨2, true, List.mem_singleton.mp hcall⟩

/-- Overlapping activations of which the second selects late: the condition holds, and one
checkpoint is active at the end. -/
theorem one_active_per_app_selectUpdateSelectUpdate :
    ∃ c, tracker.execWhere activationsCovered twoActivations selectUpdateSelectUpdate = some c ∧
      (∀ call ∈ c.calls, call.result = some (.ok ())) ∧ oneActivePerApp c.shared.db := by
  have hend : (tracker.execWhere activationsCovered twoActivations
      selectUpdateSelectUpdate).map (fun c => decide (∀ call ∈ c.calls,
        call.result = some (.ok ()))) = some true := by decide
  obtain ⟨c, hexec, hok⟩ := Option.map_eq_some_iff.mp hend
  refine ⟨c, hexec, of_decide_eq_true hok, one_active_per_app ?_ ?_
    (Transition.System.runs_of_execWhere hexec)⟩
  · decide
  · intro call hcall
    rcases List.mem_cons.mp hcall with rfl | hcall
    · exact ⟨1, true, rfl⟩
    · exact ⟨2, true, List.mem_singleton.mp hcall⟩

end TimeTracker
