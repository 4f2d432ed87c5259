import TimeTracker.Steps

/-!
# The checkpoint calls of one client

`create_checkpoint`, `set_checkpoint_active` and `delete_checkpoint`, called one after the other.
An activation is several statements, and a run of `activation` has them in order, with what other
clients delete in between.

* **`SetCheckpointActive.run_find`**: what a call writes that the database does not refuse, row by
  row; **`SetCheckpointActive.returns`**: such a call returns.
* **`set_checkpoint_active_effect`**: after any sequence of calls, an activation does to the tables
  what `ActivationEffect` says, and `activatedWhenActive` still holds.
-/

namespace TimeTracker

open Transition

/-! ## An activation and its surroundings -/

inductive ActivationLabel where
  /-- the next statement of the activation -/
  | statement (inp : Input)
  /-- another client deletes a checkpoint -/
  | delete (checkpointId : Int)

/-- A call of `set_checkpoint_active` over the database, statement by statement. -/
def activation : System (SetCheckpointActive × Store) ActivationLabel where
  step s
    | .statement inp => s.1.step inp s.2
    | .delete checkpointId => some (s.1, s.2.deleteCheckpoint checkpointId)

/-- A step of the call itself, and the database does not refuse it. -/
def uninterrupted (_ : SetCheckpointActive × Store) : ActivationLabel → Prop
  | .statement inp => inp.err = none
  | .delete _ => False

section
variable {call : SetCheckpointActive} {db db' : Store} {ls : List ActivationLabel}
  {r r' : CallResult}

/-- A call that has returned is over. -/
theorem uninterrupted_returned
    (hrun : activation.Runs uninterrupted (.returned r, db) ls (.returned r', db')) :
    r' = r ∧ db' = db := by
  cases hrun with
  | nil => exact ⟨rfl, rfl⟩
  | @cons _ s _ l _ hok hstep _ =>
    cases l with
    | statement inp => cases hstep
    | delete id => exact hok.elim

/-- A call that is under way runs its next statement. -/
theorem uninterrupted_step (hunder : ∀ r, call ≠ .returned r)
    (hrun : activation.Runs uninterrupted (call, db) ls (.returned r', db')) :
    ∃ inp s ls', inp.err = none ∧ call.step inp db = some s ∧
      activation.Runs uninterrupted s ls' (.returned r', db') := by
  cases hrun with
  | nil => exact absurd rfl (hunder r')
  | @cons _ s _ l ls' hok hstep hrest =>
    cases l with
    | statement inp => exact ⟨inp, s, ls', hok, hstep, hrest⟩
    | delete id => exact hok.elim

end

/-! ## What an activation without failures writes -/

/-- The checkpoints are rewritten row by row, and everything else is left alone. -/
structure Rewritten (f : Checkpoints.Model → Checkpoints.Model) (db db' : Store) : Prop where
  rest : db' = { db with checkpoints := db'.checkpoints }
  rows : db'.checkpoints.rows = db.checkpoints.rows.map f

section
variable {db db' db'' : Store} {f g : Checkpoints.Model → Checkpoints.Model} {id : Int}

/-- Two rewritings one after the other are one. -/
theorem Rewritten.trans (h : Rewritten f db db') (h' : Rewritten g db' db'') :
    Rewritten (g ∘ f) db db'' where
  rest := by
    have hrest := h'.rest
    rw [h.rest] at hrest
    exact hrest
  rows := by rw [h'.rows, h.rows, List.map_map]

/-- Only what is done to the rows of the table counts. -/
theorem Rewritten.congr (h : Rewritten f db db') (hfg : ∀ c ∈ db.checkpoints.rows, f c = g c) :
    Rewritten g db db' where
  rest := h.rest
  rows := by rw [h.rows, List.map_congr_left hfg]

/-- An update rewrites the row with its id. -/
theorem rewritten_update {set : Checkpoints.Model → Checkpoints.Model}
    {hset : ∀ c, Keyed.key (set c) = Keyed.key c} (h : db.updateCheckpoint id set hset = .ok db') :
    Rewritten (fun c => if c.id = id then set c else c) db db' := by
  obtain ⟨checkpoints, hupd, rfl⟩ := Store.updateCheckpoint_eq_ok.mp h
  exact ⟨rfl, (Table.update_eq_some.mp hupd).2⟩

/-- A row keeps its id, so the ids are the same. -/
theorem Rewritten.keys (h : Rewritten f db db') (hid : ∀ c, (f c).id = c.id) :
    db'.checkpoints.keys = db.checkpoints.keys := by
  unfold Table.keys
  rw [h.rows, List.map_map]
  exact List.map_congr_left fun c _ => hid c

/-- A row that is there can be updated. -/
theorem exists_updateCheckpoint (set : Checkpoints.Model → Checkpoints.Model)
    (hset : ∀ c, Keyed.key (set c) = Keyed.key c) (hkey : id ∈ db.checkpoints.keys) :
    ∃ db', db.updateCheckpoint id set hset = .ok db' := by
  cases hupd : db.updateCheckpoint id set hset with
  | error e => exact absurd hkey (Store.updateCheckpoint_eq_error hupd)
  | ok db' => exact ⟨db', rfl⟩

end

namespace SetCheckpointActive

section
variable {checkpoint : Checkpoints.Model} {isActive : Bool} {now : NaiveDateTime}
  {db db' : Store} {ls : List ActivationLabel} {r : CallResult}

/-- The last update of a call. -/
theorem run_update (htarget : checkpoint.id ∈ db.checkpoints.keys)
    (hrun : activation.Runs uninterrupted (.update checkpoint isActive, db) ls
      (.returned r, db')) :
    r = .ok () ∧ ∃ updated, Rewritten
      (fun c => if c.id = checkpoint.id then setActive isActive updated c else c) db db' := by
  obtain ⟨inp, s, ls', hinp, hstep, hrest⟩ := uninterrupted_step (fun _ h => by cases h) hrun
  obtain ⟨db₁, hupd⟩ := exists_updateCheckpoint (setActive isActive inp.now) (fun _ => rfl)
    htarget
  simp only [step, Input.statement_of_none hinp, hupd] at hstep
  cases hstep
  obtain ⟨rfl, rfl⟩ := uninterrupted_returned hrest
  exact ⟨rfl, inp.now, rewritten_update hupd⟩

/-- One row is deactivated and then those of `ids`: a row that is deactivated twice is
deactivated. -/
theorem setInactive_comp (now : NaiveDateTime) (id : Int) (ids : List Int) (c : Checkpoints.Model) :
    ((fun c => if c.id ∈ ids then setInactive now c else c) ∘
      fun c => if c.id = id then setInactive now c else c) c =
    if c.id ∈ id :: ids then setInactive now c else c := by
  rw [Function.comp_apply]
  by_cases hc : c.id = id
  · have hkeeps : (setInactive now c).id = c.id := rfl
    have hmem : c.id ∈ id :: ids := by
      rw [hc]
      exact List.mem_cons_self
    rw [if_pos hc, hkeeps, if_pos hmem]
    split <;> rfl
  · simp only [if_neg hc, List.mem_cons, or_iff_right hc]

/-- The loop over the other active rows and the last update. Induction on the rows that are left:
each of them is still there, as the updates keep the ids. -/
theorem run_deactivateAll {active : List Checkpoints.Model} :
    ∀ {db : Store} {ls : List ActivationLabel}, checkpoint.id ∈ db.checkpoints.keys →
      (∀ a ∈ active, a.id ∈ db.checkpoints.keys ∧ a.id ≠ checkpoint.id) →
      activation.Runs uninterrupted (deactivateAll checkpoint now active, db) ls
        (.returned r, db') →
      r = .ok () ∧ ∃ updated, Rewritten
        (fun c => if c.id = checkpoint.id then setActive true updated c
          else if c.id ∈ active.map Checkpoints.Model.id then setInactive now c else c) db db' := by
  induction active with
  | nil =>
    intro db ls htarget _ hrun
    obtain ⟨hr, updated, hrows⟩ := run_update htarget hrun
    refine ⟨hr, updated, hrows.congr fun c _ => ?_⟩
    simp
  | cons a rest ih =>
    intro db ls htarget hactive hrun
    obtain ⟨inp, s, ls', hinp, hstep, hrest⟩ := uninterrupted_step (fun _ h => by cases h) hrun
    obtain ⟨ha, hne⟩ := hactive a List.mem_cons_self
    obtain ⟨db₁, hupd⟩ := exists_updateCheckpoint (setInactive now) (fun _ => rfl) ha
    simp only [deactivateAll, step, Input.statement_of_none hinp, hupd] at hstep
    cases hstep
    have hfirst := rewritten_update hupd
    have hkeys : db₁.checkpoints.keys = db.checkpoints.keys :=
      hfirst.keys fun c => by split <;> rfl
    obtain ⟨hr, updated, hrows⟩ := ih (hkeys ▸ htarget)
      (fun b hb => hkeys ▸ hactive b (List.mem_cons_of_mem a hb)) hrest
    refine ⟨hr, updated, (hfirst.trans hrows).congr fun c _ => ?_⟩
    -- the first update is of another row than the target, and keeps the id
    have hid : (if c.id = a.id then setInactive now c else c).id = c.id := by split <;> rfl
    by_cases hct : c.id = checkpoint.id
    · have hca : c.id ≠ a.id := fun hca => hne (hca.symm.trans hct)
      rw [Function.comp_apply, if_neg hca, if_pos hct, if_pos hct]
    · have hboth := setInactive_comp now a.id (rest.map Checkpoints.Model.id) c
      rw [Function.comp_apply, hid] at hboth
      rw [Function.comp_apply, hid, if_neg hct, if_neg hct]
      exact hboth

end

/-- What an activation makes of a row: the target is activated, the other active rows of its app
are deactivated, and the rest is left alone. -/
def activated (checkpoint : Checkpoints.Model) (selected updated : NaiveDateTime)
    (c : Checkpoints.Model) : Checkpoints.Model :=
  if c.id = checkpoint.id then setActive true updated c
  else if c.appId = checkpoint.appId ∧ c.isActive = some true then setInactive selected c
  else c

/-- What a deactivation makes of a row. -/
def deactivated (checkpointId : Int) (updated : NaiveDateTime) (c : Checkpoints.Model) :
    Checkpoints.Model :=
  if c.id = checkpointId then setActive false updated c else c

/-- The rows the loop goes through: the other active checkpoints of the app. -/
theorem mem_otherActive {db : Store} {checkpoint c : Checkpoints.Model} :
    c ∈ otherActive db checkpoint ↔ c ∈ db.checkpoints.rows ∧ c.appId = checkpoint.appId ∧
      c.isActive = some true ∧ c.id ≠ checkpoint.id := by
  simp [otherActive, Table.mem_all, and_assoc]

/-- The rows with the id of a selected row are the selected rows. -/
theorem mem_map_otherActive {db : Store} {checkpoint c : Checkpoints.Model}
    (hc : c ∈ db.checkpoints.rows) (hne : c.id ≠ checkpoint.id) :
    c.id ∈ (otherActive db checkpoint).map Checkpoints.Model.id ↔
      c.appId = checkpoint.appId ∧ c.isActive = some true := by
  rw [List.mem_map]
  constructor
  · rintro ⟨a, ha, hid⟩
    obtain ⟨hmem, happ, hact, -⟩ := mem_otherActive.mp ha
    have heq : a = c := Table.eq_of_key_eq hmem hc hid
    exact ⟨heq ▸ happ, heq ▸ hact⟩
  · rintro ⟨happ, hact⟩
    exact ⟨c, mem_otherActive.mpr ⟨hc, happ, hact, hne⟩, rfl⟩

section
variable {db db' : Store} {ls : List ActivationLabel} {r : CallResult} {id : Int}

/-- **What a call without failures does**: nothing but an error if there is no such row, else it
rewrites the rows. -/
theorem run_find {isActive : Bool}
    (hrun : activation.Runs uninterrupted (.find id isActive, db) ls (.returned r, db')) :
    (id ∉ db.checkpoints.keys ∧ r = .error .checkpointNotFound ∧ db' = db) ∨
    ∃ checkpoint ∈ db.checkpoints.rows, checkpoint.id = id ∧ r = .ok () ∧
      ((isActive = true ∧ ∃ selected updated,
          Rewritten (activated checkpoint selected updated) db db') ∨
        (isActive = false ∧ ∃ updated, Rewritten (deactivated id updated) db db')) := by
  obtain ⟨inp, s, ls', hinp, hstep, hrest⟩ := uninterrupted_step (fun _ h => by cases h) hrun
  simp only [step, Input.statement_of_none hinp] at hstep
  cases hfound : db.checkpoints.byKey id with
  | none =>
    rw [hfound] at hstep
    cases hstep
    obtain ⟨rfl, rfl⟩ := uninterrupted_returned hrest
    exact .inl ⟨Table.byKey_eq_none.mp hfound, rfl, rfl⟩
  | some checkpoint =>
    rw [hfound] at hstep
    obtain ⟨hmem, rfl⟩ := Table.mem_of_byKey hfound
    have htarget : checkpoint.id ∈ db.checkpoints.keys := Table.key_mem_keys hmem
    refine .inr ⟨checkpoint, hmem, rfl, ?_⟩
    cases isActive with
    | false =>
      cases hstep
      obtain ⟨hr, updated, hrows⟩ := run_update htarget hrest
      exact ⟨hr, .inr ⟨rfl, updated, hrows⟩⟩
    | true =>
      cases hstep
      obtain ⟨inp', s', ls'', hinp', hstep', hrest'⟩ :=
        uninterrupted_step (fun _ h => by cases h) hrest
      simp only [step, Input.statement_of_none hinp'] at hstep'
      cases hstep'
      obtain ⟨hr, updated, hrows⟩ := run_deactivateAll htarget
        (fun a ha => by
          obtain ⟨hmem, -, -, hne⟩ := mem_otherActive.mp ha
          exact ⟨Table.key_mem_keys hmem, hne⟩) hrest'
      refine ⟨hr, .inl ⟨rfl, inp'.now, updated, hrows.congr fun c hc => ?_⟩⟩
      unfold activated
      split
      · rfl
      · next hne => simp only [mem_map_otherActive hc hne]

end

/-! ### A call that is stopped half way -/

/-- The rows of `first` have been deactivated, and those of `rest` are still to come. -/
structure Deactivated (checkpoint : Checkpoints.Model) (now : NaiveDateTime)
    (first rest : List Checkpoints.Model) (db db' : Store) : Prop where
  run : ∃ ls, activation.Runs uninterrupted (deactivateAll checkpoint now (first ++ rest), db) ls
    (deactivateAll checkpoint now rest, db')
  rows : Rewritten (fun c => if c.id ∈ first.map Checkpoints.Model.id then setInactive now c else c)
    db db'

/-- What a call leaves behind that fails after it has begun to write: some of the other active rows
of the app are deactivated, and the target is as it was. -/
def HalfDone (checkpointId : Int) (db db' : Store) : Prop :=
  ∃ checkpoint now first rest, db.checkpoints.byKey checkpointId = some checkpoint ∧
    otherActive db checkpoint = first ++ rest ∧ first ≠ [] ∧
    Deactivated checkpoint now first rest db db'

section
variable {checkpoint a : Checkpoints.Model} {now : NaiveDateTime}
  {first rest : List Checkpoints.Model} {db db' db'' : Store}

/-- Before the first row nothing is rewritten. -/
theorem Deactivated.nil (checkpoint : Checkpoints.Model) (now : NaiveDateTime)
    (rest : List Checkpoints.Model) (db : Store) : Deactivated checkpoint now [] rest db db where
  run := ⟨[], .nil _⟩
  rows := by
    refine ⟨rfl, ?_⟩
    simp

/-- One row more, before the others. -/
theorem Deactivated.cons
    (hupd : db.updateCheckpoint a.id (setInactive now) (fun _ => rfl) = .ok db')
    (h : Deactivated checkpoint now first rest db' db'') :
    Deactivated checkpoint now (a :: first) rest db db'' := by
  obtain ⟨⟨ls, hrun⟩, hrows⟩ := h
  have hstep : activation.step (deactivateAll checkpoint now (a :: first ++ rest), db)
      (.statement {}) = some (deactivateAll checkpoint now (first ++ rest), db') := by
    simp only [List.cons_append, deactivateAll, activation, step, Input.statement, hupd]
  have hserved : uninterrupted (deactivateAll checkpoint now (a :: first ++ rest), db)
      (.statement {}) := rfl
  refine ⟨⟨_, .cons hserved hstep hrun⟩, ((rewritten_update hupd).trans hrows).congr fun c _ => ?_⟩
  exact setInactive_comp now a.id (first.map Checkpoints.Model.id) c

/-- If no row has been deactivated nothing has happened. -/
theorem Deactivated.eq_of_nil (h : Deactivated checkpoint now [] rest db db') : db' = db := by
  have hsame : db'.checkpoints.rows = db.checkpoints.rows := by
    rw [h.rows.rows]
    simp
  rw [h.rows.rest]
  obtain ⟨backend, apps, timeline, ⟨rows, hrows⟩, processAliases⟩ := db
  obtain ⟨backend', apps', timeline', ⟨rows', hrows'⟩, processAliases'⟩ := db'
  cases hsame
  rfl

end

/-- How many statements a call has left, at most. -/
def statementsLeft : SetCheckpointActive × Store → Nat
  | (.find _ _, db) => 3 + db.checkpoints.rows.length
  | (.selectActive _, db) => 2 + db.checkpoints.rows.length
  | (.deactivate _ _ _ rest, _) => 2 + rest.length
  | (.update _ _, _) => 1
  | (.returned _, _) => 0

/-- The loop has one statement for each row, and one comes after it. -/
theorem statementsLeft_deactivateAll (checkpoint : Checkpoints.Model) (now : NaiveDateTime)
    (active : List Checkpoints.Model) (db : Store) :
    statementsLeft (deactivateAll checkpoint now active, db) = 1 + active.length := by
  cases active with
  | nil => rfl
  | cons a rest =>
    show 2 + rest.length = 1 + (rest.length + 1)
    omega

/-- A call that has returned has none left. -/
theorem statementsLeft_returned (db : Store) (r : CallResult) :
    statementsLeft (.returned r, db) = 0 := rfl

/-- A call that has not returned can run a statement, and has fewer of them left. -/
theorem exists_step (inp : Input) {call : SetCheckpointActive} (db : Store)
    (hunder : ∀ r, call ≠ .returned r) :
    ∃ s, call.step inp db = some s ∧ statementsLeft s < statementsLeft (call, db) := by
  cases hstep : call.step inp db with
  | none =>
    -- only a call that has returned has no statement
    cases call with
    | returned r => exact absurd rfl (hunder r)
    | find id isActive =>
      simp only [step] at hstep
      split at hstep
      · cases hstep
      · cases hstep
      · split at hstep <;> cases hstep
    | _ =>
      simp only [step] at hstep
      split at hstep <;> cases hstep
  | some s =>
    obtain ⟨call', db'⟩ := s
    refine ⟨_, rfl, ?_⟩
    rcases step_cases hstep with ⟨e, rfl, rfl⟩ | ⟨id, isActive, checkpoint, rfl, rfl, -, rfl⟩ |
      ⟨checkpoint, rfl, rfl, rfl⟩ | ⟨checkpoint, now, active, rest, rfl, -, rfl⟩ |
      ⟨checkpoint, isActive, rfl, -, rfl⟩
    · rw [statementsLeft_returned]
      cases call with
      | returned r => exact absurd rfl (hunder r)
      | _ =>
        simp only [statementsLeft]
        omega
    · cases isActive
      · show 1 < 3 + db'.checkpoints.rows.length
        omega
      · show 2 + db'.checkpoints.rows.length < 3 + db'.checkpoints.rows.length
        omega
    · have hle : (otherActive db' checkpoint).length ≤ db'.checkpoints.rows.length :=
        List.length_filter_le _ _
      rw [statementsLeft_deactivateAll]
      show 1 + (otherActive db' checkpoint).length < 2 + db'.checkpoints.rows.length
      omega
    · rw [statementsLeft_deactivateAll]
      show 1 + rest.length < 2 + rest.length
      omega
    · exact Nat.one_pos

/-- **A call returns**, whatever the clock says at its statements. -/
theorem returns (inputs : Nat → Input) (call : SetCheckpointActive) (db : Store)
    (hinputs : ∀ i, (inputs i).err = none) :
    ∃ m r db', activation.Runs uninterrupted (call, db)
      ((List.range m).map fun i => .statement (inputs i)) (.returned r, db') := by
  have hend : ∃ m s, activation.Runs uninterrupted (call, db)
      ((List.range m).map fun i => .statement (inputs i)) s ∧ ∃ r, s.1 = .returned r :=
    System.exists_run_to statementsLeft _ _ (fun _ i => hinputs i)
      (fun s i hunder => exists_step (inputs i) s.2 (not_exists.mp hunder)) le_rfl
  obtain ⟨m, ⟨call', db'⟩, hrun, r, hr⟩ := hend
  have hr : call' = .returned r := hr
  exact ⟨m, r, db', hr ▸ hrun⟩

end SetCheckpointActive

/-! ## Calls one after the other -/

/-- The checkpoint calls a client makes. -/
inductive CheckpointCall where
  | create (name : String) (description : Option String) (appId : Int)
  | setActive (checkpointId : Int) (isActive : Bool)
  | delete (checkpointId : Int)

/-- A call runs from its first statement to its return, and the database refuses none of them. -/
inductive CheckpointCall.Completes : CheckpointCall → Store → CallResult → Store → Prop where
  | create {name : String} {description : Option String} {appId : Int} {db db' : Store}
      {r : CallResult} {inp : Input} (hinp : inp.err = none)
      (hstep : (CreateCheckpoint.insert name description appId).step inp db =
        some (.returned r, db')) : Completes (.create name description appId) db r db'
  | setActive {checkpointId : Int} {isActive : Bool} {db db' : Store} {r : CallResult}
      {ls : List ActivationLabel}
      (hrun : activation.Runs uninterrupted (.find checkpointId isActive, db) ls
        (.returned r, db')) : Completes (.setActive checkpointId isActive) db r db'
  | delete {checkpointId : Int} {db db' : Store} {r : CallResult} {inp : Input}
      (hinp : inp.err = none)
      (hstep : (DeleteCheckpoint.delete checkpointId).step inp db = some (.returned r, db')) :
      Completes (.delete checkpointId) db r db'

/-- The calls are executed one after the other. -/
inductive Executes : Store → List CheckpointCall → Store → Prop where
  | nil (db : Store) : Executes db [] db
  | cons {db db' db'' : Store} {call : CheckpointCall} {calls : List CheckpointCall}
      {r : CallResult} (hcall : call.Completes db r db') (hrest : Executes db' calls db'') :
      Executes db (call :: calls) db''

/-! ## The effect of an activation -/

/-- `activated_at` is there exactly while the checkpoint is active. -/
def activatedWhenActive (db : Store) : Prop :=
  ∀ c ∈ db.checkpoints.rows, c.activatedAt.isSome = true ↔ c.isActive = some true

instance (db : Store) : Decidable (activatedWhenActive db) := by
  unfold activatedWhenActive
  infer_instance

/-- The columns no activation writes. -/
def Checkpoints.Model.fixed (c : Checkpoints.Model) :=
  (c.id, c.name, c.description, c.color, c.appId, c.createdAt, c.validFrom, c.duration,
    c.sessionsCount)

/-- What `set_checkpoint_active(id, is_active)` does. -/
structure ActivationEffect (db : Store) (id : Int) (isActive : Bool) (r : CallResult)
    (db' : Store) : Prop where
  missing : id ∉ db.checkpoints.keys → r = .error .checkpointNotFound ∧ db' = db
  ok : id ∈ db.checkpoints.keys → r = .ok ()
  /-- an activated checkpoint is the only active one of its app -/
  activates : isActive = true → ∀ c ∈ db.checkpoints.rows, c.id = id →
    ∀ c' ∈ db'.checkpoints.rows, c'.appId = c.appId → (c'.isActive = some true ↔ c'.id = id)
  deactivates : isActive = false →
    (∀ c' ∈ db'.checkpoints.rows, c'.id = id → c'.isActive = some false) ∧
      db'.checkpoints.rows.filter (fun c => c.id ≠ id) =
        db.checkpoints.rows.filter fun c => c.id ≠ id
  otherApps : ∀ c ∈ db.checkpoints.rows, c.id = id →
    db'.checkpoints.rows.filter (fun c' => c'.appId ≠ c.appId) =
      db.checkpoints.rows.filter fun c' => c'.appId ≠ c.appId
  fixed : db'.checkpoints.rows.map Checkpoints.Model.fixed =
    db.checkpoints.rows.map Checkpoints.Model.fixed
  rest : db' = { db with checkpoints := db'.checkpoints }

section
variable {db db' : Store} {f : Checkpoints.Model → Checkpoints.Model} {id : Int}

/-- The selected rows are the same, if the rewriting touches only others. -/
theorem Rewritten.filter_eq (h : Rewritten f db db') (p : Checkpoints.Model → Bool)
    (hp : ∀ c, p (f c) = p c) (hf : ∀ c ∈ db.checkpoints.rows, p c = true → f c = c) :
    db'.checkpoints.rows.filter p = db.checkpoints.rows.filter p := by
  have hsame : p ∘ f = p := funext hp
  rw [h.rows, List.filter_map, hsame]
  conv_rhs => rw [← List.map_id (db.checkpoints.rows.filter p)]
  refine List.map_congr_left fun c hc => ?_
  obtain ⟨hmem, hpc⟩ := List.mem_filter.mp hc
  exact hf c hmem hpc

/-- The rows of the other apps are the same, if the rewriting keeps the app of a row. -/
theorem Rewritten.otherApps (h : Rewritten f db db') {appId : Int}
    (happ : ∀ c, (f c).appId = c.appId)
    (hf : ∀ c ∈ db.checkpoints.rows, c.appId ≠ appId → f c = c) :
    db'.checkpoints.rows.filter (fun c => c.appId ≠ appId) =
      db.checkpoints.rows.filter fun c => c.appId ≠ appId := by
  refine h.filter_eq _ (fun c => ?_) fun c hc hne => ?_
  · rw [happ]
  · exact hf c hc (of_decide_eq_true hne)

/-- A rewriting that keeps the fixed columns keeps them in every row. -/
theorem Rewritten.fixed_eq (h : Rewritten f db db') (hf : ∀ c, (f c).fixed = c.fixed) :
    db'.checkpoints.rows.map Checkpoints.Model.fixed =
      db.checkpoints.rows.map Checkpoints.Model.fixed := by
  rw [h.rows, List.map_map]
  exact List.map_congr_left fun c _ => hf c

/-- One that keeps the activation time in step with the flag does so in every row. -/
theorem Rewritten.activatedWhenActive (h : Rewritten f db db')
    (hf : ∀ c, (c.activatedAt.isSome = true ↔ c.isActive = some true) →
      ((f c).activatedAt.isSome = true ↔ (f c).isActive = some true))
    (hdb : activatedWhenActive db) : activatedWhenActive db' := by
  intro c' hc'
  rw [h.rows] at hc'
  obtain ⟨c, hc, rfl⟩ := List.mem_map.mp hc'
  exact hf c (hdb c hc)

end

namespace SetCheckpointActive

section
variable {checkpoint c : Checkpoints.Model} {selected updated now : NaiveDateTime} {id : Int}

/-- An activation keeps ids, -/
theorem activated_id : (activated checkpoint selected updated c).id = c.id := by
  unfold activated
  split
  · rfl
  · split <;> rfl

/-- all columns but three, -/
theorem activated_fixed : (activated checkpoint selected updated c).fixed = c.fixed := by
  unfold activated
  split
  · rfl
  · split <;> rfl

/-- and with them the app of a checkpoint. -/
theorem activated_appId : (activated checkpoint selected updated c).appId = c.appId := by
  unfold activated
  split
  · rfl
  · split <;> rfl

/-- The target is active, and no other row of its app is. -/
theorem activated_isActive (happ : c.appId = checkpoint.appId) :
    (activated checkpoint selected updated c).isActive = some true ↔ c.id = checkpoint.id := by
  unfold activated
  by_cases hid : c.id = checkpoint.id
  · simp [hid, setActive]
  · rw [if_neg hid]
    by_cases hact : c.isActive = some true
    · simp [happ, hact, hid, setInactive]
    · simp [hact, hid]

/-- Rows of other apps are not touched; the target is no such row. -/
theorem activated_of_ne (htarget : c.id = checkpoint.id → c.appId = checkpoint.appId)
    (hne : c.appId ≠ checkpoint.appId) : activated checkpoint selected updated c = c := by
  unfold activated
  rw [if_neg fun hid => hne (htarget hid), if_neg fun h => hne h.1]

/-- It writes the activation time together with the flag, -/
theorem activated_activatedAt (h : c.activatedAt.isSome = true ↔ c.isActive = some true) :
    (activated checkpoint selected updated c).activatedAt.isSome = true ↔
      (activated checkpoint selected updated c).isActive = some true := by
  unfold activated
  split
  · simp [setActive]
  · split
    · simp [setInactive]
    · exact h

/-- A deactivation keeps ids, -/
theorem deactivated_id : (deactivated id updated c).id = c.id := by
  unfold deactivated
  split <;> rfl

/-- apps -/
theorem deactivated_appId : (deactivated id updated c).appId = c.appId := by
  unfold deactivated
  split <;> rfl

/-- and the other fixed columns, -/
theorem deactivated_fixed : (deactivated id updated c).fixed = c.fixed := by
  unfold deactivated
  split <;> rfl

/-- and clears the activation time together with the flag. -/
theorem deactivated_activatedAt (h : c.activatedAt.isSome = true ↔ c.isActive = some true) :
    (deactivated id updated c).activatedAt.isSome = true ↔
      (deactivated id updated c).isActive = some true := by
  unfold deactivated
  split
  · simp [setActive]
  · exact h

end

/-- The effect of a call without failures. -/
theorem effect_of_run {db db' : Store} {id : Int} {isActive : Bool} {ls : List ActivationLabel}
    {r : CallResult}
    (hrun : activation.Runs uninterrupted (.find id isActive, db) ls (.returned r, db')) :
    ActivationEffect db id isActive r db' := by
  rcases run_find hrun with ⟨hmissing, rfl, rfl⟩ |
    ⟨checkpoint, hmem, rfl, rfl, ⟨rfl, selected, updated, hrows⟩ | ⟨rfl, updated, hrows⟩⟩
  · -- nothing was found: every row is as it was, and none of them has the id
    have hnone : ∀ c ∈ db'.checkpoints.rows, c.id ≠ id := fun c hc hid =>
      hmissing (hid ▸ Table.key_mem_keys hc)
    exact {
      missing := fun _ => ⟨rfl, rfl⟩
      ok := fun h => absurd h hmissing
      activates := fun _ c hc hid => absurd hid (hnone c hc)
      deactivates := fun _ => ⟨fun c hc hid => absurd hid (hnone c hc), rfl⟩
      otherApps := fun _ _ _ => rfl
      fixed := rfl
      rest := rfl }
  · have hkey : checkpoint.id ∈ db.checkpoints.keys := Table.key_mem_keys hmem
    have hsame : ∀ c ∈ db.checkpoints.rows, c.id = checkpoint.id → c = checkpoint :=
      fun c hc hid => Table.eq_of_key_eq hc hmem hid
    exact {
      missing := fun h => absurd hkey h
      ok := fun _ => rfl
      activates := by
        intro _ c hc hid c' hc' happ
        rw [hrows.rows] at hc'
        obtain ⟨row, -, rfl⟩ := List.mem_map.mp hc'
        rw [activated_appId, hsame c hc hid] at happ
        rw [activated_isActive happ, activated_id]
      deactivates := fun h => by cases h
      otherApps := by
        intro c hc hid
        rw [hsame c hc hid]
        refine hrows.otherApps (fun _ => activated_appId) fun row hrow hne => ?_
        -- the target is a row of its own app, so no row of another app was written
        exact activated_of_ne (fun hid => by rw [hsame row hrow hid]) hne
      fixed := hrows.fixed_eq fun _ => activated_fixed
      rest := hrows.rest }
  · have hkey : checkpoint.id ∈ db.checkpoints.keys := Table.key_mem_keys hmem
    have hsame : ∀ c ∈ db.checkpoints.rows, c.id = checkpoint.id → c = checkpoint :=
      fun c hc hid => Table.eq_of_key_eq hc hmem hid
    exact {
      missing := fun h => absurd hkey h
      ok := fun _ => rfl
      activates := fun h => by cases h
      deactivates := by
        refine fun _ => ⟨fun c' hc' hid' => ?_, hrows.filter_eq _ (fun c => ?_) fun c _ hne => ?_⟩
        · rw [hrows.rows] at hc'
          obtain ⟨c, -, rfl⟩ := List.mem_map.mp hc'
          rw [deactivated_id] at hid'
          unfold deactivated
          rw [if_pos hid']
          rfl
        · rw [deactivated_id]
        · exact if_neg (of_decide_eq_true hne)
      otherApps := by
        intro c hc hid
        rw [hsame c hc hid]
        refine hrows.otherApps (fun _ => deactivated_appId) fun row hrow hne => ?_
        exact if_neg fun hid => hne (by rw [hsame row hrow hid])
      fixed := hrows.fixed_eq fun _ => deactivated_fixed
      rest := hrows.rest }

end SetCheckpointActive

/-! ## Sequences of calls -/

section
variable {db db' : Store} {call : CheckpointCall} {calls : List CheckpointCall} {r : CallResult}

/-- One call keeps `activated_at` and `is_active` together. -/
theorem CheckpointCall.Completes.activatedWhenActive (h : call.Completes db r db')
    (hdb : activatedWhenActive db) : activatedWhenActive db' := by
  cases h with
  | create hinp hstep =>
    obtain ⟨_, _, _, hcall, ⟨_, -, rfl⟩ | ⟨-, -, checkpoints, hins, rfl⟩⟩ :=
      CreateCheckpoint.step_cases hstep
    · exact hdb
    · intro c hc
      rcases (Table.mem_insert hins).mp hc with hc | rfl
      · exact hdb c hc
      · -- a new checkpoint is neither active nor activated
        simp [CreateCheckpoint.newCheckpoint]
  | setActive hrun =>
    rcases SetCheckpointActive.run_find hrun with ⟨-, -, rfl⟩ |
      ⟨checkpoint, -, -, -, ⟨-, selected, updated, hrows⟩ | ⟨-, updated, hrows⟩⟩
    · exact hdb
    · exact hrows.activatedWhenActive (fun _ => SetCheckpointActive.activated_activatedAt) hdb
    · exact hrows.activatedWhenActive (fun _ => SetCheckpointActive.deactivated_activatedAt) hdb
  | delete hinp hstep =>
    obtain ⟨checkpointId, -, ⟨_, -, rfl⟩ | ⟨-, rfl⟩⟩ := DeleteCheckpoint.step_cases hstep
    · exact hdb
    · exact fun c hc => hdb c (Table.mem_delete.mp hc).1

/-- So a checkpoint has an activation time exactly while it is active, after every sequence of
calls. -/
theorem Executes.activatedWhenActive (h : Executes db calls db') (hdb : activatedWhenActive db) :
    activatedWhenActive db' := by
  induction h with
  | nil => exact hdb
  | cons hcall _ ih => exact ih (hcall.activatedWhenActive hdb)

end

/-- **The exact effect of `set_checkpoint_active`**: after any sequence of checkpoint calls, the
call returns and has its effect, and `activated_at` is still there exactly while a checkpoint is
active. -/
theorem set_checkpoint_active_effect {db₀ db : Store} {calls : List CheckpointCall}
    (hstart : activatedWhenActive db₀) (hexec : Executes db₀ calls db) :
    activatedWhenActive db ∧ ∀ (id : Int) (isActive : Bool),
      (∀ inputs : Nat → Input, (∀ i, (inputs i).err = none) →
        ∃ n r db', activation.Runs uninterrupted (.find id isActive, db)
          ((List.range n).map fun i => .statement (inputs i)) (.returned r, db')) ∧
      ∀ r db', (CheckpointCall.setActive id isActive).Completes db r db' →
        ActivationEffect db id isActive r db' := by
  refine ⟨hexec.activatedWhenActive hstart, fun id isActive => ⟨fun inputs hinputs => ?_, ?_⟩⟩
  · exact SetCheckpointActive.returns inputs _ db hinputs
  · intro r db' h
    cases h with
    | setActive hrun => exact SetCheckpointActive.effect_of_run hrun

/-- A checkpoint of app `1`, active since the epoch. -/
def activeCheckpoint (id : Int) (name : String) : Checkpoints.Model :=
  { CreateCheckpoint.newCheckpoint name none 1 .unixEpoch id with
    isActive := some true
    activatedAt := some .unixEpoch }

/-- The app `a` with three checkpoints, of which two are active. -/
def twoActiveOfThree : Store :=
  { storeWithA with
    checkpoints := ⟨[CreateCheckpoint.newCheckpoint "first" none 1 .unixEpoch 1,
      activeCheckpoint 2 "second", activeCheckpoint 3 "third"], by decide⟩ }

/-- The effect of the second call, on a table that starts with two active checkpoints. -/
theorem set_checkpoint_active_effect_of_twoActiveOfThree :
    ∃ db, Executes twoActiveOfThree [.setActive 1 true] db ∧ activatedWhenActive db ∧
      ∀ r db', (CheckpointCall.setActive 2 true).Completes db r db' →
        ActivationEffect db 2 true r db' := by
  have hstart : activatedWhenActive twoActiveOfThree := by decide
  obtain ⟨n, r, db, hrun⟩ := SetCheckpointActive.returns (fun _ => {}) (.find 1 true)
    twoActiveOfThree fun _ => rfl
  have hexec : Executes twoActiveOfThree [.setActive 1 true] db :=
    .cons (.setActive hrun) (.nil db)
  obtain ⟨hdb, heffect⟩ := set_checkpoint_active_effect hstart hexec
  exact ⟨db, hexec, hdb, (heffect 2 true).2⟩

end TimeTracker
