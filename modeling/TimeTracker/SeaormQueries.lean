import TimeTracker.Native

/-!
# Checkpoint and alias queries

`seaorm_queries.rs`. A call that sends several statements is a machine: each constructor is
the point before one statement and holds the local variables that are still needed, and
`step` executes that statement and runs on to the next one. Local computation between two
statements belongs to the step of the statement before it.
-/

namespace TimeTracker

/-- `error::AddError`. -/
structure AddError where
  message : String
deriving DecidableEq

/-- `Box<dyn Error>` of the calls: what they return in `Err`. -/
inductive BoxError where
  | checkpointNotFound
  | addError (e : AddError)
  | db (e : DbErr)
deriving DecidableEq

/-- The result of a call whose `Ok` value carries no data of interest. -/
abbrev CallResult := Except BoxError Unit

/-! ## `set_checkpoint_active` -/

/-- The program points of `set_checkpoint_active`. -/
inductive SetCheckpointActive where
  /-- `find_by_id(checkpoint_id).one()` -/
  | find (checkpointId : Int) (isActive : Bool)
  /-- select the other active rows of the app; only reached with `is_active = true` -/
  | selectActive (checkpoint : Checkpoints.Model)
  /-- deactivate `active`, then the `rest` -/
  | deactivate (checkpoint : Checkpoints.Model) (now : NaiveDateTime)
      (active : Checkpoints.Model) (rest : List Checkpoints.Model)
  /-- the update of the target row -/
  | update (checkpoint : Checkpoints.Model) (isActive : Bool)
  | returned (result : CallResult)
deriving DecidableEq

namespace SetCheckpointActive

/-- The rows an activation deactivates: the other active rows of the app. -/
def otherActive (db : Store) (checkpoint : Checkpoints.Model) : List Checkpoints.Model :=
  db.checkpoints.all fun c =>
    c.appId = checkpoint.appId && c.isActive = some true && c.id ≠ checkpoint.id

/-- The loop over the rows to deactivate. -/
def deactivateAll (checkpoint : Checkpoints.Model) (now : NaiveDateTime) :
    List Checkpoints.Model → SetCheckpointActive
  | [] => .update checkpoint true
  | active :: rest => .deactivate checkpoint now active rest

/-- The columns a deactivation sets. -/
def setInactive (now : NaiveDateTime) (c : Checkpoints.Model) : Checkpoints.Model :=
  { c with isActive := some false, activatedAt := none, lastUpdated := some now }

/-- The columns the final update sets. -/
def setActive (isActive : Bool) (now : NaiveDateTime) (c : Checkpoints.Model) :
    Checkpoints.Model :=
  { c with
    isActive := some isActive
    activatedAt := if isActive then some now else none
    lastUpdated := some now }

def step (inp : Input) : SetCheckpointActive → Store → Option (SetCheckpointActive × Store)
  | .find checkpointId isActive, db =>
    match inp.statement (.ok (db.checkpoints.byKey checkpointId)) with
    | .error e => some (.returned (.error (.db e)), db)
    | .ok none => some (.returned (.error .checkpointNotFound), db)
    | .ok (some checkpoint) =>
      if isActive then some (.selectActive checkpoint, db)
      else some (.update checkpoint false, db)
  | .selectActive checkpoint, db =>
    match inp.statement (.ok (otherActive db checkpoint)) with
    | .error e => some (.returned (.error (.db e)), db)
    | .ok active => some (deactivateAll checkpoint inp.now active, db)
  | .deactivate checkpoint now active rest, db =>
    match inp.statement (db.updateCheckpoint active.id (setInactive now) fun _ => rfl) with
    | .error e => some (.returned (.error (.db e)), db)
    | .ok db' => some (deactivateAll checkpoint now rest, db')
  | .update checkpoint isActive, db =>
    match inp.statement
        (db.updateCheckpoint checkpoint.id (setActive isActive inp.now) fun _ => rfl) with
    | .error e => some (.returned (.error (.db e)), db)
    | .ok db' => some (.returned (.ok ()), db')
  | .returned _, _ => none

end SetCheckpointActive

/-! ## `create_checkpoint` and `delete_checkpoint` -/

/-- The program points of `create_checkpoint`. -/
inductive CreateCheckpoint where
  | insert (name : String) (description : Option String) (appId : Int)
  | returned (result : CallResult)
deriving DecidableEq

namespace CreateCheckpoint

/-- The row `create_checkpoint` inserts, under the id the database generates. -/
def newCheckpoint (name : String) (description : Option String) (appId : Int)
    (now : NaiveDateTime) (id : Int) : Checkpoints.Model where
  id := id
  name := name
  description := description
  createdAt := some now
  validFrom := some now
  color := some "#2196F3"
  appId := appId
  isActive := some false
  duration := none
  sessionsCount := none
  lastUpdated := some now
  activatedAt := none

def step (inp : Input) : CreateCheckpoint → Store → Option (CreateCheckpoint × Store)
  | .insert name description appId, db =>
    match inp.statement
        (db.insertCheckpoint inp.newId (newCheckpoint name description appId inp.now)) with
    | .error e => some (.returned (.error (.db e)), db)
    | .ok db' => some (.returned (.ok ()), db')
  | .returned _, _ => none

end CreateCheckpoint

/-- The program points of `delete_checkpoint`. -/
inductive DeleteCheckpoint where
  | delete (checkpointId : Int)
  | returned (result : CallResult)
deriving DecidableEq

def DeleteCheckpoint.step (inp : Input) :
    DeleteCheckpoint → Store → Option (DeleteCheckpoint × Store)
  | .delete checkpointId, db =>
    match inp.statement (.ok (db.deleteCheckpoint checkpointId)) with
    | .error e => some (.returned (.error (.db e)), db)
    | .ok db' => some (.returned (.ok ()), db')
  | .returned _, _ => none

/-! ## Aliases -/

/-- The aliases of one app (`process_aliases::Entity::find().filter(AppId.eq(app_id))`). -/
def getProcessAliasesForApp (db : Store) (appId : Int) : List String :=
  (db.processAliases.all fun a => a.appId = appId).map ProcessAliases.Model.processName

/-- `get_process_aliases_by_app_names`: the aliases of every name that is an app and has
some. -/
def getProcessAliasesByAppNames (db : Store) (appNames : List String) : AliasMap :=
  appNames.foldl
    (fun aliasesMap appName =>
      match db.findApp appName with
      | none => aliasesMap
      | some app =>
        let aliases := getProcessAliasesForApp db app.id
        if aliases.isEmpty then aliasesMap else aliasesMap.insert appName aliases) ∅

end TimeTracker
