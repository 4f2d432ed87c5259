import TimeTracker.Chrono
import TimeTracker.Lib.Table

/-!
# Rows of the database

The `Model` structures of `entities/`: one row of each table, with the columns the
migrations declare. `i32` columns are integers; a nullable column is an `Option`.
-/

namespace TimeTracker

/-- A row of `apps`. -/
structure Apps.Model where
  id : Int
  duration : Option Int
  launches : Option Int
  longestSession : Option Int
  name : Option String
  productName : Option String
  longestSessionOn : Option NaiveDate
deriving DecidableEq

/-- A row of `timeline`. -/
structure Timeline.Model where
  id : Int
  date : NaiveDate
  duration : Option Int
  appId : Int
  checkpointId : Option Int
deriving DecidableEq

/-- A row of `checkpoints`. -/
structure Checkpoints.Model where
  id : Int
  name : String
  description : Option String
  createdAt : Option NaiveDateTime
  validFrom : Option NaiveDateTime
  color : Option String
  appId : Int
  isActive : Option Bool
  duration : Option Int
  sessionsCount : Option Int
  lastUpdated : Option NaiveDateTime
  activatedAt : Option NaiveDateTime
deriving DecidableEq

/-- A row of `process_aliases`. -/
structure ProcessAliases.Model where
  id : Int
  processName : String
  appId : Int
deriving DecidableEq

instance : Keyed Apps.Model Int := ⟨Apps.Model.id⟩
instance : Keyed Timeline.Model Int := ⟨Timeline.Model.id⟩
instance : Keyed Checkpoints.Model Int := ⟨Checkpoints.Model.id⟩
instance : Keyed ProcessAliases.Model Int := ⟨ProcessAliases.Model.id⟩

@[simp] theorem key_app (m : Apps.Model) : Keyed.key m = m.id := rfl
@[simp] theorem key_timeline (m : Timeline.Model) : Keyed.key m = m.id := rfl
@[simp] theorem key_checkpoint (m : Checkpoints.Model) : Keyed.key m = m.id := rfl
@[simp] theorem key_processAlias (m : ProcessAliases.Model) : Keyed.key m = m.id := rfl

/-- `receive_types::ReceiveTypes`: the kinds of event a session worker sends. -/
inductive ReceiveTypes where
  | longestSession
  | duration
  | launches
  | timeline
deriving DecidableEq, Repr

/-- An item of the event channel. -/
abbrev Event := String × ReceiveTypes

end TimeTracker
