import TimeTracker.Steps

/-!
# Creating a checkpoint

`create_checkpoint` inserts a row without an id and leaves the id to the database. The migration
declares the column as `integer not null primary key`: SQLite takes that for the row id and fills
it in, PostgreSQL has neither a default nor a sequence for it and refuses the row.

* **`create_checkpoint_works_iff`**: on which database, and for which names, the call does what it
  is for.
-/

namespace TimeTracker

/-- The app has a checkpoint of this name; the index on (`name`, `app_id`) allows no second one. -/
def nameUsed (db : Store) (name : String) (appId : Int) : Prop :=
  ∃ c ∈ db.checkpoints.rows, c.name = name ∧ c.appId = appId

instance (db : Store) (name : String) (appId : Int) : Decidable (nameUsed db name appId) := by
  unfold nameUsed
  infer_instance

/-- One row has been added, and everything else is as it was. -/
structure AddsCheckpoint (db : Store) (name : String) (description : Option String) (appId : Int)
    (db' : Store) (row : Checkpoints.Model) : Prop where
  rest : db' = { db with checkpoints := db'.checkpoints }
  rows : db'.checkpoints.rows = db.checkpoints.rows ++ [row]
  id : row.id ∉ db.checkpoints.keys
  columns : row.name = name ∧ row.description = description ∧ row.appId = appId
  inactive : row.isActive = some false ∧ row.activatedAt = none

/-- What `create_checkpoint` is for, where the database refuses nothing but what breaks a
constraint. -/
def CreatesCheckpoint (db : Store) (name : String) (description : Option String) (appId : Int) :
    Prop :=
  ∀ inp : Input, inp.err = none →
    ∃ r db', (CreateCheckpoint.insert name description appId).step inp db =
        some (.returned r, db') ∧
      (nameUsed db name appId → (∃ e, r = .error e) ∧ db' = db) ∧
      (¬ nameUsed db name appId → r = .ok () ∧
        ∃ row, AddsCheckpoint db name description appId db' row)

section
variable {db : Store} {inp : Input} {name : String} {description : Option String} {appId : Int}

theorem generatedId_notMem (db : Store) (candidate : Int) :
    db.generatedId candidate ∉ db.checkpoints.keys := by
  unfold Store.generatedId
  split
  · exact Store.nextId_notMem db.checkpoints
  · next hfree => exact hfree

/-- PostgreSQL refuses every insert. -/
theorem insertCheckpoint_postgres (hbackend : db.backend = .postgres) (candidate : Int)
    (row : Int → Checkpoints.Model) :
    db.insertCheckpoint candidate row = .error .notNullViolation := by
  unfold Store.insertCheckpoint
  rw [hbackend]

/-- SQLite refuses a name that is used. -/
theorem insertCheckpoint_sqlite_used (hbackend : db.backend = .sqlite)
    (happ : appId ∈ db.apps.keys) (hused : nameUsed db name appId) (now : NaiveDateTime)
    (candidate : Int) :
    db.insertCheckpoint candidate
      (CreateCheckpoint.newCheckpoint name description appId now) = .error .uniqueViolation := by
  unfold Store.insertCheckpoint
  rw [hbackend]
  show (if appId ∉ db.apps.keys then _ else if nameUsed db name appId then _ else _) = _
  rw [if_neg (not_not.mpr happ), if_pos hused]

/-- SQLite adds a row with any other name, under an id that is free. -/
theorem insertCheckpoint_sqlite (description : Option String) (hbackend : db.backend = .sqlite)
    (happ : appId ∈ db.apps.keys) (hfree : ¬ nameUsed db name appId) (now : NaiveDateTime)
    (candidate : Int) :
    ∃ db', db.insertCheckpoint candidate
        (CreateCheckpoint.newCheckpoint name description appId now) = .ok db' ∧
      AddsCheckpoint db name description appId db' (CreateCheckpoint.newCheckpoint name description
        appId now (db.generatedId candidate)) := by
  have hid := generatedId_notMem db candidate
  cases hins : db.checkpoints.insert (CreateCheckpoint.newCheckpoint name description appId now
      (db.generatedId candidate)) with
  | none => exact absurd (Table.insert_eq_none.mp hins) hid
  | some checkpoints =>
    refine ⟨{ db with checkpoints }, ?_, rfl, (Table.insert_eq_some.mp hins).2, hid,
      ⟨rfl, rfl, rfl⟩, rfl, rfl⟩
    unfold Store.insertCheckpoint
    rw [hbackend]
    show (if appId ∉ db.apps.keys then _ else if nameUsed db name appId then _ else _) = _
    rw [if_neg (not_not.mpr happ), if_neg hfree, hins]

/-- **`create_checkpoint` does what it is for** if and only if the database is SQLite or the name
is used already: PostgreSQL refuses every row, also those that break no constraint. -/
theorem create_checkpoint_works_iff (happ : appId ∈ db.apps.keys) :
    CreatesCheckpoint db name description appId ↔
      db.backend = .sqlite ∨ nameUsed db name appId := by
  constructor
  · intro hcreates
    by_contra hnot
    rw [not_or] at hnot
    have hbackend : db.backend = .postgres := by
      cases hb : db.backend with
      | postgres => rfl
      | sqlite => exact absurd hb hnot.1
    obtain ⟨r, db', hstep, -, hfresh⟩ := hcreates {} rfl
    simp only [CreateCheckpoint.step, Input.statement_of_none,
      insertCheckpoint_postgres hbackend] at hstep
    cases hstep
    exact absurd (hfresh hnot.2).1 (by simp)
  · intro hworks inp hinp
    simp only [CreateCheckpoint.step, Input.statement_of_none hinp]
    by_cases hused : nameUsed db name appId
    · -- both databases refuse the row
      cases hbackend : db.backend with
      | postgres =>
        rw [insertCheckpoint_postgres hbackend]
        exact ⟨_, _, rfl, fun _ => ⟨⟨_, rfl⟩, rfl⟩, fun h => absurd hused h⟩
      | sqlite =>
        rw [insertCheckpoint_sqlite_used hbackend happ hused]
        exact ⟨_, _, rfl, fun _ => ⟨⟨_, rfl⟩, rfl⟩, fun h => absurd hused h⟩
    · have hbackend := hworks.resolve_right hused
      obtain ⟨db', hins, hadds⟩ := insertCheckpoint_sqlite description hbackend
        happ hused inp.now inp.newId
      rw [hins]
      exact ⟨_, _, rfl, fun h => absurd h hused, fun _ => ⟨rfl, _, hadds⟩⟩

end

/-- A first checkpoint, on SQLite. -/
theorem create_checkpoint_works_storeWithA : CreatesCheckpoint storeWithA "first" none 1 :=
  (create_checkpoint_works_iff (by decide)).mpr (.inl rfl)

/-- **A first checkpoint, on PostgreSQL**: the insert has no id, and the call returns an error. -/
theorem create_checkpoint_fails_postgres :
    ¬ ∀ (db : Store) (name : String) (description : Option String) (appId : Int),
      appId ∈ db.apps.keys → CreatesCheckpoint db name description appId := by
  intro hall
  obtain ⟨r, db', hstep, -, hfresh⟩ :=
    hall { storeWithA with backend := .postgres } "first" none 1 (by decide) {} rfl
  obtain ⟨hok, -⟩ := hfresh (by decide)
  rw [hok] at hstep
  cases hstep

end TimeTracker
