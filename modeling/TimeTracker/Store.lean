import Mathlib.Data.List.Pairwise
import TimeTracker.Entities

/-!
# The database, one statement at a time

The tables the migrations create and the SQL statements the program sends to them. Each
definition here is one statement, executed as a whole; everything that interleaves does so
between statements. Constraints are those of the migrations:

* the primary keys (carried by `Table`);
* the foreign keys of `timeline` and `checkpoints`, checked on insert; deleting an app
  cascades to its timeline rows, checkpoints and aliases, and deleting a checkpoint sets the
  `checkpoint_id` of its timeline rows to NULL;
* the unique index on (`name`, `app_id`) of `checkpoints`.
-/

namespace TimeTracker

/-- `sea_orm::DbErr`: what a failing statement returns. -/
inductive DbErr where
  | exec (text : String)
  | recordNotUpdated
  | uniqueViolation
  | foreignKeyViolation
  | notNullViolation
deriving DecidableEq

/-- The two databases the SeaORM client connects to. -/
inductive Backend where
  | postgres
  | sqlite
deriving DecidableEq

structure Store where
  backend : Backend
  apps : Table Apps.Model
  timeline : Table Timeline.Model
  checkpoints : Table Checkpoints.Model
  processAliases : Table ProcessAliases.Model

namespace Store

/-- `map_or(1, |id| id + 1)` of the largest id. -/
def nextId (maxId : Option Int) : Int :=
  match maxId with
  | none => 1
  | some id => id + 1

/-! ## `apps` -/

/-- `apps::Entity::find().filter(Name.eq(name)).one()`. -/
def findApp (db : Store) (name : String) : Option Apps.Model :=
  db.apps.one fun a => a.name = some name

/-- The names in the table, NULL left out (`get_processes`). -/
def appNames (db : Store) : List String := db.apps.rows.filterMap Apps.Model.name

/-- The columns of `apps` by which rows are found: no event handler writes them. -/
def identities (db : Store) : List (Int × Option String) :=
  db.apps.rows.map fun a => (a.id, a.name)

def insertApp (db : Store) (app : Apps.Model) : Except DbErr Store :=
  match db.apps.insert app with
  | some apps => .ok { db with apps }
  | none => .error .uniqueViolation

def updateApp (db : Store) (id : Int) (set : Apps.Model → Apps.Model)
    (hset : ∀ a, Keyed.key (set a) = Keyed.key a) : Except DbErr Store :=
  match db.apps.update id set hset with
  | some apps => .ok { db with apps }
  | none => .error .recordNotUpdated

/-- `apps::Entity::delete_many().filter(Name.eq(name))`, with the cascades. -/
def deleteApps (db : Store) (name : String) : Store :=
  let gone := (db.apps.all fun a => a.name = some name).map Apps.Model.id
  let goneCheckpoints :=
    (db.checkpoints.all fun c => c.appId ∈ gone).map Checkpoints.Model.id
  { db with
    apps := db.apps.delete fun a => a.name = some name
    timeline := (db.timeline.delete fun t => t.appId ∈ gone).updateAll
      (fun t => if t.checkpointId ∈ goneCheckpoints.map some then { t with checkpointId := none }
        else t)
      (fun t => by split <;> rfl)
    checkpoints := db.checkpoints.delete fun c => c.appId ∈ gone
    processAliases := db.processAliases.delete fun p => p.appId ∈ gone }

/-! ## `timeline` -/

/-- `timeline::Entity::find().filter(AppId.eq(app_id)).filter(Date.eq(today)).one()`. -/
def findTimeline (db : Store) (appId : Int) (today : NaiveDate) : Option Timeline.Model :=
  db.timeline.one fun t => t.appId = appId && t.date = today

def updateTimeline (db : Store) (id : Int) (set : Timeline.Model → Timeline.Model)
    (hset : ∀ t, Keyed.key (set t) = Keyed.key t) : Except DbErr Store :=
  match db.timeline.update id set hset with
  | some timeline => .ok { db with timeline }
  | none => .error .recordNotUpdated

def insertTimeline (db : Store) (row : Timeline.Model) : Except DbErr Store :=
  if row.appId ∉ db.apps.keys then .error .foreignKeyViolation
  else if ∃ c ∈ row.checkpointId, c ∉ db.checkpoints.keys then .error .foreignKeyViolation
  else
    match db.timeline.insert row with
    | some timeline => .ok { db with timeline }
    | none => .error .uniqueViolation

/-! ## `checkpoints` -/

/-- `get_active_checkpoints_for_app`: the active checkpoints of an app, largest id first.
The rows travel to the caller as JSON values; the derived `Serialize` and `Deserialize` of
one struct undo each other, so the rows themselves stand for them. -/
def getActiveCheckpointsForApp (db : Store) (appId : Int) : List Checkpoints.Model :=
  (db.checkpoints.all fun c => c.appId = appId && c.isActive = some true).insertionSort
    fun c c' => c'.id ≤ c.id

def updateCheckpoint (db : Store) (id : Int) (set : Checkpoints.Model → Checkpoints.Model)
    (hset : ∀ c, Keyed.key (set c) = Keyed.key c) : Except DbErr Store :=
  match db.checkpoints.update id set hset with
  | some checkpoints => .ok { db with checkpoints }
  | none => .error .recordNotUpdated

/-- The id the database gives to a row inserted without one: any id not in the table. -/
def generatedId (db : Store) (candidate : Int) : Int :=
  if candidate ∈ db.checkpoints.keys then nextId db.checkpoints.maxKey else candidate

/-- An insert that leaves out `id`. The column is `integer not null primary key`: SQLite
fills it in, PostgreSQL has neither a default nor a sequence for it. -/
def insertCheckpoint (db : Store) (candidate : Int) (row : Int → Checkpoints.Model) :
    Except DbErr Store :=
  match db.backend with
  | .postgres => .error .notNullViolation
  | .sqlite =>
    let row := row (db.generatedId candidate)
    if row.appId ∉ db.apps.keys then .error .foreignKeyViolation
    else if ∃ c ∈ db.checkpoints.rows, c.name = row.name ∧ c.appId = row.appId then
      .error .uniqueViolation
    else
      match db.checkpoints.insert row with
      | some checkpoints => .ok { db with checkpoints }
      | none => .error .uniqueViolation

/-- `checkpoints::Entity::delete_by_id(id)`, with the foreign key of `timeline`. -/
def deleteCheckpoint (db : Store) (id : Int) : Store :=
  { db with
    checkpoints := db.checkpoints.delete fun c => c.id = id
    timeline := db.timeline.updateAll
      (fun t => if t.checkpointId = some id then { t with checkpointId := none } else t)
      (fun t => by split <;> rfl) }

/-! ## What a statement changes

One lemma a statement. Those ending in `_eq_ok` say when it succeeds and which table it writes; the
others say what becomes of the names and ids by which the program finds its rows. -/

/-- The row that is found has the name it was asked for. -/
theorem findApp_eq_some {db : Store} {name : String} {a : Apps.Model}
    (h : db.findApp name = some a) : a ∈ db.apps.rows ∧ a.name = some name := by
  simpa using Table.mem_of_one h

/-- A name is listed if some row has it; rows whose name is NULL are not listed. -/
theorem mem_appNames {db : Store} {name : String} :
    name ∈ db.appNames ↔ ∃ a ∈ db.apps.rows, a.name = some name :=
  List.mem_filterMap

/-- With distinct names a name is the name of one row. -/
theorem eq_of_name {db : Store} {a a' : Apps.Model} {name : String} (hnodup : db.appNames.Nodup)
    (ha : a ∈ db.apps.rows) (ha' : a' ∈ db.apps.rows) (hname : a.name = some name)
    (hname' : a'.name = some name) : a = a' := by
  by_contra hne
  -- `Nodup` of the names, read as a relation between any two rows
  have hpairs := List.pairwise_filterMap.mp hnodup
  have hsymm : Std.Symm fun a a' : Apps.Model =>
      ∀ b, a.name = some b → ∀ b', a'.name = some b' → b ≠ b' :=
    ⟨fun _ _ h b hb b' hb' heq => h b' hb' b hb heq.symm⟩
  exact hpairs.forall ha ha' hne name hname name hname' rfl

/-- A listed name finds a row; if several have it, one of them. -/
theorem findApp_isSome {db : Store} {name : String} (h : name ∈ db.appNames) :
    ∃ a, db.findApp name = some a := by
  obtain ⟨a, ha, hname⟩ := mem_appNames.mp h
  cases hf : db.findApp name with
  | none => simpa [hname] using Table.one_eq_none hf a ha
  | some b => exact ⟨b, rfl⟩

/-- With distinct names the name of an app finds its row. -/
theorem findApp_of_mem {db : Store} {a : Apps.Model} {name : String} (hnodup : db.appNames.Nodup)
    (ha : a ∈ db.apps.rows) (hname : a.name = some name) : db.findApp name = some a := by
  obtain ⟨a', ha'⟩ := findApp_isSome (mem_appNames.mpr ⟨a, ha, hname⟩)
  obtain ⟨hmem, hname'⟩ := findApp_eq_some ha'
  rw [ha', eq_of_name hnodup hmem ha hname' hname]

/-- An insert into `apps` that succeeds changes that table alone. -/
theorem insertApp_eq_ok {db db' : Store} {app : Apps.Model} :
    db.insertApp app = .ok db' ↔
      ∃ apps, db.apps.insert app = some apps ∧ db' = { db with apps } := by
  unfold insertApp
  cases db.apps.insert app <;> simp [eq_comm]

/-- And so does an update. -/
theorem updateApp_eq_ok {db db' : Store} {id : Int} {set : Apps.Model → Apps.Model}
    {hset : ∀ a, Keyed.key (set a) = Keyed.key a} :
    db.updateApp id set hset = .ok db' ↔
      ∃ apps, db.apps.update id set hset = some apps ∧ db' = { db with apps } := by
  unfold updateApp
  cases db.apps.update id set hset <;> simp [eq_comm]

/-- An insert adds the name of its row, if it has one. -/
theorem mem_appNames_insertApp {db db' : Store} {app : Apps.Model} (h : db.insertApp app = .ok db')
    (name : String) : name ∈ db'.appNames ↔ name ∈ db.appNames ∨ app.name = some name := by
  obtain ⟨apps, hins, rfl⟩ := insertApp_eq_ok.mp h
  simp only [mem_appNames, Table.mem_insert hins]
  constructor
  · rintro ⟨a, ha | rfl, hname⟩
    · exact .inl ⟨a, ha, hname⟩
    · exact .inr hname
  · rintro (⟨a, ha, hname⟩ | hname)
    · exact ⟨a, .inl ha, hname⟩
    · exact ⟨app, .inr rfl, hname⟩

/-- The names are a column of `identities`, so what keeps the identities keeps the names. -/
theorem appNames_eq (db : Store) : db.appNames = db.identities.filterMap Prod.snd := by
  rw [identities, List.filterMap_map]
  rfl

/-- Ids and names are read from the same row. -/
theorem mem_identities {db : Store} {id : Int} {name : Option String} :
    (id, name) ∈ db.identities ↔ ∃ a ∈ db.apps.rows, a.id = id ∧ a.name = name := by
  simp [identities]

/-- An update that leaves the name column alone keeps ids and names. -/
theorem identities_updateApp {db db' : Store} {id : Int} {set : Apps.Model → Apps.Model}
    {hset : ∀ a, Keyed.key (set a) = Keyed.key a}
    (h : db.updateApp id set hset = .ok db') (hname : ∀ a, (set a).name = a.name) :
    db'.identities = db.identities := by
  obtain ⟨apps, hupd, rfl⟩ := updateApp_eq_ok.mp h
  exact Table.map_update (fun a : Apps.Model => (a.id, a.name))
    (fun a => Prod.ext (hset a) (hname a)) hupd

/-- An insert puts the identity of its row at the end. -/
theorem identities_insertApp {db : Store} {app : Apps.Model} {apps : Table Apps.Model}
    (h : db.apps.insert app = some apps) :
    identities { db with apps } = db.identities ++ [(app.id, app.name)] := by
  simp [identities, (Table.insert_eq_some.mp h).2]

/-- A delete by name takes away every row of that name and no other; a row whose name is NULL
stays. -/
theorem mem_identities_deleteApps {db : Store} {p : String} {id : Int} {name : Option String} :
    (id, name) ∈ (db.deleteApps p).identities ↔ (id, name) ∈ db.identities ∧ name ≠ some p := by
  simp only [mem_identities, deleteApps, Table.mem_delete, decide_eq_false_iff_not]
  constructor
  · rintro ⟨a, ⟨ha, hne⟩, rfl, rfl⟩
    exact ⟨⟨a, ha, rfl, rfl⟩, hne⟩
  · rintro ⟨⟨a, ha, rfl, rfl⟩, hne⟩
    exact ⟨a, ⟨ha, hne⟩, rfl, rfl⟩

/-- After a delete the name is gone, and every other name is as it was. -/
theorem mem_appNames_deleteApps {db : Store} {p name : String} :
    name ∈ (db.deleteApps p).appNames ↔ name ∈ db.appNames ∧ name ≠ p := by
  simp only [mem_appNames, deleteApps, Table.mem_delete, decide_eq_false_iff_not]
  constructor
  · rintro ⟨a, ⟨ha, hne⟩, hname⟩
    exact ⟨⟨a, ha, hname⟩, fun he => hne (he ▸ hname)⟩
  · rintro ⟨⟨a, ha, hname⟩, hne⟩
    refine ⟨a, ⟨ha, fun he => hne ?_⟩, hname⟩
    rw [hname] at he
    exact Option.some.inj he

/-- A delete keeps the order of the names that stay, so it repeats none. -/
theorem appNames_deleteApps_sublist (db : Store) (p : String) :
    (db.deleteApps p).appNames.Sublist db.appNames :=
  List.filter_sublist.filterMap Apps.Model.name

/-- An update of `timeline` that succeeds changes that table alone. -/
theorem updateTimeline_eq_ok {db db' : Store} {id : Int} {set : Timeline.Model → Timeline.Model}
    {hset : ∀ t, Keyed.key (set t) = Keyed.key t} :
    db.updateTimeline id set hset = .ok db' ↔
      ∃ timeline, db.timeline.update id set hset = some timeline ∧
        db' = { db with timeline } := by
  unfold updateTimeline
  cases db.timeline.update id set hset <;> simp [eq_comm]

/-- And one of `checkpoints`, that one alone. -/
theorem updateCheckpoint_eq_ok {db db' : Store} {id : Int}
    {set : Checkpoints.Model → Checkpoints.Model}
    {hset : ∀ c, Keyed.key (set c) = Keyed.key c} :
    db.updateCheckpoint id set hset = .ok db' ↔
      ∃ checkpoints, db.checkpoints.update id set hset = some checkpoints ∧
        db' = { db with checkpoints } := by
  unfold updateCheckpoint
  cases db.checkpoints.update id set hset <;> simp [eq_comm]

/-- An update fails only if the row is not there, for instance because it has been deleted since. -/
theorem updateCheckpoint_eq_error {db : Store} {id : Int} {e : DbErr}
    {set : Checkpoints.Model → Checkpoints.Model}
    {hset : ∀ c, Keyed.key (set c) = Keyed.key c}
    (h : db.updateCheckpoint id set hset = .error e) : id ∉ db.checkpoints.keys := by
  unfold updateCheckpoint at h
  cases hupd : db.checkpoints.update id set hset with
  | none => exact Table.update_eq_none.mp hupd
  | some _ => rw [hupd] at h; cases h

/-- A timeline row goes in only if its app is there; nothing else is changed. -/
theorem insertTimeline_eq_ok {db db' : Store} {row : Timeline.Model}
    (h : db.insertTimeline row = .ok db') :
    row.appId ∈ db.apps.keys ∧
      ∃ timeline, db.timeline.insert row = some timeline ∧ db' = { db with timeline } := by
  unfold insertTimeline at h
  split at h
  · cases h
  · next happ =>
    split at h
    · cases h
    · cases hins : db.timeline.insert row with
      | none => rw [hins] at h; cases h
      | some timeline =>
        rw [hins] at h
        cases h
        exact ⟨not_not.mp happ, timeline, rfl, rfl⟩

/-- Only SQLite takes a checkpoint without an id, and only for an app that is there. The row has the
id the database has made up. -/
theorem insertCheckpoint_eq_ok {db db' : Store} {candidate : Int} {row : Int → Checkpoints.Model}
    (h : db.insertCheckpoint candidate row = .ok db') :
    (row (db.generatedId candidate)).appId ∈ db.apps.keys ∧
    ∃ checkpoints, db.checkpoints.insert (row (db.generatedId candidate)) = some checkpoints ∧
      db' = { db with checkpoints } := by
  unfold insertCheckpoint at h
  cases hb : db.backend with
  | postgres => rw [hb] at h; cases h
  | sqlite =>
    rw [hb] at h
    dsimp only at h
    split at h
    · cases h
    · next happ =>
      split at h
      · cases h
      · cases hins : db.checkpoints.insert (row (db.generatedId candidate)) with
        | none => rw [hins] at h; cases h
        | some checkpoints =>
          rw [hins] at h
          cases h
          exact ⟨not_not.mp happ, checkpoints, rfl, rfl⟩

/-- The list holds the checkpoints of the app that are active; `is_active` may be NULL, which counts
as inactive. -/
theorem mem_getActiveCheckpointsForApp {db : Store} {appId : Int} {c : Checkpoints.Model} :
    c ∈ db.getActiveCheckpointsForApp appId ↔
      c ∈ db.checkpoints.rows ∧ c.appId = appId ∧ c.isActive = some true := by
  simp [getActiveCheckpointsForApp, Table.mem_all]

/-- No checkpoint is listed twice. -/
theorem nodup_getActiveCheckpointsForApp (db : Store) (appId : Int) :
    ((db.getActiveCheckpointsForApp appId).map Checkpoints.Model.id).Nodup := by
  -- sorting permutes the rows, and filtering drops some
  have hperm := List.perm_insertionSort (fun c c' : Checkpoints.Model => c'.id ≤ c.id)
    (db.checkpoints.all fun c => c.appId = appId && c.isActive = some true)
  refine (hperm.map Checkpoints.Model.id).nodup_iff.mpr ?_
  exact db.checkpoints.pk.sublist (List.filter_sublist.map Keyed.key)

/-- The next id is larger than every id in the table. -/
theorem lt_nextId {ρ : Type*} [Keyed ρ Int] {t : Table ρ} {k : Int} (hk : k ∈ t.keys) :
    k < nextId t.maxKey := by
  cases hm : t.maxKey with
  | none => rw [Table.maxKey_eq_none hm] at hk; cases hk
  | some m =>
    have := Table.le_of_maxKey hm hk
    simp only [nextId]
    omega

/-- So an insert with the next id violates no primary key, as long as no other insert comes between
the query and it. -/
theorem nextId_notMem {ρ : Type*} [Keyed ρ Int] (t : Table ρ) : nextId t.maxKey ∉ t.keys :=
  fun h => lt_irrefl _ (lt_nextId h)

/-! ## The foreign key of `timeline`

The constraint of the migration, as a predicate of the tables, which every statement that can touch
either table keeps. -/

/-- Every timeline row belongs to an app that is there. -/
def timelineKeys (db : Store) : Prop := ∀ t ∈ db.timeline.rows, t.appId ∈ db.apps.keys

instance (db : Store) : Decidable db.timelineKeys := by
  unfold timelineKeys
  infer_instance

/-- The foreign key is checked when a row is inserted. -/
theorem timelineKeys_insertTimeline {db db' : Store} {row : Timeline.Model}
    (hkeys : db.timelineKeys) (h : db.insertTimeline row = .ok db') : db'.timelineKeys := by
  obtain ⟨happ, timeline, hins, rfl⟩ := insertTimeline_eq_ok h
  intro t ht
  rcases (Table.mem_insert hins).mp ht with ht | rfl
  · exact hkeys t ht
  · exact happ

/-- An update leaves the ids of the apps as they are. -/
theorem timelineKeys_updateApp {db db' : Store} {id : Int} {set : Apps.Model → Apps.Model}
    {hset : ∀ a, Keyed.key (set a) = Keyed.key a} (hkeys : db.timelineKeys)
    (h : db.updateApp id set hset = .ok db') : db'.timelineKeys := by
  obtain ⟨apps, hupd, rfl⟩ := updateApp_eq_ok.mp h
  intro t ht
  rw [Table.keys_update hupd]
  exact hkeys t ht

/-- No update of the program moves a row to another app. -/
theorem timelineKeys_updateTimeline {db db' : Store} {id : Int}
    {set : Timeline.Model → Timeline.Model} {hset : ∀ t, Keyed.key (set t) = Keyed.key t}
    (hkeys : db.timelineKeys) (h : db.updateTimeline id set hset = .ok db')
    (happ : ∀ t, (set t).appId = t.appId) : db'.timelineKeys := by
  obtain ⟨timeline, hupd, rfl⟩ := updateTimeline_eq_ok.mp h
  intro t ht
  obtain ⟨r, hr, rfl⟩ := (Table.mem_update hupd).mp ht
  split
  · rw [happ]
    exact hkeys r hr
  · exact hkeys r hr

/-- A timeline row that is left after a delete: it was there, up to its checkpoint, and its
app is not one of the deleted ones. -/
theorem of_mem_timeline_deleteApps {db : Store} {p : String} {t : Timeline.Model}
    (ht : t ∈ (db.deleteApps p).timeline.rows) :
    ∃ t' ∈ db.timeline.rows, t'.id = t.id ∧ t'.appId = t.appId ∧
      ∀ a ∈ db.apps.rows, a.id = t.appId → a.name ≠ some p := by
  obtain ⟨t', ht', rfl⟩ := List.mem_map.mp ht
  obtain ⟨hold, hkept⟩ := Table.mem_delete.mp ht'
  have hsame : ∀ (q : Prop) [Decidable q],
      (if q then { t' with checkpointId := none } else t').id = t'.id ∧
        (if q then { t' with checkpointId := none } else t').appId = t'.appId := by
    intro q _
    split <;> exact ⟨rfl, rfl⟩
  refine ⟨t', hold, (hsame _).1.symm, (hsame _).2.symm, fun a ha haid hname => ?_⟩
  rw [(hsame _).2] at haid
  -- an app of that name would have taken the row with it
  have hgone : t'.appId ∉ (db.apps.all fun a => a.name = some p).map Apps.Model.id := by
    simpa using hkept
  exact hgone (List.mem_map.mpr ⟨a, Table.mem_all.mpr ⟨ha, by simpa using hname⟩, haid⟩)

/-- A timeline row after the delete of a checkpoint is the old one, up to its checkpoint. -/
theorem of_mem_timeline_deleteCheckpoint {db : Store} {id : Int} {t : Timeline.Model}
    (ht : t ∈ (db.deleteCheckpoint id).timeline.rows) :
    ∃ t' ∈ db.timeline.rows, t'.id = t.id ∧ t'.appId = t.appId := by
  obtain ⟨t', ht', rfl⟩ := List.mem_map.mp ht
  refine ⟨t', ht', ?_⟩
  split <;> exact ⟨rfl, rfl⟩

/-- A delete cascades: what it leaves belongs to an app that it leaves. -/
theorem timelineKeys_deleteApps {db : Store} (hkeys : db.timelineKeys) (p : String) :
    (db.deleteApps p).timelineKeys := by
  intro t ht
  obtain ⟨t', ht', -, happ, hne⟩ := of_mem_timeline_deleteApps ht
  obtain ⟨a, ha, haid⟩ := Table.mem_keys.mp (hkeys t' ht')
  have hname := hne a ha (haid.trans happ)
  exact Table.mem_keys.mpr ⟨a, Table.mem_delete.mpr ⟨ha, by simpa using hname⟩, haid.trans happ⟩

end Store

end TimeTracker
