import TimeTracker.MessageHandler

/-!
# The queries behind the handlers

What `SeaORMClient` answers when a handler asks for apps and timeline rows: a query on the tables,
and the JSON of the rows (`model_to_json_with_context`). A handler turns the JSON back into
records of the protocol, by way of a map of texts.

* The members of an object are in the order of their keys, the order in which `serde_json` keeps
  them.
* Rows with one date are in the order of the table; the database is free to choose any other.
* `App.ofModel`, `Timeline.ofModel`: what is left of a row after the way through JSON
  (`convertToApps_arr`, `convertToTimeline_arr`). An empty text is no text.
-/

namespace TimeTracker

open Json (Value)

/-! ## Rows as JSON -/

def Apps.Model.members (a : Apps.Model) : List (String × Value) :=
  [("duration", .option .int a.duration), ("id", .int a.id),
    ("launches", .option .int a.launches), ("longest_session", .option .int a.longestSession),
    ("longest_session_on", .option NaiveDate.toValue a.longestSessionOn),
    ("name", .option .str a.name), ("product_name", .option .str a.productName)]

/-- `model_to_json_with_context` of a row of `apps`. -/
def Apps.Model.toValue (a : Apps.Model) : Value := .obj a.members

def Timeline.Model.members (t : Timeline.Model) : List (String × Value) :=
  [("app_id", .int t.appId), ("checkpoint_id", .option .int t.checkpointId),
    ("date", NaiveDate.toValue t.date), ("duration", .option .int t.duration), ("id", .int t.id)]

/-- `model_to_json_with_context` of a row of `timeline`. -/
def Timeline.Model.toValue (t : Timeline.Model) : Value := .obj t.members

/-! ## Queries -/

/-- What the client and the clock depend on: the tables, the time, and what the database makes of
the statements that are still to come, one after the other: the error with which it refuses a
statement, displayed, or none. Past the end of the list it refuses nothing. -/
structure World where
  db : Store
  now : NaiveDateTime
  errs : List (Option String) := []

/-- After `n` more statements, as far as the list goes. -/
def World.later (w : World) (n : Nat) : World := { w with errs := w.errs.drop n }

/-- The database refuses none of the next `n` statements. -/
def World.serves (w : World) (n : Nat) : Bool := (w.errs.take n).all Option.isNone

/-- What the database makes of the next statement. -/
def nextStatement : StoreM World Unit := do
  let world ← get
  set (world.later 1)
  match world.errs.headD none with
  | some e => throw e
  | none => return

/-- A statement that only reads. -/
def query {α : Type} (read : Store → α) : StoreM World α := do
  nextStatement
  return read (← get).db

namespace Store

/-- `.order_by(apps::Column::Id, Order::Asc)`. -/
def appsById (db : Store) : List Apps.Model :=
  db.apps.rows.insertionSort fun a a' => a.id ≤ a'.id

/-- `.filter(Date.gte(cutoff_date)).order_by_desc(Date)`, of the rows that are selected. -/
def timelineSince (db : Store) (selected : Timeline.Model → Bool) (cutoffDate : NaiveDate) :
    List Timeline.Model :=
  (db.timeline.all fun t => selected t && cutoffDate ≤ t.date).insertionSort
    fun t t' => t'.date ≤ t.date

/-- The inner join with `apps` and `Name.eq(name)`. The id of an app is its primary key, so the
join finds a row at most once. -/
def isOfApp (db : Store) (name : String) (t : Timeline.Model) : Bool :=
  db.apps.rows.any fun a => a.id = t.appId && a.name = some name

/-- The timeline query: all apps, or the ones with a name. -/
def timelineData (db : Store) (appName : Option String) (cutoffDate : NaiveDate) :
    List Timeline.Model :=
  match appName with
  | some name => db.timelineSince (db.isOfApp name) cutoffDate
  | none => db.timelineSince (fun _ => true) cutoffDate

/-- `timeline::Entity::find().filter(AppId.eq(app_id)).count()`. -/
def sessionCount (db : Store) (appId : Int) : Nat :=
  (db.timeline.all fun t => t.appId = appId).length

end Store

namespace SeaORMClient

def getAllApps : StoreM World Value := do
  let apps ← query Store.appsById
  return .arr (apps.map Apps.Model.toValue)

/-- `get_timeline_data`; the callers ask for 30 days. -/
def getTimelineData (appName : Option String) (days : Int) : StoreM World Value := do
  let cutoffDate := (← get).now.date.subDays days.toNat
  let timelineEntries ← query fun db => db.timelineData appName cutoffDate
  return .arr (timelineEntries.map Timeline.Model.toValue)

def getSessionCountForApp (appId : Int) : StoreM World Int := do
  let count ← query fun db => db.sessionCount appId
  -- `count as i32`
  return asI32 count

end SeaORMClient

/-- The handlers over the tables: the queries of this module and the clock are those of the
program, the rest of the environment is any. -/
def Environment.onTables (env : Environment World) : Environment World :=
  { env with
    client :=
      { env.client with
        getAllApps := SeaORMClient.getAllApps
        getTimelineData := SeaORMClient.getTimelineData
        getSessionCountForApp := SeaORMClient.getSessionCountForApp }
    today := do return (← get).now.date }

section
variable {w : World}

/-- Statements that are served one after the other. -/
theorem World.later_later (w : World) (m n : Nat) : (w.later m).later n = w.later (m + n) := by
  unfold World.later
  rw [List.drop_drop]

/-- Some statements are served, and then some more. -/
theorem World.serves_add (w : World) (m n : Nat) :
    w.serves (m + n) = (w.serves m && (w.later m).serves n) := by
  unfold World.serves World.later
  rw [List.take_add, List.all_append]

/-- A statement that is served. -/
theorem nextStatement_run (h : w.serves 1 = true) :
    nextStatement.run.run w = (.ok (), w.later 1) := by
  obtain ⟨db, now, _ | ⟨_ | e, errs⟩⟩ := w
  · rfl
  · rfl
  · cases h

/-- A statement that is refused. -/
theorem nextStatement_run_refused (h : w.serves 1 = false) :
    ∃ e, nextStatement.run.run w = (.error e, w.later 1) := by
  obtain ⟨db, now, _ | ⟨_ | e, errs⟩⟩ := w
  · cases h
  · cases h
  · exact ⟨e, rfl⟩

/-- All apps are read, from a database that refuses nothing. -/
theorem getAllApps_run (env : Environment World) (herrs : w.errs = []) :
    env.onTables.client.getAllApps.run.run w =
      (.ok (.arr (w.db.appsById.map Apps.Model.toValue)), w) := by
  obtain ⟨db, now, errs⟩ := w
  cases herrs
  rfl

/-- The sessions of an app are counted, from a database that refuses nothing; the count is cast to
an `i32`. -/
theorem getSessionCountForApp_run (env : Environment World) (appId : Int) (herrs : w.errs = []) :
    (env.onTables.client.getSessionCountForApp appId).run.run w =
      (.ok (asI32 (w.db.sessionCount appId)), w) := by
  obtain ⟨db, now, errs⟩ := w
  cases herrs
  rfl

end

/-! ## From rows to records -/

/-- The texts of the members of an object. -/
def rowData (members : List (String × Value)) : RowData :=
  members.map fun (k, v) => (k, jsonValueToString v)

/-- `App` of a row of `apps`, by way of its JSON. -/
def App.ofModel (chrono : ChronoParsers) (a : Apps.Model) : Option App :=
  App.fromPgRow chrono (rowData a.members)

/-- `Timeline` of a row of `timeline`, by way of its JSON. -/
def Timeline.ofModel (chrono : ChronoParsers) (t : Timeline.Model) : Option Timeline :=
  Timeline.fromPgRow chrono (rowData t.members)

/-- A record of every row the converter accepts. -/
theorem convertArray_arr {α ρ : Type} (members : ρ → List (String × Value))
    (converter : RowData → Option α) (rows : List ρ) :
    convertArray (.arr (rows.map fun row => .obj (members row))) converter =
      rows.filterMap fun row => converter (rowData (members row)) := by
  unfold convertArray
  show convertJsonRows (rows.map fun row => .obj (members row)) converter = _
  unfold convertJsonRows
  rw [List.filterMap_map, List.filterMap_filterMap]
  rfl

/-- Rows that cannot be read are left out, -/
theorem convertToApps_arr (env : Environment World) (rows : List Apps.Model) :
    convertToApps env (.arr (rows.map Apps.Model.toValue)) =
      rows.filterMap (App.ofModel env.chrono) :=
  convertArray_arr Apps.Model.members _ rows

/-- of the timeline as well. -/
theorem convertToTimeline_arr (env : Environment World) (rows : List Timeline.Model) :
    convertToTimeline env (.arr (rows.map Timeline.Model.toValue)) =
      rows.filterMap (Timeline.ofModel env.chrono) :=
  convertArray_arr Timeline.Model.members _ rows

/-- The integers of an `i32` column. -/
def checkedI32 (i : Int) : Option Int :=
  if -2147483648 ≤ i ∧ i ≤ 2147483647 then some i else none

/-- An `i32` is read back from its text. -/
theorem parseI32_intText (i : Int) : parseI32 (Json.intText i) = checkedI32 i := by
  unfold checkedI32
  cases i with
  | ofNat n =>
    show parseI32 (Nat.toDigits 10 n) =
      if -2147483648 ≤ (n : Int) ∧ (n : Int) ≤ 2147483647 then some (n : Int) else none
    rw [parseI32_toDigits]
    by_cases hn : n ≤ 2147483647
    · rw [if_pos hn, if_pos (by omega)]
    · rw [if_neg hn, if_neg (by omega)]
  | negSucc n =>
    show (Decimal.parseNat (Nat.toDigits 10 (n + 1))).bind _ = _
    rw [Decimal.parseNat_toDigits]
    show (if n + 1 ≤ 2147483648 then some (-((n + 1 : Nat) : Int)) else none) = _
    by_cases hn : n + 1 ≤ 2147483648
    · rw [if_pos hn, if_pos (by omega)]
      rfl
    · rw [if_neg hn, if_neg (by omega)]

/-- The text of a number is not empty. -/
theorem intText_ne_nil (i : Int) : Json.intText i ≠ [] := by
  cases i with
  | ofNat n => exact Nat.toDigits_ne_nil
  | negSucc n => simp [Json.intText]

namespace RowData

variable (row : RowData) (key : String)

/-- A column of texts. -/
theorem text_of_lookup (o : Option String)
    (h : Json.lookup row key = some (jsonValueToString (.option .str o))) :
    row.text key = o.filter fun s => !s.isEmpty := by
  unfold text
  rw [h]
  cases o <;> rfl

/-- A nullable column of integers: NULL becomes the empty text, which is no number. -/
theorem int_of_lookup (o : Option Int)
    (h : Json.lookup row key = some (jsonValueToString (.option .int o))) :
    row.int key = o.bind checkedI32 := by
  unfold int text
  rw [h]
  cases o with
  | none => rfl
  | some i =>
    show ((some (String.ofList (Json.intText i))).filter _).bind _ = checkedI32 i
    rw [Option.filter_some, if_pos, Option.bind_some, String.toList_ofList, parseI32_intText]
    simp [intText_ne_nil]

/-- A column of dates. -/
theorem text_of_date (o : Option NaiveDate)
    (h : Json.lookup row key = some (jsonValueToString (.option NaiveDate.toValue o))) :
    row.text key = o.map fun d => String.ofList d.format := by
  unfold text
  rw [h]
  cases o with
  | none => rfl
  | some d =>
    show (some (String.ofList d.format)).filter _ = some (String.ofList d.format)
    rw [Option.filter_some, if_pos]
    simp [NaiveDate.format]

/-- The id has no default: a row without one that fits is not read. -/
theorem id_of_lookup (i : Int) (h : Json.lookup row "id" = some (jsonValueToString (.int i))) :
    row.id = checkedI32 i := by
  unfold id
  rw [h]
  show parseI32 (String.ofList (Json.intText i)).toList = _
  rw [String.toList_ofList, parseI32_intText]

end RowData

/-- What is left of a row of `apps`. -/
theorem App.ofModel_eq (chrono : ChronoParsers) (a : Apps.Model) :
    App.ofModel chrono a = (checkedI32 a.id).map fun id =>
      { id
        duration := a.duration.bind checkedI32
        launches := a.launches.bind checkedI32
        longestSession := a.longestSession.bind checkedI32
        name := a.name.filter fun s => !s.isEmpty
        productName := a.productName.filter fun s => !s.isEmpty
        longestSessionOn := a.longestSessionOn.bind fun d =>
          chrono.dateFromStr (String.ofList d.format) "%Y-%m-%d" } := by
  unfold App.ofModel App.fromPgRow
  rw [RowData.id_of_lookup _ a.id rfl, RowData.int_of_lookup _ "duration" a.duration rfl,
    RowData.int_of_lookup _ "launches" a.launches rfl,
    RowData.int_of_lookup _ "longest_session" a.longestSession rfl,
    RowData.text_of_lookup _ "name" a.name rfl,
    RowData.text_of_lookup _ "product_name" a.productName rfl,
    RowData.text_of_date _ "longest_session_on" a.longestSessionOn rfl, Option.bind_map]
  cases checkedI32 a.id <;> rfl

/-- What is left of a row of `timeline`. -/
theorem Timeline.ofModel_eq (chrono : ChronoParsers) (t : Timeline.Model) :
    Timeline.ofModel chrono t = (checkedI32 t.id).map fun id =>
      { id
        date := (chrono.parseDate (String.ofList t.date.format)).or
          (chrono.dateFromStr (String.ofList t.date.format) "%Y-%m-%d")
        duration := t.duration.bind checkedI32
        appId := checkedI32 t.appId } := by
  unfold Timeline.ofModel Timeline.fromPgRow
  rw [RowData.id_of_lookup _ t.id rfl, RowData.int_of_lookup _ "duration" t.duration rfl,
    RowData.int_of_lookup _ "app_id" (some t.appId) rfl,
    RowData.text_of_date _ "date" (some t.date) rfl]
  cases checkedI32 t.id <;> rfl

end TimeTracker
