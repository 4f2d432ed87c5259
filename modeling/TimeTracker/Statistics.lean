import TimeTracker.Queries

/-!
# The statistics of one app

The answer to `get_statistics` lists the statistics of every app. What it says of an app comes
from the row of the app, from the timeline rows the query finds for its name, and from the clock.

* **`handleGetStatistics_run`**: the vector the handler serialises is `statistics`.
* **`statistics_of_app_iff`**: the statistics of an app depend on nothing but its own rows and the
  clock exactly if its name is not empty. An empty name is lost on the way through the map of
  texts, and without a name the query finds the rows of all apps.
-/

namespace TimeTracker

open Transaction (run_bind_ok)

/-! ## What the handler computes -/

/-- `calculate_app_statistics`, of the tables and the clock. -/
def appStatistics (env : Environment World) (w : World) (app : App) : AppStatistics :=
  let timelineEntries := (w.db.timelineData app.name (w.now.date.subDays 30)).filterMap
    (Timeline.ofModel env.chrono)
  let sums := calculateDurationStatistics w.now.date timelineEntries
  { app
    totalDuration := app.duration.getD 0
    todayDuration := sums.today
    weekDuration := sums.week
    monthDuration := sums.month
    averageSessionLength :=
      if sums.count > 0 then env.quotient sums.total sums.count else zeroAverage
    recentSessions := timelineEntries.take 10 }

/-- The statistics of all apps. -/
def statistics (env : Environment World) (w : World) : List AppStatistics :=
  (w.db.appsById.filterMap (App.ofModel env.chrono)).map (appStatistics env w)

/-- The statistics of one app, from a database that refuses nothing. -/
theorem calculateAppStatistics_run (env : Environment World) (app : App) {w : World}
    (herrs : w.errs = []) :
    (calculateAppStatistics env.onTables app).run.run w = (.ok (appStatistics env w app), w) := by
  obtain ⟨db, now, errs⟩ := w
  cases herrs
  have hentries := convertToTimeline_arr env (db.timelineData app.name (now.date.subDays 30))
  unfold appStatistics
  show (Except.ok _, _) = (Except.ok _, _)
  rw [← hentries]
  rfl

/-- The loop over the apps. -/
theorem forIn_statistics (env : Environment World) {state : ServerState World}
    (herrs : state.world.errs = []) (apps : List App) (acc : List AppStatistics) :
    (forIn (m := HandlerM World) apps acc fun app acc => do
      match ← onWorld (calculateAppStatistics env.onTables app) with
      | .ok stats => pure (.yield (acc ++ [stats]))
      | .error _ => pure (.yield acc)).run.run state =
      (.ok (acc ++ apps.map (appStatistics env state.world)), state) := by
  induction apps generalizing acc with
  | nil =>
    rw [List.map_nil, List.append_nil]
    rfl
  | cons app apps ih =>
    have hrun := calculateAppStatistics_run env app herrs
    have hstats := onWorld_run (calculateAppStatistics env.onTables app) state
    rw [hrun] at hstats
    -- one pass of the loop: the client does not fail, so the entry is appended
    have hbody : (do
        match ← onWorld (calculateAppStatistics env.onTables app) with
        | .ok stats => pure (.yield (acc ++ [stats]))
        | .error _ => pure (.yield acc) : HandlerM World (ForInStep (List AppStatistics))).run.run
          state = (.ok (.yield (acc ++ [appStatistics env state.world app])), state) := by
      rw [run_bind_ok hstats]
      rfl
    have hrest := ih (acc ++ [appStatistics env state.world app])
    rw [List.append_assoc] at hrest
    rw [List.forIn_cons]
    exact (run_bind_ok hbody).trans hrest

/-- **The answer to `get_statistics`** of a database that refuses nothing carries the statistics of
all apps, and the handler changes nothing. -/
theorem handleGetStatistics_run (env : Environment World) {state : ServerState World}
    (hstate : state.stateLock = .healthy) (hclient : state.clientLock = .healthy)
    (herrs : state.world.errs = []) :
    (handleGetStatistics env.onTables).run.run state =
      (.ok (WebSocketMessage.statisticsData
        (arrayJson AppStatistics.toValue (statistics env state.world))).toJson, state) := by
  have happs := getAllApps_run env herrs
  have hloop := forIn_statistics env herrs
    (convertToApps env.onTables (.arr (state.world.db.appsById.map Apps.Model.toValue))) []
  rw [convertToApps_arr, List.nil_append] at hloop
  unfold handleGetStatistics
  rw [run_bind_ok (acquire_run _ hstate), run_bind_ok (acquire_run _ hclient),
    run_bind_ok (withContext_run (await_run happs)), convertToApps_arr]
  exact run_bind_ok hloop

/-! ## The statistics of one app -/

/-- What the handler produces for the app with an id. -/
def statisticsOf (env : Environment World) (w : World) (id : Int) : List AppStatistics :=
  (statistics env w).filter fun s => s.app.id = id

/-- Two stores say the same about an app: its row, and the timeline rows that carry its id, in the
same order. The order counts where two of them have one date: `ORDER BY date` leaves such ties in
the order in which the rows come. -/
structure SameApp (a : Apps.Model) (db db' : Store) : Prop where
  left : a ∈ db.apps.rows
  right : a ∈ db'.apps.rows
  timeline : (db.timeline.all fun t => t.appId = a.id) = db'.timeline.all fun t => t.appId = a.id

theorem App.ofModel_id {chrono : ChronoParsers} {a : Apps.Model} {app : App}
    (h : App.ofModel chrono a = some app) : app.id = a.id := by
  rw [App.ofModel_eq] at h
  obtain ⟨id, hid, rfl⟩ := Option.map_eq_some_iff.mp h
  unfold checkedI32 at hid
  split at hid <;> cases hid
  rfl

theorem App.ofModel_name {chrono : ChronoParsers} {a : Apps.Model} {app : App}
    (h : App.ofModel chrono a = some app) : app.name = a.name.filter fun s => !s.isEmpty := by
  rw [App.ofModel_eq] at h
  obtain ⟨id, -, rfl⟩ := Option.map_eq_some_iff.mp h
  rfl

/-- The query lists an app once. -/
theorem appsById_filter {db : Store} {a : Apps.Model} (ha : a ∈ db.apps.rows) :
    (db.appsById.filter fun r => r.id = a.id) = [a] := by
  have hperm := List.perm_insertionSort (fun a a' : Apps.Model => a.id ≤ a'.id) db.apps.rows
  have hrows : (db.apps.rows.filter fun r => r.id = a.id) = [a] := Table.filter_key_eq ha
  have hfilter := hperm.filter fun r => r.id = a.id
  rw [hrows] at hfilter
  exact List.perm_singleton.mp hfilter

/-- The statistics of an app are those of its record. -/
theorem statisticsOf_eq (env : Environment World) {w : World} {a : Apps.Model}
    (ha : a ∈ w.db.apps.rows) :
    statisticsOf env w a.id =
      ((App.ofModel env.chrono a).map (appStatistics env w)).toList := by
  have hid : ∀ rows : List Apps.Model,
      ((rows.filterMap (App.ofModel env.chrono)).filter fun app => app.id = a.id) =
        (rows.filter fun r => r.id = a.id).filterMap (App.ofModel env.chrono) := by
    intro rows
    rw [List.filter_filterMap, List.filterMap_filter]
    refine List.filterMap_congr fun r _ => ?_
    cases hr : App.ofModel env.chrono r with
    | none => simp
    | some app => simp [Option.filter_some, App.ofModel_id hr]
  unfold statisticsOf statistics
  rw [List.filter_map]
  show (List.filter (fun app : App => app.id = a.id) _).map _ = _
  rw [hid, appsById_filter ha]
  cases hofModel : App.ofModel env.chrono a <;> simp [hofModel]

/-- The join with the name of an app finds the rows of that app. -/
theorem isOfApp_eq {db : Store} {a : Apps.Model} {p : String} (hnodup : db.appNames.Nodup)
    (ha : a ∈ db.apps.rows) (hname : a.name = some p) (t : Timeline.Model) :
    db.isOfApp p t = decide (t.appId = a.id) := by
  unfold Store.isOfApp
  rw [Bool.eq_iff_iff, List.any_eq_true, decide_eq_true_iff]
  constructor
  · intro ⟨r, hr, hjoin⟩
    rw [Bool.and_eq_true, decide_eq_true_iff, decide_eq_true_iff] at hjoin
    -- the join asks for a row of that name, and names are distinct
    have hsame : r = a := Store.eq_of_name hnodup hr ha hjoin.2 hname
    rw [← hjoin.1, hsame]
  · intro happ
    refine ⟨a, ha, ?_⟩
    rw [Bool.and_eq_true, decide_eq_true_iff, decide_eq_true_iff]
    exact ⟨happ.symm, hname⟩

/-- With a name, the query reads the rows of one app. -/
theorem timelineData_eq {db : Store} {a : Apps.Model} {p : String} (hnodup : db.appNames.Nodup)
    (ha : a ∈ db.apps.rows) (hname : a.name = some p) (cutoffDate : NaiveDate) :
    db.timelineData (some p) cutoffDate =
      ((db.timeline.all fun t => t.appId = a.id).filter fun t => cutoffDate ≤ t.date).insertionSort
        fun t t' => t'.date ≤ t.date := by
  show (List.filter _ _).insertionSort _ = _
  unfold Table.all
  rw [List.filter_filter]
  congr 1
  refine List.filter_congr fun t _ => ?_
  rw [isOfApp_eq hnodup ha hname, Bool.and_comm]

/-- **The statistics of an app with a name** are a function of its own rows and the clock. -/
theorem appStatistics_congr (env : Environment World) {w w' : World} {a : Apps.Model} {p : String}
    {app : App} (hsame : SameApp a w.db w'.db) (hnow : w.now = w'.now)
    (hnodup : w.db.appNames.Nodup) (hnodup' : w'.db.appNames.Nodup) (hname : a.name = some p)
    (happ : app.name = some p) : appStatistics env w app = appStatistics env w' app := by
  have hrows : w.db.timelineData app.name (w.now.date.subDays 30) =
      w'.db.timelineData app.name (w'.now.date.subDays 30) := by
    rw [happ, timelineData_eq hnodup hsame.left hname, timelineData_eq hnodup' hsame.right hname,
      hsame.timeline, hnow]
  unfold appStatistics
  rw [hrows, hnow]

/-- The statistics of an app whose name is not empty. -/
theorem statisticsOf_congr (env : Environment World) {w w' : World} {a : Apps.Model} {p : String}
    (hnodup : w.db.appNames.Nodup) (hnodup' : w'.db.appNames.Nodup)
    (hsame : SameApp a w.db w'.db) (hnow : w.now = w'.now) (hname : a.name = some p)
    (hp : p ≠ "") : statisticsOf env w a.id = statisticsOf env w' a.id := by
  rw [statisticsOf_eq env hsame.left, statisticsOf_eq env hsame.right]
  cases hofModel : App.ofModel env.chrono a with
  | none => rfl
  | some app =>
    have happ : app.name = some p := by
      rw [App.ofModel_name hofModel, hname, Option.filter_some, if_pos]
      simpa using hp
    have hstats := appStatistics_congr env hsame hnow hnodup hnodup' hname happ
    show [appStatistics env w app] = [appStatistics env w' app]
    rw [hstats]

/-! ## The empty name -/

/-- Another app. -/
def otherApp (a : Apps.Model) : Apps.Model :=
  AddProcess.newApp "b" "b" (if a.id = 1 then 2 else 1)

/-- A minute of the other app. -/
def otherRow (a : Apps.Model) : Timeline.Model :=
  ⟨1, NaiveDateTime.unixEpoch.date, some 1, (otherApp a).id, none⟩

theorem otherApp_id_ne (a : Apps.Model) : (otherApp a).id ≠ a.id := by
  show (if a.id = 1 then 2 else 1) ≠ a.id
  split <;> omega

/-- An app and another one, with the given rows of the timeline. -/
def twoApps (a : Apps.Model) (timeline : Table Timeline.Model) : World where
  db :=
    { backend := .sqlite
      apps := ⟨[a, otherApp a], by
        have hne := otherApp_id_ne a
        simpa using hne.symm⟩
      timeline
      checkpoints := .empty
      processAliases := .empty }
  now := .unixEpoch

/-- The other app without and with its minute. -/
def otherIdle (a : Apps.Model) : World := twoApps a .empty

def otherTicked (a : Apps.Model) : World := twoApps a ⟨[otherRow a], by simp⟩

theorem sameApp_other (a : Apps.Model) : SameApp a (otherIdle a).db (otherTicked a).db where
  left := List.mem_cons_self
  right := List.mem_cons_self
  timeline := by
    show [] = List.filter _ [otherRow a]
    have hne : (otherRow a).appId ≠ a.id := otherApp_id_ne a
    rw [List.filter_cons_of_neg (by simpa using hne)]
    rfl

theorem nodup_twoApps {a : Apps.Model} (hname : a.name = some "")
    (timeline : Table Timeline.Model) :
    (twoApps a timeline).db.appNames.Nodup := by
  show (List.filterMap Apps.Model.name [a, otherApp a]).Nodup
  have hother : (otherApp a).name = some "b" := rfl
  rw [List.filterMap_cons_some hname, List.filterMap_cons_some hother]
  decide

/-- **The empty name** is no name after the way through the map of texts: the minute of the other
app is in the statistics. -/
theorem statisticsOf_ne (env : Environment World) {a : Apps.Model} (hname : a.name = some "")
    (hid : checkedI32 a.id = some a.id) :
    statisticsOf env (otherIdle a) a.id ≠ statisticsOf env (otherTicked a) a.id := by
  intro hstats
  have hsame := sameApp_other a
  rw [statisticsOf_eq env hsame.left, statisticsOf_eq env hsame.right] at hstats
  cases hofModel : App.ofModel env.chrono a with
  | none =>
    rw [App.ofModel_eq, hid] at hofModel
    cases hofModel
  | some app =>
    -- without a name the query takes the rows of all apps
    have happ : app.name = none := by
      rw [App.ofModel_name hofModel, hname]
      rfl
    rw [hofModel] at hstats
    -- the two records differ in the sessions they list
    have hrecent := congrArg (List.map AppStatistics.recentSessions) hstats
    have hidle : (appStatistics env (otherIdle a) app).recentSessions = [] := by
      unfold appStatistics
      rw [happ]
      rfl
    have hticked : (appStatistics env (otherTicked a) app).recentSessions ≠ [] := by
      have hdata : (otherTicked a).db.timelineData none
          ((otherTicked a).now.date.subDays 30) = [otherRow a] := by
        have hcutoff : NaiveDateTime.unixEpoch.date.subDays 30 ≤ (otherRow a).date :=
          NaiveDate.subDays_le _ _
        show (List.filter _ [otherRow a]).insertionSort _ = [otherRow a]
        rw [List.filter_cons_of_pos]
        · rfl
        · rw [Bool.true_and, decide_eq_true_iff]
          exact hcutoff
      obtain ⟨entry, hentry⟩ : ∃ entry, Timeline.ofModel env.chrono (otherRow a) = some entry := by
        rw [Timeline.ofModel_eq]
        exact ⟨_, rfl⟩
      unfold appStatistics
      rw [happ, hdata, List.filterMap_cons_some hentry]
      exact List.cons_ne_nil _ _
    apply hticked
    rw [← List.singleton_inj.mp hrecent]
    exact hidle

/-! ## Which apps have statistics of their own -/

/-- **The statistics of an app depend on that app only** if and only if its name is not empty: with
distinct names, two stores with the same row of the app and the same rows of its timeline give it
the same statistics at the same time. -/
theorem statistics_of_app_iff (env : Environment World) {a : Apps.Model} {p : String}
    (hname : a.name = some p) (hid : checkedI32 a.id = some a.id) :
    (∀ w w' : World, w.db.appNames.Nodup → w'.db.appNames.Nodup → SameApp a w.db w'.db →
      w.now = w'.now → statisticsOf env w a.id = statisticsOf env w' a.id) ↔ p ≠ "" := by
  constructor
  · rintro hall rfl
    apply statisticsOf_ne env hname hid
    apply hall
    · exact nodup_twoApps hname _
    · exact nodup_twoApps hname _
    · exact sameApp_other a
    · rfl
  · intro hp w w' hnodup hnodup' hsame hnow
    exact statisticsOf_congr env hnodup hnodup' hsame hnow hname hp

/-- A client all of whose calls fail. -/
def Restable.failing {σ : Type} (e : String) : Restable σ where
  getProcesses := throw e
  putData _ _ := throw e
  deleteData _ := throw e
  getAllApps := throw e
  getTimelineData _ _ := throw e
  getSessionCountForApp _ := throw e
  getAllAppIds := throw e
  getAllCheckpoints := throw e
  getCheckpointsForApp _ := throw e
  createCheckpoint _ _ _ := throw e
  setCheckpointActive _ _ := throw e
  deleteCheckpoint _ := throw e
  getActiveCheckpoints := throw e
  getActiveCheckpointsForApp _ := throw e
  getCheckpointDurationsByIds _ := throw e
  getTimelineWithCheckpoints := throw e

/-- The tables on 1 January 1970: the only date that is read back, and the only average that is
printed, is the one of that day. -/
def epochEnvironment : Environment World where
  client := .failing "not connected"
  chrono :=
    { parseDate := fun s => if s = "1970-01-01" then some NaiveDateTime.unixEpoch.date else none
      dateFromStr := fun s _ =>
        if s = "1970-01-01" then some NaiveDateTime.unixEpoch.date else none
      dateTimeFromStr := fun _ _ => none }
  commandFromStr _ := .error "expected value at line 1 column 1"
  paramsFromStr _ := .error "expected value at line 1 column 1"
  appsFromValue _ := none
  quotient _ _ := ⟨['1', '.', '0'], by decide⟩
  verQueryValue _ := none
  today := do return (← get).now.date

/-- The app `a` has the same statistics with and without the minute of `b`. -/
theorem statistics_of_app_iff_a :
    statisticsOf epochEnvironment (otherIdle (AddProcess.newApp "a" "a" 1)) 1 =
      statisticsOf epochEnvironment (otherTicked (AddProcess.newApp "a" "a" 1)) 1 := by
  have happ := (statistics_of_app_iff epochEnvironment (a := AddProcess.newApp "a" "a" 1)
    (p := "a") rfl (by decide)).mpr (by decide)
  exact happ _ _ (by decide) (by decide) (sameApp_other _) rfl

/-- The app with the empty name does not. -/
theorem statistics_of_emptyName :
    ¬ ∀ (a : Apps.Model) (w w' : World), w.db.appNames.Nodup → w'.db.appNames.Nodup →
      SameApp a w.db w'.db → w.now = w'.now →
      statisticsOf epochEnvironment w a.id = statisticsOf epochEnvironment w' a.id := by
  intro hall
  apply statisticsOf_ne epochEnvironment (a := AddProcess.newApp "" "" 1) rfl (by decide)
  apply hall
  · exact nodup_twoApps rfl _
  · exact nodup_twoApps rfl _
  · exact sameApp_other _
  · rfl

end TimeTracker
