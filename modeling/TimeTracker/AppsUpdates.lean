import TimeTracker.Broadcast
import TimeTracker.CheckpointRows
import TimeTracker.Lib.Json.Decode
import TimeTracker.System

/-!
# The list of apps, requested and pushed

`get_apps` and an apps update send the same rows: the first by way of a map of texts
(`App::from_pg_row`), the second with the derived reader of `App` (`serde_json::from_value`).

* `handleGetApps_run`, `broadcastApps_run`, `broadcastAppsIfActive_run`: the reply carries
  `requestedApps`, and the updates `pushedApps`.
* **`appsAgree_iff`**: the two are the same exactly if no app has an empty name or product name.
-/

namespace TimeTracker

open Json (Value)
open Transaction (run_bind_ok)

/-! ## The derived reader -/

/-- The fields of an app, in the order of the declaration. -/
def App.fieldNames : List String :=
  ["id", "duration", "launches", "longest_session", "name", "product_name", "longest_session_on"]

/-- The fields of the derived `Deserialize`; `parseDate` is `str::parse::<NaiveDate>`. -/
def App.fromMembers (parseDate : String → Option NaiveDate) (members : List (String × Value)) :
    Option App := do
  return {
    id := ← Json.decodeField Json.decodeI32 members "id"
    duration := ← Json.decodeOptionField Json.decodeI32 members "duration"
    launches := ← Json.decodeOptionField Json.decodeI32 members "launches"
    longestSession := ← Json.decodeOptionField Json.decodeI32 members "longest_session"
    name := ← Json.decodeOptionField Value.asStr members "name"
    productName := ← Json.decodeOptionField Value.asStr members "product_name"
    longestSessionOn := ←
      Json.decodeOptionField (Json.decodeParsed parseDate) members "longest_session_on" }

/-- The derived `Deserialize`. -/
def App.fromValue (parseDate : String → Option NaiveDate) (value : Value) : Option App :=
  (Json.recordMembers fieldNames value).bind (App.fromMembers parseDate)

/-- `serde_json::from_value::<Vec<App>>` is the derived reader. -/
def Environment.DecodesApps {σ : Type} (env : Environment σ) : Prop :=
  ∀ value, env.appsFromValue value =
    Json.decodeArray (App.fromValue env.chrono.parseDate) value

/-! ## The two lists -/

/-- `broadcast_apps_if_active` of the event loop, which has the client already. -/
def broadcastAppsIfActive {σ : Type} (env : Environment σ) : HandlerM σ Unit := do
  if (← get).hasActiveBroadcaster then
    match ← onWorld env.client.getAllApps with
    | .error _ => return
    | .ok apps =>
      match env.appsFromValue apps with
      | none => return
      | some appsVec => if (← get).stateLock = .healthy then enqueue (.appsUpdate appsVec)

/-- The apps of the reply to `get_apps`. -/
def requestedApps (env : Environment World) (db : Store) : List App :=
  convertToApps env (.arr (db.appsById.map Apps.Model.toValue))

/-- The apps of an update. -/
def pushedApps (env : Environment World) (db : Store) : Option (List App) :=
  env.appsFromValue (.arr (db.appsById.map Apps.Model.toValue))

/-- All is well with the server, and a client listens. -/
structure Serves (state : ServerState World) (db : Store) : Prop where
  db : state.world.db = db
  errs : state.world.errs = []
  stateLock : state.stateLock = .healthy
  clientLock : state.clientLock = .healthy
  broadcaster : state.hasActiveBroadcaster = true

section
variable {env : Environment World} {state : ServerState World} {db : Store}

theorem Serves.getAllApps_run (h : Serves state db) :
    env.onTables.client.getAllApps.run.run state.world =
      (.ok (.arr (db.appsById.map Apps.Model.toValue)), state.world) := by
  have happs := TimeTracker.getAllApps_run env h.errs
  rw [h.db] at happs
  exact happs

/-- **The reply to `get_apps`.** -/
theorem handleGetApps_run (h : Serves state db) :
    (handleGetApps env.onTables).run.run state =
      (.ok (createAppsMessage (requestedApps env db)), state) := by
  have hread : (callDbMethod env.onTables.client.getAllApps "Failed to retrieve apps").run.run
      state = (.ok (.arr (db.appsById.map Apps.Model.toValue)), state) := by
    unfold callDbMethod
    rw [run_bind_ok (acquire_run _ h.clientLock),
      run_bind_ok (onWorld_run _ state), h.getAllApps_run]
    rfl
  unfold handleGetApps
  rw [run_bind_ok (acquireClientLock_run h.stateLock), run_bind_ok hread]
  rfl

/-- The event loop pushes what the derived reader makes of the rows. -/
theorem broadcastAppsIfActive_run (h : Serves state db) {apps : List App}
    (happs : pushedApps env db = some apps) :
    (broadcastAppsIfActive env.onTables).run.run state =
      (.ok (), { state with broadcasts := state.broadcasts ++ [.appsUpdate apps] }) := by
  have hread := onWorld_run env.onTables.client.getAllApps state
  rw [h.getAllApps_run] at hread
  have hdecode : env.onTables.appsFromValue (.arr (db.appsById.map Apps.Model.toValue)) =
      some apps := happs
  unfold broadcastAppsIfActive
  rw [run_bind_ok get_run, if_pos h.broadcaster, run_bind_ok hread]
  simp only [hdecode]
  rw [run_bind_ok get_run, if_pos h.stateLock]
  rfl

/-- So do `add_process` and `delete_process`, which lock the client first. -/
theorem broadcastApps_run (h : Serves state db) {apps : List App}
    (happs : pushedApps env db = some apps) :
    (broadcastApps env.onTables).run.run state =
      (.ok (), { state with broadcasts := state.broadcasts ++ [.appsUpdate apps] }) := by
  rw [← broadcastAppsIfActive_run h happs]
  unfold broadcastApps broadcastAppsIfActive
  rw [run_bind_ok get_run, run_bind_ok get_run, if_pos h.broadcaster,
    if_pos h.broadcaster]
  exact run_bind_ok (acquireOrPanic_run h.clientLock)

end

/-! ## What the two readers make of a row -/

/-- The values of a row, as they are. -/
def Apps.Model.record (a : Apps.Model) : App where
  id := a.id
  duration := a.duration
  launches := a.launches
  longestSession := a.longestSession
  name := a.name
  productName := a.productName
  longestSessionOn := a.longestSessionOn

/-- The values of a row, with no text for an empty one. -/
def Apps.Model.requestedRecord (a : Apps.Model) : App :=
  { a.record with
    name := a.name.filter fun s => !s.isEmpty
    productName := a.productName.filter fun s => !s.isEmpty }

/-- The integers and the date of the row are those of its columns. -/
structure Apps.Model.Fits (a : Apps.Model) : Prop where
  id : IsI32 a.id
  duration : ∀ n ∈ a.duration, IsI32 n
  launches : ∀ n ∈ a.launches, IsI32 n
  longestSession : ∀ n ∈ a.longestSession, IsI32 n
  longestSessionOn : ∀ d ∈ a.longestSessionOn, d.InRange

/-- No text of the row is empty. -/
def Apps.Model.TextsNonempty (a : Apps.Model) : Prop :=
  a.name ≠ some "" ∧ a.productName ≠ some ""

section
variable {env : Environment World} {a : Apps.Model} {db : Store}

/-- The derived reader keeps the values. -/
theorem App.fromValue_toValue (hchrono : env.chrono.Documented) (hfits : a.Fits) :
    App.fromValue env.chrono.parseDate a.toValue = some a.record := by
  have hmembers : Json.recordMembers App.fieldNames a.toValue = some a.members := by
    have hkeys : a.members.map Prod.fst = ["duration", "id", "launches", "longest_session",
        "longest_session_on", "name", "product_name"] := rfl
    exact Json.recordMembers_obj _ (by rw [hkeys]; decide)
  have hdate : Json.decodeOption (Json.decodeParsed env.chrono.parseDate)
      (.option NaiveDate.toValue a.longestSessionOn) = some a.longestSessionOn := by
    refine Json.decodeOption_option (fun _ _ h => by cases h) fun d hd => ?_
    show env.chrono.parseDate (String.ofList d.format) = some d
    rw [hchrono.parseDate, String.toList_ofList]
    exact parse_dateFromStr (hfits.longestSessionOn d hd)
  rw [App.fromValue, hmembers, Option.bind_some]
  unfold App.fromMembers
  rw [Json.decodeField_of_lookup a.members "id" (.int a.id) rfl,
    Json.decodeOptionField_of_lookup a.members "duration" (.option .int a.duration) rfl,
    Json.decodeOptionField_of_lookup a.members "launches" (.option .int a.launches) rfl,
    Json.decodeOptionField_of_lookup a.members "longest_session"
      (.option .int a.longestSession) rfl,
    Json.decodeOptionField_of_lookup a.members "name" (.option .str a.name) rfl,
    Json.decodeOptionField_of_lookup a.members "product_name" (.option .str a.productName) rfl,
    Json.decodeOptionField_of_lookup a.members "longest_session_on"
      (.option NaiveDate.toValue a.longestSessionOn) rfl,
    Json.decodeI32_int hfits.id, Json.decodeOption_i32 hfits.duration,
    Json.decodeOption_i32 hfits.launches, Json.decodeOption_i32 hfits.longestSession,
    Json.decodeOption_str, Json.decodeOption_str, hdate]
  rfl

/-- The reader of texts takes an empty text for none. -/
theorem App.ofModel_of_fits (hchrono : env.chrono.Documented) (hfits : a.Fits) :
    App.ofModel env.chrono a = some a.requestedRecord := by
  have hdate : (a.longestSessionOn.bind fun d =>
      env.chrono.dateFromStr (String.ofList d.format) "%Y-%m-%d") = a.longestSessionOn := by
    cases hd : a.longestSessionOn with
    | none => rfl
    | some d =>
      rw [Option.bind_some, hchrono.dateFromStr _ _ _ items_date, String.toList_ofList]
      exact parse_date (hfits.longestSessionOn d hd)
  rw [App.ofModel_eq, checkedI32_of_isI32 hfits.id, Option.map_some,
    bind_checkedI32 hfits.duration, bind_checkedI32 hfits.launches,
    bind_checkedI32 hfits.longestSession, hdate]
  rfl

/-- A text is kept if and only if it is not empty. -/
theorem filter_nonempty_eq_iff (o : Option String) :
    (o.filter fun s => !s.isEmpty) = o ↔ o ≠ some "" := by
  cases o with
  | none => simp
  | some s =>
    rw [Option.filter_some]
    by_cases hs : s = ""
    · rw [hs]
      simp
    · simp [hs]

/-- The two readers agree on a row. -/
theorem requestedRecord_eq_iff : a.requestedRecord = a.record ↔ a.TextsNonempty := by
  unfold Apps.Model.TextsNonempty
  rw [← filter_nonempty_eq_iff, ← filter_nonempty_eq_iff]
  constructor
  · intro h
    exact ⟨congrArg App.name h, congrArg App.productName h⟩
  · rintro ⟨hname, hproductName⟩
    unfold Apps.Model.requestedRecord
    rw [hname, hproductName]
    rfl

/-! ## The two lists agree -/

theorem mem_appsById : a ∈ db.appsById ↔ a ∈ db.apps.rows :=
  (List.perm_insertionSort _ _).mem_iff

theorem pushedApps_eq (hchrono : env.chrono.Documented) (hdecodes : env.DecodesApps)
    (hfits : ∀ a ∈ db.apps.rows, a.Fits) :
    pushedApps env db = some (db.appsById.map Apps.Model.record) := by
  rw [pushedApps, hdecodes]
  exact Json.decodeArray_map fun a ha =>
    App.fromValue_toValue hchrono (hfits a (mem_appsById.mp ha))

theorem requestedApps_eq (hchrono : env.chrono.Documented)
    (hfits : ∀ a ∈ db.apps.rows, a.Fits) :
    requestedApps env db = db.appsById.map Apps.Model.requestedRecord := by
  rw [requestedApps, convertToApps_arr, ← List.filterMap_eq_map]
  exact List.filterMap_congr fun a ha =>
    App.ofModel_of_fits hchrono (hfits a (mem_appsById.mp ha))

/-- The two lists are the same if the two readers agree on every row. -/
theorem pushedApps_eq_requestedApps_iff (hchrono : env.chrono.Documented)
    (hdecodes : env.DecodesApps) (hfits : ∀ a ∈ db.apps.rows, a.Fits) :
    pushedApps env db = some (requestedApps env db) ↔ ∀ a ∈ db.apps.rows, a.TextsNonempty := by
  rw [pushedApps_eq hchrono hdecodes hfits, requestedApps_eq hchrono hfits, Option.some.injEq,
    eq_comm, List.map_inj_left]
  constructor
  · exact fun h a ha => requestedRecord_eq_iff.mp (h a (mem_appsById.mpr ha))
  · exact fun h a ha => requestedRecord_eq_iff.mpr (h a (mem_appsById.mp ha))

end

/-- A reply and the updates in one state of the server carry one list. -/
structure AppsAgree (env : Environment World) (db : Store) (state : ServerState World) :
    Prop where
  reply : (handleGetApps env.onTables).run.run state =
    (.ok (createAppsMessage (requestedApps env db)), state)
  eventLoop : (broadcastAppsIfActive env.onTables).run.run state = (.ok (),
    { state with broadcasts := state.broadcasts ++ [.appsUpdate (requestedApps env db)] })
  addProcess : (broadcastApps env.onTables).run.run state = (.ok (),
    { state with broadcasts := state.broadcasts ++ [.appsUpdate (requestedApps env db)] })

section
variable {env : Environment World} {db : Store} {state : ServerState World}

theorem pushedApps_of_appsAgree (hserves : Serves state db) {apps : List App}
    (hpushed : pushedApps env db = some apps) (h : AppsAgree env db state) :
    pushedApps env db = some (requestedApps env db) := by
  have hrun := h.eventLoop
  rw [broadcastAppsIfActive_run hserves hpushed] at hrun
  have hbroadcasts := congrArg (fun result => result.2.broadcasts) hrun
  have hlast := List.append_cancel_left hbroadcasts
  cases hlast
  exact hpushed

/-- **The requested and the pushed apps are the same** if and only if no name and no product name
is empty. -/
theorem appsAgree_iff (hchrono : env.chrono.Documented) (hdecodes : env.DecodesApps)
    (hfits : ∀ a ∈ db.apps.rows, a.Fits) (hserves : Serves state db) :
    AppsAgree env db state ↔ ∀ a ∈ db.apps.rows, a.TextsNonempty := by
  rw [← pushedApps_eq_requestedApps_iff hchrono hdecodes hfits]
  constructor
  · exact pushedApps_of_appsAgree hserves (pushedApps_eq hchrono hdecodes hfits)
  · intro hsame
    exact ⟨handleGetApps_run hserves, broadcastAppsIfActive_run hserves hsame,
      broadcastApps_run hserves hsame⟩

end

/-! ## The empty name -/

/-- The tables, with the documented parsers and the derived reader. -/
def decodingEnvironment : Environment World :=
  { documentedEnvironment with
    appsFromValue := Json.decodeArray (App.fromValue ChronoParsers.documented.parseDate) }

/-- A server with these tables. -/
def servingState (db : Store) : ServerState World := .serving { db, now := .unixEpoch }

theorem serves_servingState (db : Store) : Serves (servingState db) db :=
  ⟨rfl, rfl, rfl, rfl, rfl⟩

/-- The row of an app that has just been added. -/
theorem newApp_fits (p productName : String) : (AddProcess.newApp p productName 1).Fits where
  id := (by decide : IsI32 1)
  duration n hn := by
    cases hn
    decide
  launches n hn := by
    cases hn
    decide
  longestSession n hn := by
    cases hn
    decide
  longestSessionOn d hd := by cases hd

theorem appsAgree_storeWithA :
    AppsAgree decodingEnvironment storeWithA (servingState storeWithA) := by
  refine (appsAgree_iff documented_documented (fun _ => rfl) ?_ (serves_servingState _)).mpr ?_
  · intro a ha
    rw [List.mem_singleton.mp ha]
    exact newApp_fits "a" "a"
  · intro a ha
    rw [List.mem_singleton.mp ha]
    exact ⟨by decide, by decide⟩

/-- **A client adds the process with the empty name**: an update has its name, the reply has
none. -/
theorem appsAgree_emptyName :
    ¬ ∀ (env : Environment World) (platform : Platform) (calls : List Call) (ls : List Label)
      (c : Config) (state : ServerState World), env.chrono.Documented → env.DecodesApps →
      tracker.Runs (fun _ _ => True)
        (.initial platform { storeWithA with apps := .empty } calls) ls c →
      (∀ a ∈ c.shared.db.apps.rows, a.Fits) → Serves state c.shared.db →
      AppsAgree env c.shared.db state := by
  intro hall
  have hend : (tracker.exec (.initial .linux { storeWithA with apps := .empty }
      [.addProcess (.getProcesses "" "app.exe")]) (List.replicate 4 (.call 0 {}))).map
      (fun c => decide (c.shared.db.apps.rows = [AddProcess.newApp "" "" 1])) = some true := by
    decide
  obtain ⟨c, hexec, hc⟩ := Option.map_eq_some_iff.mp hend
  have hrows : c.shared.db.apps.rows = [AddProcess.newApp "" "" 1] := of_decide_eq_true hc
  have hfits : ∀ a ∈ c.shared.db.apps.rows, a.Fits := by
    intro a ha
    rw [hrows, List.mem_singleton] at ha
    rw [ha]
    exact newApp_fits "" ""
  have hagree := hall decodingEnvironment .linux _ _ c (servingState c.shared.db)
    documented_documented (fun _ => rfl) (Transition.System.runs_of_exec hexec) hfits
    (serves_servingState _)
  have hsame := pushedApps_of_appsAgree (serves_servingState _)
    (pushedApps_eq documented_documented (fun _ => rfl) hfits) hagree
  have htexts := (pushedApps_eq_requestedApps_iff documented_documented (fun _ => rfl)
    hfits).mp hsame (AddProcess.newApp "" "" 1) (by rw [hrows]; exact List.mem_singleton_self _)
  exact htexts.1 rfl

end TimeTracker
