import TimeTracker.Steps

/-!
# The two time ledgers

The time an app has run is kept twice: in its column `duration`, by `handle_duration`, and in
its rows of `timeline`, by `handle_timeline`. This module says what the two hold and how the
handler of one event changes them.

* `Applied`: what handling an event does to the ledgers: a `Duration` event adds one to the
  column of its app, a `Timeline` event adds one to its timeline, no other event touches them.
* `Handler.step_ledgers`: a statement of a handler leaves the ledgers alone and its event
  unwritten, or applies the event.
-/

namespace TimeTracker

/-! ## What the ledgers hold -/

namespace Store

/-- A numeric column of the app named `p`; NULL, and an app that is not there, count as 0. -/
def columnOf (column : Apps.Model → Option Int) (db : Store) (p : String) : Int :=
  ((db.findApp p).bind column).getD 0

def durationOf : Store → String → Int := columnOf Apps.Model.duration

def longestSessionOf : Store → String → Int := columnOf Apps.Model.longestSession

/-- The id of the app named `p`. -/
def idOf (db : Store) (p : String) : Option Int := (db.findApp p).map Apps.Model.id

/-- The durations of the timeline rows of an app id, summed up. -/
def timelineSum (db : Store) (appId : Int) : Int :=
  db.timeline.sumBy fun t => if t.appId = appId then t.duration.getD 0 else 0

/-- The durations of the rows of an app, summed up row by row. -/
theorem timelineSum_eq (db : Store) (appId : Int) :
    db.timelineSum appId =
      ((db.timeline.all fun t => t.appId = appId).map fun t => t.duration.getD 0).sum := by
  unfold timelineSum Table.sumBy Table.all
  have hrest : ∀ rows : List Timeline.Model, (rows.map fun _ => (0 : Int)).sum = 0 :=
    fun rows => by simp
  rw [List.sum_map_ite, hrest, Int.add_zero]

/-- The durations of the timeline rows of the app named `p`, summed up. -/
def timelineDurationOf (db : Store) (p : String) : Int :=
  ((db.findApp p).map fun a => db.timelineSum a.id).getD 0

section
variable {db db' : Store} {p q : String} {app : Apps.Model}

theorem columnOf_of_findApp (column : Apps.Model → Option Int) (h : db.findApp p = some app) :
    db.columnOf column p = (column app).getD 0 := by
  rw [columnOf, h, Option.bind_some]

theorem timelineDurationOf_of_findApp (h : db.findApp p = some app) :
    db.timelineDurationOf p = db.timelineSum app.id := by
  rw [timelineDurationOf, h, Option.map_some, Option.getD_some]

/-- The ledgers are in the tables `apps` and `timeline`. -/
theorem findApp_congr (h : db'.apps = db.apps) : db'.findApp p = db.findApp p := by
  rw [findApp, h, findApp]

theorem columnOf_congr {column : Apps.Model → Option Int} (h : db'.apps = db.apps) :
    db'.columnOf column p = db.columnOf column p := by
  rw [columnOf, findApp_congr h, columnOf]

theorem timelineDurationOf_congr (happs : db'.apps = db.apps)
    (htimeline : db'.timeline = db.timeline) :
    db'.timelineDurationOf p = db.timelineDurationOf p := by
  rw [timelineDurationOf, findApp_congr happs]
  simp only [timelineSum, htimeline, timelineDurationOf]

/-- The ids and the names say which app has a name. -/
theorem idOf_congr (h : db'.identities = db.identities) (p : String) :
    db'.idOf p = db.idOf p := by
  have hfind : ∀ rows : List Apps.Model,
      (rows.find? fun a => a.name = some p).map Apps.Model.id =
        ((rows.map fun a => (a.id, a.name)).find? fun x => x.2 = some p).map Prod.fst := by
    intro rows
    rw [List.find?_map, Option.map_map]
    rfl
  unfold idOf findApp Table.one
  rw [hfind, hfind]
  exact congrArg (fun x : List (Int × Option String) =>
    (x.find? fun x => x.2 = some p).map Prod.fst) h

/-- An app found by another name has another id. -/
theorem id_ne_of_findApp {a : Apps.Model} (hp : db.findApp p = some app)
    (hq : db.findApp q = some a) (hne : q ≠ p) : a.id ≠ app.id := by
  intro hid
  obtain ⟨ha, haq⟩ := findApp_eq_some hq
  obtain ⟨happ, hap⟩ := findApp_eq_some hp
  -- the id is the key of the table: one row, which has one name
  rw [Table.eq_of_key_eq ha happ hid, hap] at haq
  exact hne (Option.some.inj haq).symm

/-! ## Which table a statement writes -/

theorem timeline_updateApp {id : Int} {set : Apps.Model → Apps.Model}
    {hset : ∀ a, Keyed.key (set a) = Keyed.key a} (h : db.updateApp id set hset = .ok db') :
    db'.timeline = db.timeline := by
  obtain ⟨_, -, rfl⟩ := updateApp_eq_ok.mp h
  rfl

theorem apps_updateTimeline {id : Int} {set : Timeline.Model → Timeline.Model}
    {hset : ∀ t, Keyed.key (set t) = Keyed.key t} (h : db.updateTimeline id set hset = .ok db') :
    db'.apps = db.apps := by
  obtain ⟨_, -, rfl⟩ := updateTimeline_eq_ok.mp h
  rfl

theorem apps_insertTimeline {t : Timeline.Model} (h : db.insertTimeline t = .ok db') :
    db'.apps = db.apps := by
  obtain ⟨-, _, -, rfl⟩ := insertTimeline_eq_ok h
  rfl

/-! ## Updates of an app -/

section
variable {id : Int} {set : Apps.Model → Apps.Model}
  {hset : ∀ a, Keyed.key (set a) = Keyed.key a}

/-- An update that keeps the names changes no lookup, up to the row it rewrites. -/
theorem findApp_updateApp (h : db.updateApp id set hset = .ok db')
    (hname : ∀ a, (set a).name = a.name) (q : String) :
    db'.findApp q = (db.findApp q).map fun a => if a.id = id then set a else a := by
  obtain ⟨apps, hupd, rfl⟩ := updateApp_eq_ok.mp h
  have hrows := (Table.update_eq_some.mp hupd).2
  simp only [findApp, Table.one, hrows, Table.rewrite, List.find?_map]
  have hsame : (fun a : Apps.Model => decide (a.name = some q)) ∘
      (fun a => if Keyed.key a = id then set a else a) = fun a => decide (a.name = some q) := by
    funext a
    simp only [Function.comp_apply]
    split
    · rw [hname]
    · rfl
  rw [hsame]
  rfl

/-- An update of the app that was found by the name `p` changes the columns of `p` only. -/
theorem columnOf_updateApp (column : Apps.Model → Option Int) (happ : db.findApp p = some app)
    (h : db.updateApp app.id set hset = .ok db') (hname : ∀ a, (set a).name = a.name)
    (q : String) :
    db'.columnOf column q = if q = p then (column (set app)).getD 0 else db.columnOf column q := by
  rw [columnOf, findApp_updateApp h hname]
  by_cases hqp : q = p
  · rw [if_pos hqp, hqp, happ, Option.map_some, if_pos rfl, Option.bind_some]
  · rw [if_neg hqp, columnOf]
    cases hq : db.findApp q with
    | none => rfl
    | some a =>
      have hid := id_ne_of_findApp happ hq hqp
      rw [Option.map_some, if_neg hid]

/-- An update of an app leaves the timeline ledger alone. -/
theorem timelineDurationOf_updateApp (h : db.updateApp id set hset = .ok db')
    (hname : ∀ a, (set a).name = a.name) (q : String) :
    db'.timelineDurationOf q = db.timelineDurationOf q := by
  have htimeline := timeline_updateApp h
  rw [timelineDurationOf, findApp_updateApp h hname, timelineDurationOf]
  cases db.findApp q with
  | none => rfl
  | some a =>
    have hid : (if a.id = id then set a else a).id = a.id := by
      split
      · exact hset a
      · rfl
    -- the id is what refers to the app, and an update keeps it
    simp only [Option.map_some, Option.getD_some, hid, timelineSum, htimeline]

theorem updateApp_isOk (hset : ∀ a, Keyed.key (set a) = Keyed.key a)
    (happ : db.findApp p = some app) : ∃ db', db.updateApp app.id set hset = .ok db' := by
  have hkey : app.id ∈ db.apps.keys := Table.key_mem_keys (findApp_eq_some happ).1
  obtain ⟨apps, hupd⟩ : ∃ apps, db.apps.update app.id set hset = some apps :=
    Option.ne_none_iff_exists'.mp fun h => Table.update_eq_none.mp h hkey
  exact ⟨_, updateApp_eq_ok.mpr ⟨apps, hupd, rfl⟩⟩

end

/-! ## Writes to the timeline -/

/-- A timeline in which one row of an app has got one more. -/
theorem timelineDurationOf_of_timelineSum (happs : db'.apps = db.apps)
    (happ : db.findApp p = some app)
    (hsum : ∀ i, db'.timelineSum i = db.timelineSum i + if i = app.id then 1 else 0) (q : String) :
    db'.timelineDurationOf q = db.timelineDurationOf q + if q = p then 1 else 0 := by
  rw [timelineDurationOf, findApp_congr happs, timelineDurationOf]
  by_cases hqp : q = p
  · rw [if_pos hqp, hqp, happ, Option.map_some, Option.map_some, Option.getD_some,
      Option.getD_some, hsum, if_pos rfl]
  · rw [if_neg hqp, add_zero]
    cases hq : db.findApp q with
    | none => rfl
    | some a =>
      have hid := id_ne_of_findApp happ hq hqp
      rw [Option.map_some, Option.map_some, hsum, if_neg hid, add_zero]

/-- Counting in a row of the timeline adds one to the sum over any rows it is among. -/
theorem sumBy_updateTimeline {q : Timeline.Model → Prop} [DecidablePred q] {t : Timeline.Model}
    (hq : ∀ d, q (setTimelineDuration d t) ↔ q t) (ht : t ∈ db.timeline.rows)
    (h : db.updateTimeline t.id (setTimelineDuration (t.duration.getD 0 + 1)) (fun _ => rfl)
      = .ok db') :
    (db'.timeline.sumBy fun r => if q r then r.duration.getD 0 else 0) =
      (db.timeline.sumBy fun r => if q r then r.duration.getD 0 else 0) + if q t then 1 else 0 := by
  obtain ⟨timeline, hupd, rfl⟩ := updateTimeline_eq_ok.mp h
  show timeline.sumBy _ = _
  rw [Table.sumBy_update _ ht hupd]
  simp only [hq]
  by_cases hsel : q t
  · simp only [if_pos hsel, setTimelineDuration, Option.getD_some]
    omega
  · simp only [if_neg hsel]
    omega

/-- Inserting a row of the timeline that holds one adds one to the sum over any rows it is among. -/
theorem sumBy_insertTimeline {q : Timeline.Model → Prop} [DecidablePred q] {t : Timeline.Model}
    (hone : t.duration = some 1) (h : db.insertTimeline t = .ok db') :
    (db'.timeline.sumBy fun r => if q r then r.duration.getD 0 else 0) =
      (db.timeline.sumBy fun r => if q r then r.duration.getD 0 else 0) + if q t then 1 else 0 := by
  obtain ⟨-, timeline, hins, rfl⟩ := insertTimeline_eq_ok h
  show timeline.sumBy _ = _
  rw [Table.sumBy_insert _ hins, hone, Option.getD_some]

/-- Counting in a row of the timeline adds one to the sum of its app. -/
theorem timelineSum_updateTimeline {t : Timeline.Model} (ht : t ∈ db.timeline.rows)
    (h : db.updateTimeline t.id (setTimelineDuration (t.duration.getD 0 + 1)) (fun _ => rfl)
      = .ok db') (i : Int) :
    db'.timelineSum i = db.timelineSum i + if i = t.appId then 1 else 0 := by
  rw [timelineSum, sumBy_updateTimeline (fun _ => Iff.rfl) ht h, timelineSum]
  simp only [eq_comm]

/-- Inserting a row of the timeline that holds one adds one to the sum of its app. -/
theorem timelineSum_insertTimeline {t : Timeline.Model} (hone : t.duration = some 1)
    (h : db.insertTimeline t = .ok db') (i : Int) :
    db'.timelineSum i = db.timelineSum i + if i = t.appId then 1 else 0 := by
  rw [timelineSum, sumBy_insertTimeline hone h, timelineSum]
  simp only [eq_comm]

theorem updateTimeline_isOk {t : Timeline.Model} {set : Timeline.Model → Timeline.Model}
    (hset : ∀ t, Keyed.key (set t) = Keyed.key t) (ht : t ∈ db.timeline.rows) :
    ∃ db', db.updateTimeline t.id set hset = .ok db' := by
  have hkey : t.id ∈ db.timeline.keys := Table.key_mem_keys ht
  obtain ⟨timeline, hupd⟩ : ∃ timeline, db.timeline.update t.id set hset = some timeline :=
    Option.ne_none_iff_exists'.mp fun h => Table.update_eq_none.mp h hkey
  exact ⟨_, updateTimeline_eq_ok.mpr ⟨timeline, hupd, rfl⟩⟩

/-- An insert of a row whose references are there and whose id is free succeeds. -/
theorem insertTimeline_isOk {t : Timeline.Model} (happ : t.appId ∈ db.apps.keys)
    (hcheckpoint : ∀ c ∈ t.checkpointId, c ∈ db.checkpoints.keys) (hid : t.id ∉ db.timeline.keys) :
    ∃ db', db.insertTimeline t = .ok db' := by
  have hrefs : ¬ ∃ c ∈ t.checkpointId, c ∉ db.checkpoints.keys := by
    rintro ⟨c, hc, hnot⟩
    exact hnot (hcheckpoint c hc)
  obtain ⟨timeline, hins⟩ := Option.ne_none_iff_exists'.mp fun h => hid (Table.insert_eq_none.mp h)
  rw [insertTimeline, if_neg (not_not.mpr happ), if_neg hrefs, hins]
  exact ⟨_, rfl⟩

/-- The first of the active checkpoints of an app is in the table. -/
theorem mem_keys_of_firstActive {appId id : Int}
    (h : (db.getActiveCheckpointsForApp appId).head?.map Checkpoints.Model.id = some id) :
    id ∈ db.checkpoints.keys := by
  obtain ⟨checkpoint, hhead, rfl⟩ := Option.map_eq_some_iff.mp h
  have hactive := mem_getActiveCheckpointsForApp.mp (List.mem_of_mem_head? hhead)
  exact Table.key_mem_keys hactive.1

/-! ## A new app -/

section
variable {row : Apps.Model}

/-- An insert hides no app. -/
theorem findApp_insertApp (h : db.insertApp row = .ok db') (q : String) :
    db'.findApp q = (db.findApp q).or (if row.name = some q then some row else none) := by
  obtain ⟨apps, hins, rfl⟩ := insertApp_eq_ok.mp h
  have hrows := (Table.insert_eq_some.mp hins).2
  simp only [findApp, Table.one, hrows, List.find?_append]
  by_cases hname : row.name = some q
  · simp [hname]
  · simp [hname]

theorem findApp_insertApp_of_some (h : db.insertApp row = .ok db') (hq : db.findApp q = some app) :
    db'.findApp q = some app := by
  rw [findApp_insertApp h, hq, Option.some_or]

/-- The ledgers of the apps that were there are as they were. -/
theorem ledgers_insertApp_of_mem (h : db.insertApp row = .ok db') (hq : q ∈ db.appNames) :
    (∀ column, db'.columnOf column q = db.columnOf column q) ∧
      db'.timelineDurationOf q = db.timelineDurationOf q := by
  obtain ⟨a, ha⟩ := findApp_isSome hq
  have ha' := findApp_insertApp_of_some h ha
  have htimeline : db'.timeline = db.timeline := by
    obtain ⟨_, -, rfl⟩ := insertApp_eq_ok.mp h
    rfl
  refine ⟨fun column => ?_, ?_⟩
  · rw [columnOf, ha', columnOf, ha]
  · rw [timelineDurationOf, ha', timelineDurationOf, ha]
    simp only [timelineSum, htimeline]

/-- The timeline ledger of a new app is empty: no row can refer to an id that is not there. -/
theorem timelineSum_eq_zero (hkeys : db.timelineKeys) {i : Int} (hi : i ∉ db.apps.keys) :
    db.timelineSum i = 0 := by
  have hzero : ∀ x ∈ db.timeline.rows.map (fun t : Timeline.Model =>
      if t.appId = i then t.duration.getD 0 else 0), x = 0 := by
    intro x hx
    obtain ⟨t, ht, rfl⟩ := List.mem_map.mp hx
    have hne : t.appId ≠ i := fun he => hi (he ▸ hkeys t ht)
    exact if_neg hne
  exact List.sum_eq_zero hzero

theorem findApp_eq_none (h : p ∉ db.appNames) : db.findApp p = none := by
  cases happ : db.findApp p with
  | none => rfl
  | some app => exact absurd (mem_appNames.mpr ⟨app, findApp_eq_some happ⟩) h

theorem findApp_insertApp_self (h : db.insertApp row = .ok db') (hname : row.name = some p)
    (hnew : p ∉ db.appNames) : db'.findApp p = some row := by
  rw [findApp_insertApp h, findApp_eq_none hnew, Option.none_or, if_pos hname]

/-- A column that is zero in the row of a new app. -/
theorem columnOf_insertApp_self {column : Apps.Model → Option Int}
    (h : db.insertApp row = .ok db') (hname : row.name = some p) (hnew : p ∉ db.appNames)
    (hzero : column row = some 0) : db'.columnOf column p = 0 := by
  rw [columnOf_of_findApp column (findApp_insertApp_self h hname hnew), hzero, Option.getD_some]

/-- The apps that are there after an insert: the old ones and the new one. -/
theorem mem_appNames_insertApp_iff (h : db.insertApp row = .ok db') (hname : row.name = some p) :
    q ∈ db'.appNames ↔ q ∈ db.appNames ∨ q = p := by
  rw [mem_appNames_insertApp h, hname, Option.some_inj, @eq_comm _ p q]

/-- The timeline of a new app. -/
theorem timelineDurationOf_insertApp (h : db.insertApp row = .ok db') (hkeys : db.timelineKeys)
    (hname : row.name = some p) (hnew : p ∉ db.appNames) : db'.timelineDurationOf p = 0 := by
  have hrow := findApp_insertApp_self h hname hnew
  obtain ⟨apps, hins, rfl⟩ := insertApp_eq_ok.mp h
  rw [timelineDurationOf_of_findApp hrow]
  exact timelineSum_eq_zero hkeys (Table.insert_eq_some.mp hins).1

end

end

end Store

/-! ## What an event does to the ledgers -/

/-- The kind of event that a counting handler handles. -/
def Counter.kind : Counter → ReceiveTypes
  | .duration => .duration
  | .launches => .launches

/-- The kind of event a handler handles. -/
def Handler.kind : Handler → ReceiveTypes
  | .longestFindApp _ _ | .longestUpdateApp _ _ _ => .longestSession
  | .countFindApp counter _ | .countUpdateApp counter _ | .countFindActive counter _
  | .countFindCheckpoint counter _ _ _ | .countUpdateCheckpoint counter _ _ _ _ => counter.kind
  | .timelineFindApp _ | .timelineFindEntry _ _ | .timelineUpdate _ | .timelineMaxId _ _
  | .timelineFirstCheckpoint _ _ _ | .timelineInsert _ => .timeline

/-- A handler goes on with a handler of the same event. -/
theorem Handler.step_kind {inp : Input} {hd hd' : Handler} {db db' : Store}
    (h : hd.step inp db = (some hd', db')) : hd'.kind = hd.kind := by
  cases Handler.statement_of_step h with
  | @countWritten counter _ _ _ => cases counter <;> rfl
  | activeFound hnext | checkpointSkipped hnext | checkpointWritten hnext _
  | checkpointRefused hnext =>
    obtain ⟨checkpoint, rest, -, rfl⟩ := forCheckpoints_eq_some hnext
    rfl
  | _ => rfl

/-- The app and the length a `LongestSession` event is read as. -/
def sessionOf : Event → Option (String × Int)
  | (item, .longestSession) =>
    match handleLongestSession item with
    | some (.longestFindApp p n) => some (p, n)
    | _ => none
  | _ => none

/-- The ledgers after an event has been handled. No event lets the longest session of an app
outgrow its duration. -/
structure Applied (event : Event) (db db' : Store) : Prop where
  duration : ∀ p ∈ db.appNames,
    db'.durationOf p = db.durationOf p + if event = (p, .duration) then 1 else 0
  timeline : ∀ p ∈ db.appNames,
    db'.timelineDurationOf p = db.timelineDurationOf p + if event = (p, .timeline) then 1 else 0
  longest : ∀ p, db.longestSessionOf p ≤ db.durationOf p →
    db'.longestSessionOf p ≤ db'.durationOf p

section
variable {inp : Input} {event : Event} {hd hd' : Handler} {next : Option Handler}
  {db db' : Store} {p : String} {n : Int} {app : Apps.Model}

theorem eventApp_of_sessionOf (h : sessionOf event = some (p, n)) : eventApp event = p := by
  obtain ⟨item, kind⟩ := event
  cases kind with
  | longestSession =>
    simp only [sessionOf] at h
    split at h
    · next hhandle =>
      cases h
      have hstart : handle (item, .longestSession) = some (.longestFindApp p n) := hhandle
      exact (Option.some.inj (appName_of_handle hstart)).symm
    · cases h
  | _ => cases h

theorem kind_of_sessionOf (h : sessionOf event = some (p, n)) : event.2 = .longestSession := by
  obtain ⟨item, kind⟩ := event
  cases kind with
  | longestSession => rfl
  | _ => cases h

/-- An event of another kind leaves the ledgers alone. -/
theorem applied_of_same (hduration : event.2 ≠ .duration) (htimeline : event.2 ≠ .timeline)
    (happs : db'.apps = db.apps) (hrows : db'.timeline = db.timeline) : Applied event db db' where
  duration p _ := by
    have hne : event ≠ (p, .duration) := fun h => hduration (h ▸ rfl)
    rw [if_neg hne, add_zero, Store.durationOf, Store.columnOf_congr happs]
  timeline p _ := by
    have hne : event ≠ (p, .timeline) := fun h => htimeline (h ▸ rfl)
    rw [if_neg hne, add_zero, Store.timelineDurationOf_congr happs hrows]
  longest p h := by
    rw [Store.longestSessionOf, Store.durationOf, Store.columnOf_congr happs,
      Store.columnOf_congr happs]
    exact h

/-- The update of `handle_longest_session`, for a session no longer than the duration. -/
theorem applied_longest {nowDate : NaiveDate} (hkind : event.2 = .longestSession)
    (happ : db.findApp p = some app) (hle : n ≤ db.durationOf p)
    (h : db.updateApp app.id (setLongestSession n nowDate) (fun _ => rfl) = .ok db') :
    Applied event db db' := by
  have hduration : ∀ q, db'.durationOf q = db.durationOf q := by
    intro q
    rw [Store.durationOf, Store.columnOf_updateApp _ happ h fun _ => rfl]
    split
    · next hq => rw [hq, Store.columnOf_of_findApp _ happ]; rfl
    · rfl
  refine ⟨fun q _ => ?_, fun q _ => ?_, fun q hq => ?_⟩
  · have hne : event ≠ (q, .duration) := fun he => by rw [he] at hkind; cases hkind
    rw [if_neg hne, add_zero, hduration]
  · have hne : event ≠ (q, .timeline) := fun he => by rw [he] at hkind; cases hkind
    rw [if_neg hne, add_zero, Store.timelineDurationOf_updateApp h fun _ => rfl]
  · rw [hduration, Store.longestSessionOf, Store.columnOf_updateApp _ happ h fun _ => rfl]
    split
    -- the app itself: its longest session is now the one that ended
    · next heq => rw [heq]; exact hle
    · exact hq

/-- The update of `handle_duration` and of `handle_launches`. -/
theorem applied_count {counter : Counter} (hevent : event = (p, counter.kind))
    (happ : db.findApp p = some app)
    (h : db.updateApp app.id (counter.setApp ((counter.ofApp app).getD 0 + 1))
      (counter.setApp_id _) = .ok db') : Applied event db db' := by
  have hname := counter.setApp_name ((counter.ofApp app).getD 0 + 1)
  have hduration : ∀ q, db'.durationOf q =
      db.durationOf q + if event = (q, .duration) then 1 else 0 := by
    intro q
    rw [Store.durationOf, Store.columnOf_updateApp _ happ h hname, hevent]
    by_cases hq : q = p
    · rw [if_pos hq, hq, Store.columnOf_of_findApp _ happ]
      cases counter <;> simp [Counter.kind, Counter.setApp, Counter.ofApp]
    · have hne : ¬ (p, counter.kind) = (q, .duration) := fun he => hq (Prod.ext_iff.mp he).1.symm
      rw [if_neg hq, if_neg hne, add_zero]
  refine ⟨fun q _ => hduration q, fun q _ => ?_, fun q hq => ?_⟩
  · have hne : ¬ event = (q, .timeline) := by
      rw [hevent]
      cases counter <;> simp [Counter.kind]
    rw [if_neg hne, add_zero, Store.timelineDurationOf_updateApp h hname]
  · have hlongest : db'.longestSessionOf q = db.longestSessionOf q := by
      rw [Store.longestSessionOf, Store.columnOf_updateApp _ happ h hname]
      split
      · next heq => rw [heq, Store.columnOf_of_findApp _ happ, counter.setApp_longestSession]
      · rfl
    rw [hlongest, hduration]
    split <;> omega

/-- The handler of a `Timeline` event has found the app with this id. -/
def entryFor (event : Event) (db : Store) (appId : Int) : Prop :=
  ∃ p app, db.findApp p = some app ∧ app.id = appId ∧ event = (p, .timeline)

/-- The write of `handle_timeline`, update or insert: one more in a row of the app. -/
theorem applied_timeline {appId : Int} (hentry : entryFor event db appId)
    (happs : db'.apps = db.apps)
    (hsum : ∀ i, db'.timelineSum i = db.timelineSum i + if i = appId then 1 else 0) :
    Applied event db db' := by
  obtain ⟨p, app, happ, rfl, rfl⟩ := hentry
  refine ⟨fun q _ => ?_, fun q _ => ?_, fun q hq => ?_⟩
  · have hne : ¬ (p, ReceiveTypes.timeline) = (q, .duration) := by simp
    rw [if_neg hne, add_zero, Store.durationOf, Store.columnOf_congr happs]
  · rw [Store.timelineDurationOf_of_timelineSum happs happ hsum]
    simp only [Prod.mk.injEq, and_true, eq_comm]
  · rw [Store.longestSessionOf, Store.durationOf, Store.columnOf_congr happs,
      Store.columnOf_congr happs]
    exact hq

/-! ## The handlers -/

/-- The handler has made the write its event is about; what is left is the checkpoints. -/
def Handler.written : Handler → Bool
  | .countFindActive _ _ | .countFindCheckpoint _ _ _ _ | .countUpdateCheckpoint _ _ _ _ _ => true
  | _ => false

/-- The event that is being handled, until its write is made. -/
def EventLoop.unwritten : EventLoop → List Event
  | .idle => []
  | .handling event handler => if handler.written then [] else [event]

/-- What a handler holds is what the tables hold, and is about its event. -/
def Handler.consistent (event : Event) (db : Store) : Handler → Prop
  | .longestFindApp p n => sessionOf event = some (p, n)
  | .longestUpdateApp app n _ => ∃ p, db.findApp p = some app ∧ sessionOf event = some (p, n)
  | .countFindApp counter item => event = (item, counter.kind)
  | .countUpdateApp counter app => ∃ p, db.findApp p = some app ∧ event = (p, counter.kind)
  | .timelineFindApp item => event = (item, .timeline)
  | .timelineFindEntry appId _ => entryFor event db appId
  | .timelineUpdate entry => entry ∈ db.timeline.rows ∧ entryFor event db entry.appId
  | .timelineMaxId appId _ => entryFor event db appId
  | .timelineFirstCheckpoint appId _ nextId =>
    entryFor event db appId ∧ nextId ∉ db.timeline.keys
  | .timelineInsert entry =>
    entryFor event db entry.appId ∧ entry.id ∉ db.timeline.keys ∧
      (∀ c ∈ entry.checkpointId, c ∈ db.checkpoints.keys) ∧ entry.duration = some 1
  -- the loop over the checkpoints comes after the write
  | _ => True

theorem consistent_of_written (h : hd.written = true) : hd.consistent event db := by
  cases hd with
  | countFindActive | countFindCheckpoint | countUpdateCheckpoint => trivial
  | _ => cases h

/-- Only a `LongestSession` event can be dropped. -/
theorem kind_of_handle_eq_none (h : handle event = none) : event.2 = .longestSession := by
  obtain ⟨item, kind⟩ := event
  cases kind with
  | longestSession => rfl
  | _ => cases h

/-- What a handler holds is still there after an insert of an app. -/
theorem consistent_insertApp {row : Apps.Model} (h : db.insertApp row = .ok db')
    (hcons : hd.consistent event db) : hd.consistent event db' := by
  obtain ⟨apps, hins, rfl⟩ := Store.insertApp_eq_ok.mp h
  have hentry : ∀ {appId}, entryFor event db appId → entryFor event { db with apps } appId := by
    rintro appId ⟨p, app, happ, hid, hevent⟩
    exact ⟨p, app, Store.findApp_insertApp_of_some h happ, hid, hevent⟩
  cases hd with
  | longestUpdateApp app n date =>
    obtain ⟨p, happ, hevent⟩ := hcons
    exact ⟨p, Store.findApp_insertApp_of_some h happ, hevent⟩
  | countUpdateApp counter app =>
    obtain ⟨p, happ, hevent⟩ := hcons
    exact ⟨p, Store.findApp_insertApp_of_some h happ, hevent⟩
  | timelineFindEntry appId today => exact hentry hcons
  | timelineMaxId appId today => exact hentry hcons
  | timelineUpdate entry => exact ⟨hcons.1, hentry hcons.2⟩
  | timelineFirstCheckpoint appId today id => exact ⟨hentry hcons.1, hcons.2⟩
  | timelineInsert entry => exact ⟨hentry hcons.1, hcons.2⟩
  | _ => exact hcons

/-- The handler of a new event. -/
theorem consistent_of_handle (h : handle event = some hd) :
    hd.consistent event db ∧ hd.written = false := by
  obtain ⟨item, kind⟩ := event
  cases kind with
  | longestSession =>
    have hsession : handleLongestSession item = some hd := h
    simp only [handle, handleLongestSession] at h
    split at h
    · cases h
      refine ⟨?_, rfl⟩
      show sessionOf _ = _
      rw [sessionOf, hsession]
    · cases h
  | _ =>
    cases h
    exact ⟨rfl, rfl⟩

theorem written_of_forCheckpoints (counter : Counter) (now : NaiveDateTime)
    (checkpoints : List Checkpoints.Model) :
    ∀ hd, forCheckpoints counter now checkpoints = some hd → hd.written = true := by
  intro hd h
  cases checkpoints <;> cases h
  rfl

theorem unwritten_resume_of_written (hw : ∀ hd', next = some hd' → hd'.written = true) :
    (EventLoop.resume event next).unwritten = [] := by
  cases next with
  | none => rfl
  | some hd' => exact if_pos (hw hd' rfl)

/-- What a statement of a handler does: it leaves the ledgers alone, with its event still to
be written if it was, or applies the event. What the handler goes on with is consistent. -/
structure LedgerStep (event : Event) (hd : Handler) (next : Option Handler) (db db' : Store) :
    Prop where
  consistent : ∀ hd', next = some hd' → hd'.consistent event db'
  ledgers :
    ((EventLoop.resume event next).unwritten = (EventLoop.handling event hd).unwritten ∧
      db'.apps = db.apps ∧ db'.timeline = db.timeline) ∨
    (hd.written = false ∧ (EventLoop.resume event next).unwritten = [] ∧ Applied event db db')

/-- A read on the way to the write. -/
theorem ledgerStep_read (hw : hd.written = false) (hw' : hd'.written = false)
    (hcons : hd'.consistent event db) : LedgerStep event hd (some hd') db db where
  consistent := by
    intro next hnext
    cases hnext
    exact hcons
  ledgers := by
    refine .inl ⟨?_, rfl, rfl⟩
    simp only [EventLoop.resume, EventLoop.unwritten, hw, hw']

/-- The write, or the end of a handler that has nothing to write. -/
theorem ledgerStep_write (hw : hd.written = false) (hw' : ∀ hd', next = some hd' →
    hd'.written = true) (happlied : Applied event db db') : LedgerStep event hd next db db' where
  consistent hd' hnext := consistent_of_written (hw' hd' hnext)
  ledgers := .inr ⟨hw, unwritten_resume_of_written hw', happlied⟩

/-- A statement after the write. -/
theorem ledgerStep_written (hw : hd.written = true) (hw' : ∀ hd', next = some hd' →
    hd'.written = true) (happs : db'.apps = db.apps) (htimeline : db'.timeline = db.timeline) :
    LedgerStep event hd next db db' where
  consistent hd' hnext := consistent_of_written (hw' hd' hnext)
  ledgers := by
    have hnow : (EventLoop.handling event hd).unwritten = [] := if_pos hw
    rw [hnow]
    exact .inl ⟨unwritten_resume_of_written hw', happs, htimeline⟩

theorem ledgerStep_end (hw : hd.written = false) (happlied : Applied event db db') :
    LedgerStep event hd none db db' :=
  ledgerStep_write hw (by intro _ h; cases h) happlied

/-- `handle_longest_session`: the app is looked up. -/
theorem ledgerStep_longestFindApp (hcons : (Handler.longestFindApp p n).consistent event db)
    (herr : inp.err = none) (h : (Handler.longestFindApp p n).step inp db = (next, db')) :
    LedgerStep event (.longestFindApp p n) next db db' := by
  have hkind : event.2 = .longestSession := kind_of_sessionOf hcons
  have hdone : Applied event db db :=
    applied_of_same (by rw [hkind]; decide) (by rw [hkind]; decide) rfl rfl
  simp only [Handler.step, Input.statement_of_none herr] at h
  cases happ : db.findApp p with
  | none =>
    -- the event of an app that is gone is dropped
    rw [happ] at h
    cases h
    exact ledgerStep_end rfl hdone
  | some app =>
    rw [happ] at h
    simp only [afterLongestFind] at h
    split at h
    · cases h
      exact ledgerStep_read rfl rfl ⟨p, happ, hcons⟩
    -- not longer than the longest so far: nothing to write
    · cases h
      exact ledgerStep_end rfl hdone

/-- `handle_longest_session`: the new maximum is written. -/
theorem ledgerStep_longestUpdateApp {nowDate : NaiveDate}
    (hcons : (Handler.longestUpdateApp app n nowDate).consistent event db)
    (hsession : ∀ p n, sessionOf event = some (p, n) → n ≤ db.durationOf p)
    (herr : inp.err = none)
    (h : (Handler.longestUpdateApp app n nowDate).step inp db = (next, db')) :
    LedgerStep event (.longestUpdateApp app n nowDate) next db db' := by
  obtain ⟨p, happ, hevent⟩ := hcons
  obtain ⟨db'', hupd⟩ : ∃ db'', db.updateApp app.id (setLongestSession n nowDate)
      (fun _ => rfl) = .ok db'' := Store.updateApp_isOk _ happ
  simp only [Handler.step, Input.statement_of_none herr, hupd] at h
  cases h
  have hkind := kind_of_sessionOf hevent
  exact ledgerStep_end rfl (applied_longest hkind happ (hsession p n hevent) hupd)

/-- `handle_duration` and `handle_launches`: the app is looked up. Its name is in the table,
so it is found. -/
theorem ledgerStep_countFindApp {counter : Counter} {item : String}
    (hcons : (Handler.countFindApp counter item).consistent event db)
    (hnamed : eventApp event ∈ db.appNames) (herr : inp.err = none)
    (h : (Handler.countFindApp counter item).step inp db = (next, db')) :
    LedgerStep event (.countFindApp counter item) next db db' := by
  have hevent : event = (item, counter.kind) := hcons
  have hitem : eventApp event = item := by
    rw [hevent]
    cases counter <;> rfl
  obtain ⟨app, happ⟩ := Store.findApp_isSome (hitem ▸ hnamed)
  simp only [Handler.step, Input.statement_of_none herr, happ] at h
  cases h
  exact ledgerStep_read rfl rfl ⟨item, happ, hevent⟩

/-- `handle_duration` and `handle_launches`: the counter is written. -/
theorem ledgerStep_countUpdateApp {counter : Counter}
    (hcons : (Handler.countUpdateApp counter app).consistent event db) (herr : inp.err = none)
    (h : (Handler.countUpdateApp counter app).step inp db = (next, db')) :
    LedgerStep event (.countUpdateApp counter app) next db db' := by
  obtain ⟨p, happ, hevent⟩ := hcons
  obtain ⟨db'', hupd⟩ := Store.updateApp_isOk
    (counter.setApp_id ((counter.ofApp app).getD 0 + 1)) happ
  simp only [Handler.step, Input.statement_of_none herr, hupd] at h
  cases h
  refine ledgerStep_write rfl ?_ (applied_count hevent happ hupd)
  intro hd' hnext
  cases hnext
  cases counter <;> rfl

/-- The loop over the active checkpoints, after the write of the app's counter. -/
theorem ledgerStep_checkpoints (hw : hd.written = true) (h : hd.step inp db = (next, db')) :
    LedgerStep event hd next db db' := by
  cases Handler.statement_of_step h with
  | dropped => exact ledgerStep_written hw (by intro _ hnext; cases hnext) rfl rfl
  | activeFound hnext | checkpointSkipped hnext | checkpointRefused hnext =>
    subst hnext
    exact ledgerStep_written hw (written_of_forCheckpoints _ _ _) rfl rfl
  | checkpointFound => exact ledgerStep_written hw (by intro _ hnext; cases hnext; rfl) rfl rfl
  | checkpointWritten hnext hupd =>
    subst hnext
    obtain ⟨_, -, rfl⟩ := Store.updateCheckpoint_eq_ok.mp hupd
    exact ledgerStep_written hw (written_of_forCheckpoints _ _ _) rfl rfl
  | _ => cases hw

/-- `handle_timeline`: the app is looked up, and found. -/
theorem ledgerStep_timelineFindApp {item : String}
    (hcons : (Handler.timelineFindApp item).consistent event db)
    (hnamed : eventApp event ∈ db.appNames) (herr : inp.err = none)
    (h : (Handler.timelineFindApp item).step inp db = (next, db')) :
    LedgerStep event (.timelineFindApp item) next db db' := by
  have hevent : event = (item, .timeline) := hcons
  have hitem : eventApp event = item := by
    rw [hevent]
    rfl
  obtain ⟨app, happ⟩ := Store.findApp_isSome (hitem ▸ hnamed)
  simp only [Handler.step, Input.statement_of_none herr, happ] at h
  cases h
  exact ledgerStep_read rfl rfl ⟨item, app, happ, rfl, hevent⟩

/-- `handle_timeline`: today's entry is looked up. -/
theorem ledgerStep_timelineFindEntry {appId : Int} {today : NaiveDate}
    (hcons : (Handler.timelineFindEntry appId today).consistent event db)
    (herr : inp.err = none)
    (h : (Handler.timelineFindEntry appId today).step inp db = (next, db')) :
    LedgerStep event (.timelineFindEntry appId today) next db db' := by
  simp only [Handler.step, Input.statement_of_none herr] at h
  cases hfound : db.findTimeline appId today with
  | none =>
    rw [hfound] at h
    cases h
    exact ledgerStep_read rfl rfl hcons
  | some entry =>
    rw [hfound] at h
    cases h
    obtain ⟨hrow, happ⟩ := Table.mem_of_one hfound
    rw [Bool.and_eq_true, decide_eq_true_iff] at happ
    have hentry : entryFor event db entry.appId := by
      rw [happ.1]
      exact hcons
    exact ledgerStep_read rfl rfl ⟨hrow, hentry⟩

/-- `handle_timeline`: today's entry is counted in. -/
theorem ledgerStep_timelineUpdate {entry : Timeline.Model}
    (hcons : (Handler.timelineUpdate entry).consistent event db) (herr : inp.err = none)
    (h : (Handler.timelineUpdate entry).step inp db = (next, db')) :
    LedgerStep event (.timelineUpdate entry) next db db' := by
  obtain ⟨hrow, hentry⟩ := hcons
  obtain ⟨db'', hupd⟩ : ∃ db'', db.updateTimeline entry.id
      (setTimelineDuration (entry.duration.getD 0 + 1)) (fun _ => rfl) = .ok db'' :=
    Store.updateTimeline_isOk _ hrow
  simp only [Handler.step, Input.statement_of_none herr, hupd] at h
  cases h
  have happs := Store.apps_updateTimeline hupd
  have hsum := Store.timelineSum_updateTimeline hrow hupd
  exact ledgerStep_end rfl (applied_timeline hentry happs hsum)

/-- `handle_timeline`: the id of the new entry is free. -/
theorem ledgerStep_timelineMaxId {appId : Int} {today : NaiveDate}
    (hcons : (Handler.timelineMaxId appId today).consistent event db) (herr : inp.err = none)
    (h : (Handler.timelineMaxId appId today).step inp db = (next, db')) :
    LedgerStep event (.timelineMaxId appId today) next db db' := by
  simp only [Handler.step, Input.statement_of_none herr] at h
  cases h
  exact ledgerStep_read rfl rfl ⟨hcons, Store.nextId_notMem db.timeline⟩

/-- `handle_timeline`: the checkpoint of the new entry is one that is there. -/
theorem ledgerStep_timelineFirstCheckpoint {appId nextId : Int} {today : NaiveDate}
    (hcons : (Handler.timelineFirstCheckpoint appId today nextId).consistent event db)
    (herr : inp.err = none)
    (h : (Handler.timelineFirstCheckpoint appId today nextId).step inp db = (next, db')) :
    LedgerStep event (.timelineFirstCheckpoint appId today nextId) next db db' := by
  obtain ⟨hentry, hfree⟩ := hcons
  simp only [Handler.step, Input.statement_of_none herr] at h
  cases h
  refine ledgerStep_read rfl rfl ⟨hentry, hfree, ?_, rfl⟩
  -- the active checkpoints were read from the table just now
  exact fun _ => Store.mem_keys_of_firstActive

/-- `handle_timeline`: the new entry is inserted. Its references are there and its id is
free, so the database accepts it. -/
theorem ledgerStep_timelineInsert {entry : Timeline.Model}
    (hcons : (Handler.timelineInsert entry).consistent event db) (herr : inp.err = none)
    (h : (Handler.timelineInsert entry).step inp db = (next, db')) :
    LedgerStep event (.timelineInsert entry) next db db' := by
  obtain ⟨hentry, hfree, hcheckpoint, hone⟩ := hcons
  have hkey : entry.appId ∈ db.apps.keys := by
    obtain ⟨p, app, happ, hid, -⟩ := hentry
    rw [← hid]
    exact Table.key_mem_keys (Store.findApp_eq_some happ).1
  obtain ⟨db'', hins⟩ := Store.insertTimeline_isOk hkey hcheckpoint hfree
  simp only [Handler.step, Input.statement_of_none herr, hins] at h
  cases h
  have happs := Store.apps_insertTimeline hins
  have hsum := Store.timelineSum_insertTimeline hone hins
  exact ledgerStep_end rfl (applied_timeline hentry happs hsum)

/-- **A statement of a handler** of an app that is there, if the database does not fail: the
ledgers stay as they are, or the event is applied. -/
theorem Handler.step_ledgers (hcons : hd.consistent event db)
    (hnamed : hd.written = false → eventApp event ∈ db.appNames)
    (hsession : hd.written = false → ∀ p n, sessionOf event = some (p, n) → n ≤ db.durationOf p)
    (herr : inp.err = none) (h : hd.step inp db = (next, db')) :
    LedgerStep event hd next db db' := by
  cases hd with
  | longestFindApp p n => exact ledgerStep_longestFindApp hcons herr h
  | longestUpdateApp app n date => exact ledgerStep_longestUpdateApp hcons (hsession rfl) herr h
  | countFindApp counter item => exact ledgerStep_countFindApp hcons (hnamed rfl) herr h
  | countUpdateApp counter app => exact ledgerStep_countUpdateApp hcons herr h
  | timelineFindApp item => exact ledgerStep_timelineFindApp hcons (hnamed rfl) herr h
  | timelineFindEntry appId today => exact ledgerStep_timelineFindEntry hcons herr h
  | timelineUpdate entry => exact ledgerStep_timelineUpdate hcons herr h
  | timelineMaxId appId today => exact ledgerStep_timelineMaxId hcons herr h
  | timelineFirstCheckpoint appId today id =>
    exact ledgerStep_timelineFirstCheckpoint hcons herr h
  | timelineInsert entry => exact ledgerStep_timelineInsert hcons herr h
  | _ => exact ledgerStep_checkpoints rfl h

end

end TimeTracker
