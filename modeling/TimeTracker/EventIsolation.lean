import TimeTracker.Steps

/-!
# An event changes only its app

A handler finds the row of its app by name and writes it, one or more statements later, by
id. Meanwhile another thread may delete the app and add a different one, and `put_data` gives
the new row the largest id plus one, which can be the id of the deleted row.

* `event_changes_only_its_app`: a step of the handler of an event for `p` changes no app of
  another name and no timeline row of one, in every run in which no row of another name is
  inserted under the id an app handler holds;
* `event_changes_other_app`: without that condition, a `Duration` event of a deleted app is
  counted in the app that got its id.
-/

namespace TimeTracker

/-- The id of the app a handler is going to write to, by update or by inserting a timeline
row. The update of a timeline row is not among them: the row disappears with its app. -/
def Handler.heldApp : Handler → Option Int
  | .longestUpdateApp app _ _ => some app.id
  | .countUpdateApp _ app => some app.id
  | .timelineFindEntry appId _ => some appId
  | .timelineMaxId appId _ => some appId
  | .timelineFirstCheckpoint appId _ _ => some appId
  | .timelineInsert entry => some entry.appId
  | _ => none

/-- A row inserted under the id the running handler holds is a row of the app its event
names. -/
def insertsElsewhere (c : Config) : Label → Prop
  | .call k inp =>
    match c.calls[k]?, c.loop with
    | some (.addProcess (.insert p _ id)), .handling event hd =>
      inp.err = none → id ∉ c.shared.db.apps.keys → hd.heldApp = some id → p = eventApp event
    | _, _ => True
  | _ => True

instance (c : Config) (l : Label) : Decidable (insertsElsewhere c l) :=
  match l with
  | .call k inp => by
    unfold insertsElsewhere
    dsimp only
    exact match c.calls[k]?, c.loop with
      | some (.addProcess (.insert p _ id)), .handling event hd =>
        inferInstanceAs (Decidable (inp.err = none → id ∉ c.shared.db.apps.keys →
          hd.heldApp = some id → p = eventApp event))
      | some (.addProcess (.insert _ _ _)), .idle => isTrue trivial
      | none, _ | some (.addProcess (.getProcesses _ _)), _
      | some (.addProcess (.maxId _ _)), _ | some (.addProcess (.insertMap _)), _
      | some (.addProcess (.returned _)), _ | some (.addProcess .panicked), _
      | some (.deleteProcess _), _ | some (.pause _), _ | some (.setCheckpointActive _), _
      | some (.createCheckpoint _), _ | some (.deleteCheckpoint _), _ => isTrue trivial
  | .scan _ | .spawn | .work _ _ | .handle _ => isTrue trivial

/-- Every app row under `id` is the row of `p`. -/
def onlyNamed (db : Store) (id : Int) (p : String) : Prop :=
  ∀ a ∈ db.apps.rows, a.id = id → a.name = some p

/-- What the handler of an event for `p` may change: the row of `p`, and timeline rows of
`p`. -/
structure ChangesOnly (p : String) (db db' : Store) : Prop where
  apps : ∀ a ∈ db.apps.rows, a.name ≠ some p → a ∈ db'.apps.rows
  timeline : ∀ t ∈ db'.timeline.rows, t ∉ db.timeline.rows → onlyNamed db t.appId p

instance (db : Store) (id : Int) (p : String) : Decidable (onlyNamed db id p) := by
  unfold onlyNamed
  infer_instance

instance (p : String) (db db' : Store) : Decidable (ChangesOnly p db db') :=
  decidable_of_iff ((∀ a ∈ db.apps.rows, a.name ≠ some p → a ∈ db'.apps.rows) ∧
      ∀ t ∈ db'.timeline.rows, t ∉ db.timeline.rows → onlyNamed db t.appId p)
    ⟨fun h => ⟨h.1, h.2⟩, fun h => ⟨h.apps, h.timeline⟩⟩

/-- What a handler holds belongs to the app its event names. -/
structure HandlerInvariant (event : Event) (hd : Handler) (db : Store) : Prop where
  name : ∀ p, hd.appName = some p → p = eventApp event
  held : ∀ id, hd.heldApp = some id → onlyNamed db id (eventApp event)
  entry : ∀ entry, hd = .timelineUpdate entry → ∀ t ∈ db.timeline.rows, t.id = entry.id →
    onlyNamed db t.appId (eventApp event)

structure IsolationInvariant (c : Config) : Prop where
  keys : c.shared.db.timelineKeys
  handler : ∀ event hd, c.loop = .handling event hd → HandlerInvariant event hd c.shared.db

/-! ## The event loop -/

section
variable {inp : Input} {event : Event} {hd hd' : Handler} {next : Option Handler}
  {db db' : Store} {p : String} {id : Int}

/-- The app that was found by name is the only row under its id. -/
theorem onlyNamed_findApp {app : Apps.Model} (h : db.findApp p = some app) :
    onlyNamed db app.id p := by
  obtain ⟨happ, hname⟩ := Store.findApp_eq_some h
  intro a ha hid
  rw [Table.eq_of_key_eq ha happ hid]
  exact hname

/-- An update of the row under an id that belongs to `p` changes no other row. -/
theorem changesOnly_updateApp {set : Apps.Model → Apps.Model}
    {hset : ∀ a, Keyed.key (set a) = Keyed.key a} (honly : onlyNamed db id p)
    (h : db.updateApp id set hset = .ok db') : ChangesOnly p db db' := by
  obtain ⟨apps, hupd, rfl⟩ := Store.updateApp_eq_ok.mp h
  refine ⟨fun a ha hne => ?_, fun t ht hnew => absurd ht hnew⟩
  have hid : a.id ≠ id := fun hid => hne (honly a ha hid)
  exact Table.mem_update_of_ne hupd ha hid

/-- An update of a timeline row that belongs to `p`. -/
theorem changesOnly_updateTimeline {set : Timeline.Model → Timeline.Model}
    {hset : ∀ t, Keyed.key (set t) = Keyed.key t}
    (h : db.updateTimeline id set hset = .ok db') (happ : ∀ t, (set t).appId = t.appId)
    (honly : ∀ t ∈ db.timeline.rows, t.id = id → onlyNamed db t.appId p) :
    ChangesOnly p db db' := by
  obtain ⟨timeline, hupd, rfl⟩ := Store.updateTimeline_eq_ok.mp h
  refine ⟨fun a ha _ => ha, fun t ht hnew => ?_⟩
  obtain ⟨r, hr, rfl⟩ := (Table.mem_update hupd).mp ht
  split at hnew
  · next hid =>
    rw [if_pos hid, happ]
    exact honly r hr hid
  · exact absurd hr hnew

/-- **A step of a handler changes only the app its event names.** -/
theorem Handler.step_changesOnly (hinv : HandlerInvariant event hd db)
    (h : hd.step inp db = (next, db')) : ChangesOnly (eventApp event) db db' := by
  rcases Handler.step_db h with rfl | ⟨app, n, date, rfl, hupd⟩ | ⟨counter, app, rfl, hupd⟩ |
    ⟨_, _, _, _, _, -, hupd⟩ | ⟨entry, rfl, hupd⟩ | ⟨entry, rfl, hins⟩
  · exact ⟨fun a ha _ => ha, fun t ht hnew => absurd ht hnew⟩
  -- the writes go to ids the handler holds, and these are its app's
  · exact changesOnly_updateApp (hinv.held app.id rfl) hupd
  · exact changesOnly_updateApp (hinv.held app.id rfl) hupd
  · obtain ⟨_, -, rfl⟩ := Store.updateCheckpoint_eq_ok.mp hupd
    exact ⟨fun a ha _ => ha, fun t ht hnew => absurd ht hnew⟩
  · exact changesOnly_updateTimeline hupd (fun _ => rfl) (hinv.entry entry rfl)
  · obtain ⟨-, timeline, htable, rfl⟩ := Store.insertTimeline_eq_ok hins
    refine ⟨fun a ha _ => ha, fun t ht hnew => ?_⟩
    rcases (Table.mem_insert htable).mp ht with ht | rfl
    · exact absurd ht hnew
    · exact hinv.held t.appId rfl

/-- A handler that holds nothing. -/
theorem handlerInvariant_of_none (hname : hd.appName = none) (hheld : hd.heldApp = none)
    (hentry : ∀ entry, hd ≠ .timelineUpdate entry) : HandlerInvariant event hd db where
  name p h := by rw [hname] at h; cases h
  held id h := by rw [hheld] at h; cases h
  entry entry h := absurd h (hentry entry)

/-- The handler of a new event looks up the app the event names. -/
theorem handlerInvariant_of_handle (h : handle event = some hd) :
    HandlerInvariant event hd db := by
  have hname := appName_of_handle h
  refine ⟨fun q hq => ?_, fun i hi => ?_, fun entry hentry => ?_⟩
  · rw [hname] at hq
    exact (Option.some.inj hq).symm
  · -- a handler that still has to look up its app holds no id
    cases hd <;> first | cases hi; done | cases hname
  · rw [hentry] at hname
    cases hname

/-- A handler that has found its app, and from there on holds its id. -/
theorem handlerInvariant_of_held (hname : hd.appName = none) (hheld : hd.heldApp = some id)
    (hentry : ∀ entry, hd ≠ .timelineUpdate entry) (honly : onlyNamed db id (eventApp event)) :
    HandlerInvariant event hd db where
  name p h := by rw [hname] at h; cases h
  held i h := by
    rw [hheld] at h
    cases h
    exact honly
  entry entry h := absurd h (hentry entry)

/-- What the handler holds after a step belongs to its app. -/
theorem Handler.step_holds (hinv : HandlerInvariant event hd db)
    (h : hd.step inp db = (some hd', db')) : HandlerInvariant event hd' db' := by
  cases Handler.statement_of_step h with
  | longestFound hfind _ | countFound hfind | timelineFound hfind =>
    refine handlerInvariant_of_held rfl rfl (by simp) ?_
    rw [← hinv.name _ rfl]
    exact onlyNamed_findApp hfind
  | @countWritten counter app _ _ =>
    cases counter <;> exact handlerInvariant_of_none rfl rfl (by
      simp [Counter.updateCheckpoints, updateCheckpointDurations, updateCheckpointSessions])
  | activeFound hnext | checkpointSkipped hnext | checkpointWritten hnext _
  | checkpointRefused hnext =>
    obtain ⟨checkpoint, rest, -, rfl⟩ := forCheckpoints_eq_some hnext
    exact handlerInvariant_of_none rfl rfl (by simp)
  | checkpointFound => exact handlerInvariant_of_none rfl rfl (by simp)
  | @entryFound appId today entry hfind =>
    -- the entry that was found is the only row under its id, and an entry of the app held
    obtain ⟨hentry, happ⟩ := Table.mem_of_one hfind
    rw [Bool.and_eq_true, decide_eq_true_iff] at happ
    refine ⟨(by intro _ h; cases h), (by intro _ h; cases h), ?_⟩
    intro entry' heq t ht hid
    cases heq
    rw [Table.eq_of_key_eq ht hentry hid, happ.1]
    exact hinv.held appId rfl
  | entryMissing | idFound | checkpointChosen =>
    exact handlerInvariant_of_held rfl rfl (by simp) (hinv.held _ rfl)

end

/-! ## Rows that come and go -/

section
variable {db db' : Store} {event : Event} {hd : Handler} {p : String} {id : Int}

/-- No new row under the id. -/
theorem onlyNamed_of_subset (honly : onlyNamed db id p)
    (hsub : ∀ a ∈ db'.apps.rows, ∃ a' ∈ db.apps.rows, a'.id = a.id ∧ a'.name = a.name) :
    onlyNamed db' id p := by
  intro a ha hid
  obtain ⟨a', ha', hid', hname⟩ := hsub a ha
  rw [← hname]
  exact honly a' ha' (hid'.trans hid)

/-- What the handler holds still belongs to its app: no other app has got an id it holds, or
the id of an app that was there, and no timeline row has been added. -/
theorem HandlerInvariant.of_rows (hinv : HandlerInvariant event hd db) (hkeys : db.timelineKeys)
    (hnames : ∀ id, hd.heldApp = some id ∨ id ∈ db.apps.keys →
      onlyNamed db id (eventApp event) → onlyNamed db' id (eventApp event))
    (htimeline : ∀ t ∈ db'.timeline.rows, ∃ t' ∈ db.timeline.rows,
      t'.id = t.id ∧ t'.appId = t.appId) : HandlerInvariant event hd db' where
  name := hinv.name
  held id h := hnames id (.inl h) (hinv.held id h)
  entry entry h t ht hid := by
    obtain ⟨t', ht', hid', happ⟩ := htimeline t ht
    rw [← happ]
    exact hnames t'.appId (.inr (hkeys t' ht')) (hinv.entry entry h t' ht' (hid'.trans hid))

end

/-! ## Every step keeps the invariant -/

section
variable {c c' : Config} {inp : Input} {k : Nat}

theorem isolationInvariant_handle (hinv : IsolationInvariant c)
    (h : tracker.step c (.handle inp) = some c') : IsolationInvariant c' := by
  obtain ⟨loop, events, db, hstep, rfl⟩ := step_handle h
  refine ⟨EventLoop.step_timelineKeys hinv.keys hstep, fun event hd hloop => ?_⟩
  rcases EventLoop.step_cases hstep with ⟨event', -, -, rfl, rfl⟩ |
    ⟨event', hd', next, hidle, -, hnext, rfl⟩
  · -- the handler of a new event has looked up nothing yet
    cases hhandle : handle event' with
    | none => rw [hhandle] at hloop; cases hloop
    | some hd' =>
      rw [hhandle] at hloop
      cases hloop
      exact handlerInvariant_of_handle hhandle
  · cases next with
    | none => cases hloop
    | some hd'' =>
      cases hloop
      exact Handler.step_holds (hinv.handler event hd' hidle) hnext

theorem isolationInvariant_call (hinv : IsolationInvariant c)
    (hok : insertsElsewhere c (.call k inp)) (h : tracker.step c (.call k inp) = some c') :
    IsolationInvariant c' := by
  obtain ⟨call, call', s, hk, hstep, rfl⟩ := step_call h
  have hsame : ∀ t : Timeline.Model, t ∈ s.db.timeline.rows → s.db.timeline = c.shared.db.timeline →
      ∃ t' ∈ c.shared.db.timeline.rows, t'.id = t.id ∧ t'.appId = t.appId :=
    fun t ht heq => ⟨t, heq ▸ ht, rfl, rfl⟩
  rcases Call.step_apps hstep with happs | ⟨p, productName, id, apps, rfl, -, herr, hins, rfl⟩ |
    ⟨p, rfl, -, rfl⟩
  · -- a call that keeps the apps adds no timeline row
    have hrows : ∀ t ∈ s.db.timeline.rows, ∃ t' ∈ c.shared.db.timeline.rows,
        t'.id = t.id ∧ t'.appId = t.appId := by
      rcases Call.step_timeline hstep with heq | ⟨p, rfl, rfl⟩ | ⟨id, rfl, rfl⟩
      · exact fun t ht => hsame t ht heq
      · intro t ht
        obtain ⟨t', ht', hid, happ, -⟩ := Store.of_mem_timeline_deleteApps ht
        exact ⟨t', ht', hid, happ⟩
      · exact fun t ht => Store.of_mem_timeline_deleteCheckpoint ht
    refine ⟨fun t ht => ?_, fun event hd hloop => ?_⟩
    · obtain ⟨t', ht', -, happ⟩ := hrows t ht
      show t.appId ∈ s.db.apps.keys
      rw [happs, ← happ]
      exact hinv.keys t' ht'
    · refine (hinv.handler event hd hloop).of_rows hinv.keys (fun id _ honly => ?_) hrows
      exact onlyNamed_of_subset honly fun a ha => ⟨a, happs ▸ ha, rfl, rfl⟩
  · refine ⟨fun t ht => ?_, fun event hd hloop => ?_⟩
    · show t.appId ∈ apps.keys
      rw [Table.keys_insert hins, List.mem_append]
      exact .inl (hinv.keys t ht)
    -- an insert is where an id can change hands
    · have hfresh := (Table.insert_eq_some.mp hins).1
      have hloop : c.loop = .handling event hd := hloop
      simp only [insertsElsewhere, hk, hloop] at hok
      refine (hinv.handler event hd hloop).of_rows hinv.keys (fun i hi honly => ?_)
        fun t ht => hsame t ht rfl
      intro a ha hid
      rcases (Table.mem_insert hins).mp ha with ha | rfl
      · exact honly a ha hid
      · -- the new row: its id is not in the table, so the handler holds it
        have hnew : id = i := hid
        rcases hi with hheld | hmem
        · rw [← hok herr hfresh (hnew ▸ hheld)]
          rfl
        · exact absurd (hnew ▸ hmem) hfresh
  · refine ⟨Store.timelineKeys_deleteApps hinv.keys p, fun event hd hloop => ?_⟩
    refine (hinv.handler event hd hloop).of_rows hinv.keys (fun i _ honly => ?_) fun t ht => ?_
    -- a delete gives no id to anyone
    · refine onlyNamed_of_subset honly fun a ha => ⟨a, ?_, rfl, rfl⟩
      exact (Table.mem_delete.mp ha).1
    · obtain ⟨t', ht', hid, happ, -⟩ := Store.of_mem_timeline_deleteApps ht
      exact ⟨t', ht', hid, happ⟩

theorem isolationInvariant_step (c : Config) (l : Label) (c' : Config)
    (hinv : IsolationInvariant c) (hok : insertsElsewhere c l)
    (h : tracker.step c l = some c') : IsolationInvariant c' := by
  cases l with
  | handle inp => exact isolationInvariant_handle hinv h
  | call k inp => exact isolationInvariant_call hinv hok h
  | _ =>
    obtain ⟨-, hloop, hdb⟩ := step_of_onlyReads rfl h
    refine ⟨?_, fun event hd => ?_⟩
    · rw [hdb]
      exact hinv.keys
    · rw [hloop, hdb]
      exact hinv.handler event hd

end

/-! ## Runs -/

/-- **An event changes only the app it names**, at every step of its handler, in every run in
which no row of another app is inserted under the id a handler holds. -/
theorem event_changes_only_its_app {c₀ c c' : Config} {ls : List Label} {event : Event}
    {hd : Handler} {inp : Input} (hidle : c₀.loop = .idle) (hkeys : c₀.shared.db.timelineKeys)
    (hrun : tracker.Runs insertsElsewhere c₀ ls c) (hloop : c.loop = .handling event hd)
    (h : tracker.step c (.handle inp) = some c') :
    ChangesOnly (eventApp event) c.shared.db c'.shared.db := by
  have hinv : IsolationInvariant c := by
    refine hrun.invariant isolationInvariant_step ⟨hkeys, fun event hd hstart => ?_⟩
    rw [hidle] at hstart
    cases hstart
  obtain ⟨loop, events, db, hstep, rfl⟩ := step_handle h
  rcases EventLoop.step_cases hstep with ⟨_, hwait, -⟩ | ⟨event', hd', next, hhere, -, hnext, -⟩
  · rw [hloop] at hwait
    cases hwait
  · rw [hloop] at hhere
    cases hhere
    exact Handler.step_changesOnly (hinv.handler event hd hloop) hnext

/-- A duration event of `a` is waiting; one client deletes `a`, another one adds `b`. -/
def durationOfA : Config :=
  let c := Config.initial .linux storeWithA
    [.deleteProcess (.deleteData "a"), .addProcess (.getProcesses "b" "b.exe")]
  { c with shared := { c.shared with events := [("a", .duration)] } }

/-- The handler finds `a`; then `a` is deleted and `b` is added, which gets the id of `a`. -/
def replaceWhileHandling : List Label :=
  [.handle {}, .handle {}, .call 0 {}, .call 1 {}, .call 1 {}, .call 1 {}]

/-- The handler finds `a`; then `b` is added, which gets an id of its own. -/
def addWhileHandling : List Label :=
  [.handle {}, .handle {}, .call 1 {}, .call 1 {}, .call 1 {}]

/-- **An event of a deleted app is counted in another app**, the one that got its id. -/
theorem event_changes_other_app :
    ¬ ∀ (c₀ c c' : Config) (ls : List Label) (event : Event) (hd : Handler) (inp : Input),
      c₀.shared.db.appNames.Nodup → (∀ p ∈ c₀.shared.db.appNames, ';' ∉ p.toList) →
      (∀ call ∈ c₀.calls, call.fresh = true) → c₀.loop = .idle → c₀.shared.db.timelineKeys →
      tracker.Runs (fun _ _ => True) c₀ ls c → c.loop = .handling event hd →
      tracker.step c (.handle inp) = some c' →
      ChangesOnly (eventApp event) c.shared.db c'.shared.db := by
  intro hall
  have hend : ((tracker.exec durationOfA replaceWhileHandling).bind fun c =>
      (tracker.step c (.handle {})).map fun c' => decide (¬ ChangesOnly "a" c.shared.db c'.shared.db ∧
        c.loop = .handling ("a", .duration)
          (.countUpdateApp .duration (AddProcess.newApp "a" "a" 1)))) = some true := by
    decide
  obtain ⟨c, hexec, hc⟩ := Option.bind_eq_some_iff.mp hend
  obtain ⟨c', hstep, hc'⟩ := Option.map_eq_some_iff.mp hc
  obtain ⟨hchanged, hloop⟩ := of_decide_eq_true hc'
  exact hchanged (hall durationOfA c c' _ _ _ {} (by decide) (by decide) (by decide) rfl
    (by decide) (Transition.System.runs_of_exec hexec) hloop hstep)

/-- An app added while the handler runs: the condition holds, and the event is counted in its
own app only. -/
theorem event_changes_only_its_app_addWhileHandling :
    ∃ c c', tracker.execWhere insertsElsewhere durationOfA addWhileHandling = some c ∧
      tracker.step c (.handle {}) = some c' ∧ c'.shared.db.appNames = ["a", "b"] ∧
      ChangesOnly "a" c.shared.db c'.shared.db := by
  have hend : ((tracker.execWhere insertsElsewhere durationOfA addWhileHandling).bind fun c =>
      (tracker.step c (.handle {})).map fun c' => decide (c'.shared.db.appNames = ["a", "b"] ∧
        c.loop = .handling ("a", .duration)
          (.countUpdateApp .duration (AddProcess.newApp "a" "a" 1)))) = some true := by
    decide
  obtain ⟨c, hexec, hc⟩ := Option.bind_eq_some_iff.mp hend
  obtain ⟨c', hstep, hc'⟩ := Option.map_eq_some_iff.mp hc
  obtain ⟨hnames, hloop⟩ := of_decide_eq_true hc'
  exact ⟨c, c', hexec, hstep, hnames, event_changes_only_its_app rfl (by decide)
    (Transition.System.runs_of_execWhere hexec) hloop hstep⟩

end TimeTracker
