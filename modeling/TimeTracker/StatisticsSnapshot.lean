import TimeTracker.DurationSums
import TimeTracker.Ledgers
import TimeTracker.Statistics

/-!
# Statistics while the apps are running

`handle_get_statistics` reads all apps first and then the timeline of each app, one query at a time.
The total of an app comes from the first read, the sums of the windows from a later one, and the
event loop may write between them.

* `GetStatistics` is the handler as a machine, and `reading` lets it run beside the event loop;
  **`getStatistics_alone`**: alone, it returns what the handler answers.
* **`statistics_snapshot`**: the statistics that are returned are nested, in every run in which no
  tick gets into the timeline of an app, between the two reads, that was not yet in the total.
* **`statistics_torn`**: otherwise the month can be longer than the total.
-/

namespace TimeTracker

open Transition

/-! ## The handler beside the event loop -/

/-- The program points of `handle_get_statistics`. -/
inductive GetStatistics where
  | getAllApps
  /-- the timeline query of `app`, before those of the `rest` -/
  | getTimelineData (app : App) (rest : List App) (appStatistics : List AppStatistics)
  /-- `none` is the `Err` -/
  | returned (appStatistics : Option (List AppStatistics))

namespace GetStatistics

/-- The loop over the apps. -/
def forApps : List App → List AppStatistics → GetStatistics
  | [], appStatistics => .returned (some appStatistics)
  | app :: rest, appStatistics => .getTimelineData app rest appStatistics

def step (env : Environment World) (inp : Input) : GetStatistics → Store → Option GetStatistics
  | .getAllApps, db =>
    match inp.statement (.ok db.appsById) with
    | .error _ => some (.returned none)
    | .ok apps => some (forApps (apps.filterMap (App.ofModel env.chrono)) [])
  | .getTimelineData app rest stats, db =>
    match inp.statement (.ok (appStatistics env { db, now := inp.now } app)) with
    -- an app whose timeline cannot be read is left out of the answer
    | .error _ => some (forApps rest stats)
    | .ok s => some (forApps rest (stats ++ [s]))
  | .returned _, _ => none

/-- The apps whose timeline has not been read. -/
def pending : GetStatistics → List App
  | .getTimelineData app rest _ => app :: rest
  | _ => []

/-- The statistics so far. -/
def done : GetStatistics → List AppStatistics
  | .getTimelineData _ _ stats => stats
  | .returned (some stats) => stats
  | _ => []

@[simp] theorem pending_forApps (apps : List App) (stats : List AppStatistics) :
    (forApps apps stats).pending = apps := by cases apps <;> rfl

@[simp] theorem done_forApps (apps : List App) (stats : List AppStatistics) :
    (forApps apps stats).done = stats := by cases apps <;> rfl

/-- **What a statement of the handler does**: it reads the apps, or the timeline of one of them;
and where it fails, an app is left out, or there is no answer. -/
theorem step_cases {env : Environment World} {inp : Input} {request request' : GetStatistics}
    {db : Store} (h : request.step env inp db = some request') :
    (request'.pending = [] ∧ request'.done = []) ∨
    (request'.pending = db.appsById.filterMap (App.ofModel env.chrono) ∧ request'.done = []) ∨
    (∃ app, request.pending = app :: request'.pending ∧
      (request'.done = request.done ∨
        request'.done = request.done ++ [appStatistics env { db, now := inp.now } app])) := by
  cases request with
  | getAllApps =>
    simp only [step] at h
    split at h
    · cases h
      exact .inl ⟨rfl, rfl⟩
    · next apps hst =>
      cases h
      have hread := Except.ok.inj (Input.statement_eq_ok.mp hst).2
      exact .inr (.inl ⟨by rw [pending_forApps, hread], done_forApps _ _⟩)
  | getTimelineData app rest stats =>
    simp only [step] at h
    split at h
    · cases h
      exact .inr (.inr ⟨app, by rw [pending_forApps]; rfl, .inl (done_forApps _ _)⟩)
    · next s hst =>
      cases h
      have hread := Except.ok.inj (Input.statement_eq_ok.mp hst).2
      refine .inr (.inr ⟨app, by rw [pending_forApps]; rfl, .inr ?_⟩)
      rw [done_forApps, ← hread]
      rfl
  | returned stats => cases h

end GetStatistics

/-- A request for the statistics, the event loop, its channel and the database. -/
structure Reading where
  request : GetStatistics
  loop : EventLoop
  events : List Event
  db : Store

inductive ReadingLabel where
  /-- the next read of the request -/
  | read (inp : Input)
  /-- the event loop -/
  | handle (inp : Input)

/-- The request and the event loop, in any order of their statements. -/
def reading (env : Environment World) : System Reading ReadingLabel where
  step s
    | .read inp => (s.request.step env inp s.db).map fun request => { s with request }
    | .handle inp =>
      (s.loop.step inp s.events s.db).map fun (loop, events, db) => { s with loop, events, db }

/-- The request alone, at one time, and the database refuses nothing. -/
theorem getStatistics_alone_of (env : Environment World) (inp : Input) (hinp : inp.err = none)
    (loop : EventLoop) (events : List Event) (db : Store) (apps : List App) :
    ∀ stats : List AppStatistics, ∃ ls, (reading env).Runs (fun _ l => l = .read inp)
      ⟨.forApps apps stats, loop, events, db⟩ ls
      ⟨.returned (some (stats ++ apps.map (appStatistics env { db, now := inp.now }))), loop,
        events, db⟩ := by
  induction apps with
  | nil =>
    intro stats
    rw [List.map_nil, List.append_nil]
    exact ⟨[], .nil _⟩
  | cons app apps ih =>
    intro stats
    obtain ⟨ls, hrun⟩ := ih (stats ++ [appStatistics env { db, now := inp.now } app])
    rw [List.append_assoc] at hrun
    refine ⟨.read inp :: ls, .cons rfl ?_ hrun⟩
    simp only [reading, GetStatistics.step, GetStatistics.forApps, Input.statement_of_none hinp,
      Option.map_some]

/-- **Alone, the request returns the answer of the handler** (`handleGetStatistics_run`). -/
theorem getStatistics_alone (env : Environment World) (inp : Input) (hinp : inp.err = none)
    (loop : EventLoop) (events : List Event) (db : Store) :
    ∃ ls, (reading env).Runs (fun _ l => l = .read inp) ⟨.getAllApps, loop, events, db⟩ ls
      ⟨.returned (some (statistics env { db, now := inp.now })), loop, events, db⟩ := by
  obtain ⟨ls, hrun⟩ := getStatistics_alone_of env inp hinp loop events db
    (db.appsById.filterMap (App.ofModel env.chrono)) []
  refine ⟨.read inp :: ls, .cons rfl ?_ hrun⟩
  simp only [reading, GetStatistics.step, Input.statement_of_none hinp, Option.map_some]

/-! ## The statistics of one app -/

/-- The windows of the statistics are nested, and the longest one is within the total. -/
structure NestedStatistics (stats : AppStatistics) : Prop where
  today : stats.todayDuration ≤ stats.weekDuration
  week : stats.weekDuration ≤ stats.monthDuration
  month : stats.monthDuration ≤ stats.totalDuration

/-- No duration in the timeline is negative. -/
def nonnegTimeline (db : Store) : Prop := ∀ t ∈ db.timeline.rows, 0 ≤ t.duration.getD 0

section
variable {env : Environment World} {w : World} {a : Apps.Model} {app : App} {p : String}

/-- The entry of a row lasts no longer than the row. -/
theorem seconds_ofModel {chrono : ChronoParsers} {t : Timeline.Model} {entry : Timeline}
    (hnonneg : 0 ≤ t.duration.getD 0) (h : Timeline.ofModel chrono t = some entry) :
    0 ≤ entry.seconds ∧ entry.seconds ≤ t.duration.getD 0 := by
  rw [Timeline.ofModel_eq] at h
  obtain ⟨id, -, rfl⟩ := Option.map_eq_some_iff.mp h
  show 0 ≤ (t.duration.bind checkedI32).getD 0 ∧ (t.duration.bind checkedI32).getD 0 ≤ _
  cases hd : t.duration with
  | none => exact ⟨le_rfl, le_rfl⟩
  | some d =>
    rw [hd, Option.getD_some] at hnonneg
    rw [Option.bind_some, Option.getD_some]
    unfold checkedI32
    split
    · exact ⟨hnonneg, le_rfl⟩
    · exact ⟨le_rfl, hnonneg⟩

/-- The entries of some rows last no longer than the rows. -/
theorem sum_seconds_le (chrono : ChronoParsers) (rows : List Timeline.Model) :
    (∀ t ∈ rows, 0 ≤ t.duration.getD 0) →
    (∀ entry ∈ rows.filterMap (Timeline.ofModel chrono), 0 ≤ entry.seconds) ∧
      ((rows.filterMap (Timeline.ofModel chrono)).map Timeline.seconds).sum ≤
        (rows.map fun t => t.duration.getD 0).sum := by
  induction rows with
  | nil => exact fun _ => ⟨fun _ h => absurd h List.not_mem_nil, le_rfl⟩
  | cons t rows ih =>
    intro hnonneg
    have ht := hnonneg t List.mem_cons_self
    obtain ⟨hentries, hsum⟩ := ih fun t' ht' => hnonneg t' (List.mem_cons_of_mem t ht')
    rw [List.map_cons, List.sum_cons]
    cases hentry : Timeline.ofModel chrono t with
    | none =>
      rw [List.filterMap_cons_none hentry]
      exact ⟨hentries, by omega⟩
    | some entry =>
      obtain ⟨hpos, hle⟩ := seconds_ofModel ht hentry
      rw [List.filterMap_cons_some hentry, List.map_cons, List.sum_cons]
      refine ⟨fun entry' hmem => ?_, by omega⟩
      rcases List.mem_cons.mp hmem with rfl | hmem
      · exact hpos
      · exact hentries entry' hmem

/-- The rows that the query of an app finds are rows of its timeline. -/
theorem timelineData_le (hnodup : w.db.appNames.Nodup) (hnonneg : nonnegTimeline w.db)
    (ha : a ∈ w.db.apps.rows) (hname : a.name = some p) (cutoffDate : NaiveDate) :
    (∀ t ∈ w.db.timelineData (some p) cutoffDate, 0 ≤ t.duration.getD 0) ∧
      ((w.db.timelineData (some p) cutoffDate).map fun t => t.duration.getD 0).sum ≤
        w.db.timelineSum a.id := by
  have hperm := List.perm_insertionSort (fun t t' : Timeline.Model => t'.date ≤ t.date)
    ((w.db.timeline.all fun t => t.appId = a.id).filter fun t => cutoffDate ≤ t.date)
  rw [← timelineData_eq hnodup ha hname cutoffDate] at hperm
  have hrows : ∀ t ∈ w.db.timeline.all fun t => t.appId = a.id, 0 ≤ t.duration.getD 0 :=
    fun t ht => hnonneg t (Table.mem_all.mp ht).1
  constructor
  · intro t ht
    exact hrows t (List.mem_filter.mp (hperm.mem_iff.mp ht)).1
  · rw [(hperm.map fun t => t.duration.getD 0).sum_eq, Store.timelineSum_eq]
    -- the rows before the cutoff are left out, and none of them is negative
    refine List.Sublist.sum_le_sum
      (List.filter_sublist.map fun t : Timeline.Model => t.duration.getD 0) ?_
    intro d hd
    obtain ⟨t, ht, rfl⟩ := List.mem_map.mp hd
    exact hrows t ht

/-- **The statistics of an app** are nested, if its total is no less than its timeline. -/
theorem nested_appStatistics (hnodup : w.db.appNames.Nodup) (hnonneg : nonnegTimeline w.db)
    (ha : a ∈ w.db.apps.rows) (hname : a.name = some p) (happ : app.name = some p)
    (hle : w.db.timelineSum a.id ≤ app.duration.getD 0)
    (hmax : app.duration.getD 0 ≤ 2147483647) : NestedStatistics (appStatistics env w app) := by
  obtain ⟨hrows, hdata⟩ := timelineData_le hnodup hnonneg ha hname (w.now.date.subDays 30)
  obtain ⟨hentries, hsum⟩ := sum_seconds_le env.chrono _ hrows
  rw [← happ] at hentries hsum hdata
  have htotal : windowSum (fun _ => true) ((w.db.timelineData app.name
      (w.now.date.subDays 30)).filterMap (Timeline.ofModel env.chrono)) ≤ app.duration.getD 0 := by
    rw [windowSum_eq_sum_ite]
    exact (hsum.trans hdata).trans hle
  obtain ⟨htoday, hweek, hmonth⟩ := windows_le w.now.date hentries htotal hmax
  exact ⟨htoday, hweek, hmonth⟩

end

/-! ## Ticks -/

/-- The events of some ticks: those of one tick are adjacent. -/
def eventsOfTicks (ps : List String) : List Event :=
  ps.flatMap fun p => [(p, .duration), (p, .timeline)]

/-- Whole ticks, after the rest of one that has been written in half. -/
def Ticks (es : List Event) : Prop :=
  ∃ ps, es = eventsOfTicks ps ∨ ∃ p, es = (p, .timeline) :: eventsOfTicks ps

/-- What the duration of `p` is ahead of its timeline, with the events still to be written. -/
def owed (p : String) : List Event → Int
  | (q, .timeline) :: _ => if q = p then 1 else 0
  | _ => 0

theorem owed_nonneg (p : String) (es : List Event) : 0 ≤ owed p es := by
  unfold owed
  split
  · split <;> decide
  · exact le_rfl

theorem owed_eventsOfTicks (p : String) (ps : List String) : owed p (eventsOfTicks ps) = 0 := by
  cases ps <;> rfl

section
variable {db db' : Store} {event : Event} {es : List Event}

theorem Ticks.kind (h : Ticks (event :: es)) : event.2 = .duration ∨ event.2 = .timeline := by
  obtain ⟨ps, h | ⟨p, h⟩⟩ := h
  · cases ps with
    | nil => cases h
    | cons p ps =>
      cases h
      exact .inl rfl
  · cases h
    exact .inr rfl

theorem Ticks.tail (h : Ticks (event :: es)) : Ticks es := by
  obtain ⟨ps, h | ⟨p, h⟩⟩ := h
  · cases ps with
    | nil => cases h
    | cons p ps =>
      cases h
      exact ⟨ps, .inr ⟨p, rfl⟩⟩
  · cases h
    exact ⟨ps, .inl rfl⟩

/-- The durations and the timelines of the apps, with what is still to be written. -/
def Balanced (db : Store) (es : List Event) : Prop :=
  ∀ p ∈ db.appNames, db.durationOf p = db.timelineDurationOf p + owed p es

theorem Balanced.congr (h : Balanced db es) (happs : db'.apps = db.apps)
    (htimeline : db'.timeline = db.timeline) : Balanced db' es := by
  intro p hp
  have hnames : db'.appNames = db.appNames := by
    unfold Store.appNames
    rw [happs]
  rw [Store.durationOf, Store.columnOf_congr happs,
    Store.timelineDurationOf_congr happs htimeline]
  exact h p (hnames ▸ hp)

/-- An event that is written: the duration gets ahead, or the timeline catches up. -/
theorem Balanced.apply (h : Balanced db (event :: es)) (hticks : Ticks (event :: es))
    (happlied : Applied event db db') (hnames : db'.appNames = db.appNames) : Balanced db' es := by
  intro p hp
  rw [hnames] at hp
  have hbefore := h p hp
  rw [happlied.duration p hp, happlied.timeline p hp, hbefore]
  obtain ⟨ps, hes | ⟨q, hes⟩⟩ := hticks
  · cases ps with
    | nil => cases hes
    | cons q ps =>
      cases hes
      show _ + (0 : Int) + _ = _ + _ + if q = p then 1 else 0
      by_cases hq : q = p <;> simp [hq]
  · cases hes
    rw [owed_eventsOfTicks]
    show _ + (if q = p then (1 : Int) else 0) + _ = _
    by_cases hq : q = p <;> simp [hq]

/-- An event of an app that is not there changes no ledger. -/
theorem applied_of_unknown (h : eventApp event ∉ db.appNames) : Applied event db db where
  duration p hp := by
    have hne : event ≠ (p, .duration) := fun he => h (by rw [he]; exact hp)
    rw [if_neg hne, add_zero]
  timeline p hp := by
    have hne : event ≠ (p, .timeline) := fun he => h (by rw [he]; exact hp)
    rw [if_neg hne, add_zero]
  longest _ h := h

/-- A statement of a handler that finds no app, as there is none: it drops the event. A handler that
holds a row has found an app under the name of its event. -/
theorem ledgerStep_of_unknown {inp : Input} {hd : Handler} {next : Option Handler}
    (hlongest : event.2 ≠ .longestSession) (hcons : hd.consistent event db)
    (hw : hd.written = false) (hunknown : eventApp event ∉ db.appNames) (herr : inp.err = none)
    (h : hd.step inp db = (next, db')) : LedgerStep event hd next db db' := by
  have hname : ∀ {p : String} {kind : ReceiveTypes}, event = (p, kind) → p ∉ db.appNames := by
    rintro p kind rfl hp
    refine hunknown ?_
    cases kind with
    | longestSession => exact absurd rfl hlongest
    | _ => exact hp
  have hfound : ∀ {p : String} {app : Apps.Model} {kind : ReceiveTypes},
      db.findApp p = some app → event ≠ (p, kind) := fun happ hevent =>
    hname hevent (Store.mem_appNames.mpr ⟨_, Store.findApp_eq_some happ⟩)
  cases hd with
  | countFindApp counter item =>
    have hitem : item ∉ db.appNames := hname hcons
    simp only [Handler.step, Input.statement_of_none herr, Store.findApp_eq_none hitem] at h
    cases h
    exact ledgerStep_end hw (applied_of_unknown hunknown)
  | timelineFindApp item =>
    have hitem : item ∉ db.appNames := hname hcons
    simp only [Handler.step, Input.statement_of_none herr, Store.findApp_eq_none hitem] at h
    cases h
    exact ledgerStep_end hw (applied_of_unknown hunknown)
  | longestFindApp p n => exact absurd (kind_of_sessionOf hcons) hlongest
  | longestUpdateApp app n date =>
    obtain ⟨p, -, hsession⟩ := hcons
    exact absurd (kind_of_sessionOf hsession) hlongest
  | countUpdateApp counter app =>
    obtain ⟨p, happ, hevent⟩ := hcons
    exact absurd hevent (hfound happ)
  | timelineFindEntry | timelineMaxId =>
    obtain ⟨p, app, happ, -, hevent⟩ := hcons
    exact absurd hevent (hfound happ)
  | timelineUpdate entry =>
    obtain ⟨-, p, app, happ, -, hevent⟩ := hcons
    exact absurd hevent (hfound happ)
  | timelineFirstCheckpoint | timelineInsert =>
    obtain ⟨⟨p, app, happ, -, hevent⟩, -⟩ := hcons
    exact absurd hevent (hfound happ)
  | _ => cases hw

/-- A statement of the handler of a tick, whether the app is there or not. -/
theorem ledgerStep_of_tick {inp : Input} {hd : Handler} {next : Option Handler}
    (hkind : event.2 = .duration ∨ event.2 = .timeline) (hcons : hd.consistent event db)
    (herr : inp.err = none) (h : hd.step inp db = (next, db')) :
    LedgerStep event hd next db db' := by
  have hlongest : event.2 ≠ .longestSession := by
    rcases hkind with hk | hk <;> rw [hk] <;> decide
  by_cases hnamed : hd.written = false → eventApp event ∈ db.appNames
  · exact Handler.step_ledgers hcons hnamed
      (fun _ _ _ hsession => absurd (kind_of_sessionOf hsession) hlongest) herr h
  · obtain ⟨hw, hunknown⟩ := Classical.not_imp.mp hnamed
    exact ledgerStep_of_unknown hlongest hcons (by simpa using hw) hunknown herr h

end

/-! ## The writes to a timeline -/

/-- The handler is about to write the timeline. -/
def Handler.writesTimeline : Handler → Bool
  | .timelineUpdate _ | .timelineInsert _ => true
  | _ => false

section
variable {inp : Input} {hd : Handler} {next : Option Handler} {db db' : Store}

theorem timelineDurationOf_of_not_writes (hw : hd.writesTimeline = false)
    (h : hd.step inp db = (next, db')) (p : String) :
    db'.timelineDurationOf p = db.timelineDurationOf p := by
  rcases Handler.step_db h with rfl | ⟨_, _, _, -, hupd⟩ | ⟨counter, _, -, hupd⟩ |
    ⟨_, _, _, _, _, -, hupd⟩ | ⟨_, rfl, -⟩ | ⟨_, rfl, -⟩
  · rfl
  · exact Store.timelineDurationOf_updateApp hupd (fun _ => rfl) p
  · exact Store.timelineDurationOf_updateApp hupd (counter.setApp_name _) p
  · obtain ⟨_, -, rfl⟩ := Store.updateCheckpoint_eq_ok.mp hupd
    rfl
  · cases hw
  · cases hw

/-- The event loop only counts up: a timeline without negative durations stays one. -/
theorem nonnegTimeline_step {event : Event} (hcons : hd.consistent event db)
    (hnonneg : nonnegTimeline db) (h : hd.step inp db = (next, db')) : nonnegTimeline db' := by
  rcases Handler.step_db h with rfl | ⟨_, _, _, -, hupd⟩ | ⟨_, _, -, hupd⟩ |
    ⟨_, _, _, _, _, -, hupd⟩ | ⟨entry, rfl, hupd⟩ | ⟨entry, rfl, hins⟩
  · exact hnonneg
  · obtain ⟨_, -, rfl⟩ := Store.updateApp_eq_ok.mp hupd
    exact hnonneg
  · obtain ⟨_, -, rfl⟩ := Store.updateApp_eq_ok.mp hupd
    exact hnonneg
  · obtain ⟨_, -, rfl⟩ := Store.updateCheckpoint_eq_ok.mp hupd
    exact hnonneg
  · obtain ⟨timeline, htable, rfl⟩ := Store.updateTimeline_eq_ok.mp hupd
    have hentry := hnonneg entry hcons.1
    intro t ht
    obtain ⟨row, hrow, rfl⟩ := (Table.mem_update htable).mp ht
    split
    · show 0 ≤ entry.duration.getD 0 + 1
      omega
    · exact hnonneg row hrow
  · obtain ⟨-, -, -, hone⟩ := hcons
    obtain ⟨-, timeline, htable, rfl⟩ := Store.insertTimeline_eq_ok hins
    intro t ht
    rcases (Table.mem_insert htable).mp ht with ht | rfl
    · exact hnonneg t ht
    · rw [hone]
      decide

end

/-! ## Runs -/

/-- The database refuses no statement of the event loop, and no total overflows. -/
def undisturbed (s : Reading) : ReadingLabel → Prop
  | .read _ => ∀ a ∈ s.db.apps.rows, a.duration.getD 0 ≤ 2147483647
  | .handle inp => inp.err = none

/-- A tick that gets into the timeline of an app, after the apps have been read and before its
timeline is, was counted in the total that has been read. -/
def tickCounted (s : Reading) : ReadingLabel → Prop
  | .read _ => True
  | .handle _ =>
    match s.loop with
    | .idle => True
    | .handling (p, _) hd => hd.writesTimeline = true → ∀ app ∈ s.request.pending,
      app.name = some p → s.db.timelineDurationOf p < app.duration.getD 0

instance (s : Reading) (l : ReadingLabel) : Decidable (undisturbed s l) :=
  match l with
  | .read _ =>
    inferInstanceAs (Decidable (∀ a ∈ s.db.apps.rows, a.duration.getD 0 ≤ 2147483647))
  | .handle inp => inferInstanceAs (Decidable (inp.err = none))

instance (s : Reading) (l : ReadingLabel) : Decidable (tickCounted s l) := by
  unfold tickCounted
  cases l with
  | read inp => exact inferInstanceAs (Decidable True)
  | handle inp => cases s.loop <;> infer_instance

/-- A total that has been read and is not yet used covers the timeline. -/
def Covered (db : Store) (app : App) : Prop :=
  ∃ p ∈ db.appNames, app.name = some p ∧
    db.timelineDurationOf p ≤ app.duration.getD 0 ∧ app.duration.getD 0 ≤ 2147483647

structure SnapshotInvariant (s : Reading) : Prop where
  names : s.db.appNames.Nodup
  named : ∀ a ∈ s.db.apps.rows, ∃ p, a.name = some p ∧ p ≠ ""
  nonneg : nonnegTimeline s.db
  handler : ∀ event hd, s.loop = .handling event hd → hd.consistent event s.db
  ticks : Ticks (s.loop.unwritten ++ s.events)
  /-- also a handler that has made its write handles one of the two events -/
  kinds : ∀ event hd, s.loop = .handling event hd → event.2 = .duration ∨ event.2 = .timeline
  balanced : Balanced s.db (s.loop.unwritten ++ s.events)
  pending : ∀ app ∈ s.request.pending, Covered s.db app
  done : ∀ stats ∈ s.request.done, NestedStatistics stats

section
variable {env : Environment World} {s s' : Reading} {inp : Input}

theorem timelineDurationOf_nonneg {db : Store} (hnonneg : nonnegTimeline db) (p : String) :
    0 ≤ db.timelineDurationOf p := by
  unfold Store.timelineDurationOf
  cases db.findApp p with
  | none => exact le_rfl
  | some a =>
    rw [Option.map_some, Option.getD_some, Store.timelineSum_eq]
    refine List.sum_nonneg fun d hd => ?_
    obtain ⟨t, ht, rfl⟩ := List.mem_map.mp hd
    exact hnonneg t (Table.mem_all.mp ht).1

/-- The apps are read: the totals cover the timelines. -/
theorem covered_of_read (hinv : SnapshotInvariant s)
    (hmax : ∀ a ∈ s.db.apps.rows, a.duration.getD 0 ≤ 2147483647) {app : App}
    (happ : app ∈ s.db.appsById.filterMap (App.ofModel env.chrono)) : Covered s.db app := by
  obtain ⟨a, ha, hrecord⟩ := List.mem_filterMap.mp happ
  have hmem : a ∈ s.db.apps.rows := (List.perm_insertionSort _ _).mem_iff.mp ha
  obtain ⟨p, hname, hne⟩ := hinv.named a hmem
  have hp : p ∈ s.db.appNames := Store.mem_appNames.mpr ⟨a, hmem, hname⟩
  have hfind := Store.findApp_of_mem hinv.names hmem hname
  have hduration : s.db.durationOf p = a.duration.getD 0 := Store.columnOf_of_findApp _ hfind
  have hbalanced := hinv.balanced p hp
  rw [hduration] at hbalanced
  have hpos := timelineDurationOf_nonneg hinv.nonneg p
  have howed := owed_nonneg p (s.loop.unwritten ++ s.events)
  have hfits := hmax a hmem
  -- the duration is read back as it is in the row
  have happDuration : app.duration.getD 0 = a.duration.getD 0 := by
    rw [App.ofModel_eq] at hrecord
    obtain ⟨id, -, rfl⟩ := Option.map_eq_some_iff.mp hrecord
    show (a.duration.bind checkedI32).getD 0 = _
    cases hd : a.duration with
    | none => rfl
    | some d =>
      rw [hd, Option.getD_some] at hbalanced hfits
      rw [Option.bind_some, checkedI32, if_pos ⟨by omega, hfits⟩]
  refine ⟨p, hp, ?_, ?_, ?_⟩
  · rw [App.ofModel_name hrecord, hname, Option.filter_some, if_pos (by simpa using hne)]
  · rw [happDuration, hbalanced]
    omega
  · rw [happDuration]
    exact hfits

/-- The timeline of an app is read. -/
theorem nested_of_covered (hinv : SnapshotInvariant s) {app : App} (hcovered : Covered s.db app) :
    NestedStatistics (appStatistics env { db := s.db, now := inp.now } app) := by
  obtain ⟨p, hp, happ, hle, hmax⟩ := hcovered
  obtain ⟨a, ha, hname⟩ := Store.mem_appNames.mp hp
  rw [Store.timelineDurationOf_of_findApp (Store.findApp_of_mem hinv.names ha hname)] at hle
  exact nested_appStatistics hinv.names hinv.nonneg ha hname happ hle hmax

theorem snapshotInvariant_read (hinv : SnapshotInvariant s)
    (hok : undisturbed s (.read inp)) (h : (reading env).step s (.read inp) = some s') :
    SnapshotInvariant s' := by
  obtain ⟨request, hstep, rfl⟩ := Option.map_eq_some_iff.mp h
  have hrest : (∀ app ∈ request.pending, Covered s.db app) ∧
      ∀ stats ∈ request.done, NestedStatistics stats := by
    rcases GetStatistics.step_cases hstep with ⟨hpending, hdone⟩ | ⟨hpending, hdone⟩ |
      ⟨app, hpending, hdone⟩
    · rw [hpending, hdone]
      exact ⟨fun _ h => absurd h List.not_mem_nil, fun _ h => absurd h List.not_mem_nil⟩
    · rw [hpending, hdone]
      exact ⟨fun app happ => covered_of_read hinv hok happ, fun _ h => absurd h List.not_mem_nil⟩
    · have hcovered := hinv.pending
      rw [hpending] at hcovered
      refine ⟨fun app' happ' => hcovered app' (List.mem_cons_of_mem app happ'), ?_⟩
      rcases hdone with hdone | hdone
      · rw [hdone]
        exact hinv.done
      · rw [hdone]
        intro stats hstats
        rcases List.mem_append.mp hstats with hstats | hstats
        · exact hinv.done stats hstats
        · rw [List.mem_singleton.mp hstats]
          exact nested_of_covered hinv (hcovered app List.mem_cons_self)
  exact ⟨hinv.names, hinv.named, hinv.nonneg, hinv.handler, hinv.ticks, hinv.kinds, hinv.balanced,
    hrest.1, hrest.2⟩

/-- A statement of the event loop keeps the totals above the timelines. -/
theorem covered_of_handle {event : Event} {hd : Handler} {next : Option Handler} {db : Store}
    (hinv : SnapshotInvariant s) (hbusy : s.loop = .handling event hd)
    (hok : tickCounted s (.handle inp)) (hstep : hd.step inp s.db = (next, db))
    (hledgers : LedgerStep event hd next s.db db) (hnames : db.appNames = s.db.appNames)
    {app : App} (happ : app ∈ s.request.pending) : Covered db app := by
  obtain ⟨p, hp, hname, hle, hmax⟩ := hinv.pending app happ
  refine ⟨p, hnames ▸ hp, hname, ?_, hmax⟩
  cases hw : hd.writesTimeline with
  | false =>
    rw [timelineDurationOf_of_not_writes hw hstep]
    exact hle
  | true =>
    rcases hledgers.ledgers with ⟨-, happs, htimeline⟩ | ⟨-, -, happlied⟩
    · rw [Store.timelineDurationOf_congr happs htimeline]
      exact hle
    · rw [happlied.timeline p hp]
      by_cases hevent : event = (p, .timeline)
      · -- the tick that is written has been counted in the total before
        have hcounted : s.db.timelineDurationOf p < app.duration.getD 0 := by
          unfold tickCounted at hok
          rw [hbusy, hevent] at hok
          exact hok hw app happ hname
        rw [if_pos hevent]
        omega
      · rw [if_neg hevent, add_zero]
        exact hle

/-- The event loop neither adds an app nor renames one. -/
theorem snapshotNames_handle {loop : EventLoop} {events : List Event} {db : Store}
    (hinv : SnapshotInvariant s)
    (hstep : s.loop.step inp s.events s.db = some (loop, events, db)) :
    db.appNames = s.db.appNames ∧ ∀ a ∈ db.apps.rows, ∃ p, a.name = some p ∧ p ≠ "" := by
  have hidentities := EventLoop.step_identities hstep
  constructor
  · rw [Store.appNames_eq, Store.appNames_eq, hidentities]
  · intro a ha
    have hmem : (a.id, a.name) ∈ s.db.identities := by
      rw [← hidentities]
      exact Store.mem_identities.mpr ⟨a, ha, rfl, rfl⟩
    obtain ⟨a', ha', -, hname⟩ := Store.mem_identities.mp hmem
    rw [← hname]
    exact hinv.named a' ha'

/-- The next event is taken: it is the first of those still to be written. -/
theorem snapshotInvariant_take {event : Event} {events : List Event} (hinv : SnapshotInvariant s)
    (hidle : s.loop = .idle) (hevents : s.events = event :: events) :
    SnapshotInvariant { s with loop := .resume event (handle event), events } := by
  have hticks := hinv.ticks
  have hbalanced := hinv.balanced
  rw [hidle, hevents] at hticks hbalanced
  have hkind : event.2 = .duration ∨ event.2 = .timeline := hticks.kind
  cases hhandle : handle event with
  | none =>
    have hlongest := kind_of_handle_eq_none hhandle
    rcases hkind with hk | hk <;> rw [hk] at hlongest <;> cases hlongest
  | some hd =>
    obtain ⟨hcons, hw⟩ := consistent_of_handle hhandle
    have hunwritten : (EventLoop.resume event (some hd)).unwritten = [event] := by
      simp [EventLoop.resume, EventLoop.unwritten, hw]
    refine ⟨hinv.names, hinv.named, hinv.nonneg, ?_, ?_, ?_, ?_, hinv.pending, hinv.done⟩
    · intro event' hd' hloop
      cases hloop
      exact hcons
    · rw [hunwritten]
      exact hticks
    · intro event' hd' hloop
      cases hloop
      exact hkind
    · rw [hunwritten]
      exact hbalanced

/-- A statement of a handler: the ledgers are as far apart as before, or the event is written. -/
theorem balanced_of_ledgers {event : Event} {hd : Handler} {next : Option Handler} {db : Store}
    (hinv : SnapshotInvariant s) (hbusy : s.loop = .handling event hd)
    (hledgers : LedgerStep event hd next s.db db) (hnames : db.appNames = s.db.appNames) :
    Ticks ((EventLoop.resume event next).unwritten ++ s.events) ∧
      Balanced db ((EventLoop.resume event next).unwritten ++ s.events) := by
  have hticks := hinv.ticks
  have hbalanced := hinv.balanced
  rcases hledgers.ledgers with ⟨hunwritten, happs, htimeline⟩ | ⟨hw, hunwritten, happlied⟩
  · rw [hunwritten, ← hbusy]
    exact ⟨hticks, hbalanced.congr happs htimeline⟩
  · have hfirst : s.loop.unwritten ++ s.events = event :: s.events := by
      rw [hbusy, EventLoop.unwritten, hw]
      rfl
    rw [hfirst] at hticks hbalanced
    rw [hunwritten]
    exact ⟨hticks.tail, hbalanced.apply hticks happlied hnames⟩

theorem snapshotInvariant_handle (hinv : SnapshotInvariant s)
    (hok : undisturbed s (.handle inp) ∧ tickCounted s (.handle inp))
    (h : (reading env).step s (.handle inp) = some s') : SnapshotInvariant s' := by
  obtain ⟨⟨loop, events, db⟩, hstep, rfl⟩ := Option.map_eq_some_iff.mp h
  obtain ⟨hnames, hnamed⟩ := snapshotNames_handle hinv hstep
  rcases EventLoop.step_cases hstep with ⟨event, hidle, hevents, rfl, rfl⟩ |
    ⟨event, hd, next, hbusy, rfl, hnext, rfl⟩
  · exact snapshotInvariant_take hinv hidle hevents
  · have hcons := hinv.handler event hd hbusy
    have hkind := hinv.kinds event hd hbusy
    have hledgers := ledgerStep_of_tick hkind hcons hok.1 hnext
    obtain ⟨hticks, hbalanced⟩ := balanced_of_ledgers hinv hbusy hledgers hnames
    refine ⟨hnames ▸ hinv.names, hnamed, nonnegTimeline_step hcons hinv.nonneg hnext, ?_, hticks,
      ?_, hbalanced, fun app => covered_of_handle hinv hbusy hok.2 hnext hledgers hnames,
      hinv.done⟩
    · intro event' hd' hloop
      cases next with
      | none => cases hloop
      | some hd'' =>
        cases hloop
        exact hledgers.consistent _ rfl
    · intro event' hd' hloop
      cases next with
      | none => cases hloop
      | some hd'' =>
        cases hloop
        exact hkind

theorem snapshotInvariant_step (s : Reading) (l : ReadingLabel) (s' : Reading)
    (hinv : SnapshotInvariant s) (hok : undisturbed s l ∧ tickCounted s l)
    (h : (reading env).step s l = some s') : SnapshotInvariant s' := by
  cases l with
  | read inp => exact snapshotInvariant_read hinv hok.1 h
  | handle inp => exact snapshotInvariant_handle hinv hok h

end

/-- The request comes in while nothing is being handled, the channel holds the events of some
ticks, and for each app the two ledgers agree. -/
structure StartsReading (s : Reading) : Prop where
  request : s.request = .getAllApps
  loop : s.loop = .idle
  events : ∃ ps, s.events = eventsOfTicks ps
  names : s.db.appNames.Nodup
  named : ∀ a ∈ s.db.apps.rows, ∃ p, a.name = some p ∧ p ≠ ""
  nonneg : nonnegTimeline s.db
  agreed : ∀ p ∈ s.db.appNames, s.db.durationOf p = s.db.timelineDurationOf p

/-- **Statistics are a consistent snapshot** in every run in which each tick that gets into the
timeline of an app between the two reads was counted in the total that the first one has read. -/
theorem statistics_snapshot {env : Environment World} {s₀ s : Reading} {ls : List ReadingLabel}
    (hstart : StartsReading s₀)
    (hrun : (reading env).Runs (fun s l => undisturbed s l ∧ tickCounted s l) s₀ ls s) :
    ∀ stats ∈ s.request.done, NestedStatistics stats := by
  obtain ⟨ps, hevents⟩ := hstart.events
  have hwaiting : s₀.loop.unwritten ++ s₀.events = eventsOfTicks ps := by
    rw [hstart.loop, hevents]
    rfl
  have hidle : ∀ event hd, s₀.loop ≠ .handling event hd := fun event hd hloop => by
    rw [hstart.loop] at hloop
    cases hloop
  have hfirst : SnapshotInvariant s₀ := by
    refine ⟨hstart.names, hstart.named, hstart.nonneg, fun event hd hloop =>
      absurd hloop (hidle event hd), ⟨ps, .inl hwaiting⟩, fun event hd hloop =>
      absurd hloop (hidle event hd), fun p hp => ?_, ?_, ?_⟩
    · rw [hwaiting, owed_eventsOfTicks, add_zero]
      exact hstart.agreed p hp
    · rw [hstart.request]
      exact fun _ h => absurd h List.not_mem_nil
    · rw [hstart.request]
      exact fun _ h => absurd h List.not_mem_nil
  exact (hrun.invariant snapshotInvariant_step hfirst).done

/-! ## A tick during the request

The request comes in while a tick of the one app is waiting in the channel. -/

/-- The first request after the first tick of `a`. -/
def readingOfA : Reading := ⟨.getAllApps, .idle, eventsOfTicks ["a"], storeWithA⟩

/-- The event loop writes the duration before the apps are read, and the timeline after that. -/
def countedTick : List ReadingLabel :=
  List.replicate 4 (.handle {}) ++ [.read {}] ++ List.replicate 6 (.handle {}) ++ [.read {}]

/-- The event loop writes both after the apps have been read. -/
def missedTick : List ReadingLabel :=
  [.read {}] ++ List.replicate 10 (.handle {}) ++ [.read {}]

theorem startsReading_readingOfA : StartsReading readingOfA where
  request := rfl
  loop := rfl
  events := ⟨["a"], rfl⟩
  names := by decide
  named a ha := by
    have hrow : a = AddProcess.newApp "a" "a" 1 := List.mem_singleton.mp ha
    rw [hrow]
    exact ⟨"a", rfl, by decide⟩
  nonneg t ht := absurd ht List.not_mem_nil
  agreed p hp := by
    have hname : p = "a" := List.mem_singleton.mp hp
    rw [hname]
    decide

/-- The month of the answer is the tick that its total counts. -/
theorem statistics_snapshot_countedTick :
    ∃ s, (reading epochEnvironment).execWhere (fun s l => undisturbed s l ∧ tickCounted s l)
        readingOfA countedTick = some s ∧
      (s.request.done.map fun stats => (stats.monthDuration, stats.totalDuration)) = [(1, 1)] ∧
      ∀ stats ∈ s.request.done, NestedStatistics stats := by
  have hend : ((reading epochEnvironment).execWhere
      (fun s l => undisturbed s l ∧ tickCounted s l) readingOfA countedTick).map (fun s =>
        decide ((s.request.done.map fun stats => (stats.monthDuration, stats.totalDuration)) =
          [(1, 1)])) = some true := by
    set_option maxRecDepth 10000 in
    decide
  obtain ⟨s, hexec, hs⟩ := Option.map_eq_some_iff.mp hend
  exact ⟨s, hexec, of_decide_eq_true hs,
    statistics_snapshot startsReading_readingOfA (System.runs_of_execWhere hexec)⟩

/-- **The month is longer than the total**: the tick is in the timeline, and not in the total. -/
theorem statistics_torn :
    ¬ ∀ (env : Environment World) (s₀ s : Reading) (ls : List ReadingLabel), StartsReading s₀ →
      (reading env).Runs undisturbed s₀ ls s → ∀ stats ∈ s.request.done, NestedStatistics stats := by
  intro hall
  have hend : ((reading epochEnvironment).execWhere undisturbed readingOfA missedTick).map
      (fun s => decide (∃ stats ∈ s.request.done, stats.totalDuration < stats.monthDuration)) =
      some true := by
    set_option maxRecDepth 10000 in
    decide
  obtain ⟨s, hexec, hs⟩ := Option.map_eq_some_iff.mp hend
  obtain ⟨stats, hstats, hlt⟩ := of_decide_eq_true hs
  have hnested := hall epochEnvironment readingOfA s missedTick startsReading_readingOfA
    (System.runs_of_execWhere hexec) stats hstats
  exact absurd hnested.month (by omega)

end TimeTracker
