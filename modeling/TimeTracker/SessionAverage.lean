import TimeTracker.DurationSums
import TimeTracker.SessionLedger
import TimeTracker.Statistics

/-!
# The mean session

`calculate_app_statistics` divides the durations of the timeline rows by their number and calls the
quotient the average session; `get_session_count_for_app` counts the same rows. But the timeline
has a row for each day, not for each session, while `longest_session` and `launches` are kept for
each session.

* `sums_eq`: what is divided is the duration of the app and the number of its days.
* **`mean_session_iff`**: in every run, once the sessions of an app have ended, the number of rows
  is that of the sessions, and the mean is at most the longest session, exactly if the app has
  ticked on as many days as it had sessions.
* **`mean_session_of_twoSessions`**: two sessions on one day are taken for one, twice as long as the
  longest.
-/

namespace TimeTracker

/-! ## What is divided -/

/-- The sums `calculate_app_statistics` divides for `average_session_length`. -/
def sumsOf (env : Environment World) (w : World) (app : App) : DurationStatistics :=
  calculateDurationStatistics w.now.date
    ((w.db.timelineData app.name (w.now.date.subDays 30)).filterMap (Timeline.ofModel env.chrono))

/-- The numbers of an app are those of an `i32` column. -/
structure FitsI32 (db : Store) (a : Apps.Model) : Prop where
  duration : a.duration.getD 0 ≤ 2147483647
  rows : db.sessionCount a.id ≤ 2147483647
  entries : ∀ t ∈ db.timeline.all fun t => t.appId = a.id,
    checkedI32 t.id = some t.id ∧ t.duration.bind checkedI32 = t.duration

section
variable {env : Environment World} {w : World} {a : Apps.Model} {app : App} {p : String}

/-- Rows that fit all become records, with their durations. -/
theorem map_ofModel {rows : List Timeline.Model}
    (hfits : ∀ t ∈ rows, checkedI32 t.id = some t.id ∧ t.duration.bind checkedI32 = t.duration) :
    ((rows.filterMap (Timeline.ofModel env.chrono)).map fun entry => entry.duration.getD 0) =
      rows.map fun t => t.duration.getD 0 := by
  rw [List.map_filterMap, ← List.filterMap_eq_map']
  refine List.filterMap_congr fun t ht => ?_
  obtain ⟨hid, hduration⟩ := hfits t ht
  rw [Timeline.ofModel_eq, hid, Option.map_some, Option.map_some, hduration]

/-- **What is divided**: the durations of the rows of the app, and their number. -/
theorem sums_eq (hnodup : w.db.appNames.Nodup) (ha : a ∈ w.db.apps.rows) (hname : a.name = some p)
    (happ : app.name = some p)
    (hrecent : ∀ t ∈ w.db.timeline.all fun t => t.appId = a.id, w.now.date.subDays 30 ≤ t.date)
    (hfits : ∀ t ∈ w.db.timeline.all fun t => t.appId = a.id,
      checkedI32 t.id = some t.id ∧ t.duration.bind checkedI32 = t.duration) :
    (sumsOf env w app).total = asI32 (w.db.timelineSum a.id) ∧
      (sumsOf env w app).count = asI32 (w.db.sessionCount a.id) := by
  -- the query finds the rows of the app, all of them, in another order
  have hdata := timelineData_eq hnodup ha hname (w.now.date.subDays 30)
  rw [List.filter_eq_self.mpr fun t ht => decide_eq_true (hrecent t ht)] at hdata
  have hperm := List.perm_insertionSort (fun t t' : Timeline.Model => t'.date ≤ t.date)
    (w.db.timeline.all fun t => t.appId = a.id)
  rw [← hdata, ← happ] at hperm
  have hentries := ((hperm.filterMap (Timeline.ofModel env.chrono)).map
    fun entry => entry.duration.getD 0)
  rw [map_ofModel hfits] at hentries
  unfold sumsOf
  constructor
  · rw [calculateDurationStatistics_total, hentries.sum_eq, Store.timelineSum_eq]
  · rw [calculateDurationStatistics_count]
    have hlength := hentries.length_eq
    rw [List.length_map, List.length_map] at hlength
    rw [hlength]
    rfl

end

/-! ## The mean session -/

/-- What the statistics of an app, and its session count, say when it had this many sessions. -/
structure MeanSession (env : Environment World) (w : World) (p : String) (a : Apps.Model)
    (app : App) (sessions : Nat) : Prop where
  mean : (sumsOf env w app).total ≤ (sumsOf env w app).count * w.db.longestSessionOf p
  divided : (sumsOf env w app).count = sessions
  counted : (env.onTables.client.getSessionCountForApp a.id).run.run w = (.ok (sessions : Int), w)
  launches : w.db.launchesOf p = sessions

/-- In every run: what is divided for an app whose sessions have ended is its duration and the
number of its days. -/
theorem sums_of_run (env : Environment World) {c₀ c : Config} {ls : List Label} {p : String}
    {a : Apps.Model} {app : App} {now : NaiveDateTime} (hstart : StartsEmpty c₀)
    (hrun : tracker.Runs keepsNames c₀ ls c) (hended : c.sessionsEnded p)
    (happ : c.shared.db.findApp p = some a) (hp : p ≠ "")
    (hrecord : App.ofModel env.chrono a = some app)
    (hrecent : ∀ d ∈ tracker.history (tickedDays p) [] c₀ ls, now.date.subDays 30 ≤ d)
    (hfits : FitsI32 c.shared.db a) :
    (sumsOf env { db := c.shared.db, now } app).total = c.shared.db.durationOf p ∧
      (sumsOf env { db := c.shared.db, now } app).count = c.shared.db.sessionCount a.id ∧
      c.shared.db.sessionCount a.id = (tracker.history (tickedDays p) [] c₀ ls).length := by
  obtain ⟨hinv, hdays⟩ := sessionLedger_of_run (p := p) hstart hrun
  obtain ⟨ha, hname⟩ := Store.findApp_eq_some happ
  have hmem : p ∈ c.shared.db.appNames := Store.mem_appNames.mpr ⟨a, ha, hname⟩
  have hid : c.shared.db.idOf p = some a.id := by rw [Store.idOf, happ, Option.map_some]
  have hrecordName : app.name = some p := by
    rw [App.ofModel_name hrecord, hname, Option.filter_some, if_pos]
    simpa using hp
  -- the rows of the app are on its days
  have hrows : ∀ t ∈ c.shared.db.timeline.all fun t => t.appId = a.id,
      now.date.subDays 30 ≤ t.date := fun t ht =>
    hrecent _ ((mem_days_iff hinv hdays hended hid t.date).mpr (List.mem_map_of_mem ht))
  obtain ⟨htotal, hcount⟩ : (sumsOf env { db := c.shared.db, now } app).total =
        asI32 (c.shared.db.timelineSum a.id) ∧
      (sumsOf env { db := c.shared.db, now } app).count =
        asI32 (c.shared.db.sessionCount a.id) :=
    sums_eq hinv.names ha hname hrecordName hrows hfits.entries
  have hduration : c.shared.db.durationOf p = a.duration.getD 0 :=
    Store.columnOf_of_findApp _ happ
  have hsum : c.shared.db.timelineSum a.id = c.shared.db.durationOf p := by
    rw [← Store.timelineDurationOf_of_findApp happ, timelineDurationOf_eq hinv hended hmem]
  refine ⟨?_, ?_, length_days_eq hinv hdays hended hid⟩
  · rw [htotal, hsum, asI32_of_le (hinv.ledger.books.nonneg p hmem)]
    rw [hduration]
    exact hfits.duration
  · rw [hcount, asI32_of_le (by omega)]
    exact_mod_cast hfits.rows

/-- **The mean session** is at most the longest one, and the sessions are counted, if and only if
the app has ticked on as many days as it had sessions: once the sessions have ended, in every run
of the scanner, the workers, the event loop and the `add_process` calls. -/
theorem mean_session_iff (env : Environment World) {c₀ c : Config} {ls : List Label} {p : String}
    {a : Apps.Model} {app : App} {now : NaiveDateTime} (hstart : StartsEmpty c₀)
    (hrun : tracker.Runs keepsNames c₀ ls c) (hended : c.sessionsEnded p)
    (happ : c.shared.db.findApp p = some a) (hp : p ≠ "")
    (hrecord : App.ofModel env.chrono a = some app)
    (hrecent : ∀ d ∈ tracker.history (tickedDays p) [] c₀ ls, now.date.subDays 30 ≤ d)
    (hfits : FitsI32 c.shared.db a) :
    MeanSession env { db := c.shared.db, now } p a app (sessionsOf p c.workers) ↔
      (tracker.history (tickedDays p) [] c₀ ls).length = sessionsOf p c.workers := by
  obtain ⟨htotal, hcount, hlength⟩ :=
    sums_of_run env hstart hrun hended happ hp hrecord hrecent hfits
  constructor
  · intro hmean
    have hdivided := hmean.divided
    rw [hcount] at hdivided
    have hsame : c.shared.db.sessionCount a.id = sessionsOf p c.workers := by
      exact_mod_cast hdivided
    rw [← hlength, hsame]
  · intro hsame
    obtain ⟨hinv, -⟩ := sessionLedger_of_run (p := p) hstart hrun
    have hmem : p ∈ c.shared.db.appNames :=
      Store.mem_appNames.mpr ⟨a, Store.findApp_eq_some happ⟩
    have hsessions : c.shared.db.sessionCount a.id = sessionsOf p c.workers := hlength.trans hsame
    have hfitsDuration : c.shared.db.durationOf p ≤ 2147483647 := by
      rw [Store.durationOf, Store.columnOf_of_findApp _ happ]
      exact hfits.duration
    refine ⟨?_, ?_, ?_, launchesOf_eq hinv hended hmem⟩
    · rw [htotal, hcount, hsessions]
      exact durationOf_le hinv hended hmem hfitsDuration
    · rw [hcount, hsessions]
    · have hfitsRows := hfits.rows
      rw [getSessionCountForApp_run _ _ rfl]
      show (Except.ok (asI32 (c.shared.db.sessionCount a.id)), _) = _
      rw [asI32_of_le (by omega) (by exact_mod_cast hfitsRows), hsessions]

/-! ## One session and two

On one day, of one app. -/

/-- A session of `a` that ticks once, of the worker `k`; its events take `n` statements. -/
def sessionOfA (k n : Nat) : List Label :=
  scanA [⟨"a", false⟩] ++ [.scan {}, .spawn] ++ List.replicate 8 (.work k {}) ++ scanA [] ++
    List.replicate 5 (.work k {}) ++ List.replicate n (.handle {})

theorem startsEmpty_storeWithA : StartsEmpty (.initial .linux storeWithA []) := by
  have hnames : storeWithA.appNames = ["a"] := rfl
  have hall : ∀ q : String → Prop, q "a" → ∀ p ∈ storeWithA.appNames, q p := by
    intro q hq p hp
    rw [hnames, List.mem_singleton] at hp
    exact hp ▸ hq
  have hagreed : StartsAgreed (.initial .linux storeWithA []) := by
    refine ⟨hall _ (by decide), fun t ht => absurd ht List.not_mem_nil,
      fun p => mem_processMap_initial, rfl, rfl, fun w hw => absurd hw List.not_mem_nil, rfl, rfl,
      fun call hcall => absurd hcall List.not_mem_nil, hall _ ?_, hall _ ?_⟩
    · show storeWithA.durationOf "a" = storeWithA.timelineDurationOf "a"
      decide
    · show storeWithA.longestSessionOf "a" ≤ storeWithA.durationOf "a"
      decide
  refine ⟨hagreed, by decide, rfl, hall _ ?_, hall _ ?_, rfl, rfl,
    fun call hcall => absurd hcall List.not_mem_nil⟩
  · show storeWithA.durationOf "a" = 0
    decide
  · show storeWithA.launchesOf "a" = 0
    decide

/-- The row of `a` after this many sessions of one tick. -/
def appAfterSessions (n : Nat) : Apps.Model :=
  { AddProcess.newApp "a" "a" 1 with
    duration := some n
    launches := some n
    longestSession := some 1
    longestSessionOn := some NaiveDateTime.unixEpoch.date }

/-- The row of the day after them. -/
def rowAfterSessions (n : Nat) : Timeline.Model :=
  ⟨1, NaiveDateTime.unixEpoch.date, some n, 1, none⟩

/-- The state after this many sessions of `a`, all on 1 January 1970. -/
structure AfterSessions (n : Nat) (c : Config) : Prop where
  app : c.shared.db.findApp "a" = some (appAfterSessions n)
  timeline : c.shared.db.timeline.rows = [rowAfterSessions n]
  workers : c.workers = List.replicate n ⟨"a", 1, .finished⟩
  unwritten : unwritten c = []

instance (n : Nat) (c : Config) : Decidable (AfterSessions n c) :=
  decidable_of_iff (c.shared.db.findApp "a" = some (appAfterSessions n) ∧
      c.shared.db.timeline.rows = [rowAfterSessions n] ∧
      c.workers = List.replicate n ⟨"a", 1, .finished⟩ ∧ unwritten c = [])
    ⟨fun h => ⟨h.1, h.2.1, h.2.2.1, h.2.2.2⟩, fun h => ⟨h.app, h.timeline, h.workers, h.unwritten⟩⟩

section
variable {n : Nat} {c : Config}

theorem AfterSessions.ended (hafter : AfterSessions n c) : c.sessionsEnded "a" where
  workers w hw _ := by
    rw [hafter.workers] at hw
    rw [List.eq_of_mem_replicate hw]
  events e he := by
    rw [hafter.unwritten] at he
    cases he

theorem AfterSessions.fitsI32 (hafter : AfterSessions n c) (hn : n ≤ 2147483647) :
    FitsI32 c.shared.db (appAfterSessions n) := by
  have hall : (c.shared.db.timeline.all fun t => t.appId = (appAfterSessions n).id) =
      [rowAfterSessions n] := by
    unfold Table.all
    rw [hafter.timeline]
    rfl
  refine ⟨?_, ?_, fun t ht => ?_⟩
  · show (n : Int) ≤ 2147483647
    omega
  · unfold Store.sessionCount
    rw [hall, List.length_singleton]
    omega
  · rw [hall, List.mem_singleton] at ht
    rw [ht]
    refine ⟨rfl, ?_⟩
    show checkedI32 n = some (n : Int)
    unfold checkedI32
    rw [if_pos (by omega)]

theorem exists_record (n : Nat) :
    ∃ app, App.ofModel epochEnvironment.chrono (appAfterSessions n) = some app := by
  rw [App.ofModel_eq]
  exact ⟨_, rfl⟩

theorem recent_of_days {days : List NaiveDate} (hdays : days = [NaiveDateTime.unixEpoch.date]) :
    ∀ d ∈ days, NaiveDateTime.unixEpoch.date.subDays 30 ≤ d := by
  intro d hd
  rw [hdays, List.mem_singleton] at hd
  rw [hd]
  exact NaiveDate.subDays_le _ _

end

/-- One session is one row. -/
theorem mean_session_of_oneSession :
    ∃ c app, tracker.execWhere keepsNames (.initial .linux storeWithA []) (sessionOfA 0 17) =
        some c ∧
      MeanSession epochEnvironment { db := c.shared.db, now := .unixEpoch } "a"
        (appAfterSessions 1) app 1 := by
  have hend : (tracker.execWhere keepsNames (.initial .linux storeWithA []) (sessionOfA 0 17)).map
      (fun c => decide (AfterSessions 1 c)) = some true := by
    decide
  obtain ⟨c, hexec, hc⟩ := Option.map_eq_some_iff.mp hend
  have hafter := of_decide_eq_true hc
  obtain ⟨app, hrecord⟩ := exists_record 1
  have hdays : tracker.history (tickedDays "a") [] (.initial .linux storeWithA [])
      (sessionOfA 0 17) = [NaiveDateTime.unixEpoch.date] := by
    decide
  have hsessions : sessionsOf "a" c.workers = 1 := by
    rw [hafter.workers]
    decide
  have hsame : (tracker.history (tickedDays "a") [] (.initial .linux storeWithA [])
      (sessionOfA 0 17)).length = sessionsOf "a" c.workers := by
    rw [hdays, hsessions]
    rfl
  have hmean := (mean_session_iff epochEnvironment startsEmpty_storeWithA
    (Transition.System.runs_of_execWhere hexec) hafter.ended hafter.app (by decide) hrecord
    (recent_of_days hdays) (hafter.fitsI32 (by decide))).mpr hsame
  rw [hsessions] at hmean
  exact ⟨c, app, hexec, hmean⟩

/-- **Two sessions on one day**: the one row lasts two ticks, and no session was longer than one. -/
theorem mean_session_of_twoSessions :
    ¬ ∀ (c₀ c : Config) (ls : List Label) (p : String) (a : Apps.Model) (app : App)
      (now : NaiveDateTime), StartsEmpty c₀ → tracker.Runs keepsNames c₀ ls c →
      c.sessionsEnded p → c.shared.db.findApp p = some a → p ≠ "" →
      App.ofModel epochEnvironment.chrono a = some app →
      (∀ d ∈ tracker.history (tickedDays p) [] c₀ ls, now.date.subDays 30 ≤ d) →
      FitsI32 c.shared.db a →
      MeanSession epochEnvironment { db := c.shared.db, now } p a app
        (sessionsOf p c.workers) := by
  intro hall
  have hend : (tracker.execWhere keepsNames (.initial .linux storeWithA [])
      (sessionOfA 0 17 ++ sessionOfA 1 14)).map (fun c => decide (AfterSessions 2 c)) =
      some true := by
    decide
  obtain ⟨c, hexec, hc⟩ := Option.map_eq_some_iff.mp hend
  have hafter := of_decide_eq_true hc
  obtain ⟨app, hrecord⟩ := exists_record 2
  have hdays : tracker.history (tickedDays "a") [] (.initial .linux storeWithA [])
      (sessionOfA 0 17 ++ sessionOfA 1 14) = [NaiveDateTime.unixEpoch.date] := by
    decide
  have hrecent := recent_of_days hdays
  have hrun := Transition.System.runs_of_execWhere hexec
  have hfits := hafter.fitsI32 (by decide)
  have hmean := (hall _ c _ "a" _ app .unixEpoch startsEmpty_storeWithA hrun hafter.ended
    hafter.app (by decide) hrecord hrecent hfits).mean
  obtain ⟨htotal, hcount, hlength⟩ := sums_of_run epochEnvironment startsEmpty_storeWithA hrun
    hafter.ended hafter.app (by decide) hrecord hrecent hfits
  have hduration : c.shared.db.durationOf "a" = 2 := by
    rw [Store.durationOf, Store.columnOf_of_findApp _ hafter.app]
    rfl
  have hlongest : c.shared.db.longestSessionOf "a" = 1 := by
    rw [Store.longestSessionOf, Store.columnOf_of_findApp _ hafter.app]
    rfl
  have hone : c.shared.db.sessionCount (appAfterSessions 2).id = 1 := by
    rw [hlength, hdays]
    rfl
  rw [htotal, hcount, hduration, hone] at hmean
  have hle : (2 : Int) ≤ ((1 : Nat) : Int) * 1 := hlongest ▸ hmean
  omega

end TimeTracker
