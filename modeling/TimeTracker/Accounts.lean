import Mathlib.Logic.Function.Basic
import TimeTracker.LongestSession

/-!
# The account of an app

What a storage backend accounts for, whatever it stores it in: three totals of an app and its time
on each day. The events of the channel are recorded in it one after the other.

* `Account` and `Account.record`: an account, and what an event does to it.
* `Sent`: an event as a session worker sends it, the text of its item apart.
* `Account.after`: an account after a sequence of events, each with the day it is recorded on.
* `onTime`: what the runs are about: no request fails, and each event has its day.
* **`eventLoop_accounts`**: the event loop of the SeaORM client keeps the accounts of the apps in
  its tables, whatever apps the events are about.
-/

namespace TimeTracker

open Transition

/-! ## Accounts -/

/-- The totals an account holds. -/
inductive Total where
  | duration
  | launches
  | longestSession
deriving DecidableEq

/-- What is accounted for an app. -/
@[ext] structure Account where
  total : Total → Int
  day : NaiveDate → Int

/-- An event as it is sent: its app, its kind and, for `LongestSession`, the length of the session.
A name with a semicolon would not be read back, nor would a length that is no `i32`. -/
structure Sent where
  name : String
  kind : ReceiveTypes
  counter : Nat
  plain : ';' ∉ name.toList
  fits : counter ≤ 2147483647

/-- The item of the channel. -/
def Sent.event (sent : Sent) : Event :=
  match sent.kind with
  | .longestSession => (sessionItem sent.name sent.counter, .longestSession)
  | kind => (sent.name, kind)

namespace Account

/-- An account with a total set. -/
def setTotal (a : Account) (t : Total) (v : Int) : Account :=
  { a with total := Function.update a.total t v }

/-- An account with the time of a day set. -/
def setDay (a : Account) (d : NaiveDate) (v : Int) : Account :=
  { a with day := Function.update a.day d v }

@[simp] theorem setTotal_total (a : Account) (t : Total) (v : Int) :
    (a.setTotal t v).total = Function.update a.total t v := rfl

@[simp] theorem setTotal_day (a : Account) (t : Total) (v : Int) :
    (a.setTotal t v).day = a.day := rfl

@[simp] theorem setDay_total (a : Account) (d : NaiveDate) (v : Int) :
    (a.setDay d v).total = a.total := rfl

@[simp] theorem setDay_day (a : Account) (d : NaiveDate) (v : Int) :
    (a.setDay d v).day = Function.update a.day d v := rfl

/-- What an event does to the account of its app. -/
def record (sent : Sent) (today : NaiveDate) (a : Account) : Account :=
  match sent.kind with
  | .longestSession => a.setTotal .longestSession (max (a.total .longestSession) sent.counter)
  | .duration => a.setTotal .duration (a.total .duration + 1)
  | .launches => a.setTotal .launches (a.total .launches + 1)
  | .timeline => a.setDay today (a.day today + 1)

/-- The account of `p` after the events of a channel; `day k` is the day on which the event is
recorded that `k` events come after. -/
def after (day : Nat → NaiveDate) (p : String) : List Sent → Account → Account
  | [], a => a
  | sent :: rest, a =>
    after day p rest (if sent.name = p then a.record sent (day rest.length) else a)

/-- Accounts, entry by entry. -/
instance : LE Account := ⟨fun a b => (∀ t, a.total t ≤ b.total t) ∧ ∀ d, a.day d ≤ b.day d⟩

instance : Preorder Account where
  le_refl a := ⟨fun t => Int.le_refl (a.total t), fun d => Int.le_refl (a.day d)⟩
  le_trans _ _ _ hab hbc :=
    ⟨fun t => Int.le_trans (hab.1 t) (hbc.1 t), fun d => Int.le_trans (hab.2 d) (hbc.2 d)⟩

theorem le_setTotal {a : Account} {t : Total} {v : Int} (hv : a.total t ≤ v) :
    a ≤ a.setTotal t v :=
  ⟨le_update_self_iff.mpr hv, fun d => Int.le_refl (a.day d)⟩

/-- An event takes nothing away. -/
theorem le_record (sent : Sent) (today : NaiveDate) (a : Account) : a ≤ a.record sent today := by
  unfold record
  cases sent.kind with
  | longestSession =>
    apply le_setTotal
    exact le_max_left _ _
  | duration =>
    apply le_setTotal
    omega
  | launches =>
    apply le_setTotal
    omega
  | timeline =>
    have hday : a.day today ≤ a.day today + 1 := by omega
    exact ⟨fun t => Int.le_refl (a.total t), le_update_self_iff.mpr hday⟩

/-- Nor does any sequence of events. -/
theorem le_after (day : Nat → NaiveDate) (p : String) (waiting : List Sent) (a : Account) :
    a ≤ a.after day p waiting := by
  induction waiting generalizing a with
  | nil => exact le_refl a
  | cons sent rest ih =>
    apply le_trans _ (ih _)
    split
    · exact le_record sent _ a
    · exact le_refl a

end Account

/-! ## The accounts in the tables -/

/-- The column of `apps` that holds a total. -/
def Total.column : Total → Apps.Model → Option Int
  | .duration => Apps.Model.duration
  | .launches => Apps.Model.launches
  | .longestSession => Apps.Model.longestSession

/-- The total a counting handler counts in. -/
def Counter.total : Counter → Total
  | .duration => .duration
  | .launches => .launches

namespace Store

/-- The durations of the timeline rows of an app id and a day, summed up. -/
def daySum (db : Store) (appId : Int) (d : NaiveDate) : Int :=
  db.timeline.sumBy fun t => if t.appId = appId ∧ t.date = d then t.duration.getD 0 else 0

/-- What the tables account for the app named `p`. -/
def accountOf (db : Store) (p : String) : Account where
  total t := db.columnOf t.column p
  day d := ((db.idOf p).map fun appId => db.daySum appId d).getD 0

section
variable {db db' : Store} {p : String} {app : Apps.Model}

theorem accountOf_congr (happs : db'.apps = db.apps) (htimeline : db'.timeline = db.timeline)
    (q : String) : db'.accountOf q = db.accountOf q := by
  have hid : db'.idOf q = db.idOf q := by
    rw [idOf, findApp_congr happs, idOf]
  ext x
  · exact columnOf_congr happs
  · simp only [accountOf, hid, daySum, htimeline]

/-- An update of one column of an app sets one total of its account. -/
theorem accountOf_updateApp {set : Apps.Model → Apps.Model}
    {hset : ∀ a, Keyed.key (set a) = Keyed.key a} {t : Total} {v : Int}
    (happ : db.findApp p = some app) (h : db.updateApp app.id set hset = .ok db')
    (hname : ∀ a, (set a).name = a.name)
    (hcolumn : ∀ t', (t'.column (set app)).getD 0 =
      if t' = t then v else (t'.column app).getD 0) (q : String) :
    db'.accountOf q = if p = q then (db.accountOf q).setTotal t v else db.accountOf q := by
  have hday : (db'.accountOf q).day = (db.accountOf q).day := by
    have htimeline := timeline_updateApp h
    funext d
    simp only [accountOf, idOf_congr (identities_updateApp h hname), daySum, htimeline]
  have htotal : ∀ t', (db'.accountOf q).total t' =
      if q = p then (t'.column (set app)).getD 0 else (db.accountOf q).total t' :=
    fun t' => columnOf_updateApp t'.column happ h hname q
  by_cases hq : p = q
  · subst hq
    rw [if_pos rfl]
    ext x
    · rw [htotal, if_pos rfl, hcolumn]
      rw [Account.setTotal_total]
      by_cases hx : x = t
      · rw [hx, if_pos rfl, Function.update_self]
      · rw [if_neg hx, Function.update_of_ne hx]
        exact (columnOf_of_findApp x.column happ).symm
    · rw [hday, Account.setTotal_day]
  · rw [if_neg hq]
    ext x
    · rw [htotal, if_neg (Ne.symm hq)]
    · rw [hday]

/-- One more in a row of the timeline is one more on its day in the account of its app. -/
theorem accountOf_of_daySum {appId : Int} {today : NaiveDate} (happs : db'.apps = db.apps)
    (hid : db.idOf p = some appId)
    (hsum : ∀ i d, db'.daySum i d = db.daySum i d + if appId = i ∧ today = d then 1 else 0)
    (q : String) :
    db'.accountOf q =
      if p = q then (db.accountOf q).setDay today ((db.accountOf q).day today + 1)
      else db.accountOf q := by
  have hids : db'.idOf q = db.idOf q := by
    rw [idOf, findApp_congr happs, idOf]
  have hday : ∀ d, (db'.accountOf q).day d =
      (db.accountOf q).day d + if p = q ∧ today = d then 1 else 0 := by
    intro d
    simp only [accountOf, hids]
    by_cases hq : p = q
    · subst hq
      simp only [hid, Option.map_some, Option.getD_some, hsum, true_and]
    · rw [if_neg (fun h => hq h.1), Int.add_zero]
      obtain ⟨app, happ, rfl⟩ := Option.map_eq_some_iff.mp hid
      cases hfind : db.findApp q with
      | none => simp only [idOf, hfind, Option.map_none]
      | some a =>
        have hne : app.id ≠ a.id := Ne.symm (id_ne_of_findApp happ hfind (Ne.symm hq))
        simp only [idOf, hfind, Option.map_some, Option.getD_some, hsum]
        rw [if_neg (fun h => hne h.1), Int.add_zero]
  have htotal : (db'.accountOf q).total = (db.accountOf q).total :=
    funext fun t => columnOf_congr happs
  by_cases hq : p = q
  · rw [if_pos hq]
    ext x
    · rw [htotal, Account.setDay_total]
    · rw [hday, Account.setDay_day]
      by_cases hx : x = today
      · subst hx
        rw [if_pos ⟨hq, rfl⟩, Function.update_self]
      · rw [if_neg (fun h => hx h.2.symm), Int.add_zero, Function.update_of_ne hx]
  · rw [if_neg hq]
    ext x
    · rw [htotal]
    · rw [hday, if_neg (fun h => hq h.1), Int.add_zero]

end

end Store

/-! ## The handler of an event -/

/-- The event is recorded: in the account of its app, if that is there, and in no other. -/
def Recorded (sent : Sent) (today : NaiveDate) (db db' : Store) : Prop :=
  ∀ p ∈ db.appNames, db'.accountOf p =
    if sent.name = p then (db.accountOf p).record sent today else db.accountOf p

/-- The handler is on the way to the write that records its event. -/
def Handler.records (sent : Sent) (today : NaiveDate) (db : Store) : Handler → Prop
  | .longestFindApp p n => sent.kind = .longestSession ∧ p = sent.name ∧ n = sent.counter
  | .longestUpdateApp app n _ =>
    sent.kind = .longestSession ∧ db.findApp sent.name = some app ∧ n = sent.counter ∧
      app.longestSession.getD 0 < n
  | .countFindApp counter item => sent.kind = counter.kind ∧ item = sent.name
  | .countUpdateApp counter app => sent.kind = counter.kind ∧ db.findApp sent.name = some app
  | .timelineFindApp item => sent.kind = .timeline ∧ item = sent.name
  | .timelineFindEntry appId date | .timelineMaxId appId date =>
    sent.kind = .timeline ∧ db.idOf sent.name = some appId ∧ date = today
  | .timelineUpdate entry =>
    sent.kind = .timeline ∧ db.idOf sent.name = some entry.appId ∧ entry.date = today ∧
      entry ∈ db.timeline.rows
  | .timelineFirstCheckpoint appId date nextId =>
    sent.kind = .timeline ∧ db.idOf sent.name = some appId ∧ date = today ∧
      nextId ∉ db.timeline.keys
  | .timelineInsert entry =>
    sent.kind = .timeline ∧ db.idOf sent.name = some entry.appId ∧ entry.date = today ∧
      entry.id ∉ db.timeline.keys ∧ (∀ c ∈ entry.checkpointId, c ∈ db.checkpoints.keys) ∧
      entry.duration = some 1
  -- the loop over the checkpoints comes after the write
  | _ => False

/-- What a statement of a handler that records its event can do. -/
inductive RecordStep (sent : Sent) (today : NaiveDate) (db : Store) :
    Option Handler → Store → Prop where
  | read {hd : Handler} (hrec : hd.records sent today db) : RecordStep sent today db (some hd) db
  | recorded {next : Option Handler} {db' : Store}
      (hwritten : ∀ hd, next = some hd → hd.written = true)
      (hrec : Recorded sent today db db') : RecordStep sent today db next db'

section
variable {inp : Input} {sent : Sent} {today : NaiveDate} {hd : Handler} {next : Option Handler}
  {db db' : Store} {app : Apps.Model} {appId : Int}

/-- The handler of an event starts on the way to its write. -/
theorem records_of_handle (sent : Sent) (today : NaiveDate) (db : Store) :
    ∃ hd, handle sent.event = some hd ∧ hd.records sent today db := by
  cases hkind : sent.kind with
  | longestSession =>
    refine ⟨.longestFindApp sent.name sent.counter, ?_, hkind, rfl, rfl⟩
    simp only [Sent.event, hkind, handle]
    rw [handleLongestSession_sessionItem sent.plain, if_pos sent.fits]
  | duration =>
    refine ⟨.countFindApp .duration sent.name, ?_, hkind, rfl⟩
    simp only [Sent.event, hkind, handle, handleDuration]
  | launches =>
    refine ⟨.countFindApp .launches sent.name, ?_, hkind, rfl⟩
    simp only [Sent.event, hkind, handle, handleLaunches]
  | timeline =>
    refine ⟨.timelineFindApp sent.name, ?_, hkind, rfl⟩
    simp only [Sent.event, hkind, handle, handleTimeline]

/-- Nothing is recorded of an app that is not there. -/
theorem recorded_of_missing (today : NaiveDate) (h : db.findApp sent.name = none) :
    Recorded sent today db db := by
  intro p hp
  obtain ⟨app, happ⟩ := Store.findApp_isSome hp
  have hne : sent.name ≠ p := fun heq => by rw [heq, happ] at h; cases h
  rw [if_neg hne]

/-- The handler ends with its event recorded. -/
theorem recordStep_end (hrec : Recorded sent today db db') : RecordStep sent today db none db' :=
  .recorded (by intro _ h; cases h) hrec

/-- `handle_longest_session`: the app is looked up. -/
theorem recordStep_longestFindApp {p : String} {n : Int}
    (hrec : (Handler.longestFindApp p n).records sent today db) (herr : inp.err = none)
    (h : (Handler.longestFindApp p n).step inp db = (next, db')) :
    RecordStep sent today db next db' := by
  obtain ⟨hkind, rfl, rfl⟩ := hrec
  simp only [Handler.step, Input.statement_of_none herr] at h
  cases happ : db.findApp sent.name with
  | none =>
    rw [happ] at h
    cases h
    exact recordStep_end (recorded_of_missing today happ)
  | some app =>
    rw [happ] at h
    simp only [afterLongestFind] at h
    split at h
    · next hlonger =>
      cases h
      exact .read ⟨hkind, happ, rfl, hlonger⟩
    · next hle =>
      cases h
      -- the maximum is the one that is there
      refine recordStep_end fun p _ => ?_
      by_cases hp : sent.name = p
      · subst hp
        have hlongest : (db.accountOf sent.name).total .longestSession =
            app.longestSession.getD 0 := Store.columnOf_of_findApp _ happ
        have hmax : max ((db.accountOf sent.name).total .longestSession) (sent.counter : Int) =
            (db.accountOf sent.name).total .longestSession := by
          rw [hlongest]
          omega
        rw [if_pos rfl, Account.record, hkind]
        show _ = (db.accountOf sent.name).setTotal _ _
        rw [hmax]
        ext x
        · rw [Account.setTotal_total, Function.update_eq_self]
        · rfl
      · rw [if_neg hp]

/-- `handle_longest_session`: the new maximum is written. -/
theorem recordStep_longestUpdateApp {n : Int} {date : NaiveDate}
    (hrec : (Handler.longestUpdateApp app n date).records sent today db) (herr : inp.err = none)
    (h : (Handler.longestUpdateApp app n date).step inp db = (next, db')) :
    RecordStep sent today db next db' := by
  obtain ⟨hkind, happ, rfl, hlonger⟩ := hrec
  obtain ⟨db'', hupd⟩ : ∃ db'', db.updateApp app.id (setLongestSession sent.counter date)
      (fun _ => rfl) = .ok db'' := Store.updateApp_isOk _ happ
  simp only [Handler.step, Input.statement_of_none herr, hupd] at h
  cases h
  refine recordStep_end fun p _ => ?_
  have hcolumn : ∀ t : Total, (t.column (setLongestSession sent.counter date app)).getD 0 =
      if t = .longestSession then (sent.counter : Int) else (t.column app).getD 0 := by
    intro t
    cases t <;> rfl
  rw [Store.accountOf_updateApp happ hupd (fun _ => rfl) hcolumn]
  by_cases hp : sent.name = p
  · subst hp
    have hlongest : (db.accountOf sent.name).total .longestSession =
        app.longestSession.getD 0 := Store.columnOf_of_findApp _ happ
    rw [if_pos rfl, if_pos rfl, Account.record, hkind]
    show _ = (db.accountOf sent.name).setTotal _ _
    rw [hlongest, max_eq_right hlonger.le]
  · rw [if_neg hp, if_neg hp]

/-- `handle_duration` and `handle_launches`: the app is looked up. -/
theorem recordStep_countFindApp {counter : Counter} {item : String}
    (hrec : (Handler.countFindApp counter item).records sent today db) (herr : inp.err = none)
    (h : (Handler.countFindApp counter item).step inp db = (next, db')) :
    RecordStep sent today db next db' := by
  obtain ⟨hkind, rfl⟩ := hrec
  simp only [Handler.step, Input.statement_of_none herr] at h
  cases happ : db.findApp sent.name with
  | none =>
    rw [happ] at h
    cases h
    exact recordStep_end (recorded_of_missing today happ)
  | some app =>
    rw [happ] at h
    cases h
    exact .read ⟨hkind, happ⟩

/-- `handle_duration` and `handle_launches`: the counter is written. -/
theorem recordStep_countUpdateApp {counter : Counter}
    (hrec : (Handler.countUpdateApp counter app).records sent today db) (herr : inp.err = none)
    (h : (Handler.countUpdateApp counter app).step inp db = (next, db')) :
    RecordStep sent today db next db' := by
  obtain ⟨hkind, happ⟩ := hrec
  obtain ⟨db'', hupd⟩ := Store.updateApp_isOk
    (counter.setApp_id ((counter.ofApp app).getD 0 + 1)) happ
  simp only [Handler.step, Input.statement_of_none herr, hupd] at h
  cases h
  refine .recorded (fun hd hnext => ?_) fun p _ => ?_
  · cases hnext
    cases counter <;> rfl
  · have hcolumn : ∀ t : Total,
        (t.column (counter.setApp ((counter.ofApp app).getD 0 + 1) app)).getD 0 =
          if t = counter.total then (counter.ofApp app).getD 0 + 1 else (t.column app).getD 0 := by
      intro t
      cases t <;> cases counter <;> rfl
    rw [Store.accountOf_updateApp happ hupd (counter.setApp_name _) hcolumn]
    by_cases hp : sent.name = p
    · subst hp
      have hcount : (db.accountOf sent.name).total counter.total =
          (counter.ofApp app).getD 0 := by
        cases counter <;> exact Store.columnOf_of_findApp _ happ
      rw [if_pos rfl, if_pos rfl, Account.record, hkind, ← hcount]
      cases counter <;> rfl
    · rw [if_neg hp, if_neg hp]

/-- `handle_timeline`: the app is looked up. -/
theorem recordStep_timelineFindApp {item : String}
    (hrec : (Handler.timelineFindApp item).records sent today db) (herr : inp.err = none)
    (hdate : inp.now.date = today)
    (h : (Handler.timelineFindApp item).step inp db = (next, db')) :
    RecordStep sent today db next db' := by
  obtain ⟨hkind, rfl⟩ := hrec
  simp only [Handler.step, Input.statement_of_none herr] at h
  cases happ : db.findApp sent.name with
  | none =>
    rw [happ] at h
    cases h
    exact recordStep_end (recorded_of_missing today happ)
  | some app =>
    rw [happ] at h
    cases h
    refine .read ⟨hkind, ?_, hdate⟩
    rw [Store.idOf, happ, Option.map_some]

/-- `handle_timeline`: today's entry is looked up. -/
theorem recordStep_timelineFindEntry {date : NaiveDate}
    (hrec : (Handler.timelineFindEntry appId date).records sent today db) (herr : inp.err = none)
    (h : (Handler.timelineFindEntry appId date).step inp db = (next, db')) :
    RecordStep sent today db next db' := by
  obtain ⟨hkind, hid, rfl⟩ := hrec
  simp only [Handler.step, Input.statement_of_none herr] at h
  cases hfound : db.findTimeline appId date with
  | none =>
    rw [hfound] at h
    cases h
    exact .read ⟨hkind, hid, rfl⟩
  | some entry =>
    rw [hfound] at h
    cases h
    obtain ⟨hrow, hentry⟩ := Table.mem_of_one hfound
    rw [Bool.and_eq_true, decide_eq_true_iff, decide_eq_true_iff] at hentry
    exact .read ⟨hkind, hentry.1.symm ▸ hid, hentry.2, hrow⟩

/-- The write of `handle_timeline`, update or insert: one more on a day of the app. -/
theorem recorded_timeline (hkind : sent.kind = .timeline) (hid : db.idOf sent.name = some appId)
    (happs : db'.apps = db.apps)
    (hsum : ∀ i d, db'.daySum i d = db.daySum i d + if appId = i ∧ today = d then 1 else 0) :
    Recorded sent today db db' := by
  intro p _
  rw [Store.accountOf_of_daySum happs hid hsum, Account.record, hkind]

/-- `handle_timeline`: today's entry is counted in. -/
theorem recordStep_timelineUpdate {entry : Timeline.Model}
    (hrec : (Handler.timelineUpdate entry).records sent today db) (herr : inp.err = none)
    (h : (Handler.timelineUpdate entry).step inp db = (next, db')) :
    RecordStep sent today db next db' := by
  obtain ⟨hkind, hid, rfl, hrow⟩ := hrec
  obtain ⟨db'', hupd⟩ : ∃ db'', db.updateTimeline entry.id
      (setTimelineDuration (entry.duration.getD 0 + 1)) (fun _ => rfl) = .ok db'' :=
    Store.updateTimeline_isOk _ hrow
  simp only [Handler.step, Input.statement_of_none herr, hupd] at h
  cases h
  apply recordStep_end
  apply recorded_timeline hkind hid (Store.apps_updateTimeline hupd)
  exact fun i d => Store.sumBy_updateTimeline (fun _ => Iff.rfl) hrow hupd

/-- `handle_timeline`: the checkpoint of the new entry is one that is there. -/
theorem recordStep_timelineFirstCheckpoint {date : NaiveDate} {nextId : Int}
    (hrec : (Handler.timelineFirstCheckpoint appId date nextId).records sent today db)
    (herr : inp.err = none)
    (h : (Handler.timelineFirstCheckpoint appId date nextId).step inp db = (next, db')) :
    RecordStep sent today db next db' := by
  obtain ⟨hkind, hid, hdate, hfree⟩ := hrec
  simp only [Handler.step, Input.statement_of_none herr] at h
  cases h
  exact .read ⟨hkind, hid, hdate, hfree, fun _ => Store.mem_keys_of_firstActive, rfl⟩

/-- `handle_timeline`: today's entry is inserted. -/
theorem recordStep_timelineInsert {entry : Timeline.Model}
    (hrec : (Handler.timelineInsert entry).records sent today db) (herr : inp.err = none)
    (h : (Handler.timelineInsert entry).step inp db = (next, db')) :
    RecordStep sent today db next db' := by
  obtain ⟨hkind, hid, rfl, hfree, hcheckpoint, hone⟩ := hrec
  have hkey : entry.appId ∈ db.apps.keys := by
    obtain ⟨app, hfind, happ⟩ := Option.map_eq_some_iff.mp hid
    rw [← happ]
    exact Table.key_mem_keys (Store.findApp_eq_some hfind).1
  obtain ⟨db'', hins⟩ := Store.insertTimeline_isOk hkey hcheckpoint hfree
  simp only [Handler.step, Input.statement_of_none herr, hins] at h
  cases h
  apply recordStep_end
  apply recorded_timeline hkind hid (Store.apps_insertTimeline hins)
  exact fun i d => Store.sumBy_insertTimeline hone hins

/-- **A statement of a handler** that records its event, if the database does not fail: a read on
the way to the write, or the end of the way. -/
theorem Handler.step_records (hrec : hd.records sent today db) (herr : inp.err = none)
    (hdate : inp.now.date = today) (h : hd.step inp db = (next, db')) :
    RecordStep sent today db next db' := by
  cases hd with
  | longestFindApp p n => exact recordStep_longestFindApp hrec herr h
  | longestUpdateApp app n date => exact recordStep_longestUpdateApp hrec herr h
  | countFindApp counter item => exact recordStep_countFindApp hrec herr h
  | countUpdateApp counter app => exact recordStep_countUpdateApp hrec herr h
  | timelineFindApp item => exact recordStep_timelineFindApp hrec herr hdate h
  | timelineFindEntry appId date => exact recordStep_timelineFindEntry hrec herr h
  | timelineUpdate entry => exact recordStep_timelineUpdate hrec herr h
  | timelineMaxId appId date =>
    simp only [Handler.step, Input.statement_of_none herr] at h
    cases h
    exact .read ⟨hrec.1, hrec.2.1, hrec.2.2, Store.nextId_notMem db.timeline⟩
  | timelineFirstCheckpoint appId date id => exact recordStep_timelineFirstCheckpoint hrec herr h
  | timelineInsert entry => exact recordStep_timelineInsert hrec herr h
  | countFindActive | countFindCheckpoint | countUpdateCheckpoint => exact hrec.elim

/-- After the write the accounts stay as they are. -/
theorem accountOf_of_written (hw : hd.written = true) (h : hd.step inp db = (next, db')) :
    (∀ hd', next = some hd' → hd'.written = true) ∧ ∀ p, db'.accountOf p = db.accountOf p := by
  have hstep : LedgerStep ("", .duration) hd next db db' := ledgerStep_checkpoints hw h
  rcases hstep.ledgers with ⟨hunwritten, happs, htimeline⟩ | ⟨hnot, -⟩
  · refine ⟨fun hd' hnext => ?_, Store.accountOf_congr happs htimeline⟩
    have hnow : (EventLoop.handling ("", .duration) hd).unwritten = [] := if_pos hw
    rw [hnow, hnext] at hunwritten
    by_contra hnot
    exact absurd ((if_neg hnot).symm.trans hunwritten) (List.cons_ne_nil _ _)
  · rw [hw] at hnot
    cases hnot

end

/-! ## The event loop -/

/-- No request fails, and while `k` events are waiting the clock shows the day `day k`. -/
def onTime (day : Nat → NaiveDate) (events : List Event) (inp : Input) : Prop :=
  inp.err = none ∧ inp.now.date = day events.length

/-- The accounts of `names` will be `goal` when the events that are waiting, and the one that is
being handled, are recorded. -/
structure AccountsInvariant (day : Nat → NaiveDate) (names : List String)
    (goal : String → Account) (s : Handling) : Prop where
  apps : s.db.appNames = names
  pending : ∃ rest : List Sent, s.events = rest.map Sent.event ∧
    ((s.loop.unwritten = [] ∧ ∀ p ∈ names, (s.db.accountOf p).after day p rest = goal p) ∨
      ∃ sent hd, s.loop = .handling sent.event hd ∧ hd.records sent (day rest.length) s.db ∧
        ∀ p ∈ names, (s.db.accountOf p).after day p (sent :: rest) = goal p)

section
variable {day : Nat → NaiveDate} {names : List String} {goal : String → Account}

theorem appNames_of_eventLoop {s s' : Handling} {inp : Input}
    (h : eventLoop.step s inp = some s') : s'.db.appNames = s.db.appNames := by
  obtain ⟨⟨loop, events, db⟩, hstep, rfl⟩ := Option.map_eq_some_iff.mp h
  rw [Store.appNames_eq, EventLoop.step_identities hstep, Store.appNames_eq]

/-- The event loop takes an event. -/
theorem accountsInvariant_take {s s' : Handling} {event : Event}
    (hinv : AccountsInvariant day names goal s) (hidle : s.loop = .idle)
    (hevents : s.events = event :: s'.events) (hdb : s'.db = s.db)
    (hloop : s'.loop = .resume event (handle event)) : AccountsInvariant day names goal s' := by
  obtain ⟨waiting, hwaiting, hcases⟩ := hinv.pending
  rcases hcases with ⟨-, hgoal⟩ | ⟨sent, hd, hbusy, -⟩
  · cases waiting with
    | nil =>
      rw [hwaiting] at hevents
      cases hevents
    | cons sent rest =>
      rw [hwaiting, List.map_cons, List.cons.injEq] at hevents
      obtain ⟨rfl, hrest⟩ := hevents
      obtain ⟨hd, hhandle, hrec⟩ := records_of_handle sent (day rest.length) s'.db
      refine ⟨by rw [hdb]; exact hinv.apps, rest, hrest.symm, .inr ⟨sent, hd, ?_, hrec, ?_⟩⟩
      · rw [hloop, hhandle]
        rfl
      · rw [hdb]
        exact hgoal
  · rw [hidle] at hbusy
    cases hbusy

/-- **One step of the event loop**: what the accounts are going to be stays the same. -/
theorem accountsInvariant_step (s : Handling) (inp : Input) (s' : Handling)
    (hinv : AccountsInvariant day names goal s) (hinp : onTime day s.events inp)
    (hstep : eventLoop.step s inp = some s') : AccountsInvariant day names goal s' := by
  have hnames : s'.db.appNames = names := (appNames_of_eventLoop hstep).trans hinv.apps
  rcases eventLoop_step hstep with ⟨event, hidle, hevents, hdb, hloop⟩ |
    ⟨event, hd, next, hbusy, hevents, hrun, hloop⟩
  · exact accountsInvariant_take hinv hidle hevents hdb hloop
  · obtain ⟨rest, hrest, hcases⟩ := hinv.pending
    refine ⟨hnames, rest, hevents.trans hrest, ?_⟩
    rcases hcases with ⟨hunwritten, hgoal⟩ | ⟨sent, hd', hbusy', hrec, hgoal⟩
    · -- the event is recorded already
      have hw : hd.written = true := by
        rw [hbusy] at hunwritten
        by_contra hnot
        exact absurd ((if_neg hnot).symm.trans hunwritten) (List.cons_ne_nil _ _)
      obtain ⟨hnext, hsame⟩ := accountOf_of_written hw hrun
      refine .inl ⟨by rw [hloop]; exact unwritten_resume_of_written hnext, fun p hp => ?_⟩
      rw [hsame]
      exact hgoal p hp
    · rw [hbusy] at hbusy'
      cases hbusy'
      have hlength : s.events.length = rest.length := by rw [hrest, List.length_map]
      have hdate : inp.now.date = day rest.length := by rw [hinp.2, hlength]
      have hone := Handler.step_records hrec hinp.1 hdate hrun
      generalize s'.db = db' at hone ⊢
      cases hone with
      | read hrec' => exact .inr ⟨sent, _, hloop, hrec', hgoal⟩
      | recorded hnext hdone =>
        refine .inl ⟨by rw [hloop]; exact unwritten_resume_of_written hnext, fun p hp => ?_⟩
        rw [hdone p (hinv.apps ▸ hp)]
        exact hgoal p hp

/-- The SeaORM client gets to the end of its events. -/
theorem eventLoop_ends_onTime (day : Nat → NaiveDate) (s : Handling) :
    ∃ inputs s', eventLoop.Runs (fun s inp => onTime day s.events inp) s inputs s' ∧
      s'.loop = .idle ∧ s'.events = [] := by
  let label : Handling → Input := fun s =>
    { now := ⟨day s.events.length, NaiveDateTime.unixEpoch.time⟩ }
  refine System.exists_run_choosing (J := fun _ => True) Handling.statementsLeft label
    (fun _ => ⟨rfl, rfl⟩) (fun s _ hbusy => ?_) _ trivial (Nat.le_refl _)
  obtain ⟨s', hstep⟩ := exists_eventLoop_step s (label s) (not_and_or.mp hbusy)
  exact ⟨s', hstep, trivial, eventLoop_decreases hstep⟩

/-- **The SeaORM client accounts for every event**: after any run that has handled them all, the
apps in the tables are the same and have the accounts that the events say. -/
theorem eventLoop_accounts {db : Store} {waiting : List Sent} {inputs : List Input} {s' : Handling}
    (hrun : eventLoop.Runs (fun s inp => onTime day s.events inp)
      ⟨.idle, waiting.map Sent.event, db⟩ inputs s')
    (hidle : s'.loop = .idle) (hempty : s'.events = []) :
    s'.db.appNames = db.appNames ∧
      ∀ p ∈ db.appNames, s'.db.accountOf p = (db.accountOf p).after day p waiting := by
  have hstart : AccountsInvariant day db.appNames (fun p => (db.accountOf p).after day p waiting)
      ⟨.idle, waiting.map Sent.event, db⟩ :=
    ⟨rfl, waiting, rfl, .inl ⟨rfl, fun _ _ => rfl⟩⟩
  have hend := hrun.invariant accountsInvariant_step hstart
  refine ⟨hend.apps, ?_⟩
  obtain ⟨rest, hrest, hcases⟩ := hend.pending
  have hnone : rest = [] := by
    rw [hempty] at hrest
    exact List.map_eq_nil_iff.mp hrest.symm
  rcases hcases with ⟨-, hgoal⟩ | ⟨sent, hd, hbusy, -⟩
  · rw [hnone] at hgoal
    exact hgoal
  · rw [hidle] at hbusy
    cases hbusy

end

end TimeTracker
