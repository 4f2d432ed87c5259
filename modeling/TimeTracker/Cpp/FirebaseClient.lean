import TimeTracker.Cpp.SessionTasks
import TimeTracker.FirebaseAccounts

/-!
# The Firebase client of the C++ tracker

`onDataRecieve` reads one value of the database and writes one: a total of an app, or its entry for
today. The totals are where the Rust client has them; the entries are at a path of their own.

* `onDataRecieve`: what is written, from the answer to what is read. A `GET` that is refused
  answers `null`, and `as_integer` throws at it.
* `Keeps`: a database with the accounts of the C++ client, beside the days of the Rust client.
* **`onDataRecieve_keeps`**: an event is recorded in the account of its app, and the Rust client
  finds its days as they were.

Counts that leave the range of an `int` are not modelled.
-/

namespace TimeTracker.Cpp

open FirebaseClient

/-! ## `onDataRecieve` -/

/-- `json::value::as_integer`, which keeps the lower 32 bits of an integer and throws at a value
that is no number. A number with a fraction, which neither client writes, is not modelled. -/
def asInteger (value : Json.Value) : Option Int := value.asI64.map fun i => i.bmod 4294967296

/-- The path of today's entry below its app; `tm_mon` counts from 0. -/
def timelineKey (time : NaiveDate) : String :=
  "/timeline/year/" ++ yearStr time ++ "/month/" ++ monthStr time ++ "/day/" ++ dayStr time

/-- The `searchQuery` of the `GET` of an event. -/
def searchQuery (type : RecieveTypes) (process : String) (time : NaiveDate) : String :=
  match type with
  | .longestSession => "apps/" ++ process ++ "/longestSession"
  | .duration => "apps/" ++ process ++ "/duration"
  | .launches => "apps/" ++ process ++ "/launches"
  | .timeline => "apps/" ++ process ++ timelineKey time

/-- A request that writes. -/
inductive Write where
  | patchData (appName key : String) (value : Json.Value)
  | putData (url : String) (value : Json.Value)

/-- The database after a request. The key of a `PATCH` may be a path. -/
def Write.send (db : Json.Value) : Write → Json.Value
  | .patchData appName key value =>
    db.write (segments ("apps/" ++ appName) ++ segments key) value
  | .putData url value => db.write (segments url) value

/-- `onDataRecieve`, from the answer to its `GET`: the request it goes on to send. -/
def onDataRecieve (type : RecieveTypes) (process : String) (data : Int) (time : NaiveDate)
    (answer : Json.Value) : Option Write :=
  match type with
  | .longestSession => (asInteger answer).map fun longestSession =>
      .patchData process "longestSession" (.int (max data longestSession))
  | .duration => (asInteger answer).map fun duration =>
      .patchData process "duration" (.int (duration + data))
  | .launches => (asInteger answer).map fun launches =>
      .patchData process "launches" (.int (launches + data))
  | .timeline =>
    match answer with
    | .null => some (.putData ("apps/" ++ process ++ timelineKey time) (.int 1))
    | todayData => (asInteger todayData).map fun todayData =>
        .patchData process (timelineKey time) (.int (todayData + data))

/-- `getDataBase`, where there is an answer: `null` where its status is not `OK`. -/
def getDataBase (ok : Bool) (db : Json.Value) (searchQuery : String) : Json.Value :=
  if ok then getData db searchQuery else .null

/-- The argument `data` of an event: the minutes of a session, and otherwise the default. -/
def RecieveTypes.data (minutes : Nat) : RecieveTypes → Int
  | .longestSession => minutes
  | .duration | .launches | .timeline => 1

/-! ## Paths -/

/-- The path of an app's entry for a day. -/
def entryPath (p : String) (d : NaiveDate) : List String :=
  ["apps", p, "timeline", "year", yearStr d, "month", monthStr d, "day", dayStr d]

section
variable {p q : String}

/-- The slashes of a path, each by itself. -/
theorem timeline_text (year month day : String) :
    "/timeline/year/" ++ year ++ "/month/" ++ month ++ "/day/" ++ day =
      "/" ++ ("timeline" ++ "/" ++ "year" ++ "/" ++ year ++ "/" ++ "month" ++ "/" ++ month ++ "/" ++
        "day" ++ "/" ++ day) := by
  have hyear : "/timeline/year/".toList = "/".toList ++
      ("timeline".toList ++ ("/".toList ++ ("year".toList ++ "/".toList))) := by decide
  have hmonth : "/month/".toList = "/".toList ++ ("month".toList ++ "/".toList) := by decide
  have hday : "/day/".toList = "/".toList ++ ("day".toList ++ "/".toList) := by decide
  apply String.toList_injective
  simp only [String.toList_append]
  rw [hyear, hmonth, hday]
  simp only [List.append_assoc]

theorem segments_timelineKey (p : String) (d : NaiveDate) :
    segments (p ++ timelineKey d) = segments p ++
      ["timeline", "year", yearStr d, "month", monthStr d, "day", dayStr d] := by
  have htimeline : segments "timeline" = ["timeline"] := by decide
  have hyear : segments "year" = ["year"] := by decide
  have hmonth : segments "month" = ["month"] := by decide
  have hday : segments "day" = ["day"] := by decide
  have hkey : timelineKey d = _ := timeline_text (yearStr d) (monthStr d) (dayStr d)
  rw [hkey, ← String.append_assoc]
  simp only [segments_append, htimeline, hyear, hmonth, hday, segments_yearStr, monthStr, dayStr,
    segments_toDigits, List.cons_append, List.nil_append]

/-- The path of the entry of an app. -/
theorem segments_entry (hp : IsKey p) (d : NaiveDate) :
    segments ("apps/" ++ p ++ timelineKey d) = entryPath p d := by
  rw [segments_timelineKey, segments_apps, segments_of_isKey hp]
  rfl

/-- A `PATCH` of an app whose key is the path of an entry. -/
theorem segments_patch (hp : IsKey p) (d : NaiveDate) :
    segments ("apps/" ++ p) ++ segments (timelineKey d) = entryPath p d := by
  have hkey := segments_timelineKey "" d
  have hempty : segments "" = [] := by decide
  rw [String.empty_append, hempty, List.nil_append] at hkey
  rw [segments_apps, segments_of_isKey hp, hkey]
  rfl

/-- A member of an app. -/
theorem segments_member (hp : IsKey p) {key : String} (hkey : IsKey key) :
    segments ("apps/" ++ p) ++ segments key = appPath p key := by
  rw [segments_apps, segments_of_isKey hp, segments_of_isKey hkey]
  rfl

/-- A day is the path that leads to its entry. -/
theorem eq_of_entryPath {d d' : NaiveDate} (h : entryPath p d = entryPath q d') :
    p = q ∧ d = d' := by
  simp only [entryPath, List.cons.injEq, true_and, and_true] at h
  obtain ⟨hp, hyear, hmonth, hday⟩ := h
  apply eq_of_dayPath
  rw [dayPath, dayPath, hp, hyear, hmonth, hday]

/-- No month of the Rust client is called `month`. -/
theorem monthStr_ne_month (d : NaiveDate) : monthStr d ≠ "month" := by
  intro h
  have hdigits := String.ofList_injective (h.trans (String.ofList_toList (s := "month")).symm)
  have hm : 'm' ∈ Nat.toDigits 10 (d.month - 1) := by
    rw [hdigits]
    decide
  exact absurd (Decimal.isDigit_of_mem_toDigits hm) (by decide)

end

/-! ## The accounts -/

/-- What an event does to the account of its app. Where the `GET` of today's entry is refused, the
count starts again. -/
def recieve (type : RecieveTypes) (data : Int) (time : NaiveDate) (answered : Bool) (a : Account) :
    Account :=
  match type with
  | .longestSession => a.setTotal .longestSession (max data (a.total .longestSession))
  | .duration => a.setTotal .duration (a.total .duration + data)
  | .launches => a.setTotal .launches (a.total .launches + data)
  | .timeline => a.setDay time (if answered then a.day time + data else 1)

/-- An entry that counts `n`; there is none where nothing has been counted. -/
def IsEntry (entry : Json.Value) (n : Int) : Prop := entry = .null ∧ n = 0 ∨ entry.asI64 = some n

/-- The database holds the accounts of the C++ client, with the totals where the Rust client has
them, and beside its days `days`. -/
structure Keeps (names : List String) (accounts : String → Account)
    (days : String → NaiveDate → Int) (db : Json.Value) : Prop where
  shared : Holds names (fun p => ⟨(accounts p).total, days p⟩) db
  entry : ∀ p ∈ names, ∀ d, IsEntry (db.atPath (entryPath p d)) ((accounts p).day d)

/-- The range of an `int`. -/
def FitsInt (v : Int) : Prop := -2147483648 ≤ v ∧ v < 2147483648

section
variable {names : List String} {accounts : String → Account} {days : String → NaiveDate → Int}
  {db value : Json.Value} {p : String} {v : Int}

theorem fitsI64_of_fitsInt (hv : FitsInt v) : FitsI64 v := by
  unfold FitsInt at hv
  unfold FitsI64
  omega

theorem asInteger_of_fits (h : value.asI64 = some v) (hv : FitsInt v) :
    asInteger value = some v := by
  unfold FitsInt at hv
  rw [asInteger, h, Option.map_some, Int.bmod_eq_of_le (by omega) (by omega)]

theorem asInteger_null : asInteger .null = none := rfl

/-- A total is written, and nothing else. -/
theorem keeps_write_total (h : Keeps names accounts days db) (hp : p ∈ names) (t : Total)
    (hv : FitsInt v) :
    Keeps names (Function.update accounts p ((accounts p).setTotal t v)) days
      (db.write (appPath p t.key) (.int v)) where
  shared := by
    apply (holds_write_total h.shared hp t (fitsI64_of_fitsInt hv)).congr
    intro q _
    by_cases hq : q = p
    · rw [hq, Function.update_self, Function.update_self]
      rfl
    · rw [Function.update_of_ne hq, Function.update_of_ne hq]
  entry q hq d := by
    have hday : (Function.update accounts p ((accounts p).setTotal t v) q).day d =
        (accounts q).day d := by
      by_cases hqp : q = p
      · rw [hqp, Function.update_self, Account.setTotal_day]
      · rw [Function.update_of_ne hqp]
    rw [hday, Json.Value.atPath_write_of_apart]
    · exact h.entry q hq d
    · simp [appPath, entryPath, List.cons_prefix_cons, t.key_ne_timeline]
    · simp [appPath, entryPath, List.cons_prefix_cons]

/-- An entry is apart from the days of the Rust client. -/
theorem not_prefix_dayPath (q : String) (d d' : NaiveDate) :
    ¬ entryPath p d <+: dayPath q d' ∧ ¬ dayPath q d' <+: entryPath p d := by
  constructor
  · intro hpre
    have hle := hpre.length_le
    simp [entryPath, dayPath] at hle
  · simp [entryPath, dayPath, List.cons_prefix_cons, monthStr_ne_month]

/-- An entry is written, and nothing else. -/
theorem keeps_write_entry (h : Keeps names accounts days db) (hp : p ∈ names) (d : NaiveDate)
    (hv : FitsInt v) :
    Keeps names (Function.update accounts p ((accounts p).setDay d v)) days
      (db.write (entryPath p d) (.int v)) where
  shared := by
    have htotal : ∀ q t, (Function.update accounts p ((accounts p).setDay d v) q).total t =
        (accounts q).total t := by
      intro q t
      by_cases hq : q = p
      · rw [hq, Function.update_self, Account.setDay_total]
      · rw [Function.update_of_ne hq]
    refine ⟨fun q hq t => ?_, fun q hq d' => ?_, fun q hq => only_write h.shared hp _ _ q hq⟩
    · rw [Json.Value.atPath_write_of_apart, h.shared.total q hq t]
      · exact congrArg some (htotal q t).symm
      · simp [entryPath, appPath, List.cons_prefix_cons]
      · simp [entryPath, appPath, List.cons_prefix_cons, t.key_ne_timeline]
    · obtain ⟨hbelow, habove⟩ := not_prefix_dayPath (p := p) q d d'
      rw [Json.Value.atPath_write_of_apart db _ hbelow habove]
      exact h.shared.day q hq d'
  entry q hq d' := by
    by_cases hsame : p = q ∧ d = d'
    · obtain ⟨rfl, rfl⟩ := hsame
      right
      rw [Json.Value.atPath_write_self, asI64_of_fits (fitsI64_of_fitsInt hv), Function.update_self,
        Account.setDay_day, Function.update_self]
    · have hne : entryPath p d ≠ entryPath q d' := fun heq => hsame (eq_of_entryPath heq)
      have hlength : (entryPath p d).length = (entryPath q d').length := rfl
      have hday : (Function.update accounts p ((accounts p).setDay d v) q).day d' =
          (accounts q).day d' := by
        by_cases hqp : q = p
        · subst hqp
          rw [Function.update_self, Account.setDay_day,
            Function.update_of_ne fun hd => hsame ⟨rfl, hd.symm⟩]
        · rw [Function.update_of_ne hqp]
      rw [hday, Json.Value.atPath_write_of_apart]
      · exact h.entry q hq d'
      · exact fun hpre => hne (hpre.eq_of_length hlength)
      · exact fun hpre => hne (hpre.eq_of_length hlength.symm).symm

/-! ## An event -/

/-- Every entry of an account is an `int`. -/
def FitsInts (a : Account) : Prop := (∀ t, FitsInt (a.total t)) ∧ ∀ d, FitsInt (a.day d)

theorem getData_member (db : Json.Value) (hp : IsKey p) {key : String} (hkey : IsKey key) :
    getData db ("apps/" ++ p ++ "/" ++ key) = db.atPath (appPath p key) := by
  rw [getData, segments_append, segments_member hp hkey]

/-- **An event of a total** `t` that writes `f` of what it reads. -/
theorem keeps_event_total (h : Keeps names accounts days db) (hmem : p ∈ names) (hp : IsKey p)
    (hfits : FitsInts (accounts p)) {type : RecieveTypes} {data : Int} {time : NaiveDate}
    (t : Total) (f : Int → Int) (hquery : searchQuery type p time = "apps/" ++ p ++ ("/" ++ t.key))
    (hsent : ∀ answer, onDataRecieve type p data time answer =
      (asInteger answer).map fun v => .patchData p t.key (.int (f v)))
    (hrecieve : recieve type data time true (accounts p) =
      (accounts p).setTotal t (f ((accounts p).total t)))
    (hfits' : FitsInts (recieve type data time true (accounts p))) :
    ∃ w, onDataRecieve type p data time (getDataBase true db (searchQuery type p time)) = some w ∧
      Keeps names (Function.update accounts p (recieve type data time true (accounts p))) days
        (w.send db) := by
  have hread : asInteger (getDataBase true db (searchQuery type p time)) =
      some ((accounts p).total t) := by
    show asInteger (getData db _) = _
    rw [hquery, ← String.append_assoc, getData_member db hp t.isKey]
    exact asInteger_of_fits (h.shared.total p hmem t) (hfits.1 t)
  refine ⟨_, by rw [hsent, hread, Option.map_some], ?_⟩
  show Keeps _ _ _ (db.write _ _)
  have hv := hfits'.1 t
  rw [hrecieve, Account.setTotal_total, Function.update_self] at hv
  rw [hrecieve, segments_member hp t.isKey]
  exact keeps_write_total h hmem t hv

/-- **An event `TIMELINE`**: the first of a day is put there, and so is one whose `GET` is
refused. -/
theorem keeps_event_timeline (h : Keeps names accounts days db) (hmem : p ∈ names) (hp : IsKey p)
    (hfits : FitsInts (accounts p)) {time : NaiveDate} {answered : Bool}
    (hfits' : FitsInts (recieve .timeline 1 time answered (accounts p))) :
    ∃ w, onDataRecieve .timeline p 1 time
        (getDataBase answered db (searchQuery .timeline p time)) = some w ∧
      Keeps names (Function.update accounts p (recieve .timeline 1 time answered (accounts p))) days
        (w.send db) := by
  have hv := hfits'.2 time
  rw [recieve, Account.setDay_day, Function.update_self] at hv
  have hput : (if answered = true then (accounts p).day time + 1 else 1) = 1 →
      Keeps names (Function.update accounts p (recieve .timeline 1 time answered (accounts p))) days
        (Write.send db (.putData ("apps/" ++ p ++ timelineKey time) (.int 1))) := by
    intro hone
    show Keeps _ _ _ (db.write _ _)
    rw [segments_entry hp, recieve, hone]
    exact keeps_write_entry h hmem time ⟨by decide, by decide⟩
  cases answered with
  | false => exact ⟨_, rfl, hput rfl⟩
  | true =>
    have hread : getDataBase true db (searchQuery .timeline p time) =
        db.atPath (entryPath p time) := by
      show getData db _ = _
      rw [getData, searchQuery, segments_entry hp]
    rw [hread]
    rcases h.entry p hmem time with ⟨hnone, hzero⟩ | hsome
    · rw [hnone]
      exact ⟨_, rfl, hput (by rw [hzero]; rfl)⟩
    · have hinteger := asInteger_of_fits hsome (hfits.2 time)
      refine ⟨.patchData p (timelineKey time) (.int ((accounts p).day time + 1)), ?_, ?_⟩
      · cases hentry : db.atPath (entryPath p time) with
        | null => rw [hentry] at hsome; cases hsome
        | _ =>
          rw [hentry] at hinteger
          simp only [onDataRecieve, hinteger, Option.map_some]
      · show Keeps _ _ _ (db.write _ _)
        rw [segments_patch hp, recieve, if_pos rfl]
        exact keeps_write_entry h hmem time hv

/-- A `GET` that is refused makes every event but `TIMELINE` throw. -/
theorem onDataRecieve_null {type : RecieveTypes} {data : Int} {time : NaiveDate} :
    onDataRecieve type p data time .null = none ↔ type ≠ .timeline := by
  cases type with
  | timeline => simp [onDataRecieve]
  | _ => simp [onDataRecieve, asInteger_null]

/-- **An event** whose `GET` is answered, or that can do without, is recorded in the account of its
app. -/
theorem onDataRecieve_keeps (h : Keeps names accounts days db) (hmem : p ∈ names) (hp : IsKey p)
    {type : RecieveTypes} {minutes : Nat} {time : NaiveDate} {answered : Bool}
    (hfits : FitsInts (accounts p))
    (hfits' : FitsInts (recieve type (type.data minutes) time answered (accounts p)))
    (hanswered : answered = true ∨ type = .timeline) :
    ∃ w, onDataRecieve type p (type.data minutes) time
        (getDataBase answered db (searchQuery type p time)) = some w ∧
      Keeps names (Function.update accounts p
        (recieve type (type.data minutes) time answered (accounts p))) days (w.send db) := by
  cases type with
  | longestSession =>
    obtain rfl : answered = true := by simpa using hanswered
    exact keeps_event_total h hmem hp hfits .longestSession (fun v => max minutes v)
      (congrArg ("apps/" ++ p ++ ·) (by decide)) (fun _ => rfl) rfl hfits'
  | duration =>
    obtain rfl : answered = true := by simpa using hanswered
    exact keeps_event_total h hmem hp hfits .duration (fun v => v + 1)
      (congrArg ("apps/" ++ p ++ ·) (by decide)) (fun _ => rfl) rfl hfits'
  | launches =>
    obtain rfl : answered = true := by simpa using hanswered
    exact keeps_event_total h hmem hp hfits .launches (fun v => v + 1)
      (congrArg ("apps/" ++ p ++ ·) (by decide)) (fun _ => rfl) rfl hfits'
  | timeline => exact keeps_event_timeline h hmem hp hfits hfits'

end

end TimeTracker.Cpp
