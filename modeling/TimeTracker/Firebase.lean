import TimeTracker.Lib.Json.Decode
import TimeTracker.Lib.Json.Tree
import TimeTracker.Lib.Runs
import TimeTracker.SeaormClient

/-!
# The Firebase client

The event loop of `firebase.rs`, the other storage backend. A Firebase database is one JSON value;
a request names a path in it. The address of the database and the authentication are the same in
every request and are left out.

* `getData` / `patchData`: the two requests of the event loop. A `GET` of a missing path answers
  `null`, and a `PATCH` makes the objects on the way that are missing.
* `FirebaseLoop.read`: what the loop does with an event, up to the answer of its `GET`. An answer
  that is not an integer is unwrapped, which ends the thread.
* `firebaseLoop`: the loop over its channel and the database, one request a step.

A count that leaves the range of an `i64` is not modelled.
-/

namespace TimeTracker

open Transition

/-- `i64::from_str`. -/
def parseI64 (s : List Char) : Option Int :=
  match s with
  | '-' :: ds =>
    (Decimal.parseNat ds).bind fun n => if n ≤ 9223372036854775808 then some (-(n : Int)) else none
  | '+' :: ds =>
    (Decimal.parseNat ds).bind fun n => if n ≤ 9223372036854775807 then some (n : Int) else none
  | ds =>
    (Decimal.parseNat ds).bind fun n => if n ≤ 9223372036854775807 then some (n : Int) else none

/-- A numeral that fits is read back. -/
theorem parseI64_toDigits {n : Nat} (hn : n ≤ 9223372036854775807) :
    parseI64 (Nat.toDigits 10 n) = some (n : Int) := by
  have hparse := Decimal.parseNat_toDigits n
  cases hdigits : Nat.toDigits 10 n with
  | nil => exact absurd hdigits Nat.toDigits_ne_nil
  | cons c cs =>
    have hc := Decimal.ne_head_toDigits hdigits
    rw [hdigits] at hparse
    unfold parseI64
    split
    · next heq => cases heq; exact absurd hc (by decide)
    · next heq => cases heq; exact absurd hc (by decide)
    · rw [hparse, Option.bind_some, if_pos hn]

/-! ## Requests -/

namespace FirebaseClient

/-- The keys a path of a request leads through. -/
def segments (path : String) : List String :=
  ((path.toList.splitOn '/').filter fun segment => segment ≠ []).map String.ofList

/-- `get_data`. -/
def getData (db : Json.Value) (item : String) : Json.Value := db.atPath (segments item)

/-- `patch_data`. -/
def patchData (db : Json.Value) (item : String) (value : List (String × Json.Value)) :
    Json.Value :=
  db.patch (segments ("apps/" ++ item)) value

/-- `dt.year().to_string()`. -/
def yearStr (dt : NaiveDate) : String := String.ofList (Json.intText dt.year)

/-- `(dt.month() - 1).to_string()`. -/
def monthStr (dt : NaiveDate) : String := String.ofList (Nat.toDigits 10 (dt.month - 1))

/-- `dt.day().to_string()`. -/
def dayStr (dt : NaiveDate) : String := String.ofList (Nat.toDigits 10 dt.day)

/-! ### Where a path leads -/

/-- A character that stands for itself in the path of a request and in a key of Firebase. -/
def isKeyChar (c : Char) : Bool :=
  c ≠ '/' && c ≠ '\\' && c ≠ '?' && c ≠ '#' && c ≠ '%' && c ≠ '.' && c ≠ '$' && c ≠ '[' &&
    c ≠ ']' && 32 ≤ c.toNat && c.toNat ≠ 127

/-- A name that is one key in the path of a request. -/
def IsKey (name : String) : Prop := name ≠ "" ∧ name.toList.all isKeyChar = true

instance (name : String) : Decidable (IsKey name) := inferInstanceAs (Decidable (_ ∧ _))

/-- A slash ends a key. -/
theorem segments_append (a b : String) : segments (a ++ "/" ++ b) = segments a ++ segments b := by
  have htext : (a ++ "/" ++ b).toList = a.toList ++ '/' :: b.toList := by
    simp
  rw [segments, htext, List.splitOn_append_cons_self, List.filter_append, List.map_append]
  rfl

/-- A text that has no slash and is not empty is one key. -/
theorem segments_eq_singleton {a : String} (hne : a.toList ≠ []) (hslash : '/' ∉ a.toList) :
    segments a = [a] := by
  rw [segments, List.splitOn_eq_singleton hslash, List.filter_cons_of_pos (by simpa using hne),
    List.filter_nil, List.map_singleton, String.ofList_toList]

theorem segments_of_isKey {name : String} (h : IsKey name) : segments name = [name] := by
  apply segments_eq_singleton
  · exact fun hnil => h.1 (String.toList_eq_nil_iff.mp hnil)
  · exact fun hslash => absurd (List.all_eq_true.mp h.2 '/' hslash) (by decide)

theorem segments_toDigits (n : Nat) :
    segments (String.ofList (Nat.toDigits 10 n)) = [String.ofList (Nat.toDigits 10 n)] := by
  apply segments_eq_singleton
  · rw [String.toList_ofList]
    exact Nat.toDigits_ne_nil
  · rw [String.toList_ofList]
    intro hslash
    have hdigit := Decimal.isDigit_of_mem_toDigits hslash
    exact absurd hdigit (by decide)

theorem segments_yearStr (dt : NaiveDate) : segments (yearStr dt) = [yearStr dt] := by
  unfold yearStr
  cases dt.year with
  | ofNat n => exact segments_toDigits n
  | negSucc n =>
    apply segments_eq_singleton
    · rw [String.toList_ofList]
      exact List.cons_ne_nil _ _
    · rw [String.toList_ofList]
      intro hslash
      rcases List.mem_cons.mp hslash with hminus | hdigit
      · exact absurd hminus (by decide)
      · exact absurd (Decimal.isDigit_of_mem_toDigits hdigit) (by decide)

theorem segments_apps (item : String) : segments ("apps/" ++ item) = "apps" :: segments item := by
  have htext : "apps/" ++ item = "apps" ++ "/" ++ item := rfl
  have happs : segments "apps" = ["apps"] := by decide
  rw [htext, segments_append, happs]
  rfl

/-- The path of a member of an app. -/
def appPath (p key : String) : List String := ["apps", p, key]

/-- The path of an app's entry for a day. -/
def dayPath (p : String) (dt : NaiveDate) : List String :=
  ["apps", p, "timeline", "year", yearStr dt, monthStr dt, dayStr dt]

section
variable {p key : String}

/-- The `GET` of a member of an app. -/
theorem getData_app (db : Json.Value) (hp : IsKey p) (hkey : IsKey key) :
    getData db ("/apps/" ++ p ++ "/" ++ key) = db.atPath (appPath p key) := by
  have htext : "/apps/" ++ p = "" ++ "/" ++ ("apps/" ++ p) := by
    rw [String.empty_append, ← String.append_assoc]
    rfl
  have hempty : segments "" = [] := by decide
  rw [getData, segments_append, htext, segments_append, segments_apps, segments_of_isKey hp,
    segments_of_isKey hkey, hempty]
  rfl

theorem getData_longestSession (db : Json.Value) (hp : IsKey p) :
    getData db ("/apps/" ++ p ++ "/longestSession") = db.atPath (appPath p "longestSession") := by
  have htext : "/apps/" ++ p ++ "/longestSession" = "/apps/" ++ p ++ "/" ++ "longestSession" := by
    simp only [String.append_assoc]
    rfl
  rw [htext, getData_app db hp (by decide)]

/-- The `PATCH` of a member of an app. -/
theorem patchData_app (db x : Json.Value) (hp : IsKey p) :
    patchData db p [(key, x)] = db.write (appPath p key) x := by
  rw [patchData, segments_apps, segments_of_isKey hp, Json.Value.patch_singleton]
  rfl

theorem segments_timeline (hp : IsKey p) (dt : NaiveDate) :
    segments (p ++ "/timeline/year/" ++ yearStr dt ++ "/" ++ monthStr dt) =
      [p, "timeline", "year", yearStr dt, monthStr dt] := by
  have htext : p ++ "/timeline/year/" ++ yearStr dt =
      p ++ "/" ++ "timeline" ++ "/" ++ "year" ++ "/" ++ yearStr dt := by
    simp only [String.append_assoc]
    rfl
  have htimeline : segments "timeline" = ["timeline"] := by decide
  have hyear : segments "year" = ["year"] := by decide
  simp only [segments_append, htext, segments_of_isKey hp, htimeline, hyear, segments_yearStr,
    monthStr, segments_toDigits, List.cons_append, List.nil_append]

/-- The `GET` of an app's entry for a day. -/
theorem getData_day (db : Json.Value) (hp : IsKey p) (dt : NaiveDate) :
    getData db ("apps/" ++ p ++ "/timeline/year/" ++ yearStr dt ++ "/" ++ monthStr dt ++ "/" ++
      dayStr dt) = db.atPath (dayPath p dt) := by
  have htext : "apps/" ++ p ++ "/timeline/year/" ++ yearStr dt ++ "/" ++ monthStr dt =
      "apps/" ++ (p ++ "/timeline/year/" ++ yearStr dt ++ "/" ++ monthStr dt) := by
    simp only [String.append_assoc]
  rw [getData, segments_append, htext, segments_apps, segments_timeline hp, dayStr,
    segments_toDigits]
  rfl

/-- The `PATCH` of an app's entry for a day. -/
theorem patchData_day (db x : Json.Value) (hp : IsKey p) (dt : NaiveDate) :
    patchData db (p ++ "/timeline/year/" ++ yearStr dt ++ "/" ++ monthStr dt) [(dayStr dt, x)] =
      db.write (dayPath p dt) x := by
  rw [patchData, segments_apps, segments_timeline hp, Json.Value.patch_singleton]
  rfl

end

/-- A date is the path that leads to its entries. -/
theorem eq_of_dayPath {p q : String} {dt dt' : NaiveDate} (h : dayPath p dt = dayPath q dt') :
    p = q ∧ dt = dt' := by
  simp only [dayPath, List.cons.injEq, true_and, and_true] at h
  obtain ⟨hp, hyear, hmonth, hday⟩ := h
  refine ⟨hp, ?_⟩
  have hyear' : dt.year = dt'.year := by
    have htext := String.ofList_injective hyear
    have hparse := congrArg Json.parseInt htext
    rw [Json.parseInt_intText, Json.parseInt_intText] at hparse
    exact Option.some.inj hparse
  have hdigits : ∀ {n m : Nat}, String.ofList (Nat.toDigits 10 n) =
      String.ofList (Nat.toDigits 10 m) → n = m := by
    intro n m htext
    have hparse := congrArg Decimal.parseNat (String.ofList_injective htext)
    rw [Decimal.parseNat_toDigits, Decimal.parseNat_toDigits] at hparse
    exact Option.some.inj hparse
  have hmonth' : dt.month = dt'.month := by
    have hpred := hdigits hmonth
    have hvalid := dt.valid.1
    have hvalid' := dt'.valid.1
    omega
  have hday' : dt.day = dt'.day := hdigits hday
  cases dt
  cases dt'
  simp only at hyear' hmonth' hday'
  subst hyear' hmonth' hday'
  rfl

end FirebaseClient

/-! ## The loop -/

/-- `init_event_loop`: waiting in `rx.recv()`, before the `GET` of an event, before its `PATCH`, or
ended by a panic. -/
inductive FirebaseLoop where
  | idle
  | reading (event : Event)
  | patching (item : String) (value : List (String × Json.Value))
  | stopped

namespace FirebaseLoop

open FirebaseClient

/-- `patch_increment`, up to its `PATCH`. -/
def patchIncrement (get : String → Except DbErr Json.Value) (item incType : String) :
    FirebaseLoop :=
  match get ("/apps/" ++ item ++ "/" ++ incType) with
  | .ok ret =>
    match ret.asI64 with
    | some inc => .patching item [(incType, .int (inc + 1))]
    | none => .stopped
  | .error _ => .idle

/-- The event `LongestSession`, up to its `PATCH`. -/
def longestSession (get : String → Except DbErr Json.Value) (item : String) : FirebaseLoop :=
  match item.toList.splitOn ';' with
  | appName :: rest =>
    match get ("/apps/" ++ String.ofList appName ++ "/longestSession") with
    | .ok ret =>
      match ret.asI64, rest.head?.bind parseI64 with
      | some longestSession, some currentSession =>
        if currentSession > longestSession then
          .patching (String.ofList appName) [("longestSession", .int currentSession)]
        else .idle
      | _, _ => .stopped
    | .error _ => .idle
  -- a split has a first part
  | [] => .stopped

/-- The event `Timeline`, up to its `PATCH`. An entry that is not there starts at 1. -/
def timeline (get : String → Except DbErr Json.Value) (dt : NaiveDate) (item : String) :
    FirebaseLoop :=
  match get ("apps/" ++ item ++ "/timeline/year/" ++ yearStr dt ++ "/" ++ monthStr dt ++ "/" ++
    dayStr dt) with
  | .ok ret =>
    let currentValue := match ret.asI64 with
      | some inc => inc + 1
      | none => 1
    .patching (item ++ "/timeline/year/" ++ yearStr dt ++ "/" ++ monthStr dt)
      [(dayStr dt, .int currentValue)]
  | .error _ => .idle

/-- The `match rx` of the loop. -/
def read (get : String → Except DbErr Json.Value) (dt : NaiveDate) : Event → FirebaseLoop
  | (item, .longestSession) => longestSession get item
  | (item, .duration) => patchIncrement get item "duration"
  | (item, .launches) => patchIncrement get item "launches"
  | (item, .timeline) => timeline get dt item

/-- One step of the loop: take the next event, or send one request. A request that fails ends the
event. -/
def step (inp : Input) :
    FirebaseLoop → List Event → Json.Value → Option (FirebaseLoop × List Event × Json.Value)
  | .idle, [], _ => none
  | .idle, event :: rest, db => some (.reading event, rest, db)
  | .reading event, events, db =>
    some (read (fun item => inp.statement (.ok (getData db item))) inp.now.date event, events, db)
  | .patching item value, events, db =>
    match inp.statement (.ok (patchData db item value)) with
    | .ok db' => some (.idle, events, db')
    | .error _ => some (.idle, events, db)
  | .stopped, _, _ => none

end FirebaseLoop

/-- The Firebase event loop, its channel and the database. -/
structure FirebaseHandling where
  loop : FirebaseLoop
  events : List Event
  db : Json.Value

/-- The Firebase event loop, step by step. -/
def firebaseLoop : System FirebaseHandling Input where
  step s inp :=
    (s.loop.step inp s.events s.db).map fun (loop, events, db) => ⟨loop, events, db⟩

end TimeTracker
