import TimeTracker.Accounts
import TimeTracker.Firebase

/-!
# The accounts in Firebase

The Firebase client keeps the accounts of its apps at paths of one JSON value.

* `Holds`: a database holds the accounts of some apps, and no other app.
* **`read_records`**: the `GET` and the `PATCH` of an event record it in the account of its app, if
  the app is there.
* **`firebaseLoop_accounts`**: the event loop keeps the accounts of the apps in the database, as
  long as the events are about these apps.
-/

namespace TimeTracker

open Transition FirebaseClient

/-! ## What the database holds -/

/-- The member of an app that holds a total. -/
def Total.key : Total → String
  | .duration => "duration"
  | .launches => "launches"
  | .longestSession => "longestSession"

theorem Total.isKey (t : Total) : IsKey t.key := by cases t <;> decide

theorem Total.key_ne_timeline (t : Total) : t.key ≠ "timeline" := by cases t <;> decide

theorem Total.key_injective : Function.Injective Total.key := by
  intro t t' h
  cases t <;> cases t' <;> first | rfl | exact absurd h (by decide)

/-- The database holds the accounts of the apps `names`, and no other app. A day without an entry
counts as 0. -/
structure Holds (names : List String) (accounts : String → Account) (db : Json.Value) : Prop where
  total : ∀ p ∈ names, ∀ t, (db.atPath (appPath p t.key)).asI64 = some ((accounts p).total t)
  day : ∀ p ∈ names, ∀ d, ((db.atPath (dayPath p d)).asI64).getD 0 = (accounts p).day d
  only : ∀ p, p ∉ names → db.atPath ["apps", p] = .null

section
variable {names : List String} {accounts : String → Account} {db : Json.Value} {p : String}
  {v : Int}

theorem Holds.congr {accounts' : String → Account} (h : Holds names accounts db)
    (hsame : ∀ p ∈ names, accounts p = accounts' p) : Holds names accounts' db where
  total p hp t := by rw [h.total p hp t, hsame p hp]
  day p hp d := by rw [h.day p hp d, hsame p hp]
  only := h.only

/-- The range of an `i64`. -/
def FitsI64 (v : Int) : Prop := -9223372036854775808 ≤ v ∧ v < 9223372036854775808

theorem asI64_of_fits (hv : FitsI64 v) : (Json.Value.int v).asI64 = some v :=
  Json.asI64_int hv.1 hv.2

/-- What an update of the accounts does not change in an entry `f`. -/
theorem entry_update {α : Type} {a : Account} {q : String} (f : Account → α)
    (hsame : q = p → f a = f (accounts q)) :
    f (accounts q) = f (Function.update accounts p a q) := by
  by_cases hpq : q = p
  · rw [← hsame hpq, hpq, Function.update_self]
  · rw [Function.update_of_ne hpq]

/-- The place of an app that is not stored is apart from what is written below a stored one. -/
theorem only_write (h : Holds names accounts db) (hp : p ∈ names) (rest : List String)
    (x : Json.Value) (q : String) (hq : q ∉ names) :
    (db.write ("apps" :: p :: rest) x).atPath ["apps", q] = .null := by
  have hne : p ≠ q := fun heq => hq (heq ▸ hp)
  have hnull := h.only q hq
  rw [Json.Value.atPath_write_of_apart, hnull]
  · simp [List.cons_prefix_cons, hne]
  · simp [List.cons_prefix_cons, Ne.symm hne]

/-- A total is written, and nothing else. -/
theorem holds_write_total (h : Holds names accounts db) (hp : p ∈ names) (t : Total)
    (hv : FitsI64 v) :
    Holds names (Function.update accounts p ((accounts p).setTotal t v))
      (db.write (appPath p t.key) (.int v)) where
  total q hq t' := by
    by_cases hsame : p = q ∧ t = t'
    · obtain ⟨rfl, rfl⟩ := hsame
      rw [Json.Value.atPath_write_self, asI64_of_fits hv, Function.update_self,
        Account.setTotal_total, Function.update_self]
    · have hne : ¬ (p = q ∧ t.key = t'.key) :=
        fun heq => hsame ⟨heq.1, Total.key_injective heq.2⟩
      rw [Json.Value.atPath_write_of_apart, h.total q hq t']
      · apply congrArg some
        apply entry_update fun a => a.total t'
        intro hqp
        rw [Account.setTotal_total, hqp, Function.update_of_ne fun ht => hsame ⟨hqp.symm, ht.symm⟩]
      · simpa [appPath, List.cons_prefix_cons] using hne
      · simpa [appPath, List.cons_prefix_cons, eq_comm] using hne
  day q hq d := by
    rw [Json.Value.atPath_write_of_apart, h.day q hq d]
    · apply entry_update fun a => a.day d
      intro hqp
      rw [Account.setTotal_day, hqp]
    · simp [appPath, dayPath, List.cons_prefix_cons, t.key_ne_timeline]
    · simp [appPath, dayPath, List.cons_prefix_cons]
  only q hq := only_write h hp _ _ q hq

/-- An entry of a day is written, and nothing else. -/
theorem holds_write_day (h : Holds names accounts db) (hp : p ∈ names) (d : NaiveDate)
    (hv : FitsI64 v) :
    Holds names (Function.update accounts p ((accounts p).setDay d v))
      (db.write (dayPath p d) (.int v)) where
  total q hq t := by
    rw [Json.Value.atPath_write_of_apart, h.total q hq t]
    · apply congrArg some
      apply entry_update fun a => a.total t
      intro hqp
      rw [Account.setDay_total, hqp]
    · simp [appPath, dayPath, List.cons_prefix_cons]
    · simp [appPath, dayPath, List.cons_prefix_cons, t.key_ne_timeline]
  day q hq d' := by
    by_cases hsame : p = q ∧ d = d'
    · obtain ⟨rfl, rfl⟩ := hsame
      rw [Json.Value.atPath_write_self, asI64_of_fits hv, Option.getD_some, Function.update_self,
        Account.setDay_day, Function.update_self]
    · have hne : dayPath p d ≠ dayPath q d' := fun heq => hsame (eq_of_dayPath heq)
      have hlength : (dayPath p d).length = (dayPath q d').length := rfl
      rw [Json.Value.atPath_write_of_apart, h.day q hq d']
      · apply entry_update fun a => a.day d'
        intro hqp
        rw [Account.setDay_day, hqp, Function.update_of_ne fun hd => hsame ⟨hqp.symm, hd.symm⟩]
      · exact fun hpre => hne (hpre.eq_of_length hlength)
      · exact fun hpre => hne (hpre.eq_of_length hlength.symm).symm
  only q hq := only_write h hp _ _ q hq

end

/-! ## An event -/

/-- The database once the request that is about to be sent is through. -/
def FirebaseLoop.settled (db : Json.Value) : FirebaseLoop → Json.Value
  | .patching item value => patchData db item value
  | _ => db

/-- The loop is not about to read, and has not stopped. -/
def FirebaseLoop.hasRead : FirebaseLoop → Prop
  | .idle | .patching _ _ => True
  | _ => False

/-- An account in which every entry is `v`. -/
def Account.const (v : Int) : Account := ⟨fun _ => v, fun _ => v⟩

/-- Every entry of an account is an `i32`. -/
def Account.FitsI32 (a : Account) : Prop :=
  Account.const (-2147483648) ≤ a ∧ a ≤ Account.const 2147483647

section
variable {names : List String} {accounts : String → Account} {db : Json.Value} {sent : Sent}
  {today : NaiveDate}

theorem fitsI64_of_total {a b : Account} (ha : Account.const (-2147483648) ≤ a) (hab : a ≤ b)
    (hb : b ≤ Account.const 2147483647) (t : Total) : FitsI64 (b.total t) := by
  have hlow : -2147483648 ≤ a.total t := ha.1 t
  have hle : a.total t ≤ b.total t := hab.1 t
  have hhigh : b.total t ≤ 2147483647 := hb.1 t
  unfold FitsI64
  omega

theorem fitsI64_of_day {a b : Account} (ha : Account.const (-2147483648) ≤ a) (hab : a ≤ b)
    (hb : b ≤ Account.const 2147483647) (d : NaiveDate) : FitsI64 (b.day d) := by
  have hlow : -2147483648 ≤ a.day d := ha.2 d
  have hle : a.day d ≤ b.day d := hab.2 d
  have hhigh : b.day d ≤ 2147483647 := hb.2 d
  unfold FitsI64
  omega

/-- What reading an event leads to: a loop that goes on, and a database in which the event is
recorded, once its `PATCH` is through. -/
structure ReadRecords (names : List String) (accounts : String → Account) (sent : Sent)
    (today : NaiveDate) (db : Json.Value) (next : FirebaseLoop) : Prop where
  hasRead : next.hasRead
  holds : Holds names
    (Function.update accounts sent.name ((accounts sent.name).record sent today)) (next.settled db)

/-- `patch_increment` counts in a total. -/
theorem readRecords_increment (h : Holds names accounts db) (hmem : sent.name ∈ names)
    (hkey : IsKey sent.name) (t : Total)
    (hrecord : (accounts sent.name).record sent today =
      (accounts sent.name).setTotal t ((accounts sent.name).total t + 1))
    (hfits : FitsI64 (((accounts sent.name).record sent today).total t)) :
    ReadRecords names accounts sent today db
      (.patchIncrement (fun item => .ok (getData db item)) sent.name t.key) := by
  have hread : FirebaseLoop.patchIncrement (fun item => .ok (getData db item)) sent.name t.key =
      .patching sent.name [(t.key, .int ((accounts sent.name).total t + 1))] := by
    simp only [FirebaseLoop.patchIncrement, getData_app db hkey t.isKey, h.total sent.name hmem t]
  rw [hread]
  refine ⟨trivial, ?_⟩
  show Holds _ _ (patchData db sent.name _)
  rw [patchData_app db _ hkey, hrecord]
  apply holds_write_total h hmem t
  rw [hrecord, Account.setTotal_total, Function.update_self] at hfits
  exact hfits

/-- `LongestSession` writes a longer session. -/
theorem readRecords_longest (h : Holds names accounts db) (hmem : sent.name ∈ names)
    (hkey : IsKey sent.name) (hkind : sent.kind = .longestSession) :
    ReadRecords names accounts sent today db
      (.longestSession (fun item => .ok (getData db item))
        (sessionItem sent.name sent.counter)) := by
  have hrecord : (accounts sent.name).record sent today =
      (accounts sent.name).setTotal .longestSession
        (max ((accounts sent.name).total .longestSession) sent.counter) := by
    rw [Account.record, hkind]
  have hfits := sent.fits
  have hparse : parseI64 (Nat.toDigits 10 sent.counter) = some (sent.counter : Int) :=
    parseI64_toDigits (by omega)
  have hget : (getData db ("/apps/" ++ sent.name ++ "/longestSession")).asI64 =
      some ((accounts sent.name).total .longestSession) := by
    rw [getData_longestSession db hkey]
    exact h.total sent.name hmem .longestSession
  simp only [FirebaseLoop.longestSession, splitOn_sessionItem sent.plain, String.ofList_toList,
    hget, List.head?_cons, Option.bind_some, hparse]
  split
  · next hlonger =>
    refine ⟨trivial, ?_⟩
    show Holds _ _ (patchData db sent.name [(Total.longestSession.key, _)])
    rw [patchData_app db _ hkey, hrecord, max_eq_right (by omega)]
    apply holds_write_total h hmem
    unfold FitsI64
    omega
  · next hle =>
    -- the maximum is the one that is there
    refine ⟨trivial, ?_⟩
    show Holds _ _ db
    rw [hrecord, max_eq_left (by omega)]
    have hsame : (accounts sent.name).setTotal .longestSession
        ((accounts sent.name).total .longestSession) = accounts sent.name := by
      ext x
      · rw [Account.setTotal_total, Function.update_eq_self]
      · rfl
    rw [hsame, Function.update_eq_self]
    exact h

/-- `Timeline` counts on a day. -/
theorem readRecords_timeline (h : Holds names accounts db) (hmem : sent.name ∈ names)
    (hkey : IsKey sent.name) (hkind : sent.kind = .timeline)
    (hfits : FitsI64 (((accounts sent.name).record sent today).day today)) :
    ReadRecords names accounts sent today db
      (.timeline (fun item => .ok (getData db item)) today sent.name) := by
  have hrecord : (accounts sent.name).record sent today =
      (accounts sent.name).setDay today ((accounts sent.name).day today + 1) := by
    rw [Account.record, hkind]
  have hread : FirebaseLoop.timeline (fun item => .ok (getData db item)) today sent.name =
      .patching (sent.name ++ "/timeline/year/" ++ yearStr today ++ "/" ++ monthStr today)
        [(dayStr today, .int ((accounts sent.name).day today + 1))] := by
    have hday := h.day sent.name hmem today
    simp only [FirebaseLoop.timeline, getData_day db hkey]
    cases hget : (db.atPath (dayPath sent.name today)).asI64 with
    | none =>
      rw [hget, Option.getD_none] at hday
      rw [← hday]
      rfl
    | some v =>
      rw [hget, Option.getD_some] at hday
      rw [← hday]
  rw [hread]
  refine ⟨trivial, ?_⟩
  show Holds _ _ (patchData db _ _)
  rw [patchData_day db _ hkey, hrecord]
  apply holds_write_day h hmem today
  rw [hrecord, Account.setDay_day, Function.update_self] at hfits
  exact hfits

/-- **The `GET` and the `PATCH` of an event** of an app that is there record the event. -/
theorem read_records (h : Holds names accounts db) (hmem : sent.name ∈ names)
    (hkey : IsKey sent.name) (hlow : Account.const (-2147483648) ≤ accounts sent.name)
    (hhigh : (accounts sent.name).record sent today ≤ Account.const 2147483647) :
    ReadRecords names accounts sent today db
      (.read (fun item => .ok (getData db item)) today sent.event) := by
  have hle := Account.le_record sent today (accounts sent.name)
  have htotal := fitsI64_of_total hlow hle hhigh
  cases hkind : sent.kind with
  | longestSession =>
    have hread : ReadRecords names accounts sent today db _ :=
      readRecords_longest h hmem hkey hkind
    simp only [Sent.event, hkind]
    exact hread
  | duration =>
    have hrecord : (accounts sent.name).record sent today = (accounts sent.name).setTotal .duration
        ((accounts sent.name).total .duration + 1) := by
      rw [Account.record, hkind]
    have hread := readRecords_increment h hmem hkey .duration hrecord (htotal _)
    simp only [Sent.event, hkind]
    exact hread
  | launches =>
    have hrecord : (accounts sent.name).record sent today = (accounts sent.name).setTotal .launches
        ((accounts sent.name).total .launches + 1) := by
      rw [Account.record, hkind]
    have hread := readRecords_increment h hmem hkey .launches hrecord (htotal _)
    simp only [Sent.event, hkind]
    exact hread
  | timeline =>
    have hread := readRecords_timeline h hmem hkey hkind (fitsI64_of_day hlow hle hhigh today)
    simp only [Sent.event, hkind]
    exact hread

end

/-! ## The event loop -/

/-- The accounts of `names` will be `goal` when the events that are waiting, and the one that is
being handled, are recorded. -/
structure FirebaseInvariant (day : Nat → NaiveDate) (names : List String)
    (goal : String → Account) (s : FirebaseHandling) : Prop where
  pending : ∃ (rest : List Sent) (accounts : String → Account),
    s.events = rest.map Sent.event ∧ (∀ sent ∈ rest, sent.name ∈ names) ∧
    Holds names accounts (s.loop.settled s.db) ∧
    (∀ p ∈ names, Account.const (-2147483648) ≤ accounts p) ∧
    ((s.loop.hasRead ∧ ∀ p ∈ names, (accounts p).after day p rest = goal p) ∨
      ∃ sent, s.loop = .reading sent.event ∧ sent.name ∈ names ∧
        ∀ p ∈ names, (accounts p).after day p (sent :: rest) = goal p)

section
variable {day : Nat → NaiveDate} {names : List String} {goal : String → Account}

/-- **One step of the Firebase event loop**: what the accounts are going to be stays the same. -/
theorem firebaseInvariant_step (hkeys : ∀ p ∈ names, IsKey p)
    (hgoals : ∀ p ∈ names, goal p ≤ Account.const 2147483647) (s : FirebaseHandling) (inp : Input)
    (s' : FirebaseHandling) (hinv : FirebaseInvariant day names goal s)
    (hinp : onTime day s.events inp) (hstep : firebaseLoop.step s inp = some s') :
    FirebaseInvariant day names goal s' := by
  obtain ⟨rest, accounts, hrest, hstored, hholds, hlow, hcases⟩ := hinv.pending
  obtain ⟨loop, events, db⟩ := s
  change events = rest.map Sent.event at hrest
  subst hrest
  cases loop with
  | idle =>
    rcases hcases with ⟨-, hgoal⟩ | ⟨sent, hbusy, -⟩
    · cases rest with
      | nil => cases hstep
      | cons sent rest =>
        cases hstep
        refine ⟨rest, accounts, rfl, fun e he => hstored e (List.mem_cons_of_mem _ he), hholds,
          hlow, .inr ⟨sent, rfl, hstored sent List.mem_cons_self, hgoal⟩⟩
    · cases hbusy
  | reading event =>
    rcases hcases with ⟨hfalse, -⟩ | ⟨sent, hbusy, hmem, hgoal⟩
    · exact hfalse.elim
    · cases hbusy
      cases hstep
      have hdate : inp.now.date = day rest.length := by
        rw [hinp.2]
        show day (rest.map Sent.event).length = _
        rw [List.length_map]
      have hrecord : ((accounts sent.name).record sent (day rest.length)).after day sent.name rest =
          goal sent.name := by
        rw [← hgoal sent.name hmem, Account.after, if_pos rfl]
      have hhigh := le_trans (hrecord ▸ Account.le_after day sent.name rest _)
        (hgoals sent.name hmem)
      have hread := read_records hholds hmem (hkeys sent.name hmem) (hlow sent.name hmem) hhigh
      simp only [Input.statement_of_none hinp.1, hdate]
      refine ⟨rest, _, rfl, hstored, hread.holds, fun p hp => ?_,
        .inl ⟨hread.hasRead, fun p hp => ?_⟩⟩
      · by_cases hname : p = sent.name
        · subst hname
          rw [Function.update_self]
          exact le_trans (hlow sent.name hp) (Account.le_record sent _ _)
        · rw [Function.update_of_ne hname]
          exact hlow p hp
      · rw [← hgoal p hp, Account.after]
        by_cases hname : p = sent.name
        · subst hname
          rw [Function.update_self, if_pos rfl]
        · rw [Function.update_of_ne hname, if_neg (Ne.symm hname)]
  | patching item value =>
    rcases hcases with ⟨-, hgoal⟩ | ⟨sent, hbusy, -⟩
    · simp only [firebaseLoop, FirebaseLoop.step, Input.statement_of_none hinp.1] at hstep
      cases hstep
      exact ⟨rest, accounts, rfl, hstored, hholds, hlow, .inl ⟨trivial, hgoal⟩⟩
    · cases hbusy
  | stopped => cases hstep

/-- How many requests of an event are still to be sent, at most. -/
def FirebaseLoop.requestsLeft : FirebaseLoop → Nat
  | .reading _ => 2
  | .patching _ _ => 1
  | _ => 0

/-- What a loop has left to do: an event is taken, and has two requests. -/
def FirebaseHandling.requestsLeft (s : FirebaseHandling) : Nat :=
  s.loop.requestsLeft + 3 * s.events.length

/-- After the `GET` of an event only its `PATCH` is left. -/
theorem requestsLeft_read (get : String → Except DbErr Json.Value) (dt : NaiveDate)
    (event : Event) : (FirebaseLoop.read get dt event).requestsLeft ≤ 1 := by
  have hincrement : ∀ item incType,
      (FirebaseLoop.patchIncrement get item incType).requestsLeft ≤ 1 := by
    intro item incType
    unfold FirebaseLoop.patchIncrement
    repeat' split
    all_goals simp [FirebaseLoop.requestsLeft]
  obtain ⟨item, kind⟩ := event
  cases kind with
  | longestSession =>
    show (FirebaseLoop.longestSession get item).requestsLeft ≤ 1
    unfold FirebaseLoop.longestSession
    repeat' split
    all_goals simp [FirebaseLoop.requestsLeft]
  | duration => exact hincrement item "duration"
  | launches => exact hincrement item "launches"
  | timeline =>
    show (FirebaseLoop.timeline get dt item).requestsLeft ≤ 1
    unfold FirebaseLoop.timeline
    split <;> simp [FirebaseLoop.requestsLeft]

/-- The loop of an invariant state goes on as long as there is something to do. -/
theorem firebaseLoop_goesOn {s : FirebaseHandling} {inp : Input}
    (hinv : FirebaseInvariant day names goal s) (hkeys : ∀ p ∈ names, IsKey p)
    (hgoals : ∀ p ∈ names, goal p ≤ Account.const 2147483647) (hinp : onTime day s.events inp)
    (hbusy : ¬ (s.loop = .idle ∧ s.events = [])) :
    ∃ s', firebaseLoop.step s inp = some s' ∧ FirebaseInvariant day names goal s' ∧
      s'.requestsLeft < s.requestsLeft := by
  have hnext := fun s' => firebaseInvariant_step hkeys hgoals s inp s' hinv hinp
  obtain ⟨loop, events, db⟩ := s
  cases loop with
  | idle =>
    cases events with
    | nil => exact absurd ⟨rfl, rfl⟩ hbusy
    | cons event rest =>
      refine ⟨_, rfl, hnext _ rfl, ?_⟩
      simp only [FirebaseHandling.requestsLeft, FirebaseLoop.requestsLeft, List.length_cons]
      omega
  | reading event =>
    refine ⟨_, rfl, hnext _ rfl, ?_⟩
    have hread := requestsLeft_read (fun item => inp.statement (.ok (getData db item)))
      inp.now.date event
    exact Nat.add_lt_add_right (Nat.lt_succ_of_le hread) _
  | patching item value =>
    have hstep : firebaseLoop.step ⟨.patching item value, events, db⟩ inp =
        some ⟨.idle, events, patchData db item value⟩ := by
      simp only [firebaseLoop, FirebaseLoop.step, Input.statement_of_none hinp.1, Option.map_some]
    refine ⟨_, hstep, hnext _ hstep, ?_⟩
    show 0 + 3 * events.length < 1 + 3 * events.length
    omega
  | stopped =>
    obtain ⟨rest, accounts, -, -, -, -, hcases⟩ := hinv.pending
    rcases hcases with ⟨hfalse, -⟩ | ⟨sent, hstopped, -⟩
    · exact hfalse.elim
    · cases hstopped

/-- **The Firebase client accounts for every event** about its apps: it gets to the end of the
events without stopping, and then the database holds the accounts that the events say. -/
theorem firebaseLoop_accounts {accounts : String → Account} {db : Json.Value}
    {waiting : List Sent} (hkeys : ∀ p ∈ names, IsKey p) (hholds : Holds names accounts db)
    (hstored : ∀ sent ∈ waiting, sent.name ∈ names)
    (hlow : ∀ p ∈ names, Account.const (-2147483648) ≤ accounts p)
    (hhigh : ∀ p ∈ names, (accounts p).after day p waiting ≤ Account.const 2147483647) :
    (∃ inputs s', firebaseLoop.Runs (fun s inp => onTime day s.events inp)
      ⟨.idle, waiting.map Sent.event, db⟩ inputs s' ∧ s'.loop = .idle ∧ s'.events = []) ∧
    ∀ inputs s', firebaseLoop.Runs (fun s inp => onTime day s.events inp)
      ⟨.idle, waiting.map Sent.event, db⟩ inputs s' →
      s'.loop ≠ .stopped ∧ (s'.loop = .idle → s'.events = [] →
        Holds names (fun p => (accounts p).after day p waiting) s'.db) := by
  let goal : String → Account := fun p => (accounts p).after day p waiting
  have hstart : FirebaseInvariant day names goal ⟨.idle, waiting.map Sent.event, db⟩ :=
    ⟨waiting, accounts, rfl, hstored, hholds, hlow, .inl ⟨trivial, fun _ _ => rfl⟩⟩
  constructor
  · let label : FirebaseHandling → Input := fun s =>
      { now := ⟨day s.events.length, NaiveDateTime.unixEpoch.time⟩ }
    exact System.exists_run_choosing FirebaseHandling.requestsLeft label (fun _ => ⟨rfl, rfl⟩)
      (fun s hinv hbusy => firebaseLoop_goesOn hinv hkeys hhigh ⟨rfl, rfl⟩ hbusy) _ hstart
      (Nat.le_refl _)
  · intro inputs s' hrun
    have hend := hrun.invariant (firebaseInvariant_step hkeys hhigh) hstart
    obtain ⟨rest, accounts', hrest, -, hholds', -, hcases⟩ := hend.pending
    constructor
    · intro hstopped
      rcases hcases with ⟨hfalse, -⟩ | ⟨sent, hbusy, -⟩
      · rw [hstopped] at hfalse
        exact hfalse
      · rw [hstopped] at hbusy
        cases hbusy
    · intro hidle hempty
      have hnone : rest = [] := by
        rw [hempty] at hrest
        exact List.map_eq_nil_iff.mp hrest.symm
      rcases hcases with ⟨-, hgoal⟩ | ⟨sent, hbusy, -⟩
      · rw [hidle] at hholds'
        rw [hnone] at hgoal
        exact hholds'.congr hgoal
      · rw [hidle] at hbusy
        cases hbusy

end

end TimeTracker
