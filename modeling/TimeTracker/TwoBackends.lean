import TimeTracker.FirebaseAccounts

/-!
# The two storage backends

The event loop of the Firebase client and the one of the SeaORM client, fed with the same events and
over stores that hold the same accounts.

* **`entryInvariant_step`**: the Firebase client does not survive an event of an app that is not
  stored, or makes an entry of that app.
* **`backends_agree`**: the two loops account alike if every event is about a stored app, and
  otherwise they do not.
-/

namespace TimeTracker

open Transition FirebaseClient

/-! ## An app that is not stored -/

/-- The event the Firebase loop is about to read. -/
def FirebaseLoop.unread : FirebaseLoop → List Event
  | .reading event => [event]
  | _ => []

section
variable {sent : Sent} {db : Json.Value} {dt : NaiveDate} {q : String}

/-- What a request writes is below the entry of an app. -/
def WritesBelow (db : Json.Value) (next : FirebaseLoop) : Prop :=
  next.settled db = db ∨
    ∃ path x, next.settled db = Json.Value.write db path x ∧ 2 < path.length

theorem writesBelow_increment (hp : IsKey q) {key : String} (hkey : IsKey key) :
    WritesBelow db (.patchIncrement (fun item => .ok (getData db item)) q key) := by
  simp only [FirebaseLoop.patchIncrement, getData_app db hp hkey]
  split
  · exact .inr ⟨appPath q key, _, patchData_app db _ hp, Nat.lt_succ_self 2⟩
  · exact .inl rfl

/-- The `PATCH` of an event goes below the entry of its app. -/
theorem writesBelow_read (hkey : IsKey sent.name) :
    WritesBelow db (.read (fun item => .ok (getData db item)) dt sent.event) := by
  cases hkind : sent.kind with
  | longestSession =>
    simp only [Sent.event, hkind, FirebaseLoop.read, FirebaseLoop.longestSession,
      splitOn_sessionItem sent.plain, String.ofList_toList]
    split
    · split
      · exact .inr ⟨appPath sent.name "longestSession", _, patchData_app db _ hkey,
          Nat.lt_succ_self 2⟩
      · exact .inl rfl
    · exact .inl rfl
  | duration =>
    simp only [Sent.event, hkind, FirebaseLoop.read]
    exact writesBelow_increment hkey (by decide)
  | launches =>
    simp only [Sent.event, hkind, FirebaseLoop.read]
    exact writesBelow_increment hkey (by decide)
  | timeline =>
    simp only [Sent.event, hkind, FirebaseLoop.read, FirebaseLoop.timeline]
    exact .inr ⟨dayPath sent.name dt, _, patchData_day db _ hkey dt, by simp [dayPath]⟩

/-- An entry that is there stays. -/
theorem entry_stays {next : FirebaseLoop} (hbelow : WritesBelow db next)
    (hthere : db.atPath ["apps", q] ≠ .null) : (next.settled db).atPath ["apps", q] ≠ .null := by
  rcases hbelow with hsame | ⟨path, x, hwrite, hlength⟩
  · rwa [hsame]
  · rw [hwrite]
    apply Json.Value.atPath_write_ne_null db x _ hthere
    intro hpre
    have hle := hpre.length_le
    simp only [List.length_cons, List.length_nil] at hle
    omega

/-- An app that is not stored has no members. -/
theorem appPath_of_missing (key : String) (hmissing : db.atPath ["apps", q] = .null) :
    db.atPath (appPath q key) = .null := by
  show db.atPath (["apps", q] ++ [key]) = .null
  rw [Json.Value.atPath_append, hmissing, Json.Value.atPath_null]

/-- A total of an app that is not stored is unwrapped. -/
theorem stopped_of_missing (hp : IsKey q) {key : String} (hkey : IsKey key)
    (hmissing : db.atPath ["apps", q] = .null) :
    FirebaseLoop.patchIncrement (fun item => .ok (getData db item)) q key = .stopped := by
  simp only [FirebaseLoop.patchIncrement, getData_app db hp hkey, appPath_of_missing key hmissing]
  rfl

/-- **An event of an app that is not stored** stops the Firebase client, or makes an entry. -/
theorem read_of_missing (hkey : IsKey sent.name)
    (hmissing : db.atPath ["apps", sent.name] = .null) :
    FirebaseLoop.read (fun item => .ok (getData db item)) dt sent.event = .stopped ∨
      ((FirebaseLoop.read (fun item => .ok (getData db item)) dt sent.event).settled db).atPath
        ["apps", sent.name] ≠ .null := by
  cases hkind : sent.kind with
  | longestSession =>
    left
    simp only [Sent.event, hkind, FirebaseLoop.read, FirebaseLoop.longestSession,
      splitOn_sessionItem sent.plain, String.ofList_toList, getData_longestSession db hkey,
      appPath_of_missing _ hmissing]
    rfl
  | duration =>
    left
    simp only [Sent.event, hkind, FirebaseLoop.read]
    exact stopped_of_missing hkey (by decide) hmissing
  | launches =>
    left
    simp only [Sent.event, hkind, FirebaseLoop.read]
    exact stopped_of_missing hkey (by decide) hmissing
  | timeline =>
    right
    simp only [Sent.event, hkind, FirebaseLoop.read, FirebaseLoop.timeline,
      FirebaseLoop.settled]
    rw [patchData_day db _ hkey]
    exact Json.Value.atPath_write_above db ["apps", sent.name] "timeline" _ _

end

/-- An event of `q` is still to be read, or the loop has stopped, or there is an entry of `q`. The
events that are still to be read are about names that are keys. -/
structure EntryInvariant (q : String) (s : FirebaseHandling) : Prop where
  pending : ∃ pending : List Sent, s.loop.unread ++ s.events = pending.map Sent.event ∧
    (∀ sent ∈ pending, IsKey sent.name) ∧
    (s.loop = .stopped ∨ (s.loop.settled s.db).atPath ["apps", q] ≠ .null ∨
      ∃ sent ∈ pending, sent.name = q)

/-- The next event to be read is about another app, or leaves its trace. -/
theorem entryInvariant_read {q : String} {event : Event} {events : List Event} {db : Json.Value}
    {dt : NaiveDate} (hinv : EntryInvariant q ⟨.reading event, events, db⟩) :
    EntryInvariant q
      ⟨.read (fun item => .ok (getData db item)) dt event, events, db⟩ := by
  obtain ⟨pending, hpending, hkeys, hcases⟩ := hinv.pending
  cases pending with
  | nil => cases hpending
  | cons sent rest =>
    rw [List.map_cons] at hpending
    obtain ⟨hevent, hrest⟩ := List.cons.inj hpending
    subst hevent
    have hrest : events = rest.map Sent.event := hrest
    have hunread : (FirebaseLoop.read (fun item => .ok (getData db item)) dt sent.event).unread
        = [] := by
      have hle := requestsLeft_read (fun item => .ok (getData db item)) dt sent.event
      cases hloop : FirebaseLoop.read (fun item => .ok (getData db item)) dt sent.event with
      | reading event =>
        rw [hloop] at hle
        exact absurd hle (Nat.not_succ_le_self 1)
      | _ => rfl
    have hkey := hkeys sent List.mem_cons_self
    refine ⟨rest, by rw [hunread, hrest, List.nil_append],
      fun e he => hkeys e (List.mem_cons_of_mem _ he), ?_⟩
    have hbelow : WritesBelow db
        (.read (fun item => .ok (getData db item)) dt sent.event) := writesBelow_read hkey
    rcases hcases with hstopped | hthere | ⟨e, he, hname⟩
    · cases hstopped
    · exact .inr (.inl (entry_stays hbelow hthere))
    · rcases List.mem_cons.mp he with rfl | he
      · subst hname
        by_cases hmissing : db.atPath ["apps", e.name] = .null
        · exact (read_of_missing hkey hmissing).imp_right .inl
        · exact .inr (.inl (entry_stays hbelow hmissing))
      · exact .inr (.inr ⟨e, he, hname⟩)

/-- **One step of the Firebase event loop**: an event of `q` does not pass without a trace. -/
theorem entryInvariant_step {day : Nat → NaiveDate} {q : String} (s : FirebaseHandling)
    (inp : Input) (s' : FirebaseHandling) (hinv : EntryInvariant q s)
    (hinp : onTime day s.events inp) (hstep : firebaseLoop.step s inp = some s') :
    EntryInvariant q s' := by
  obtain ⟨loop, events, db⟩ := s
  cases loop with
  | idle =>
    cases events with
    | nil => cases hstep
    | cons event rest =>
      cases hstep
      obtain ⟨pending, hpending, hkeys, hcases⟩ := hinv.pending
      refine ⟨pending, hpending, hkeys, ?_⟩
      rcases hcases with hstopped | hthere
      · cases hstopped
      · exact .inr hthere
  | reading event =>
    cases hstep
    simp only [Input.statement_of_none hinp.1]
    exact entryInvariant_read hinv
  | patching item value =>
    simp only [firebaseLoop, FirebaseLoop.step, Input.statement_of_none hinp.1] at hstep
    cases hstep
    obtain ⟨pending, hpending, hkeys, hcases⟩ := hinv.pending
    refine ⟨pending, hpending, hkeys, ?_⟩
    rcases hcases with hstopped | hthere
    · cases hstopped
    · exact .inr hthere
  | stopped => cases hstep

/-! ## Both event loops -/

/-- The Firebase database and the tables hold the same apps, with the same accounts. -/
def Mirrors (tree : Json.Value) (db : Store) : Prop := Holds db.appNames db.accountOf tree

/-- No column of an app overflows: the entries of its account are `i32`s, and will be. -/
def NoOverflow (day : Nat → NaiveDate) (waiting : List Sent) (db : Store) : Prop :=
  ∀ p ∈ db.appNames, Account.const (-2147483648) ≤ db.accountOf p ∧
    (db.accountOf p).after day p waiting ≤ Account.const 2147483647

section
variable (day : Nat → NaiveDate) (waiting : List Sent) (tree : Json.Value) (db : Store)

/-- A run of the Firebase event loop over the events. -/
def FirebaseRun (inputs : List Input) (s' : FirebaseHandling) : Prop :=
  firebaseLoop.Runs (fun s inp => onTime day s.events inp)
    ⟨.idle, waiting.map Sent.event, tree⟩ inputs s'

/-- A run of the SeaORM event loop over the events. -/
def SeaormRun (inputs : List Input) (s' : Handling) : Prop :=
  eventLoop.Runs (fun s inp => onTime day s.events inp)
    ⟨.idle, waiting.map Sent.event, db⟩ inputs s'

/-- The two event loops account alike: both handle every event, the Firebase loop never stops, and
in the end the apps are the same, with the same accounts. -/
structure AccountAlike : Prop where
  firebase_ends : ∃ inputs s', FirebaseRun day waiting tree inputs s' ∧ s'.loop = .idle ∧
    s'.events = []
  firebase_goesOn : ∀ inputs s', FirebaseRun day waiting tree inputs s' → s'.loop ≠ .stopped
  seaorm_ends : ∃ inputs t', SeaormRun day waiting db inputs t' ∧ t'.loop = .idle ∧ t'.events = []
  alike : ∀ inputs s' inputs' t', FirebaseRun day waiting tree inputs s' → s'.loop = .idle →
    s'.events = [] → SeaormRun day waiting db inputs' t' → t'.loop = .idle → t'.events = [] →
    Mirrors s'.db t'.db ∧ t'.db.appNames = db.appNames

end

section
variable {day : Nat → NaiveDate} {waiting : List Sent} {tree : Json.Value} {db : Store}

/-- Events of stored apps. -/
theorem accountAlike_of_stored (hmirrors : Mirrors tree db) (hkeys : ∀ p ∈ db.appNames, IsKey p)
    (hfits : NoOverflow day waiting db) (hstored : ∀ sent ∈ waiting, sent.name ∈ db.appNames) :
    AccountAlike day waiting tree db := by
  obtain ⟨hends, hruns⟩ := firebaseLoop_accounts hkeys hmirrors hstored
    (fun p hp => (hfits p hp).1) fun p hp => (hfits p hp).2
  refine ⟨hends, fun inputs s' hrun => (hruns inputs s' hrun).1, eventLoop_ends_onTime day _, ?_⟩
  intro inputs s' inputs' t' hfirebase hidle hempty hseaorm hidle' hempty'
  have hholds := (hruns inputs s' hfirebase).2 hidle hempty
  obtain ⟨hnames, haccounts⟩ := eventLoop_accounts hseaorm hidle' hempty'
  refine ⟨?_, hnames⟩
  show Holds t'.db.appNames t'.db.accountOf s'.db
  rw [hnames]
  exact hholds.congr fun p hp => (haccounts p hp).symm

/-- Only events of stored apps, if the events are about names that Firebase can have as keys. -/
theorem stored_of_accountAlike (hnames : ∀ sent ∈ waiting, IsKey sent.name)
    (halike : AccountAlike day waiting tree db) (sent : Sent) (hmem : sent ∈ waiting) :
    sent.name ∈ db.appNames := by
  obtain ⟨inputs, s', hfirebase, hidle, hempty⟩ := halike.firebase_ends
  obtain ⟨inputs', t', hseaorm, hidle', hempty'⟩ := halike.seaorm_ends
  obtain ⟨hmirrors, happs⟩ :=
    halike.alike inputs s' inputs' t' hfirebase hidle hempty hseaorm hidle' hempty'
  have hstart : EntryInvariant sent.name ⟨.idle, waiting.map Sent.event, tree⟩ :=
    ⟨waiting, rfl, hnames, .inr (.inr ⟨sent, hmem, rfl⟩)⟩
  have hend := hfirebase.invariant entryInvariant_step hstart
  obtain ⟨pending, hpending, -, hcases⟩ := hend.pending
  have hnone : pending = [] := by
    rw [hidle, hempty] at hpending
    exact List.map_eq_nil_iff.mp hpending.symm
  rcases hcases with hstopped | hthere | ⟨e, he, -⟩
  · rw [hidle] at hstopped
    cases hstopped
  · -- an entry that is not in the tables
    rw [hidle] at hthere
    by_contra hmissing
    exact hthere (hmirrors.only sent.name (happs ▸ hmissing))
  · rw [hnone] at he
    cases he

/-- **The two storage backends account alike** if every event is about a stored app; and only then,
as far as the events are about names that Firebase can have as keys. -/
theorem backends_agree (hmirrors : Mirrors tree db) (hkeys : ∀ p ∈ db.appNames, IsKey p)
    (hfits : NoOverflow day waiting db) :
    ((∀ sent ∈ waiting, sent.name ∈ db.appNames) → AccountAlike day waiting tree db) ∧
      ((∀ sent ∈ waiting, IsKey sent.name) → AccountAlike day waiting tree db →
        ∀ sent ∈ waiting, sent.name ∈ db.appNames) := by
  constructor
  · exact accountAlike_of_stored hmirrors hkeys hfits
  · exact stored_of_accountAlike

end

/-! ## The app `a`, and an app that is gone -/

/-- The database with the one app `a`, as `put_data` writes it. -/
def treeWithA : Json.Value :=
  .obj [("apps", .obj [("a", .obj [("duration", .int 0), ("launches", .int 0),
    ("longestSession", .int 0), ("name", .str "a"), ("productName", .str "a")])])]

theorem mirrors_treeWithA : Mirrors treeWithA storeWithA where
  total p hp t := by
    have hname : p = "a" := List.mem_singleton.mp hp
    subst hname
    cases t <;> decide
  day p hp d := by
    have hname : p = "a" := List.mem_singleton.mp hp
    subst hname
    rfl
  only p hp := by
    have hne : "a" ≠ p := fun heq => hp (by rw [← heq]; decide)
    show (Json.lookup [("a", _)] p).getD Json.Value.null = Json.Value.null
    simp [Json.lookup, hne]

/-- One event of each kind, all of them of `a`. -/
def eventsOfA : List Sent :=
  [⟨"a", .launches, 0, by decide, by decide⟩, ⟨"a", .duration, 0, by decide, by decide⟩,
    ⟨"a", .timeline, 0, by decide, by decide⟩, ⟨"a", .longestSession, 1, by decide, by decide⟩]

/-- An event of `b`, which is not in the database any more. -/
def eventOfB : Sent := ⟨"b", .duration, 0, by decide, by decide⟩

/-- Every event is recorded on one day. -/
def oneDay (_ : Nat) : NaiveDate := NaiveDateTime.unixEpoch.date

theorem noOverflow_storeWithA {waiting : List Sent}
    (hhigh : (storeWithA.accountOf "a").after oneDay "a" waiting ≤ Account.const 2147483647) :
    NoOverflow oneDay waiting storeWithA := by
  intro p hp
  have hname : p = "a" := List.mem_singleton.mp hp
  subst hname
  refine ⟨⟨fun t => ?_, fun d => ?_⟩, hhigh⟩
  · cases t <;> decide
  · show (-2147483648 : Int) ≤ 0
    decide

theorem noOverflow_eventsOfA : NoOverflow oneDay eventsOfA storeWithA := by
  apply noOverflow_storeWithA
  refine ⟨fun t => ?_, fun d => ?_⟩
  · cases t <;> decide
  · show Function.update (fun _ => (0 : Int)) (oneDay 1) 1 d ≤ 2147483647
    by_cases hd : d = oneDay 1
    · rw [hd, Function.update_self]
      decide
    · rw [Function.update_of_ne hd]
      decide

theorem noOverflow_eventOfB : NoOverflow oneDay [eventOfB] storeWithA := by
  apply noOverflow_storeWithA
  refine ⟨fun t => ?_, fun d => ?_⟩
  · cases t <;> decide
  · show (0 : Int) ≤ 2147483647
    decide

/-- The two backends account alike for the events of `a`, and not for the one of `b`. -/
theorem backends_agree_storeWithA : AccountAlike oneDay eventsOfA treeWithA storeWithA ∧
    ¬ AccountAlike oneDay [eventOfB] treeWithA storeWithA := by
  constructor
  · exact (backends_agree mirrors_treeWithA (by decide) noOverflow_eventsOfA).1 (by decide)
  · intro halike
    have hstored := (backends_agree mirrors_treeWithA (by decide) noOverflow_eventOfB).2 (by decide)
      halike eventOfB List.mem_cons_self
    exact absurd hstored (by decide)

/-- **A `Duration` event of an app that was deleted** stops the Firebase client. -/
theorem backends_differ : ¬ ∀ (day : Nat → NaiveDate) (waiting : List Sent) (tree : Json.Value)
    (db : Store), Mirrors tree db → (∀ p ∈ db.appNames, IsKey p) → NoOverflow day waiting db →
      AccountAlike day waiting tree db := by
  intro hall
  have halike := hall oneDay [eventOfB] treeWithA storeWithA mirrors_treeWithA (by decide)
    noOverflow_eventOfB
  have hread : FirebaseLoop.read (fun item => .ok (getData treeWithA item)) (oneDay 0)
      eventOfB.event = .stopped := by
    have hevent : eventOfB.event = ("b", .duration) := rfl
    rw [hevent, FirebaseLoop.read]
    apply stopped_of_missing
    · decide
    · decide
    · rfl
  have hstep : firebaseLoop.step ⟨.reading eventOfB.event, [], treeWithA⟩ {} =
      some ⟨.stopped, [], treeWithA⟩ := by
    show some (FirebaseHandling.mk (.read _ _ _) [] treeWithA) = _
    exact congrArg (fun loop => some (FirebaseHandling.mk loop [] treeWithA)) hread
  have hrun : FirebaseRun oneDay [eventOfB] treeWithA [{}, {}] ⟨.stopped, [], treeWithA⟩ :=
    .cons ⟨rfl, rfl⟩ rfl (.cons ⟨rfl, rfl⟩ hstep (.nil _))
  exact halike.firebase_goesOn _ _ hrun rfl

end TimeTracker
