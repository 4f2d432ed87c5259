import TimeTracker.Cpp.Requests
import TimeTracker.TwoBackends

/-!
# How the C++ tracker records its events

* `Recording.accounts`: the accounts that the events recorded so far make.
* `RecordingInvariant`: the database holds them, and what a call is about to write records its
  event.
* **`recordsEvents`**: so in every run, but for the events whose request to write was refused.
* **`oneExceptionStopsRecording`**: a request without an answer, or a `GET` of a total that is
  refused, is the last that the tracker sends.
-/

namespace TimeTracker.Cpp

open Transition FirebaseClient

/-! ## What is recorded -/

/-- The accounts after an event. -/
def Recorded.record (accounts : String → Account) (r : Recorded) : String → Account :=
  if r.written then
    Function.update accounts r.process
      (recieve r.type (r.type.data r.minutes) r.time r.answered (accounts r.process))
  else accounts

/-- The accounts after what has been recorded, one event after the other. -/
def Recording.accounts (start : String → Account) (c : Recording) : String → Account :=
  c.recorded.foldl Recorded.record start

/-- There is room for another event in every count; `most` is the highest count at the start. -/
def roomLeft (most : Nat) (c : Recording) (_ : RecordingLabel) : Prop :=
  most + c.recorded.length < 2147483647

instance (most : Nat) (c : Recording) (l : RecordingLabel) : Decidable (roomLeft most c l) :=
  inferInstanceAs (Decidable (_ < _))

/-! ## What the counts can be -/

/-- An account whose counts have not passed `n`, and whose longest session is an `int`. -/
structure Within (n : Nat) (a : Account) : Prop where
  low : Account.const (-2147483648) ≤ a
  duration : a.total .duration ≤ n
  launches : a.total .launches ≤ n
  longest : a.total .longestSession ≤ 2147483647
  day : ∀ d, a.day d ≤ n

section
variable {n minutes : Nat} {a : Account}

theorem Within.mono {m : Nat} (h : Within n a) (hle : n ≤ m) : Within m a where
  low := h.low
  duration := h.duration.trans (by omega)
  launches := h.launches.trans (by omega)
  longest := h.longest
  day d := (h.day d).trans (by omega)

theorem Within.fits (h : Within n a) (hn : n ≤ 2147483647) : FitsInts a := by
  have hlow : ∀ t, (-2147483648 : Int) ≤ a.total t := h.low.1
  have hlow' : ∀ d, (-2147483648 : Int) ≤ a.day d := h.low.2
  constructor
  · intro t
    have := hlow t
    have hduration := h.duration
    have hlaunches := h.launches
    have hlongest := h.longest
    cases t with
    | duration => exact ⟨this, by omega⟩
    | launches => exact ⟨this, by omega⟩
    | longestSession => exact ⟨this, by omega⟩
  · intro d
    have := h.day d
    exact ⟨hlow' d, by omega⟩

/-- A total is set to a value in its range. -/
theorem Within.setTotal {v : Int} (h : Within n a) (t : Total) (hlow : -2147483648 ≤ v)
    (hcount : t ≠ .longestSession → v ≤ n) (hlongest : v ≤ 2147483647) :
    Within n (a.setTotal t v) := by
  have htotal : ∀ t', t' ≠ .longestSession → a.total t' ≤ n → (a.setTotal t v).total t' ≤ n := by
    intro t' ht' hle
    rw [Account.setTotal_total]
    by_cases heq : t' = t
    · rw [heq, Function.update_self]
      exact hcount (heq ▸ ht')
    · rw [Function.update_of_ne heq]
      exact hle
  refine ⟨⟨fun t' => ?_, h.low.2⟩, htotal _ (by decide) h.duration,
    htotal _ (by decide) h.launches, ?_, h.day⟩
  · show (-2147483648 : Int) ≤ (a.setTotal t v).total t'
    rw [Account.setTotal_total]
    by_cases heq : t' = t
    · rw [heq, Function.update_self]
      exact hlow
    · rw [Function.update_of_ne heq]
      exact h.low.1 t'
  · rw [Account.setTotal_total]
    by_cases heq : Total.longestSession = t
    · rw [heq, Function.update_self]
      exact hlongest
    · rw [Function.update_of_ne heq]
      exact h.longest

/-- A total but for the longest session counts one more. -/
theorem Within.count (h : Within n a) (hn : n < 2147483647) (t : Total) (ht : a.total t ≤ n) :
    Within (n + 1) (a.setTotal t (a.total t + 1)) := by
  have hlow : (-2147483648 : Int) ≤ a.total t := h.low.1 t
  apply (h.mono (Nat.le_succ n)).setTotal
  · omega
  · intro _
    omega
  · omega

/-- An event counts one more at most. -/
theorem within_recieve (h : Within n a) (hn : n < 2147483647) (hminutes : minutes ≤ 2147483647)
    (type : RecieveTypes) (time : NaiveDate) (answered : Bool) :
    Within (n + 1) (recieve type (type.data minutes) time answered a) := by
  have hnext : Within (n + 1) a := h.mono (Nat.le_succ n)
  cases type with
  | longestSession =>
    have hlow : (-2147483648 : Int) ≤ a.total .longestSession := h.low.1 .longestSession
    have hlongest := h.longest
    have hdata : RecieveTypes.longestSession.data minutes = (minutes : Int) := rfl
    apply hnext.setTotal
    · omega
    · exact fun hne => absurd rfl hne
    · omega
  | duration => exact h.count hn .duration h.duration
  | launches => exact h.count hn .launches h.launches
  | timeline =>
    have hvalue : ∀ d, -2147483648 ≤ (recieve .timeline 1 time answered a).day d ∧
        (recieve .timeline 1 time answered a).day d ≤ (n + 1 : Nat) := by
      intro d
      have hlow : (-2147483648 : Int) ≤ a.day d := h.low.2 d
      have hhigh := h.day d
      rw [recieve, Account.setDay_day]
      by_cases hd : d = time
      · subst hd
        rw [Function.update_self]
        split <;> omega
      · rw [Function.update_of_ne hd]
        omega
    exact ⟨⟨h.low.1, fun d => (hvalue d).1⟩, hnext.duration, hnext.launches, h.longest,
      fun d => (hvalue d).2⟩

end

/-! ## The accounts in the database -/

def Recorded.event (r : Recorded) : String × RecieveTypes := (r.process, r.type)

/-- The event of a call that is about to return: its task has not gone on yet. -/
def pending : Option RecieveCall → List (String × RecieveTypes)
  | some ⟨_, type, process, _, .unlock⟩ => [(process, type)]
  | _ => []

/-- What is about to be written records its event: the value it goes by is still the one in the
database. -/
structure RecordingInvariant (names : List String) (start : String → Account)
    (days : String → NaiveDate → Int) (most : Nat) (c : Recording) : Prop where
  calling : Calling names c
  keeps : Keeps names (c.accounts start) days c.db
  within : ∀ p ∈ names, Within (most + c.recorded.length) (c.accounts start p)
  write : ∀ call ∈ c.call, ∀ time answered request, call.point = .write time answered request →
    Keeps names (Recorded.record (c.accounts start)
      ⟨call.type, call.process, call.minutes, time, answered, true⟩) days (request.send c.db)
  sent : ¬ c.hasThrown → c.recorded.map Recorded.event = c.tasking.sent ++ pending c.call

section
variable {names : List String} {start : String → Account} {days : String → NaiveDate → Int}
  {most : Nat} {c c' : Recording}

/-- A step of the scanner or of another task, which sends nothing. -/
theorem recordingInvariant_tasking (hinv : RecordingInvariant names start days most c)
    {t : Tasking} (hcalling : Calling names { c with tasking := t })
    (hsent : t.sent = c.tasking.sent) :
    RecordingInvariant names start days most { c with tasking := t } := by
  refine ⟨hcalling, hinv.keeps, hinv.within, hinv.write, fun hthrown => ?_⟩
  show _ = t.sent ++ _
  rw [hsent]
  exact hinv.sent hthrown

theorem accounts_append (c : Recording) (r : Recorded) {call : Option RecieveCall}
    {db : Json.Value} :
    Recording.accounts start { c with call, db, recorded := c.recorded ++ [r] } =
      Recorded.record (c.accounts start) r := by
  show (c.recorded ++ [r]).foldl Recorded.record start = _
  rw [List.foldl_append]
  rfl

/-- **The `GET`**: what the call goes on to write records its event. -/
theorem recordingInvariant_getData (hkeys : ∀ p ∈ names, IsKey p) {response : Response}
    {time : NaiveDate} (hinv : RecordingInvariant names start days most c)
    (hroom : roomLeft most c (.getData response time))
    (h : recording.step c (.getData response time) = some c') :
    RecordingInvariant names start days most c' := by
  have hcalling := calling_step hinv.calling h
  obtain ⟨k, type, process, minutes, hcall, hnext⟩ := recording_getData h
  have hok := hinv.calling.call _ hcall
  rcases hnext with ⟨-, rfl⟩ | ⟨request, -, hrequest, rfl⟩
  · refine ⟨hcalling, hinv.keeps, hinv.within, fun call hmem => ?_, fun hnot => ?_⟩
    · cases hmem
      exact fun _ _ _ hpoint => by cases hpoint
    · exact absurd ⟨_, rfl, rfl⟩ hnot
  · refine ⟨hcalling, hinv.keeps, hinv.within, fun call hmem => ?_, fun _ => ?_⟩
    · cases hmem
      intro _ _ _ hpoint
      cases hpoint
      have hp : process ∈ names := hinv.calling.process_mem hcall
      have hwithin := hinv.within _ hp
      have hanswered : decide (response = .ok) = true ∨ type = .timeline := by
        by_cases hresponse : response = .ok
        · exact .inl (decide_eq_true hresponse)
        · -- a refused `GET` answers `null`
          right
          by_contra htype
          rw [decide_eq_false hresponse, getDataBase, if_neg Bool.false_ne_true,
            onDataRecieve_null.mpr htype] at hrequest
          cases hrequest
      have hnext := within_recieve hwithin hroom hok.minutes type time (response = .ok)
      obtain ⟨w, hw, hkeeps⟩ := onDataRecieve_keeps hinv.keeps hp (hkeys _ hp)
        (hwithin.fits hroom.le) (hnext.fits hroom) hanswered
      rw [hrequest, Option.some.injEq] at hw
      rw [← hw] at hkeeps
      exact hkeeps
    · have hsent := hinv.sent (not_hasThrown hcall RecievePoint.noConfusion)
      rw [hcall] at hsent
      exact hsent

/-- **The request that writes**: it records the event, or nothing. -/
theorem recordingInvariant_write {response : Response} {carriedOut : Bool}
    (hinv : RecordingInvariant names start days most c)
    (hroom : roomLeft most c (.write response carriedOut))
    (h : recording.step c (.write response carriedOut) = some c') :
    RecordingInvariant names start days most c' := by
  have hcalling := calling_step hinv.calling h
  obtain ⟨k, type, process, minutes, time, answered, request, written, hcall, rfl⟩ :=
    recording_write h
  have hok := hinv.calling.call _ hcall
  have hrecord := hinv.write _ hcall time answered request rfl
  refine ⟨hcalling, ?_, fun p hp => ?_, fun call hmem => ?_, fun hnot => ?_⟩
  · rw [accounts_append]
    cases written with
    | true => exact hrecord
    | false => exact hinv.keeps
  · rw [accounts_append, List.length_append]
    show Within (most + c.recorded.length + 1) _
    have hwithin := hinv.within p hp
    cases written with
    | false => exact hwithin.mono (Nat.le_succ _)
    | true =>
      show Within _ (Function.update (c.accounts start) process _ p)
      by_cases heq : p = process
      · subst heq
        rw [Function.update_self]
        exact within_recieve hwithin hroom hok.minutes type time answered
      · rw [Function.update_of_ne heq]
        exact hwithin.mono (Nat.le_succ _)
  · cases hmem
    intro _ _ _ hpoint
    dsimp only at hpoint
    split at hpoint <;> cases hpoint
  · have hsent := hinv.sent (not_hasThrown hcall RecievePoint.noConfusion)
    rw [hcall] at hsent
    have hanswer : response ≠ .lost := fun hlost => hnot ⟨_, rfl, if_pos hlost⟩
    show (c.recorded ++ [_]).map Recorded.event = c.tasking.sent ++ pending (some _)
    rw [if_neg hanswer, List.map_append, hsent]
    exact congrArg (· ++ _) (List.append_nil _)

/-- **The call returns**, and its task goes on: the event is sent. -/
theorem recordingInvariant_unlock (hinv : RecordingInvariant names start days most c)
    (h : recording.step c .unlock = some c') : RecordingInvariant names start days most c' := by
  have hcalling := calling_step hinv.calling h
  obtain ⟨k, type, process, minutes, t, hcall, hsends, rfl⟩ :=
    recording_unlock_sends hinv.calling h
  have hsent := hinv.sent (not_hasThrown hcall RecievePoint.noConfusion)
  rw [hcall] at hsent
  refine ⟨hcalling, hinv.keeps, hinv.within, fun call hmem => (by cases hmem), fun _ => ?_⟩
  show _ = t.sent ++ []
  rw [hsends, List.append_nil]
  exact hsent

theorem recordingInvariant_step (hkeys : ∀ p ∈ names, IsKey p) {l : RecordingLabel}
    (hinv : RecordingInvariant names start days most c) (hroom : roomLeft most c l)
    (h : recording.step c l = some c') : RecordingInvariant names start days most c' := by
  have hcalling := calling_step hinv.calling h
  cases l with
  | delegate order running =>
    obtain ⟨t, hstep, rfl⟩ := recording_delegate h
    exact recordingInvariant_tasking hinv hcalling (tasks_delegate hstep).1
  | task k launched due =>
    obtain ⟨t, hsent, rfl⟩ := recording_task_sends h
    exact recordingInvariant_tasking hinv hcalling hsent
  | lock k minutes =>
    obtain ⟨task, type, hcall, -, -, -, rfl⟩ := recording_lock h
    refine ⟨hcalling, hinv.keeps, hinv.within, fun call hmem => ?_, fun _ => ?_⟩
    · cases hmem
      exact fun _ _ _ hpoint => by cases hpoint
    · have hnot : ¬ c.hasThrown := by
        rintro ⟨call, hmem, -⟩
        rw [hcall] at hmem
        cases hmem
      have hsent := hinv.sent hnot
      rw [hcall] at hsent
      exact hsent
  | getData response time => exact recordingInvariant_getData hkeys hinv hroom h
  | write response carriedOut => exact recordingInvariant_write hinv hroom h
  | unlock => exact recordingInvariant_unlock hinv h

theorem recordingInvariant_initial {map : ProcessMap} {db : Json.Value}
    (hmap : ∀ p ∈ map, p ∈ names) (hdb : Keeps names start days db)
    (hstart : ∀ p ∈ names, Within most (start p)) :
    RecordingInvariant names start days most (.initial map db) where
  calling := calling_initial hmap
  keeps := hdb
  within := hstart
  write _ hcall := by cases hcall
  sent _ := rfl

/-- The event is one more minute of `p`. -/
def Recorded.isMinuteOf (p : String) (r : Recorded) : Bool :=
  r.written && (r.process = p && r.type = .duration)

/-- An event that is recorded counts in the duration of its app, if it is a minute of it. -/
theorem duration_record (accounts : String → Account) (r : Recorded) (p : String) :
    (r.record accounts p).total .duration =
      (accounts p).total .duration + if r.isMinuteOf p then 1 else 0 := by
  obtain ⟨type, process, minutes, time, answered, written⟩ := r
  cases written with
  | false => exact (Int.add_zero _).symm
  | true =>
    show (Function.update accounts process _ p).total .duration = _
    by_cases hp : p = process
    · subst hp
      rw [Function.update_self]
      cases type <;> simp [recieve, RecieveTypes.data, Recorded.isMinuteOf]
    · rw [Function.update_of_ne hp]
      simp [Recorded.isMinuteOf, Ne.symm hp]

/-- No minute is lost or counted twice. -/
theorem duration_accounts (recorded : List Recorded) (p : String) :
    ∀ accounts : String → Account, ((recorded.foldl Recorded.record accounts p).total .duration) =
      (accounts p).total .duration + recorded.countP (Recorded.isMinuteOf p) := by
  induction recorded with
  | nil => exact fun _ => (Int.add_zero _).symm
  | cons r rest ih =>
    intro accounts
    rw [List.foldl_cons, ih, duration_record, List.countP_cons]
    split <;> simp only [Nat.cast_add, Nat.cast_one, Nat.cast_zero] <;> omega

/-- The step ends in an exception: a request gets no answer, or the `GET` of a total is refused. -/
def throws (c : Recording) : RecordingLabel → Bool
  | .getData .lost _ | .write .lost _ => true
  | .getData .refused _ => c.call.any fun call => call.type ≠ .timeline
  | _ => false

/-- Where there is an answer, only that of a refused `GET` of a total makes `as_integer` throw. -/
theorem onDataRecieve_throws (hkeys : ∀ p ∈ names, IsKey p)
    (hinv : RecordingInvariant names start days most c) {call : RecieveCall}
    (hcall : c.call = some call) (hroom : most + c.recorded.length < 2147483647)
    {response : Response} (hanswer : response ≠ .lost) (time : NaiveDate) :
    onDataRecieve call.type call.process (call.type.data call.minutes) time
        (getDataBase (response = .ok) c.db (searchQuery call.type call.process time)) = none ↔
      response = .refused ∧ call.type ≠ .timeline := by
  have hok := hinv.calling.call call hcall
  cases response with
  | lost => exact absurd rfl hanswer
  | refused =>
    show onDataRecieve _ _ _ time .null = none ↔ _
    rw [onDataRecieve_null]
    simp
  | ok =>
    have hp : call.process ∈ names := hinv.calling.process_mem hcall
    have hwithin := hinv.within _ hp
    have hnext := within_recieve hwithin hroom hok.minutes call.type time true
    obtain ⟨w, hw, -⟩ := onDataRecieve_keeps hinv.keeps hp (hkeys _ hp)
      (hwithin.fits hroom.le) (hnext.fits hroom) (.inl rfl)
    show onDataRecieve _ _ _ _ (getDataBase true _ _) = none ↔ _
    rw [hw]
    simp

/-- A `GET` throws, or the call goes on. -/
theorem hasThrown_getData (hkeys : ∀ p ∈ names, IsKey p) {response : Response} {time : NaiveDate}
    (hinv : RecordingInvariant names start days most c)
    (hroom : roomLeft most c (.getData response time))
    (h : recording.step c (.getData response time) = some c') :
    c'.hasThrown ↔ throws c (.getData response time) = true := by
  obtain ⟨k, type, process, minutes, hcall, hnext⟩ := recording_getData h
  have hnone : response ≠ .lost → (_ ↔ response = .refused ∧ type ≠ .timeline) := fun hlost =>
    onDataRecieve_throws hkeys hinv hcall hroom hlost time
  have hthrows : throws c (.getData response time) = true ↔
      response = .lost ∨ response = .refused ∧ type ≠ .timeline := by
    cases response <;> simp [throws, hcall]
  rw [hthrows]
  rcases hnext with ⟨hcause, rfl⟩ | ⟨request, hlost, hrequest, rfl⟩
  · rw [hasThrown_iff rfl]
    refine iff_of_true rfl ?_
    by_cases hlost : response = .lost
    · exact .inl hlost
    · exact .inr ((hnone hlost).mp (hcause.resolve_left hlost))
  · rw [hasThrown_iff rfl]
    refine iff_of_false RecievePoint.noConfusion ?_
    rintro (heq | hrefused)
    · exact hlost heq
    · rw [(hnone hlost).mpr hrefused] at hrequest
      cases hrequest

/-- **Where an exception comes from.** -/
theorem hasThrown_step (hkeys : ∀ p ∈ names, IsKey p) {l : RecordingLabel}
    (hinv : RecordingInvariant names start days most c) (hroom : roomLeft most c l)
    (h : recording.step c l = some c') : c'.hasThrown ↔ c.hasThrown ∨ throws c l = true := by
  cases l with
  | delegate order running =>
    obtain ⟨t, hstep, rfl⟩ := recording_delegate h
    simp [Recording.hasThrown, throws]
  | task k launched due =>
    obtain ⟨_, t, -, -, -, -, rfl⟩ := recording_task h
    simp [Recording.hasThrown, throws]
  | lock k minutes =>
    obtain ⟨task, type, hcall, -, -, -, rfl⟩ := recording_lock h
    simp [Recording.hasThrown, throws, hcall]
  | getData response time =>
    rw [hasThrown_getData hkeys hinv hroom h]
    obtain ⟨_, _, _, _, hcall, -⟩ := recording_getData h
    simp [hasThrown_iff hcall]
  | write response carriedOut =>
    obtain ⟨_, _, _, _, _, _, _, _, hcall, rfl⟩ := recording_write h
    rw [hasThrown_iff hcall, hasThrown_iff rfl]
    cases response <;> simp [throws]
  | unlock =>
    obtain ⟨_, _, _, _, t, hcall, -, rfl⟩ := recording_unlock h
    simp [Recording.hasThrown, throws, hcall]

/-- **One exception is the end**: the tracker stops recording exactly if a request gets no answer
or the `GET` of a total is refused, and from then on, whatever its tasks and its scanner do, no
event of any process is recorded or sent. -/
theorem oneExceptionStopsRecording {map : ProcessMap} {db : Json.Value} {ls : List RecordingLabel}
    (hkeys : ∀ p ∈ names, IsKey p) (hmap : ∀ p ∈ map, p ∈ names)
    (hdb : Keeps names start days db) (hstart : ∀ p ∈ names, Within most (start p))
    (h : recording.Runs (roomLeft most) (.initial map db) ls c) :
    (c.hasThrown ↔ recording.history (fun thrown c l => thrown || throws c l) false
      (.initial map db) ls = true) ∧
    (c.hasThrown → ∀ ls' c', recording.Runs (fun _ _ => True) c ls' c' →
      c'.db = c.db ∧ c'.recorded = c.recorded ∧ c'.tasking.sent = c.tasking.sent) := by
  constructor
  · have hhistory := h.invariant_history
      (g := fun thrown c l => thrown || throws c l) (a := false)
      (I := fun thrown c => RecordingInvariant names start days most c ∧
        (c.hasThrown ↔ thrown = true)) ?_ ⟨recordingInvariant_initial hmap hdb hstart, ?_⟩
    · exact hhistory.2
    · rintro thrown c₁ l c₂ ⟨hinv, hiff⟩ hroom hstep
      refine ⟨recordingInvariant_step hkeys hinv hroom hstep, ?_⟩
      rw [hasThrown_step hkeys hinv hroom hstep, hiff, Bool.or_eq_true]
    · simp [Recording.hasThrown, Recording.initial]
  · intro hthrown ls' c' hrun
    have hfrozen := hrun.invariant (I := fun d => d.call = c.call ∧ d.db = c.db ∧
      d.recorded = c.recorded ∧ d.tasking.sent = c.tasking.sent) ?_ ⟨rfl, rfl, rfl, rfl⟩
    · exact hfrozen.2
    · rintro d l d' ⟨hcall, hdb, hrecorded, hsent⟩ - hstep
      have hstill : d.hasThrown := by
        rw [Recording.hasThrown, hcall]
        exact hthrown
      obtain ⟨hcall', hdb', hrecorded', hsent'⟩ := frozen_step hstill hstep
      exact ⟨hcall'.trans hcall, hdb'.trans hdb, hrecorded'.trans hrecorded, hsent'.trans hsent⟩

end

/-! ## The first minute of a session -/

/-- A new account. -/
def noCounts (_ : String) : Account := .const 0

/-- A new timeline of the Rust client. -/
def noDays (_ : String) (_ : NaiveDate) : Int := 0

theorem keeps_treeWithA : Keeps ["a"] noCounts noDays treeWithA where
  shared := by
    apply mirrors_treeWithA.congr
    intro p hp
    have hname : p = "a" := List.mem_singleton.mp hp
    subst hname
    ext x
    · cases x <;> decide
    · rfl
  entry p hp d := by
    have hname : p = "a" := List.mem_singleton.mp hp
    subst hname
    exact .inl ⟨rfl, rfl⟩

theorem within_noCounts (p : String) : Within 0 (noCounts p) where
  low := by
    have hzero : (-2147483648 : Int) ≤ 0 := by decide
    exact ⟨fun _ => hzero, fun _ => hzero⟩
  duration := Int.le_refl 0
  launches := Int.le_refl 0
  longest := by
    show (0 : Int) ≤ 2147483647
    decide
  day _ := Int.le_refl 0

/-- The requests of one event of task 0. -/
def sendEvent (response : Response) : List RecordingLabel :=
  [.lock 0 0, .getData response NaiveDateTime.unixEpoch.date, .write .ok false, .unlock]

/-- Its launch and its first minute. -/
def firstMinute : List RecordingLabel :=
  taskStarts ++ sendEvent .ok ++ [.task 0 false false] ++ sendEvent .ok ++ sendEvent .ok

/-- A task whose first `GET` is refused. -/
def refusedLaunch : List RecordingLabel :=
  taskStarts ++ [.lock 0 0, .getData .refused NaiveDateTime.unixEpoch.date]

theorem oneExceptionStopsRecording_refusedLaunch :
    ∃ c, recording.execWhere (roomLeft 0) (.initial mapOfA treeWithA) refusedLaunch = some c ∧
      c.hasThrown ∧ ∀ ls' c', recording.Runs (fun _ _ => True) c ls' c' →
        c'.db = c.db ∧ c'.recorded = c.recorded ∧ c'.tasking.sent = c.tasking.sent := by
  obtain ⟨c, hexec⟩ : ∃ c, recording.execWhere (roomLeft 0) (.initial mapOfA treeWithA)
      refusedLaunch = some c := Option.isSome_iff_exists.mp (by decide)
  obtain ⟨hiff, hstops⟩ := oneExceptionStopsRecording (by decide) (by decide) keeps_treeWithA
    (fun p _ => within_noCounts p) (System.runs_of_execWhere hexec)
  have hthrown : c.hasThrown := hiff.mpr (by decide)
  exact ⟨c, hexec, hthrown, hstops hthrown⟩

end TimeTracker.Cpp
