import TimeTracker.Cpp.FirebaseClient
import TimeTracker.Lib.Iteration

/-!
# The requests of the session tasks

`SessionTasks` has the session tasks send each event in one step. Behind a send are two requests,
one that reads and one that writes what it has read and more, and `onDataMutex`, which a task locks
before the first and unlocks after the second. The macro `LOCK` has no guard: where `onDataRecieve`
throws, the mutex stays locked.

* `recording`: the scanner, the tasks, the mutex and the requests, each of which may be refused or
  get no answer.
* `recording_refines`: the scanner and the tasks cannot tell it from single sends.
* `Calling`: whose event a call sends, and where its requests come from.
* **`frozen_step`**: after an exception nothing is sent any more.
-/

namespace TimeTracker.Cpp

open Transition FirebaseClient

/-! ## The program -/

/-- The event a task sends next, with the outcomes of its comparisons of times. -/
def SessionTask.sends (launched due : Bool) (task : SessionTask) : Option RecieveTypes :=
  match task.point with
  | .launches => if launched then some .launches else none
  | .tick => if due then some .duration else none
  | .timeline => some .timeline
  | .longestSession => some .longestSession
  | _ => none

/-- What comes of a request: the status `OK`, another one, or no answer, at which `wait` throws. -/
inductive Response where
  | ok
  | refused
  | lost
deriving DecidableEq

/-- The program points of `LOCK(onDataMutex, restClient.onDataRecieve(...))`. -/
inductive RecievePoint where
  /-- the `GET` -/
  | getData
  /-- the request that writes, at the time `time`, after a `GET` that was answered or refused -/
  | write (time : NaiveDate) (answered : Bool) (request : Write)
  /-- `onDataMutex.unlock()` -/
  | unlock
  /-- `as_integer` or `wait` has thrown, and nobody unlocks -/
  | thrown

/-- A call of `onDataRecieve`: the task that has locked the mutex for it, and its arguments. -/
structure RecieveCall where
  task : Nat
  type : RecieveTypes
  process : String
  minutes : Nat
  point : RecievePoint

/-- An event that has been dealt with: what its `GET` was, and whether its result was written. -/
structure Recorded where
  type : RecieveTypes
  process : String
  minutes : Nat
  time : NaiveDate
  answered : Bool
  written : Bool

structure Recording where
  tasking : Tasking
  /-- `onDataMutex`, with the call of the task that has locked it -/
  call : Option RecieveCall
  db : Json.Value
  recorded : List Recorded

inductive RecordingLabel where
  /-- the scanner -/
  | delegate (order : List String) (running : Bool)
  /-- task `k`, where it sends nothing -/
  | task (k : Nat) (launched due : Bool)
  /-- task `k` locks the mutex to send an event; `minutes` is the length of its session -/
  | lock (k minutes : Nat)
  /-- the `GET` of the call, at the time `time` -/
  | getData (response : Response) (time : NaiveDate)
  /-- the request of the call that writes; it may have been carried out without an answer -/
  | write (response : Response) (carriedOut : Bool)
  /-- the call returns, and its task goes on -/
  | unlock

namespace Recording

def step (c : Recording) : RecordingLabel → Option Recording
  | .delegate order running =>
    (c.tasking.step (.delegate order running)).map fun tasking => { c with tasking }
  | .task k launched due =>
    match c.tasking.tasks[k]? with
    | none => none
    | some task =>
      if task.sends launched due = none ∧ c.call.map RecieveCall.task ≠ some k then
        (c.tasking.step (.task k launched due)).map fun tasking => { c with tasking }
      else none
  | .lock k minutes =>
    match c.call, c.tasking.tasks[k]? with
    | none, some task =>
      match task.sends true true with
      | some type =>
        if minutes ≤ 2147483647 then
          some { c with call := some ⟨k, type, task.process, minutes, .getData⟩ }
        else none
      | none => none
    | _, _ => none
  | .getData response time =>
    match c.call with
    | some ⟨k, type, process, minutes, .getData⟩ =>
      let answer := getDataBase (response = .ok) c.db (searchQuery type process time)
      match response, onDataRecieve type process (type.data minutes) time answer with
      | .lost, _ => some { c with call := some ⟨k, type, process, minutes, .thrown⟩ }
      | _, none => some { c with call := some ⟨k, type, process, minutes, .thrown⟩ }
      | _, some request =>
        some { c with
          call := some ⟨k, type, process, minutes, .write time (response = .ok) request⟩ }
    | _ => none
  | .write response carriedOut =>
    match c.call with
    | some ⟨k, type, process, minutes, .write time answered request⟩ =>
      let written := response = .ok || response = .lost && carriedOut
      some { c with
        call := some ⟨k, type, process, minutes, if response = .lost then .thrown else .unlock⟩
        db := if written then request.send c.db else c.db
        recorded := c.recorded ++ [⟨type, process, minutes, time, answered, written⟩] }
    | _ => none
  | .unlock =>
    match c.call with
    | some ⟨k, _, _, _, .unlock⟩ =>
      (c.tasking.step (.task k true true)).map fun tasking => { c with tasking, call := none }
    | _ => none

end Recording

/-- The C++ tracker with its requests. -/
def recording : System Recording RecordingLabel := ⟨Recording.step⟩

/-- The tracker before its first scan. -/
def Recording.initial (processMap : ProcessMap) (db : Json.Value) : Recording :=
  ⟨.initial processMap, none, db, []⟩

/-! ## What a step does -/

section
variable {c c' : Recording} {t t' : Tasking} {k : Nat} {launched due : Bool}

/-- A step of a task in the list. -/
theorem tasking_task (h : t.step (.task k launched due) = some t') :
    ∃ task task' map events, t.tasks[k]? = some task ∧
      task.step launched due t.processMap = some (task', map, events) ∧
      t' = { t with
        processMap := map, tasks := t.tasks.set k task', sent := t.sent ++ events } := by
  simp only [Tasking.step] at h
  cases hk : t.tasks[k]? with
  | none => rw [hk] at h; cases h
  | some task =>
    rw [hk] at h
    obtain ⟨⟨task', map, events⟩, hstep, rfl⟩ := Option.map_eq_some_iff.mp h
    exact ⟨task, task', map, events, rfl, hstep, rfl⟩

/-- What a task sends is what its step emits. -/
theorem SessionTask.step_sends {task task' : SessionTask} {map map' : ProcessMap}
    {events : List (String × RecieveTypes)}
    (h : task.step launched due map = some (task', map', events)) :
    events = (task.sends launched due).toList.map fun type => (task.process, type) := by
  obtain ⟨p, point⟩ := task
  cases point with
  | launches => cases launched <;> cases h <;> rfl
  | tick => cases due <;> cases h <;> rfl
  | finished => cases h
  | _ => cases h; rfl

theorem recording_delegate {order : List String} {running : Bool}
    (h : recording.step c (.delegate order running) = some c') :
    ∃ tasking, c.tasking.step (.delegate order running) = some tasking ∧
      c' = { c with tasking } := by
  obtain ⟨tasking, hstep, rfl⟩ := Option.map_eq_some_iff.mp h
  exact ⟨tasking, hstep, rfl⟩

theorem recording_task (h : recording.step c (.task k launched due) = some c') :
    ∃ task tasking, c.tasking.tasks[k]? = some task ∧ task.sends launched due = none ∧
      c.call.map RecieveCall.task ≠ some k ∧
      c.tasking.step (.task k launched due) = some tasking ∧ c' = { c with tasking } := by
  simp only [recording, Recording.step] at h
  split at h
  · cases h
  · next task hk =>
    split at h
    · next hfree =>
      obtain ⟨tasking, hstep, rfl⟩ := Option.map_eq_some_iff.mp h
      exact ⟨task, tasking, hk, hfree.1, hfree.2, hstep, rfl⟩
    · cases h

theorem recording_lock {minutes : Nat} (h : recording.step c (.lock k minutes) = some c') :
    ∃ task type, c.call = none ∧ c.tasking.tasks[k]? = some task ∧
      task.sends true true = some type ∧ minutes ≤ 2147483647 ∧
      c' = { c with call := some ⟨k, type, task.process, minutes, .getData⟩ } := by
  simp only [recording, Recording.step] at h
  split at h
  · next task hcall hk =>
    split at h
    · next type htype =>
      split at h
      · next hminutes =>
        cases h
        exact ⟨task, type, hcall, hk, htype, hminutes, rfl⟩
      · cases h
    · cases h
  · cases h

/-- The `GET`: an exception, or the request that follows from the answer. -/
theorem recording_getData {response : Response} {time : NaiveDate}
    (h : recording.step c (.getData response time) = some c') :
    ∃ k type process minutes, c.call = some ⟨k, type, process, minutes, .getData⟩ ∧
      ((response = .lost ∨ onDataRecieve type process (type.data minutes) time
          (getDataBase (response = .ok) c.db (searchQuery type process time)) = none) ∧
        c' = { c with call := some ⟨k, type, process, minutes, .thrown⟩ } ∨
      ∃ request, response ≠ .lost ∧ onDataRecieve type process (type.data minutes) time
          (getDataBase (response = .ok) c.db (searchQuery type process time)) = some request ∧
        c' = { c with
          call := some ⟨k, type, process, minutes, .write time (response = .ok) request⟩ }) := by
  simp only [recording, Recording.step] at h
  split at h
  · next k type process minutes hcall =>
    refine ⟨k, type, process, minutes, hcall, ?_⟩
    split at h
    · cases h
      exact .inl ⟨.inl rfl, rfl⟩
    · next hnone =>
      cases h
      exact .inl ⟨.inr hnone, rfl⟩
    · next request hlost hsome =>
      cases h
      exact .inr ⟨request, hlost, hsome, rfl⟩
  · cases h

theorem recording_write {response : Response} {carriedOut : Bool}
    (h : recording.step c (.write response carriedOut) = some c') :
    ∃ k type process minutes time answered request written,
      c.call = some ⟨k, type, process, minutes, .write time answered request⟩ ∧
      c' = { c with
        call := some ⟨k, type, process, minutes, if response = .lost then .thrown else .unlock⟩
        db := if written then request.send c.db else c.db
        recorded := c.recorded ++ [⟨type, process, minutes, time, answered, written⟩] } := by
  simp only [recording, Recording.step] at h
  split at h
  · next k type process minutes time answered request hcall =>
    cases h
    exact ⟨k, type, process, minutes, time, answered, request, _, hcall, rfl⟩
  · cases h

theorem recording_unlock (h : recording.step c .unlock = some c') :
    ∃ k type process minutes tasking, c.call = some ⟨k, type, process, minutes, .unlock⟩ ∧
      c.tasking.step (.task k true true) = some tasking ∧
      c' = { c with tasking, call := none } := by
  simp only [recording, Recording.step] at h
  split at h
  · next k type process minutes hcall =>
    obtain ⟨tasking, hstep, rfl⟩ := Option.map_eq_some_iff.mp h
    exact ⟨k, type, process, minutes, tasking, hcall, hstep, rfl⟩
  · cases h

/-- **Single sends**: for the scanner and the tasks, the requests are one step, or none. -/
theorem recording_refines {l : RecordingLabel} (h : recording.step c l = some c') :
    c'.tasking = c.tasking ∨ ∃ l', tasking.step c.tasking l' = some c'.tasking := by
  cases l with
  | delegate order running =>
    obtain ⟨t, hstep, rfl⟩ := recording_delegate h
    exact .inr ⟨.delegate order running, hstep⟩
  | task k launched due =>
    obtain ⟨-, t, -, -, -, hstep, rfl⟩ := recording_task h
    exact .inr ⟨.task k launched due, hstep⟩
  | lock k minutes =>
    obtain ⟨-, -, -, -, -, -, rfl⟩ := recording_lock h
    exact .inl rfl
  | getData response time =>
    obtain ⟨_, _, _, _, -, ⟨-, rfl⟩ | ⟨_, -, -, rfl⟩⟩ := recording_getData h
    · exact .inl rfl
    · exact .inl rfl
  | write response carriedOut =>
    obtain ⟨_, _, _, _, _, _, _, _, -, rfl⟩ := recording_write h
    exact .inl rfl
  | unlock =>
    obtain ⟨k, _, _, _, t, -, hstep, rfl⟩ := recording_unlock h
    exact .inr ⟨.task k true true, hstep⟩

end

/-! ## Which processes it is about -/

/-- The processes of the scan that is under way. -/
def Delegate.processes : Delegate → List String
  | .scan todo => todo
  | .test p todo | .submit p todo => p :: todo

/-- The processes the tracker knows are among `names`. -/
structure About (names : List String) (t : Tasking) : Prop where
  map : ∀ p ∈ t.processMap, p ∈ names
  scan : ∀ p ∈ t.delegate.processes, p ∈ names
  tasks : ∀ task ∈ t.tasks, task.process ∈ names

section
variable {names : List String} {t t' : Tasking} {k : Nat} {p : String}

theorem ProcessMap.mem_insert_of_mem {map : ProcessMap} {flags : Bool × Bool}
    (hmap : ∀ q ∈ map, q ∈ names) (hp : p ∈ names) : ∀ q ∈ map.insert p flags, q ∈ names := by
  intro q hq
  rcases Finmap.mem_insert.mp hq with rfl | hq
  · exact hp
  · exact hmap q hq

theorem about_delegate {order : List String} {running : Bool} (habout : About names t)
    (h : Delegate.step order running t = some t') : About names t' := by
  obtain ⟨delegate, map, tasks, sent⟩ := t
  have hscan := habout.scan
  cases delegate with
  | scan todo =>
    cases todo with
    | nil =>
      simp only [Delegate.step] at h
      split at h
      · next horder =>
        cases h
        have hmem := (Iteration.coe_eq_keys_iff.mp horder).2
        exact ⟨habout.map, fun q hq => habout.map q ((hmem q).mp hq), habout.tasks⟩
      · cases h
    | cons p todo =>
      have hp : p ∈ names := hscan p List.mem_cons_self
      cases running with
      | true =>
        cases h
        exact ⟨ProcessMap.mem_insert_of_mem habout.map hp, hscan, habout.tasks⟩
      | false =>
        cases h
        exact ⟨ProcessMap.mem_insert_of_mem habout.map hp,
          fun q hq => hscan q (List.mem_cons_of_mem p hq), habout.tasks⟩
  | test p todo =>
    simp only [Delegate.step] at h
    split at h
    · cases h
      exact ⟨habout.map, hscan, habout.tasks⟩
    · cases h
      exact ⟨habout.map, fun q hq => hscan q (List.mem_cons_of_mem p hq), habout.tasks⟩
  | submit p todo =>
    cases h
    refine ⟨habout.map, fun q hq => hscan q (List.mem_cons_of_mem p hq), fun task htask => ?_⟩
    rcases List.mem_append.mp htask with htask | htask
    · exact habout.tasks task htask
    · rw [List.mem_singleton.mp htask]
      exact hscan p List.mem_cons_self

theorem about_task {launched due : Bool} (habout : About names t)
    (h : t.step (.task k launched due) = some t') : About names t' := by
  obtain ⟨task, task', map, events, hk, hstep, rfl⟩ := tasking_task h
  obtain ⟨hprocess, -, hmap⟩ := SessionTask.step_cases hstep
  have hp : task.process ∈ names := habout.tasks task (List.mem_of_getElem? hk)
  refine ⟨?_, habout.scan, fun u hu => ?_⟩
  · rcases hmap with ⟨-, rfl⟩ | ⟨-, -, rfl⟩ | ⟨-, -, rfl⟩
    · exact ProcessMap.mem_insert_of_mem habout.map hp
    · exact habout.map
    · exact ProcessMap.mem_insert_of_mem habout.map hp
  · rcases List.mem_or_eq_of_mem_set hu with hu | rfl
    · exact habout.tasks u hu
    · rw [hprocess]
      exact hp

end

/-! ## The call -/

/-- A call is that of a task which sends its event, and what it is about to write follows from an
answer to its `GET`. -/
structure CallOk (t : Tasking) (call : RecieveCall) : Prop where
  task : ∃ task, t.tasks[call.task]? = some task ∧ task.process = call.process ∧
    task.sends true true = some call.type
  minutes : call.minutes ≤ 2147483647
  request : ∀ time answered request, call.point = .write time answered request →
    ∃ answer, onDataRecieve call.type call.process (call.type.data call.minutes) time answer =
      some request

structure Calling (names : List String) (c : Recording) : Prop where
  about : About names c.tasking
  call : ∀ call ∈ c.call, CallOk c.tasking call

section
variable {names : List String} {c c' : Recording}

/-- The app of a call is one the tracker knows. -/
theorem Calling.process_mem {call : RecieveCall} (h : Calling names c) (hcall : c.call = some call) :
    call.process ∈ names := by
  obtain ⟨task, hk, hprocess, -⟩ := (h.call call hcall).task
  exact hprocess ▸ h.about.tasks task (List.mem_of_getElem? hk)

/-- The scanner only adds tasks. -/
theorem tasks_delegate {t t' : Tasking} {order : List String} {running : Bool}
    (h : Delegate.step order running t = some t') :
    t'.sent = t.sent ∧ ∃ added, t'.tasks = t.tasks ++ added := by
  obtain ⟨delegate, map, tasks, sent⟩ := t
  cases delegate with
  | scan todo =>
    cases todo with
    | nil =>
      simp only [Delegate.step] at h
      split at h
      · cases h
        exact ⟨rfl, [], (List.append_nil _).symm⟩
      · cases h
    | cons p todo =>
      cases running with
      | true => cases h; exact ⟨rfl, [], (List.append_nil _).symm⟩
      | false => cases h; exact ⟨rfl, [], (List.append_nil _).symm⟩
  | test p todo =>
    simp only [Delegate.step] at h
    split at h
    · cases h; exact ⟨rfl, [], (List.append_nil _).symm⟩
    · cases h; exact ⟨rfl, [], (List.append_nil _).symm⟩
  | submit p todo => cases h; exact ⟨rfl, _, rfl⟩

/-- A step of the scanner or of another task. -/
theorem calling_tasking (h : Calling names c) {t : Tasking} (habout : About names t)
    (htasks : ∀ call ∈ c.call, ∀ task, c.tasking.tasks[call.task]? = some task →
      t.tasks[call.task]? = some task) : Calling names { c with tasking := t } := by
  refine ⟨habout, fun call hcall => ?_⟩
  have hok := h.call call hcall
  obtain ⟨task, hk, hprocess, htype⟩ := hok.task
  exact ⟨⟨task, htasks call hcall task hk, hprocess, htype⟩, hok.minutes, hok.request⟩

/-- A call gets to a point at which it has nothing to write. -/
theorem calling_point (h : Calling names c) {k minutes : Nat} {type : RecieveTypes}
    {process : String} {point point' : RecievePoint}
    (hcall : c.call = some ⟨k, type, process, minutes, point⟩)
    (hpoint : ∀ time answered request, point' ≠ .write time answered request) {db : Json.Value}
    {recorded : List Recorded} :
    Calling names ⟨c.tasking, some ⟨k, type, process, minutes, point'⟩, db, recorded⟩ := by
  have hok := h.call _ hcall
  refine ⟨h.about, fun call hmem => ?_⟩
  cases hmem
  exact ⟨hok.task, hok.minutes, fun time answered request heq =>
    absurd heq (hpoint time answered request)⟩

theorem calling_step {l : RecordingLabel} (h : Calling names c)
    (hstep : recording.step c l = some c') : Calling names c' := by
  cases l with
  | delegate order running =>
    obtain ⟨t, hdelegate, rfl⟩ := recording_delegate hstep
    obtain ⟨-, added, htasks⟩ := tasks_delegate hdelegate
    refine calling_tasking h (about_delegate h.about hdelegate) ?_
    intro call _ task hk
    rw [htasks, List.getElem?_append_left (List.getElem?_eq_some_iff.mp hk).1]
    exact hk
  | task k launched due =>
    obtain ⟨task, t, hk, -, hother, htask, rfl⟩ := recording_task hstep
    have habout := about_task h.about htask
    obtain ⟨_, task', map, events, -, -, rfl⟩ := tasking_task htask
    refine calling_tasking h habout ?_
    intro call hcall u hu
    have hne : k ≠ call.task := by
      intro heq
      rw [Option.mem_def.mp hcall, heq] at hother
      exact hother rfl
    show (c.tasking.tasks.set k _)[call.task]? = some u
    rw [List.getElem?_set_ne hne]
    exact hu
  | lock k minutes =>
    obtain ⟨task, type, -, hk, htype, hminutes, rfl⟩ := recording_lock hstep
    refine ⟨h.about, fun call hcall => ?_⟩
    cases hcall
    exact ⟨⟨task, hk, rfl, htype⟩, hminutes, fun _ _ _ hpoint => by cases hpoint⟩
  | getData response time =>
    obtain ⟨k, type, process, minutes, hcall, hnext⟩ := recording_getData hstep
    rcases hnext with ⟨-, rfl⟩ | ⟨request, -, hrequest, rfl⟩
    · exact calling_point h hcall fun _ _ _ => RecievePoint.noConfusion
    · have hok := h.call _ hcall
      refine ⟨h.about, fun call hmem => ?_⟩
      cases hmem
      refine ⟨hok.task, hok.minutes, fun _ _ _ hpoint => ?_⟩
      cases hpoint
      exact ⟨_, hrequest⟩
  | write response carriedOut =>
    obtain ⟨k, type, process, minutes, time, answered, request, written, hcall, rfl⟩ :=
      recording_write hstep
    apply calling_point h hcall
    intro _ _ _ hpoint
    split at hpoint <;> cases hpoint
  | unlock =>
    obtain ⟨k, type, process, minutes, t, -, htask, rfl⟩ := recording_unlock hstep
    exact ⟨about_task h.about htask, fun call hmem => by cases hmem⟩

/-- A task that goes on without a call sends nothing. -/
theorem recording_task_sends {k : Nat} {launched due : Bool}
    (h : recording.step c (.task k launched due) = some c') :
    ∃ t, t.sent = c.tasking.sent ∧ c' = { c with tasking := t } := by
  obtain ⟨task, t, hk, hsends, -, htask, rfl⟩ := recording_task h
  obtain ⟨task', _, map, events, hk', hstep, rfl⟩ := tasking_task htask
  rw [hk, Option.some.injEq] at hk'
  subst hk'
  have hevents := SessionTask.step_sends hstep
  rw [hsends] at hevents
  subst hevents
  exact ⟨_, List.append_nil _, rfl⟩

/-- A call that returns has sent its event. -/
theorem recording_unlock_sends (hcalling : Calling names c)
    (h : recording.step c .unlock = some c') :
    ∃ k type process minutes t, c.call = some ⟨k, type, process, minutes, .unlock⟩ ∧
      t.sent = c.tasking.sent ++ [(process, type)] ∧ c' = { c with tasking := t, call := none } := by
  obtain ⟨k, type, process, minutes, t, hcall, htask, rfl⟩ := recording_unlock h
  obtain ⟨task, hk, rfl, htype⟩ := (hcalling.call _ hcall).task
  obtain ⟨task', _, map, events, hk', hstep, rfl⟩ := tasking_task htask
  rw [hk, Option.some.injEq] at hk'
  subst hk'
  have hevents := SessionTask.step_sends hstep
  rw [htype] at hevents
  subst hevents
  exact ⟨k, type, _, minutes, _, hcall, rfl, rfl⟩

theorem calling_initial {map : ProcessMap} {db : Json.Value} (hmap : ∀ p ∈ map, p ∈ names) :
    Calling names (.initial map db) where
  about := ⟨hmap, fun _ hp => (by cases hp), fun _ htask => (by cases htask)⟩
  call _ hcall := by cases hcall

end

/-! ## An exception -/

/-- The call has ended in an exception. -/
def Recording.hasThrown (c : Recording) : Prop :=
  ∃ call ∈ c.call, call.point = .thrown

section
variable {c c' : Recording}

theorem hasThrown_iff {call : RecieveCall} (hcall : c.call = some call) :
    c.hasThrown ↔ call.point = .thrown := by
  rw [Recording.hasThrown, hcall]
  simp

/-- A call that has not thrown. -/
theorem not_hasThrown {call : RecieveCall} (hcall : c.call = some call)
    (hpoint : call.point ≠ .thrown) : ¬ c.hasThrown := by
  rintro ⟨call', hmem, hthrown⟩
  rw [hcall, Option.mem_some_iff] at hmem
  exact hpoint (hmem ▸ hthrown)

/-- With the mutex locked for good, nothing is sent any more. -/
theorem frozen_step {l : RecordingLabel} (hthrown : c.hasThrown)
    (h : recording.step c l = some c') :
    c'.call = c.call ∧ c'.db = c.db ∧ c'.recorded = c.recorded ∧
      c'.tasking.sent = c.tasking.sent := by
  obtain ⟨call, hcall, hpoint⟩ := hthrown
  rw [Option.mem_def] at hcall
  cases l with
  | delegate order running =>
    obtain ⟨t, hstep, rfl⟩ := recording_delegate h
    exact ⟨rfl, rfl, rfl, (tasks_delegate hstep).1⟩
  | task k launched due =>
    obtain ⟨t, hsent, rfl⟩ := recording_task_sends h
    exact ⟨rfl, rfl, rfl, hsent⟩
  | lock k minutes =>
    obtain ⟨_, _, hnone, -⟩ := recording_lock h
    rw [hnone] at hcall
    cases hcall
  | getData response time =>
    obtain ⟨_, _, _, _, hcall', -⟩ := recording_getData h
    rw [hcall, Option.some.injEq] at hcall'
    subst hcall'
    cases hpoint
  | write response carriedOut =>
    obtain ⟨_, _, _, _, _, _, _, _, hcall', -⟩ := recording_write h
    rw [hcall, Option.some.injEq] at hcall'
    subst hcall'
    cases hpoint
  | unlock =>
    obtain ⟨_, _, _, _, _, hcall', -⟩ := recording_unlock h
    rw [hcall, Option.some.injEq] at hcall'
    subst hcall'
    cases hpoint

end

/-- `a` is found running, and its task starts. -/
def taskStarts : List RecordingLabel :=
  [.delegate ["a"] true, .delegate [] true, .delegate [] true, .delegate [] true,
    .task 0 true false]

end TimeTracker.Cpp
