import TimeTracker.Cpp.MinuteTicks
import TimeTracker.Cpp.ProcessMap
import TimeTracker.Lib.Pool

/-!
# The session tasks of the C++ tracker

`workerDelegate` scans the process map: for a process that runs it sets `first`, tests
`first && second` and, where both are set, submits a session task. It is the task that clears
`second`, when it starts, and sets it again at its end. Until then the next scan finds the flags as
they were.

* **`oneTask_step`**: as long as every test that passes finds no task of its process waiting to
  start, there is one task for each process at most, and `second` is clear while it runs.
* **`one_task_per_process`**: so in every such run.
* **`second_task`**: where a task is waiting, a test that passes leads to a second one.
* **`two_tasks_submitted`**: a task that starts later than the next scan is enough.
-/

namespace TimeTracker.Cpp

open Transition

/-! ## The program -/

namespace ProcessMap

/-- `processMap[process]`. -/
def flags (map : ProcessMap) (process : String) : Bool × Bool :=
  (map.lookup process).getD (false, false)

/-- `processMap[process].first = value`. -/
def setFirst (map : ProcessMap) (process : String) (value : Bool) : ProcessMap :=
  map.insert process (value, (map.flags process).2)

/-- `processMap[process].second = value`. -/
def setSecond (map : ProcessMap) (process : String) (value : Bool) : ProcessMap :=
  map.insert process ((map.flags process).1, value)

end ProcessMap

/-- The program points of the lambda given to `tasks.run`. -/
inductive TaskPoint where
  /-- submitted, and not started: `second` is still set -/
  | submitted
  /-- `appStartTime < processStartTime`: the `LAUNCHES` event -/
  | launches
  /-- the head of the loop: `first` -/
  | check
  /-- the elapsed seconds: the `DURATION` event -/
  | tick
  /-- the `TIMELINE` event of the tick -/
  | timeline
  /-- the loop has been left: the `LONGEST_SESSION` event -/
  | longestSession
  /-- `second` is set again -/
  | release
  | finished
deriving DecidableEq

structure SessionTask where
  process : String
  point : TaskPoint
deriving DecidableEq

/-- The program points of the scanner in `workerDelegate`. -/
inductive Delegate where
  /-- the processes of this scan that are still to do; after the last one, `wait(5000)` -/
  | scan (todo : List String)
  /-- `first` has been set: `lockCheck()` -/
  | test (process : String) (todo : List String)
  /-- the test has passed: `tasks.run` -/
  | submit (process : String) (todo : List String)
deriving DecidableEq

structure Tasking where
  delegate : Delegate
  processMap : ProcessMap
  tasks : List SessionTask
  sent : List (String × RecieveTypes)

inductive TaskingLabel where
  /-- the scanner; `order` is the order of the map, where a scan begins, and `running` the result
  of `isProcessRunning` -/
  | delegate (order : List String) (running : Bool)
  /-- task `k`; `launched` and `due` are the outcomes of its comparisons of times -/
  | task (k : Nat) (launched due : Bool)

/-- One step of a task: where it goes on, the map after it and the events it sends. -/
def SessionTask.step (launched due : Bool) (task : SessionTask) (map : ProcessMap) :
    Option (SessionTask × ProcessMap × List (String × RecieveTypes)) :=
  let p := task.process
  match task.point with
  | .submitted => some (⟨p, .launches⟩, map.setSecond p false, [])
  | .launches => some (⟨p, .check⟩, map, if launched then [(p, .launches)] else [])
  | .check => some (⟨p, if (map.flags p).1 then .tick else .longestSession⟩, map, [])
  | .tick =>
    if due then some (⟨p, .timeline⟩, map, [(p, .duration)]) else some (⟨p, .check⟩, map, [])
  | .timeline => some (⟨p, .check⟩, map, [(p, .timeline)])
  | .longestSession => some (⟨p, .release⟩, map, [(p, .longestSession)])
  | .release => some (⟨p, .finished⟩, map.setSecond p true, [])
  | .finished => none

/-- One step of the scanner. -/
def Delegate.step (order : List String) (running : Bool) (c : Tasking) : Option Tasking :=
  match c.delegate with
  | .scan [] =>
    if (order : Multiset String) = c.processMap.keys.val then
      some { c with delegate := .scan order }
    else none
  | .scan (p :: todo) =>
    if running then
      some { c with delegate := .test p todo, processMap := c.processMap.setFirst p true }
    else some { c with delegate := .scan todo, processMap := c.processMap.setFirst p false }
  | .test p todo =>
    if (c.processMap.flags p).1 && (c.processMap.flags p).2 then
      some { c with delegate := .submit p todo }
    else some { c with delegate := .scan todo }
  | .submit p todo =>
    some { c with delegate := .scan todo, tasks := c.tasks ++ [⟨p, .submitted⟩] }

def Tasking.step (c : Tasking) : TaskingLabel → Option Tasking
  | .delegate order running => Delegate.step order running c
  | .task k launched due =>
    match c.tasks[k]? with
    | none => none
    | some task => (task.step launched due c.processMap).map fun (task', map, events) =>
        { c with processMap := map, tasks := c.tasks.set k task', sent := c.sent ++ events }

/-- The scanner and the tasks it has submitted. -/
def tasking : System Tasking TaskingLabel := ⟨Tasking.step⟩

/-- The constructor's map, before the first scan. -/
def Tasking.initial (processMap : ProcessMap) : Tasking := ⟨.scan [], processMap, [], []⟩

/-! ## One task for each process -/

/-- A task that has been submitted for `p` and has not finished. -/
def SessionTask.unfinishedOf (p : String) (task : SessionTask) : Bool :=
  task.process = p && task.point ≠ .finished

/-- A task that has started and has not finished. -/
def SessionTask.started (task : SessionTask) : Bool :=
  task.point ≠ .submitted && task.point ≠ .finished

/-- The tasks of `p` that have not finished. -/
def Tasking.unfinished (c : Tasking) (p : String) : Nat :=
  c.tasks.countP (SessionTask.unfinishedOf p)

/-- The process whose flags the scanner is about to test. -/
def Delegate.tested : Delegate → Option String
  | .test p _ => some p
  | _ => none

/-- Where the test of the scanner passes, no task of its process is waiting to start. -/
def startedBeforeTest (c : Tasking) : TaskingLabel → Prop
  | .delegate _ _ => ∀ p ∈ c.delegate.tested,
      c.processMap.flags p = (true, true) → ⟨p, .submitted⟩ ∉ c.tasks
  | .task _ _ _ => True

instance (c : Tasking) : (l : TaskingLabel) → Decidable (startedBeforeTest c l)
  | .delegate _ _ => inferInstanceAs (Decidable (∀ p ∈ c.delegate.tested,
      c.processMap.flags p = (true, true) → ⟨p, .submitted⟩ ∉ c.tasks))
  | .task _ _ _ => isTrue trivial

/-- One task for each process at most; `second` is clear while it runs; a test that has passed
has found none. -/
structure OneTask (c : Tasking) : Prop where
  one : ∀ p, c.unfinished p ≤ 1
  claimed : ∀ task ∈ c.tasks, task.started = true → (c.processMap.flags task.process).2 = false
  free : ∀ p todo, c.delegate = .submit p todo → c.unfinished p = 0

section Flags

variable {map : ProcessMap} {p q : String} {value : Bool}

theorem ProcessMap.flags_setFirst :
    (map.setFirst p value).flags q = if q = p then (value, (map.flags p).2) else map.flags q := by
  unfold ProcessMap.setFirst ProcessMap.flags
  split
  · next h => rw [h, Finmap.lookup_insert, Option.getD_some]
  · next h => rw [Finmap.lookup_insert_of_ne _ h]

theorem ProcessMap.flags_setSecond :
    (map.setSecond p value).flags q = if q = p then ((map.flags p).1, value) else map.flags q := by
  unfold ProcessMap.setSecond ProcessMap.flags
  split
  · next h => rw [h, Finmap.lookup_insert, Option.getD_some]
  · next h => rw [Finmap.lookup_insert_of_ne _ h]

/-- The scanner does not write `second`. -/
theorem ProcessMap.second_setFirst : ((map.setFirst p value).flags q).2 = (map.flags q).2 := by
  rw [ProcessMap.flags_setFirst]
  split
  · next h => rw [h]
  · rfl

end Flags

/-! ## What a step does -/

section Steps

variable {c c' : Tasking} {p : String}

/-- A step of a task: it starts and clears `second`, goes on in between and leaves the flags
alone, or ends and sets `second`. -/
theorem SessionTask.step_cases {launched due : Bool} {task task' : SessionTask}
    {map map' : ProcessMap} {events : List (String × RecieveTypes)}
    (h : task.step launched due map = some (task', map', events)) :
    task'.process = task.process ∧ task.point ≠ .finished ∧
      ((task'.started = true ∧ map' = map.setSecond task.process false) ∨
        (task.started = true ∧ task'.started = true ∧ map' = map) ∨
        (task.started = true ∧ task'.point = .finished ∧
          map' = map.setSecond task.process true)) := by
  obtain ⟨p, point⟩ := task
  cases point with
  | submitted => cases h; exact ⟨rfl, by simp, .inl ⟨rfl, rfl⟩⟩
  | launches => cases h; exact ⟨rfl, by simp, .inr (.inl ⟨rfl, rfl, rfl⟩)⟩
  | check =>
    cases h
    refine ⟨rfl, by simp, .inr (.inl ⟨rfl, ?_, rfl⟩)⟩
    cases (map.flags p).1 <;> rfl
  | tick =>
    cases due with
    | true => cases h; exact ⟨rfl, by simp, .inr (.inl ⟨rfl, rfl, rfl⟩)⟩
    | false => cases h; exact ⟨rfl, by simp, .inr (.inl ⟨rfl, rfl, rfl⟩)⟩
  | timeline => cases h; exact ⟨rfl, by simp, .inr (.inl ⟨rfl, rfl, rfl⟩)⟩
  | longestSession => cases h; exact ⟨rfl, by simp, .inr (.inl ⟨rfl, rfl, rfl⟩)⟩
  | release => cases h; exact ⟨rfl, by simp, .inr (.inr ⟨rfl, rfl, rfl⟩)⟩
  | finished => cases h

/-- A task that has started has not finished. -/
theorem SessionTask.unfinishedOf_of_started {task : SessionTask} (h : task.started = true) :
    task.unfinishedOf task.process = true := by
  simp only [SessionTask.started, ne_eq, decide_not, Bool.and_eq_true, Bool.not_eq_true',
    decide_eq_false_iff_not] at h
  simp [SessionTask.unfinishedOf, h.2]

/-- A process without an unfinished task has none that has started. -/
theorem Tasking.not_started_of_unfinished (h : c.unfinished p = 0) {task : SessionTask}
    (hmem : task ∈ c.tasks) (hstarted : task.started = true) : task.process ≠ p := by
  rintro rfl
  have hnone := List.countP_eq_zero.mp h task hmem
  exact hnone (SessionTask.unfinishedOf_of_started hstarted)

/-- An unfinished task waits or has started. -/
theorem SessionTask.waits_or_started {task : SessionTask} (h : task.unfinishedOf p = true) :
    task = ⟨p, .submitted⟩ ∨ task.process = p ∧ task.started = true := by
  obtain ⟨process, point⟩ := task
  simp only [SessionTask.unfinishedOf, ne_eq, decide_not, Bool.and_eq_true, decide_eq_true_eq,
    Bool.not_eq_true', decide_eq_false_iff_not] at h
  obtain ⟨rfl, hpoint⟩ := h
  by_cases hsubmitted : point = .submitted
  · exact .inl (by rw [hsubmitted])
  · exact .inr ⟨rfl, by simp [SessionTask.started, hsubmitted, hpoint]⟩

/-- The scanner marks a process of its scan. -/
theorem oneTask_setFirst (hinv : OneTask c) (value : Bool) {delegate : Delegate}
    (hnext : ∀ q todo, delegate ≠ .submit q todo) :
    OneTask { c with delegate, processMap := c.processMap.setFirst p value } where
  one := hinv.one
  claimed task htask hstarted := by
    show ((c.processMap.setFirst p value).flags task.process).2 = false
    rw [ProcessMap.second_setFirst]
    exact hinv.claimed task htask hstarted
  free q todo hq := absurd hq (hnext q todo)

/-- The test passes: a task that has started keeps `second` clear, and none is waiting. -/
theorem Tasking.unfinished_of_test (hinv : OneTask c)
    (hflags : c.processMap.flags p = (true, true)) (hwaiting : ⟨p, .submitted⟩ ∉ c.tasks) :
    c.unfinished p = 0 := by
  apply List.countP_eq_zero.mpr
  intro task htask hunfinished
  rcases SessionTask.waits_or_started hunfinished with rfl | ⟨rfl, hstarted⟩
  · exact hwaiting htask
  · have hclear := hinv.claimed task htask hstarted
    rw [hflags] at hclear
    cases hclear

/-- A task is submitted for a process that has none. -/
theorem oneTask_submit (hinv : OneTask c) (hnone : c.unfinished p = 0) (todo : List String) :
    OneTask { c with delegate := .scan todo, tasks := c.tasks ++ [⟨p, .submitted⟩] } where
  one q := by
    have hq := hinv.one q
    unfold Tasking.unfinished at hq hnone ⊢
    rw [List.countP_append]
    by_cases hpq : p = q
    · subst hpq
      rw [hnone, Nat.zero_add]
      exact List.countP_le_length
    · have hother : [SessionTask.mk p .submitted].countP (SessionTask.unfinishedOf q) = 0 := by
        simp [SessionTask.unfinishedOf, hpq]
      omega
  claimed task htask hstarted := by
    rcases List.mem_append.mp htask with htask | htask
    · exact hinv.claimed task htask hstarted
    · rw [List.mem_singleton.mp htask] at hstarted
      cases hstarted
  free := by simp

/-- **The scanner**: it submits a task for a process that has none. -/
theorem oneTask_delegate {order : List String} {running : Bool} (hinv : OneTask c)
    (hok : startedBeforeTest c (.delegate order running))
    (h : Delegate.step order running c = some c') : OneTask c' := by
  obtain ⟨delegate, map, tasks, sent⟩ := c
  cases delegate with
  | scan todo =>
    cases todo with
    | nil =>
      simp only [Delegate.step] at h
      split at h
      · cases h
        exact ⟨hinv.one, hinv.claimed, by simp⟩
      · cases h
    | cons p todo =>
      cases running with
      | true =>
        cases h
        exact oneTask_setFirst hinv true (by simp)
      | false =>
        cases h
        exact oneTask_setFirst hinv false (by simp)
  | test p todo =>
    simp only [Delegate.step] at h
    split at h
    · next hpass =>
      cases h
      have hflags : map.flags p = (true, true) := by
        obtain ⟨hfirst, hsecond⟩ := Bool.and_eq_true_iff.mp hpass
        exact Prod.ext hfirst hsecond
      have hnone := Tasking.unfinished_of_test hinv hflags (hok p rfl hflags)
      refine ⟨hinv.one, hinv.claimed, ?_⟩
      intro q rest hq
      cases hq
      exact hnone
    · cases h
      exact ⟨hinv.one, hinv.claimed, by simp⟩
  | submit p todo =>
    cases h
    exact oneTask_submit hinv (hinv.free p todo rfl) todo

section Tasks

variable {k : Nat} {task task' : SessionTask}

/-- A step of a task gives no process another task. -/
theorem unfinished_set_le (hk : c.tasks[k]? = some task) (hprocess : task'.process = task.process)
    (hunfinished : task.point ≠ .finished) (q : String) :
    (c.tasks.set k task').countP (SessionTask.unfinishedOf q) ≤ c.unfinished q := by
  have hq := Pool.countP_set (SessionTask.unfinishedOf q) task' hk
  have hmono : task'.unfinishedOf q = true → task.unfinishedOf q = true := by
    intro hq'
    simp only [SessionTask.unfinishedOf, Bool.and_eq_true, decide_eq_true_eq] at hq' ⊢
    exact ⟨hprocess ▸ hq'.1, hunfinished⟩
  unfold Tasking.unfinished
  split at hq
  · split at hq <;> omega
  · next hnot => rw [if_neg (mt hmono hnot)] at hq; omega

/-- A task that ends was the only one of its process. -/
theorem unfinished_set_finished (hinv : OneTask c) (hk : c.tasks[k]? = some task)
    (hunfinished : task.point ≠ .finished) (hfinished : task'.point = .finished) :
    (c.tasks.set k task').countP (SessionTask.unfinishedOf task.process) = 0 := by
  have hq := Pool.countP_set (SessionTask.unfinishedOf task.process) task' hk
  have hone := hinv.one task.process
  have hbefore : task.unfinishedOf task.process = true := by
    simp [SessionTask.unfinishedOf, hunfinished]
  have hafter : ¬ task'.unfinishedOf task.process = true := by
    simp [SessionTask.unfinishedOf, hfinished]
  rw [if_pos hbefore, if_neg hafter] at hq
  unfold Tasking.unfinished at hone
  omega

/-- The tasks that have started still have `second` clear, whether the task starts, goes on or
ends. -/
theorem claimed_of_step {map' : ProcessMap} (hinv : OneTask c) (hk : c.tasks[k]? = some task)
    (hprocess : task'.process = task.process) (hunfinished : task.point ≠ .finished)
    (hcases : (task'.started = true ∧ map' = c.processMap.setSecond task.process false) ∨
      (task.started = true ∧ task'.started = true ∧ map' = c.processMap) ∨
      (task.started = true ∧ task'.point = .finished ∧
        map' = c.processMap.setSecond task.process true))
    (u : SessionTask) (hu : u ∈ c.tasks.set k task') (hstarted : u.started = true) :
    (map'.flags u.process).2 = false := by
  have hold : u = task' ∨ u ∈ c.tasks := (List.mem_or_eq_of_mem_set hu).symm
  rcases hcases with ⟨-, rfl⟩ | ⟨htaskStarted, -, rfl⟩ | ⟨-, hfinished, rfl⟩
  · -- it starts: `second` of its process is clear, the other flags are as before
    rw [ProcessMap.flags_setSecond]
    split
    · rfl
    · next hne =>
      rcases hold with rfl | hmem
      · exact absurd hprocess hne
      · exact hinv.claimed u hmem hstarted
  · rcases hold with rfl | hmem
    · rw [hprocess]
      exact hinv.claimed task (List.mem_of_getElem? hk) htaskStarted
    · exact hinv.claimed u hmem hstarted
  · -- it ends: it was the only task of its process
    have hnone := unfinished_set_finished hinv hk hunfinished hfinished
    have hne : u.process ≠ task.process :=
      Tasking.not_started_of_unfinished (c := { c with tasks := c.tasks.set k task' })
        hnone hu hstarted
    rw [ProcessMap.flags_setSecond, if_neg hne]
    rcases hold with rfl | hmem
    · exact absurd hprocess hne
    · exact hinv.claimed u hmem hstarted

/-- **A task**: no process gets a task more, and `second` is clear from its start to its end. -/
theorem oneTask_task {launched due : Bool} (hinv : OneTask c)
    (h : c.step (.task k launched due) = some c') : OneTask c' := by
  simp only [Tasking.step] at h
  cases hk : c.tasks[k]? with
  | none => rw [hk] at h; cases h
  | some task =>
    rw [hk] at h
    obtain ⟨⟨task', map', events⟩, hstep, heq⟩ := Option.map_eq_some_iff.mp h
    cases heq
    obtain ⟨hprocess, hunfinished, hcases⟩ := SessionTask.step_cases hstep
    have hle := unfinished_set_le hk hprocess hunfinished
    refine ⟨fun q => (hle q).trans (hinv.one q),
      claimed_of_step hinv hk hprocess hunfinished hcases, fun q todo hdelegate => ?_⟩
    have hnone := hinv.free q todo hdelegate
    exact Nat.eq_zero_of_le_zero (hnone ▸ hle q)

end Tasks

theorem oneTask_step {l : TaskingLabel} (hinv : OneTask c) (hok : startedBeforeTest c l)
    (h : tasking.step c l = some c') : OneTask c' := by
  cases l with
  | delegate order running => exact oneTask_delegate hinv hok h
  | task k launched due => exact oneTask_task hinv h

end Steps

/-! ## Runs -/

theorem oneTask_initial (processMap : ProcessMap) : OneTask (.initial processMap) where
  one p := Nat.zero_le 1
  claimed task htask := by cases htask
  free p todo h := by cases h

/-- **One task for each process**, at every moment of a run in which no test passes while a task
of its process is waiting to start. -/
theorem one_task_per_process {processMap : ProcessMap} {ls : List TaskingLabel} {c : Tasking}
    (hrun : tasking.Runs startedBeforeTest (.initial processMap) ls c) (p : String) :
    c.unfinished p ≤ 1 := by
  have hinv := hrun.invariant (fun _ _ _ hinv hok hstep => oneTask_step hinv hok hstep)
    (oneTask_initial processMap)
  exact hinv.one p

/-- **A test that passes while a task is waiting** is followed by a second task. -/
theorem second_task {c : Tasking} {p : String} {todo : List String}
    (hdelegate : c.delegate = .test p todo) (hflags : c.processMap.flags p = (true, true))
    (hwaiting : ⟨p, .submitted⟩ ∈ c.tasks) :
    ∃ c', tasking.Runs (fun _ _ => True) c [.delegate [] true, .delegate [] true] c' ∧
      2 ≤ c'.unfinished p := by
  obtain ⟨delegate, map, tasks, sent⟩ := c
  cases hdelegate
  have htest : tasking.step ⟨.test p todo, map, tasks, sent⟩ (.delegate [] true) =
      some ⟨.submit p todo, map, tasks, sent⟩ := by
    show Delegate.step [] true ⟨.test p todo, map, tasks, sent⟩ = _
    dsimp only at hflags
    simp [Delegate.step, hflags]
  refine ⟨⟨.scan todo, map, tasks ++ [⟨p, .submitted⟩], sent⟩,
    .cons trivial htest (.cons trivial rfl (.nil _)), ?_⟩
  have hfirst : 0 < tasks.countP (SessionTask.unfinishedOf p) :=
    List.countP_pos_iff.mpr ⟨_, hwaiting, by simp [SessionTask.unfinishedOf]⟩
  have hsecond : [SessionTask.mk p .submitted].countP (SessionTask.unfinishedOf p) = 1 := by
    simp [SessionTask.unfinishedOf]
  unfold Tasking.unfinished
  dsimp only
  rw [List.countP_append]
  omega

/-! ## A late start -/

/-- A map of the one process `a`, as the constructor fills it. -/
def mapOfA : ProcessMap := Finmap.singleton "a" (true, true)

/-- A scan that finds `a` running, its flags set, and submits a task. -/
def scanSubmits : List TaskingLabel :=
  [.delegate ["a"] true, .delegate [] true, .delegate [] true, .delegate [] true]

/-- A scan that finds `a` running and its flags not both set. -/
def scanSkips : List TaskingLabel :=
  [.delegate ["a"] true, .delegate [] true, .delegate [] true]

/-- **Two tasks for one process**: the first one has not started when the next scan comes. -/
theorem two_tasks_submitted :
    ¬ ∀ (processMap : ProcessMap) (ls : List TaskingLabel) (c : Tasking),
      tasking.Runs (fun _ _ => True) (.initial processMap) ls c → ∀ p, c.unfinished p ≤ 1 := by
  intro hall
  have hend : (tasking.exec (.initial mapOfA) (scanSubmits ++ scanSubmits)).map
      (fun c => c.unfinished "a") = some 2 := by decide
  obtain ⟨c, hexec, htwo⟩ := Option.map_eq_some_iff.mp hend
  have hone := hall mapOfA _ c (System.runs_of_exec hexec) "a"
  omega

/-- A task that starts in time is the only one at the next scan. -/
theorem one_task_started :
    ∃ c, tasking.execWhere startedBeforeTest (.initial mapOfA)
      (scanSubmits ++ [.task 0 true false] ++ scanSkips) = some c ∧ c.unfinished "a" ≤ 1 := by
  obtain ⟨c, hexec⟩ : ∃ c, tasking.execWhere startedBeforeTest (.initial mapOfA)
      (scanSubmits ++ [.task 0 true false] ++ scanSkips) = some c :=
    Option.isSome_iff_exists.mp (by decide)
  exact ⟨c, hexec, one_task_per_process (System.runs_of_execWhere hexec) "a"⟩

end TimeTracker.Cpp
