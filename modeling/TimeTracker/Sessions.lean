import TimeTracker.ProcessNames

/-!
# Sessions

A process has at most one session at a time: its name waits in the spawn queue once, or one
worker of it is in its loop. The second flag of `PROCESS_MAP` (`has_session`) is what the
scanner consults before it opens a session, so the invariant ties the flag to the sessions
there are. It is kept by every step except one: `add_process` writes `(false, false)` over
whatever the map said, and after a `delete_process` a worker of the same name may still be
in its loop, where it neither ticks nor leaves.

* `sessions_le_one`: at most one session per process, in every run in which no insert into
  `PROCESS_MAP` finds a session of its process open;
* `two_sessions`: without that condition, deleting and adding a process while it runs gives
  it two.
-/

namespace TimeTracker

/-- The sessions of `p`: its occurrences in the spawn queue and its workers that have not
left their loop. -/
def sessions (p : String) (c : Config) : Nat :=
  c.shared.spawnQueue.count p + c.workers.countP fun w => w.p = p && w.live

/-- The sessions of `p` with those the scanner has opened and not yet queued. -/
def openSessions (p : String) (c : Config) : Nat := c.scanner.toSpawn.count p + sessions p c

/-- An insert into `PROCESS_MAP` finds no session of its process open. -/
def insertsWithoutSession (c : Config) : Label → Prop
  | .call k _ =>
    match c.calls[k]? with
    | some (.addProcess (.insertMap p)) => openSessions p c = 0
    | _ => True
  | _ => True

instance (c : Config) (l : Label) : Decidable (insertsWithoutSession c l) :=
  match l with
  | .call k _ => by
    unfold insertsWithoutSession
    dsimp only
    exact match c.calls[k]? with
      | some (.addProcess (.insertMap p)) => inferInstanceAs (Decidable (openSessions p c = 0))
      | none | some (.addProcess (.getProcesses _ _)) | some (.addProcess (.maxId _ _))
      | some (.addProcess (.insert _ _ _)) | some (.addProcess (.returned _))
      | some (.addProcess .panicked) | some (.deleteProcess _) | some (.pause _)
      | some (.setCheckpointActive _) | some (.createCheckpoint _)
      | some (.deleteCheckpoint _) => isTrue trivial
  | .scan _ | .spawn | .work _ _ | .handle _ => isTrue trivial

/-- The flag of a process without a session flag in the map is telling the truth. -/
structure SessionInvariant (c : Config) : Prop where
  atMostOne : ∀ p, openSessions p c ≤ 1
  flagged : ∀ p fst, c.shared.processMap.lookup p = some (fst, false) → openSessions p c = 0

/-! ## The steps -/

/-- At the start there is no session. -/
theorem sessionInvariant_initial (platform : Platform) (db : Store) (calls : List Call) :
    SessionInvariant (.initial platform db calls) where
  atMostOne _ := Nat.zero_le 1
  flagged _ _ _ := rfl

/-- The second critical section of the scanner keeps the invariant: it opens a session only
where the flag was down, and raises the flag with it. -/
theorem sessionInvariant_pass {c : Config} {m : RunningMap} {order : List String}
    {processMap : ProcessMap} {toSpawn : List String} (hinv : SessionInvariant c)
    (hsc : c.scanner = .pass m) (horder : isIterationOrder order c.shared.processMap = true)
    (hpass : passLoop m order c.shared.processMap [] = .done processMap toSpawn) :
    SessionInvariant
      { c with scanner := .spawn toSpawn, shared := { c.shared with processMap } } := by
  obtain ⟨hnodup, hmem⟩ := isIterationOrder_iff.mp horder
  obtain ⟨happ, hout, hin⟩ := passLoop_done hnodup hpass
  rw [List.nil_append] at happ
  have hcount : ∀ p, openSessions p
      { c with scanner := .spawn toSpawn, shared := { c.shared with processMap } }
        = toSpawn.count p + openSessions p c := by
    intro p
    simp [openSessions, sessions, Scanner.toSpawn, hsc]
  -- a name handed over had no session, and is handed over once
  have hopened : ∀ p ∈ toSpawn, toSpawn.count p = 1 ∧ openSessions p c = 0 := by
    intro p hp
    have hnew := happ ▸ hp
    obtain ⟨-, hopens⟩ := List.mem_filter.mp hnew
    simp only [opensSession, Bool.and_eq_true, decide_eq_true_eq, Option.map_eq_some_iff] at hopens
    obtain ⟨-, ⟨fst, snd⟩, hlook, rfl⟩ := hopens
    refine ⟨?_, hinv.flagged p fst hlook⟩
    rw [happ]
    exact List.count_eq_one_of_mem (hnodup.filter _) hnew
  refine ⟨fun p => ?_, fun p fst hlook => ?_⟩
  · rw [hcount]
    by_cases hp : p ∈ toSpawn
    · have := hopened p hp
      omega
    · have := hinv.atMostOne p
      have := List.count_eq_zero_of_not_mem hp
      omega
  · change processMap.lookup p = some (fst, false) at hlook
    rw [hcount]
    by_cases hp : p ∈ order
    -- the flag is down after the pass: it was down before, and `p` was not opened
    · obtain ⟨⟨fst', snd'⟩, hold⟩ := Finmap.mem_iff.mp ((hmem p).mp hp)
      obtain ⟨running, hm, hnew⟩ := hin p hp _ hold
      rw [hlook] at hnew
      simp only [passEntry, Option.some.injEq, Prod.mk.injEq] at hnew
      obtain ⟨rfl, hsnd⟩ := hnew
      have hsnd' : snd' = false ∧ fst = false := Bool.or_eq_false_iff.mp hsnd.symm
      have hnotMem : p ∉ toSpawn := by
        rw [happ, List.mem_filter]
        rintro ⟨-, hopens⟩
        simp [opensSession, hm, hsnd'.2] at hopens
      have := List.count_eq_zero_of_not_mem hnotMem
      have := hinv.flagged p fst' (by rw [hold, hsnd'.1])
      omega
    · have hnotMem : p ∉ toSpawn := fun h => hp (List.mem_of_mem_filter (happ ▸ h))
      have := List.count_eq_zero_of_not_mem hnotMem
      have := hinv.flagged p fst (by rw [← hout p hp, hlook])
      omega

/-- Entries the scanner has rewritten, without opening a session, keep the flags truthful. -/
theorem SessionInvariant.of_flags {c c' : Config} (hinv : SessionInvariant c)
    (hcount : ∀ p, openSessions p c' = openSessions p c)
    (hflags : ∀ p fst, c'.shared.processMap.lookup p = some (fst, false) →
      ∃ fst', c.shared.processMap.lookup p = some (fst', false)) : SessionInvariant c' where
  atMostOne p := hcount p ▸ hinv.atMostOne p
  flagged p fst h := by
    obtain ⟨fst', h'⟩ := hflags p fst h
    rw [hcount]
    exact hinv.flagged p fst' h'

/-- The scanner sends a name to the queue only as it marks it, so there is no session of it yet. -/
theorem sessionInvariant_scan {c c' : Config} {inp : Input} (hinv : SessionInvariant c)
    (h : tracker.step c (.scan inp) = some c') : SessionInvariant c' := by
  obtain ⟨sc, s, hstep, rfl⟩ := step_scan h
  rcases Scanner.step_cases hstep with ⟨hto, hto', rfl⟩ |
    ⟨m, processMap, toSpawn, hsc, -, horder, hpass, rfl, rfl⟩ |
    ⟨m, processMap, hsc, -, horder, hpass, rfl, rfl⟩ | ⟨p, rest, hsc, rfl, rfl⟩
  · refine hinv.of_flags (fun p => ?_) fun p fst hlook => ⟨fst, hlook⟩
    simp [openSessions, sessions, hto, hto']
  · exact sessionInvariant_pass hinv hsc horder hpass
  · -- the scanner dies: what it had raised is lost, and no session is opened
    refine hinv.of_flags (fun p => ?_) fun p fst hlook => ?_
    · simp [openSessions, sessions, Scanner.toSpawn, hsc]
    · obtain ⟨hnodup, -⟩ := isIterationOrder_iff.mp horder
      rcases passLoop_panicked hnodup hpass p with hsame | ⟨running, entry, hold, hnew⟩
      · exact ⟨fst, by rw [← hsame]; exact hlook⟩
      · rw [show processMap.lookup p = some (fst, false) from hlook] at hnew
        simp only [passEntry, Option.some.injEq, Prod.mk.injEq] at hnew
        have := (Bool.or_eq_false_iff.mp hnew.2.symm).1
        exact ⟨entry.1, by rw [hold, ← this]⟩
  · refine hinv.of_flags (fun q => ?_) fun q fst hlook => ⟨fst, hlook⟩
    simp only [openSessions, sessions, Scanner.toSpawn, hsc, List.count_append, List.count_cons,
      List.count_nil]
    omega

/-- A worker takes the place of its name in the queue. -/
theorem sessionInvariant_spawn {c c' : Config} (hinv : SessionInvariant c)
    (h : tracker.step c .spawn = some c') : SessionInvariant c' := by
  obtain ⟨p, rest, hq, rfl⟩ := step_spawn h
  refine hinv.of_flags (fun q => ?_) fun q fst hlook => ⟨fst, hlook⟩
  -- the name leaves the queue and its worker is live
  simp only [openSessions, sessions, hq, List.countP_append, List.countP_cons, List.countP_nil,
    List.count_cons, Worker.spawned, Worker.live]
  by_cases hpq : p = q
  · subst hpq
    simp
    omega
  · simp [hpq]

/-- A worker removes the mark only as it ends. -/
theorem sessionInvariant_work {c c' : Config} {k : Nat} {inp : Input} (hinv : SessionInvariant c)
    (h : tracker.step c (.work k inp) = some c') : SessionInvariant c' := by
  obtain ⟨w, w', s, hk, hstep, rfl⟩ := step_work h
  obtain ⟨hp, hqueue, -, hcases⟩ := Worker.step_cases hstep
  -- a worker of `q` only ever leaves its loop
  have hcount : ∀ q, (c.workers.set k w').countP (fun w => w.p = q && w.live)
      + (if w.p = q ∧ w.live = true then 1 else 0)
      = c.workers.countP (fun w => w.p = q && w.live)
        + (if w.p = q ∧ w'.live = true then 1 else 0) := by
    intro q
    have := Pool.countP_set (fun w : Worker => w.p = q && w.live) w' hk
    simpa [hp] using this
  have hopen : ∀ q, openSessions q { c with shared := s, workers := c.workers.set k w' }
      + (if w.p = q ∧ w.live = true then 1 else 0)
      = openSessions q c + (if w.p = q ∧ w'.live = true then 1 else 0) := by
    intro q
    have := hcount q
    simp only [openSessions, sessions, hqueue]
    omega
  rcases hcases with ⟨hmap, hlive⟩ | ⟨snd, hlook, hmap, hlive, hlive'⟩
  · have hle : ∀ q, openSessions q { c with shared := s, workers := c.workers.set k w' }
        ≤ openSessions q c := by
      intro q
      have := hopen q
      split_ifs at this <;> grind
    refine ⟨fun q => (hle q).trans (hinv.atMostOne q), fun q fst hq => ?_⟩
    have hzero := hinv.flagged q fst (by rw [← hmap]; exact hq)
    exact Nat.le_zero.mp (hzero ▸ hle q)
  · -- the worker clears the flag and leaves: it was the one session of its process
    have hsub : ∀ q, openSessions q { c with shared := s, workers := c.workers.set k w' }
        + (if w.p = q then 1 else 0) = openSessions q c := by
      intro q
      simpa [hlive, hlive'] using hopen q
    refine ⟨fun q => ?_, fun q fst hq => ?_⟩
    · have := hsub q
      have := hinv.atMostOne q
      omega
    · have := hsub q
      by_cases hwq : w.p = q
      · have := hinv.atMostOne q
        rw [if_pos hwq] at *
        omega
      · change s.processMap.lookup q = some (fst, false) at hq
        rw [hmap, Finmap.lookup_insert_of_ne _ fun he => hwq he.symm] at hq
        have := hinv.flagged q fst hq
        omega

/-- An `add_process` puts its name into the map without a mark, and by the condition there is no
session of it then. -/
theorem sessionInvariant_call {c c' : Config} {k : Nat} {inp : Input} (hinv : SessionInvariant c)
    (hok : insertsWithoutSession c (.call k inp))
    (h : tracker.step c (.call k inp) = some c') : SessionInvariant c' := by
  obtain ⟨call, call', s, hk, hstep, rfl⟩ := step_call h
  obtain ⟨hqueue, -, -, hcases⟩ := Call.step_cases hstep
  have hcount : ∀ q, openSessions q { c with shared := s, calls := c.calls.set k call' }
      = openSessions q c := by
    intro q
    simp only [openSessions, sessions, hqueue]
  rcases hcases with hmap | ⟨p, rfl, -, -, rfl⟩ | ⟨p, rfl, -, -, rfl⟩
  · exact hinv.of_flags hcount fun q fst hq => ⟨fst, by rw [← hmap]; exact hq⟩
  · -- the guarded step: the new entry says "no session", and there is none
    simp only [insertsWithoutSession, hk] at hok
    refine ⟨fun q => hcount q ▸ hinv.atMostOne q, fun q fst hq => ?_⟩
    rw [hcount]
    by_cases hpq : q = p
    · exact hpq ▸ hok
    · exact hinv.flagged q fst (by rw [← hq]; exact (Finmap.lookup_insert_of_ne _ hpq).symm)
  -- a removed entry has no flag; its session, if there is one, goes on
  · refine hinv.of_flags hcount fun q fst hq => ⟨fst, ?_⟩
    by_cases hpq : q = p
    · subst hpq
      rw [show (c.shared.processMap.erase q).lookup q = none from Finmap.lookup_erase _ _] at hq
      cases hq
    · rw [← hq]
      exact (Finmap.lookup_erase_ne hpq).symm

/-- So every step keeps the invariant, if it meets the condition. -/
theorem sessionInvariant_step (c : Config) (l : Label) (c' : Config) (hinv : SessionInvariant c)
    (hok : insertsWithoutSession c l) (h : tracker.step c l = some c') : SessionInvariant c' := by
  cases l with
  | scan inp => exact sessionInvariant_scan hinv h
  | spawn => exact sessionInvariant_spawn hinv h
  | work k inp => exact sessionInvariant_work hinv h
  | handle inp =>
    obtain ⟨loop, events, db, -, rfl⟩ := step_handle h
    exact hinv.of_flags (fun _ => rfl) fun _ fst hq => ⟨fst, hq⟩
  | call k inp => exact sessionInvariant_call hinv hok h

/-! ## Runs -/

/-- **At most one session per process**, in every state of every run in which no insert into
`PROCESS_MAP` finds a session of its process open. -/
theorem sessions_le_one {platform : Platform} {db : Store} {calls : List Call} {ls : List Label}
    {c : Config}
    (hrun : tracker.Runs insertsWithoutSession (.initial platform db calls) ls c) (p : String) :
    sessions p c ≤ 1 := by
  have hinv := hrun.invariant sessionInvariant_step (sessionInvariant_initial platform db calls)
  have := hinv.atMostOne p
  unfold openSessions at this
  omega

/-! ## The condition is needed

One tracked process that runs throughout. The scanner opens its session and a worker starts;
a client deletes the process and adds it again; the next scan opens a second session. -/

/-- A scan of a map with the one key `a`, while `a` runs, up to the spawn queue. -/
def scanOfA : List Label :=
  [.scan { order := ["a"] }, .scan {}, .scan { system := [⟨"a", false⟩] },
    .scan { order := ["a"] }, .scan {}]

/-- The session of `a` is open while it is deleted and added again. -/
def reopenWhileRunning : List Label :=
  scanOfA ++ [.scan {}, .spawn, .call 0 {}, .call 0 {}, .call 1 {}, .call 1 {}, .call 1 {},
    .call 1 {}] ++ scanOfA

/-- The session of `a` ends before it is added again. -/
def reopenAfterwards : List Label :=
  scanOfA ++ [.scan {}, .spawn] ++ [.scan { order := ["a"] }, .scan {}, .scan {},
    .scan { order := ["a"] }, .work 0 {}, .work 0 {}, .work 0 {}, .work 0 {}, .work 0 {},
    .call 0 {}, .call 0 {}, .call 1 {}, .call 1 {}, .call 1 {}, .call 1 {}, .scan {}] ++ scanOfA

/-- **Two sessions of one process**, after a delete and an add while it runs. -/
theorem two_sessions :
    ¬ ∀ (platform : Platform) (db : Store) (calls : List Call) (ls : List Label) (c : Config),
      tracker.Runs (fun _ _ => True) (.initial platform db calls) ls c →
      ∀ p, sessions p c ≤ 1 := by
  intro hall
  have hsome : (tracker.exec (.initial .linux storeWithA deleteThenAdd)
      reopenWhileRunning).map (sessions "a") = some 2 := by decide
  obtain ⟨c, hexec, htwo⟩ := Option.map_eq_some_iff.mp hsome
  have := hall _ _ _ _ c (Transition.System.runs_of_exec hexec) "a"
  omega

/-- The condition is met where the session has ended before the process is added again. -/
theorem sessions_le_one_reopenAfterwards :
    ∃ c, tracker.execWhere insertsWithoutSession (.initial .linux storeWithA deleteThenAdd)
        reopenAfterwards = some c ∧ sessions "a" c = 1 ∧ ∀ p, sessions p c ≤ 1 := by
  have hsome : (tracker.execWhere insertsWithoutSession
      (.initial .linux storeWithA deleteThenAdd) reopenAfterwards).map (sessions "a")
        = some 1 := by decide
  obtain ⟨c, hexec, hone⟩ := Option.map_eq_some_iff.mp hsome
  exact ⟨c, hexec, hone, fun p => sessions_le_one (Transition.System.runs_of_execWhere hexec) p⟩

end TimeTracker
