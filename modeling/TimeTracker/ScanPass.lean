import TimeTracker.ProcessNames

/-!
# The two critical sections of a scan

A scan copies the keys of `PROCESS_MAP`, lets go of the lock, asks which of the copied names
run, takes the lock again and goes through the map as it is by then. The answer has an entry
for every name that was asked about and no other (`mem_areProcessesRunning`), so the `unwrap`
in the second section fails exactly at a name that came in between.

* `pass_safe_iff`: the second section meets only names that were asked about, and does not
  panic, iff every name whose last map write since the first section is an insert had
  already been copied;
* `pass_panics`: adding one process while the scanner looks for the others kills it.
-/

namespace TimeTracker

/-! ## Between the two sections -/

/-- What the scanner holds between its two sections are the names it copied. -/
def asksAbout (copied : String → Prop) : Scanner → Prop
  | .aliases names => ∀ p, p ∈ names ↔ copied p
  | .processes names _ => ∀ p, p ∈ names ↔ copied p
  | .pass m => ∀ p, p ∈ m ↔ copied p
  | _ => True

/-- The first section, the alias query and the look at the system's processes. -/
theorem asksAbout_scan {sc sc' : Scanner} {s s' : Shared} {inp : Input} {copied : String → Prop}
    (hne : sc ≠ .snapshot) (hasks : asksAbout copied sc)
    (h : sc.step inp s = some (sc', s')) : asksAbout copied sc' := by
  cases sc with
  | snapshot => exact absurd rfl hne
  | aliases names =>
    simp only [Scanner.step] at h
    split at h <;> cases h <;> exact hasks
  | processes names processAliases =>
    simp only [Scanner.step] at h
    split at h
    · cases h; trivial
    · next m hm =>
      split at h
      · cases h; trivial
      · cases h
        exact fun p => (mem_areProcessesRunning hm p).trans (hasks p)
  | pass m =>
    simp only [Scanner.step] at h
    split at h
    · cases h
    · cases h; trivial
    · split at h
      · split at h <;> cases h <;> trivial
      · cases h
  | spawn toSpawn => cases toSpawn <;> cases h <;> trivial
  | panicked => cases h

theorem asksAbout_step {c c' : Config} {l : Label} {copied : String → Prop}
    (hne : c.scanner ≠ .snapshot) (hasks : asksAbout copied c.scanner)
    (h : tracker.step c l = some c') : asksAbout copied c'.scanner := by
  cases l with
  | scan inp =>
    obtain ⟨sc, s, hstep, rfl⟩ := step_scan h
    exact asksAbout_scan hne hasks hstep
  | spawn =>
    obtain ⟨_, _, -, rfl⟩ := step_spawn h
    exact hasks
  | work k inp =>
    obtain ⟨_, _, _, -, -, rfl⟩ := step_work h
    exact hasks
  | handle inp =>
    obtain ⟨_, _, _, -, rfl⟩ := step_handle h
    exact hasks
  | call k inp =>
    obtain ⟨_, _, _, -, -, rfl⟩ := step_call h
    exact hasks

/-- Only a scanner that has died leaves the lock poisoned. -/
def poisonedByScanner (c : Config) : Prop :=
  c.shared.mapLock = .poisoned → c.scanner = .panicked

theorem poisonedByScanner_step {c c' : Config} {l : Label} (hinv : poisonedByScanner c)
    (h : tracker.step c l = some c') : poisonedByScanner c' := by
  cases l with
  | scan inp =>
    obtain ⟨sc, s, hstep, rfl⟩ := step_scan h
    -- a scanner that moves has not died, so the lock is sound
    have hlock : c.shared.mapLock ≠ .poisoned := fun hl => by
      rw [hinv hl] at hstep
      cases hstep
    rcases Scanner.step_cases hstep with ⟨-, -, rfl⟩ | ⟨_, _, _, -, hfree, -, -, -, rfl⟩ |
      ⟨_, _, -, -, -, -, rfl, -⟩ | ⟨_, _, -, -, rfl⟩
    · exact fun hl => absurd hl hlock
    · exact fun hl => absurd hl hlock
    · exact fun _ => rfl
    · exact fun hl => absurd hl hlock
  | spawn =>
    obtain ⟨_, _, -, rfl⟩ := step_spawn h
    exact hinv
  | work k inp =>
    obtain ⟨_, _, _, -, hstep, rfl⟩ := step_work h
    exact fun hl => hinv (Worker.step_mapLock hstep hl)
  | handle inp =>
    obtain ⟨_, _, _, -, rfl⟩ := step_handle h
    exact hinv
  | call k inp =>
    obtain ⟨_, _, _, -, hstep, rfl⟩ := step_call h
    obtain ⟨-, -, hlock, -⟩ := Call.step_cases hstep
    exact fun hl => hinv (hlock ▸ hl)

/-! ## The whole scan -/

section
variable {c₀ c₁ c c' : Config} {ls : List Label} {first second : Input} {m : RunningMap}

/-- The first critical section copies the keys of the map and leaves the map alone. -/
theorem copies_keys (hstart : c₀.scanner = .snapshot)
    (hfirst : tracker.step c₀ (.scan first) = some c₁) :
    asksAbout (· ∈ c₀.shared.processMap) c₁.scanner ∧ poisonedByScanner c₁ ∧
      c₁.shared.processMap = c₀.shared.processMap := by
  obtain ⟨sc, s, hstep, rfl⟩ := step_scan hfirst
  rw [hstart] at hstep
  simp only [Scanner.step] at hstep
  split at hstep
  · cases hstep
  · cases hstep
    exact ⟨trivial, fun _ => rfl, rfl⟩
  · next hfree =>
    split at hstep
    · next horder =>
      cases hstep
      refine ⟨(isIterationOrder_iff.mp horder).2, fun hl => ?_, rfl⟩
      rw [hfree] at hl
      cases hl
    · cases hstep

/-- The second critical section panics iff it meets a name that was not asked about. -/
theorem pass_panics_iff (hlock : poisonedByScanner c) (hpass : c.scanner = .pass m)
    (hsecond : tracker.step c (.scan second) = some c') :
    c'.scanner = .panicked ↔ ∃ p ∈ c.shared.processMap, p ∉ m := by
  obtain ⟨sc, s, hstep, rfl⟩ := step_scan hsecond
  rw [hpass] at hstep
  simp only [Scanner.step] at hstep
  split at hstep
  · cases hstep
  -- a poisoned lock means that the scanner had died before
  · next hl =>
    have := hlock hl
    rw [hpass] at this
    cases this
  · split at hstep
    · next horder =>
      obtain ⟨-, hmem⟩ := isIterationOrder_iff.mp horder
      have hiff : (∃ processMap',
          passLoop m second.order c.shared.processMap [] = .panicked processMap') ↔
          ∃ p ∈ c.shared.processMap, p ∉ m := by
        rw [passLoop_panics_iff]
        simp only [hmem]
      split at hstep
      · next hdone =>
        cases hstep
        rw [← hiff, hdone]
        simp
      · next hpanicked =>
        cases hstep
        rw [← hiff, hpanicked]
        simp
    · cases hstep

/-- **When the second critical section is safe.** In one scan, interleaved with anything: it
meets only names that were asked about, and does not panic, iff every name whose last map
write since the first section is an insert had been copied in the first section. -/
theorem pass_safe_iff (hstart : c₀.scanner = .snapshot)
    (hfirst : tracker.step c₀ (.scan first) = some c₁)
    (hrun : tracker.Runs (fun c _ => c.scanner ≠ .snapshot) c₁ ls c)
    (hpass : c.scanner = .pass m) (hsecond : tracker.step c (.scan second) = some c') :
    ((∀ p ∈ c.shared.processMap, p ∈ m) ∧ c'.scanner ≠ .panicked) ↔
      ∀ p, lastMapWrite p c₁ ls = some true → p ∈ c₀.shared.processMap := by
  obtain ⟨hasks₁, hlock₁, hmap₁⟩ := copies_keys hstart hfirst
  have hasks := hrun.invariant (I := fun c => asksAbout (· ∈ c₀.shared.processMap) c.scanner)
    (fun _ _ _ hasks hne hstep => asksAbout_step hne hasks hstep) hasks₁
  have hlock := hrun.invariant (fun _ _ _ hinv _ hstep => poisonedByScanner_step hinv hstep) hlock₁
  rw [hpass] at hasks
  have hasked : ∀ p, p ∈ m ↔ p ∈ c₀.shared.processMap := hasks
  have hnopanic : c'.scanner ≠ .panicked ↔ ∀ p ∈ c.shared.processMap, p ∈ m := by
    rw [ne_eq, pass_panics_iff hlock hpass hsecond]
    simp
  rw [hnopanic, and_self]
  refine forall_congr' fun p => ?_
  have hlast := mem_processMap_iff hrun p
  rw [hmap₁] at hlast
  rw [hasked]
  -- the map at the second section: the last write, or else what was copied
  cases hw : lastMapWrite p c₁ ls with
  | none =>
    rw [hw, Option.getD_none, decide_eq_decide] at hlast
    simp [hlast]
  | some added =>
    rw [hw, Option.getD_some] at hlast
    cases added with
    | false => simp [of_decide_eq_false hlast]
    | true => simp [of_decide_eq_true hlast]

end

/-! ## The condition is needed -/

/-- One scan up to the end of its second critical section, with the steps `ls` between the
two sections: the states after the first, before the second and after the second. -/
def scanWith (c₀ : Config) (first : Input) (ls : List Label) (second : Input) :
    Option (Config × Config × Config) := do
  let c₁ ← tracker.step c₀ (.scan first)
  let c ← tracker.execWhere (fun c _ => c.scanner ≠ .snapshot) c₁ ls
  let c' ← tracker.step c (.scan second)
  return (c₁, c, c')

theorem of_scanWith {c₀ c₁ c c' : Config} {first second : Input} {ls : List Label}
    (h : scanWith c₀ first ls second = some (c₁, c, c')) :
    tracker.step c₀ (.scan first) = some c₁ ∧
      tracker.Runs (fun c _ => c.scanner ≠ .snapshot) c₁ ls c ∧
      tracker.step c (.scan second) = some c' := by
  obtain ⟨d₁, h₁, h⟩ := Option.bind_eq_some_iff.mp h
  obtain ⟨d, hrun, h⟩ := Option.bind_eq_some_iff.mp h
  obtain ⟨d', h₂, h⟩ := Option.bind_eq_some_iff.mp h
  cases h
  exact ⟨h₁, Transition.System.runs_of_execWhere hrun, h₂⟩

/-- The answer the scanner takes into its second critical section. -/
def Scanner.answer : Scanner → Option RunningMap
  | .pass m => some m
  | _ => none

theorem Scanner.eq_pass {sc : Scanner} {m : RunningMap} (h : sc.answer = some m) :
    sc = .pass m := by
  cases sc <;> cases h
  rfl

/-- The alias query and the look at a system on which `a` runs. -/
def lookForA : List Label := [.scan {}, .scan { system := [⟨"a", false⟩] }]

/-- A client that adds `b`. -/
def addB : List Call := [.addProcess (.getProcesses "b" "b.exe")]

/-- The whole call of that client. -/
def wholeAdd : List Label := [.call 0 {}, .call 0 {}, .call 0 {}, .call 0 {}]

/-- **The scanner panics** when a process is added between its two critical sections. -/
theorem pass_panics :
    ¬ ∀ (c₀ c₁ c c' : Config) (ls : List Label) (first second : Input) (m : RunningMap),
      c₀.scanner = .snapshot → tracker.step c₀ (.scan first) = some c₁ →
      tracker.Runs (fun c _ => c.scanner ≠ .snapshot) c₁ ls c → c.scanner = .pass m →
      tracker.step c (.scan second) = some c' →
      (∀ p ∈ c.shared.processMap, p ∈ m) ∧ c'.scanner ≠ .panicked := by
  intro hall
  have hend : (scanWith (.initial .linux storeWithA addB) { order := ["a"] }
      (wholeAdd ++ lookForA) { order := ["a", "b"] }).map
      (fun (_, c, c') => decide (c.scanner.answer.isSome ∧ c'.scanner = .panicked))
        = some true := by decide
  obtain ⟨⟨c₁, c, c'⟩, hscan, hc⟩ := Option.map_eq_some_iff.mp hend
  obtain ⟨hanswer, hpanicked⟩ := of_decide_eq_true hc
  obtain ⟨m, hm⟩ := Option.isSome_iff_exists.mp hanswer
  obtain ⟨h₁, hrun, h₂⟩ := of_scanWith hscan
  exact (hall _ c₁ c c' _ _ _ m rfl h₁ hrun (Scanner.eq_pass hm) h₂).2 hpanicked

/-- A scan during which `a` itself is deleted and added again: the equivalence applies, and
nothing panics. -/
theorem pass_safe_iff_deleteThenAdd :
    ∃ (c₁ c c' : Config) (m : RunningMap), scanWith (.initial .linux storeWithA deleteThenAdd) { order := ["a"] }
        (deleteBeforeAdd ++ lookForA) { order := ["a"] } = some (c₁, c, c') ∧
      c'.scanner ≠ .panicked ∧
      (((∀ p ∈ c.shared.processMap, p ∈ m) ∧ c'.scanner ≠ .panicked) ↔
        ∀ p, lastMapWrite p c₁ (deleteBeforeAdd ++ lookForA) = some true →
          p ∈ (Config.initial .linux storeWithA deleteThenAdd).shared.processMap) := by
  have hend : (scanWith (.initial .linux storeWithA deleteThenAdd) { order := ["a"] }
      (deleteBeforeAdd ++ lookForA) { order := ["a"] }).map
      (fun (_, c, c') => decide (c.scanner.answer.isSome ∧ c'.scanner ≠ .panicked))
        = some true := by decide
  obtain ⟨⟨c₁, c, c'⟩, hscan, hc⟩ := Option.map_eq_some_iff.mp hend
  obtain ⟨hanswer, hsafe⟩ := of_decide_eq_true hc
  obtain ⟨m, hm⟩ := Option.isSome_iff_exists.mp hanswer
  obtain ⟨h₁, hrun, h₂⟩ := of_scanWith hscan
  exact ⟨c₁, c, c', m, hscan, hsafe,
    pass_safe_iff rfl h₁ hrun (Scanner.eq_pass hm) h₂⟩

end TimeTracker
