import TimeTracker.AliasQueries
import TimeTracker.ScanPass

/-!
# What a scan does

Four steps of the scanner make a scan: it copies the names in `PROCESS_MAP`, reads their aliases,
looks at the processes of the system, and goes through the map. Other threads take steps between
each of them and the next.

* `Look.runs` says whether a name runs, from what the scanner has seen: the alias rows as its query
  read them and the processes as it found them.
* `lookup_answer`: the answer the scanner takes into its second critical section says just that.
* **`scanFollowsLook`**: when the scan is over, every name that is tracked by then is marked as
  running or not by what the scanner has seen, and a session starts for exactly those that run and
  had none, whatever the other threads did.
-/

namespace TimeTracker

open Transition

/-! ## What the scanner sees -/

/-- The test for zombies, which only the Linux version makes. -/
def SysProcess.alive (platform : Platform) (process : SysProcess) : Bool :=
  match platform with
  | .linux => !process.zombie
  | .windows => true

/-- What one scan has seen: the tables as the alias query read them, unless it failed, and the
processes of the system. -/
structure Look where
  platform : Platform
  tables : Option Store
  system : List SysProcess

/-- `name` is an alias of the app called `p`. -/
def Look.isAlias (look : Look) (p name : String) : Bool :=
  match look.tables.bind fun db => (db.findApp p).map (getProcessAliasesForApp db ·.id) with
  | some aliases => aliases.contains name
  | none => false

/-- A process that is alive has the name `p`, or an alias of it. -/
def Look.runs (look : Look) (p : String) : Bool :=
  look.system.any fun process =>
    process.alive look.platform && (decide (process.name = p) || look.isAlias p process.name)

/-- The alias map the scanner works with: `unwrap_or_default` of what the query returns. -/
def Look.aliasMap (look : Look) (appNames : List String) : AliasMap :=
  match look.tables with
  | some db => getProcessAliasesByAppNames db appNames
  | none => ∅

section
variable {look : Look} {appNames : List String} {p : String} {m : RunningMap}

theorem setsAlias_aliasMap (h : p ∈ appNames) (name : String) :
    setsAlias (some (look.aliasMap appNames)) p name = look.isAlias p name := by
  rw [Bool.eq_iff_iff, setsAlias_eq_true]
  unfold Look.aliasMap Look.isAlias
  cases look.tables with
  | none => simp [inAliasList_some]
  | some db =>
    show InAliasList (some (getProcessAliasesByAppNames db appNames)) p name ↔ _
    rw [inAliasList_iff, Option.bind_some]
    cases db.findApp p with
    | none => simp
    | some app => simp [h]

/-- What a tracked name is answered, on either platform. -/
theorem lookup_areProcessesRunning {platform : Platform} {processes : List String}
    {aliases : Option AliasMap} {system : List SysProcess} (hp : p ∈ processes)
    (h : areProcessesRunning platform processes aliases system = some m) :
    m.lookup p = some (system.any fun process =>
      process.alive platform &&
        (decide (process.name = p) || setsAlias aliases p process.name)) := by
  cases platform with
  | linux =>
    cases h
    rw [lookup_uxAreProcessesRunning hp, Option.some.injEq]
    refine List.any_congr rfl fun process => ?_
    simp only [SysProcess.alive, eq_comm (a := p)]
    cases process.zombie with
    | true => simp
    | false => simp
  | windows =>
    cases system with
    | nil => cases h
    | cons first rest =>
      cases h
      rw [lookup_foldl_insert_missing, if_pos hp,
        lookup_foldl_mark (fun process target => process.name = target) (fun _ => true) hp,
        Finmap.lookup_empty, Option.some.injEq]
      simp only [SysProcess.alive, Bool.true_and, Bool.and_true]
      split
      · next hany => rw [hany, Option.getD_some]
      · next hany => rw [Bool.eq_false_iff.mpr hany, Option.getD_none]

/-- **The answer** says of every name that was asked about whether it runs. -/
theorem lookup_answer (hp : p ∈ appNames)
    (h : areProcessesRunning look.platform appNames (some (look.aliasMap appNames)) look.system =
      some m) : m.lookup p = some (look.runs p) := by
  rw [lookup_areProcessesRunning hp h, Look.runs]
  simp only [setsAlias_aliasMap hp]

end

/-! ## A scan among the other threads -/

/-- A step of another thread. -/
def others (_ : Config) (l : Label) : Prop := ∀ inp, l ≠ .scan inp

instance (c : Config) : (l : Label) → Decidable (others c l)
  | .scan inp => isFalse fun h => h inp rfl
  | .spawn | .work _ _ | .handle _ | .call _ _ => isTrue fun _ => Label.noConfusion

/-- A scan from `c₀`, and what it has seen: `c` is the state its second critical section meets, and
`c'` the one it leaves. A look that shows no process ends the scan early, which is none of these. -/
inductive Scan (c₀ : Config) : Look → Config → Config → Prop where
  | mk {c₁ c₂ c₃ c₄ c₅ c c' : Config} {ls₁ ls₂ ls₃ : List Label}
      {first aliases system second : Input}
      (start : c₀.scanner = .snapshot)
      (copy : tracker.step c₀ (.scan first) = some c₁)
      (others₁ : tracker.Runs others c₁ ls₁ c₂)
      (query : tracker.step c₂ (.scan aliases) = some c₃)
      (others₂ : tracker.Runs others c₃ ls₂ c₄)
      (find : tracker.step c₄ (.scan system) = some c₅)
      (found : c₅.scanner ≠ .snapshot)
      (others₃ : tracker.Runs others c₅ ls₃ c)
      (pass : tracker.step c (.scan second) = some c') :
      Scan c₀ ⟨c₄.shared.platform, if aliases.err = none then some c₂.shared.db else none,
        system.system⟩ c c'

section
variable {c₀ c c' : Config} {l : Label} {ls : List Label} {inp : Input} {look : Look}
  {names : List String} {m : RunningMap} {p : String}

/-- The other threads leave the scanner where it is. -/
theorem scanner_of_others (h : tracker.Runs others c ls c') : c'.scanner = c.scanner := by
  refine h.invariant (I := fun d => d.scanner = c.scanner) ?_ rfl
  intro d l d' hd hl hstep
  cases l with
  | scan inp => exact absurd rfl (hl inp)
  | spawn =>
    obtain ⟨_, _, -, rfl⟩ := step_spawn hstep
    exact hd
  | work k inp =>
    obtain ⟨_, _, _, -, -, rfl⟩ := step_work hstep
    exact hd
  | handle inp =>
    obtain ⟨_, _, _, -, rfl⟩ := step_handle hstep
    exact hd
  | call k inp =>
    obtain ⟨_, _, _, -, -, rfl⟩ := step_call hstep
    exact hd

/-! ### Its four steps -/

theorem scanner_copied (hstart : c.scanner = .snapshot)
    (h : tracker.step c (.scan inp) = some c') :
    c'.scanner = .panicked ∨ c'.scanner = .aliases inp.order := by
  obtain ⟨sc, s, hstep, rfl⟩ := step_scan h
  rw [hstart] at hstep
  simp only [Scanner.step] at hstep
  split at hstep
  · cases hstep
  · cases hstep
    exact .inl rfl
  · split at hstep
    · cases hstep
      exact .inr rfl
    · cases hstep

theorem scanner_queried (hsc : c.scanner = .aliases names)
    (h : tracker.step c (.scan inp) = some c') :
    c'.scanner = .processes names
      (Look.aliasMap ⟨.linux, if inp.err = none then some c.shared.db else none, []⟩ names) := by
  obtain ⟨sc, s, hstep, rfl⟩ := step_scan h
  rw [hsc] at hstep
  cases herr : inp.err with
  | none =>
    simp only [Scanner.step, Input.statement, herr] at hstep
    cases hstep
    rfl
  | some e =>
    simp only [Scanner.step, Input.statement, herr] at hstep
    cases hstep
    rfl

theorem scanner_found {aliases : AliasMap} (hsc : c.scanner = .processes names aliases)
    (hfound : c'.scanner ≠ .snapshot) (h : tracker.step c (.scan inp) = some c') :
    ∃ m, areProcessesRunning c.shared.platform names (some aliases) inp.system = some m ∧
      c'.scanner = .pass m := by
  obtain ⟨sc, s, hstep, rfl⟩ := step_scan h
  rw [hsc] at hstep
  simp only [Scanner.step] at hstep
  split at hstep
  · cases hstep
    exact absurd rfl hfound
  · next m hm =>
    split at hstep
    · cases hstep
      exact absurd rfl hfound
    · cases hstep
      exact ⟨m, hm, rfl⟩

/-- The second critical section, where it does not panic: every entry gets its new flags, and
nothing else changes. -/
theorem scanner_passed (hsc : c.scanner = .pass m) (hnopanic : c'.scanner ≠ .panicked)
    (h : tracker.step c (.scan inp) = some c') :
    ∃ processMap toSpawn, c' = { c with
        scanner := .spawn toSpawn, shared := { c.shared with processMap } } ∧
      toSpawn.Nodup ∧
      (∀ p, p ∈ toSpawn ↔ opensSession m c.shared.processMap p = true) ∧
      (∀ p, c.shared.processMap.lookup p = none → processMap.lookup p = none) ∧
      ∀ p entry, c.shared.processMap.lookup p = some entry →
        ∃ running, m.lookup p = some running ∧
          processMap.lookup p = some (passEntry running entry) := by
  obtain ⟨sc, s, hstep, rfl⟩ := step_scan h
  rw [hsc] at hstep
  simp only [Scanner.step] at hstep
  split at hstep
  · cases hstep
  · cases hstep
    exact absurd rfl hnopanic
  · split at hstep
    · next horder =>
      split at hstep
      · next processMap toSpawn hpass =>
        cases hstep
        obtain ⟨hnodup, hmem⟩ := isIterationOrder_iff.mp horder
        obtain ⟨hlist, hout, hentries⟩ := passLoop_done hnodup hpass
        rw [List.nil_append] at hlist
        refine ⟨processMap, toSpawn, rfl, hlist ▸ hnodup.filter _, fun p => ?_, fun p hp => ?_,
          fun p entry he => ?_⟩
        · rw [hlist, List.mem_filter, and_iff_right_iff_imp]
          intro hopens
          unfold opensSession at hopens
          rw [hmem, Finmap.mem_iff]
          cases hp : c.shared.processMap.lookup p with
          | none => simp [hp] at hopens
          | some entry => exact ⟨entry, rfl⟩
        · rw [hout p fun hin => Finmap.lookup_eq_none.mp hp ((hmem p).mp hin), hp]
        · exact hentries p ((hmem p).mpr (Finmap.mem_of_lookup_eq_some he)) entry he
      · cases hstep
        exact absurd rfl hnopanic
    · cases hstep

/-- What the scanner takes into its second critical section is the answer of what it has seen. -/
theorem Scan.answer (h : Scan c₀ look c c') :
    ∃ names m second, c.scanner = .pass m ∧ tracker.step c (.scan second) = some c' ∧
      areProcessesRunning look.platform names (some (look.aliasMap names)) look.system =
        some m := by
  cases h with
  | @mk c₁ c₂ c₃ c₄ c₅ _ _ _ _ _ first aliases system _ start copy others₁ query others₂ find
      found others₃ pass =>
    have hcopied := scanner_copied start copy
    rw [← scanner_of_others others₁] at hcopied
    rcases hcopied with hpanicked | hcopied
    -- a scanner that has died takes no further step
    · obtain ⟨sc, s, hstep, rfl⟩ := step_scan query
      rw [hpanicked] at hstep
      cases hstep
    · have hqueried := scanner_queried hcopied query
      rw [← scanner_of_others others₂] at hqueried
      obtain ⟨m, hm, hpass⟩ := scanner_found hqueried found find
      rw [← scanner_of_others others₃] at hpass
      exact ⟨_, m, _, hpass, pass, hm⟩

end

/-- **A scan follows what it has seen.** Whatever the other threads do in between: every name that
is tracked when the scan goes through the map is marked by whether it runs, exactly those that run
and had no session get one, each once, and nothing else changes. -/
theorem scanFollowsLook {c₀ c c' : Config} {look : Look} (h : Scan c₀ look c c')
    (hnopanic : c'.scanner ≠ .panicked) :
    ∃ processMap toSpawn, c' = { c with
        scanner := .spawn toSpawn, shared := { c.shared with processMap } } ∧
      (∀ p, processMap.lookup p = (c.shared.processMap.lookup p).map (passEntry (look.runs p))) ∧
      toSpawn.Nodup ∧
      ∀ p, p ∈ toSpawn ↔
        look.runs p = true ∧ ∃ running, c.shared.processMap.lookup p = some (running, false) := by
  obtain ⟨names, m, second, hsc, hpass, hm⟩ := h.answer
  obtain ⟨processMap, toSpawn, hc', hnodup, hopens, hnone, hsome⟩ :=
    scanner_passed hsc hnopanic hpass
  -- a name in the map was asked about, or the section would have panicked at it
  have hanswer : ∀ p entry, c.shared.processMap.lookup p = some entry →
      m.lookup p = some (look.runs p) := by
    intro p entry he
    obtain ⟨running, hrunning, -⟩ := hsome p entry he
    exact lookup_answer ((mem_areProcessesRunning hm p).mp (Finmap.mem_of_lookup_eq_some hrunning))
      hm
  refine ⟨processMap, toSpawn, hc', fun p => ?_, hnodup, fun p => ?_⟩
  · cases he : c.shared.processMap.lookup p with
    | none => exact hnone p he
    | some entry =>
      obtain ⟨running, hrunning, hnew⟩ := hsome p entry he
      rw [hanswer p entry he, Option.some.injEq] at hrunning
      rw [hnew, hrunning, Option.map_some]
  · rw [hopens, opensSession]
    cases he : c.shared.processMap.lookup p with
    | none => simp
    | some entry =>
      obtain ⟨running, snd⟩ := entry
      rw [hanswer p _ he]
      simp

/-! ## Running a scan -/

/-- A scan with these steps of the other threads before each of its last three. -/
def scanAmong (c₀ : Config) (first : Input) (ls₁ : List Label) (aliases : Input)
    (ls₂ : List Label) (system : Input) (ls₃ : List Label) (second : Input) :
    Option (Look × Config × Config) := do
  let c₁ ← tracker.step c₀ (.scan first)
  let c₂ ← tracker.execWhere others c₁ ls₁
  let c₃ ← tracker.step c₂ (.scan aliases)
  let c₄ ← tracker.execWhere others c₃ ls₂
  let c₅ ← tracker.step c₄ (.scan system)
  let c ← tracker.execWhere others c₅ ls₃
  let c' ← tracker.step c (.scan second)
  if c₀.scanner = .snapshot ∧ c₅.scanner ≠ .snapshot then
    return (⟨c₄.shared.platform, if aliases.err = none then some c₂.shared.db else none,
      system.system⟩, c, c')
  else none

theorem of_scanAmong {c₀ c c' : Config} {first aliases system second : Input}
    {ls₁ ls₂ ls₃ : List Label} {look : Look}
    (h : scanAmong c₀ first ls₁ aliases ls₂ system ls₃ second = some (look, c, c')) :
    Scan c₀ look c c' := by
  obtain ⟨c₁, hcopy, h⟩ := Option.bind_eq_some_iff.mp h
  obtain ⟨c₂, hothers₁, h⟩ := Option.bind_eq_some_iff.mp h
  obtain ⟨c₃, hquery, h⟩ := Option.bind_eq_some_iff.mp h
  obtain ⟨c₄, hothers₂, h⟩ := Option.bind_eq_some_iff.mp h
  obtain ⟨c₅, hfind, h⟩ := Option.bind_eq_some_iff.mp h
  obtain ⟨d, hothers₃, h⟩ := Option.bind_eq_some_iff.mp h
  obtain ⟨d', hpass, h⟩ := Option.bind_eq_some_iff.mp h
  split at h
  · next hscanner =>
    cases h
    exact .mk hscanner.1 hcopy (System.runs_of_execWhere hothers₁) hquery
      (System.runs_of_execWhere hothers₂) hfind hscanner.2 (System.runs_of_execWhere hothers₃) hpass
  · cases h

/-- The app `a` with the alias `w`, and the app `b`. -/
def storeWithAlias : Store :=
  { storeWithAB with processAliases := ⟨[⟨1, "w", 1⟩], by decide⟩ }

/-- A scan on a system where `w` runs and `b` has died, with `b` deleted in the meantime. -/
def scanOfAlias : Option (Look × Config × Config) :=
  scanAmong (.initial .linux storeWithAlias [.deleteProcess (.deleteData "b")])
    { order := ["a", "b"] } [.call 0 {}] {} [] { system := [⟨"w", false⟩, ⟨"b", true⟩] }
    [.call 0 {}] { order := ["a"] }

/-- The scan sees `a` run, under its alias, and starts a session for it. -/
theorem scanFollowsLook_alias :
    ∃ look c c', scanOfAlias = some (look, c, c') ∧ c'.scanner = .spawn ["a"] ∧
      look.runs "a" = true ∧ look.runs "b" = false ∧
      ∃ processMap toSpawn, c' = { c with
          scanner := .spawn toSpawn, shared := { c.shared with processMap } } ∧
        (∀ p, processMap.lookup p =
          (c.shared.processMap.lookup p).map (passEntry (look.runs p))) ∧
        toSpawn.Nodup ∧
        ∀ p, p ∈ toSpawn ↔
          look.runs p = true ∧ ∃ running, c.shared.processMap.lookup p = some (running, false) := by
  have hend : scanOfAlias.map (fun (look, _, c') => decide (c'.scanner = .spawn ["a"] ∧
      look.runs "a" = true ∧ look.runs "b" = false)) = some true := by decide
  obtain ⟨⟨look, c, c'⟩, hscan, hc⟩ := Option.map_eq_some_iff.mp hend
  obtain ⟨hspawn, ha, hb⟩ := of_decide_eq_true hc
  refine ⟨look, c, c', hscan, hspawn, ha, hb, ?_⟩
  apply scanFollowsLook (of_scanAmong hscan)
  rw [hspawn]
  exact Scanner.noConfusion

end TimeTracker
