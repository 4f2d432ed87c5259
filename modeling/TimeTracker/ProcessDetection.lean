import TimeTracker.Lib.Filling
import TimeTracker.Native

/-!
# What process detection answers

Both platforms fill the map of running names with inserts in nested loops: over the processes
of the system, the tracked names and the aliases of each name. What each insert does to the
entry of one name gives what the loops do to it (`Filling.lookup_foldl_const`): once set it stays
set.

* **`lookup_uxAreProcessesRunning`**: a tracked name is answered `true` exactly where a process
  that is not a zombie stands for it, and `false` otherwise.
* **`ntAreProcessesRunning_eq`**: with no zombies the two platforms answer the same.
* **`areProcessesRunning_detects`**: the answer depends on the members of the three collections
  only.
-/

namespace TimeTracker

/-- `name` is in the alias list of the tracked name `p`. -/
def InAliasList (processAliases : Option AliasMap) (p name : String) : Prop :=
  ∃ aliases aliasList,
    processAliases = some aliases ∧ aliases.lookup p = some aliasList ∧ name ∈ aliasList

theorem inAliasList_some {aliases : AliasMap} {p name : String} :
    InAliasList (some aliases) p name ↔
      ∃ aliasList, aliases.lookup p = some aliasList ∧ name ∈ aliasList := by
  simp [InAliasList]

/-- A process of the system stands for the tracked name `p`: it is alive and has this name, or
a name that is an alias of it. -/
def SysProcess.StandsFor (processAliases : Option AliasMap) (process : SysProcess)
    (p : String) : Prop :=
  process.zombie = false ∧ (process.name = p ∨ InAliasList processAliases p process.name)

/-! ## One entry through the loops -/

theorem lookup_markRunning {isRunning : String → Bool} {processes : List String} {p : String}
    (h : p ∈ processes) (map : RunningMap) :
    (markRunning isRunning processes map).lookup p =
      if isRunning p then some true else map.lookup p := by
  have hround : ∀ (map : RunningMap) (target : String),
      (if isRunning target then map.insert target true else map).lookup p =
        if decide (target = p) && isRunning p then some true else map.lookup p := by
    intro map target
    by_cases htarget : target = p
    · subst htarget
      cases isRunning target with
      | true => simp
      | false => simp
    · rw [decide_eq_false htarget, Bool.false_and, if_neg Bool.false_ne_true]
      split
      · exact Finmap.lookup_insert_of_ne _ (Ne.symm htarget)
      · rfl
  unfold markRunning
  rw [Filling.lookup_foldl_const hround]
  have hany : (processes.any fun target => decide (target = p) && isRunning p) = isRunning p := by
    rw [Bool.eq_iff_iff, List.any_eq_true]
    constructor
    · intro hmem
      obtain ⟨target, -, hrun⟩ := hmem
      exact (Bool.and_eq_true_iff.mp hrun).2
    · intro hrun
      exact ⟨p, h, by simp [hrun]⟩
  rw [hany]

/-- Whether the alias loop sets the entry of `p` for a process called `name`. -/
def setsAlias (processAliases : Option AliasMap) (p name : String) : Bool :=
  match processAliases with
  | some aliases => isAliasOf aliases p name
  | none => false

theorem setsAlias_eq_true {processAliases : Option AliasMap} {p name : String} :
    setsAlias processAliases p name = true ↔ InAliasList processAliases p name := by
  unfold setsAlias InAliasList
  cases processAliases with
  | none => simp
  | some aliases =>
    unfold isAliasOf
    cases h : aliases.lookup p with
    | none => simp [h]
    | some aliasList => simp [h]

theorem lookup_markAliases {processAliases : Option AliasMap} {live : Bool} {name : String}
    {processes : List String} {p : String} (h : p ∈ processes) (map : RunningMap) :
    (markAliases processAliases live name processes map).lookup p =
      if setsAlias processAliases p name && live then some true else map.lookup p := by
  unfold markAliases setsAlias
  cases processAliases with
  | none => rw [Bool.false_and, if_neg Bool.false_ne_true]
  | some aliases => exact lookup_markRunning h map

/-! ## The two platforms -/

section Platforms

variable {processes : List String} {processAliases : Option AliasMap} {system : List SysProcess}
  {p : String}

/-- What the process loop does to the entry of `p`, where `byName` is the name test of the
platform and `live` its test for zombies. -/
theorem lookup_foldl_mark (byName : SysProcess → String → Bool) (live : SysProcess → Bool)
    (h : p ∈ processes) (map : RunningMap) :
    (system.foldl (fun map process =>
      markAliases processAliases (live process) process.name processes
        (markRunning (byName process) processes map)) map).lookup p =
      if system.any fun process =>
        byName process p || setsAlias processAliases p process.name && live process
      then some true else map.lookup p := by
  apply Filling.lookup_foldl_const
  intro map process
  rw [lookup_markAliases h, lookup_markRunning h]
  cases setsAlias processAliases p process.name && live process with
  | true => simp
  | false => simp

theorem lookup_foldl_insert_false (h : p ∈ processes) (map : RunningMap) :
    (processes.foldl (fun map p => map.insert p false) map).lookup p = some false := by
  have hround : ∀ (map : RunningMap) (q : String),
      (map.insert q false).lookup p = if decide (q = p) then some false else map.lookup p := by
    intro map q
    by_cases hq : q = p
    · rw [hq, Finmap.lookup_insert, if_pos (decide_eq_true rfl)]
    · rw [decide_eq_false hq, Finmap.lookup_insert_of_ne _ (Ne.symm hq),
        if_neg Bool.false_ne_true]
  rw [Filling.lookup_foldl_const hround, if_pos]
  exact List.any_eq_true.mpr ⟨p, h, decide_eq_true rfl⟩

/-- The last loop of the Windows version keeps the entries that are there. -/
theorem lookup_foldl_insert_missing (map : RunningMap) :
    (processes.foldl (fun map p => if p ∈ map then map else map.insert p false) map).lookup p =
      if p ∈ processes then some ((map.lookup p).getD false) else map.lookup p := by
  have hround : ∀ (map : RunningMap) (q : String),
      (if q ∈ map then map else map.insert q false).lookup p =
        if q = p then some ((map.lookup p).getD false) else map.lookup p := by
    intro map q
    by_cases hq : q = p
    · subst hq
      rw [if_pos rfl]
      split
      · next hmem =>
        obtain ⟨b, hb⟩ := Finmap.mem_iff.mp hmem
        rw [hb, Option.getD_some]
      · next hmem =>
        rw [Finmap.lookup_insert, Finmap.lookup_eq_none.mpr hmem, Option.getD_none]
    · rw [if_neg hq]
      split
      · rfl
      · exact Finmap.lookup_insert_of_ne _ (Ne.symm hq)
  induction processes generalizing map with
  | nil => simp
  | cons q rest ih =>
    rw [List.foldl_cons, ih, hround]
    by_cases hq : q = p
    · subst hq
      rw [if_pos rfl, if_pos List.mem_cons_self, Option.getD_some, ite_self]
    · simp only [hq, if_false, List.mem_cons, Ne.symm hq, false_or]

/-- **What a tracked name is answered.** -/
theorem lookup_uxAreProcessesRunning (h : p ∈ processes) :
    (uxAreProcessesRunning processes processAliases system).lookup p =
      some (system.any fun process =>
        decide (p = process.name) && !process.zombie ||
          setsAlias processAliases p process.name && !process.zombie) := by
  unfold uxAreProcessesRunning
  rw [lookup_foldl_mark (fun process target => target = process.name && !process.zombie)
    (fun process => !process.zombie) h, lookup_foldl_insert_false h]
  split
  · next hany => rw [hany]
  · next hany => rw [Bool.eq_false_iff.mpr hany]

/-- A tracked name is answered `true` exactly where a process stands for it. -/
theorem lookup_uxAreProcessesRunning_eq_true (h : p ∈ processes) :
    (uxAreProcessesRunning processes processAliases system).lookup p = some true ↔
      ∃ process ∈ system, process.StandsFor processAliases p := by
  rw [lookup_uxAreProcessesRunning h, Option.some.injEq, List.any_eq_true]
  apply exists_congr
  intro process
  rw [SysProcess.StandsFor, ← setsAlias_eq_true, eq_comm (a := process.name)]
  cases process.zombie with
  | true => simp
  | false => simp

/-- The keys of the Linux answer. -/
theorem mem_uxAreProcessesRunning :
    p ∈ uxAreProcessesRunning processes processAliases system ↔ p ∈ processes :=
  mem_areProcessesRunning
    (show areProcessesRunning .linux processes processAliases system = some _ from rfl) p

/-- Two answers about the same names, on the same platform or not, are one if they agree on
each of these names. -/
theorem eq_of_lookup_eq {processes' : List String} {map map' : RunningMap}
    (hmap : ∀ p, p ∈ map ↔ p ∈ processes) (hmap' : ∀ p, p ∈ map' ↔ p ∈ processes')
    (hkeys : ∀ p, p ∈ processes ↔ p ∈ processes')
    (h : ∀ p ∈ processes, map.lookup p = map'.lookup p) : map = map' := by
  apply Finmap.ext_lookup
  intro p
  by_cases hp : p ∈ processes
  · exact h p hp
  · rw [Finmap.lookup_eq_none.mpr (mt (hmap p).mp hp),
      Finmap.lookup_eq_none.mpr (mt (hmap' p).mp (mt (hkeys p).mpr hp))]

/-- **With no zombies the two platforms answer the same.** -/
theorem ntAreProcessesRunning_eq (hsystem : system ≠ [])
    (hlive : ∀ process ∈ system, process.zombie = false) :
    ntAreProcessesRunning processes processAliases system =
      some (uxAreProcessesRunning processes processAliases system) := by
  obtain ⟨map, hnt⟩ : ∃ map, ntAreProcessesRunning processes processAliases system = some map := by
    cases system with
    | nil => exact absurd rfl hsystem
    | cons first rest => exact ⟨_, rfl⟩
  have hkeys := mem_areProcessesRunning
    (show areProcessesRunning .windows processes processAliases system = some map from hnt)
  rw [hnt, Option.some.injEq]
  apply eq_of_lookup_eq hkeys (fun p => mem_uxAreProcessesRunning) (fun p => Iff.rfl)
  intro p hp
  -- the entry of `p` after the process loop, before the missing names are filled in
  rw [lookup_uxAreProcessesRunning hp]
  cases system with
  | nil => exact absurd rfl hsystem
  | cons first rest =>
    cases hnt
    rw [lookup_foldl_insert_missing, if_pos hp,
      lookup_foldl_mark (fun process target => process.name = target) (fun _ => true) hp,
      Finmap.lookup_empty]
    have hany : ((first :: rest).any fun process => decide (process.name = p) ||
          setsAlias processAliases p process.name && true) =
        (first :: rest).any fun process => decide (p = process.name) && !process.zombie ||
          setsAlias processAliases p process.name && !process.zombie := by
      rw [Bool.eq_iff_iff, List.any_eq_true, List.any_eq_true]
      apply exists_congr
      intro process
      apply and_congr_right
      intro hmem
      rw [hlive process hmem, Bool.not_false, Bool.and_true, Bool.and_true]
      simp only [eq_comm (a := p)]
    rw [hany]
    split
    · next h => rw [h, Option.getD_some]
    · next h => rw [Bool.eq_false_iff.mpr h, Option.getD_none]

/-- The Linux answer depends on which names, aliases and processes there are, not on their order
or on how often they are listed. -/
theorem uxAreProcessesRunning_congr {processes' : List String} {processAliases' : Option AliasMap}
    {system' : List SysProcess} (hprocesses : ∀ p, p ∈ processes ↔ p ∈ processes')
    (haliases : ∀ p name, InAliasList processAliases p name ↔ InAliasList processAliases' p name)
    (hsystem : ∀ process, process ∈ system ↔ process ∈ system') :
    uxAreProcessesRunning processes processAliases system =
      uxAreProcessesRunning processes' processAliases' system' := by
  apply eq_of_lookup_eq (fun p => mem_uxAreProcessesRunning)
    (fun p => mem_uxAreProcessesRunning) hprocesses
  intro p hp
  rw [lookup_uxAreProcessesRunning hp, lookup_uxAreProcessesRunning ((hprocesses p).mp hp),
    Option.some.injEq, Bool.eq_iff_iff, List.any_eq_true, List.any_eq_true]
  have hsets : ∀ name, setsAlias processAliases p name = setsAlias processAliases' p name := by
    intro name
    rw [Bool.eq_iff_iff, setsAlias_eq_true, setsAlias_eq_true]
    exact haliases p name
  simp only [hsystem, hsets]

/-- **What process detection answers**: the keys, the value of each key, that order and
multiplicity do not matter, and the agreement of the two platforms. -/
theorem areProcessesRunning_detects (processes : List String) (processAliases : Option AliasMap)
    (system : List SysProcess) (hsystem : system ≠ []) :
    (∀ p, p ∈ uxAreProcessesRunning processes processAliases system ↔ p ∈ processes) ∧
      (∀ p ∈ processes,
        (uxAreProcessesRunning processes processAliases system).lookup p = some true ↔
          ∃ process ∈ system, process.zombie = false ∧
            (process.name = p ∨ InAliasList processAliases p process.name)) ∧
      (∀ processes' processAliases' system', (∀ p, p ∈ processes ↔ p ∈ processes') →
        (∀ p name, InAliasList processAliases p name ↔ InAliasList processAliases' p name) →
        (∀ process, process ∈ system ↔ process ∈ system') →
        uxAreProcessesRunning processes' processAliases' system' =
          uxAreProcessesRunning processes processAliases system) ∧
      ((∀ process ∈ system, process.zombie = false) →
        ntAreProcessesRunning processes processAliases system =
          some (uxAreProcessesRunning processes processAliases system)) := by
  refine ⟨fun p => mem_uxAreProcessesRunning, ?_, ?_, ?_⟩
  · intro p hp
    exact lookup_uxAreProcessesRunning_eq_true hp
  · intro processes' processAliases' system' hprocesses haliases hsystem'
    exact (uxAreProcessesRunning_congr hprocesses haliases hsystem').symm
  · intro hlive
    exact ntAreProcessesRunning_eq hsystem hlive

end Platforms

/-- A zombie `a` and a live `w`, where `w` is an alias of `b`: `a` does not run, `b` does. -/
theorem areProcessesRunning_detects_alias :
    (uxAreProcessesRunning ["a", "b"] (some (Finmap.singleton "b" ["w"]))
      [⟨"a", true⟩, ⟨"w", false⟩]).lookup "b" = some true ∧
      ntAreProcessesRunning ["a", "b"] (some (Finmap.singleton "b" ["w"])) [⟨"w", false⟩] =
        some (uxAreProcessesRunning ["a", "b"] (some (Finmap.singleton "b" ["w"]))
          [⟨"w", false⟩]) := by
  have halias : InAliasList (some (Finmap.singleton "b" ["w"])) "b" "w" :=
    ⟨_, ["w"], rfl, Finmap.lookup_singleton_eq, List.mem_singleton.mpr rfl⟩
  constructor
  · exact ((areProcessesRunning_detects ["a", "b"] (some (Finmap.singleton "b" ["w"]))
      [⟨"a", true⟩, ⟨"w", false⟩] (List.cons_ne_nil _ _)).2.1 "b" (by decide)).mpr
      ⟨⟨"w", false⟩, by decide, rfl, .inr halias⟩
  · exact (areProcessesRunning_detects ["a", "b"] (some (Finmap.singleton "b" ["w"]))
      [⟨"w", false⟩] (List.cons_ne_nil _ _)).2.2.2 (by decide)

end TimeTracker
