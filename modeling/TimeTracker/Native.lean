import TimeTracker.Store
import Mathlib.Data.Finmap

/-!
# The running processes

`native.rs` and the two implementations behind it: `ux_are_processes_running`
(`linux.rs`, over the process table of `sysinfo`) and `nt_are_processes_running`
(`windows.rs`, over a toolhelp snapshot). Both take the tracked names and the aliases of
each name, and return a map from every tracked name to whether it runs.
-/

namespace TimeTracker

/-- One process of the system: its name and whether its status is `Zombie`. -/
structure SysProcess where
  name : String
  zombie : Bool
deriving DecidableEq

inductive Platform where
  | linux
  | windows
deriving DecidableEq

/-- `HashMap<String, Vec<String>>`: the aliases of each app name. -/
abbrev AliasMap := Finmap fun _ : String => List String

/-- `HashMap<&String, bool>`: whether each tracked name runs. -/
abbrev RunningMap := Finmap fun _ : String => Bool

/-- `map.insert(target, true)` for every tracked name the running process stands for. -/
def markRunning (isRunning : String → Bool) (processes : List String) (map : RunningMap) :
    RunningMap :=
  processes.foldl (fun map target => if isRunning target then map.insert target true else map) map

/-- `alias_list.contains(name)` for the alias list of a tracked name, if it has one. -/
def isAliasOf (aliases : AliasMap) (target name : String) : Bool :=
  match aliases.lookup target with
  | some aliasList => aliasList.contains name
  | none => false

/-- The alias loop of both platforms: skipped where no alias map is given. -/
def markAliases (processAliases : Option AliasMap) (isRunning : Bool) (name : String)
    (processes : List String) (map : RunningMap) : RunningMap :=
  match processAliases with
  | some aliases =>
    markRunning (fun target => isAliasOf aliases target name && isRunning) processes map
  | none => map

/-- `ux_are_processes_running`: every name starts out `false`, then each process of the
system that is not a zombie sets the names it stands for. -/
def uxAreProcessesRunning (processes : List String) (processAliases : Option AliasMap)
    (system : List SysProcess) : RunningMap :=
  system.foldl
    (fun map process =>
      let map := markRunning (fun target => target = process.name && !process.zombie) processes map
      markAliases processAliases (!process.zombie) process.name processes map)
    (processes.foldl (fun map p => map.insert p false) ∅)

/-- `nt_are_processes_running`: the names that run are set first, the missing ones are set
to `false` at the end. Without a first process the snapshot handle is invalid. -/
def ntAreProcessesRunning (processes : List String) (processAliases : Option AliasMap)
    (system : List SysProcess) : Option RunningMap :=
  match system with
  | [] => none
  | _ :: _ =>
    let running := system.foldl
      (fun map process =>
        let map := markRunning (fun target => process.name = target) processes map
        markAliases processAliases true process.name processes map) ∅
    some (processes.foldl (fun map p => if p ∈ map then map else map.insert p false) running)

/-- `are_processes_running` of `native.rs`; `none` is the `Err` of the Windows version. -/
def areProcessesRunning (platform : Platform) (processes : List String)
    (processAliases : Option AliasMap) (system : List SysProcess) : Option RunningMap :=
  match platform with
  | .linux => some (uxAreProcessesRunning processes processAliases system)
  | .windows => ntAreProcessesRunning processes processAliases system

/-- What the world outside the program supplies to one step of it: the error of the
database, where it refuses the statement; the clock; the order in which a `HashMap` is
iterated; the processes of the system; the id the database generates; the product name
stored in the executable (only Windows has one). -/
structure Input where
  err : Option DbErr := none
  now : NaiveDateTime := .unixEpoch
  order : List String := []
  system : List SysProcess := []
  newId : Int := 1
  verQueryValue : Option String := none

/-- The outcome of a statement: the error of the database, or what the statement does. -/
def Input.statement {α : Type} (inp : Input) (outcome : Except DbErr α) : Except DbErr α :=
  match inp.err with
  | some e => .error e
  | none => outcome

/-- A statement succeeds if the database lets it and it breaks no constraint. -/
theorem Input.statement_eq_ok {α : Type} {inp : Input} {outcome : Except DbErr α} {a : α} :
    inp.statement outcome = .ok a ↔ inp.err = none ∧ outcome = .ok a := by
  unfold Input.statement
  cases inp.err <;> simp

/-- A database that does not fail leaves it to the constraints. -/
theorem Input.statement_of_none {α : Type} {inp : Input} (h : inp.err = none)
    (outcome : Except DbErr α) : inp.statement outcome = outcome := by
  simp [Input.statement, h]

/-! ## The keys of the result

Whatever runs, the map has exactly the tracked names as its keys. -/

/-- The names that are marked are those that were asked about and run. -/
theorem mem_markRunning {isRunning : String → Bool} {processes : List String} {p : String} :
    ∀ {map : RunningMap}, p ∈ markRunning isRunning processes map ↔
      p ∈ map ∨ p ∈ processes ∧ isRunning p = true := by
  unfold markRunning
  induction processes with
  | nil => simp
  | cons target rest ih =>
    intro map
    rw [List.foldl_cons, ih]
    split
    · next h =>
      rw [Finmap.mem_insert, List.mem_cons]
      grind
    · next h =>
      rw [List.mem_cons]
      grind

/-- Aliases mark no name that was not asked about, -/
theorem mem_markAliases {processAliases : Option AliasMap} {isRunning : Bool} {name : String}
    {processes : List String} {map : RunningMap} {p : String}
    (h : p ∈ markAliases processAliases isRunning name processes map) :
    p ∈ map ∨ p ∈ processes := by
  unfold markAliases at h
  split at h
  · exact (mem_markRunning.mp h).imp_right And.left
  · exact .inl h

/-- and take no mark away. -/
theorem mem_of_mem_markAliases {processAliases : Option AliasMap} {isRunning : Bool}
    {name : String} {processes : List String} {map : RunningMap} {p : String} (h : p ∈ map) :
    p ∈ markAliases processAliases isRunning name processes map := by
  unfold markAliases
  split
  · exact mem_markRunning.mpr (.inl h)
  · exact h

/-- One pass over the system's processes only adds tracked names. -/
theorem mem_foldl_mark (isRunning : SysProcess → String → Bool) (live : SysProcess → Bool)
    {processAliases : Option AliasMap} {processes : List String} {p : String}
    {system : List SysProcess} :
    ∀ {map : RunningMap},
      p ∈ system.foldl (fun map process =>
        markAliases processAliases (live process) process.name processes
          (markRunning (isRunning process) processes map)) map →
      p ∈ map ∨ p ∈ processes := by
  induction system with
  | nil => exact fun h => .inl h
  | cons process rest ih =>
    intro map h
    rw [List.foldl_cons] at h
    rcases ih h with h | h
    · rcases mem_markAliases h with h | h
      · exact (mem_markRunning.mp h).imp_right And.left
      · exact .inr h
    · exact .inr h

/-- A mark stays for the rest of the process list. -/
theorem mem_foldl_mark_of_mem (isRunning : SysProcess → String → Bool)
    (live : SysProcess → Bool) {processAliases : Option AliasMap} {processes : List String}
    {p : String} {system : List SysProcess} :
    ∀ {map : RunningMap}, p ∈ map →
      p ∈ system.foldl (fun map process =>
        markAliases processAliases (live process) process.name processes
          (markRunning (isRunning process) processes map)) map := by
  induction system with
  | nil => exact fun h => h
  | cons process rest ih =>
    intro map h
    rw [List.foldl_cons]
    exact ih (mem_of_mem_markAliases (mem_markRunning.mpr (.inl h)))

/-- All names that are asked about get an entry, -/
theorem mem_foldl_insert_false {processes : List String} {p : String} :
    ∀ {map : RunningMap}, p ∈ processes.foldl (fun map p => map.insert p false) map ↔
      p ∈ map ∨ p ∈ processes := by
  induction processes with
  | nil => simp
  | cons q rest ih =>
    intro map
    rw [List.foldl_cons, ih, Finmap.mem_insert, List.mem_cons]
    tauto

/-- unless they have one already. -/
theorem mem_foldl_insert_missing {processes : List String} {p : String} :
    ∀ {map : RunningMap},
      p ∈ processes.foldl (fun map p => if p ∈ map then map else map.insert p false) map ↔
        p ∈ map ∨ p ∈ processes := by
  induction processes with
  | nil => simp
  | cons q rest ih =>
    intro map
    rw [List.foldl_cons, ih, List.mem_cons]
    split
    · next h => grind
    · rw [Finmap.mem_insert]
      tauto

/-- **The keys of the answer are the names asked about**, on both platforms. -/
theorem mem_areProcessesRunning {platform : Platform} {processes : List String}
    {processAliases : Option AliasMap} {system : List SysProcess} {map : RunningMap}
    (h : areProcessesRunning platform processes processAliases system = some map) (p : String) :
    p ∈ map ↔ p ∈ processes := by
  cases platform with
  | linux =>
    cases h
    constructor
    · intro hp
      rcases mem_foldl_mark (fun process target =>
          target = process.name && !process.zombie) (fun process => !process.zombie) hp
        with hp | hp
      · exact (mem_foldl_insert_false.mp hp).resolve_left Finmap.notMem_empty
      · exact hp
    · intro hp
      exact mem_foldl_mark_of_mem (fun process target =>
          target = process.name && !process.zombie) (fun process => !process.zombie)
        (mem_foldl_insert_false.mpr (.inr hp))
  | windows =>
    cases system with
    | nil => cases h
    | cons first rest =>
      cases h
      rw [mem_foldl_insert_missing]
      constructor
      · rintro (hp | hp)
        · rcases mem_foldl_mark (fun process target => process.name = target)
            (fun _ => true) hp with hp | hp
          · exact absurd hp Finmap.notMem_empty
          · exact hp
        · exact hp
      · exact .inr

end TimeTracker
