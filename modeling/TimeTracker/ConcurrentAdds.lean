import TimeTracker.ProcessNames

/-!
# Adds at the same time

`add_process` checks that the name is new, reads the largest id and inserts the row, each in
a statement of its own and with no transaction around the three. The table has one
constraint, the primary key on the id. So two adds of one name may both pass the check, and
two adds of different names may both ask for the same id.

* `appNames_nodup`: names stay distinct in every run in which no row is inserted while
  another add of its name is past its check, unless that add is about to ask for the same id;
* `two_rows_of_one_name`: without that condition, two adds of `b` leave two rows `b`;
* `adds_lose_none_iff`: adds of distinct new names all succeed iff no row is inserted while
  another add holds an id it has read and not used;
* `add_lost`: without that condition, the second of two adds fails on the primary key.
-/

namespace TimeTracker

/-! ## Names stay distinct -/

/-- A call that has checked that `p` is new and is not bound to ask for the id `id`: after a
row `p` with that id is inserted, nothing keeps it from inserting another one. -/
def Call.racesWith (p : String) (id : Int) : Call → Bool
  | .addProcess (.maxId q _) => q = p
  | .addProcess (.insert q _ id') => q = p && id' ≠ id
  | _ => false

/-- A row is inserted only while every other add of its name past its check is about to ask
for the same id, and so to be refused. -/
def insertsUnraced (c : Config) : Label → Prop
  | .call k inp =>
    match c.calls[k]? with
    | some (.addProcess (.insert p _ id)) =>
      inp.err = none → id ∉ c.shared.db.apps.keys →
        ∀ other ∈ c.calls.eraseIdx k, other.racesWith p id = false
    | _ => True
  | _ => True

instance (c : Config) (l : Label) : Decidable (insertsUnraced c l) :=
  match l with
  | .call k _ => decidableInsert c.calls[k]? fun _ _ _ => inferInstance
  | .scan _ | .spawn | .work _ _ | .handle _ => isTrue trivial

/-- The names are distinct, and no add past its check can insert a name that is there. -/
structure NamesInvariant (c : Config) : Prop where
  nodup : c.shared.db.appNames.Nodup
  unraced : ∀ p id, (id, some p) ∈ c.shared.db.identities →
    ∀ call ∈ c.calls, call.racesWith p id = false

/-- A call that leaves the table alone comes past its check of `p` only while there is no row
`p`. -/
theorem Call.racesWith_of_step {inp : Input} {s s' : Shared} {call call' : Call} {p : String}
    {id : Int} (h : call.step inp s = some (call', s')) (hrow : (id, some p) ∈ s.db.identities)
    (hraces : call'.racesWith p id = true) : call.racesWith p id = true := by
  rcases Call.step_machine h with ⟨a, a', rfl, rfl, hstep⟩ | ⟨d, d', rfl, rfl, hstep⟩ |
    ⟨_, _, rfl, rfl, -⟩ | ⟨_, _, _, rfl, rfl, -, -⟩ | ⟨_, _, _, rfl, rfl, -, -⟩ |
    ⟨_, _, _, rfl, rfl, -, -⟩
  · rcases AddProcess.step_cases hstep with ⟨e, -, -, -, rfl⟩ |
      ⟨q, path, rfl, -, -, ⟨-, rfl⟩ | ⟨hnew, rfl⟩⟩ | ⟨q, pn, rfl, -, -, rfl⟩ |
      ⟨q, pn, id', rfl, -, ⟨-, -, rfl⟩ | ⟨apps, -, -, rfl⟩⟩ |
      ⟨q, rfl, ⟨-, -, rfl⟩ | ⟨-, -, rfl⟩⟩
    · cases hraces
    · cases hraces
    · -- the check has just found no row `p`
      have hqp : q = p := of_decide_eq_true hraces
      obtain ⟨a, ha, -, hname⟩ := Store.mem_identities.mp hrow
      exact absurd (hqp ▸ Store.mem_appNames.mpr ⟨a, ha, hname⟩) hnew
    · have hqp := (Bool.and_eq_true _ _ ▸ hraces).1
      exact hqp
    · cases hraces
    · cases hraces
    · cases hraces
    · cases hraces
  · rcases DeleteProcess.step_cases hstep with ⟨q, rfl, ⟨e, -, -, rfl⟩ | ⟨-, -, rfl⟩⟩ |
      ⟨q, rfl, ⟨-, -, rfl⟩ | ⟨-, -, rfl⟩⟩ <;> cases hraces
  · cases hraces
  · cases hraces
  · cases hraces
  · cases hraces

/-- Inserting the row of an add keeps the names distinct: its name cannot be there, or the
add would be asking for the id of the row that has it. -/
theorem namesInvariant_insert {c : Config} {k : Nat} {p productName : String} {id : Int}
    {apps : Table Apps.Model} {call' : Call} (hinv : NamesInvariant c)
    (hk : c.calls[k]? = some (.addProcess (.insert p productName id)))
    (hins : c.shared.db.apps.insert (AddProcess.newApp p productName id) = some apps)
    (hok : ∀ other ∈ c.calls.eraseIdx k, other.racesWith p id = false)
    (hcall' : ∀ q i, call'.racesWith q i = false) :
    NamesInvariant { c with
      shared := { c.shared with db := { c.shared.db with apps } }
      calls := c.calls.set k call' } := by
  have hidentities := Store.identities_insertApp hins
  have hid : id ∉ c.shared.db.apps.keys := (Table.insert_eq_some.mp hins).1
  refine ⟨?_, fun q i hrow call hcall => ?_⟩
  · have hnew : p ∉ c.shared.db.appNames := by
      intro hp
      obtain ⟨a, ha, hname⟩ := Store.mem_appNames.mp hp
      have hrow := Store.mem_identities.mpr ⟨a, ha, rfl, hname⟩
      have hbound := hinv.unraced p a.id hrow _ (List.mem_of_getElem? hk)
      have hsame : id = a.id := by simpa [Call.racesWith] using hbound
      exact hid (hsame ▸ Table.key_mem_keys ha)
    rw [Store.appNames_eq, hidentities, List.filterMap_append, ← Store.appNames_eq]
    refine List.nodup_append.mpr ⟨hinv.nodup, by simp [AddProcess.newApp], ?_⟩
    rintro q hq q' hq' rfl
    simp only [AddProcess.newApp, List.filterMap_cons, List.filterMap_nil,
      List.mem_singleton] at hq'
    exact hnew (hq' ▸ hq)
  · rw [hidentities, List.mem_append, List.mem_singleton] at hrow
    revert call
    refine Pool.forall_set (P := fun call => call ∈ c.calls) (hcall' q i) (fun _ h => h) ?_
    intro j other hjk hj hother
    rcases hrow with hrow | hrow
    · exact hinv.unraced q i hrow other hother
    · cases hrow
      exact hok other (List.mem_eraseIdx_iff_getElem?.mpr ⟨j, hjk, hj⟩)

theorem namesInvariant_call {c c' : Config} {k : Nat} {inp : Input} (hinv : NamesInvariant c)
    (hok : insertsUnraced c (.call k inp)) (h : tracker.step c (.call k inp) = some c') :
    NamesInvariant c' := by
  obtain ⟨call, call', s, hk, hstep, rfl⟩ := step_call h
  have hcall := List.mem_of_getElem? hk
  rcases Call.step_apps hstep with happs | ⟨p, pn, id, apps, rfl, rfl, herr, hins, rfl⟩ |
    ⟨p, rfl, rfl, rfl⟩
  · have hidentities : s.db.identities = c.shared.db.identities := by
      rw [Store.identities, happs, Store.identities]
    refine ⟨?_, fun q i hrow => ?_⟩
    · rw [Store.appNames_eq, hidentities, ← Store.appNames_eq]
      exact hinv.nodup
    · rw [hidentities] at hrow
      have hunraced := hinv.unraced q i hrow
      refine Pool.forall_set ?_ hunraced fun _ _ _ _ h => h
      by_contra hraces
      rw [Bool.not_eq_false] at hraces
      have := Call.racesWith_of_step hstep hrow hraces
      rw [hunraced call hcall] at this
      cases this
  · simp only [insertsUnraced, hk] at hok
    exact namesInvariant_insert hinv hk hins
      (hok herr (Table.insert_eq_some.mp hins).1) fun _ _ => rfl
  · refine ⟨hinv.nodup.sublist (Store.appNames_deleteApps_sublist _ p), fun q i hrow => ?_⟩
    have hunraced := hinv.unraced q i (Store.mem_identities_deleteApps.mp hrow).1
    exact Pool.forall_set rfl hunraced fun _ _ _ _ h => h

theorem namesInvariant_step (c : Config) (l : Label) (c' : Config) (hinv : NamesInvariant c)
    (hok : insertsUnraced c l) (h : tracker.step c l = some c') : NamesInvariant c' := by
  cases hl : l.isCall with
  | false =>
    have hcalls := (step_db_of_not_call hl h).1
    have hidentities := identities_of_not_call hl h
    refine ⟨?_, ?_⟩
    · rw [Store.appNames_eq, hidentities, ← Store.appNames_eq]
      exact hinv.nodup
    · rw [hidentities, hcalls]
      exact hinv.unraced
  | true =>
    cases l with
    | call k inp => exact namesInvariant_call hinv hok h
    | _ => cases hl

theorem Call.not_racesWith_of_fresh {call : Call} (h : call.fresh = true) (p : String) (id : Int) :
    call.racesWith p id = false := by
  rcases call with a | _ | _ | _ | _ | _
  · cases a <;> first | rfl | cases h
  all_goals rfl

/-- **Names stay distinct**, in every state of every run in which no row is inserted while
another add of its name is past its check and would ask for another id. -/
theorem appNames_nodup {c₀ c : Config} {ls : List Label}
    (hnodup : c₀.shared.db.appNames.Nodup) (hfresh : ∀ call ∈ c₀.calls, call.fresh = true)
    (hrun : tracker.Runs insertsUnraced c₀ ls c) : c.shared.db.appNames.Nodup := by
  have hstart : NamesInvariant c₀ :=
    ⟨hnodup, fun p id _ call hcall => Call.not_racesWith_of_fresh (hfresh call hcall) p id⟩
  exact (hrun.invariant namesInvariant_step hstart).nodup

/-- Two clients that add `p` and `q` to a table with the one app `a`. -/
def twoAdds (p q : String) : Config :=
  .initial .linux storeWithA
    [.addProcess (.getProcesses p (p ++ ".exe")), .addProcess (.getProcesses q (q ++ ".exe"))]

/-- Both adds pass the check, then one inserts its row before the other reads the largest
id. -/
def checkCheckInsertInsert : List Label :=
  [.call 0 {}, .call 1 {}, .call 0 {}, .call 0 {}, .call 1 {}, .call 1 {}]

/-- Both adds pass the check and read the largest id, then both ask for that id. -/
def bothReadThenInsert : List Label :=
  [.call 0 {}, .call 1 {}, .call 0 {}, .call 1 {}, .call 0 {}, .call 1 {}, .call 0 {}]

/-- **Two rows of one name**: both adds passed the check, and the second one reads the
largest id after the first has inserted its row. -/
theorem two_rows_of_one_name :
    ¬ ∀ (c₀ c : Config) (ls : List Label), c₀.shared.db.appNames.Nodup →
      (∀ call ∈ c₀.calls, call.fresh = true) →
      tracker.Runs (fun _ l => l.isCall = true) c₀ ls c → c.shared.db.appNames.Nodup := by
  intro hall
  have hend : (tracker.execWhere (fun _ l => l.isCall = true) (twoAdds "b" "b")
      checkCheckInsertInsert).map (fun c => c.shared.db.appNames) = some ["a", "b", "b"] := by
    decide
  obtain ⟨c, hexec, hnames⟩ := Option.map_eq_some_iff.mp hend
  have hnodup := hall (twoAdds "b" "b") c _ (by decide) (by decide)
    (Transition.System.runs_of_execWhere hexec)
  rw [hnames] at hnodup
  exact absurd hnodup (by decide)

/-- Two racing adds of one name that ask for one id: the primary key refuses the second. -/
theorem appNames_nodup_bothReadThenInsert :
    ∃ c, tracker.execWhere insertsUnraced (twoAdds "b" "b") bothReadThenInsert = some c ∧
      c.shared.db.appNames = ["a", "b"] ∧ c.shared.db.appNames.Nodup := by
  have hend : (tracker.execWhere insertsUnraced (twoAdds "b" "b") bothReadThenInsert).map
      (fun c => c.shared.db.appNames) = some ["a", "b"] := by decide
  obtain ⟨c, hexec, hnames⟩ := Option.map_eq_some_iff.mp hend
  exact ⟨c, hexec, hnames, appNames_nodup (by decide) (by decide)
    (Transition.System.runs_of_execWhere hexec)⟩

/-! ## Adds of different names -/

/-- A call that has read the largest id and not yet inserted its row. -/
def Call.holdsId : Call → Bool
  | .addProcess (.insert _ _ _) => true
  | _ => false

/-- A row is inserted only while no other add is between its read of the largest id and its
insert. -/
def insertsAlone (c : Config) : Label → Prop
  | .call k _ =>
    match c.calls[k]? with
    | some (.addProcess (.insert _ _ _)) => ∀ other ∈ c.calls.eraseIdx k, other.holdsId = false
    | _ => True
  | _ => True

instance (c : Config) (l : Label) : Decidable (insertsAlone c l) :=
  match l with
  | .call k _ => decidableInsert c.calls[k]? fun _ _ _ => inferInstance
  | .scan _ | .spawn | .work _ _ | .handle _ => isTrue trivial

/-- A step of a call, and the database does not refuse its statement. -/
def callSucceeds : Config → Label → Prop
  | _, .call _ inp => inp.err = none
  | _, _ => False

instance (c : Config) (l : Label) : Decidable (callSucceeds c l) :=
  match l with
  | .call _ inp => inferInstanceAs (Decidable (inp.err = none))
  | .scan _ | .spawn | .work _ _ | .handle _ => isFalse id

/-- An add that has failed, or is bound to: the id it holds is taken. -/
def AddProcess.doomed (db : Store) : AddProcess → Prop
  | .insert _ _ id => id ∈ db.apps.keys
  | .returned (.error _) => True
  | _ => False

/-- What an add of `p` has done so far, in terms of the table and the map. An id it holds is
still the next one, or has been taken by another add since. -/
def AddProcess.consistent (p : String) (s : Shared) : AddProcess → Prop
  | .getProcesses q _ => q = p ∧ p ∉ s.db.appNames
  | .maxId q _ => q = p ∧ p ∉ s.db.appNames
  | .insert q _ id => q = p ∧ p ∉ s.db.appNames ∧
      (id = Store.nextId s.db.apps.maxKey ∨ id ∈ s.db.apps.keys)
  | .insertMap q => q = p ∧ p ∈ s.db.appNames
  | .returned (.ok _) => p ∈ s.db.appNames ∧ p ∈ s.processMap
  | .returned (.error _) => True
  | .panicked => False

/-- Call `j` is the add of the `j`-th name. -/
structure AddsInvariant (names : List String) (c : Config) : Prop where
  lock : c.shared.mapLock = .free
  length : c.calls.length = names.length
  adds : ∀ (j : Nat) (call : Call), c.calls[j]? = some call →
    ∃ (p : String) (a : AddProcess), names[j]? = some p ∧ call = .addProcess a ∧
      a.consistent p c.shared

section
variable {inp : Input} {s s' : Shared} {a a' b : AddProcess} {p q : String}

/-- What a step of an add of `p` changes for everyone: nothing, a key of the map, or a row of
its own under the next id. -/
def addChanges (p : String) (s s' : Shared) : Prop :=
  s'.mapLock = s.mapLock ∧ (∀ r ∈ s.processMap, r ∈ s'.processMap) ∧
  (s'.db = s.db ∨
    (∀ r, r ∈ s'.db.appNames ↔ r ∈ s.db.appNames ∨ r = p) ∧
      s'.db.apps.keys = s.db.apps.keys ++ [Store.nextId s.db.apps.maxKey])

/-- One step of an add of `p`. It is doomed afterwards iff it was before: it takes a fresh id,
and while it holds one, only others can spoil it. -/
theorem AddProcess.step_consistent (hlock : s.mapLock = .free) (hp : a.consistent p s)
    (herr : inp.err = none) (h : a.step inp s = some (a', s')) :
    a'.consistent p s' ∧ (a'.doomed s'.db ↔ a.doomed s.db) ∧ addChanges p s s' ∧
      ((Call.addProcess a).holdsId = false → s'.db = s.db) ∧
      ((Call.addProcess a).holdsId = true → ¬ a.doomed s.db →
        s'.db.apps.keys = s.db.apps.keys ++ [Store.nextId s.db.apps.maxKey]) := by
  rcases AddProcess.step_cases h with ⟨e, he, -, -, -⟩ |
    ⟨q, path, rfl, -, rfl, ⟨hold, rfl⟩ | ⟨hnew, rfl⟩⟩ | ⟨q, pn, rfl, -, rfl, rfl⟩ |
    ⟨q, pn, id, rfl, -, ⟨hid, rfl, rfl⟩ | ⟨apps, hins, rfl, rfl⟩⟩ |
    ⟨q, rfl, ⟨hl, -, -⟩ | ⟨hl, rfl, rfl⟩⟩
  · rw [herr] at he
    cases he
  · exact absurd (hp.1 ▸ hold) hp.2
  · exact ⟨hp, .rfl, ⟨rfl, fun _ h => h, .inl rfl⟩, fun _ => rfl, fun h => by cases h⟩
  · refine ⟨⟨hp.1, hp.2, .inl rfl⟩, ⟨fun h => ?_, False.elim⟩, ⟨rfl, fun _ h => h, .inl rfl⟩,
      fun _ => rfl, fun h => by cases h⟩
    exact Store.nextId_notMem _ h
  · exact ⟨trivial, ⟨fun _ => hid, fun _ => trivial⟩, ⟨rfl, fun _ h => h, .inl rfl⟩, fun _ => rfl,
      fun _ hsound => absurd hid hsound⟩
  · obtain ⟨rfl, hnew, hid⟩ := hp
    have hfree : id ∉ s.db.apps.keys := (Table.insert_eq_some.mp hins).1
    -- the insert went through, so the id was still the next one
    obtain rfl := hid.resolve_right hfree
    have hnames := Store.mem_appNames_insertApp (Store.insertApp_eq_ok.mpr ⟨apps, hins, rfl⟩)
    have hkeys : apps.keys = s.db.apps.keys ++ [Store.nextId s.db.apps.maxKey] :=
      Table.keys_insert hins
    refine ⟨⟨rfl, (hnames q).mpr (.inr rfl)⟩, ⟨False.elim, fun h => hfree h⟩,
      ⟨rfl, fun _ h => h, .inr ⟨fun r => ?_, hkeys⟩⟩, fun h => (by cases h), fun _ _ => hkeys⟩
    rw [hnames, newApp, Option.some.injEq, eq_comm (a := q)]
  · rw [hlock] at hl
    cases hl
  · obtain ⟨rfl, hold⟩ := hp
    exact ⟨⟨hold, Finmap.mem_insert.mpr (.inl rfl)⟩, .rfl,
      ⟨rfl, fun r hr => Finmap.mem_insert.mpr (.inr hr), .inl rfl⟩, fun _ => rfl,
      fun h => by cases h⟩

/-- An add of another name stays consistent. -/
theorem AddProcess.consistent_of_other (hne : q ≠ p) (hb : b.consistent q s)
    (hchanges : addChanges p s s') : b.consistent q s' := by
  obtain ⟨-, hmap, hdb | ⟨hnames, hkeys⟩⟩ := hchanges
  · cases b with
    | returned r => cases r <;> simp_all [AddProcess.consistent]
    | _ => simp_all [AddProcess.consistent]
  · have hq : q ∈ s'.db.appNames ↔ q ∈ s.db.appNames := by
      rw [hnames, or_iff_left hne]
    cases b with
    | returned r =>
      cases r with
      | ok _ => exact ⟨hq.mpr hb.1, hmap q hb.2⟩
      | error _ => trivial
    | insert r pn id =>
      -- the id was the next one or taken; now it is taken in both cases
      obtain ⟨hr, hnew, hid⟩ := hb
      refine ⟨hr, fun h => hnew (hq.mp h), .inr ?_⟩
      rw [hkeys, List.mem_append, List.mem_singleton]
      exact hid.symm
    | getProcesses r path => exact ⟨hb.1, fun h => hb.2 (hq.mp h)⟩
    | maxId r pn => exact ⟨hb.1, fun h => hb.2 (hq.mp h)⟩
    | insertMap r => exact ⟨hb.1, hq.mpr hb.2⟩
    | panicked => exact hb

/-- An add that is doomed stays so whatever the other adds do. -/
theorem AddProcess.doomed_of_other (hb : b.doomed s.db) (hchanges : addChanges p s s') :
    b.doomed s'.db := by
  obtain ⟨-, -, hdb | ⟨-, hkeys⟩⟩ := hchanges
  · rw [hdb]
    exact hb
  · cases b with
    | insert r pn id =>
      change id ∈ s'.db.apps.keys
      rw [hkeys]
      exact List.mem_append_left _ hb
    | returned r => cases r <;> exact hb
    | _ => exact hb

/-- A row inserted under the next id dooms every other add that holds an id. -/
theorem AddProcess.doomed_of_holdsId (hb : b.consistent q s)
    (hholds : (Call.addProcess b).holdsId = true)
    (hkeys : s'.db.apps.keys = s.db.apps.keys ++ [Store.nextId s.db.apps.maxKey]) :
    b.doomed s'.db := by
  cases b with
  | insert r pn id =>
    obtain ⟨-, -, hid⟩ := hb
    change id ∈ s'.db.apps.keys
    rw [hkeys, List.mem_append, List.mem_singleton]
    exact hid.symm
  | _ => cases hholds

end

/-! ## Runs of adds -/

section
variable {names : List String} {c c' : Config} {l : Label}

/-- A step of the adds is a step of one of them. -/
theorem adds_step (hinv : AddsInvariant names c) (hok : callSucceeds c l)
    (h : tracker.step c l = some c') :
    ∃ (k : Nat) (inp : Input) (p : String) (a a' : AddProcess) (s : Shared),
      l = .call k inp ∧ inp.err = none ∧ names[k]? = some p ∧
      c.calls[k]? = some (.addProcess a) ∧ a.consistent p c.shared ∧
      a.step inp c.shared = some (a', s) ∧
      c' = { c with shared := s, calls := c.calls.set k (.addProcess a') } := by
  cases l with
  | call k inp =>
    obtain ⟨call, call', s, hk, hstep, rfl⟩ := step_call h
    obtain ⟨p, a, hp, rfl, hcons⟩ := hinv.adds k call hk
    obtain ⟨⟨a', s'⟩, hstep', heq⟩ := Option.map_eq_some_iff.mp hstep
    cases heq
    exact ⟨k, inp, p, a, a', s, rfl, hok, hp, hk, hcons, hstep', rfl⟩
  | _ => exact hok.elim

theorem addsInvariant_step (hnodup : names.Nodup) (hinv : AddsInvariant names c)
    (hok : callSucceeds c l) (h : tracker.step c l = some c') : AddsInvariant names c' := by
  obtain ⟨k, inp, p, a, a', s, rfl, herr, hp, hk, hcons, hstep, rfl⟩ := adds_step hinv hok h
  obtain ⟨hcons', -, hchanges, -, -⟩ := AddProcess.step_consistent hinv.lock hcons herr hstep
  refine ⟨hchanges.1.trans hinv.lock, by rw [List.length_set, hinv.length], fun j call hj => ?_⟩
  by_cases hkj : k = j
  · subst hkj
    rw [Pool.getElem?_set_self hk] at hj
    cases hj
    exact ⟨p, a', hp, rfl, hcons'⟩
  · rw [List.getElem?_set_ne hkj] at hj
    obtain ⟨q, b, hq, rfl, hb⟩ := hinv.adds j call hj
    -- one call for each name, so another call adds another name
    have hne : q ≠ p := by
      rintro rfl
      obtain ⟨hlt, -⟩ := List.getElem?_eq_some_iff.mp hp
      exact hkj ((List.getElem?_inj hlt hnodup).mp (hp.trans hq.symm))
    exact ⟨q, b, hq, rfl, AddProcess.consistent_of_other hne hb hchanges⟩

/-- Some add has failed or is bound to. -/
def someDoomed (c : Config) : Prop :=
  ∃ a, Call.addProcess a ∈ c.calls ∧ a.doomed c.shared.db

theorem someDoomed_step (hinv : AddsInvariant names c) (hdoomed : someDoomed c)
    (hok : callSucceeds c l) (h : tracker.step c l = some c') : someDoomed c' := by
  obtain ⟨k, inp, p, a, a', s, rfl, herr, hp, hk, hcons, hstep, rfl⟩ := adds_step hinv hok h
  obtain ⟨-, hiff, hchanges, -, -⟩ := AddProcess.step_consistent hinv.lock hcons herr hstep
  obtain ⟨b, hb, hbdoomed⟩ := hdoomed
  obtain ⟨j, hj⟩ := List.mem_iff_getElem?.mp hb
  by_cases hkj : k = j
  · subst hkj
    rw [hk] at hj
    cases hj
    exact ⟨a', List.mem_of_getElem? (Pool.getElem?_set_self hk), hiff.mpr hbdoomed⟩
  · refine ⟨b, List.mem_of_getElem? (i := j) ?_, AddProcess.doomed_of_other hbdoomed hchanges⟩
    rw [List.getElem?_set_ne hkj]
    exact hj

/-- An insert beside another add that holds an id: one of the two is doomed afterwards. -/
theorem someDoomed_of_not_insertsAlone (hinv : AddsInvariant names c) (hok : callSucceeds c l)
    (hbeside : ¬ insertsAlone c l) (h : tracker.step c l = some c') : someDoomed c' := by
  obtain ⟨k, inp, p, a, a', s, rfl, herr, hp, hk, hcons, hstep, rfl⟩ := adds_step hinv hok h
  obtain ⟨-, hiff, -, -, hkeys⟩ := AddProcess.step_consistent hinv.lock hcons herr hstep
  simp only [insertsAlone, hk] at hbeside
  split at hbeside
  · next q pn id heq =>
    cases heq
    -- the insert is refused, or it takes the id the other add holds
    by_cases hid : id ∈ c.shared.db.apps.keys
    · exact ⟨a', List.mem_of_getElem? (Pool.getElem?_set_self hk), hiff.mpr hid⟩
    · simp only [not_forall, Bool.not_eq_false] at hbeside
      obtain ⟨other, hother, hholds⟩ := hbeside
      obtain ⟨j, hjk, hj⟩ := List.mem_eraseIdx_iff_getElem?.mp hother
      obtain ⟨r, b, -, rfl, hb⟩ := hinv.adds j other hj
      refine ⟨b, List.mem_of_getElem? (i := j) ?_,
        AddProcess.doomed_of_holdsId hb hholds (hkeys rfl hid)⟩
      rw [List.getElem?_set_ne (Ne.symm hjk)]
      exact hj
  · exact absurd trivial hbeside

/-- While inserts are alone, no add is doomed: whoever takes an id is the only one holding
one. -/
theorem not_someDoomed_step (hinv : AddsInvariant names c) (hsound : ¬ someDoomed c)
    (hok : callSucceeds c l) (halone : insertsAlone c l) (h : tracker.step c l = some c') :
    ¬ someDoomed c' := by
  obtain ⟨k, inp, p, a, a', s, rfl, herr, hp, hk, hcons, hstep, rfl⟩ := adds_step hinv hok h
  obtain ⟨-, hiff, -, hdb, hkeys⟩ := AddProcess.step_consistent hinv.lock hcons herr hstep
  rintro ⟨b, hb, hbdoomed⟩
  obtain ⟨j, hj⟩ := List.mem_iff_getElem?.mp hb
  by_cases hkj : k = j
  · subst hkj
    rw [Pool.getElem?_set_self hk] at hj
    cases hj
    exact hsound ⟨a, List.mem_of_getElem? hk, hiff.mp hbdoomed⟩
  · rw [List.getElem?_set_ne hkj] at hj
    have hbold : ¬ b.doomed c.shared.db := fun h => hsound ⟨b, List.mem_of_getElem? hj, h⟩
    cases hholds : (Call.addProcess a).holdsId with
    | false =>
      rw [show s.db = c.shared.db from hdb hholds] at hbdoomed
      exact hbold hbdoomed
    | true =>
      -- `b` holds no id, so it could only be doomed by having failed already
      have hother : Call.holdsId (.addProcess b) = false := by
        cases a with
        | insert q pn id =>
          simp only [insertsAlone, hk] at halone
          exact halone _ (List.mem_eraseIdx_iff_getElem?.mpr ⟨j, Ne.symm hkj, hj⟩)
        | _ => cases hholds
      cases b with
      | insert _ _ _ => cases hother
      | returned r => cases r <;> exact hbold hbdoomed
      | _ => exact hbold hbdoomed

/-- **When adds of different names all succeed.** For adds of distinct new names that have
all returned, the database refusing nothing: every add returned `Ok` and every name is in
the table and in `PROCESS_MAP`, under distinct ids, iff no row was inserted while another
add was between its read of the largest id and its insert. -/
theorem adds_lose_none_iff (adds : List (String × String)) {c₀ c : Config} {ls : List Label}
    (hcalls : c₀.calls = adds.map fun (p, path) => .addProcess (.getProcesses p path))
    (hdistinct : (adds.map Prod.fst).Nodup)
    (hnew : ∀ p ∈ adds.map Prod.fst, p ∉ c₀.shared.db.appNames)
    (hlock : c₀.shared.mapLock = .free) (hrun : tracker.Runs callSucceeds c₀ ls c)
    (hreturned : ∀ call ∈ c.calls, call.result.isSome) :
    ((∀ call ∈ c.calls, call.result = some (.ok ())) ∧
      (∀ p ∈ adds.map Prod.fst, p ∈ c.shared.db.appNames ∧ p ∈ c.shared.processMap) ∧
      c.shared.db.apps.keys.Nodup) ↔
      tracker.Runs insertsAlone c₀ ls c := by
  have hstart : AddsInvariant (adds.map Prod.fst) c₀ := by
    refine ⟨hlock, by rw [hcalls, List.length_map, List.length_map], fun j call hj => ?_⟩
    rw [hcalls, List.getElem?_map, Option.map_eq_some_iff] at hj
    obtain ⟨⟨p, path⟩, hp, rfl⟩ := hj
    have hname : (adds.map Prod.fst)[j]? = some p := by rw [List.getElem?_map, hp]; rfl
    exact ⟨p, _, hname, rfl, rfl, hnew p (List.mem_of_getElem? hname)⟩
  have hsound₀ : ¬ someDoomed c₀ := by
    rintro ⟨a, ha, hdoomed⟩
    rw [hcalls] at ha
    obtain ⟨_, -, heq⟩ := List.mem_map.mp ha
    cases heq
    exact hdoomed
  constructor
  · rintro ⟨hok, -, -⟩
    refine (hrun.strengthen_or (fun _ _ _ => addsInvariant_step hdistinct)
      (fun _ _ _ => someDoomed_step) (fun _ _ _ => someDoomed_of_not_insertsAlone)
      hstart).resolve_right ?_
    -- an insert out of turn dooms an add, and a doomed add does not return `Ok`
    rintro ⟨a, ha, hdoomed⟩
    have hresult := hok _ ha
    cases a with
    | returned r => cases r <;> first | exact hdoomed | cases hresult
    | _ => cases hresult
  · intro halone
    obtain ⟨hinv, hsound⟩ := (hrun.and halone).invariant
      (I := fun c => AddsInvariant (adds.map Prod.fst) c ∧ ¬ someDoomed c)
      (fun _ _ _ hinv hok hstep => ⟨addsInvariant_step hdistinct hinv.1 hok.1 hstep,
        not_someDoomed_step hinv.1 hinv.2 hok.1 hok.2 hstep⟩) ⟨hstart, hsound₀⟩
    have hok : ∀ a, Call.addProcess a ∈ c.calls → a = .returned (.ok ()) := by
      intro a ha
      have hresult := hreturned _ ha
      cases a with
      | returned r =>
        cases r with
        | ok _ => rfl
        | error e => exact absurd ⟨.returned (.error e), ha, trivial⟩ hsound
      | _ => cases hresult
    refine ⟨fun call hcall => ?_, fun p hp => ?_, c.shared.db.apps.pk⟩
    · obtain ⟨j, hj⟩ := List.mem_iff_getElem?.mp hcall
      obtain ⟨q, a, -, rfl, -⟩ := hinv.adds j call hj
      rw [hok a hcall]
      rfl
    · obtain ⟨j, hj⟩ := List.mem_iff_getElem?.mp hp
      obtain ⟨hlt, -⟩ := List.getElem?_eq_some_iff.mp hj
      rw [← hinv.length] at hlt
      have hcall : c.calls[j]? = some c.calls[j] := List.getElem?_eq_getElem hlt
      obtain ⟨q, a, hq, hcalla, hcons⟩ := hinv.adds j _ hcall
      rw [hj] at hq
      cases hq
      rw [hok a (hcalla ▸ List.mem_of_getElem? hcall)] at hcons
      exact hcons

end

/-- One add after the other. -/
def addThenAdd : List Label :=
  [.call 0 {}, .call 0 {}, .call 0 {}, .call 0 {}, .call 1 {}, .call 1 {}, .call 1 {}, .call 1 {}]

/-- **An add is lost**: both adds read the same largest id, and the primary key refuses the
row of the second one. -/
theorem add_lost :
    ¬ ∀ (adds : List (String × String)) (c₀ c : Config) (ls : List Label),
      (c₀.calls = adds.map fun (p, path) => .addProcess (.getProcesses p path)) →
      (adds.map Prod.fst).Nodup → (∀ p ∈ adds.map Prod.fst, p ∉ c₀.shared.db.appNames) →
      c₀.shared.mapLock = .free → tracker.Runs callSucceeds c₀ ls c →
      (∀ call ∈ c.calls, call.result.isSome) →
      (∀ call ∈ c.calls, call.result = some (.ok ())) ∧
        (∀ p ∈ adds.map Prod.fst, p ∈ c.shared.db.appNames ∧ p ∈ c.shared.processMap) ∧
        c.shared.db.apps.keys.Nodup := by
  intro hall
  have hend : (tracker.execWhere callSucceeds (twoAdds "b" "c") bothReadThenInsert).map
      (fun c => decide ((∀ call ∈ c.calls, call.result.isSome) ∧ "c" ∉ c.shared.db.appNames))
        = some true := by decide
  obtain ⟨c, hexec, hc⟩ := Option.map_eq_some_iff.mp hend
  obtain ⟨hreturned, hlost⟩ := of_decide_eq_true hc
  have hnone := hall [("b", "b.exe"), ("c", "c.exe")] (twoAdds "b" "c") c _ (by decide)
    (by decide) (by decide) rfl (Transition.System.runs_of_execWhere hexec) hreturned
  exact hlost (hnone.2.1 "c" (by decide)).1

/-- One add after the other: every insert is alone, and both adds succeed. -/
theorem adds_lose_none_iff_addThenAdd :
    ∃ c, tracker.execWhere (fun c l => callSucceeds c l ∧ insertsAlone c l) (twoAdds "b" "c")
        addThenAdd = some c ∧
      (∀ call ∈ c.calls, call.result = some (.ok ())) ∧
      (∀ p ∈ ["b", "c"], p ∈ c.shared.db.appNames ∧ p ∈ c.shared.processMap) ∧
      c.shared.db.apps.keys.Nodup := by
  have hend : (tracker.execWhere (fun c l => callSucceeds c l ∧ insertsAlone c l)
      (twoAdds "b" "c") addThenAdd).map
      (fun c => decide (∀ call ∈ c.calls, call.result.isSome)) = some true := by decide
  obtain ⟨c, hexec, hc⟩ := Option.map_eq_some_iff.mp hend
  have hrun := Transition.System.runs_of_execWhere hexec
  have hiff := adds_lose_none_iff [("b", "b.exe"), ("c", "c.exe")] (by decide) (by decide)
    (by decide) rfl (hrun.mono fun _ _ => And.left) (of_decide_eq_true hc)
  exact ⟨c, hexec, hiff.mpr (hrun.mono fun _ _ => And.right)⟩

end TimeTracker
