import TimeTracker.Steps

/-!
# The two records of what is tracked

The tracked processes are recorded twice: as the names in the `apps` table and as the keys of
`PROCESS_MAP`. `add_process` and `delete_process` write the table first and the map later,
with no lock around the two, so either record is decided by the last write to it.

* `mem_processMap_iff` / `mem_appNames_iff`: a name is in the map (in the table) after a run
  iff the last write of the run to that name in the map (in the table) put it there, or, if
  there was none, iff it was there before;
* `keys_eq_names_iff`: once every call has returned, the two records agree iff for every name
  the last write to the table and the last write to the map are of one kind;
* `keys_ne_names`: an add between the two writes of a delete breaks the agreement.
-/

namespace TimeTracker

/-! ## What a step writes -/

/-- What the next step of a call does to the names in the table: the name, and whether it
adds it (`true`) or removes it (`false`). -/
def Call.tableWrite (inp : Input) (db : Store) : Call → Option (String × Bool)
  | .addProcess (.insert p productName id) =>
    match inp.statement (db.insertApp (AddProcess.newApp p productName id)) with
    | .ok _ => some (p, true)
    | .error _ => none
  | .deleteProcess (.deleteData p) =>
    match inp.err with
    | some _ => none
    | none => some (p, false)
  | _ => none

/-- What the next step of a call does to the keys of `PROCESS_MAP`. -/
def Call.mapWrite (lock : MapLock) : Call → Option (String × Bool)
  | .addProcess (.insertMap p) => if lock = .free then some (p, true) else none
  | .deleteProcess (.removeMap p) => if lock = .free then some (p, false) else none
  | _ => none

/-- The name a call has written to the table and not yet to the map. -/
def Call.owes : Call → Option String
  | .addProcess (.insertMap p) => some p
  | .deleteProcess (.removeMap p) => some p
  | _ => none

/-- What a write does to one name. -/
def writeTo (p : String) (write : Option (String × Bool)) : Option Bool :=
  write.bind fun (q, added) => if q = p then some added else none

@[simp] theorem writeTo_none (p : String) : writeTo p none = none := rfl

@[simp] theorem writeTo_some (p q : String) (added : Bool) :
    writeTo p (some (q, added)) = if q = p then some added else none := rfl

/-- What a step of the program writes to `p` in the table. -/
def tableWrite (p : String) (c : Config) : Label → Option Bool
  | .call k inp => writeTo p (c.calls[k]?.bind fun call => call.tableWrite inp c.shared.db)
  | _ => none

/-- What a step of the program writes to `p` in `PROCESS_MAP`. -/
def mapWrite (p : String) (c : Config) : Label → Option Bool
  | .call k _ => writeTo p (c.calls[k]?.bind fun call => call.mapWrite c.shared.mapLock)
  | _ => none

section
variable {inp : Input} {s s' : Shared} {call call' : Call}

theorem tableWrite_insert {p productName : String} {id : Int} {apps : Table Apps.Model}
    (herr : inp.err = none)
    (hins : s.db.apps.insert (AddProcess.newApp p productName id) = some apps) :
    (Call.addProcess (.insert p productName id)).tableWrite inp s.db = some (p, true) := by
  simp [Call.tableWrite, Input.statement_of_none herr, Store.insertApp, hins]

theorem tableWrite_insert_taken {p productName : String} {id : Int} (herr : inp.err = none)
    (hid : id ∈ s.db.apps.keys) :
    (Call.addProcess (.insert p productName id)).tableWrite inp s.db = none := by
  have hnone : s.db.apps.insert (AddProcess.newApp p productName id) = none :=
    Table.insert_eq_none.mpr hid
  simp [Call.tableWrite, Input.statement_of_none herr, Store.insertApp, hnone]

theorem tableWrite_addProcess_of_err {a : AddProcess} {e : DbErr} (herr : inp.err = some e) :
    (Call.addProcess a).tableWrite inp s.db = none := by
  cases a <;> simp [Call.tableWrite, Input.statement, herr]

/-- A write to the table leaves the call owing the write to the map; that one settles it; no
other step touches either record. A call that owes its write and makes none has panicked. -/
theorem Call.step_writes (h : call.step inp s = some (call', s')) :
    (∃ q added, call.tableWrite inp s.db = some (q, added) ∧ call.mapWrite s.mapLock = none ∧
      call.owes = none ∧ call'.owes = some q) ∨
    (∃ q added, call.tableWrite inp s.db = none ∧ call.mapWrite s.mapLock = some (q, added) ∧
      call.owes = some q ∧ call'.owes = none) ∨
    (call.tableWrite inp s.db = none ∧ call.mapWrite s.mapLock = none ∧ call'.owes = none ∧
      (call.owes = none ∨ call'.panicked = true)) := by
  rcases Call.step_machine h with ⟨a, a', rfl, rfl, hstep⟩ | ⟨d, d', rfl, rfl, hstep⟩ |
    ⟨_, _, rfl, rfl, -⟩ | ⟨_, _, _, rfl, rfl, -, -⟩ | ⟨_, _, _, rfl, rfl, -, -⟩ |
    ⟨_, _, _, rfl, rfl, -, -⟩
  · rcases AddProcess.step_cases hstep with ⟨e, herr, hne, -, rfl⟩ | ⟨p, path, rfl, -, -, ha'⟩ |
      ⟨p, pn, rfl, -, -, rfl⟩ | ⟨p, pn, id, rfl, herr, ⟨hid, -, rfl⟩ | ⟨apps, hins, -, rfl⟩⟩ |
      ⟨p, rfl, ⟨hl, -, rfl⟩ | ⟨hl, -, rfl⟩⟩
    · refine .inr (.inr ⟨tableWrite_addProcess_of_err herr, ?_⟩)
      cases a with
      | insertMap p => exact absurd rfl (hne p)
      | _ => exact ⟨rfl, rfl, .inl rfl⟩
    · rcases ha' with ⟨-, rfl⟩ | ⟨-, rfl⟩ <;> exact .inr (.inr ⟨rfl, rfl, rfl, .inl rfl⟩)
    · exact .inr (.inr ⟨rfl, rfl, rfl, .inl rfl⟩)
    -- the primary key refuses the row: the add returns its error and owes nothing
    · exact .inr (.inr ⟨tableWrite_insert_taken herr hid, rfl, rfl, .inl rfl⟩)
    · exact .inl ⟨p, true, tableWrite_insert herr hins, rfl, rfl, rfl⟩
    · exact .inr (.inr ⟨rfl, by simp [Call.mapWrite, hl], rfl, .inr rfl⟩)
    · exact .inr (.inl ⟨p, true, rfl, by simp [Call.mapWrite, hl], rfl, rfl⟩)
  · rcases DeleteProcess.step_cases hstep with ⟨p, rfl, ⟨e, herr, -, rfl⟩ | ⟨herr, -, rfl⟩⟩ |
      ⟨p, rfl, ⟨hl, -, rfl⟩ | ⟨hl, -, rfl⟩⟩
    · exact .inr (.inr ⟨by simp [Call.tableWrite, herr], rfl, rfl, .inl rfl⟩)
    · exact .inl ⟨p, false, by simp [Call.tableWrite, herr], rfl, rfl, rfl⟩
    · exact .inr (.inr ⟨rfl, by simp [Call.mapWrite, hl], rfl, .inr rfl⟩)
    · exact .inr (.inl ⟨p, false, rfl, by simp [Call.mapWrite, hl], rfl, rfl⟩)
  · exact .inr (.inr ⟨rfl, rfl, rfl, .inl rfl⟩)
  · exact .inr (.inr ⟨rfl, rfl, rfl, .inl rfl⟩)
  · exact .inr (.inr ⟨rfl, rfl, rfl, .inl rfl⟩)
  · exact .inr (.inr ⟨rfl, rfl, rfl, .inl rfl⟩)

/-- A call that has panicked takes no step. -/
theorem Call.not_panicked (h : call.step inp s = some (call', s')) : call.panicked = false := by
  rcases Call.step_machine h with ⟨a, a', rfl, rfl, hstep⟩ | ⟨d, d', rfl, rfl, hstep⟩ |
    ⟨_, _, rfl, rfl, -⟩ | ⟨_, _, _, rfl, rfl, -, -⟩ | ⟨_, _, _, rfl, rfl, -, -⟩ |
    ⟨_, _, _, rfl, rfl, -, -⟩
  · cases a <;> first | rfl | cases hstep
  · cases d <;> first | rfl | cases hstep
  · rfl
  · rfl
  · rfl
  · rfl

/-- What a step of a call does to the two records of `p`. -/
theorem Call.step_records (h : call.step inp s = some (call', s')) (p : String) :
    decide (p ∈ s'.db.appNames) =
      (writeTo p (call.tableWrite inp s.db)).getD (decide (p ∈ s.db.appNames)) ∧
    decide (p ∈ s'.processMap) =
      (writeTo p (call.mapWrite s.mapLock)).getD (decide (p ∈ s.processMap)) := by
  rcases Call.step_machine h with ⟨a, a', rfl, rfl, hstep⟩ | ⟨d, d', rfl, rfl, hstep⟩ |
    ⟨_, _, rfl, rfl, hstep⟩ | ⟨_, _, db, rfl, rfl, hstep, rfl⟩ | ⟨_, _, db, rfl, rfl, hstep, rfl⟩ |
    ⟨_, _, db, rfl, rfl, hstep, rfl⟩
  · rcases AddProcess.step_cases hstep with ⟨e, herr, hne, rfl, rfl⟩ | ⟨q, path, rfl, -, rfl, -⟩ |
      ⟨q, pn, rfl, -, rfl, -⟩ | ⟨q, pn, id, rfl, herr, ⟨hid, rfl, -⟩ | ⟨apps, hins, rfl, rfl⟩⟩ |
      ⟨q, rfl, ⟨hl, rfl, -⟩ | ⟨hl, rfl, -⟩⟩
    · rw [tableWrite_addProcess_of_err herr]
      cases a with
      | insertMap p => exact absurd rfl (hne p)
      | _ => exact ⟨rfl, rfl⟩
    · exact ⟨rfl, rfl⟩
    · exact ⟨rfl, rfl⟩
    · rw [tableWrite_insert_taken herr hid]
      exact ⟨rfl, rfl⟩
    · rw [tableWrite_insert herr hins]
      refine ⟨?_, rfl⟩
      have hnames := Store.mem_appNames_insertApp (Store.insertApp_eq_ok.mpr ⟨apps, hins, rfl⟩) p
      simp only [hnames, writeTo_some, AddProcess.newApp, Option.some.injEq]
      split <;> simp_all
    · exact ⟨rfl, by simp [Call.mapWrite, hl]⟩
    · refine ⟨rfl, ?_⟩
      simp only [Call.mapWrite, hl, if_true, writeTo_some, Finmap.mem_insert]
      split <;> simp_all [eq_comm]
  · rcases DeleteProcess.step_cases hstep with ⟨q, rfl, ⟨e, herr, rfl, -⟩ | ⟨herr, rfl, -⟩⟩ |
      ⟨q, rfl, ⟨hl, rfl, -⟩ | ⟨hl, rfl, -⟩⟩
    · exact ⟨by simp [Call.tableWrite, herr], rfl⟩
    · refine ⟨?_, rfl⟩
      simp only [Call.tableWrite, herr, writeTo_some, Store.mem_appNames_deleteApps]
      split <;> simp_all [eq_comm]
    · exact ⟨rfl, by simp [Call.mapWrite, hl]⟩
    · refine ⟨rfl, ?_⟩
      simp only [Call.mapWrite, hl, if_true, writeTo_some, Finmap.mem_erase]
      split <;> simp_all [eq_comm]
  · rcases Pause.step_cases hstep with ⟨-, -, rfl⟩ | ⟨_, -, -, rfl⟩ <;> exact ⟨rfl, rfl⟩
  · refine ⟨?_, rfl⟩
    simp only [Call.tableWrite, writeTo_none, Option.getD_none, Store.appNames,
      (SetCheckpointActive.step_frame hstep).1]
    rfl
  · obtain ⟨_, _, _, -, ⟨_, -, rfl⟩ | ⟨-, -, _, -, rfl⟩⟩ := CreateCheckpoint.step_cases hstep <;>
      exact ⟨rfl, rfl⟩
  · obtain ⟨_, -, ⟨_, -, rfl⟩ | ⟨-, rfl⟩⟩ := DeleteCheckpoint.step_cases hstep <;> exact ⟨rfl, rfl⟩

end

/-! ## Steps of the program -/

section
variable {c c' : Config} {l : Label}

/-- The second critical section of the scanner keeps the keys of the map. -/
theorem mem_passLoop {m : RunningMap} {order : List String} {processMap processMap' : ProcessMap}
    (horder : isIterationOrder order processMap = true)
    (hpass : (∃ toSpawn, passLoop m order processMap [] = .done processMap' toSpawn) ∨
      passLoop m order processMap [] = .panicked processMap') (p : String) :
    p ∈ processMap' ↔ p ∈ processMap := by
  obtain ⟨hnodup, hmem⟩ := isIterationOrder_iff.mp horder
  rw [← Finmap.lookup_isSome, ← Finmap.lookup_isSome]
  rcases hpass with ⟨toSpawn, hdone⟩ | hpanicked
  · obtain ⟨-, hout, hin⟩ := passLoop_done hnodup hdone
    by_cases hp : p ∈ order
    · obtain ⟨entry, hentry⟩ := Finmap.mem_iff.mp ((hmem p).mp hp)
      obtain ⟨running, -, hnew⟩ := hin p hp entry hentry
      rw [hentry, hnew]
      rfl
    · rw [hout p hp]
  · rcases passLoop_panicked hnodup hpanicked p with hsame | ⟨running, entry, hold, hnew⟩
    · rw [hsame]
    · rw [hold, hnew]
      rfl

/-- The names in the table after a step. -/
theorem mem_appNames_step (h : tracker.step c l = some c') (p : String) :
    decide (p ∈ c'.shared.db.appNames) =
      (tableWrite p c l).getD (decide (p ∈ c.shared.db.appNames)) := by
  cases hl : l.isCall with
  | false =>
    have hnames : c'.shared.db.appNames = c.shared.db.appNames := by
      rw [Store.appNames_eq, Store.appNames_eq, identities_of_not_call hl h]
    rw [hnames]
    cases l <;> first | rfl | cases hl
  | true =>
    cases l with
    | call k inp =>
      obtain ⟨call, call', s, hk, hstep, rfl⟩ := step_call h
      rw [tableWrite, hk]
      exact (Call.step_records hstep p).1
    | _ => cases hl

/-- The keys of `PROCESS_MAP` after a step. -/
theorem mem_processMap_step (h : tracker.step c l = some c') (p : String) :
    decide (p ∈ c'.shared.processMap) =
      (mapWrite p c l).getD (decide (p ∈ c.shared.processMap)) := by
  cases l with
  | scan inp =>
    obtain ⟨sc, s, hstep, rfl⟩ := step_scan h
    refine decide_eq_decide.mpr ?_
    rcases Scanner.step_cases hstep with ⟨-, -, rfl⟩ | ⟨_, _, _, -, -, horder, hpass, -, rfl⟩ |
      ⟨_, _, -, -, horder, hpass, -, rfl⟩ | ⟨_, _, -, -, rfl⟩
    · rfl
    · exact mem_passLoop horder (.inl ⟨_, hpass⟩) p
    · exact mem_passLoop horder (.inr hpass) p
    · rfl
  | spawn =>
    obtain ⟨_, _, -, rfl⟩ := step_spawn h
    rfl
  | work k inp =>
    obtain ⟨w, w', s, -, hstep, rfl⟩ := step_work h
    obtain ⟨-, -, -, ⟨hmap, -⟩ | ⟨snd, hlook, hmap, -, -⟩⟩ := Worker.step_cases hstep
    · simp only [hmap]
      rfl
    · -- the worker overwrites an entry that is there
      refine decide_eq_decide.mpr ?_
      simp only [hmap, Finmap.mem_insert]
      constructor
      · rintro (rfl | hp)
        · exact Finmap.mem_of_lookup_eq_some hlook
        · exact hp
      · exact .inr
  | handle inp =>
    obtain ⟨loop, events, db, -, rfl⟩ := step_handle h
    rfl
  | call k inp =>
    obtain ⟨call, call', s, hk, hstep, rfl⟩ := step_call h
    rw [mapWrite, hk]
    exact (Call.step_records hstep p).2

end

/-! ## Runs -/

/-- The last write of a run to `p` in the table. -/
def lastTableWrite (p : String) (c : Config) (ls : List Label) : Option Bool :=
  tracker.history (Transition.System.lastWrite (tableWrite p)) none c ls

/-- The last write of a run to `p` in `PROCESS_MAP`. -/
def lastMapWrite (p : String) (c : Config) (ls : List Label) : Option Bool :=
  tracker.history (Transition.System.lastWrite (mapWrite p)) none c ls

section
variable {ok : Config → Label → Prop} {c₀ c : Config} {ls : List Label}

/-- **The last write decides what the table records.** -/
theorem mem_appNames_iff (h : tracker.Runs ok c₀ ls c) (p : String) :
    decide (p ∈ c.shared.db.appNames) =
      (lastTableWrite p c₀ ls).getD (decide (p ∈ c₀.shared.db.appNames)) :=
  h.read_eq_lastWrite (fun c => decide (p ∈ c.shared.db.appNames))
    fun _ _ _ _ hstep => mem_appNames_step hstep p

/-- **The last write decides what the map records.** -/
theorem mem_processMap_iff (h : tracker.Runs ok c₀ ls c) (p : String) :
    decide (p ∈ c.shared.processMap) =
      (lastMapWrite p c₀ ls).getD (decide (p ∈ c₀.shared.processMap)) :=
  h.read_eq_lastWrite (fun c => decide (p ∈ c.shared.processMap))
    fun _ _ _ _ hstep => mem_processMap_step hstep p

/-- A call that will still write `p` to the map, or that has died before it could. -/
def Call.pending (p : String) (call : Call) : Bool := call.owes = some p || call.panicked

/-- How the last writes to `p` and the calls still under way relate: the map is written only
after the table, and a table write is followed by a map write or its call is not done. -/
structure WritesInvariant (p : String) (table map : Option Bool) (c : Config) : Prop where
  table_of_map : map.isSome → table.isSome
  table_of_owes : ∀ call ∈ c.calls, call.owes = some p → table.isSome
  map_or_pending : table.isSome → map.isSome ∨ ∃ call ∈ c.calls, call.pending p = true

theorem writesInvariant_call {p : String} {table map : Option Bool} {c c' : Config} {k : Nat}
    {inp : Input} (hinv : WritesInvariant p table map c)
    (h : tracker.step c (.call k inp) = some c') :
    WritesInvariant p ((tableWrite p c (.call k inp)).or table)
      ((mapWrite p c (.call k inp)).or map) c' := by
  obtain ⟨call, call', s, hk, hstep, rfl⟩ := step_call h
  have hmem : ∀ x ∈ c.calls.set k call', x = call' ∨ x ∈ c.calls := fun x hx =>
    (List.mem_or_eq_of_mem_set hx).symm
  have hnew : call' ∈ c.calls.set k call' := List.mem_of_getElem? (Pool.getElem?_set_self hk)
  -- whoever is under way still is, except that the caller may have made its write
  have hkept : table.isSome → map.isSome ∨ call.owes = some p ∨
      ∃ x ∈ c.calls.set k call', x.pending p = true := by
    intro htable
    rcases hinv.map_or_pending htable with hmap | ⟨x, hx, hpend⟩
    · exact .inl hmap
    · obtain ⟨j, hj⟩ := List.mem_iff_getElem?.mp hx
      by_cases hjk : k = j
      · subst hjk
        rw [hk] at hj
        cases hj
        exact .inr (.inl (by simpa [Call.pending, Call.not_panicked hstep] using hpend))
      · refine .inr (.inr ⟨x, List.mem_of_getElem? (i := j) ?_, hpend⟩)
        rw [List.getElem?_set_ne hjk]
        exact hj
  simp only [tableWrite, mapWrite, hk, Option.bind_some]
  rcases Call.step_writes hstep with ⟨q, added, htable, hmap, howes, howes'⟩ |
    ⟨q, added, htable, hmap, howes, howes'⟩ | ⟨htable, hmap, howes', hor⟩
  · rw [htable, hmap, writeTo_some, writeTo_none, Option.none_or]
    have hgrow : table.isSome → ((if q = p then some added else none).or table).isSome := by
      split <;> simp
    refine ⟨fun hm => hgrow (hinv.table_of_map hm), fun x hx hxowes => ?_, fun hsome => ?_⟩
    · rcases hmem x hx with rfl | hx
      · rw [howes'] at hxowes
        cases hxowes
        simp
      · exact hgrow (hinv.table_of_owes x hx hxowes)
    -- a write of `p` to the table makes the caller itself owe the one to the map
    · by_cases hqp : q = p
      · exact .inr ⟨call', hnew, by simp [Call.pending, howes', hqp]⟩
      · rcases hkept (by simpa [hqp] using hsome) with hm | howes'' | hpend
        · exact .inl hm
        · rw [howes] at howes''
          cases howes''
        · exact .inr hpend
  · rw [htable, hmap, writeTo_some, writeTo_none, Option.none_or]
    refine ⟨fun hm => ?_, fun x hx hxowes => ?_, fun hsome => ?_⟩
    · by_cases hqp : q = p
      · exact hinv.table_of_owes call (List.mem_of_getElem? hk) (hqp ▸ howes)
      · exact hinv.table_of_map (by simpa [hqp] using hm)
    · rcases hmem x hx with rfl | hx
      · rw [howes'] at hxowes
        cases hxowes
      · exact hinv.table_of_owes x hx hxowes
    · by_cases hqp : q = p
      · exact .inl (by simp [hqp])
      · rcases hkept hsome with hm | howes'' | hpend
        · exact .inl (by simpa [hqp] using hm)
        · rw [howes] at howes''
          exact absurd (Option.some.inj howes'') hqp
        · exact .inr hpend
  · rw [htable, hmap, writeTo_none, Option.none_or, Option.none_or]
    refine ⟨hinv.table_of_map, fun x hx hxowes => ?_, fun hsome => ?_⟩
    · rcases hmem x hx with rfl | hx
      · rw [howes'] at hxowes
        cases hxowes
      · exact hinv.table_of_owes x hx hxowes
    · rcases hkept hsome with hm | howes | hpend
      · exact .inl hm
      -- the caller owed the write and made none: it has died
      · have hpan := hor.resolve_left (by simp [howes])
        exact .inr ⟨call', hnew, by simp [Call.pending, hpan]⟩
      · exact .inr hpend

theorem writesInvariant_step {p : String} {table map : Option Bool} {c c' : Config} {l : Label}
    (hinv : WritesInvariant p table map c) (h : tracker.step c l = some c') :
    WritesInvariant p ((tableWrite p c l).or table) ((mapWrite p c l).or map) c' := by
  cases hl : l.isCall with
  | false =>
    have hcalls := (step_db_of_not_call hl h).1
    have hnone : tableWrite p c l = none ∧ mapWrite p c l = none := by
      cases l <;> first | exact ⟨rfl, rfl⟩ | cases hl
    rw [hnone.1, hnone.2]
    exact ⟨hinv.table_of_map, hcalls ▸ hinv.table_of_owes, hcalls ▸ hinv.map_or_pending⟩
  | true =>
    cases l with
    | call k inp => exact writesInvariant_call hinv h
    | _ => cases hl

theorem Call.owes_of_fresh {call : Call} (h : call.fresh = true) : call.owes = none := by
  rcases call with a | d | _ | _ | _ | _
  · cases a <;> first | rfl | cases h
  · cases d <;> first | rfl | cases h
  all_goals rfl

theorem Call.not_pending_of_result {call : Call} (h : call.result.isSome) (p : String) :
    call.pending p = false := by
  rcases call with a | d | _ | _ | _ | _
  · cases a <;> first | rfl | cases h
  · cases d <;> first | rfl | cases h
  all_goals rfl

/-- Once every call has returned, a name was written in the table iff it was in the map. -/
theorem lastWrites_isSome (hfresh : ∀ call ∈ c₀.calls, call.fresh = true)
    (hrun : tracker.Runs ok c₀ ls c) (hreturned : ∀ call ∈ c.calls, call.result.isSome)
    (p : String) : (lastTableWrite p c₀ ls).isSome ↔ (lastMapWrite p c₀ ls).isSome := by
  have hstart : WritesInvariant p none none c₀ := by
    refine ⟨fun h => h, fun call hcall howes => ?_, fun h => by cases h⟩
    rw [Call.owes_of_fresh (hfresh call hcall)] at howes
    cases howes
  have hinv := hrun.invariant_history
    (g := fun x c l => (Transition.System.lastWrite (tableWrite p) x.1 c l,
      Transition.System.lastWrite (mapWrite p) x.2 c l))
    (I := fun x c => WritesInvariant p x.1 x.2 c)
    (fun x c l c' hinv _ hstep => writesInvariant_step hinv hstep) (a := (none, none)) hstart
  rw [Transition.System.history_prod] at hinv
  refine ⟨fun htable => ?_, hinv.table_of_map⟩
  refine (hinv.map_or_pending htable).resolve_right ?_
  rintro ⟨call, hcall, hpend⟩
  rw [Call.not_pending_of_result (hreturned call hcall)] at hpend
  cases hpend

/-- Two last writes over one initial value, both made or neither. -/
theorem getD_eq_getD_iff {table map : Option Bool} {initial : Bool}
    (h : table.isSome ↔ map.isSome) : map.getD initial = table.getD initial ↔ table = map := by
  cases table <;> cases map <;> simp at h ⊢
  exact eq_comm

/-- **When the map and the table agree.** From a start where they do, and once every call has
returned, they agree iff for every name the last write to the table and the last write to
the map are of one kind: both put it there, or both took it away, or neither touched it. -/
theorem keys_eq_names_iff
    (hagree : ∀ p, p ∈ c₀.shared.processMap ↔ p ∈ c₀.shared.db.appNames)
    (hfresh : ∀ call ∈ c₀.calls, call.fresh = true)
    (hrun : tracker.Runs ok c₀ ls c) (hreturned : ∀ call ∈ c.calls, call.result.isSome) :
    (∀ p, p ∈ c.shared.processMap ↔ p ∈ c.shared.db.appNames) ↔
      ∀ p, lastTableWrite p c₀ ls = lastMapWrite p c₀ ls := by
  refine forall_congr' fun p => ?_
  have htable := mem_appNames_iff hrun p
  have hmap := mem_processMap_iff hrun p
  have hsome := lastWrites_isSome hfresh hrun hreturned p
  rw [decide_eq_decide.mpr (hagree p)] at hmap
  have hiff : (p ∈ c.shared.processMap ↔ p ∈ c.shared.db.appNames) ↔
      decide (p ∈ c.shared.processMap) = decide (p ∈ c.shared.db.appNames) :=
    decide_eq_decide.symm
  rw [hiff, htable, hmap]
  exact getD_eq_getD_iff hsome

end

/-! ## The condition is needed

One client deletes `a`, another one adds it. -/

/-- The add runs between the two writes of the delete. -/
def addInsideDelete : List Label :=
  [.call 0 {}, .call 1 {}, .call 1 {}, .call 1 {}, .call 1 {}, .call 0 {}]

/-- The delete, then the add. -/
def deleteBeforeAdd : List Label :=
  [.call 0 {}, .call 0 {}, .call 1 {}, .call 1 {}, .call 1 {}, .call 1 {}]

/-- The clients of the example. -/
def deleteThenAdd : List Call :=
  [.deleteProcess (.deleteData "a"), .addProcess (.getProcesses "a" "a.exe")]

/-- **Map and table disagree** after an add between the two writes of a delete: the table has
the name and the map has not, so the process is never scanned and cannot be added. -/
theorem keys_ne_names :
    ¬ ∀ (c₀ c : Config) (ls : List Label),
      (∀ p, p ∈ c₀.shared.processMap ↔ p ∈ c₀.shared.db.appNames) →
      (∀ call ∈ c₀.calls, call.fresh = true) →
      tracker.Runs (fun _ l => l.isCall = true) c₀ ls c →
      (∀ call ∈ c.calls, call.result.isSome) →
      ∀ p, p ∈ c.shared.processMap ↔ p ∈ c.shared.db.appNames := by
  intro hall
  have hend : (tracker.execWhere (fun _ l => l.isCall = true)
      (.initial .linux storeWithA deleteThenAdd) addInsideDelete).map
      (fun c => decide ((∀ call ∈ c.calls, call.result.isSome) ∧
        "a" ∉ c.shared.processMap ∧ "a" ∈ c.shared.db.appNames)) = some true := by decide
  obtain ⟨c, hexec, hc⟩ := Option.map_eq_some_iff.mp hend
  obtain ⟨hreturned, hmap, htable⟩ := of_decide_eq_true hc
  have hagree := hall (.initial .linux storeWithA deleteThenAdd) c addInsideDelete
    (fun _ => mem_processMap_initial) (by decide)
    (Transition.System.runs_of_execWhere hexec) hreturned "a"
  exact hmap (hagree.mpr htable)

/-- One call after the other: both have returned, and the equivalence applies. -/
theorem keys_eq_names_iff_deleteBeforeAdd :
    ∃ c, tracker.exec (.initial .linux storeWithA deleteThenAdd) deleteBeforeAdd = some c ∧
      ((∀ p, p ∈ c.shared.processMap ↔ p ∈ c.shared.db.appNames) ↔
        ∀ p, lastTableWrite p (.initial .linux storeWithA deleteThenAdd) deleteBeforeAdd =
          lastMapWrite p (.initial .linux storeWithA deleteThenAdd) deleteBeforeAdd) := by
  have hend : (tracker.exec (.initial .linux storeWithA deleteThenAdd) deleteBeforeAdd).map
      (fun c => decide (∀ call ∈ c.calls, call.result.isSome)) = some true := by decide
  obtain ⟨c, hexec, hc⟩ := Option.map_eq_some_iff.mp hend
  exact ⟨c, hexec, keys_eq_names_iff (fun _ => mem_processMap_initial) (by decide)
    (Transition.System.runs_of_exec hexec) (of_decide_eq_true hc)⟩

end TimeTracker
