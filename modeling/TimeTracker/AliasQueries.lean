import TimeTracker.ProcessDetection
import TimeTracker.System

/-!
# The alias queries

The table `process_aliases` has no unique index: a process name can stand in it under several
apps. `get_process_aliases_for_app` and `get_process_aliases_by_app_names` select by app,
`get_all_process_aliases` collects the rows in a `HashMap` keyed by process name, which holds one
app for each name.

* **`aliasesAgree_iff`**: the three queries say the same if and only if no name is an alias of two
  apps.
* **`aliasesAgree_throughout`**: over a sequence of `add_process_alias` and
  `remove_process_alias`, they agree after every call if and only if no name is added that is an
  alias of another app already.
* **`aliases_twoOwners`**: nothing stops such an addition.
-/

namespace TimeTracker

open Transition

/-! ## The statements -/

namespace Store

/-- The id of an alias, where the insert leaves it out: any id not in the table. -/
def generatedAliasId (db : Store) (candidate : Int) : Int :=
  if candidate ∈ db.processAliases.keys then nextId db.processAliases.maxKey else candidate

/-- `process_aliases::Entity::insert`: only the foreign key is checked. -/
def insertProcessAlias (db : Store) (candidate : Int) (processName : String) (appId : Int) :
    Except DbErr Store :=
  if appId ∉ db.apps.keys then .error .foreignKeyViolation
  else
    match db.processAliases.insert ⟨db.generatedAliasId candidate, processName, appId⟩ with
    | some processAliases => .ok { db with processAliases }
    | none => .error .uniqueViolation

/-- `process_aliases::Entity::delete_many()` with the filters on both columns. -/
def deleteProcessAlias (db : Store) (processName : String) (appId : Int) : Store :=
  { db with
    processAliases :=
      db.processAliases.delete fun a => a.processName = processName && a.appId = appId }

end Store

/-- `get_all_process_aliases`: the rows inserted into a `HashMap` one after the other. -/
def getAllProcessAliases (db : Store) : Finmap fun _ : String => Int :=
  db.processAliases.rows.foldl (fun map a => map.insert a.processName a.appId) ∅

/-- The calls that write the table, each of them one statement. -/
inductive AliasCall where
  /-- `add_process_alias`; the database takes the id from its sequence -/
  | addProcessAlias (newId : Int) (processName : String) (appId : Int)
  | removeProcessAlias (processName : String) (appId : Int)

/-- A call whose statement succeeds. -/
def AliasCall.step (db : Store) : AliasCall → Option Store
  | .addProcessAlias newId processName appId =>
    (db.insertProcessAlias newId processName appId).toOption
  | .removeProcessAlias processName appId => some (db.deleteProcessAlias processName appId)

/-- The store under a sequence of calls. -/
def aliasCalls : System Store AliasCall := ⟨AliasCall.step⟩

/-! ## What the three queries answer -/

section Queries

variable {db : Store} {q : String} {app : Apps.Model}

theorem mem_getProcessAliasesForApp {appId : Int} :
    q ∈ getProcessAliasesForApp db appId ↔
      ∃ a ∈ db.processAliases.rows, a.processName = q ∧ a.appId = appId := by
  simp only [getProcessAliasesForApp, List.mem_map, Table.mem_all, decide_eq_true_eq]
  constructor
  · rintro ⟨a, ⟨ha, happ⟩, hq⟩
    exact ⟨a, ha, hq, happ⟩
  · rintro ⟨a, ha, hq, happ⟩
    exact ⟨a, ⟨ha, happ⟩, hq⟩

/-- Collected in a map, the last row of a name wins. -/
theorem lookup_getAllProcessAliases :
    (getAllProcessAliases db).lookup q = db.processAliases.rows.reverse.findSome? fun a =>
      if a.processName = q then some a.appId else none := by
  have hround : ∀ (map : Finmap fun _ : String => Int) (a : ProcessAliases.Model),
      (map.insert a.processName a.appId).lookup q =
        (if a.processName = q then some a.appId else none).or (map.lookup q) := by
    intro map a
    split
    · next hq =>
      rw [hq, Finmap.lookup_insert]
      rfl
    · next hq => exact Finmap.lookup_insert_of_ne _ (Ne.symm hq)
  rw [getAllProcessAliases, Filling.lookup_foldl _ hround, Finmap.lookup_empty, Option.or_none]

/-- What the map of all aliases says of a name is in the table. -/
theorem of_lookup_getAllProcessAliases {appId : Int}
    (h : (getAllProcessAliases db).lookup q = some appId) :
    q ∈ getProcessAliasesForApp db appId := by
  rw [lookup_getAllProcessAliases] at h
  obtain ⟨a, ha, hrow⟩ := List.exists_of_findSome?_eq_some h
  split at hrow
  · next hq =>
    exact mem_getProcessAliasesForApp.mpr
      ⟨a, List.mem_reverse.mp ha, hq, Option.some.inj hrow⟩
  · cases hrow

/-- A name in the table has an entry in the map of all aliases. -/
theorem lookup_getAllProcessAliases_isSome {appId : Int}
    (h : q ∈ getProcessAliasesForApp db appId) :
    ∃ appId', (getAllProcessAliases db).lookup q = some appId' := by
  obtain ⟨a, ha, hq, -⟩ := mem_getProcessAliasesForApp.mp h
  rw [← Option.isSome_iff_exists, lookup_getAllProcessAliases, List.isSome_findSome?,
    List.any_eq_true]
  exact ⟨a, List.mem_reverse.mpr ha, by simp [hq]⟩

/-- The entry of one app name in the map by app names. -/
def aliasEntry (db : Store) (appName : String) : Option (List String) :=
  match db.findApp appName with
  | none => none
  | some app =>
    let aliases := getProcessAliasesForApp db app.id
    if aliases.isEmpty then none else some aliases

theorem lookup_getProcessAliasesByAppNames {appNames : List String} {name : String} :
    (getProcessAliasesByAppNames db appNames).lookup name =
      if name ∈ appNames then aliasEntry db name else none := by
  refine (Filling.lookup_foldl
    (fun appName => if decide (appName = name) then aliasEntry db name else none) ?_ appNames
    ∅).trans ?_
  · intro map appName
    by_cases hname : appName = name
    · subst hname
      rw [if_pos (decide_eq_true rfl), aliasEntry]
      cases db.findApp appName with
      | none => rfl
      | some app =>
        dsimp only
        split
        · rfl
        · exact Finmap.lookup_insert _
    · rw [if_neg (mt of_decide_eq_true hname), Option.none_or]
      cases db.findApp appName with
      | none => rfl
      | some app =>
        dsimp only
        split
        · rfl
        · exact Finmap.lookup_insert_of_ne _ (Ne.symm hname)
  · rw [Finmap.lookup_empty, Option.or_none, Filling.findSome?_const]
    have hany : (appNames.reverse.any fun appName => decide (appName = name)) = true ↔
        name ∈ appNames := by
      simp
    simp only [hany]

/-- The aliases of the app of a name, read through the map by app names. -/
theorem inAliasList_iff {appNames : List String} {name : String} :
    InAliasList (some (getProcessAliasesByAppNames db appNames)) name q ↔
      name ∈ appNames ∧
        ∃ app, db.findApp name = some app ∧ q ∈ getProcessAliasesForApp db app.id := by
  constructor
  · intro h
    obtain ⟨aliases, aliasList, haliases, hlookup, hq⟩ := h
    cases haliases
    rw [lookup_getProcessAliasesByAppNames] at hlookup
    split at hlookup
    · next hname =>
      rw [aliasEntry] at hlookup
      cases hfind : db.findApp name with
      | none => rw [hfind] at hlookup; cases hlookup
      | some app =>
        rw [hfind] at hlookup
        dsimp only at hlookup
        split at hlookup
        · cases hlookup
        · cases hlookup
          exact ⟨hname, app, rfl, hq⟩
    · cases hlookup
  · intro h
    obtain ⟨hname, app, hfind, hq⟩ := h
    refine ⟨_, getProcessAliasesForApp db app.id, rfl, ?_, hq⟩
    rw [lookup_getProcessAliasesByAppNames, if_pos hname, aliasEntry, hfind]
    exact if_neg fun hempty => List.ne_nil_of_mem hq (List.isEmpty_iff.mp hempty)

end Queries

/-! ## Agreement -/

/-- What the three queries say of the apps of a store is the same, and no process name is an
alias of two of them, neither in the table nor for the scanner, which reads the aliases of the
tracked names. -/
structure AliasesAgree (db : Store) : Prop where
  views : ∀ q, ∀ app ∈ db.apps.rows, ∀ n, app.name = some n →
    ((getAllProcessAliases db).lookup q = some app.id ↔
      q ∈ getProcessAliasesForApp db app.id) ∧
    (q ∈ getProcessAliasesForApp db app.id ↔
      ∃ aliasList, (getProcessAliasesByAppNames db [n]).lookup n = some aliasList ∧ q ∈ aliasList)
  oneApp : ∀ q, ∀ app ∈ db.apps.rows, ∀ app' ∈ db.apps.rows,
    q ∈ getProcessAliasesForApp db app.id → q ∈ getProcessAliasesForApp db app'.id → app = app'
  oneSession : ∀ appNames q n n',
    InAliasList (some (getProcessAliasesByAppNames db appNames)) n q →
    InAliasList (some (getProcessAliasesByAppNames db appNames)) n' q → n = n'

/-- What the constraints of the database keep: the names of the apps are distinct, and every
alias refers to an app. -/
structure AliasTables (db : Store) : Prop where
  names : db.appNames.Nodup
  references : ∀ a ∈ db.processAliases.rows, a.appId ∈ db.apps.keys

/-- Every process name in the alias table belongs to one app. -/
def SingleOwner (db : Store) : Prop :=
  ∀ a ∈ db.processAliases.rows, ∀ b ∈ db.processAliases.rows,
    a.processName = b.processName → a.appId = b.appId

section Agreement

variable {db : Store}

theorem SingleOwner.eq (h : SingleOwner db) {q : String} {appId appId' : Int}
    (hq : q ∈ getProcessAliasesForApp db appId) (hq' : q ∈ getProcessAliasesForApp db appId') :
    appId = appId' := by
  obtain ⟨a, ha, hname, rfl⟩ := mem_getProcessAliasesForApp.mp hq
  obtain ⟨b, hb, hname', rfl⟩ := mem_getProcessAliasesForApp.mp hq'
  exact h a ha b hb (hname.trans hname'.symm)

/-- **Agreement is single ownership.** -/
theorem aliasesAgree_iff (hdb : AliasTables db) : AliasesAgree db ↔ SingleOwner db := by
  constructor
  · intro h a ha b hb hname
    obtain ⟨app, happ, hid⟩ := Table.mem_keys.mp (hdb.references a ha)
    obtain ⟨app', happ', hid'⟩ := Table.mem_keys.mp (hdb.references b hb)
    have hsame : app = app' := h.oneApp a.processName app happ app' happ'
      (mem_getProcessAliasesForApp.mpr ⟨a, ha, rfl, hid.symm⟩)
      (mem_getProcessAliasesForApp.mpr ⟨b, hb, hname.symm, hid'.symm⟩)
    rw [← hid, ← hid', hsame]
  · intro h
    refine ⟨?_, ?_, ?_⟩
    · intro q app happ n hname
      have hfind := Store.findApp_of_mem hdb.names happ hname
      constructor
      · constructor
        · exact of_lookup_getAllProcessAliases
        · intro hq
          obtain ⟨appId, hlookup⟩ := lookup_getAllProcessAliases_isSome hq
          rw [hlookup, h.eq hq (of_lookup_getAllProcessAliases hlookup)]
      · rw [← inAliasList_some, inAliasList_iff]
        constructor
        · intro hq
          exact ⟨List.mem_singleton.mpr rfl, app, hfind, hq⟩
        · intro hq
          obtain ⟨-, app', hfind', hq'⟩ := hq
          rw [hfind, Option.some.injEq] at hfind'
          exact hfind' ▸ hq'
    · intro q app happ app' happ' hq hq'
      exact Table.eq_of_key_eq happ happ' (h.eq hq hq')
    · intro appNames q n n' hn hn'
      obtain ⟨-, app, hfind, hq⟩ := inAliasList_iff.mp hn
      obtain ⟨-, app', hfind', hq'⟩ := inAliasList_iff.mp hn'
      obtain ⟨happ, hname⟩ := Store.findApp_eq_some hfind
      obtain ⟨happ', hname'⟩ := Store.findApp_eq_some hfind'
      have hsame : app = app' := Table.eq_of_key_eq happ happ' (h.eq hq hq')
      rw [hsame, hname', Option.some.injEq] at hname
      exact hname.symm

end Agreement

/-! ## Sequences of calls -/

/-- The call adds no name that is an alias of another app. -/
def ownsAlias (db : Store) : AliasCall → Prop
  | .addProcessAlias _ processName appId =>
    ∀ a ∈ db.processAliases.rows, a.processName = processName → a.appId = appId
  | .removeProcessAlias _ _ => True

instance (db : Store) : (call : AliasCall) → Decidable (ownsAlias db call)
  | .addProcessAlias _ processName appId => inferInstanceAs (Decidable
      (∀ a ∈ db.processAliases.rows, a.processName = processName → a.appId = appId))
  | .removeProcessAlias _ _ => isTrue trivial

section Calls

variable {db db' : Store}

/-- What an insert does: one row for a stored app. -/
theorem insertProcessAlias_eq_ok {newId appId : Int} {processName : String}
    (h : db.insertProcessAlias newId processName appId = .ok db') :
    appId ∈ db.apps.keys ∧ db'.apps = db.apps ∧
      db'.processAliases.rows =
        db.processAliases.rows ++ [⟨db.generatedAliasId newId, processName, appId⟩] := by
  unfold Store.insertProcessAlias at h
  split at h
  · cases h
  · next happ =>
    cases hins : db.processAliases.insert ⟨db.generatedAliasId newId, processName, appId⟩ with
    | none => rw [hins] at h; cases h
    | some processAliases =>
      rw [hins] at h
      cases h
      exact ⟨not_not.mp happ, rfl, (Table.insert_eq_some.mp hins).2⟩

/-- What a call does: one row more for a stored app, or the rows of one name and app less. -/
theorem AliasCall.step_cases {call : AliasCall} (h : AliasCall.step db call = some db') :
    db'.apps = db.apps ∧
      ((∃ newId processName appId, call = .addProcessAlias newId processName appId ∧
          appId ∈ db.apps.keys ∧ db'.processAliases.rows =
            db.processAliases.rows ++ [⟨db.generatedAliasId newId, processName, appId⟩]) ∨
        (∃ processName appId, call = .removeProcessAlias processName appId ∧
          ∀ a ∈ db'.processAliases.rows, a ∈ db.processAliases.rows)) := by
  cases call with
  | addProcessAlias newId processName appId =>
    cases hins : db.insertProcessAlias newId processName appId with
    | error e =>
      rw [AliasCall.step, hins] at h
      cases h
    | ok db₁ =>
      rw [AliasCall.step, hins] at h
      cases h
      obtain ⟨happ, happs, hrows⟩ := insertProcessAlias_eq_ok hins
      exact ⟨happs, .inl ⟨newId, processName, appId, rfl, happ, hrows⟩⟩
  | removeProcessAlias processName appId =>
    cases h
    exact ⟨rfl, .inr ⟨processName, appId, rfl, fun a ha => (Table.mem_delete.mp ha).1⟩⟩

/-- The constraints hold after every call. -/
theorem aliasTables_step {call : AliasCall} (hdb : AliasTables db)
    (h : AliasCall.step db call = some db') : AliasTables db' := by
  obtain ⟨happs, hcall⟩ := AliasCall.step_cases h
  refine ⟨?_, ?_⟩
  · rw [Store.appNames, happs]
    exact hdb.names
  · intro a ha
    rw [happs]
    rcases hcall with ⟨newId, processName, appId, -, happ, hrows⟩ | ⟨_, _, -, hsub⟩
    · rw [hrows, List.mem_append, List.mem_singleton] at ha
      rcases ha with ha | rfl
      · exact hdb.references a ha
      · exact happ
    · exact hdb.references a (hsub a ha)

/-- **Exactly the calls that add no name of another app** leave every name with one owner. -/
theorem singleOwner_step {call : AliasCall} (hown : SingleOwner db)
    (h : AliasCall.step db call = some db') : SingleOwner db' ↔ ownsAlias db call := by
  obtain ⟨-, hcall⟩ := AliasCall.step_cases h
  rcases hcall with ⟨newId, processName, appId, rfl, -, hrows⟩ | ⟨_, _, rfl, hsub⟩
  · constructor
    · intro hown' a ha hname
      have hmem : a ∈ db'.processAliases.rows := by
        rw [hrows]
        exact List.mem_append_left _ ha
      have hnew : ⟨db.generatedAliasId newId, processName, appId⟩ ∈ db'.processAliases.rows := by
        rw [hrows]
        exact List.mem_append_right _ (List.mem_singleton.mpr rfl)
      exact hown' a hmem _ hnew hname
    · intro howns a ha b hb hname
      rw [hrows, List.mem_append, List.mem_singleton] at ha hb
      rcases ha with ha | rfl
      · rcases hb with hb | rfl
        · exact hown a ha b hb hname
        · exact howns a ha hname
      · rcases hb with hb | rfl
        · exact (howns b hb hname.symm).symm
        · rfl
  · constructor
    · intro _
      trivial
    · intro _ a ha b hb hname
      exact hown a (hsub a ha) b (hsub b hb) hname

/-- **When the alias queries agree**: after every call of a sequence, if and only if the sequence
adds no name that is an alias of another app already. -/
theorem aliasesAgree_throughout {calls : List AliasCall} (hnames : db.appNames.Nodup)
    (hreferences : ∀ a ∈ db.processAliases.rows, a.appId ∈ db.apps.keys)
    (hagree : AliasesAgree db) (hrun : aliasCalls.Runs (fun _ _ => True) db calls db') :
    aliasCalls.Runs ownsAlias db calls db' ↔
      aliasCalls.Runs (fun db _ => AliasesAgree db) db calls db' ∧ AliasesAgree db' := by
  refine hrun.guard_iff (J := AliasTables) ?_ ?_ ⟨hnames, hreferences⟩ hagree
  · intro db call db' hdb hstep
    exact aliasTables_step hdb hstep
  · intro db call db' hdb hagree hstep
    rw [aliasesAgree_iff (aliasTables_step hdb hstep)]
    exact singleOwner_step ((aliasesAgree_iff hdb).mp hagree) hstep

end Calls

/-! ## The condition is needed -/

/-- With no aliases the queries agree. -/
theorem aliasesAgree_of_empty {db : Store} (hnames : db.appNames.Nodup)
    (hempty : db.processAliases.rows = []) : AliasesAgree db := by
  have hdb : AliasTables db := ⟨hnames, by simp [hempty]⟩
  rw [aliasesAgree_iff hdb]
  intro a ha
  rw [hempty] at ha
  cases ha

/-- `w` becomes an alias of `a` and then of `b`. -/
def wOfBoth : List AliasCall := [.addProcessAlias 1 "w" 1, .addProcessAlias 2 "w" 2]

/-- `w` is removed from `a` first. -/
def wOfOne : List AliasCall :=
  [.addProcessAlias 1 "w" 1, .removeProcessAlias "w" 1, .addProcessAlias 2 "w" 2]

/-- **A name under two apps**: nothing refuses the second row. -/
theorem aliases_twoOwners :
    ¬ ∀ (db db' : Store) (calls : List AliasCall), db.appNames.Nodup →
      (∀ a ∈ db.processAliases.rows, a.appId ∈ db.apps.keys) → AliasesAgree db →
      aliasCalls.Runs (fun _ _ => True) db calls db' → AliasesAgree db' := by
  intro hall
  have hend : (aliasCalls.exec storeWithAB wOfBoth).map (fun db => decide
      (db.apps.rows = storeWithAB.apps.rows ∧ "w" ∈ getProcessAliasesForApp db 1 ∧
        "w" ∈ getProcessAliasesForApp db 2)) = some true := by decide
  obtain ⟨db', hexec, hdb'⟩ := Option.map_eq_some_iff.mp hend
  obtain ⟨happs, ha, hb⟩ := of_decide_eq_true hdb'
  have hagree := hall storeWithAB db' wOfBoth (by decide) (by decide)
    (aliasesAgree_of_empty (by decide) rfl) (System.runs_of_exec hexec)
  have hsame := hagree.oneApp "w" (AddProcess.newApp "a" "a" 1) (by rw [happs]; decide)
    (AddProcess.newApp "b" "b" 2) (by rw [happs]; decide) ha hb
  exact absurd hsame (by decide)

/-- Removed from one app and added to another, the queries agree on it. -/
theorem aliasesAgree_wOfOne :
    ∃ db', aliasCalls.execWhere ownsAlias storeWithAB wOfOne = some db' ∧
      aliasCalls.Runs (fun db _ => AliasesAgree db) storeWithAB wOfOne db' ∧
      AliasesAgree db' := by
  have hend : (aliasCalls.execWhere ownsAlias storeWithAB wOfOne).isSome = true := by decide
  obtain ⟨db', hexec⟩ := Option.isSome_iff_exists.mp hend
  have hrun := System.runs_of_execWhere hexec
  exact ⟨db', hexec, (aliasesAgree_throughout (by decide) (by decide)
    (aliasesAgree_of_empty (by decide) rfl) (hrun.mono fun _ _ _ => trivial)).mp hrun⟩

end TimeTracker
