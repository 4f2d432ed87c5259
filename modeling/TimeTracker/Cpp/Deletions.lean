import TimeTracker.Cpp.Requests
import TimeTracker.TwoBackends

/-!
# An app that is deleted and still watched

`deleteProcess` takes an app out of the store, and its `emplace` leaves it in the process map. It is
scanned as before, and its sessions go on sending events; but there are no totals any more for these
to read, and `as_integer` throws.

* `deleting`: the tracker with its requests, and `deleteProcess` at any moment.
* `Gone`: the totals of an app are missing, and no request is under way that would write one.
* **`deletedAppStopsRecording`**: no event of a total of a deleted app is sent any more, and the
  first that is tried ends the recording of all apps.
-/

namespace TimeTracker.Cpp

open Transition FirebaseClient

/-! ## The program -/

namespace Recording

/-- `TimeTracking::deleteProcess`, where the request of `deleteData` is carried out or fails. -/
def deleteProcess (ok : Bool) (process : String) (c : Recording) : Recording :=
  if process ∈ c.tasking.processMap then
    if ok then
      { c with
        tasking :=
          { c.tasking with processMap := c.tasking.processMap.emplace process (true, true) }
        db := c.db.write (segments ("apps/" ++ process)) .null }
    else c
  else c

end Recording

inductive DeletingLabel where
  /-- the tracker -/
  | recording (l : RecordingLabel)
  /-- the user interface -/
  | deleteProcess (ok : Bool) (process : String)

def Recording.deletingStep (c : Recording) : DeletingLabel → Option Recording
  | .recording l => c.step l
  | .deleteProcess ok process => some (c.deleteProcess ok process)

/-- The C++ tracker with its requests, while its user deletes apps. -/
def deleting : System Recording DeletingLabel := ⟨Recording.deletingStep⟩

/-- The `GET` of a total of `p`. -/
def asksTotalOf (p : String) (c : Recording) : DeletingLabel → Bool
  | .recording (.getData _ _) => c.call.any fun call => call.process = p && call.type ≠ .timeline
  | _ => false

/-- No request for a total of `p` is past its `GET`. -/
def NotUnderWay (p : String) (c : Recording) : Prop :=
  ∀ call ∈ c.call, call.process = p → call.type ≠ .timeline →
    call.point = .getData ∨ call.point = .thrown

/-- The totals of `p` are missing, and nobody is about to write one. -/
structure Gone (p : String) (c : Recording) : Prop where
  totals : ∀ t : Total, c.db.atPath (appPath p t.key) = .null
  notUnderWay : NotUnderWay p c

/-! ## Requests -/

section
variable {p q : String} {db : Json.Value}

/-- What is written below another app is not seen. -/
theorem atPath_write_other (hne : q ≠ p) (rest : List String) (x : Json.Value) (key : String) :
    (db.write ("apps" :: q :: rest) x).atPath (appPath p key) = db.atPath (appPath p key) := by
  apply Json.Value.atPath_write_of_apart
  · simp [appPath, List.cons_prefix_cons, hne]
  · simp [appPath, List.cons_prefix_cons, Ne.symm hne]

/-- The totals of an app that has been deleted. -/
theorem atPath_deleted (hp : IsKey p) (key : String) :
    (db.write (segments ("apps/" ++ p)) .null).atPath (appPath p key) = .null := by
  have hpath : appPath p key = segments ("apps/" ++ p) ++ [key] := by
    rw [segments_apps, segments_of_isKey hp]
    rfl
  rw [hpath, Json.Value.atPath_append, Json.Value.atPath_write_self, Json.Value.atPath_null]

/-- A request writes a total of `p` only for an event of `p` that is not `TIMELINE`. -/
theorem send_other (hq : IsKey q) {type : RecieveTypes} {data : Int} {time : NaiveDate}
    {answer : Json.Value} {request : Write} (hother : q = p → type = .timeline)
    (h : onDataRecieve type q data time answer = some request) (t : Total) :
    (request.send db).atPath (appPath p t.key) = db.atPath (appPath p t.key) := by
  have hmember : ∀ (key : String) (x : Json.Value), IsKey key → q ≠ p →
      (Write.send db (.patchData q key x)).atPath (appPath p t.key) =
        db.atPath (appPath p t.key) := by
    intro key x hkey hne
    show (db.write _ _).atPath _ = _
    rw [segments_member hq hkey]
    exact atPath_write_other hne _ x t.key
  -- an entry is beside the totals
  have hentry : ∀ x, (db.write (entryPath q time) x).atPath (appPath p t.key) =
      db.atPath (appPath p t.key) := by
    intro x
    apply Json.Value.atPath_write_of_apart
    · simp [entryPath, appPath, List.cons_prefix_cons]
    · simp [entryPath, appPath, List.cons_prefix_cons, t.key_ne_timeline]
  cases type with
  | longestSession =>
    obtain ⟨v, -, rfl⟩ := Option.map_eq_some_iff.mp h
    exact hmember _ _ (by decide) fun heq => RecieveTypes.noConfusion (hother heq)
  | duration =>
    obtain ⟨v, -, rfl⟩ := Option.map_eq_some_iff.mp h
    exact hmember _ _ (by decide) fun heq => RecieveTypes.noConfusion (hother heq)
  | launches =>
    obtain ⟨v, -, rfl⟩ := Option.map_eq_some_iff.mp h
    exact hmember _ _ (by decide) fun heq => RecieveTypes.noConfusion (hother heq)
  | timeline =>
    simp only [onDataRecieve] at h
    split at h
    · cases h
      show (db.write _ _).atPath _ = _
      rw [segments_entry hq]
      exact hentry _
    · obtain ⟨v, -, rfl⟩ := Option.map_eq_some_iff.mp h
      show (db.write _ _).atPath _ = _
      rw [segments_patch hq]
      exact hentry _

/-- The `GET` of a total that is missing answers `null`. -/
theorem getDataBase_gone (hp : IsKey p) (hgone : ∀ t : Total, db.atPath (appPath p t.key) = .null)
    {type : RecieveTypes} (htype : type ≠ .timeline) (ok : Bool) (time : NaiveDate) :
    getDataBase ok db (searchQuery type p time) = .null := by
  have hmember : ∀ t : Total, getData db ("apps/" ++ p ++ ("/" ++ t.key)) = .null := by
    intro t
    rw [← String.append_assoc, getData_member db hp t.isKey]
    exact hgone t
  cases ok with
  | false => rfl
  | true =>
    cases type with
    | longestSession => exact hmember .longestSession
    | duration => exact hmember .duration
    | launches => exact hmember .launches
    | timeline => exact absurd rfl htype

end

/-! ## Every step -/

section
variable {names : List String} {p : String} {c c' : Recording}

/-- A delete leaves the scanner, the tasks and the call alone. -/
theorem deleteProcess_cases (ok : Bool) (q : String) :
    c.deleteProcess ok q = c ∨ q ∈ c.tasking.processMap ∧
      c.deleteProcess ok q = { c with db := c.db.write (segments ("apps/" ++ q)) .null } := by
  unfold Recording.deleteProcess
  split
  · next hmem =>
    split
    · refine .inr ⟨hmem, ?_⟩
      rw [ProcessMap.emplace, if_pos hmem]
    · exact .inl rfl
  · exact .inl rfl

theorem calling_deleteProcess (h : Calling names c) (ok : Bool) (q : String) :
    Calling names (c.deleteProcess ok q) := by
  rcases deleteProcess_cases (c := c) ok q with hsame | ⟨-, hdb⟩
  · rw [hsame]
    exact h
  · rw [hdb]
    exact ⟨h.about, h.call⟩

theorem calling_deletingStep {l : DeletingLabel} (h : Calling names c)
    (hstep : deleting.step c l = some c') : Calling names c' := by
  cases l with
  | recording l => exact calling_step h hstep
  | deleteProcess ok q =>
    cases hstep
    exact calling_deleteProcess h ok q

/-- **A delete**: the totals of the app are missing, and those of other apps are as they were. -/
theorem gone_deleteProcess (hkeys : ∀ q ∈ names, IsKey q) (hcalling : Calling names c)
    (hgone : Gone p c) (ok : Bool) (q : String) : Gone p (c.deleteProcess ok q) := by
  rcases deleteProcess_cases (c := c) ok q with hsame | ⟨hmem, hdb⟩
  · rw [hsame]
    exact hgone
  · rw [hdb]
    have hq : IsKey q := hkeys q (hcalling.about.map q hmem)
    refine ⟨fun t => ?_, hgone.notUnderWay⟩
    by_cases hqp : q = p
    · subst hqp
      exact atPath_deleted hq t.key
    · show (c.db.write _ _).atPath _ = _
      rw [segments_apps, segments_of_isKey hq, atPath_write_other hqp]
      exact hgone.totals t

/-- **What is missing stays missing**, and the `GET` that looks for it throws. -/
theorem gone_step (hkeys : ∀ q ∈ names, IsKey q) (hcalling : Calling names c) (hp : IsKey p)
    {l : RecordingLabel} (hgone : Gone p c) (h : recording.step c l = some c') :
    Gone p c' ∧ (asksTotalOf p c (.recording l) = true → c'.hasThrown) := by
  cases l with
  | delegate order running =>
    obtain ⟨t, -, rfl⟩ := recording_delegate h
    exact ⟨⟨hgone.totals, hgone.notUnderWay⟩, fun hask => by cases hask⟩
  | task k launched due =>
    obtain ⟨t, -, rfl⟩ := recording_task_sends h
    exact ⟨⟨hgone.totals, hgone.notUnderWay⟩, fun hask => by cases hask⟩
  | lock k minutes =>
    obtain ⟨_, _, -, -, -, -, rfl⟩ := recording_lock h
    refine ⟨⟨hgone.totals, fun call hcall _ _ => ?_⟩, fun hask => by cases hask⟩
    cases hcall
    exact .inl rfl
  | getData response time =>
    obtain ⟨k, type, process, minutes, hcall, ⟨-, rfl⟩ | ⟨request, -, hrequest, rfl⟩⟩ :=
      recording_getData h
    · refine ⟨⟨hgone.totals, fun call hmem _ _ => ?_⟩, fun _ => ⟨_, rfl, rfl⟩⟩
      cases hmem
      exact .inr rfl
    -- there is an answer to write from, so this is no total of `p`
    · have hother : process = p → ¬ type ≠ .timeline := by
        rintro rfl htype
        rw [getDataBase_gone hp hgone.totals htype, onDataRecieve_null.mpr htype] at hrequest
        cases hrequest
      refine ⟨⟨hgone.totals, fun call hmem hprocess htype => ?_⟩, fun hask => ?_⟩
      · cases hmem
        exact absurd htype (hother hprocess)
      · rw [asksTotalOf, hcall, Option.any_some, Bool.and_eq_true] at hask
        exact absurd (of_decide_eq_true hask.2) (hother (of_decide_eq_true hask.1))
  | write response carriedOut =>
    obtain ⟨k, type, process, minutes, time, answered, request, written, hcall, rfl⟩ :=
      recording_write h
    have hother : process = p → type = .timeline := by
      intro hprocess
      by_contra htype
      rcases hgone.notUnderWay _ hcall hprocess htype with hpoint | hpoint <;> cases hpoint
    obtain ⟨answer, hrequest⟩ := (hcalling.call _ hcall).request time answered request rfl
    have hq : IsKey process := hkeys _ (hcalling.process_mem hcall)
    refine ⟨⟨fun t => ?_, fun call hmem hprocess htype => ?_⟩, fun hask => by cases hask⟩
    · cases written with
      | true => exact (send_other hq hother hrequest t).trans (hgone.totals t)
      | false => exact hgone.totals t
    · cases hmem
      exact absurd (hother hprocess) htype
  | unlock =>
    obtain ⟨_, _, _, _, t, -, -, rfl⟩ := recording_unlock h
    exact ⟨⟨hgone.totals, fun call hmem => by cases hmem⟩, fun hask => by cases hask⟩

/-- What a step sends of `p` is `TIMELINE`. -/
theorem sent_step (hcalling : Calling names c) (hgone : NotUnderWay p c) {l : RecordingLabel}
    (h : recording.step c l = some c') :
    ∃ new, c'.tasking.sent = c.tasking.sent ++ new ∧
      ∀ e ∈ new, e.1 = p → e.2 = RecieveTypes.timeline := by
  have hnothing : ∀ {t : Tasking}, t.sent = c.tasking.sent →
      ∃ new, t.sent = c.tasking.sent ++ new ∧
        ∀ e ∈ new, e.1 = p → e.2 = RecieveTypes.timeline := by
    intro t hsent
    exact ⟨[], by rw [hsent, List.append_nil], fun _ hmem => by cases hmem⟩
  cases l with
  | delegate order running =>
    obtain ⟨t, hstep, rfl⟩ := recording_delegate h
    exact hnothing (tasks_delegate hstep).1
  | task k launched due =>
    obtain ⟨t, hsent, rfl⟩ := recording_task_sends h
    exact hnothing hsent
  | lock k minutes =>
    obtain ⟨_, _, -, -, -, -, rfl⟩ := recording_lock h
    exact hnothing rfl
  | getData response time =>
    obtain ⟨_, _, _, _, -, ⟨-, rfl⟩ | ⟨_, -, -, rfl⟩⟩ := recording_getData h
    · exact hnothing rfl
    · exact hnothing rfl
  | write response carriedOut =>
    obtain ⟨_, _, _, _, _, _, _, _, -, rfl⟩ := recording_write h
    exact hnothing rfl
  | unlock =>
    obtain ⟨k, type, process, minutes, t, hcall, hsent, rfl⟩ := recording_unlock_sends hcalling h
    refine ⟨[(process, type)], hsent, fun e hmem hprocess => ?_⟩
    rw [List.mem_singleton.mp hmem] at hprocess ⊢
    by_contra htype
    rcases hgone _ hcall hprocess htype with hpoint | hpoint <;> cases hpoint

/-- With the mutex locked for good, a delete changes nothing either. -/
theorem frozen_deletingStep {l : DeletingLabel} (hthrown : c.hasThrown)
    (h : deleting.step c l = some c') :
    c'.hasThrown ∧ c'.recorded = c.recorded ∧ c'.tasking.sent = c.tasking.sent := by
  cases l with
  | recording l =>
    obtain ⟨hcall, -, hrecorded, hsent⟩ := frozen_step hthrown h
    refine ⟨?_, hrecorded, hsent⟩
    rw [Recording.hasThrown, hcall]
    exact hthrown
  | deleteProcess ok q =>
    cases h
    rcases deleteProcess_cases (c := c) ok q with hsame | ⟨-, hdb⟩
    · rw [hsame]
      exact ⟨hthrown, rfl, rfl⟩
    · rw [hdb]
      exact ⟨hthrown, rfl, rfl⟩

/-- What is said of the run since the delete, which `sent` events have gone before: no total of `p`
has been sent, and whether a `GET` has asked for one. -/
structure DeletedInvariant (names : List String) (p : String)
    (sent : List (String × RecieveTypes)) (asked : Bool) (c : Recording) : Prop where
  calling : Calling names c
  gone : Gone p c
  sent : ∃ new, c.tasking.sent = sent ++ new ∧
    ∀ e ∈ new, e.1 = p → e.2 = RecieveTypes.timeline
  thrown : asked = true → c.hasThrown

theorem deletedInvariant_step {sent : List (String × RecieveTypes)} {asked : Bool}
    {l : DeletingLabel} (hkeys : ∀ q ∈ names, IsKey q) (hp : IsKey p)
    (hinv : DeletedInvariant names p sent asked c) (h : deleting.step c l = some c') :
    DeletedInvariant names p sent (asked || asksTotalOf p c l) c' := by
  have hcalling := calling_deletingStep hinv.calling h
  obtain ⟨new, hsent, hnew⟩ := hinv.sent
  cases l with
  | recording l =>
    obtain ⟨hgone, hasks⟩ := gone_step hkeys hinv.calling hp hinv.gone h
    obtain ⟨more, hmore, hall⟩ := sent_step hinv.calling hinv.gone.notUnderWay h
    refine ⟨hcalling, hgone, ⟨new ++ more, ?_, fun e hmem => ?_⟩, fun hasked => ?_⟩
    · rw [hmore, hsent, List.append_assoc]
    · rcases List.mem_append.mp hmem with hmem | hmem
      · exact hnew e hmem
      · exact hall e hmem
    · rcases Bool.or_eq_true_iff.mp hasked with hbefore | hnow
      · exact (frozen_deletingStep (l := .recording l) (hinv.thrown hbefore) h).1
      · exact hasks hnow
  | deleteProcess ok q =>
    have hgone : Gone p c' := by
      cases h
      exact gone_deleteProcess hkeys hinv.calling hinv.gone ok q
    have hsame : c'.tasking.sent = c.tasking.sent ∧ c'.call = c.call := by
      cases h
      rcases deleteProcess_cases (c := c) ok q with hsame | ⟨-, hdb⟩
      · rw [hsame]
        exact ⟨rfl, rfl⟩
      · rw [hdb]
        exact ⟨rfl, rfl⟩
    refine ⟨hcalling, hgone, ⟨new, hsame.1.trans hsent, hnew⟩, fun hasked => ?_⟩
    rw [Recording.hasThrown, hsame.2]
    exact hinv.thrown ((Bool.or_false asked).symm.trans hasked)

/-- **Deleting an app ends the recording.** After the delete of an app that the tracker watches,
with none of its totals under way, whatever the tasks, the scanner and further deletes do: no total
of the app is sent any more; once a task has asked the store for one, the mutex is locked for good;
and from then on nothing is recorded or sent of any app. -/
theorem deletedAppStopsRecording {map : ProcessMap} {db : Json.Value} {ls ls' : List DeletingLabel}
    (hkeys : ∀ q ∈ names, IsKey q) (hmap : ∀ q ∈ map, q ∈ names)
    (h : deleting.Runs (fun _ _ => True) (.initial map db) ls c) (hp : p ∈ c.tasking.processMap)
    (hidle : NotUnderWay p c)
    (h' : deleting.Runs (fun _ _ => True) (c.deleteProcess true p) ls' c') :
    (∃ new, c'.tasking.sent = c.tasking.sent ++ new ∧
      ∀ e ∈ new, e.1 = p → e.2 = RecieveTypes.timeline) ∧
    (deleting.history (fun asked c l => asked || asksTotalOf p c l) false
      (c.deleteProcess true p) ls' = true → c'.hasThrown) ∧
    (c'.hasThrown → ∀ ls'' c'', deleting.Runs (fun _ _ => True) c' ls'' c'' →
      c''.recorded = c'.recorded ∧ c''.tasking.sent = c'.tasking.sent) := by
  have hcalling : Calling names c :=
    h.invariant (fun _ _ _ hinv _ hstep => calling_deletingStep hinv hstep) (calling_initial hmap)
  have hkey : IsKey p := hkeys p (hcalling.about.map p hp)
  have hdeleted : c.deleteProcess true p =
      { c with db := c.db.write (segments ("apps/" ++ p)) .null } := by
    rw [Recording.deleteProcess, if_pos hp, if_pos rfl, ProcessMap.emplace, if_pos hp]
  have hstart : DeletedInvariant names p c.tasking.sent false (c.deleteProcess true p) := by
    rw [hdeleted]
    refine ⟨⟨hcalling.about, hcalling.call⟩, ⟨fun t => atPath_deleted hkey t.key, hidle⟩,
      ⟨[], (List.append_nil _).symm, fun _ hmem => by cases hmem⟩, fun hasked => ?_⟩
    cases hasked
  have hinv := h'.invariant_history
    (g := fun asked c l => asked || asksTotalOf p c l)
    (I := fun asked c' => DeletedInvariant names p c.tasking.sent asked c')
    (fun _ _ _ _ hinv _ hstep => deletedInvariant_step hkeys hkey hinv hstep) hstart
  refine ⟨hinv.sent, hinv.thrown, fun hthrown ls'' c'' hrun => ?_⟩
  have hfrozen := hrun.invariant (I := fun d => d.hasThrown ∧ d.recorded = c'.recorded ∧
    d.tasking.sent = c'.tasking.sent) ?_ ⟨hthrown, rfl, rfl⟩
  · exact hfrozen.2
  · rintro d l d' ⟨hstill, hrecorded, hsent⟩ - hstep
    obtain ⟨hstill', hrecorded', hsent'⟩ := frozen_deletingStep hstill hstep
    exact ⟨hstill', hrecorded'.trans hrecorded, hsent'.trans hsent⟩

end

/-- The task of `a` goes on to send its launch. -/
def sendsLaunch : List DeletingLabel :=
  [.recording (.lock 0 0), .recording (.getData .ok NaiveDateTime.unixEpoch.date)]

theorem deletedAppStopsRecording_sendsLaunch :
    ∃ c c', deleting.execWhere (fun _ _ => True) (.initial mapOfA treeWithA)
        (taskStarts.map .recording) = some c ∧
      deleting.execWhere (fun _ _ => True) (c.deleteProcess true "a") sendsLaunch = some c' ∧
      c'.hasThrown ∧ ∀ ls'' c'', deleting.Runs (fun _ _ => True) c' ls'' c'' →
        c''.recorded = c'.recorded ∧ c''.tasking.sent = c'.tasking.sent := by
  have hend : (deleting.execWhere (fun _ _ => True) (.initial mapOfA treeWithA)
      (taskStarts.map .recording)).map (fun c => decide ("a" ∈ c.tasking.processMap ∧
        c.call.isNone = true ∧
        (deleting.execWhere (fun _ _ => True) (c.deleteProcess true "a") sendsLaunch).isSome = true ∧
        deleting.history (fun asked c l => asked || asksTotalOf "a" c l) false
          (c.deleteProcess true "a") sendsLaunch = true)) = some true := by decide
  obtain ⟨c, hexec, hc⟩ := Option.map_eq_some_iff.mp hend
  obtain ⟨hmem, hnone, hsome, hasked⟩ := of_decide_eq_true hc
  obtain ⟨c', hexec'⟩ := Option.isSome_iff_exists.mp hsome
  have hidle : NotUnderWay "a" c := by
    intro call hcall
    rw [Option.isNone_iff_eq_none.mp hnone] at hcall
    cases hcall
  have hkeys : ∀ q ∈ ["a"], IsKey q := by decide
  obtain ⟨-, hthrows, hstops⟩ := deletedAppStopsRecording hkeys (by decide)
    (System.runs_of_execWhere hexec) hmem hidle (System.runs_of_execWhere hexec')
  have hthrown : c'.hasThrown := hthrows hasked
  exact ⟨c, c', hexec, hexec', hthrown, hstops hthrown⟩

end TimeTracker.Cpp
