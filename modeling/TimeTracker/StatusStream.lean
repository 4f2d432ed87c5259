import TimeTracker.ClientOwnership

/-!
# The stored status and the broadcast stream

`broadcast_tracking_status` stores the status and then enqueues it, and a caller holds no lock
from the one to the other. Two calls can therefore store in one order and enqueue in the other.

* **`statusAgrees_iff`**: in every state of every run, the stored status is that of the last
  `TrackingStatusUpdate` if and only if the call that stored last and the call that enqueued last
  carry the same status.
* **`statusAgrees_of_serial`**: calls that do not overlap leave the two in agreement.
* **`overtaken_disagrees`**: one call takes both its steps between the two of another one.
-/

namespace TimeTracker

/-! ## The two ends of a call -/

/-- `get_current_tracking_status`, with its lock not poisoned. -/
def Hub.getCurrentTrackingStatus (hub : Hub) : TrackingStatus := hub.trackingStatus

/-- The status of a `TrackingStatusUpdate`. -/
def BroadcastMessage.reportedStatus : BroadcastMessage → Option TrackingStatus
  | .trackingStatusUpdate status => some status
  | _ => none

/-- The status in the last `TrackingStatusUpdate` among the messages. -/
def lastReported (messages : List BroadcastMessage) : Option TrackingStatus :=
  (messages.filterMap BroadcastMessage.reportedStatus).getLast?

/-- A client that asks and a client that listens end with the same status. -/
def WebSocketServer.StatusAgrees (s : WebSocketServer) : Prop :=
  ∀ status, lastReported s.hub.broadcasts.sent = some status →
    s.hub.getCurrentTrackingStatus = status

/-- The call that stores its status in this step. -/
def WebSocketServer.storing (s : WebSocketServer) : ServerLabel → Option Nat
  | .statusCall k => (s.statusCalls[k]?).bind fun call => if call.point = .store then some k else none
  | _ => none

/-- The call that enqueues its status in this step. -/
def WebSocketServer.enqueuing (s : WebSocketServer) : ServerLabel → Option Nat
  | .statusCall k =>
    (s.statusCalls[k]?).bind fun call => if call.point = .enqueue then some k else none
  | _ => none

/-- The call that stored last in a run from the start. -/
def lastStoring (statuses : List TrackingStatus) (ls : List ServerLabel) : Option Nat :=
  webSocketServer.history (Transition.System.lastWrite WebSocketServer.storing) none (.initial statuses) ls

/-- The call that enqueued last in a run from the start. -/
def lastEnqueuing (statuses : List TrackingStatus) (ls : List ServerLabel) : Option Nat :=
  webSocketServer.history (Transition.System.lastWrite WebSocketServer.enqueuing) none (.initial statuses) ls

/-- Only the calls report a status. -/
def ServerLabel.postsNoStatus : ServerLabel → Bool
  | .post message => message.reportedStatus.isNone
  | _ => true

theorem lastReported_concat (messages : List BroadcastMessage) (message : BroadcastMessage) :
    lastReported (messages ++ [message]) = message.reportedStatus.or (lastReported messages) := by
  unfold lastReported
  rw [List.filterMap_append]
  cases hstatus : message.reportedStatus with
  | none => simp [hstatus]
  | some status => simp [hstatus]

/-! ## What the steps do to the status and the stream -/

section
variable {hub hub' : Hub}

/-- The broadcaster takes from the stream. -/
theorem Broadcaster.step_stream {order : List ClientId} {b b' : Broadcaster}
    (h : b.step order hub = some (b', hub')) :
    hub'.trackingStatus = hub.trackingStatus ∧ hub'.broadcasts.sent = hub.broadcasts.sent := by
  rcases Broadcaster.step_cases h with ⟨_, _, -, hrecv, -, rfl⟩ | ⟨_, _, -, -, -, rfl⟩ |
    ⟨_, _, _, _, _, -, rfl, -⟩ | ⟨_, _, _, _, _, -, ⟨hsend, -⟩ | ⟨-, rfl, -⟩⟩ |
    ⟨_, -, -, rfl⟩ | ⟨_, _, _, -, rfl, -⟩ | ⟨_, _, _, _, -, -, rfl⟩
  · exact ⟨rfl, (Channel.recv_eq_some hrecv).2.1⟩
  · exact ⟨rfl, rfl⟩
  · exact ⟨rfl, rfl⟩
  · obtain ⟨_, _, _, rfl⟩ := Hub.sendAt_eq_some hsend
    exact ⟨rfl, rfl⟩
  · exact ⟨rfl, rfl⟩
  · exact ⟨rfl, rfl⟩
  · exact ⟨rfl, rfl⟩
  · exact ⟨rfl, rfl⟩

/-- A connection thread enqueues, but no status. -/
theorem Connection.step_stream {socket : Socket} {conn conn' : Connection}
    (hwf : conn.WellFormed) (h : conn.step socket hub = some (conn', hub')) :
    hub'.trackingStatus = hub.trackingStatus ∧
      lastReported hub'.broadcasts.sent = lastReported hub.broadcasts.sent := by
  obtain ⟨-, hcases⟩ := Connection.step_cases h
  rcases hcases with ⟨rfl, -⟩ | ⟨-, rfl, -⟩ | ⟨message, point, rfl, -, hpoint⟩ |
    ⟨-, rfl, -⟩ | ⟨sender, -, -, rfl, -⟩ | ⟨_, _, _, _, -, -, -, -, rfl, -⟩ | ⟨-, rfl, -⟩ |
    ⟨-, rfl, -⟩
  · exact ⟨rfl, rfl⟩
  · exact ⟨rfl, rfl⟩
  -- a message that names the client, or asks for topics: no status
  · have hnone : message.reportedStatus = none := by
      rcases hpoint with ⟨-, rfl, -⟩ | ⟨hpoint, -⟩ | ⟨-, rfl, -⟩
      · rfl
      · obtain ⟨topics, rfl | rfl⟩ := hwf.request message hpoint <;> rfl
      · rfl
    refine ⟨rfl, ?_⟩
    show lastReported (hub.broadcasts.push message).sent = _
    rw [Channel.sent_push, lastReported_concat, hnone, Option.none_or]
  · exact ⟨rfl, rfl⟩
  · obtain ⟨-, -, hbroadcasts, hstatus⟩ := replaceSender_frame conn sender hub
    exact ⟨hstatus, by rw [hbroadcasts]⟩
  · exact ⟨rfl, rfl⟩
  · exact ⟨rfl, rfl⟩
  · obtain ⟨-, -, hbroadcasts, hstatus, -⟩ := closeOutgoing_frame conn hub
    exact ⟨hstatus, by rw [hbroadcasts]⟩

end

/-- A step of no call touches neither the status nor what was broadcast last. -/
theorem step_stream {s s' : WebSocketServer} {l : ServerLabel} (hsep : s.Separate)
    (hposts : l.postsNoStatus = true) (hcall : ∀ k, l ≠ .statusCall k)
    (h : webSocketServer.step s l = some s') :
    s'.statusCalls = s.statusCalls ∧ s'.hub.trackingStatus = s.hub.trackingStatus ∧
      lastReported s'.hub.broadcasts.sent = lastReported s.hub.broadcasts.sent := by
  cases l with
  | broadcast order =>
    obtain ⟨b, hub, hstep, rfl⟩ := server_broadcast h
    obtain ⟨hstatus, hsent⟩ := Broadcaster.step_stream hstep
    exact ⟨rfl, hstatus, congrArg lastReported hsent⟩
  | accept =>
    cases h
    exact ⟨rfl, rfl, rfl⟩
  | connection k socket =>
    obtain ⟨conn, conn', hub, hk, hstep, rfl⟩ := server_connection h
    have hwf := hsep.wellFormed conn (List.mem_of_getElem? hk)
    exact ⟨rfl, Connection.step_stream hwf hstep⟩
  | statusCall k => exact absurd rfl (hcall k)
  | post message =>
    cases h
    refine ⟨rfl, rfl, ?_⟩
    show lastReported (s.hub.broadcasts.push message).sent = _
    rw [Channel.sent_push, lastReported_concat, Option.isNone_iff_eq_none.mp hposts,
      Option.none_or]

/-! ## The invariant -/

/-- The calls carry the statuses, `last` is the call that stored last, and `last'` the one that
enqueued last. -/
structure StatusInvariant (statuses : List TrackingStatus) (last last' : Option Nat)
    (s : WebSocketServer) : Prop where
  separate : s.Separate
  calls : s.statusCalls.map StatusCall.status = statuses
  /-- A call that enqueues has stored before. -/
  begun : (∃ call ∈ s.statusCalls, call.point ≠ .store) → last ≠ none
  stored : ∀ j, last = some j → statuses[j]? = some s.hub.trackingStatus
  sent : lastReported s.hub.broadcasts.sent = last'.bind fun k => statuses[k]?
  valid : ∀ k, last' = some k → last ≠ none ∧ k < statuses.length

theorem statusInvariant_initial (statuses : List TrackingStatus) :
    StatusInvariant statuses none none (.initial statuses) := by
  refine ⟨WebSocketServer.separate_initial statuses, ?_, ?_, ?_, rfl, ?_⟩
  · show (statuses.map _).map _ = statuses
    rw [List.map_map]
    exact List.map_id statuses
  · intro ⟨call, hcall, hpoint⟩
    obtain ⟨status, -, rfl⟩ := List.mem_map.mp hcall
    exact absurd rfl hpoint
  · intro j h
    cases h
  · intro k h
    cases h

section
variable {statuses : List TrackingStatus} {last last' : Option Nat} {s s' : WebSocketServer}

/-- A step of no call. -/
theorem StatusInvariant.frame (hinv : StatusInvariant statuses last last' s)
    (hsep : s'.Separate) (hcalls : s'.statusCalls = s.statusCalls)
    (hstatus : s'.hub.trackingStatus = s.hub.trackingStatus)
    (hsent : lastReported s'.hub.broadcasts.sent = lastReported s.hub.broadcasts.sent) :
    StatusInvariant statuses last last' s' := by
  refine ⟨hsep, ?_, ?_, ?_, hsent.trans hinv.sent, hinv.valid⟩
  · rw [hcalls]
    exact hinv.calls
  · rw [hcalls]
    exact hinv.begun
  · rw [hstatus]
    exact hinv.stored

/-- A call stores or enqueues the status it carries. -/
theorem statusInvariant_statusCall {k : Nat} (hinv : StatusInvariant statuses last last' s)
    (h : webSocketServer.step s (.statusCall k) = some s') :
    StatusInvariant statuses ((s.storing (.statusCall k)).or last)
      ((s.enqueuing (.statusCall k)).or last') s' := by
  have hsep := WebSocketServer.separate_step s _ s' hinv.separate h
  obtain ⟨call, call', hub, hk, hstep, rfl⟩ := server_statusCall h
  obtain ⟨hsame, hcases⟩ := StatusCall.step_cases hstep
  have hcarries : statuses[k]? = some call.status := by
    rw [← hinv.calls, List.getElem?_map, hk]
    rfl
  have hcalls : (s.statusCalls.set k call').map StatusCall.status = statuses := by
    rw [List.map_set, hinv.calls, hsame]
    obtain ⟨hlt, heq⟩ := List.getElem?_eq_some_iff.mp hcarries
    rw [← heq, List.set_getElem_self hlt]
  have hstoring : s.storing (.statusCall k) = if call.point = .store then some k else none := by
    show (s.statusCalls[k]?).bind _ = _
    rw [hk]
    rfl
  have henqueuing : s.enqueuing (.statusCall k) =
      if call.point = .enqueue then some k else none := by
    show (s.statusCalls[k]?).bind _ = _
    rw [hk]
    rfl
  rw [hstoring, henqueuing]
  rcases hcases with ⟨hpoint, -, rfl⟩ | ⟨hpoint, -, rfl⟩
  · -- the call has stored its status; the stream is as it was
    rw [hpoint]
    refine ⟨hsep, hcalls, fun _ => by simp, fun j hj => ?_, hinv.sent, fun j hj => ?_⟩
    · cases hj
      exact hcarries
    · exact ⟨by simp, (hinv.valid j hj).2⟩
  · -- the call has enqueued its status; it had stored it in an earlier step
    have hbegun : last ≠ none := hinv.begun
      ⟨call, List.mem_of_getElem? hk, by rw [hpoint]; simp⟩
    have hlt : k < statuses.length := (List.getElem?_eq_some_iff.mp hcarries).1
    rw [hpoint]
    refine ⟨hsep, hcalls, fun _ => hbegun, hinv.stored, ?_, fun j hj => ?_⟩
    · show lastReported (s.hub.broadcasts.push _).sent = statuses[k]?
      rw [Channel.sent_push, lastReported_concat, hcarries]
      rfl
    · cases hj
      exact ⟨hbegun, hlt⟩

/-- **Every step** moves the two histories as it moves the status and the stream. -/
theorem statusInvariant_step {l : ServerLabel} (hinv : StatusInvariant statuses last last' s)
    (hposts : l.postsNoStatus = true) (h : webSocketServer.step s l = some s') :
    StatusInvariant statuses ((s.storing l).or last) ((s.enqueuing l).or last') s' := by
  have hsep := WebSocketServer.separate_step s l s' hinv.separate h
  cases l with
  | statusCall k => exact statusInvariant_statusCall hinv h
  | _ =>
    obtain ⟨hcalls, hstatus, hsent⟩ := step_stream hinv.separate hposts (by simp) h
    exact hinv.frame hsep hcalls hstatus hsent

end

/-! ## Runs -/

/-- **When the two agree.** In every state of every run, and so once all calls have returned,
the stored status is the one broadcast last if and only if the last call to store and the last
call to enqueue carry the same status. -/
theorem statusAgrees_iff {statuses : List TrackingStatus} {ls : List ServerLabel}
    {s : WebSocketServer}
    (hrun : webSocketServer.Runs (fun _ l => l.postsNoStatus = true) (.initial statuses) ls s) :
    s.StatusAgrees ↔ ∀ j k, lastStoring statuses ls = some j →
      lastEnqueuing statuses ls = some k → statuses[j]? = statuses[k]? := by
  have hinv : StatusInvariant statuses (lastStoring statuses ls) (lastEnqueuing statuses ls) s := by
    have hboth := hrun.invariant_history
      (g := fun (last : Option Nat × Option Nat) s l =>
        (Transition.System.lastWrite WebSocketServer.storing last.1 s l,
          Transition.System.lastWrite WebSocketServer.enqueuing last.2 s l))
      (I := fun last s => StatusInvariant statuses last.1 last.2 s)
      (fun _ _ _ _ hinv hposts h => statusInvariant_step hinv hposts h)
      (a := (none, none)) (statusInvariant_initial statuses)
    rw [Transition.System.history_prod (Transition.System.lastWrite WebSocketServer.storing)
      (Transition.System.lastWrite WebSocketServer.enqueuing)] at hboth
    exact hboth
  unfold WebSocketServer.StatusAgrees
  constructor
  · intro hagrees j k hj hk
    have hlt := (hinv.valid k hk).2
    have hsent := hinv.sent
    rw [hk, Option.bind_some, List.getElem?_eq_getElem hlt] at hsent
    rw [hinv.stored j hj, List.getElem?_eq_getElem hlt, ← hagrees _ hsent]
    rfl
  · intro hsame status hlast
    rw [hinv.sent] at hlast
    obtain ⟨k, hk, hstatus⟩ := Option.bind_eq_some_iff.mp hlast
    -- what has been enqueued had been stored
    obtain ⟨j, hj⟩ := Option.ne_none_iff_exists'.mp (hinv.valid k hk).1
    have hstored := hinv.stored j hj
    rw [hsame j k hj hk, hstatus] at hstored
    exact (Option.some.inj hstored).symm

/-! A run of the theorem, and two calls that disagree. -/

/-- A session of `a` starts. -/
def startOfA : TrackingStatus :=
  { TrackingStatus.idle with isTracking := true, currentApp := some "a" }

/-- A session of `b` ends and one of `a` starts: the second call stores and enqueues between the
two steps of the first. -/
def overtaken : List ServerLabel :=
  [.statusCall 0, .statusCall 1, .statusCall 1, .statusCall 0]

/-- The first call stores last if the second one comes first. -/
theorem statusAgrees_iff_overtaken :
    ∃ s, webSocketServer.execWhere (fun _ l => l.postsNoStatus = true)
        (.initial [.idle, startOfA]) overtaken = some s ∧
      (s.StatusAgrees ↔ ∀ j k, lastStoring [.idle, startOfA] overtaken = some j →
        lastEnqueuing [.idle, startOfA] overtaken = some k →
          [TrackingStatus.idle, startOfA][j]? = [TrackingStatus.idle, startOfA][k]?) := by
  have hend : (webSocketServer.execWhere (fun _ l => l.postsNoStatus = true)
      (.initial [.idle, startOfA]) overtaken).isSome = true := by decide
  obtain ⟨s, hexec⟩ := Option.isSome_iff_exists.mp hend
  exact ⟨s, hexec, statusAgrees_iff (Transition.System.runs_of_execWhere hexec)⟩

/-- All calls have returned; a client that asks is told of the session of `a`, and a client that
listens was last told that nothing is tracked. -/
theorem overtaken_disagrees :
    ∃ s, webSocketServer.Runs (fun _ _ => True) (.initial [.idle, startOfA]) overtaken s ∧
      (∀ call ∈ s.statusCalls, call.point = .returned) ∧ ¬ s.StatusAgrees := by
  have hend : (webSocketServer.exec (.initial [.idle, startOfA]) overtaken).map (fun s =>
      decide ((∀ call ∈ s.statusCalls, call.point = .returned) ∧
        lastReported s.hub.broadcasts.sent = some .idle ∧
        s.hub.getCurrentTrackingStatus ≠ .idle)) = some true := by decide
  obtain ⟨s, hexec, hs⟩ := Option.map_eq_some_iff.mp hend
  obtain ⟨hreturned, hlast, hne⟩ := of_decide_eq_true hs
  refine ⟨s, Transition.System.runs_of_exec hexec, hreturned, fun hagrees => ?_⟩
  exact hne (hagrees .idle hlast)

/-! ## Calls one after the other -/

/-- No call stores between the two steps of another one. -/
def storesAlone (s : WebSocketServer) : ServerLabel → Prop
  | .statusCall k => ∀ call ∈ s.statusCalls[k]?, call.point = .store →
    ∀ other ∈ s.statusCalls.eraseIdx k, other.point ≠ .enqueue
  | _ => True

/-- What is stored is what was enqueued last, or what the one call between its two steps is
going to enqueue. -/
structure SerialInvariant (s : WebSocketServer) : Prop where
  separate : s.Separate
  agrees : (∀ call ∈ s.statusCalls, call.point ≠ .enqueue) → s.StatusAgrees
  enqueuing : ∀ k call, s.statusCalls[k]? = some call → call.point = .enqueue →
    call.status = s.hub.trackingStatus ∧ ∀ other ∈ s.statusCalls.eraseIdx k, other.point ≠ .enqueue

theorem serialInvariant_initial (statuses : List TrackingStatus) :
    SerialInvariant (.initial statuses) := by
  refine ⟨WebSocketServer.separate_initial statuses, fun _ status h => ?_, fun k call hk hpoint => ?_⟩
  · cases h
  · obtain ⟨status, -, rfl⟩ := List.mem_map.mp (List.mem_of_getElem? hk)
    cases hpoint

section
variable {s s' : WebSocketServer}

/-- A step of no call. -/
theorem SerialInvariant.frame (hinv : SerialInvariant s) (hsep : s'.Separate)
    (hcalls : s'.statusCalls = s.statusCalls)
    (hstatus : s'.hub.trackingStatus = s.hub.trackingStatus)
    (hsent : lastReported s'.hub.broadcasts.sent = lastReported s.hub.broadcasts.sent) :
    SerialInvariant s' := by
  refine ⟨hsep, fun hnone status hlast => ?_, ?_⟩
  · rw [hcalls] at hnone
    rw [hsent] at hlast
    exact hstatus.trans (hinv.agrees hnone status hlast)
  · rw [hcalls, hstatus]
    exact hinv.enqueuing

/-- A call that stores while no other one is about to enqueue, or that enqueues. -/
theorem serialInvariant_statusCall {k : Nat} (hinv : SerialInvariant s)
    (halone : storesAlone s (.statusCall k))
    (h : webSocketServer.step s (.statusCall k) = some s') : SerialInvariant s' := by
  have hsep := WebSocketServer.separate_step s _ s' hinv.separate h
  obtain ⟨call, call', hub, hk, hstep, rfl⟩ := server_statusCall h
  obtain ⟨hsame, hcases⟩ := StatusCall.step_cases hstep
  have hmem : ∀ u, u ∈ s.statusCalls.set k call' ↔ u = call' ∨ u ∈ s.statusCalls.eraseIdx k :=
    fun u => Pool.mem_set call' hk
  have hothers : (s.statusCalls.set k call').eraseIdx k = s.statusCalls.eraseIdx k :=
    List.eraseIdx_set_eq
  have hself : (s.statusCalls.set k call')[k]? = some call' := Pool.getElem?_set_self hk
  rcases hcases with ⟨hpoint, hpoint', rfl⟩ | ⟨hpoint, hpoint', rfl⟩
  · have hquiet := halone call (Option.mem_def.mpr hk) hpoint
    refine ⟨hsep, fun hnone => ?_, fun j other hj henqueue => ?_⟩
    · exact absurd hpoint' (hnone call' ((hmem call').mpr (.inl rfl)))
    · change (s.statusCalls.set k call')[j]? = some other at hj
      by_cases hjk : j = k
      · rw [hjk, hself] at hj
        cases hj
        rw [hjk]
        show call'.status = call.status ∧
          ∀ other ∈ (s.statusCalls.set k call').eraseIdx k, other.point ≠ .enqueue
        rw [hothers]
        exact ⟨hsame, hquiet⟩
      · -- another call is about to enqueue: this one stored alone
        have hother : other ∈ s.statusCalls.eraseIdx k := by
          rw [← hothers]
          exact List.mem_eraseIdx_iff_getElem?.mpr ⟨j, hjk, hj⟩
        exact absurd henqueue (hquiet other hother)
  -- what it enqueues is what it stored, since no other call has stored in between
  · obtain ⟨hstatus, hquiet⟩ := hinv.enqueuing k call hk hpoint
    have hnone : ∀ u ∈ s.statusCalls.set k call', u.point ≠ .enqueue := by
      intro u hu
      rcases (hmem u).mp hu with rfl | hother
      · rw [hpoint']
        simp
      · exact hquiet u hother
    refine ⟨hsep, fun _ status hlast => ?_, fun j other hj henqueue => ?_⟩
    · change lastReported (s.hub.broadcasts.push _).sent = some status at hlast
      rw [Channel.sent_push, lastReported_concat] at hlast
      exact hstatus.symm.trans (Option.some.inj hlast)
    · exact absurd henqueue (hnone other (List.mem_of_getElem? hj))

theorem serialInvariant_step {l : ServerLabel} (hinv : SerialInvariant s)
    (hposts : l.postsNoStatus = true) (halone : storesAlone s l)
    (h : webSocketServer.step s l = some s') : SerialInvariant s' := by
  have hsep := WebSocketServer.separate_step s l s' hinv.separate h
  cases l with
  | statusCall k => exact serialInvariant_statusCall hinv halone h
  | _ =>
    obtain ⟨hcalls, hstatus, hsent⟩ := step_stream hinv.separate hposts (by simp) h
    exact hinv.frame hsep hcalls hstatus hsent

/-- **Calls that do not overlap.** If no call stores while another one is between its two steps,
the status and the stream agree whenever no call is. -/
theorem statusAgrees_of_serial {statuses : List TrackingStatus} {ls : List ServerLabel}
    (hrun : webSocketServer.Runs (fun s l => l.postsNoStatus = true ∧ storesAlone s l)
      (.initial statuses) ls s) (hidle : ∀ call ∈ s.statusCalls, call.point ≠ .enqueue) :
    s.StatusAgrees := by
  have hinv : SerialInvariant s := hrun.invariant
    (fun _ _ _ hinv hok h => serialInvariant_step hinv hok.1 hok.2 h)
    (serialInvariant_initial statuses)
  exact hinv.agrees hidle

end

end TimeTracker
