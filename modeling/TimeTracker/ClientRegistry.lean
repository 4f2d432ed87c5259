import TimeTracker.ClientOwnership

/-!
# Live clients stay, dead ones go

A connection thread registers its client with a channel nobody receives from, and replaces that
channel before it lets the client subscribe. The broadcaster removes a subscribed client as soon
as a send to it fails, and it works on a copy of the map made at an earlier moment.

* **`liveClientsKept`**: in every run in which clients subscribe for themselves only, the
  broadcaster removes no client whose thread is before the end of its message loop, sends
  nothing to a client's first channel, and a thread that has returned has left nothing behind.
* **`Connection.Placed`**: where the client of a connection thread is, at each of its points.
  The topics of a client are empty until its channel has been replaced, in the map as in any
  copy of it that still has the first channel.
* **`registry_step`**: every step keeps all threads placed.
-/

namespace TimeTracker

/-! ## The invariant -/

/-- The first channel has been replaced. -/
def Connection.replaced (conn : Connection) : Bool :=
  conn.outgoing.isSome && conn.point ≠ .replaceSender

/-- A thread in its message loop has replaced its first channel. -/
theorem Connection.replaced_of_inLoop {conn : Connection} (hwf : conn.WellFormed)
    (h : conn.point.inLoop = true) : conn.replaced = true := by
  have hpoint : conn.point ≠ .replaceSender := by
    intro heq
    rw [heq] at h
    cases h
  rw [replaced, Bool.and_eq_true, decide_eq_true_iff]
  exact ⟨Option.isSome_iff_ne_none.mpr (hwf.inLoop h), hpoint⟩

theorem Connection.replaced_step {socket : Socket} {conn conn' : Connection} {hub hub' : Hub}
    (hwf : conn.WellFormed) (hreplaced : conn.replaced = true)
    (h : conn.step socket hub = some (conn', hub')) : conn'.replaced = true := by
  rw [replaced, Bool.and_eq_true, decide_eq_true_iff] at hreplaced ⊢
  obtain ⟨hsome, hpoint⟩ := hreplaced
  have hbefore : conn.point.beforeOutgoing ≠ true := by
    intro hbefore
    rw [hwf.outgoing hbefore] at hsome
    cases hsome
  obtain ⟨-, hcases⟩ := step_cases h
  rcases hcases with ⟨-, hquiet⟩ | ⟨hs, -, rfl⟩ | ⟨message, point, -, rfl, hs⟩ |
    ⟨hs, -, rfl⟩ | ⟨sender, -, -, -, rfl⟩ | ⟨_, _, _, _, -, -, -, -, -, rfl⟩ | ⟨-, -, rfl⟩ |
    ⟨-, -, rfl⟩
  · rw [hquiet.outgoing]
    exact ⟨hsome, hquiet.notReplacing'⟩
  · exact absurd (by rw [hs]; rfl) hbefore
  · refine ⟨hsome, ?_⟩
    rcases hs with ⟨-, -, rfl⟩ | ⟨-, rfl⟩ | ⟨-, -, rfl⟩ <;> nofun
  · exact absurd (by rw [hs]; rfl) hbefore
  · exact ⟨hsome, nofun⟩
  · exact ⟨hsome, nofun⟩
  · exact ⟨hsome, nofun⟩
  · exact ⟨hsome, nofun⟩

/-- The client of a connection thread, in the map and in the copy of the broadcaster. -/
structure Connection.Placed (hub : Hub) (b : Broadcaster) (conn : Connection) : Prop where
  /-- It is in the map between `add_client` and `remove_client`. -/
  registered : (∃ client, hub.clients.lookup conn.id = some client) ↔ conn.point.registered = true
  /-- In the map it has the channel of the thread, or the first channel and no topics. -/
  current : ∀ client, hub.clients.lookup conn.id = some client →
    if conn.replaced then conn.outgoing = some client.sender
    else conn.clientSender = some client.sender ∧ hub.topicsAt client.subscriptions = ∅
  different : ∀ address, conn.clientSender = some address → conn.outgoing ≠ some address
  /-- The thread receives from its channel until it returns. -/
  alive : ∀ address, conn.outgoing = some address → conn.point ≠ .returned → hub.openAt address
  /-- A copy with the first channel has no topics. -/
  entries : ∀ entry ∈ b.entries, conn.clientSender = some entry.2.sender →
    hub.topicsAt entry.2.subscriptions = ∅
  sending : ∀ topic message entry clients disc, b = .send topic message entry clients disc →
    conn.clientSender ≠ some entry.2.sender

namespace Connection.Placed

variable {conn : Connection} {b b' : Broadcaster} {hub hub' : Hub}

/-- A step of the broadcaster that leaves the client and the channel of a thread alone. -/
theorem broadcast (hplaced : Placed hub b conn)
    (hclients : hub'.clients.lookup conn.id = hub.clients.lookup conn.id)
    (hcurrent : ∀ client, hub.clients.lookup conn.id = some client → conn.replaced = false →
      hub.topicsAt client.subscriptions = ∅ → hub'.topicsAt client.subscriptions = ∅)
    (halive : ∀ address, hub.openAt address → hub'.openAt address)
    (hentries : ∀ entry ∈ b'.entries, conn.clientSender = some entry.2.sender →
      hub'.topicsAt entry.2.subscriptions = ∅)
    (hsending : ∀ topic message entry clients disc, b' = .send topic message entry clients disc →
      conn.clientSender ≠ some entry.2.sender) : Placed hub' b' conn := by
  refine ⟨?_, fun client hlookup => ?_, hplaced.different,
    fun a ha hp => halive a (hplaced.alive a ha hp), hentries, hsending⟩
  · rw [hclients]
    exact hplaced.registered
  · rw [hclients] at hlookup
    have hold := hplaced.current client hlookup
    by_cases hreplaced : conn.replaced = true
    · rw [if_pos hreplaced] at hold ⊢
      exact hold
    · rw [if_neg hreplaced] at hold ⊢
      exact ⟨hold.1, hcurrent client hlookup (Bool.eq_false_of_not_eq_true hreplaced) hold.2⟩

/-- The broadcaster goes on to the rest of its copy. -/
theorem forClients {entry : ClientEntry} {clients : List ClientEntry}
    (hplaced : Placed hub b conn) (hs : b.entries = entry :: clients)
    (hclients : hub'.clients = hub.clients) (hsubs : hub'.subscriptions = hub.subscriptions)
    (halive : ∀ address, hub.openAt address → hub'.openAt address) (topic : SubscriptionTopic)
    (message : String) (disc : List ClientId) :
    Placed hub' (.forClients topic message disc clients) conn := by
  have hsame : ∀ address, hub'.topicsAt address = hub.topicsAt address := by
    intro address
    rw [Hub.topicsAt, hsubs, Hub.topicsAt]
  refine hplaced.broadcast (by rw [hclients]) (fun client _ _ h => (hsame _).trans h) halive ?_
    fun _ _ _ _ _ h => absurd h (Broadcaster.forClients_ne_send _ _ _ _ _ _ _ _ _)
  intro entry' hentry hsender
  rw [Broadcaster.entries_forClients] at hentry
  rw [hsame]
  exact hplaced.entries entry' (by rw [hs]; exact List.mem_cons_of_mem entry hentry) hsender

/-- A step that leaves the client of the thread alone, and its channels but for their
contents. -/
theorem frame {conn' : Connection} (hplaced : Placed hub b conn) (hid : conn'.id = conn.id)
    (hsender : conn'.clientSender = conn.clientSender) (houtgoing : conn'.outgoing = conn.outgoing)
    (hregistered : conn'.point.registered = conn.point.registered)
    (hreplaced : conn'.replaced = conn.replaced)
    (hclients : hub'.clients.lookup conn.id = hub.clients.lookup conn.id)
    (htopics : ∀ address, hub'.topicsAt address = hub.topicsAt address)
    (halive : ∀ address, conn.outgoing = some address → conn'.point ≠ .returned →
      hub'.openAt address) : Placed hub' b conn' := by
  refine ⟨?_, ?_, ?_, ?_, ?_, ?_⟩
  · rw [hid, hclients, hregistered]
    exact hplaced.registered
  · rw [hid, hclients, hsender, houtgoing, hreplaced]
    simp only [htopics]
    exact hplaced.current
  · rw [hsender, houtgoing]
    exact hplaced.different
  · rw [houtgoing]
    exact halive
  · rw [hsender]
    simp only [htopics]
    exact hplaced.entries
  · rw [hsender]
    exact hplaced.sending

end Connection.Placed

namespace WebSocketServer

/-- A request of client `id` to subscribe has not been finished. -/
def requested (s : WebSocketServer) (id : ClientId) : Prop :=
  (∃ topics, .subscribe id topics ∈ s.hub.broadcasts.waiting) ∨ s.broadcaster.subscribing = some id

/-- Every connection thread has its own id and its client in place. -/
structure Registry (s : WebSocketServer) : Prop where
  separate : s.Separate
  ids : ∀ (k : Nat) (conn : Connection), s.connections[k]? = some conn → conn.id = k + 1
  counter : s.clientIdCounter = s.connections.length
  /-- Clients that subscribe have been given their channel. -/
  requests : ∀ id, s.requested id → ∃ conn ∈ s.connections, conn.id = id ∧ conn.replaced = true
  /-- A send fails only after the thread has returned. -/
  disconnected : ∀ id ∈ s.broadcaster.disconnected,
    ∃ conn ∈ s.connections, conn.id = id ∧ conn.point = .returned
  placed : ∀ conn ∈ s.connections, conn.Placed s.hub s.broadcaster

theorem registry_initial (statuses : List TrackingStatus) : Registry (.initial statuses) := by
  refine ⟨separate_initial statuses, fun k conn h => ?_, rfl, fun id h => ?_,
    fun id h => absurd h List.not_mem_nil, fun conn h => absurd h List.not_mem_nil⟩
  · cases List.getElem?_nil.symm.trans h
  · rcases h with ⟨topics, hmem⟩ | hsub
    · cases hmem
    · cases hsub

variable {s s' : WebSocketServer}

/-- An id belongs to one thread. -/
theorem Registry.eq_of_id (hreg : Registry s) {conn conn' : Connection}
    (hconn : conn ∈ s.connections) (hconn' : conn' ∈ s.connections) (h : conn.id = conn'.id) :
    conn = conn' := by
  obtain ⟨j, hj⟩ := List.mem_iff_getElem?.mp hconn
  obtain ⟨k, hk⟩ := List.mem_iff_getElem?.mp hconn'
  have hsucc : j + 1 = k + 1 := (hreg.ids j conn hj).symm.trans (h.trans (hreg.ids k conn' hk))
  have hjk : j = k := by omega
  rw [hjk, hk] at hj
  exact (Option.some.inj hj).symm

/-- Nobody subscribes but the clients that have been replaced. -/
theorem Registry.not_requested (hreg : Registry s) {conn : Connection}
    (hconn : conn ∈ s.connections) (h : conn.replaced = false) : ¬ s.requested conn.id := by
  intro hrequested
  obtain ⟨conn', hconn', hid, hreplaced⟩ := hreg.requests conn.id hrequested
  rw [hreg.eq_of_id hconn' hconn hid, h] at hreplaced
  cases hreplaced

/-- The client that has a thread's channel is the client of that thread. -/
theorem Registry.id_of_sender (hreg : Registry s) {conn : Connection} {entry : ClientEntry}
    (hconn : conn ∈ s.connections) (hholds : s.holds entry.1 entry.2)
    (howns : conn.owns entry.2.sender) : conn.id = entry.1 := by
  obtain ⟨conn', hconn', hid, howns'⟩ := hreg.separate.sender entry.1 entry.2 hholds
  exact (hreg.separate.unique conn hconn conn' hconn' _ howns howns').trans hid

/-- The thread whose send failed is among those that have returned. -/
theorem Registry.returned (hreg : Registry s) {conn : Connection} (hconn : conn ∈ s.connections)
    (h : conn.id ∈ s.broadcaster.disconnected) : conn.point = .returned := by
  obtain ⟨conn', hconn', hid, hpoint⟩ := hreg.disconnected conn.id h
  rwa [hreg.eq_of_id hconn' hconn hid] at hpoint

/-! ## The broadcaster -/

section
variable {conn : Connection}

/-- The broadcaster copies the map. A copy with the first channel is of a client that has no
topics yet. -/
theorem placed_copyClients {order : List ClientId} {topic : SubscriptionTopic} {message : String}
    (hreg : Registry s) (hconn : conn ∈ s.connections)
    (horder : s.hub.isClientOrder order = true) :
    conn.Placed s.hub (.forClients topic message [] (s.hub.copyClients order)) := by
  have hplaced := hreg.placed conn hconn
  refine hplaced.broadcast rfl (fun _ _ _ h => h) (fun _ h => h) ?_ fun _ _ _ _ _ h =>
    absurd h (Broadcaster.forClients_ne_send _ _ _ _ _ _ _ _ _)
  intro entry hentry hsender
  rw [Broadcaster.entries_forClients, Hub.mem_copyClients horder] at hentry
  have hid := hreg.id_of_sender hconn (.inl hentry) (.inl hsender)
  rw [← hid] at hentry
  have hnow := hplaced.current entry.2 hentry
  by_cases hreplaced : conn.replaced = true
  · rw [if_pos hreplaced] at hnow
    exact absurd hnow (hplaced.different _ hsender)
  · rw [if_neg hreplaced] at hnow
    exact hnow.2

/-- The broadcaster changes topics: those of a client that has not been replaced stay empty,
for it has not subscribed. -/
theorem placed_changeTopics {id : ClientId} {address : Nat} {topics : List SubscriptionTopic}
    {subscribe : Bool} (hreg : Registry s) (hconn : conn ∈ s.connections)
    (hs : s.broadcaster = .changeTopics id address topics subscribe) :
    conn.Placed { s.hub with
      subscriptions := s.hub.subscriptions.modify address (applyTopics subscribe topics) }
      .receive := by
  refine (hreg.placed conn hconn).broadcast rfl ?_ (fun _ h => h) nofun nofun
  intro client hlookup hreplaced hempty
  have hchanging : s.pointsTo id address := .inr (by rw [hs]; rfl)
  have hclient : s.pointsTo conn.id client.subscriptions := .inl ⟨client, .inl hlookup, rfl⟩
  rw [Hub.topicsAt_changeTopics (hreg.separate.topicsBounded id address hchanging)]
  by_cases heq : client.subscriptions = address
  · rw [if_pos heq, ← heq, hempty]
    rw [heq] at hclient
    have hid := hreg.separate.topicsUnique id conn.id address hchanging hclient
    cases subscribe with
    | true =>
      -- only a client with its second channel can have asked for topics
      have hsub : s.requested conn.id := .inr (by rw [hs, ← hid]; rfl)
      exact absurd hsub (hreg.not_requested hconn hreplaced)
    | false => rw [applyTopics_unsubscribe, Finset.empty_sdiff]
  · rw [if_neg heq, hempty]

/-- **One step of the broadcaster**, for one thread. -/
theorem placed_broadcast {order : List ClientId} {b : Broadcaster} {hub : Hub}
    (hreg : Registry s) (h : s.broadcaster.step order s.hub = some (b, hub))
    (hconn : conn ∈ s.connections) : conn.Placed hub b := by
  have hplaced := hreg.placed conn hconn
  rcases Broadcaster.step_cases h with ⟨message, broadcasts, hs, -, rfl, rfl⟩ |
    ⟨topic, message, hs, horder, rfl, rfl⟩ | ⟨topic, message, entry, clients, disc, hs, rfl, hb⟩ |
    ⟨topic, message, entry, clients, disc, hs, hb⟩ | ⟨disc, hs, rfl, rfl⟩ |
    ⟨id', topics, subscribe, hs, rfl, hb⟩ | ⟨id', address, topics, subscribe, hs, rfl, rfl⟩
  · refine hplaced.broadcast rfl (fun _ _ _ h => h) (fun _ h => h) ?_ fun _ _ _ _ _ h =>
      absurd h (Broadcaster.handle_ne_send _ _ _ _ _ _)
    rw [Broadcaster.entries_handle]
    nofun
  · exact placed_copyClients hreg hconn horder
  · rcases hb with ⟨hmem, rfl⟩ | ⟨-, rfl⟩
    · have hentries : ∀ entry' ∈ entry :: clients,
          conn.clientSender = some entry'.2.sender →
          s.hub.topicsAt entry'.2.subscriptions = ∅ := by
        have hcopied := hplaced.entries
        rw [hs] at hcopied
        exact hcopied
      refine hplaced.broadcast rfl (fun _ _ _ h => h) (fun _ h => h) hentries ?_
      intro _ _ _ _ _ heq
      cases heq
      -- a client with topics is not one with its first channel
      intro hsender
      rw [hentries entry List.mem_cons_self hsender] at hmem
      exact Finset.notMem_empty topic hmem
    · exact hplaced.forClients (by rw [hs]; rfl) rfl rfl (fun _ h => h) topic message disc
  -- a send changes what is in a channel, not who has it
  · rcases hb with ⟨hsend, rfl⟩ | ⟨-, rfl, rfl⟩
    · obtain ⟨ch, hch, -, rfl⟩ := Hub.sendAt_eq_some hsend
      refine hplaced.forClients (by rw [hs]; rfl) ?_ ?_ (fun address hopen => ?_) topic message disc
      · rfl
      · rfl
      · exact Hub.openAt_set hch Channel.isOpen_push hopen
    · exact hplaced.forClients (by rw [hs]; rfl) rfl rfl (fun _ h => h) topic message _
  · refine hplaced.broadcast ?_ (fun _ _ _ h => h) (fun _ h => h) nofun nofun
    show (disc.foldl (fun map id => map.erase id) s.hub.clients).lookup conn.id = _
    rw [Broadcaster.lookup_remove]
    by_cases hmem : conn.id ∈ disc
    · -- what is removed has been removed by its thread before
      have hreturned := hreg.returned hconn (by rw [hs]; exact hmem)
      rw [if_pos hmem]
      cases hlookup : s.hub.clients.lookup conn.id with
      | none => rfl
      | some client =>
        have hregistered := hplaced.registered.mp ⟨client, hlookup⟩
        rw [hreturned] at hregistered
        cases hregistered
    · rw [if_neg hmem]
  · refine hplaced.broadcast rfl (fun _ _ _ h => h) (fun _ h => h) ?_ ?_
    · rcases hb with ⟨-, rfl⟩ | ⟨_, -, rfl⟩ <;> nofun
    · rcases hb with ⟨-, rfl⟩ | ⟨_, -, rfl⟩ <;> nofun
  · exact placed_changeTopics hreg hconn hs

end

/-- The broadcaster works on no request that had not been made. -/
theorem requested_broadcast {order : List ClientId} {b : Broadcaster} {hub : Hub}
    (h : s.broadcaster.step order s.hub = some (b, hub)) {id : ClientId}
    (hrequested : requested { s with broadcaster := b, hub } id) : s.requested id := by
  change (∃ topics, .subscribe id topics ∈ hub.broadcasts.waiting) ∨ b.subscribing = some id
    at hrequested
  rcases Broadcaster.step_cases h with ⟨message, broadcasts, hs, hrecv, rfl, rfl⟩ |
    ⟨topic, message, hs, horder, rfl, rfl⟩ | ⟨topic, message, entry, clients, disc, hs, rfl, hb⟩ |
    ⟨topic, message, entry, clients, disc, hs, hb⟩ | ⟨disc, hs, rfl, rfl⟩ |
    ⟨id', topics, subscribe, hs, rfl, hb⟩ | ⟨id', address, topics, subscribe, hs, rfl, rfl⟩
  · left
    rcases hrequested with ⟨topics, hmem⟩ | hsub
    · exact ⟨topics, Channel.mem_waiting_recv hrecv hmem⟩
    · obtain ⟨topics, rfl⟩ := Broadcaster.subscribing_handle hsub
      exact ⟨topics, (Channel.recv_eq_some hrecv).2.2.2⟩
  · rw [Broadcaster.subscribing_forClients] at hrequested
    exact .inl (hrequested.resolve_right nofun)
  · refine .inl (hrequested.resolve_right fun hsub => ?_)
    rcases hb with ⟨-, rfl⟩ | ⟨-, rfl⟩
    · cases hsub
    · rw [Broadcaster.subscribing_forClients] at hsub
      cases hsub
  · have hnone : b.subscribing = none := by
      rcases hb with ⟨-, rfl⟩ | ⟨-, -, rfl⟩ <;> exact Broadcaster.subscribing_forClients _ _ _ _
    have hsame : hub.broadcasts = s.hub.broadcasts := by
      rcases hb with ⟨hsend, -⟩ | ⟨-, rfl, -⟩
      · obtain ⟨_, _, _, rfl⟩ := Hub.sendAt_eq_some hsend
        rfl
      · rfl
    rw [hnone, hsame] at hrequested
    exact .inl (hrequested.resolve_right nofun)
  · exact .inl (hrequested.resolve_right nofun)
  · refine hrequested.imp_right fun hsub => ?_
    rw [hs]
    rcases hb with ⟨-, rfl⟩ | ⟨client, -, rfl⟩
    · cases hsub
    · cases subscribe
      · cases hsub
      · exact hsub
  · exact .inl (hrequested.resolve_right nofun)

/-- A send fails only to a thread that has returned. -/
theorem disconnected_broadcast {order : List ClientId} {b : Broadcaster} {hub : Hub}
    (hreg : Registry s) (h : s.broadcaster.step order s.hub = some (b, hub)) {id : ClientId}
    (hmem : id ∈ b.disconnected) :
    ∃ conn ∈ s.connections, conn.id = id ∧ conn.point = .returned := by
  rcases Broadcaster.step_cases h with ⟨message, broadcasts, hs, -, rfl, rfl⟩ |
    ⟨topic, message, hs, horder, rfl, rfl⟩ | ⟨topic, message, entry, clients, disc, hs, rfl, hb⟩ |
    ⟨topic, message, entry, clients, disc, hs, hb⟩ | ⟨disc, hs, rfl, rfl⟩ |
    ⟨id', topics, subscribe, hs, rfl, hb⟩ | ⟨id', address, topics, subscribe, hs, rfl, rfl⟩
  · rw [Broadcaster.disconnected_handle] at hmem
    cases hmem
  · rw [Broadcaster.disconnected_forClients] at hmem
    cases hmem
  · have hdisc : b.disconnected = disc := by
      rcases hb with ⟨-, rfl⟩ | ⟨-, rfl⟩
      · rfl
      · exact Broadcaster.disconnected_forClients _ _ _ _
    rw [hdisc] at hmem
    exact hreg.disconnected id (by rw [hs]; exact hmem)
  · rcases hb with ⟨-, rfl⟩ | ⟨hfail, rfl, rfl⟩
    · rw [Broadcaster.disconnected_forClients] at hmem
      exact hreg.disconnected id (by rw [hs]; exact hmem)
    · rw [Broadcaster.disconnected_forClients, List.mem_append, List.mem_singleton] at hmem
      rcases hmem with hold | rfl
      · exact hreg.disconnected id (by rw [hs]; exact hold)
      · -- the send has failed: the channel of the client is closed, and not its first one
        have hentry : entry ∈ s.broadcaster.entries := by rw [hs]; exact List.mem_cons_self
        obtain ⟨conn, hconn, hid, howns⟩ := hreg.separate.sender entry.1 entry.2 (.inr hentry)
        have hplaced := hreg.placed conn hconn
        refine ⟨conn, hconn, hid, ?_⟩
        rcases howns with hfirst | hown
        · exact absurd hfirst (hplaced.sending topic message entry clients disc hs)
        · by_contra hpoint
          exact Hub.sendAt_eq_none hfail (hplaced.alive _ hown hpoint)
  · cases hmem
  · rcases hb with ⟨-, rfl⟩ | ⟨_, -, rfl⟩ <;> cases hmem
  · cases hmem

theorem registry_broadcast {order : List ClientId} {b : Broadcaster} {hub : Hub}
    (hreg : Registry s) (h : s.broadcaster.step order s.hub = some (b, hub)) :
    Registry { s with broadcaster := b, hub } :=
  ⟨separate_broadcast hreg.separate h, hreg.ids, hreg.counter,
    fun id hr => hreg.requests id (requested_broadcast h hr),
    fun _ hmem => disconnected_broadcast hreg h hmem,
    fun _ hconn => placed_broadcast hreg h hconn⟩

/-! ## The connection threads -/

/-- A new thread has no client. -/
theorem registry_accept (hreg : Registry s) : Registry { s with
    clientIdCounter := s.clientIdCounter + 1
    connections := s.connections ++ [Connection.spawned (s.clientIdCounter + 1)] } := by
  have hkeep : ∀ conn ∈ s.connections,
      conn ∈ s.connections ++ [Connection.spawned (s.clientIdCounter + 1)] := fun conn hconn =>
    List.mem_append_left _ hconn
  refine ⟨separate_accept hreg.separate, fun k conn hk => ?_, ?_, fun id hr => ?_,
    fun id hmem => ?_, fun conn hconn => ?_⟩
  · rcases Nat.lt_or_ge k s.connections.length with hlt | hge
    · exact hreg.ids k conn ((List.getElem?_append_left hlt).symm.trans hk)
    · obtain ⟨hbound, -⟩ := List.getElem?_eq_some_iff.mp hk
      rw [List.length_append, List.length_singleton] at hbound
      have hlast : k = s.connections.length := by omega
      rw [hlast, List.getElem?_concat_length] at hk
      cases hk
      rw [hlast]
      exact congrArg (· + 1) hreg.counter
  · show s.clientIdCounter + 1 = _
    rw [List.length_append, hreg.counter]
    rfl
  · obtain ⟨conn, hconn, hrest⟩ := hreg.requests id hr
    exact ⟨conn, hkeep conn hconn, hrest⟩
  · obtain ⟨conn, hconn, hrest⟩ := hreg.disconnected id hmem
    exact ⟨conn, hkeep conn hconn, hrest⟩
  · rcases List.mem_append.mp hconn with hold | hnew
    · exact hreg.placed conn hold
    · rw [List.mem_singleton.mp hnew]
      -- the id is new, so nothing is in the map under it
      have hnone : ∀ client,
          s.hub.clients.lookup (s.clientIdCounter + 1) ≠ some client := by
        intro client hlookup
        obtain ⟨conn', hconn', hid, -⟩ := hreg.separate.sender _ client (.inl hlookup)
        obtain ⟨k, hk⟩ := List.mem_iff_getElem?.mp hconn'
        obtain ⟨hbound, -⟩ := List.getElem?_eq_some_iff.mp hk
        have hsucc : k + 1 = s.clientIdCounter + 1 := (hreg.ids k conn' hk).symm.trans hid
        rw [hreg.counter] at hsucc
        omega
      refine ⟨?_, fun client hlookup => absurd hlookup (hnone client), nofun, nofun, nofun, ?_⟩
      · constructor
        · rintro ⟨client, hlookup⟩
          exact absurd hlookup (hnone client)
        · intro hregistered
          cases hregistered
      · intro _ _ _ _ _ _ hsender
        cases hsender

section
variable {k : Nat} {socket : Socket} {conn conn' : Connection} {hub : Hub}

/-- `add_client`: the channel is new, so no copy has it, and the topics are empty. -/
theorem placed_register (hreg : Registry s) (hconn : conn ∈ s.connections)
    (hpoint : conn.point = .addClient) :
    Connection.Placed (conn.register s.hub) s.broadcaster
      { conn with clientSender := some s.hub.channels.length, point := .clientConnected } := by
  have hnone := (hreg.separate.wellFormed conn hconn).outgoing (by rw [hpoint]; rfl)
  have hnew : ∀ entry ∈ s.broadcaster.entries, some s.hub.channels.length ≠ some entry.2.sender := by
    intro entry hentry heq
    obtain ⟨conn', hconn', -, howns⟩ := hreg.separate.sender entry.1 entry.2 (.inr hentry)
    rw [← Option.some.inj heq] at howns
    exact absurd (hreg.separate.bounded conn' hconn' _ howns) (lt_irrefl _)
  have hlookup := Connection.lookup_register conn s.hub conn.id
  rw [if_pos rfl] at hlookup
  refine ⟨?_, fun client hclient => ?_, ?_, ?_, fun entry hentry hsender => ?_, ?_⟩
  · exact ⟨fun _ => rfl, fun _ => ⟨_, hlookup⟩⟩
  · have hreplaced : Connection.replaced { conn with
        clientSender := some s.hub.channels.length, point := .clientConnected } = false := by
      rw [Connection.replaced, hnone]
      rfl
    change (conn.register s.hub).clients.lookup conn.id = some client at hclient
    rw [hlookup] at hclient
    cases hclient
    rw [hreplaced]
    refine ⟨rfl, ?_⟩
    show ((s.hub.subscriptions ++ [∅])[s.hub.subscriptions.length]?).getD ∅ = ∅
    rw [List.getElem?_concat_length]
    rfl
  · intro address _ houtgoing
    change conn.outgoing = some address at houtgoing
    rw [hnone] at houtgoing
    cases houtgoing
  · intro address houtgoing
    change conn.outgoing = some address at houtgoing
    rw [hnone] at houtgoing
    cases houtgoing
  · exact absurd hsender (hnew entry hentry)
  · intro topic message entry clients disc hs
    exact hnew entry (by rw [hs]; exact List.mem_cons_self)

/-- The second channel is another one than the first. -/
theorem placed_createOutgoing (hreg : Registry s) (hconn : conn ∈ s.connections)
    (hpoint : conn.point = .createOutgoing) :
    Connection.Placed { s.hub with channels := s.hub.channels ++ [.new] } s.broadcaster
      { conn with outgoing := some s.hub.channels.length, point := .replaceSender } := by
  have hplaced := hreg.placed conn hconn
  have hnone := (hreg.separate.wellFormed conn hconn).outgoing (by rw [hpoint]; rfl)
  have hreplaced : ¬ conn.replaced = true := by
    rw [Connection.replaced, hnone]
    nofun
  refine ⟨?_, fun client hclient => ?_, fun address hsender heq => ?_, fun address heq _ => ?_,
    hplaced.entries, hplaced.sending⟩
  · have hregistered := hplaced.registered
    rw [hpoint] at hregistered
    exact hregistered
  · have hcurrent := hplaced.current client hclient
    rw [if_neg hreplaced] at hcurrent
    have hreplaced' : ¬ Connection.replaced
        { conn with outgoing := some s.hub.channels.length, point := .replaceSender } = true := nofun
    rw [if_neg hreplaced']
    exact hcurrent
  · have hlt := hreg.separate.bounded conn hconn address (.inl hsender)
    rw [← Option.some.inj heq] at hlt
    exact absurd hlt (lt_irrefl _)
  · rw [← Option.some.inj heq]
    exact ⟨.new, List.getElem?_concat_length, rfl⟩

/-- The client of the thread gets its channel. -/
theorem placed_replaceSender (hreg : Registry s) (hconn : conn ∈ s.connections) {sender : Nat}
    (hpoint : conn.point = .replaceSender) (hsome : conn.outgoing = some sender) :
    Connection.Placed (conn.replaceSender sender s.hub) s.broadcaster
      { conn with point := .tryRecv } := by
  have hplaced := hreg.placed conn hconn
  obtain ⟨hchannels, hsubs, -, -⟩ := Connection.replaceSender_frame conn sender s.hub
  have hlookup := Connection.lookup_replaceSender conn sender s.hub conn.id
  rw [if_pos rfl] at hlookup
  obtain ⟨old, hold⟩ := hplaced.registered.mpr (by rw [hpoint]; rfl)
  rw [hold, Option.map_some] at hlookup
  refine ⟨⟨fun _ => rfl, fun _ => ⟨_, hlookup⟩⟩, fun client hclient => ?_, hplaced.different,
    fun address houtgoing _ => ?_, fun entry hentry hsender => ?_, hplaced.sending⟩
  · have hreplaced : Connection.replaced { conn with point := .tryRecv } = true := by
      rw [Connection.replaced, hsome]
      rfl
    change (conn.replaceSender sender s.hub).clients.lookup conn.id = some client at hclient
    rw [hlookup] at hclient
    cases hclient
    rw [if_pos hreplaced]
    exact hsome
  · rw [Hub.openAt, hchannels]
    exact hplaced.alive address houtgoing (by rw [hpoint]; simp)
  · rw [Hub.topicsAt, hsubs]
    exact hplaced.entries entry hentry hsender

/-- **One step of a connection thread**, for its own client. -/
theorem placed_connection (hreg : Registry s) (hconn : conn ∈ s.connections)
    (h : conn.step socket s.hub = some (conn', hub)) : conn'.Placed hub s.broadcaster := by
  have hplaced := hreg.placed conn hconn
  obtain ⟨-, htopics, -⟩ := Connection.step_frame h
  have hpoint : conn.point ≠ .returned := by
    intro heq
    rw [Connection.step, heq] at h
    cases h
  have halive : ∀ address, conn.outgoing = some address → conn'.point ≠ .returned →
      hub.openAt address := by
    intro address houtgoing hrunning
    rcases Connection.step_openAt h (hplaced.alive address houtgoing hpoint) with hopen | ⟨-, heq⟩
    · exact hopen
    · exact absurd heq hrunning
  obtain ⟨hid, hcases⟩ := Connection.step_cases h
  -- a step that keeps the thread on the same side of both ends of its registration
  have hmove : conn'.clientSender = conn.clientSender → conn'.outgoing = conn.outgoing →
      conn'.point.registered = conn.point.registered → conn.point ≠ .replaceSender →
      conn'.point ≠ .replaceSender → hub.clients = s.hub.clients →
      conn'.Placed hub s.broadcaster := by
    intro hsender houtgoing hregistered hne hne' hclients
    refine hplaced.frame hid hsender houtgoing hregistered ?_ (by rw [hclients]) htopics halive
    rw [Connection.replaced, Connection.replaced, houtgoing, decide_eq_true hne,
      decide_eq_true hne']
  rcases hcases with ⟨rfl, hquiet⟩ | ⟨hs, rfl, rfl⟩ | ⟨message, point, rfl, rfl, hs⟩ |
    ⟨hs, rfl, rfl⟩ | ⟨sender, hs, hsome, rfl, rfl⟩ | ⟨_, _, _, _, hs, -, -, -, rfl, rfl⟩ |
    ⟨hs, rfl, rfl⟩ | ⟨hs, rfl, rfl⟩
  · exact hmove hquiet.clientSender hquiet.outgoing hquiet.registered hquiet.notReplacing
      hquiet.notReplacing' rfl
  · exact placed_register hreg hconn hs
  · rcases hs with ⟨hs, -, rfl⟩ | ⟨hs, rfl⟩ | ⟨hs, -, rfl⟩ <;>
      exact hmove rfl rfl (by rw [hs]; rfl) (by rw [hs]; simp) (by simp) rfl
  · exact placed_createOutgoing hreg hconn hs
  · exact placed_replaceSender hreg hconn hs hsome
  · exact hmove rfl rfl (by rw [hs]; rfl) (by rw [hs]; simp) (by simp) rfl
  -- `remove_client`: what is said about the client in the map is void from here on
  · have hnone : ∀ client, (s.hub.clients.erase conn.id).lookup conn.id ≠ some client := by
      intro client hlookup
      rw [Finmap.lookup_erase] at hlookup
      cases hlookup
    refine ⟨?_, fun client hlookup => absurd hlookup (hnone client), hplaced.different, halive,
      hplaced.entries, hplaced.sending⟩
    constructor
    · rintro ⟨client, hlookup⟩
      exact absurd hlookup (hnone client)
    · intro hregistered
      cases hregistered
  · exact hmove rfl rfl (by rw [hs]; rfl) (by rw [hs]; simp) (by simp)
      (Connection.closeOutgoing_frame conn s.hub).1

/-- The clients of the other threads are not touched. -/
theorem placed_connection_other (hreg : Registry s) {u : Connection} (hconn : conn ∈ s.connections)
    (hu : u ∈ s.connections) (hne : u.id ≠ conn.id)
    (h : conn.step socket s.hub = some (conn', hub)) : u.Placed hub s.broadcaster := by
  have hplaced := hreg.placed u hu
  obtain ⟨-, htopics, -⟩ := Connection.step_frame h
  refine hplaced.frame rfl rfl rfl rfl rfl (Connection.step_lookup h hne) htopics ?_
  intro address houtgoing hpoint
  rcases Connection.step_openAt h (hplaced.alive address houtgoing hpoint) with hopen | ⟨hown, -⟩
  · exact hopen
  · exact absurd (hreg.separate.unique u hu conn hconn address (.inr houtgoing) (.inr hown)) hne

theorem registry_connection (hreg : Registry s) (hk : s.connections[k]? = some conn)
    (h : conn.step socket s.hub = some (conn', hub)) :
    Registry { s with hub, connections := s.connections.set k conn' } := by
  have hin : conn ∈ s.connections := List.mem_of_getElem? hk
  have hwf := hreg.separate.wellFormed conn hin
  obtain ⟨hid, -⟩ := Connection.step_cases h
  have hmem : ∀ u, u ∈ s.connections.set k conn' ↔ u = conn' ∨ u ∈ s.connections.eraseIdx k :=
    fun u => Pool.mem_set conn' hk
  refine ⟨separate_connection hreg.separate hk h, fun j u hj => ?_, ?_, fun id hr => ?_,
    fun id hdisc => ?_, fun u hu => ?_⟩
  · change (s.connections.set k conn')[j]? = some u at hj
    by_cases hjk : j = k
    · rw [hjk, Pool.getElem?_set_self hk] at hj
      cases hj
      rw [hjk, hid]
      exact hreg.ids k conn hk
    · rw [List.getElem?_set_ne (Ne.symm hjk)] at hj
      exact hreg.ids j u hj
  · show s.clientIdCounter = (s.connections.set k conn').length
    rw [List.length_set]
    exact hreg.counter
  · -- a request is an old one, or one of the thread's own
    have hcases : s.requested id ∨ id = conn.id ∧ conn.point.inLoop = true := by
      rcases hr with ⟨topics, hwaiting⟩ | hsub
      · exact (Connection.step_waiting hwf.request h hwaiting).imp_left fun hold =>
          .inl ⟨topics, hold⟩
      · exact .inl (.inr hsub)
    rcases hcases with hold | ⟨rfl, hloop⟩
    · obtain ⟨u, hu, huid, hreplaced⟩ := hreg.requests id hold
      rcases (Pool.mem_iff hk).mp hu with rfl | hother
      · exact ⟨conn', (hmem conn').mpr (.inl rfl), hid.trans huid,
          Connection.replaced_step hwf hreplaced h⟩
      · exact ⟨u, (hmem u).mpr (.inr hother), huid, hreplaced⟩
    · exact ⟨conn', (hmem conn').mpr (.inl rfl), hid,
        Connection.replaced_step hwf (Connection.replaced_of_inLoop hwf hloop) h⟩
  · -- a thread that has returned takes no step
    obtain ⟨u, hu, huid, hreturned⟩ := hreg.disconnected id hdisc
    rcases (Pool.mem_iff hk).mp hu with rfl | hother
    · rw [Connection.step, hreturned] at h
      cases h
    · exact ⟨u, (hmem u).mpr (.inr hother), huid, hreturned⟩
  · obtain ⟨j, hj⟩ := List.mem_iff_getElem?.mp hu
    change (s.connections.set k conn')[j]? = some u at hj
    by_cases hjk : j = k
    · rw [hjk, Pool.getElem?_set_self hk] at hj
      cases hj
      have hown := placed_connection hreg hin h
      exact hown
    · rw [List.getElem?_set_ne (Ne.symm hjk)] at hj
      have hne : u.id ≠ conn.id := by
        intro heq
        have hsucc : j + 1 = k + 1 :=
          (hreg.ids j u hj).symm.trans (heq.trans (hreg.ids k conn hk))
        omega
      have hother := placed_connection_other hreg hin (List.mem_of_getElem? hj) hne h
      exact hother

end

/-! ## Steps and runs -/

/-- A step that adds something to the broadcast channel, but no request to subscribe. -/
theorem Registry.enqueue (hreg : Registry s) {hub : Hub} {calls : List StatusCall}
    (hclients : hub.clients = s.hub.clients) (hchannels : hub.channels = s.hub.channels)
    (hsubs : hub.subscriptions = s.hub.subscriptions)
    (hwaiting : ∀ id topics, .subscribe id topics ∈ hub.broadcasts.waiting →
      .subscribe id topics ∈ s.hub.broadcasts.waiting)
    (hsep : Separate { s with hub, statusCalls := calls }) :
    Registry { s with hub, statusCalls := calls } := by
  refine ⟨hsep, hreg.ids, hreg.counter, fun id hr => ?_, hreg.disconnected, fun conn hconn => ?_⟩
  · exact hreg.requests id (hr.imp_left fun ⟨topics, hmem⟩ => ⟨topics, hwaiting id topics hmem⟩)
  · have hplaced := hreg.placed conn hconn
    refine hplaced.frame rfl rfl rfl rfl rfl (by rw [hclients]) (fun address => ?_)
      fun address houtgoing hpoint => ?_
    · rw [Hub.topicsAt, hsubs, Hub.topicsAt]
    · rw [Hub.openAt, hchannels]
      exact hplaced.alive address houtgoing hpoint

end WebSocketServer

/-- Other parts of the program post updates; only clients post requests to subscribe. -/
def ServerLabel.postsUpdates : ServerLabel → Bool
  | .post message => message.update.isSome
  | _ => true

namespace WebSocketServer

variable {s s' : WebSocketServer}

/-- **Every step keeps all threads placed.** -/
theorem registry_step (s : WebSocketServer) (l : ServerLabel) (s' : WebSocketServer)
    (hreg : Registry s) (hposts : l.postsUpdates = true)
    (h : webSocketServer.step s l = some s') : Registry s' := by
  have hsep := separate_step s l s' hreg.separate h
  cases l with
  | broadcast order =>
    obtain ⟨b, hub, hstep, rfl⟩ := server_broadcast h
    exact registry_broadcast hreg hstep
  | accept =>
    cases h
    exact registry_accept hreg
  | connection k socket =>
    obtain ⟨conn, conn', hub, hk, hstep, rfl⟩ := server_connection h
    exact registry_connection hreg hk hstep
  | statusCall k =>
    obtain ⟨call, call', hub, -, hstep, rfl⟩ := server_statusCall h
    obtain ⟨-, ⟨-, -, rfl⟩ | ⟨-, -, rfl⟩⟩ := StatusCall.step_cases hstep
    · exact hreg.enqueue rfl rfl rfl (fun _ _ hmem => hmem) hsep
    · refine hreg.enqueue rfl rfl rfl (fun id topics hmem => ?_) hsep
      rcases List.mem_append.mp hmem with hold | hnew
      · exact hold
      · cases List.mem_singleton.mp hnew
  | post message =>
    cases h
    refine hreg.enqueue rfl rfl rfl (fun id topics hmem => ?_) hsep
    rcases List.mem_append.mp hmem with hold | hnew
    · exact hold
    · -- a request to subscribe is no update
      rw [← List.mem_singleton.mp hnew] at hposts
      cases hposts

/-- A thread that has returned does not move again. -/
theorem returned_step (s : WebSocketServer) (l : ServerLabel) (s' : WebSocketServer) {k : Nat}
    {conn : Connection} (hk : s.connections[k]? = some conn) (hreturned : conn.point = .returned)
    (h : webSocketServer.step s l = some s') : s'.connections[k]? = some conn := by
  cases l with
  | broadcast order =>
    obtain ⟨b, hub, -, rfl⟩ := server_broadcast h
    exact hk
  | accept =>
    cases h
    exact (List.getElem?_append_left (List.getElem?_eq_some_iff.mp hk).1).trans hk
  | connection j socket =>
    obtain ⟨conn', conn'', hub, hj, hstep, rfl⟩ := server_connection h
    by_cases hjk : j = k
    · rw [hjk, hk] at hj
      cases hj
      rw [Connection.step, hreturned] at hstep
      cases hstep
    · exact (List.getElem?_set_ne hjk).trans hk
  | statusCall j =>
    obtain ⟨call, call', hub, -, -, rfl⟩ := server_statusCall h
    exact hk
  | post message =>
    cases h
    exact hk

/-- What the broadcaster and the map do to the client of each connection thread. -/
structure LiveClientsKept (s : WebSocketServer) : Prop where
  /-- The client of a thread in its message loop is in the map, with the thread's channel. -/
  inMap : ∀ conn ∈ s.connections, conn.point.inLoop = true →
    ∃ client, s.hub.clients.lookup conn.id = some client ∧ conn.outgoing = some client.sender
  /-- A step of the broadcaster does not touch the client of a thread that has not returned. -/
  notRemoved : ∀ order s', webSocketServer.step s (.broadcast order) = some s' →
    ∀ conn ∈ s.connections, conn.point ≠ .returned →
      s'.hub.clients.lookup conn.id = s.hub.clients.lookup conn.id
  /-- Nothing is sent to the first channel of a client. -/
  notToPlaceholder : ∀ topic message entry clients disc,
    s.broadcaster = .send topic message entry clients disc →
      ∀ conn ∈ s.connections, conn.clientSender ≠ some entry.2.sender
  /-- The client of a thread that has returned is not in the map, now or later. -/
  gone : ∀ (k : Nat) (conn : Connection), s.connections[k]? = some conn → conn.point = .returned →
    ∀ ls s', webSocketServer.Runs (fun _ l => l.postsUpdates = true) s ls s' →
      s'.hub.clients.lookup conn.id = none

/-- The client of a thread that has returned is not in the map. -/
theorem Registry.lookup_returned (hreg : Registry s) {conn : Connection}
    (hconn : conn ∈ s.connections) (hreturned : conn.point = .returned) :
    s.hub.clients.lookup conn.id = none := by
  cases hlookup : s.hub.clients.lookup conn.id with
  | none => rfl
  | some client =>
    have hregistered := (hreg.placed conn hconn).registered.mp ⟨client, hlookup⟩
    rw [hreturned] at hregistered
    cases hregistered

/-- The broadcaster removes only clients whose threads have returned. -/
theorem Registry.lookup_broadcast (hreg : Registry s) {order : List ClientId}
    (h : webSocketServer.step s (.broadcast order) = some s') {conn : Connection}
    (hconn : conn ∈ s.connections) (hrunning : conn.point ≠ .returned) :
    s'.hub.clients.lookup conn.id = s.hub.clients.lookup conn.id := by
  obtain ⟨b, hub, hstep, rfl⟩ := server_broadcast h
  rcases Broadcaster.step_cases hstep with ⟨_, _, -, -, -, rfl⟩ | ⟨_, _, -, -, -, rfl⟩ |
    ⟨_, _, _, _, _, -, rfl, -⟩ | ⟨_, _, _, _, _, -, ⟨hsend, -⟩ | ⟨-, rfl, -⟩⟩ |
    ⟨disc, hs, -, rfl⟩ | ⟨_, _, _, -, rfl, -⟩ | ⟨_, _, _, _, -, -, rfl⟩
  · rfl
  · rfl
  · rfl
  · obtain ⟨_, _, _, rfl⟩ := Hub.sendAt_eq_some hsend
    rfl
  · rfl
  · have hnot : conn.id ∉ disc := fun hmem => hrunning (hreg.returned hconn (by rw [hs]; exact hmem))
    exact (Broadcaster.lookup_remove conn.id disc s.hub.clients).trans (if_neg hnot)
  · rfl
  · rfl

/-- **Live clients are kept and dead ones are gone**, in every interleaving of the connection
threads, the status calls and the broadcaster. -/
theorem liveClientsKept {statuses : List TrackingStatus} {ls : List ServerLabel}
    (hrun : webSocketServer.Runs (fun _ l => l.postsUpdates = true) (.initial statuses) ls s) :
    s.LiveClientsKept := by
  have hreg : Registry s := hrun.invariant registry_step (registry_initial statuses)
  refine ⟨fun conn hconn hloop => ?_, fun order s' h conn hconn hrunning => ?_,
    fun topic message entry clients disc hs conn hconn => ?_, fun k conn hk hreturned ls' s' hrun' => ?_⟩
  · have hplaced := hreg.placed conn hconn
    have hregistered : conn.point.registered = true := by
      cases hpoint : conn.point <;> rw [hpoint] at hloop <;> first | rfl | cases hloop
    obtain ⟨client, hlookup⟩ := hplaced.registered.mpr hregistered
    have hcurrent := hplaced.current client hlookup
    rw [if_pos (Connection.replaced_of_inLoop (hreg.separate.wellFormed conn hconn) hloop)] at hcurrent
    exact ⟨client, hlookup, hcurrent⟩
  · exact hreg.lookup_broadcast h hconn hrunning
  · exact (hreg.placed conn hconn).sending topic message entry clients disc hs
  · -- the thread stays where it is, and the client out of the map
    obtain ⟨hreg', hk'⟩ := hrun'.invariant
      (I := fun s => Registry s ∧ s.connections[k]? = some conn)
      (fun s l s' hinv hposts h => ⟨registry_step s l s' hinv.1 hposts h,
        returned_step s l s' hinv.2 hreturned h⟩) ⟨hreg, hk⟩
    exact hreg'.lookup_returned (List.mem_of_getElem? hk') hreturned

/-! A run of the theorem: a client leaves between the copy of the map and the send to it. -/

/-- The broadcaster is about to send an update to client 1, and its thread returns. -/
def leaveDuringBroadcast : List ServerLabel :=
  [.accept] ++ List.replicate 8 (.connection 0 {}) ++
    [.connection 0 { frame := .subscribe [.apps] }, .connection 0 {}, .accept,
      .post (.appsUpdate [])] ++
    List.replicate 7 (.broadcast [1]) ++ [.connection 0 { ok := false }] ++
    List.replicate 3 (.connection 0 {}) ++ [.broadcast [1]]

/-- The client has removed itself, and the broadcaster is about to do so again. -/
theorem liveClientsKept_leaveDuringBroadcast :
    ∃ s, webSocketServer.execWhere (fun _ l => l.postsUpdates = true) (.initial [])
        leaveDuringBroadcast = some s ∧
      s.broadcaster = .remove [1] ∧ s.LiveClientsKept := by
  have hend : (webSocketServer.execWhere (fun _ l => l.postsUpdates = true) (.initial [])
      leaveDuringBroadcast).map (fun s => decide (s.broadcaster = .remove [1])) = some true := by
    decide
  obtain ⟨s, hexec, hs⟩ := Option.map_eq_some_iff.mp hend
  exact ⟨s, hexec, of_decide_eq_true hs,
    liveClientsKept (Transition.System.runs_of_execWhere hexec)⟩

end WebSocketServer

end TimeTracker
