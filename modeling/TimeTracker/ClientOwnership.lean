import TimeTracker.ServerSteps

/-!
# Whose channel, whose topics

A client is a pair of addresses, copied freely between the map, the broadcaster's working copy
and the connection thread. Nothing is ever copied under another id: an address that is known
under one id is known under no other. `Separate` is that invariant.

* **`separate_step`**: every step of the server keeps it, whatever is enqueued.
* **`Connection.wellFormed_step`**: what a connection thread knows about its own variables.
-/

namespace TimeTracker

/-! ## The variables of a thread -/

/-- What the point of a connection thread says about its variables. -/
structure Connection.WellFormed (conn : Connection) : Prop where
  client : conn.point.beforeClient = true → conn.clientSender = none
  outgoing : conn.point.beforeOutgoing = true → conn.outgoing = none
  inLoop : conn.point.inLoop = true → conn.outgoing ≠ none
  request : ∀ message, conn.point = .request message → ∃ topics,
    message = .subscribe conn.id topics ∨ message = .unsubscribe conn.id topics

theorem Connection.wellFormed_spawned (id : ClientId) : (Connection.spawned id).WellFormed :=
  ⟨fun _ => rfl, fun _ => rfl, nofun, nofun⟩

theorem Connection.wellFormed_step {socket : Socket} {conn conn' : Connection} {hub hub' : Hub}
    (hwf : conn.WellFormed) (h : conn.step socket hub = some (conn', hub')) :
    conn'.WellFormed := by
  obtain ⟨hid, hcases⟩ := Connection.step_cases h
  rcases hcases with ⟨-, hquiet⟩ | ⟨hpoint, -, rfl⟩ | ⟨message, point, -, rfl, hpoint⟩ |
    ⟨hpoint, -, rfl⟩ | ⟨sender, hpoint, hsome, -, rfl⟩ |
    ⟨address, ch, message, ch', hpoint, hsome, -, -, -, rfl⟩ | ⟨hpoint, -, rfl⟩ |
    ⟨hpoint, -, rfl⟩
  · refine ⟨fun h => ?_, fun h => ?_, fun h => ?_, fun message h => ?_⟩
    · rw [hquiet.clientSender]
      exact hwf.client (hquiet.beforeClient h)
    · rw [hquiet.outgoing]
      exact hwf.outgoing (hquiet.beforeOutgoing h)
    · rw [hquiet.outgoing]
      exact hwf.inLoop (hquiet.inLoop h)
    · rw [hid]
      exact hquiet.request message h
  · have hnone := hwf.outgoing (by rw [hpoint]; rfl)
    exact ⟨nofun, fun _ => hnone, nofun, nofun⟩
  · rcases hpoint with ⟨hpoint, -, rfl⟩ | ⟨hpoint, rfl⟩ | ⟨hpoint, -, rfl⟩
    · have hnone := hwf.outgoing (by rw [hpoint]; rfl)
      exact ⟨nofun, fun _ => hnone, nofun, nofun⟩
    · have hsome := hwf.inLoop (by rw [hpoint]; rfl)
      exact ⟨nofun, nofun, fun _ => hsome, nofun⟩
    · exact ⟨nofun, nofun, nofun, nofun⟩
  · exact ⟨nofun, nofun, nofun, nofun⟩
  · have hne : conn.outgoing ≠ none := by rw [hsome]; nofun
    exact ⟨nofun, nofun, fun _ => hne, nofun⟩
  · have hne : conn.outgoing ≠ none := by rw [hsome]; nofun
    exact ⟨nofun, nofun, fun _ => hne, nofun⟩
  · exact ⟨nofun, nofun, nofun, nofun⟩
  · exact ⟨nofun, nofun, nofun, nofun⟩

/-- A channel the thread has created. -/
def Connection.owns (conn : Connection) (address : Nat) : Prop :=
  conn.clientSender = some address ∨ conn.outgoing = some address

/-! ## Under which id an address is known -/

namespace WebSocketServer

/-- The client is known under this id: in the map, or in the copy the broadcaster works on. -/
def holds (s : WebSocketServer) (id : ClientId) (client : WebSocketClient) : Prop :=
  s.hub.clients.lookup id = some client ∨ (id, client) ∈ s.broadcaster.entries

/-- The set of topics is known under this id: through a client, or to a broadcaster that is
about to change it. -/
def pointsTo (s : WebSocketServer) (id : ClientId) (address : Nat) : Prop :=
  (∃ client, s.holds id client ∧ client.subscriptions = address) ∨
    s.broadcaster.changing = some (id, address)

/-- No address is known under two ids. -/
structure Separate (s : WebSocketServer) : Prop where
  wellFormed : ∀ conn ∈ s.connections, conn.WellFormed
  /-- The channels of the connection threads. -/
  bounded : ∀ conn ∈ s.connections, ∀ address, conn.owns address → address < s.hub.channels.length
  unique : ∀ conn ∈ s.connections, ∀ conn' ∈ s.connections, ∀ address,
    conn.owns address → conn'.owns address → conn.id = conn'.id
  sender : ∀ id client, s.holds id client →
    ∃ conn ∈ s.connections, conn.id = id ∧ conn.owns client.sender
  /-- The sets of topics. -/
  topicsBounded : ∀ id address, s.pointsTo id address → address < s.hub.subscriptions.length
  topicsUnique : ∀ id id' address, s.pointsTo id address → s.pointsTo id' address → id = id'

theorem separate_initial (statuses : List TrackingStatus) : Separate (.initial statuses) := by
  have hholds : ∀ id client, ¬ (WebSocketServer.initial statuses).holds id client := by
    rintro id client (hlookup | hentry)
    · cases (Finmap.lookup_empty id).symm.trans hlookup
    · cases hentry
  have hpoints : ∀ id address, ¬ (WebSocketServer.initial statuses).pointsTo id address := by
    rintro id address (⟨client, hclient, -⟩ | hchange)
    · exact hholds id client hclient
    · cases hchange
  have hnone : ∀ conn, conn ∉ (WebSocketServer.initial statuses).connections :=
    fun _ => List.not_mem_nil
  exact ⟨fun conn h => absurd h (hnone conn), fun conn h => absurd h (hnone conn),
    fun conn h => absurd h (hnone conn), fun id client h => absurd h (hholds id client),
    fun id address h => absurd h (hpoints id address),
    fun id _ address h => absurd h (hpoints id address)⟩

variable {s s' : WebSocketServer}

/-! ## The steps -/

/-- A step that makes nothing known under a new id, and forgets no channel. -/
theorem Separate.mono (hsep : Separate s) (hconns : s'.connections = s.connections)
    (hchannels : s.hub.channels.length ≤ s'.hub.channels.length)
    (htopics : s.hub.subscriptions.length ≤ s'.hub.subscriptions.length)
    (hholds : ∀ id client, s'.holds id client → s.holds id client)
    (hpoints : ∀ id address, s'.pointsTo id address → s.pointsTo id address) : Separate s' := by
  refine ⟨?_, ?_, ?_, ?_, fun id address h => ?_, fun id id' address h h' => ?_⟩
  · rw [hconns]
    exact hsep.wellFormed
  · rw [hconns]
    exact fun conn hconn address h => (hsep.bounded conn hconn address h).trans_le hchannels
  · rw [hconns]
    exact hsep.unique
  · rw [hconns]
    exact fun id client h => hsep.sender id client (hholds id client h)
  · exact (hsep.topicsBounded id address (hpoints id address h)).trans_le htopics
  · exact hsep.topicsUnique id id' address (hpoints id address h) (hpoints id' address h')

/-- The broadcaster makes nothing known under a new id. -/
theorem holds_broadcast {order : List ClientId} {b : Broadcaster} {hub : Hub}
    (h : s.broadcaster.step order s.hub = some (b, hub)) {id : ClientId}
    {client : WebSocketClient} (hholds : holds { s with broadcaster := b, hub } id client) :
    s.holds id client := by
  change hub.clients.lookup id = some client ∨ (id, client) ∈ b.entries at hholds
  unfold holds
  rcases Broadcaster.step_cases h with ⟨message, broadcasts, hs, -, rfl, rfl⟩ |
    ⟨topic, message, hs, horder, rfl, rfl⟩ | ⟨topic, message, entry, clients, disc, hs, rfl, hb⟩ |
    ⟨topic, message, entry, clients, disc, hs, hb⟩ | ⟨disc, hs, rfl, rfl⟩ |
    ⟨id', topics, subscribe, hs, rfl, hb⟩ | ⟨id', address, topics, subscribe, hs, rfl, rfl⟩
  · rw [Broadcaster.entries_handle] at hholds
    exact .inl (hholds.resolve_right List.not_mem_nil)
  · -- the copy is made from the map
    rw [Broadcaster.entries_forClients, Hub.mem_copyClients horder, or_self] at hholds
    exact .inl hholds
  -- what is left of the copy was in the copy
  · refine hholds.imp_right fun hentry => ?_
    rw [hs]
    rcases hb with ⟨-, rfl⟩ | ⟨-, rfl⟩
    · exact hentry
    · rw [Broadcaster.entries_forClients] at hentry
      exact List.mem_cons_of_mem entry hentry
  · have hmap : hub.clients = s.hub.clients := by
      rcases hb with ⟨hsend, -⟩ | ⟨-, rfl, -⟩
      · obtain ⟨_, _, _, rfl⟩ := Hub.sendAt_eq_some hsend
        rfl
      · rfl
    have hrest : b.entries = clients := by
      rcases hb with ⟨-, rfl⟩ | ⟨-, -, rfl⟩ <;> exact Broadcaster.entries_forClients _ _ _ _
    rw [hmap, hrest] at hholds
    refine hholds.imp_right fun hentry => ?_
    rw [hs]
    exact List.mem_cons_of_mem entry hentry
  · -- removing clients makes none known
    left
    rcases hholds with hlookup | hentry
    · have hkept := (Broadcaster.lookup_remove id disc s.hub.clients).symm.trans hlookup
      split at hkept
      · cases hkept
      · exact hkept
    · cases hentry
  · have hnone : b.entries = [] := by rcases hb with ⟨-, rfl⟩ | ⟨_, -, rfl⟩ <;> rfl
    rw [hnone] at hholds
    exact .inl (hholds.resolve_right List.not_mem_nil)
  · exact .inl (hholds.resolve_right List.not_mem_nil)

theorem pointsTo_broadcast {order : List ClientId} {b : Broadcaster} {hub : Hub}
    (h : s.broadcaster.step order s.hub = some (b, hub)) {id : ClientId} {address : Nat}
    (hpoints : pointsTo { s with broadcaster := b, hub } id address) : s.pointsTo id address := by
  rcases hpoints with ⟨client, hholds, haddress⟩ | hchange
  · exact .inl ⟨client, holds_broadcast h hholds, haddress⟩
  · -- a set is about to be changed only after its client has been looked up
    change b.changing = some (id, address) at hchange
    rcases Broadcaster.step_cases h with ⟨message, broadcasts, -, -, rfl, -⟩ |
      ⟨topic, message, -, -, rfl, -⟩ | ⟨topic, message, entry, clients, disc, -, -, hb⟩ |
      ⟨topic, message, entry, clients, disc, -, hb⟩ | ⟨disc, -, rfl, -⟩ |
      ⟨id', topics, subscribe, -, -, hb⟩ | ⟨id', address', topics, subscribe, -, rfl, -⟩
    · simp at hchange
    · simp at hchange
    · rcases hb with ⟨-, rfl⟩ | ⟨-, rfl⟩
      · cases hchange
      · simp at hchange
    · rcases hb with ⟨-, rfl⟩ | ⟨-, -, rfl⟩ <;> simp at hchange
    · cases hchange
    · rcases hb with ⟨-, rfl⟩ | ⟨client, hlookup, rfl⟩
      · cases hchange
      · cases hchange
        exact .inl ⟨client, .inl hlookup, rfl⟩
    · cases hchange

theorem separate_broadcast {order : List ClientId} {b : Broadcaster} {hub : Hub}
    (hsep : Separate s) (h : s.broadcaster.step order s.hub = some (b, hub)) :
    Separate { s with broadcaster := b, hub } := by
  have hlengths : s.hub.channels.length ≤ hub.channels.length ∧
      s.hub.subscriptions.length ≤ hub.subscriptions.length := by
    rcases Broadcaster.step_cases h with ⟨_, _, -, -, -, rfl⟩ | ⟨_, _, -, -, -, rfl⟩ |
      ⟨_, _, _, _, _, -, rfl, -⟩ | ⟨_, _, _, _, _, -, ⟨hsend, -⟩ | ⟨-, rfl, -⟩⟩ |
      ⟨_, -, -, rfl⟩ | ⟨_, _, _, -, rfl, -⟩ | ⟨_, _, _, _, -, -, rfl⟩
    · exact ⟨le_refl _, le_refl _⟩
    · exact ⟨le_refl _, le_refl _⟩
    · exact ⟨le_refl _, le_refl _⟩
    · obtain ⟨_, _, _, rfl⟩ := Hub.sendAt_eq_some hsend
      exact ⟨le_of_eq (List.length_set ..).symm, le_refl _⟩
    · exact ⟨le_refl _, le_refl _⟩
    · exact ⟨le_refl _, le_refl _⟩
    · exact ⟨le_refl _, le_refl _⟩
    · exact ⟨le_refl _, le_of_eq (List.length_modify ..).symm⟩
  exact hsep.mono rfl hlengths.1 hlengths.2 (fun _ _ hholds => holds_broadcast h hholds)
    fun _ _ hpoints => pointsTo_broadcast h hpoints

/-- A new thread owns nothing. -/
theorem separate_accept (hsep : Separate s) {id : ClientId} {counter : Nat} :
    Separate { s with
      clientIdCounter := counter
      connections := s.connections ++ [Connection.spawned id] } := by
  have hmem : ∀ conn, conn ∈ s.connections ++ [Connection.spawned id] →
      conn ∈ s.connections ∨ conn = .spawned id := fun conn h => by
    rwa [List.mem_append, List.mem_singleton] at h
  have hnothing : ∀ address, ¬ (Connection.spawned id).owns address := by
    rintro address (h | h) <;> cases h
  refine ⟨fun conn hconn => ?_, fun conn hconn address howns => ?_,
    fun conn hconn conn' hconn' address howns howns' => ?_, fun id' client hholds => ?_,
    hsep.topicsBounded, hsep.topicsUnique⟩
  · rcases hmem conn hconn with hold | rfl
    · exact hsep.wellFormed conn hold
    · exact Connection.wellFormed_spawned id
  · rcases hmem conn hconn with hold | rfl
    · exact hsep.bounded conn hold address howns
    · exact absurd howns (hnothing address)
  · rcases hmem conn hconn with hold | rfl
    · rcases hmem conn' hconn' with hold' | rfl
      · exact hsep.unique conn hold conn' hold' address howns howns'
      · exact absurd howns' (hnothing address)
    · exact absurd howns (hnothing address)
  · obtain ⟨conn, hconn, hid, howns⟩ := hsep.sender id' client hholds
    exact ⟨conn, List.mem_append_left _ hconn, hid, howns⟩

/-- A step of a connection thread that makes known, under its own id, its own channels and at
most one new set of topics. -/
theorem Separate.connection {k : Nat} {conn conn' : Connection} {hub : Hub} (hsep : Separate s)
    (hk : s.connections[k]? = some conn) (hid : conn'.id = conn.id) (hwf : conn'.WellFormed)
    (hchannels : s.hub.channels.length ≤ hub.channels.length)
    (htopics : s.hub.subscriptions.length ≤ hub.subscriptions.length)
    (hnew : ∀ address, conn'.owns address → conn.owns address ∨
      address = s.hub.channels.length ∧ address < hub.channels.length)
    (hkeeps : ∀ address, conn.owns address → conn'.owns address)
    (hholds : ∀ id client, holds { s with hub, connections := s.connections.set k conn' } id client →
      s.holds id client ∨ id = conn.id ∧ conn'.owns client.sender)
    (hpoints : ∀ id address,
      pointsTo { s with hub, connections := s.connections.set k conn' } id address →
      s.pointsTo id address ∨
        id = conn.id ∧ address = s.hub.subscriptions.length ∧ address < hub.subscriptions.length) :
    Separate { s with hub, connections := s.connections.set k conn' } := by
  have hmem : ∀ u, u ∈ s.connections.set k conn' ↔ u = conn' ∨ u ∈ s.connections.eraseIdx k :=
    fun u => Pool.mem_set conn' hk
  have hin : conn ∈ s.connections := List.mem_of_getElem? hk
  have hothers : ∀ u ∈ s.connections.eraseIdx k, u ∈ s.connections := fun u hu =>
    (Pool.mem_iff hk).mpr (.inr hu)
  -- nobody else owns the new channel
  have hunique : ∀ u ∈ s.connections.eraseIdx k, ∀ address, conn'.owns address →
      u.owns address → conn'.id = u.id := by
    intro u hu address hnow hu'
    rcases hnew address hnow with hold | ⟨rfl, -⟩
    · rw [hid]
      exact hsep.unique conn hin u (hothers u hu) address hold hu'
    · exact absurd (hsep.bounded u (hothers u hu) _ hu') (lt_irrefl _)
  refine ⟨fun u hu => ?_, fun u hu address howns => ?_, fun u hu u' hu' address howns howns' => ?_,
    fun id client h => ?_, fun id address h => ?_, fun id id' address h h' => ?_⟩
  · rcases (hmem u).mp hu with rfl | hu
    · exact hwf
    · exact hsep.wellFormed u (hothers u hu)
  · rcases (hmem u).mp hu with rfl | hu
    · rcases hnew address howns with hold | ⟨-, hlt⟩
      · exact (hsep.bounded conn hin address hold).trans_le hchannels
      · exact hlt
    · exact (hsep.bounded u (hothers u hu) address howns).trans_le hchannels
  · rcases (hmem u).mp hu with heq | hother
    · rcases (hmem u').mp hu' with heq' | hother'
      · rw [heq, heq']
      · rw [heq] at howns ⊢
        exact hunique u' hother' address howns howns'
    · rcases (hmem u').mp hu' with heq' | hother'
      · rw [heq'] at howns' ⊢
        exact (hunique u hother address howns' howns).symm
      · exact hsep.unique u (hothers u hother) u' (hothers u' hother') address howns howns'
  · rcases hholds id client h with hold | ⟨rfl, howns⟩
    · obtain ⟨u, hu, huid, howns⟩ := hsep.sender id client hold
      rcases (Pool.mem_iff hk).mp hu with rfl | hu
      · exact ⟨conn', (hmem conn').mpr (.inl rfl), hid.trans huid, hkeeps _ howns⟩
      · exact ⟨u, (hmem u).mpr (.inr hu), huid, howns⟩
    · exact ⟨conn', (hmem conn').mpr (.inl rfl), hid, howns⟩
  · rcases hpoints id address h with hold | ⟨-, -, hlt⟩
    · exact (hsep.topicsBounded id address hold).trans_le htopics
    · exact hlt
  · rcases hpoints id address h with hold | ⟨rfl, haddress, -⟩
    · rcases hpoints id' address h' with hold' | ⟨-, haddress, -⟩
      · exact hsep.topicsUnique id id' address hold hold'
      -- the new set is behind all sets known so far
      · have hlt := hsep.topicsBounded id address hold
        omega
    · rcases hpoints id' address h' with hold' | ⟨rfl, -, -⟩
      · have hlt := hsep.topicsBounded id' address hold'
        omega
      · rfl

/-- A step of a connection thread that makes nothing known. -/
theorem Separate.move {k : Nat} {conn conn' : Connection} {hub : Hub} (hsep : Separate s)
    (hk : s.connections[k]? = some conn) (hid : conn'.id = conn.id) (hwf : conn'.WellFormed)
    (howns : ∀ address, conn'.owns address ↔ conn.owns address)
    (hchannels : s.hub.channels.length ≤ hub.channels.length)
    (htopics : s.hub.subscriptions.length ≤ hub.subscriptions.length)
    (hclients : ∀ id client, hub.clients.lookup id = some client →
      s.hub.clients.lookup id = some client) :
    Separate { s with hub, connections := s.connections.set k conn' } := by
  have hholds : ∀ id client,
      holds { s with hub, connections := s.connections.set k conn' } id client →
      s.holds id client := fun id client hh => hh.imp_left (hclients id client)
  refine hsep.connection hk hid hwf hchannels htopics (fun a ha => .inl ((howns a).mp ha))
    (fun a ha => (howns a).mpr ha) (fun id client hh => .inl (hholds id client hh)) ?_
  rintro id address (⟨client, hclient, haddress⟩ | hchange)
  · exact .inl (.inl ⟨client, hholds id client hclient, haddress⟩)
  · exact .inl (.inr hchange)

/-- `add_client` makes a new channel and a new set known, under the thread's id. -/
theorem separate_addClient {k : Nat} {conn : Connection} (hsep : Separate s)
    (hk : s.connections[k]? = some conn) (hpoint : conn.point = .addClient)
    (hwf' : { conn with
      clientSender := some s.hub.channels.length, point := .clientConnected }.WellFormed) :
    Separate { s with
      hub := conn.register s.hub
      connections := s.connections.set k { conn with
        clientSender := some s.hub.channels.length, point := .clientConnected } } := by
  have hwf := hsep.wellFormed conn (List.mem_of_getElem? hk)
  have hnone := hwf.client (by rw [hpoint]; rfl)
  have hlookup : ∀ id client, (conn.register s.hub).clients.lookup id = some client →
      s.hub.clients.lookup id = some client ∨ id = conn.id ∧
        client = ⟨conn.id, s.hub.channels.length, s.hub.subscriptions.length⟩ := by
    intro id client hl
    rw [Connection.lookup_register] at hl
    split at hl
    · next hown => exact .inr ⟨hown, (Option.some.inj hl).symm⟩
    · exact .inl hl
  have hlength : (conn.register s.hub).channels.length = s.hub.channels.length + 1 :=
    List.length_append
  have hlength' : (conn.register s.hub).subscriptions.length = s.hub.subscriptions.length + 1 :=
    List.length_append
  refine hsep.connection hk rfl hwf' (by omega) (by omega) ?_ ?_ ?_ ?_
  · rintro address (hnew | hold)
    · have haddress := Option.some.inj hnew
      exact .inr ⟨haddress.symm, by omega⟩
    · exact .inl (.inr hold)
  · rintro address (hold | hold)
    · rw [hnone] at hold
      cases hold
    · exact .inr hold
  · rintro id client (hl | hentry)
    · rcases hlookup id client hl with hold | ⟨hown, rfl⟩
      · exact .inl (.inl hold)
      · exact .inr ⟨hown, .inl rfl⟩
    · exact .inl (.inr hentry)
  · rintro id address (⟨client, hl | hentry, rfl⟩ | hchange)
    · rcases hlookup id client hl with hold | ⟨hown, rfl⟩
      · exact .inl (.inl ⟨client, .inl hold, rfl⟩)
      · exact .inr ⟨hown, rfl, by rw [hlength']; exact Nat.lt_succ_self _⟩
    · exact .inl (.inl ⟨client, .inr hentry, rfl⟩)
    · exact .inl (.inr hchange)

/-- The second channel of a connection thread. -/
theorem separate_createOutgoing {k : Nat} {conn : Connection} (hsep : Separate s)
    (hk : s.connections[k]? = some conn) (hpoint : conn.point = .createOutgoing)
    (hwf' : { conn with
      outgoing := some s.hub.channels.length, point := .replaceSender }.WellFormed) :
    Separate { s with
      hub := { s.hub with channels := s.hub.channels ++ [.new] }
      connections := s.connections.set k { conn with
        outgoing := some s.hub.channels.length, point := .replaceSender } } := by
  have hwf := hsep.wellFormed conn (List.mem_of_getElem? hk)
  have hnone := hwf.outgoing (by rw [hpoint]; rfl)
  have hlength : (s.hub.channels ++ [Channel.new]).length = s.hub.channels.length + 1 :=
    List.length_append
  refine hsep.connection hk rfl hwf' (Nat.le_of_lt (by rw [hlength]; omega)) (le_refl _) ?_ ?_
    (fun id client hh => .inl hh) fun id address hp => .inl hp
  · rintro address (hold | hnew)
    · exact .inl (.inl hold)
    · have haddress := Option.some.inj hnew
      exact .inr ⟨haddress.symm, by rw [hlength]; omega⟩
  · rintro address (hold | hold)
    · exact .inl hold
    · rw [hnone] at hold
      cases hold

/-- The sender that replaces the placeholder is the thread's own. -/
theorem separate_replaceSender {k sender : Nat} {conn : Connection} (hsep : Separate s)
    (hk : s.connections[k]? = some conn) (hsome : conn.outgoing = some sender)
    (hwf' : { conn with point := .tryRecv }.WellFormed) :
    Separate { s with
      hub := conn.replaceSender sender s.hub
      connections := s.connections.set k { conn with point := .tryRecv } } := by
  obtain ⟨hchannels, htopics, -, -⟩ := Connection.replaceSender_frame conn sender s.hub
  have hlookup : ∀ id client, (conn.replaceSender sender s.hub).clients.lookup id = some client →
      s.hub.clients.lookup id = some client ∨ id = conn.id ∧ client.sender = sender ∧
        ∃ old, s.hub.clients.lookup id = some old ∧ client.subscriptions = old.subscriptions := by
    intro id client hl
    rw [Connection.lookup_replaceSender] at hl
    split at hl
    · next hown =>
      obtain ⟨old, hold, rfl⟩ := Option.map_eq_some_iff.mp hl
      exact .inr ⟨hown, rfl, old, hold, rfl⟩
    · exact .inl hl
  refine hsep.connection hk rfl hwf' (le_of_eq (by rw [hchannels])) (le_of_eq (by rw [htopics]))
    (fun a ha => .inl ha) (fun a ha => ha) ?_ ?_
  · rintro id client (hl | hentry)
    · rcases hlookup id client hl with hold | ⟨hown, hsender, -⟩
      · exact .inl (.inl hold)
      -- the thread's own client, which now points to the thread's second channel
      · exact .inr ⟨hown, .inr (by rw [hsender]; exact hsome)⟩
    · exact .inl (.inr hentry)
  · rintro id address (⟨client, hl | hentry, rfl⟩ | hchange)
    · rcases hlookup id client hl with hold | ⟨-, -, old, hold, hsame⟩
      · exact .inl (.inl ⟨client, .inl hold, rfl⟩)
      · exact .inl (.inl ⟨old, .inl hold, hsame.symm⟩)
    · exact .inl (.inl ⟨client, .inr hentry, rfl⟩)
    · exact .inl (.inr hchange)

/-- **One step of a connection thread.** Only `addClient` and `createOutgoing` create something,
and only for the thread's own client. -/
theorem separate_connection {k : Nat} {socket : Socket} {conn conn' : Connection} {hub : Hub}
    (hsep : Separate s) (hk : s.connections[k]? = some conn)
    (h : conn.step socket s.hub = some (conn', hub)) :
    Separate { s with hub, connections := s.connections.set k conn' } := by
  have hwf := hsep.wellFormed conn (List.mem_of_getElem? hk)
  have hwf' := Connection.wellFormed_step hwf h
  obtain ⟨hid, hcases⟩ := Connection.step_cases h
  rcases hcases with ⟨rfl, hquiet⟩ | ⟨hpoint, rfl, rfl⟩ | ⟨message, point, rfl, rfl, -⟩ |
    ⟨hpoint, rfl, rfl⟩ | ⟨sender, hpoint, hsome, rfl, rfl⟩ |
    ⟨address, ch, message, ch', -, -, -, -, rfl, rfl⟩ | ⟨-, rfl, rfl⟩ | ⟨-, rfl, rfl⟩
  · refine hsep.move hk hid hwf' (fun a => ?_) (le_refl _) (le_refl _) fun _ _ hl => hl
    rw [Connection.owns, Connection.owns, hquiet.clientSender, hquiet.outgoing]
  · exact separate_addClient hsep hk hpoint hwf'
  · exact hsep.move hk hid hwf' (fun _ => Iff.rfl) (le_refl _) (le_refl _) fun _ _ hl => hl
  · exact separate_createOutgoing hsep hk hpoint hwf'
  · exact separate_replaceSender hsep hk hsome hwf'
  · exact hsep.move hk hid hwf' (fun _ => Iff.rfl) (le_of_eq (List.length_set ..).symm) (le_refl _)
      fun _ _ hl => hl
  -- `remove_client` takes away what was known under the thread's id
  · refine hsep.move hk hid hwf' (fun _ => Iff.rfl) (le_refl _) (le_refl _) fun id client hl => ?_
    by_cases hc : id = conn.id
    · rw [hc] at hl
      cases (Finmap.lookup_erase conn.id s.hub.clients).symm.trans hl
    · exact (Finmap.lookup_erase_ne hc).symm.trans hl
  · obtain ⟨hclients, htopics, -, -, hchannels⟩ := Connection.closeOutgoing_frame conn s.hub
    refine hsep.move hk hid hwf' (fun _ => Iff.rfl) (le_of_eq hchannels.symm)
      (le_of_eq (by rw [htopics])) fun id client hl => ?_
    rw [← hclients]
    exact hl

/-- **Every step keeps the addresses apart.** -/
theorem separate_step (s : WebSocketServer) (l : ServerLabel) (s' : WebSocketServer)
    (hsep : Separate s) (h : webSocketServer.step s l = some s') : Separate s' := by
  cases l with
  | broadcast order =>
    obtain ⟨b, hub, hstep, rfl⟩ := server_broadcast h
    exact separate_broadcast hsep hstep
  | accept =>
    cases h
    exact separate_accept hsep
  | connection k socket =>
    obtain ⟨conn, conn', hub, hk, hstep, rfl⟩ := server_connection h
    exact separate_connection hsep hk hstep
  | statusCall k =>
    obtain ⟨call, call', hub, -, hstep, rfl⟩ := server_statusCall h
    obtain ⟨-, ⟨-, -, rfl⟩ | ⟨-, -, rfl⟩⟩ := StatusCall.step_cases hstep
    · exact hsep.mono rfl (le_refl _) (le_refl _) (fun _ _ h => h) fun _ _ h => h
    · exact hsep.mono rfl (le_refl _) (le_refl _) (fun _ _ h => h) fun _ _ h => h
  | post message =>
    cases h
    exact hsep.mono rfl (le_refl _) (le_refl _) (fun _ _ h => h) fun _ _ h => h

end WebSocketServer

end TimeTracker
