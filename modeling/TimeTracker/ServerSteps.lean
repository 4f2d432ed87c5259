import TimeTracker.Connections

/-!
# What a step of the server can do

Inversion and frame lemmas for the broadcaster and the connection threads, as `Steps` has them
for the tracker: every invariant of the server is derived from these.

* **`Broadcaster.step_cases`**, **`Connection.step_cases`**: all a step can do.
* **`mem_copyClients`**, **`nodup_copyClients`**: the copy of the map the broadcaster works on.
* **`topicsAt_changeTopics`**, **`sentAt_set`** and their neighbours: what a write through one
  address does to the others.
-/

namespace TimeTracker

namespace Hub

variable {hub hub' : Hub} {address : Nat}

/-- Everything that was put into the channel at an address. -/
def sentAt (hub : Hub) (address : Nat) : List String :=
  ((hub.channels[address]?).map Channel.sent).getD []

/-- The receiver of the channel at an address is there. -/
def openAt (hub : Hub) (address : Nat) : Prop := ∃ ch, hub.channels[address]? = some ch ∧ ch.isOpen = true

theorem sentAt_of_getElem? {ch : Channel String} (h : hub.channels[address]? = some ch) :
    hub.sentAt address = ch.sent := by
  rw [sentAt, h]
  rfl

/-- A send goes through exactly if the receiver is there, and adds to that one channel. -/
theorem sendAt_eq_some {message : String} (h : hub.sendAt address message = some hub') :
    ∃ ch, hub.channels[address]? = some ch ∧ ch.isOpen = true ∧
      hub' = { hub with channels := hub.channels.set address (ch.push message) } := by
  obtain ⟨ch, hch, hsend⟩ := Option.bind_eq_some_iff.mp h
  obtain ⟨ch', hpush, rfl⟩ := Option.map_eq_some_iff.mp hsend
  obtain ⟨hopen, rfl⟩ := Channel.send_eq_some.mp hpush
  exact ⟨ch, hch, hopen, rfl⟩

theorem sendAt_eq_none {message : String} (h : hub.sendAt address message = none) :
    ¬ hub.openAt address := by
  rintro ⟨ch, hch, hopen⟩
  rw [sendAt, hch, Option.bind_some, Option.map_eq_none_iff, Channel.send_eq_none, hopen] at h
  cases h

/-! ## The copy of the map -/

theorem isClientOrder_iff {order : List ClientId} :
    hub.isClientOrder order = true ↔ order.Nodup ∧ ∀ id, id ∈ order ↔ id ∈ hub.clients := by
  rw [isClientOrder, decide_eq_true_iff]
  exact Iteration.coe_eq_keys_iff

/-- The copy has the clients of the map under their ids. -/
theorem mem_copyClients {order : List ClientId} (horder : hub.isClientOrder order = true)
    {entry : ClientEntry} :
    entry ∈ hub.copyClients order ↔ hub.clients.lookup entry.1 = some entry.2 := by
  obtain ⟨-, hmem⟩ := isClientOrder_iff.mp horder
  obtain ⟨id, client⟩ := entry
  simp only [copyClients, List.mem_filterMap, Option.map_eq_some_iff]
  constructor
  · rintro ⟨id', -, client', hlookup, heq⟩
    cases heq
    exact hlookup
  -- the order lists every key, so no client is passed over
  · intro hlookup
    exact ⟨id, (hmem id).mpr (Finmap.mem_of_lookup_eq_some hlookup), client, hlookup, rfl⟩

/-- No client is copied twice. -/
theorem nodup_copyClients {order : List ClientId} (horder : hub.isClientOrder order = true) :
    ((hub.copyClients order).map Prod.fst).Nodup := by
  obtain ⟨hnodup, -⟩ := isClientOrder_iff.mp horder
  have hsub : ((hub.copyClients order).map Prod.fst).Sublist order := by
    clear horder hnodup
    induction order with
    | nil => exact List.Sublist.slnil
    | cons id order ih =>
      cases hlookup : hub.clients.lookup id with
      | none =>
        have hskip : hub.copyClients (id :: order) = hub.copyClients order :=
          List.filterMap_cons_none (by rw [hlookup]; rfl)
        rw [hskip]
        exact ih.cons id
      | some client =>
        have hkeep : hub.copyClients (id :: order) = (id, client) :: hub.copyClients order :=
          List.filterMap_cons_some (by rw [hlookup]; rfl)
        rw [hkeep]
        exact ih.cons_cons id
  exact hsub.nodup hnodup

/-! ## Writes through an address -/

/-- A write to one channel, seen from another address. -/
theorem sentAt_set {ch : Channel String} {other : Nat} (h : other ≠ address) :
    sentAt { hub with channels := hub.channels.set address ch } other = hub.sentAt other := by
  show ((hub.channels.set address ch)[other]?.map Channel.sent).getD [] = _
  rw [List.getElem?_set_ne (Ne.symm h)]
  rfl

theorem sentAt_set_self {ch ch' : Channel String} (h : hub.channels[address]? = some ch) :
    sentAt { hub with channels := hub.channels.set address ch' } address = ch'.sent :=
  sentAt_of_getElem? (Pool.getElem?_set_self h)

/-- A new channel, seen from an address that is in use. -/
theorem getElem?_channels_append {ch ch' : Channel String} (h : hub.channels[address]? = some ch) :
    (hub.channels ++ [ch'])[address]? = some ch := by
  rw [List.getElem?_append_left (List.getElem?_eq_some_iff.mp h).1, h]

/-- A write to one channel that does not drop its receiver drops none. -/
theorem openAt_set {ch ch' : Channel String} {other : Nat} (h : hub.channels[address]? = some ch)
    (hsame : ch'.isOpen = ch.isOpen) (hopen : hub.openAt other) :
    openAt { hub with channels := hub.channels.set address ch' } other := by
  obtain ⟨c, hc, hcopen⟩ := hopen
  by_cases heq : other = address
  -- the channel that is written to
  · rw [heq, h] at hc
    cases hc
    exact ⟨ch', by rw [heq]; exact Pool.getElem?_set_self h, hsame.trans hcopen⟩
  · refine ⟨c, ?_, hcopen⟩
    show (hub.channels.set address ch')[other]? = some c
    rw [List.getElem?_set_ne (Ne.symm heq), hc]

theorem openAt_append (ch : Channel String) (hopen : hub.openAt address) :
    ∃ c, (hub.channels ++ [ch])[address]? = some c ∧ c.isOpen = true := by
  obtain ⟨c, hc, hcopen⟩ := hopen
  exact ⟨c, getElem?_channels_append hc, hcopen⟩

/-- A new, empty set changes the topics at no address. -/
theorem topicsAt_append (subs : List (Finset SubscriptionTopic)) :
    ((subs ++ [∅])[address]?).getD ∅ = (subs[address]?).getD ∅ := by
  -- an address that is in use, the new one, and one beyond: the last two have no topics
  rcases Nat.lt_trichotomy address subs.length with hlt | heq | hgt
  · rw [List.getElem?_append_left hlt]
  · rw [heq, List.getElem?_concat_length, List.getElem?_eq_none (le_refl _)]
    rfl
  · have hlen : (subs ++ [∅]).length ≤ address := by
      rw [List.length_append, List.length_singleton]
      omega
    rw [List.getElem?_eq_none hlen, List.getElem?_eq_none (le_of_lt hgt)]

/-- A change of topics, at its address and at the others. -/
theorem topicsAt_changeTopics {subscribe : Bool} {topics : List SubscriptionTopic} {at' : Nat}
    (h : at' < hub.subscriptions.length) :
    topicsAt { hub with
        subscriptions := hub.subscriptions.modify at' (applyTopics subscribe topics) } address =
      if address = at' then applyTopics subscribe topics (hub.topicsAt at') else hub.topicsAt address := by
  show ((hub.subscriptions.modify at' (applyTopics subscribe topics))[address]?).getD ∅ = _
  rw [List.getElem?_modify]
  by_cases heq : address = at'
  · rw [if_pos heq, heq, topicsAt, List.getElem?_eq_getElem h]
    simp
  · have hne : ¬ at' = address := fun he => heq he.symm
    rw [if_neg heq, topicsAt]
    simp [hne]

end Hub

/-! ## Changes of topics -/

theorem applyTopics_subscribe (topics : List SubscriptionTopic) :
    ∀ subs, applyTopics true topics subs = subs ∪ topics.toFinset := by
  induction topics with
  | nil => intro subs; simp [applyTopics]
  | cons topic topics ih =>
    intro subs
    show applyTopics true topics (insert topic subs) = _
    rw [ih, List.toFinset_cons, Finset.insert_union, Finset.union_insert]

theorem applyTopics_unsubscribe (topics : List SubscriptionTopic) :
    ∀ subs, applyTopics false topics subs = subs \ topics.toFinset := by
  induction topics with
  | nil => intro subs; simp [applyTopics]
  | cons topic topics ih =>
    intro subs
    show applyTopics false topics (subs.erase topic) = _
    rw [ih, List.toFinset_cons, Finset.sdiff_insert, Finset.erase_sdiff_comm]

/-! ## The broadcaster -/

namespace Broadcaster

/-- The copied clients the broadcaster still has to look at. -/
def entries : Broadcaster → List ClientEntry
  | .isSubscribed _ _ client clients _ => client :: clients
  | .send _ _ client clients _ => client :: clients
  | _ => []

/-- The clients a send to which has failed. -/
def disconnected : Broadcaster → List ClientId
  | .isSubscribed _ _ _ _ disconnected => disconnected
  | .send _ _ _ _ disconnected => disconnected
  | .remove disconnected => disconnected
  | _ => []

/-- The set of topics that is about to be changed, and whose it is. -/
def changing : Broadcaster → Option (ClientId × Nat)
  | .changeTopics id address _ _ => some (id, address)
  | _ => none

/-- The client for which the broadcaster is working on a `Subscribe` message. -/
def subscribing : Broadcaster → Option ClientId
  | .findClient id _ true => some id
  | .changeTopics id _ _ true => some id
  | _ => none

@[simp] theorem entries_handle (message : BroadcastMessage) : (handle message).entries = [] := by
  cases message <;> rfl

@[simp] theorem disconnected_handle (message : BroadcastMessage) :
    (handle message).disconnected = [] := by
  cases message <;> rfl

@[simp] theorem changing_handle (message : BroadcastMessage) : (handle message).changing = none := by
  cases message <;> rfl

theorem handle_ne_send (message' : BroadcastMessage) (topic : SubscriptionTopic)
    (message : String) (entry : ClientEntry) (clients : List ClientEntry) (disc : List ClientId) :
    handle message' ≠ .send topic message entry clients disc := by
  cases message' <;> nofun

theorem subscribing_handle {message : BroadcastMessage} {id : ClientId}
    (h : (handle message).subscribing = some id) : ∃ topics, message = .subscribe id topics := by
  cases message with
  | subscribe clientId topics =>
    cases h
    exact ⟨topics, rfl⟩
  | _ => cases h

section
variable (topic : SubscriptionTopic) (message : String) (disc : List ClientId)
  (clients : List ClientEntry)

@[simp] theorem entries_forClients : (forClients topic message disc clients).entries = clients := by
  cases clients with
  | cons client clients => rfl
  | nil =>
    rw [forClients]
    split <;> rfl

@[simp] theorem disconnected_forClients :
    (forClients topic message disc clients).disconnected = disc := by
  cases clients with
  | cons client clients => rfl
  | nil =>
    rw [forClients]
    split
    · next hempty => exact (List.isEmpty_iff.mp hempty).symm
    · rfl

@[simp] theorem changing_forClients : (forClients topic message disc clients).changing = none := by
  cases clients with
  | cons client clients => rfl
  | nil =>
    rw [forClients]
    split <;> rfl

@[simp] theorem subscribing_forClients :
    (forClients topic message disc clients).subscribing = none := by
  cases clients with
  | cons client clients => rfl
  | nil =>
    rw [forClients]
    split <;> rfl

/-- The next client is looked up before anything is sent to it. -/
theorem forClients_ne_send (topic' : SubscriptionTopic) (message' : String) (entry : ClientEntry)
    (clients' : List ClientEntry) (disc' : List ClientId) :
    forClients topic message disc clients ≠ .send topic' message' entry clients' disc' := by
  cases clients with
  | cons client clients => nofun
  | nil =>
    rw [forClients]
    split <;> nofun

end

variable {order : List ClientId} {b b' : Broadcaster} {hub hub' : Hub}

/-- A step of the broadcaster. -/
theorem step_cases (h : b.step order hub = some (b', hub')) :
    (∃ message broadcasts, b = .receive ∧ hub.broadcasts.recv = some (message, broadcasts) ∧
      b' = handle message ∧ hub' = { hub with broadcasts }) ∨
    (∃ topic message, b = .copyClients topic message ∧ hub.isClientOrder order = true ∧
      b' = forClients topic message [] (hub.copyClients order) ∧ hub' = hub) ∨
    (∃ topic message client clients disc, b = .isSubscribed topic message client clients disc ∧
      hub' = hub ∧
      (topic ∈ hub.topicsAt client.2.subscriptions ∧ b' = .send topic message client clients disc ∨
        topic ∉ hub.topicsAt client.2.subscriptions ∧
          b' = forClients topic message disc clients)) ∨
    (∃ topic message client clients disc, b = .send topic message client clients disc ∧
      (hub.sendAt client.2.sender message = some hub' ∧
          b' = forClients topic message disc clients ∨
        hub.sendAt client.2.sender message = none ∧ hub' = hub ∧
          b' = forClients topic message (disc ++ [client.1]) clients)) ∨
    (∃ disc, b = .remove disc ∧ b' = .receive ∧
      hub' = { hub with clients := disc.foldl (fun map id => map.erase id) hub.clients }) ∨
    (∃ id topics subscribe, b = .findClient id topics subscribe ∧ hub' = hub ∧
      (hub.clients.lookup id = none ∧ b' = .receive ∨
        ∃ client, hub.clients.lookup id = some client ∧
          b' = .changeTopics id client.subscriptions topics subscribe)) ∨
    (∃ id address topics subscribe, b = .changeTopics id address topics subscribe ∧
      b' = .receive ∧ hub' = { hub with
        subscriptions := hub.subscriptions.modify address (applyTopics subscribe topics) }) := by
  cases b with
  | receive =>
    obtain ⟨⟨message, broadcasts⟩, hrecv, heq⟩ := Option.map_eq_some_iff.mp h
    cases heq
    exact .inl ⟨message, broadcasts, rfl, hrecv, rfl, rfl⟩
  | copyClients topic message =>
    simp only [step] at h
    split at h
    · next horder => cases h; exact .inr (.inl ⟨topic, message, rfl, horder, rfl, rfl⟩)
    · cases h
  | isSubscribed topic message client clients disc =>
    refine .inr (.inr (.inl ⟨topic, message, client, clients, disc, rfl, ?_⟩))
    simp only [step] at h
    split at h
    · next hmem => cases h; exact ⟨rfl, .inl ⟨hmem, rfl⟩⟩
    · next hmem => cases h; exact ⟨rfl, .inr ⟨hmem, rfl⟩⟩
  | send topic message client clients disc =>
    refine .inr (.inr (.inr (.inl ⟨topic, message, client, clients, disc, rfl, ?_⟩)))
    simp only [step] at h
    split at h
    · next hub'' hsend => cases h; exact .inl ⟨hsend, rfl⟩
    · next hsend => cases h; exact .inr ⟨hsend, rfl, rfl⟩
  | remove disc =>
    cases h
    exact .inr (.inr (.inr (.inr (.inl ⟨disc, rfl, rfl, rfl⟩))))
  | findClient id topics subscribe =>
    refine .inr (.inr (.inr (.inr (.inr (.inl ⟨id, topics, subscribe, rfl, ?_⟩)))))
    simp only [step] at h
    split at h
    · next hlookup => cases h; exact ⟨rfl, .inl ⟨hlookup, rfl⟩⟩
    · next client hlookup => cases h; exact ⟨rfl, .inr ⟨client, hlookup, rfl⟩⟩
  | changeTopics id address topics subscribe =>
    cases h
    exact .inr (.inr (.inr (.inr (.inr (.inr ⟨id, address, topics, subscribe, rfl, rfl, rfl⟩)))))

/-- The clients that are left after the disconnected ones have been removed. -/
theorem lookup_remove (id : ClientId) (disc : List ClientId) :
    ∀ map : ClientMap, (disc.foldl (fun map id => map.erase id) map).lookup id =
      if id ∈ disc then none else map.lookup id := by
  induction disc with
  | nil => intro map; simp
  | cons d disc ih =>
    intro map
    rw [List.foldl_cons, ih]
    by_cases hmem : id ∈ disc
    · rw [if_pos hmem, if_pos (List.mem_cons_of_mem d hmem)]
    · rw [if_neg hmem]
      by_cases hd : id = d
      · rw [if_pos (List.mem_cons.mpr (.inl hd)), hd, Finmap.lookup_erase]
      · have hnot : id ∉ d :: disc := by simp [hd, hmem]
        rw [if_neg hnot, Finmap.lookup_erase_ne hd]

end Broadcaster

/-! ## The connection threads -/

namespace ConnectionPoint

/-- In the message loop. -/
def inLoop : ConnectionPoint → Bool
  | .tryRecv | .forward _ | .read | .request _ | .respond => true
  | _ => false

/-- Between the insert of the client into the map and its removal. -/
def registered : ConnectionPoint → Bool
  | .clientConnected | .getStatus | .sendInitialStatus _ | .createOutgoing | .replaceSender
  | .tryRecv | .forward _ | .read | .request _ | .respond | .removeClient => true
  | _ => false

/-- Before the client has been added. -/
def beforeClient : ConnectionPoint → Bool
  | .accept | .addClient => true
  | _ => false

/-- Before the second channel has been created. -/
def beforeOutgoing : ConnectionPoint → Bool
  | .accept | .addClient | .clientConnected | .getStatus | .sendInitialStatus _
  | .createOutgoing => true
  | _ => false

end ConnectionPoint

namespace Connection

/-- A step that touches nothing shared. -/
structure Quiet (conn conn' : Connection) : Prop where
  clientSender : conn'.clientSender = conn.clientSender
  outgoing : conn'.outgoing = conn.outgoing
  notReplacing : conn.point ≠ .replaceSender
  notReplacing' : conn'.point ≠ .replaceSender
  registered : conn'.point.registered = conn.point.registered
  inLoop : conn'.point.inLoop = true → conn.point.inLoop = true
  beforeClient : conn'.point.beforeClient = true → conn.point.beforeClient = true
  beforeOutgoing : conn'.point.beforeOutgoing = true → conn.point.beforeOutgoing = true
  request : ∀ message, conn'.point = .request message → ∃ topics,
    message = .subscribe conn.id topics ∨ message = .unsubscribe conn.id topics

variable {socket : Socket} {conn conn' : Connection} {hub hub' : Hub}

/-! What the writes of a thread leave in the map and on the heap. -/

theorem lookup_register (conn : Connection) (hub : Hub) (id : ClientId) :
    (conn.register hub).clients.lookup id =
      if id = conn.id then some ⟨conn.id, hub.channels.length, hub.subscriptions.length⟩
      else hub.clients.lookup id := by
  show (hub.clients.insert conn.id _).lookup id = _
  by_cases hid : id = conn.id
  · rw [if_pos hid, hid, Finmap.lookup_insert]
  · rw [if_neg hid, Finmap.lookup_insert_of_ne _ hid]

theorem lookup_replaceSender (conn : Connection) (sender : Nat) (hub : Hub) (id : ClientId) :
    (conn.replaceSender sender hub).clients.lookup id =
      if id = conn.id then (hub.clients.lookup id).map fun client => { client with sender }
      else hub.clients.lookup id := by
  unfold replaceSender
  by_cases hid : id = conn.id
  · rw [if_pos hid, hid]
    cases hlookup : hub.clients.lookup conn.id with
    | none => exact hlookup
    | some client => exact Finmap.lookup_insert _
  · rw [if_neg hid]
    cases hub.clients.lookup conn.id with
    | none => rfl
    | some client => exact Finmap.lookup_insert_of_ne _ hid

theorem replaceSender_frame (conn : Connection) (sender : Nat) (hub : Hub) :
    (conn.replaceSender sender hub).channels = hub.channels ∧
      (conn.replaceSender sender hub).subscriptions = hub.subscriptions ∧
      (conn.replaceSender sender hub).broadcasts = hub.broadcasts ∧
      (conn.replaceSender sender hub).trackingStatus = hub.trackingStatus := by
  unfold replaceSender
  split <;> exact ⟨rfl, rfl, rfl, rfl⟩

/-- A closed channel keeps what was put into it. -/
theorem closeOutgoing_frame (conn : Connection) (hub : Hub) :
    (conn.closeOutgoing hub).clients = hub.clients ∧
      (conn.closeOutgoing hub).subscriptions = hub.subscriptions ∧
      (conn.closeOutgoing hub).broadcasts = hub.broadcasts ∧
      (conn.closeOutgoing hub).trackingStatus = hub.trackingStatus ∧
      (conn.closeOutgoing hub).channels.length = hub.channels.length := by
  unfold closeOutgoing
  split
  · exact ⟨rfl, rfl, rfl, rfl, List.length_modify ..⟩
  · exact ⟨rfl, rfl, rfl, rfl, rfl⟩

/-- The channels of the other threads are not touched. -/
theorem getElem?_closeOutgoing {address : Nat} (h : conn.outgoing ≠ some address) :
    (conn.closeOutgoing hub).channels[address]? = hub.channels[address]? := by
  unfold closeOutgoing
  split
  · next own hsome =>
    have hne : own ≠ address := fun heq => h (by rw [hsome, heq])
    show (hub.channels.modify own Channel.close)[address]? = hub.channels[address]?
    rw [List.getElem?_modify]
    simp only [if_neg hne]
    exact Option.map_id_apply
  · rfl

/-- A step of a connection thread. -/
theorem step_cases (h : conn.step socket hub = some (conn', hub')) :
    conn'.id = conn.id ∧
    ((hub' = hub ∧ Quiet conn conn') ∨
      (conn.point = .addClient ∧ hub' = conn.register hub ∧
        conn' = { conn with clientSender := some hub.channels.length, point := .clientConnected }) ∨
      (∃ message point, hub' = hub.enqueue message ∧ conn' = { conn with point } ∧
        (conn.point = .clientConnected ∧ message = .clientConnected conn.id ∧ point = .getStatus ∨
          conn.point = .request message ∧ point = .respond ∨
          conn.point = .clientDisconnected ∧ message = .clientDisconnected conn.id ∧
            point = .dropReceiver)) ∨
      (conn.point = .createOutgoing ∧
        hub' = { hub with channels := hub.channels ++ [.new] } ∧
        conn' = { conn with outgoing := some hub.channels.length, point := .replaceSender }) ∨
      (∃ sender, conn.point = .replaceSender ∧ conn.outgoing = some sender ∧
        hub' = conn.replaceSender sender hub ∧ conn' = { conn with point := .tryRecv }) ∨
      (∃ address ch message ch', conn.point = .tryRecv ∧ conn.outgoing = some address ∧
        hub.channels[address]? = some ch ∧ ch.recv = some (message, ch') ∧
        hub' = { hub with channels := hub.channels.set address ch' } ∧
        conn' = { conn with point := .forward message }) ∨
      (conn.point = .removeClient ∧ hub' = { hub with clients := hub.clients.erase conn.id } ∧
        conn' = { conn with point := .clientDisconnected }) ∨
      (conn.point = .dropReceiver ∧ hub' = conn.closeOutgoing hub ∧
        conn' = { conn with point := .returned })) := by
  obtain ⟨id, clientSender, outgoing, point⟩ := conn
  cases point with
  | accept =>
    cases h
    cases socket.ok <;>
      exact ⟨rfl, .inl ⟨rfl, rfl, rfl, nofun, nofun, rfl, nofun, fun _ => rfl, fun _ => rfl, nofun⟩⟩
  | addClient =>
    cases h
    exact ⟨rfl, .inr (.inl ⟨rfl, rfl, rfl⟩)⟩
  | clientConnected =>
    cases h
    exact ⟨rfl, .inr (.inr (.inl ⟨_, _, rfl, rfl, .inl ⟨rfl, rfl, rfl⟩⟩))⟩
  | getStatus =>
    cases h
    exact ⟨rfl, .inl ⟨rfl, rfl, rfl, nofun, nofun, rfl, nofun, nofun, fun _ => rfl, nofun⟩⟩
  | sendInitialStatus status =>
    cases h
    cases socket.ok <;>
      exact ⟨rfl, .inl ⟨rfl, rfl, rfl, nofun, nofun, rfl, nofun, nofun, fun _ => rfl, nofun⟩⟩
  | createOutgoing =>
    cases h
    exact ⟨rfl, .inr (.inr (.inr (.inl ⟨rfl, rfl, rfl⟩)))⟩
  | replaceSender =>
    cases outgoing with
    | none => cases h
    | some sender =>
      cases h
      exact ⟨rfl, .inr (.inr (.inr (.inr (.inl ⟨sender, rfl, rfl, rfl, rfl⟩))))⟩
  | tryRecv =>
    simp only [step] at h
    split at h
    · next message hub'' hrecv =>
      cases h
      obtain ⟨address, hsome, hrest⟩ := Option.bind_eq_some_iff.mp hrecv
      obtain ⟨ch, hch, hrest⟩ := Option.bind_eq_some_iff.mp hrest
      obtain ⟨⟨text, ch'⟩, htake, heq⟩ := Option.bind_eq_some_iff.mp hrest
      cases heq
      exact ⟨rfl, .inr (.inr (.inr (.inr (.inr (.inl
        ⟨address, ch, message, ch', rfl, hsome, hch, htake, rfl, rfl⟩)))))⟩
    · cases h
      exact ⟨rfl, .inl ⟨rfl, rfl, rfl, nofun, nofun, rfl, fun _ => rfl, nofun, nofun, nofun⟩⟩
  | forward message =>
    cases h
    cases socket.ok <;>
      exact ⟨rfl, .inl ⟨rfl, rfl, rfl, nofun, nofun, rfl, fun _ => rfl, nofun, nofun, nofun⟩⟩
  | read =>
    cases h
    refine ⟨rfl, .inl ⟨rfl, rfl, rfl, nofun, ?_, ?_, fun _ => rfl, ?_, ?_, ?_⟩⟩
    · cases socket.frame <;> nofun
    · cases socket.frame <;> rfl
    · cases socket.frame <;> nofun
    · cases socket.frame <;> nofun
    · intro message hrequest
      cases hframe : socket.frame with
      | subscribe topics =>
        rw [hframe] at hrequest
        cases hrequest
        exact ⟨topics, .inl rfl⟩
      | unsubscribe topics =>
        rw [hframe] at hrequest
        cases hrequest
        exact ⟨topics, .inr rfl⟩
      | _ => rw [hframe] at hrequest; cases hrequest
  | request message =>
    cases h
    exact ⟨rfl, .inr (.inr (.inl ⟨_, _, rfl, rfl, .inr (.inl ⟨rfl, rfl⟩)⟩))⟩
  | respond =>
    cases h
    cases socket.ok <;>
      exact ⟨rfl, .inl ⟨rfl, rfl, rfl, nofun, nofun, rfl, fun _ => rfl, nofun, nofun, nofun⟩⟩
  | removeClient =>
    cases h
    exact ⟨rfl, .inr (.inr (.inr (.inr (.inr (.inr (.inl ⟨rfl, rfl, rfl⟩))))))⟩
  | clientDisconnected =>
    cases h
    exact ⟨rfl, .inr (.inr (.inl ⟨_, _, rfl, rfl, .inr (.inr ⟨rfl, rfl, rfl⟩)⟩))⟩
  | dropReceiver =>
    cases h
    exact ⟨rfl, .inr (.inr (.inr (.inr (.inr (.inr (.inr ⟨rfl, rfl, rfl⟩))))))⟩
  | returned => cases h

/-- A step of a connection thread adds nothing to a channel that is there, changes no topics
and takes no message. -/
theorem step_frame (h : conn.step socket hub = some (conn', hub')) :
    (∀ address, address < hub.channels.length → hub'.sentAt address = hub.sentAt address) ∧
      (∀ address, hub'.topicsAt address = hub.topicsAt address) ∧
      hub'.broadcasts.taken = hub.broadcasts.taken := by
  have happend : ∀ (address : Nat) (ch : Channel String), address < hub.channels.length →
      (((hub.channels ++ [ch])[address]?).map Channel.sent).getD [] = hub.sentAt address := by
    intro address ch hlt
    rw [List.getElem?_append_left hlt]
    rfl
  obtain ⟨-, hcases⟩ := step_cases h
  rcases hcases with ⟨rfl, -⟩ | ⟨-, rfl, -⟩ | ⟨message, point, rfl, -, -⟩ |
    ⟨-, rfl, -⟩ | ⟨sender, -, -, rfl, -⟩ |
    ⟨address, ch, message, ch', -, -, hch, hrecv, rfl, -⟩ | ⟨-, rfl, -⟩ | ⟨-, rfl, -⟩
  · exact ⟨fun _ _ => rfl, fun _ => rfl, rfl⟩
  · exact ⟨fun address hlt => happend address _ hlt, fun _ => Hub.topicsAt_append _, rfl⟩
  · exact ⟨fun _ _ => rfl, fun _ => rfl, rfl⟩
  · exact ⟨fun address hlt => happend address _ hlt, fun _ => rfl, rfl⟩
  · obtain ⟨hchannels, hsubs, hbroadcasts, -⟩ := replaceSender_frame conn sender hub
    refine ⟨fun address _ => ?_, fun address => ?_, by rw [hbroadcasts]⟩
    · rw [Hub.sentAt, hchannels, Hub.sentAt]
    · rw [Hub.topicsAt, hsubs, Hub.topicsAt]
  · -- the thread takes a text: what was put into the channel stays
    refine ⟨fun other _ => ?_, fun _ => rfl, rfl⟩
    by_cases heq : other = address
    · rw [heq, Hub.sentAt_set_self hch, Hub.sentAt_of_getElem? hch]
      exact (Channel.recv_eq_some hrecv).2.1
    · exact Hub.sentAt_set heq
  · exact ⟨fun _ _ => rfl, fun _ => rfl, rfl⟩
  · -- the thread drops its receiver: what was put into its channel stays there
    obtain ⟨-, hsubs, hbroadcasts, -, -⟩ := closeOutgoing_frame conn hub
    refine ⟨fun address _ => ?_, fun address => ?_, by rw [hbroadcasts]⟩
    · by_cases hown : conn.outgoing = some address
      · rw [Hub.sentAt, closeOutgoing, hown]
        show ((hub.channels.modify address Channel.close)[address]?.map Channel.sent).getD [] = _
        rw [List.getElem?_modify_eq, Hub.sentAt]
        cases hub.channels[address]? <;> rfl
      · rw [Hub.sentAt, getElem?_closeOutgoing hown, Hub.sentAt]
    · rw [Hub.topicsAt, hsubs, Hub.topicsAt]

/-- A step of a connection thread touches no other client in the map. -/
theorem step_lookup {id : ClientId} (h : conn.step socket hub = some (conn', hub'))
    (hne : id ≠ conn.id) : hub'.clients.lookup id = hub.clients.lookup id := by
  obtain ⟨-, hcases⟩ := step_cases h
  rcases hcases with ⟨rfl, -⟩ | ⟨-, rfl, -⟩ | ⟨message, point, rfl, -, -⟩ |
    ⟨-, rfl, -⟩ | ⟨sender, -, -, rfl, -⟩ | ⟨_, _, _, _, -, -, -, -, rfl, -⟩ | ⟨-, rfl, -⟩ |
    ⟨-, rfl, -⟩
  · rfl
  · rw [lookup_register, if_neg hne]
  · rfl
  · rfl
  · rw [lookup_replaceSender, if_neg hne]
  · rfl
  · exact Finmap.lookup_erase_ne hne
  · rw [(closeOutgoing_frame conn hub).1]

/-- The only receiver a step of a connection thread can drop is its own, and it returns then. -/
theorem step_openAt {address : Nat} (h : conn.step socket hub = some (conn', hub'))
    (hopen : hub.openAt address) :
    hub'.openAt address ∨ conn.outgoing = some address ∧ conn'.point = .returned := by
  obtain ⟨-, hcases⟩ := step_cases h
  rcases hcases with ⟨rfl, -⟩ | ⟨-, rfl, -⟩ | ⟨message, point, rfl, -, -⟩ |
    ⟨-, rfl, -⟩ | ⟨sender, -, -, rfl, -⟩ | ⟨_, ch, _, ch', -, -, hch, hrecv, rfl, -⟩ |
    ⟨-, rfl, -⟩ | ⟨-, rfl, rfl⟩
  · exact .inl hopen
  · exact .inl (Hub.openAt_append _ hopen)
  · exact .inl hopen
  · exact .inl (Hub.openAt_append _ hopen)
  · obtain ⟨hchannels, -⟩ := replaceSender_frame conn sender hub
    left
    rw [Hub.openAt, hchannels]
    exact hopen
  · exact .inl (Hub.openAt_set hch (Channel.recv_eq_some hrecv).2.2.1 hopen)
  · exact .inl hopen
  · by_cases hown : conn.outgoing = some address
    · exact .inr ⟨hown, rfl⟩
    · left
      rw [Hub.openAt, getElem?_closeOutgoing hown]
      exact hopen

/-- A step of a connection thread enqueues a request to subscribe only from its message loop,
and for its own client. -/
theorem step_waiting {id : ClientId} {topics : List SubscriptionTopic}
    (hrequest : ∀ message, conn.point = .request message → ∃ topics,
      message = .subscribe conn.id topics ∨ message = .unsubscribe conn.id topics)
    (h : conn.step socket hub = some (conn', hub'))
    (hmem : .subscribe id topics ∈ hub'.broadcasts.waiting) :
    .subscribe id topics ∈ hub.broadcasts.waiting ∨
      id = conn.id ∧ conn.point.inLoop = true := by
  obtain ⟨-, hcases⟩ := step_cases h
  rcases hcases with ⟨rfl, -⟩ | ⟨-, rfl, -⟩ | ⟨message, point, rfl, -, hpoint⟩ |
    ⟨-, rfl, -⟩ | ⟨sender, -, -, rfl, -⟩ | ⟨_, _, _, _, -, -, -, -, rfl, -⟩ | ⟨-, rfl, -⟩ |
    ⟨-, rfl, -⟩
  · exact .inl hmem
  · exact .inl hmem
  · rcases List.mem_append.mp hmem with hold | hnew
    · exact .inl hold
    -- the message is new: of the three a thread enqueues, only a request subscribes
    · have heq := List.mem_singleton.mp hnew
      rcases hpoint with ⟨-, hm, -⟩ | ⟨hpoint, -⟩ | ⟨-, hm, -⟩
      · rw [hm] at heq
        cases heq
      · obtain ⟨topics', hm | hm⟩ := hrequest message hpoint
        · rw [hm] at heq
          cases heq
          exact .inr ⟨rfl, by rw [hpoint]; rfl⟩
        · rw [hm] at heq
          cases heq
      · rw [hm] at heq
        cases heq
  · exact .inl hmem
  · obtain ⟨-, -, hbroadcasts, -⟩ := replaceSender_frame conn sender hub
    rw [hbroadcasts] at hmem
    exact .inl hmem
  · exact .inl hmem
  · exact .inl hmem
  · obtain ⟨-, -, hbroadcasts, -, -⟩ := closeOutgoing_frame conn hub
    rw [hbroadcasts] at hmem
    exact .inl hmem

end Connection

end TimeTracker
