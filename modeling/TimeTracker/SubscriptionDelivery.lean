import TimeTracker.ClientOwnership

/-!
# What a subscriber receives

What the broadcaster puts into the channel of a client, as a function of the messages it has
handled: the updates whose topic the client has subscribed to at that moment, in order and once
each. The broadcaster works on a copy of the map and on sets behind pointers, while connection
threads come and go; none of that shows.

* **`delivered_eq`**: the texts in the channel of a client that stays registered are
  `deliveries` of the handled messages.
* **`deliveryInvariant_step`**: the step lemma, with what the broadcaster still has to do for
  this client in the middle of a message (`Broadcaster.due`).
-/

namespace TimeTracker

/-! ## What is to be delivered -/

namespace BroadcastMessage

/-- The topics of client `id` after a message. -/
def topicsAfter (id : ClientId) (subs : Finset SubscriptionTopic) :
    BroadcastMessage → Finset SubscriptionTopic
  | .subscribe clientId topics => if clientId = id then subs ∪ topics.toFinset else subs
  | .unsubscribe clientId topics => if clientId = id then subs \ topics.toFinset else subs
  | _ => subs

/-- What a client with these topics is sent for a message. -/
def textFor (subs : Finset SubscriptionTopic) (message : BroadcastMessage) : List String :=
  match message.update with
  | some (topic, text) => if topic ∈ subs then [text] else []
  | none => []

end BroadcastMessage

/-- The topics of client `id` after the messages. -/
def subscribed (id : ClientId) : Finset SubscriptionTopic → List BroadcastMessage →
    Finset SubscriptionTopic
  | subs, [] => subs
  | subs, message :: messages => subscribed id (message.topicsAfter id subs) messages

/-- What client `id` is sent for the messages, with these topics at first. -/
def deliveries (id : ClientId) : Finset SubscriptionTopic → List BroadcastMessage → List String
  | _, [] => []
  | subs, message :: messages =>
    message.textFor subs ++ deliveries id (message.topicsAfter id subs) messages

theorem subscribed_concat (id : ClientId) (message : BroadcastMessage)
    (messages : List BroadcastMessage) :
    ∀ subs, subscribed id subs (messages ++ [message]) =
      message.topicsAfter id (subscribed id subs messages) := by
  induction messages with
  | nil => intro subs; rfl
  | cons m messages ih => intro subs; exact ih _

theorem deliveries_concat (id : ClientId) (message : BroadcastMessage)
    (messages : List BroadcastMessage) :
    ∀ subs, deliveries id subs (messages ++ [message]) =
      deliveries id subs messages ++ message.textFor (subscribed id subs messages) := by
  induction messages with
  | nil => intro subs; simp [deliveries, subscribed]
  | cons m messages ih =>
    intro subs
    rw [List.cons_append, deliveries, deliveries, subscribed, ih, List.append_assoc]

/-! ## In the middle of a message -/

namespace Broadcaster

/-- What the broadcaster is still going to send to client `id` for the message it is working
on, if the client has these topics. -/
def due (id : ClientId) (subs : Finset SubscriptionTopic) : Broadcaster → List String
  | .copyClients topic message => if topic ∈ subs then [message] else []
  | .isSubscribed topic message client clients _ =>
    if topic ∈ subs ∧ id ∈ (client :: clients).map Prod.fst then [message] else []
  | .send topic message client clients _ =>
    (if client.1 = id then [message] else []) ++
      if topic ∈ subs ∧ id ∈ clients.map Prod.fst then [message] else []
  | _ => []

/-- The topics of client `id` after the message the broadcaster is working on. -/
def topicsAfter (id : ClientId) (subs : Finset SubscriptionTopic) :
    Broadcaster → Finset SubscriptionTopic
  | .findClient clientId topics subscribe =>
    if clientId = id then applyTopics subscribe topics subs else subs
  | .changeTopics clientId _ topics subscribe =>
    if clientId = id then applyTopics subscribe topics subs else subs
  | _ => subs

variable {id : ClientId} {subs : Finset SubscriptionTopic}

theorem due_handle (message : BroadcastMessage) :
    (handle message).due id subs = message.textFor subs := by
  cases message <;> rfl

theorem topicsAfter_handle (message : BroadcastMessage) :
    (handle message).topicsAfter id subs = message.topicsAfter id subs := by
  cases message with
  | subscribe clientId topics =>
    simp only [handle, topicsAfter, BroadcastMessage.topicsAfter, applyTopics_subscribe]
  | unsubscribe clientId topics =>
    simp only [handle, topicsAfter, BroadcastMessage.topicsAfter, applyTopics_unsubscribe]
  | _ => rfl

theorem due_forClients (topic : SubscriptionTopic) (message : String) (disc : List ClientId)
    (clients : List ClientEntry) : (forClients topic message disc clients).due id subs =
      if topic ∈ subs ∧ id ∈ clients.map Prod.fst then [message] else [] := by
  cases clients with
  | cons client clients => rfl
  | nil =>
    have hnone : ¬ (topic ∈ subs ∧ id ∈ ([] : List ClientEntry).map Prod.fst) := by simp
    rw [if_neg hnone, forClients]
    split <;> rfl

theorem topicsAfter_forClients (topic : SubscriptionTopic) (message : String)
    (disc : List ClientId) (clients : List ClientEntry) :
    (forClients topic message disc clients).topicsAfter id subs = subs := by
  cases clients with
  | cons client clients => rfl
  | nil =>
    rw [forClients]
    split <;> rfl

end Broadcaster

/-! ## The invariant -/

/-- The client is in the map, and its receiver is alive. -/
structure WebSocketServer.serves (s : WebSocketServer) (id : ClientId) (client : WebSocketClient) :
    Prop where
  lookup : s.hub.clients.lookup id = some client
  alive : s.hub.openAt client.sender

/-- Since a state with the messages `taken₀` behind it, in which client `id` had the topics
`subs₀` and the texts `sent₀` in its channel, the messages `handled` have been handled. -/
structure DeliveryInvariant (id : ClientId) (client : WebSocketClient)
    (taken₀ : List BroadcastMessage) (subs₀ : Finset SubscriptionTopic) (sent₀ : List String)
    (s : WebSocketServer) (handled : List BroadcastMessage) : Prop where
  separate : s.Separate
  entries : ∀ client', (id, client') ∈ s.broadcaster.entries → client' = client
  nodup : (s.broadcaster.entries.map Prod.fst).Nodup
  changing : ∀ address, s.broadcaster.changing = some (id, address) →
    address = client.subscriptions
  taken : s.hub.broadcasts.taken = taken₀ ++ handled
  sent : s.hub.sentAt client.sender ++
      s.broadcaster.due id (s.hub.topicsAt client.subscriptions) =
    sent₀ ++ deliveries id subs₀ handled
  topics : s.broadcaster.topicsAfter id (s.hub.topicsAt client.subscriptions) =
    subscribed id subs₀ handled

/-! ## The steps -/

section
variable {id : ClientId} {client : WebSocketClient} {taken₀ handled : List BroadcastMessage}
  {subs₀ : Finset SubscriptionTopic} {sent₀ : List String} {s s' : WebSocketServer}

/-- A step of another thread. -/
theorem DeliveryInvariant.frame (hinv : DeliveryInvariant id client taken₀ subs₀ sent₀ s handled)
    (hsep : s'.Separate) (hb : s'.broadcaster = s.broadcaster)
    (hsent : s'.hub.sentAt client.sender = s.hub.sentAt client.sender)
    (htopics : s'.hub.topicsAt client.subscriptions = s.hub.topicsAt client.subscriptions)
    (htaken : s'.hub.broadcasts.taken = s.hub.broadcasts.taken) :
    DeliveryInvariant id client taken₀ subs₀ sent₀ s' handled := by
  refine ⟨hsep, ?_, ?_, ?_, htaken.trans hinv.taken, ?_, ?_⟩
  · rw [hb]
    exact hinv.entries
  · rw [hb]
    exact hinv.nodup
  · rw [hb]
    exact hinv.changing
  · rw [hb, hsent, htopics]
    exact hinv.sent
  · rw [hb, htopics]
    exact hinv.topics

/-- A step of the broadcaster inside a message: what it sends to the client it no longer owes
it. -/
theorem DeliveryInvariant.work {b : Broadcaster} {hub : Hub}
    (hinv : DeliveryInvariant id client taken₀ subs₀ sent₀ s handled)
    (hsep : WebSocketServer.Separate { s with broadcaster := b, hub })
    (hentries : ∀ client', (id, client') ∈ b.entries → client' = client)
    (hnodup : (b.entries.map Prod.fst).Nodup)
    (hchanging : ∀ address, b.changing = some (id, address) → address = client.subscriptions)
    (htaken : hub.broadcasts = s.hub.broadcasts)
    (hsent : hub.sentAt client.sender ++ b.due id (hub.topicsAt client.subscriptions) =
      s.hub.sentAt client.sender ++
        s.broadcaster.due id (s.hub.topicsAt client.subscriptions))
    (htopics : b.topicsAfter id (hub.topicsAt client.subscriptions) =
      s.broadcaster.topicsAfter id (s.hub.topicsAt client.subscriptions)) :
    DeliveryInvariant id client taken₀ subs₀ sent₀ { s with broadcaster := b, hub } handled :=
  ⟨hsep, hentries, hnodup, hchanging,
    (congrArg Channel.taken htaken).trans hinv.taken, hsent.trans hinv.sent,
    htopics.trans hinv.topics⟩

/-- The broadcaster takes the next message. -/
theorem deliveryInvariant_receive {message : BroadcastMessage}
    {broadcasts : Channel BroadcastMessage}
    (hinv : DeliveryInvariant id client taken₀ subs₀ sent₀ s handled)
    (hs : s.broadcaster = .receive) (hrecv : s.hub.broadcasts.recv = some (message, broadcasts))
    (hsep : WebSocketServer.Separate
      { s with broadcaster := .handle message, hub := { s.hub with broadcasts } }) :
    DeliveryInvariant id client taken₀ subs₀ sent₀
      { s with broadcaster := .handle message, hub := { s.hub with broadcasts } }
      (handled ++ [message]) := by
  obtain ⟨htaken, -, -, -⟩ := Channel.recv_eq_some hrecv
  have hsent := hinv.sent
  have htopics := hinv.topics
  rw [hs] at hsent htopics
  -- nothing was owed, and the topics are those after the messages so far
  change s.hub.sentAt client.sender ++ [] = _ at hsent
  change s.hub.topicsAt client.subscriptions = _ at htopics
  rw [List.append_nil] at hsent
  refine ⟨hsep, ?_, ?_, ?_, ?_, ?_, ?_⟩
  · rw [Broadcaster.entries_handle]
    nofun
  · rw [Broadcaster.entries_handle]
    exact List.nodup_nil
  · rw [Broadcaster.changing_handle]
    nofun
  · show broadcasts.taken = _
    rw [htaken, hinv.taken, List.append_assoc]
  · show s.hub.sentAt client.sender ++ (Broadcaster.handle message).due id
      (s.hub.topicsAt client.subscriptions) = _
    rw [Broadcaster.due_handle, deliveries_concat, ← List.append_assoc, ← hsent, htopics]
  · show (Broadcaster.handle message).topicsAfter id (s.hub.topicsAt client.subscriptions) = _
    rw [Broadcaster.topicsAfter_handle, subscribed_concat, htopics]

/-- The channel of another client is another channel. -/
theorem sender_ne {entry : ClientEntry} (hsep : s.Separate) (hserves : s.serves id client)
    (hentry : entry ∈ s.broadcaster.entries) (hne : entry.1 ≠ id) :
    client.sender ≠ entry.2.sender := by
  intro heq
  obtain ⟨conn, hconn, hid, howns⟩ := hsep.sender id client (.inl hserves.lookup)
  obtain ⟨conn', hconn', hid', howns'⟩ := hsep.sender entry.1 entry.2 (.inr hentry)
  rw [heq] at howns
  exact hne (hid'.symm.trans ((hsep.unique conn' hconn' conn hconn _ howns' howns).trans hid))

/-- The copy of the map the broadcaster works on, split at its next client. -/
structure NextClient (id : ClientId) (client : WebSocketClient) (entry : ClientEntry)
    (clients : List ClientEntry) : Prop where
  own : entry.1 = id → entry.2 = client
  once : entry.1 = id → id ∉ clients.map Prod.fst
  entries : ∀ client', (id, client') ∈ clients → client' = client
  nodup : (clients.map Prod.fst).Nodup

theorem DeliveryInvariant.nextClient {entry : ClientEntry} {clients : List ClientEntry}
    (hinv : DeliveryInvariant id client taken₀ subs₀ sent₀ s handled)
    (hs : s.broadcaster.entries = entry :: clients) : NextClient id client entry clients := by
  have hentries := hinv.entries
  have hnodup := hinv.nodup
  rw [hs] at hentries hnodup
  rw [List.map_cons, List.nodup_cons] at hnodup
  refine ⟨fun heq => ?_, fun heq => heq ▸ hnodup.1, fun client' hc => ?_, hnodup.2⟩
  · exact hentries entry.2 (by rw [← heq]; exact List.mem_cons_self)
  · exact hentries client' (List.mem_cons_of_mem entry hc)

/-- The broadcaster goes on to the rest of the copy. -/
theorem DeliveryInvariant.forClients {topic : SubscriptionTopic} {message : String}
    {entry : ClientEntry} {clients : List ClientEntry} {disc : List ClientId} {hub : Hub}
    (hinv : DeliveryInvariant id client taken₀ subs₀ sent₀ s handled)
    (hnext : NextClient id client entry clients)
    (hsep : WebSocketServer.Separate
      { s with broadcaster := .forClients topic message disc clients, hub })
    (htaken : hub.broadcasts = s.hub.broadcasts) (hsubs : hub.subscriptions = s.hub.subscriptions)
    (hsent : hub.sentAt client.sender ++
        (if topic ∈ s.hub.topicsAt client.subscriptions ∧ id ∈ clients.map Prod.fst
          then [message] else []) =
      s.hub.sentAt client.sender ++ s.broadcaster.due id (s.hub.topicsAt client.subscriptions))
    (htopics : s.broadcaster.topicsAfter id (s.hub.topicsAt client.subscriptions) =
      s.hub.topicsAt client.subscriptions) :
    DeliveryInvariant id client taken₀ subs₀ sent₀
      { s with broadcaster := .forClients topic message disc clients, hub } handled := by
  have hsame : hub.topicsAt client.subscriptions = s.hub.topicsAt client.subscriptions := by
    rw [Hub.topicsAt, hsubs, Hub.topicsAt]
  refine hinv.work hsep ?_ ?_ ?_ htaken ?_ ?_
  · rw [Broadcaster.entries_forClients]
    exact hnext.entries
  · rw [Broadcaster.entries_forClients]
    exact hnext.nodup
  · rw [Broadcaster.changing_forClients]
    intro address hchanging
    cases hchanging
  · rw [Broadcaster.due_forClients, hsame]
    exact hsent
  · rw [Broadcaster.topicsAfter_forClients, hsame]
    exact htopics.symm

/-- The broadcaster copies the map: the client is in the copy, once. -/
theorem deliveryInvariant_copyClients {order : List ClientId} {topic : SubscriptionTopic}
    {message : String} (hinv : DeliveryInvariant id client taken₀ subs₀ sent₀ s handled)
    (hserves : s.serves id client) (hs : s.broadcaster = .copyClients topic message)
    (horder : s.hub.isClientOrder order = true)
    (hsep : WebSocketServer.Separate
      { s with broadcaster := .forClients topic message [] (s.hub.copyClients order) }) :
    DeliveryInvariant id client taken₀ subs₀ sent₀
      { s with broadcaster := .forClients topic message [] (s.hub.copyClients order) } handled := by
  have hmem : id ∈ (s.hub.copyClients order).map Prod.fst :=
    List.mem_map.mpr ⟨(id, client), (Hub.mem_copyClients horder).mpr hserves.lookup, rfl⟩
  refine hinv.work hsep ?_ ?_ ?_ rfl ?_ ?_
  · intro client' hclient'
    rw [Broadcaster.entries_forClients, Hub.mem_copyClients horder] at hclient'
    exact (Option.some.inj (hserves.lookup.symm.trans hclient')).symm
  · rw [Broadcaster.entries_forClients]
    exact Hub.nodup_copyClients horder
  · rw [Broadcaster.changing_forClients]
    nofun
  · rw [Broadcaster.due_forClients, hs]
    simp only [hmem, and_true, Broadcaster.due]
  · rw [Broadcaster.topicsAfter_forClients, hs]
    rfl

/-- The broadcaster looks up whether the next client has subscribed. -/
theorem deliveryInvariant_isSubscribed {topic : SubscriptionTopic} {message : String}
    {entry : ClientEntry} {clients : List ClientEntry} {disc : List ClientId} {b : Broadcaster}
    (hinv : DeliveryInvariant id client taken₀ subs₀ sent₀ s handled)
    (hs : s.broadcaster = .isSubscribed topic message entry clients disc)
    (hb : topic ∈ s.hub.topicsAt entry.2.subscriptions ∧
        b = .send topic message entry clients disc ∨
      topic ∉ s.hub.topicsAt entry.2.subscriptions ∧ b = .forClients topic message disc clients)
    (hsep : WebSocketServer.Separate { s with broadcaster := b }) :
    DeliveryInvariant id client taken₀ subs₀ sent₀ { s with broadcaster := b } handled := by
  have hnext := hinv.nextClient (by rw [hs]; rfl)
  rcases hb with ⟨hmem, rfl⟩ | ⟨hmem, rfl⟩
  · have hentries := hinv.entries
    have hnodup := hinv.nodup
    rw [hs] at hentries hnodup
    refine hinv.work hsep hentries hnodup nofun rfl ?_ (by rw [hs]; rfl)
    -- the same is owed, now in two parts if the entry is the client's
    rw [hs]
    simp only [Broadcaster.due, List.map_cons, List.mem_cons]
    by_cases heq : entry.1 = id
    · rw [hnext.own heq] at hmem
      simp [heq, hmem, hnext.once heq]
    · have hne : ¬ id = entry.1 := fun he => heq he.symm
      simp only [heq, hne, if_false, false_or, List.nil_append]
  · refine hinv.forClients hnext hsep rfl rfl ?_ (by rw [hs]; rfl)
    rw [hs]
    simp only [Broadcaster.due, List.map_cons, List.mem_cons]
    by_cases heq : entry.1 = id
    -- the client itself, without the topic: nothing was owed to it
    · rw [hnext.own heq] at hmem
      simp only [hmem, false_and, if_false]
    · have hne : ¬ id = entry.1 := fun he => heq he.symm
      simp only [hne, false_or]

/-- The broadcaster sends to the next client. To this client the send goes through, and a send
to another one ends in another channel. -/
theorem deliveryInvariant_send {topic : SubscriptionTopic} {message : String}
    {entry : ClientEntry} {clients : List ClientEntry} {disc disc' : List ClientId} {hub : Hub}
    (hinv : DeliveryInvariant id client taken₀ subs₀ sent₀ s handled)
    (hserves : s.serves id client)
    (hs : s.broadcaster = .send topic message entry clients disc)
    (hsend : s.hub.sendAt entry.2.sender message = some hub ∨
      s.hub.sendAt entry.2.sender message = none ∧ hub = s.hub)
    (hsep : WebSocketServer.Separate
      { s with broadcaster := .forClients topic message disc' clients, hub }) :
    DeliveryInvariant id client taken₀ subs₀ sent₀
      { s with broadcaster := .forClients topic message disc' clients, hub } handled := by
  have hnext := hinv.nextClient (by rw [hs]; rfl)
  have hentry : entry ∈ s.broadcaster.entries := by rw [hs]; exact List.mem_cons_self
  rcases hsend with hsend | ⟨hfail, rfl⟩
  · obtain ⟨ch, hch, hopen, rfl⟩ := Hub.sendAt_eq_some hsend
    refine hinv.forClients hnext hsep rfl rfl ?_ (by rw [hs]; rfl)
    rw [hs]
    simp only [Broadcaster.due]
    by_cases heq : entry.1 = id
    · -- the text goes to the end of the client's channel
      rw [hnext.own heq] at hch ⊢
      rw [Hub.sentAt_set_self hch, Channel.sent_push, Hub.sentAt_of_getElem? hch, if_pos heq,
        List.append_assoc]
    · rw [Hub.sentAt_set (sender_ne hinv.separate hserves hentry heq), if_neg heq, List.nil_append]
  · refine hinv.forClients hnext hsep rfl rfl ?_ (by rw [hs]; rfl)
    -- a send fails at a dropped receiver only, and that of this client is alive
    have hne : entry.1 ≠ id := by
      intro heq
      rw [hnext.own heq] at hfail
      exact Hub.sendAt_eq_none hfail hserves.alive
    rw [hs]
    simp only [Broadcaster.due, hne, if_false, List.nil_append]

/-- The broadcaster changes the topics of a client. Those of another client are elsewhere. -/
theorem deliveryInvariant_changeTopics {id' : ClientId} {address : Nat}
    {topics : List SubscriptionTopic} {subscribe : Bool}
    (hinv : DeliveryInvariant id client taken₀ subs₀ sent₀ s handled)
    (hserves : s.serves id client)
    (hs : s.broadcaster = .changeTopics id' address topics subscribe)
    (hsep : WebSocketServer.Separate { s with broadcaster := .receive, hub := { s.hub with
      subscriptions := s.hub.subscriptions.modify address (applyTopics subscribe topics) } }) :
    DeliveryInvariant id client taken₀ subs₀ sent₀
      { s with broadcaster := .receive, hub := { s.hub with
        subscriptions := s.hub.subscriptions.modify address (applyTopics subscribe topics) } }
      handled := by
  have hchanging : s.pointsTo id' address := .inr (by rw [hs]; rfl)
  have hclient : s.pointsTo id client.subscriptions :=
    .inl ⟨client, .inl hserves.lookup, rfl⟩
  have htopics := hinv.topics
  refine hinv.work hsep nofun List.nodup_nil nofun rfl (by rw [hs]; rfl) ?_
  rw [hs]
  show Hub.topicsAt _ client.subscriptions = if id' = id then _ else _
  rw [Hub.topicsAt_changeTopics (hinv.separate.topicsBounded id' address hchanging)]
  by_cases heq : id' = id
  · have hown : address = client.subscriptions :=
      hinv.changing address (by rw [hs, ← heq]; rfl)
    rw [if_pos hown.symm, if_pos heq, hown]
  -- no two clients share a set of topics
  · have hne : client.subscriptions ≠ address := by
      intro he
      rw [he] at hclient
      exact heq (hinv.separate.topicsUnique id' id address hchanging hclient)
    rw [if_neg hne, if_neg heq]

/-- **One step of the broadcaster**, for a client that is in the map with a live receiver. -/
theorem deliveryInvariant_broadcast {order : List ClientId} {b : Broadcaster} {hub : Hub}
    (hinv : DeliveryInvariant id client taken₀ subs₀ sent₀ s handled)
    (hserves : s.serves id client) (h : s.broadcaster.step order s.hub = some (b, hub)) :
    ∃ handled', DeliveryInvariant id client taken₀ subs₀ sent₀
      { s with broadcaster := b, hub } handled' := by
  have hsep := WebSocketServer.separate_broadcast hinv.separate h
  rcases Broadcaster.step_cases h with ⟨message, broadcasts, hs, hrecv, rfl, rfl⟩ |
    ⟨topic, message, hs, horder, rfl, rfl⟩ | ⟨topic, message, entry, clients, disc, hs, rfl, hb⟩ |
    ⟨topic, message, entry, clients, disc, hs, ⟨hsend, rfl⟩ | ⟨hfail, hhub, rfl⟩⟩ |
    ⟨disc, hs, rfl, rfl⟩ | ⟨id', topics, subscribe, hs, rfl, hb⟩ |
    ⟨id', address, topics, subscribe, hs, rfl, rfl⟩
  · exact ⟨_, deliveryInvariant_receive hinv hs hrecv hsep⟩
  -- in the middle of a message: the messages handled are the same
  · exact ⟨handled, deliveryInvariant_copyClients hinv hserves hs horder hsep⟩
  · exact ⟨handled, deliveryInvariant_isSubscribed hinv hs hb hsep⟩
  · exact ⟨handled, deliveryInvariant_send hinv hserves hs (.inl hsend) hsep⟩
  · exact ⟨handled, deliveryInvariant_send hinv hserves hs (.inr ⟨hfail, hhub⟩) hsep⟩
  · -- removing clients sends nothing
    refine ⟨handled, hinv.work hsep nofun List.nodup_nil nofun rfl ?_ ?_⟩
    · rw [hs]
      rfl
    · rw [hs]
      rfl
  · rcases hb with ⟨hnone, rfl⟩ | ⟨client', hsome, rfl⟩
    · -- a message for a client that is not there
      have hne : id' ≠ id := by
        rintro rfl
        rw [hserves.lookup] at hnone
        cases hnone
      refine ⟨handled, hinv.work hsep nofun List.nodup_nil nofun rfl (by rw [hs]; rfl) ?_⟩
      rw [hs]
      exact (if_neg hne).symm
    · refine ⟨handled, hinv.work hsep nofun List.nodup_nil ?_ rfl (by rw [hs]; rfl)
        (by rw [hs]; rfl)⟩
      intro address hchanging
      cases hchanging
      rw [hserves.lookup] at hsome
      cases hsome
      rfl
  · exact ⟨handled, deliveryInvariant_changeTopics hinv hserves hs hsep⟩

/-- **One step of the server**, for a client that is in the map with a live receiver. -/
theorem deliveryInvariant_step {l : ServerLabel}
    (hinv : ∃ handled, DeliveryInvariant id client taken₀ subs₀ sent₀ s handled)
    (hserves : s.serves id client) (h : webSocketServer.step s l = some s') :
    ∃ handled, DeliveryInvariant id client taken₀ subs₀ sent₀ s' handled := by
  obtain ⟨handled, hinv⟩ := hinv
  have hsep := WebSocketServer.separate_step s l s' hinv.separate h
  cases l with
  | broadcast order =>
    obtain ⟨b, hub, hstep, rfl⟩ := server_broadcast h
    exact deliveryInvariant_broadcast hinv hserves hstep
  | accept =>
    cases h
    exact ⟨handled, hinv.frame hsep rfl rfl rfl rfl⟩
  | connection k socket =>
    obtain ⟨conn, conn', hub, -, hstep, rfl⟩ := server_connection h
    obtain ⟨hsent, htopics, htaken⟩ := Connection.step_frame hstep
    -- the channel is there already, so a new one does not take its address
    obtain ⟨ch, hch, -⟩ := hserves.alive
    have hlt : client.sender < s.hub.channels.length := (List.getElem?_eq_some_iff.mp hch).1
    exact ⟨handled, hinv.frame hsep rfl (hsent _ hlt) (htopics _) htaken⟩
  | statusCall k =>
    obtain ⟨call, call', hub, -, hstep, rfl⟩ := server_statusCall h
    obtain ⟨-, ⟨-, -, rfl⟩ | ⟨-, -, rfl⟩⟩ := StatusCall.step_cases hstep
    · exact ⟨handled, hinv.frame hsep rfl rfl rfl rfl⟩
    · exact ⟨handled, hinv.frame hsep rfl rfl rfl rfl⟩
  | post message =>
    cases h
    exact ⟨handled, hinv.frame hsep rfl rfl rfl rfl⟩

end

/-! ## Runs -/

/-- **What a subscriber receives.** While client `id` is in the map with a live receiver, the
texts put into its channel from the moment the channel and its topics are empty are
`deliveries` of the messages handled since, whatever else happens. -/
theorem delivered_eq {statuses : List TrackingStatus} {ls₀ ls : List ServerLabel}
    {s₀ s : WebSocketServer} {id : ClientId} {client : WebSocketClient}
    (hreach : webSocketServer.Runs (fun _ _ => True) (.initial statuses) ls₀ s₀)
    (hidle₀ : s₀.broadcaster = .receive) (htopics₀ : s₀.hub.topicsAt client.subscriptions = ∅)
    (hsent₀ : s₀.hub.sentAt client.sender = [])
    (hrun : webSocketServer.Runs (fun s _ => s.serves id client) s₀ ls s)
    (hidle : s.broadcaster = .receive) :
    ∃ handled, s.hub.broadcasts.taken = s₀.hub.broadcasts.taken ++ handled ∧
      s.hub.sentAt client.sender = deliveries id ∅ handled := by
  have hsep₀ : s₀.Separate := hreach.invariant
    (fun s l s' hsep _ h => WebSocketServer.separate_step s l s' hsep h)
    (WebSocketServer.separate_initial statuses)
  have hstart : DeliveryInvariant id client s₀.hub.broadcasts.taken ∅ [] s₀ [] := by
    refine ⟨hsep₀, ?_, ?_, ?_, (List.append_nil _).symm, ?_, ?_⟩
    · rw [hidle₀]
      nofun
    · rw [hidle₀]
      exact List.nodup_nil
    · rw [hidle₀]
      nofun
    · rw [hsent₀, hidle₀]
      rfl
    · rw [htopics₀, hidle₀]
      rfl
  obtain ⟨handled, hinv⟩ := hrun.invariant
    (I := fun s => ∃ handled,
      DeliveryInvariant id client s₀.hub.broadcasts.taken ∅ [] s handled)
    (fun s l s' hinv hserves h => deliveryInvariant_step hinv hserves h) ⟨[], hstart⟩
  have hsent := hinv.sent
  rw [hidle] at hsent
  change s.hub.sentAt client.sender ++ [] = [] ++ _ at hsent
  rw [List.append_nil, List.nil_append] at hsent
  exact ⟨handled, hinv.taken, hsent⟩

/-! A run of the theorem: one connection, which subscribes to the apps. -/

instance (s : WebSocketServer) (id : ClientId) (client : WebSocketClient) :
    Decidable (s.serves id client) :=
  decidable_of_iff (s.hub.clients.lookup id = some client ∧
      ∃ ch ∈ s.hub.channels[client.sender]?, ch.isOpen = true)
    ⟨fun h => ⟨h.1, h.2⟩, fun h => ⟨h.lookup, h.alive⟩⟩

/-- The first connection, up to its message loop, and its `ClientConnected` message. -/
def firstConnection : List ServerLabel :=
  [.accept] ++ List.replicate 7 (.connection 0 {}) ++ [.broadcast []]

/-- Client 1 subscribes to the apps, and the apps change twice; in between it unsubscribes. -/
def subscribeToApps : List ServerLabel :=
  [.connection 0 {}, .connection 0 { frame := .subscribe [.apps] }, .connection 0 {},
    .connection 0 {}, .post (.appsUpdate []), .post (.unsubscribe 1 [.apps]),
    .post (.appsUpdate []), .post (.subscribe 2 [.apps])] ++
    List.replicate 15 (.broadcast [1])

/-- The client of the first connection, once it is in its message loop. -/
def firstClient : WebSocketClient := ⟨1, 1, 0⟩

/-- One of the two updates reaches the client. -/
theorem delivered_eq_subscribeToApps :
    ∃ s₀ s, webSocketServer.exec (.initial []) firstConnection = some s₀ ∧
      webSocketServer.execWhere (fun s _ => s.serves 1 firstClient) s₀ subscribeToApps = some s ∧
      (s.hub.sentAt firstClient.sender).length = 1 ∧
      ∃ handled, s.hub.broadcasts.taken = s₀.hub.broadcasts.taken ++ handled ∧
        s.hub.sentAt firstClient.sender = deliveries 1 ∅ handled := by
  have hend : ((webSocketServer.exec (.initial []) firstConnection).bind fun s₀ =>
      (webSocketServer.execWhere (fun s _ => s.serves 1 firstClient) s₀ subscribeToApps).map
        fun s => decide (s₀.broadcaster = .receive ∧
          s₀.hub.topicsAt firstClient.subscriptions = ∅ ∧
          s₀.hub.sentAt firstClient.sender = [] ∧ s.broadcaster = .receive ∧
          (s.hub.sentAt firstClient.sender).length = 1)) = some true := by decide
  obtain ⟨s₀, hfirst, hend⟩ := Option.bind_eq_some_iff.mp hend
  obtain ⟨s, hexec, hs⟩ := Option.map_eq_some_iff.mp hend
  obtain ⟨hidle₀, htopics₀, hsent₀, hidle, hone⟩ := of_decide_eq_true hs
  exact ⟨s₀, s, hfirst, hexec, hone, delivered_eq (Transition.System.runs_of_exec hfirst) hidle₀
    htopics₀ hsent₀ (Transition.System.runs_of_execWhere hexec) hidle⟩

end TimeTracker
