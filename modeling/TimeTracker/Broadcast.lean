import TimeTracker.Lib.Channel
import TimeTracker.Lib.Iteration
import TimeTracker.MessageHandler

/-!
# The broadcaster

`broadcast.rs`: the thread that works through the broadcast channel and sends each update to
the clients that subscribed to its topic. A client is a pair of pointers: the sending end of
its channel and the set of its topics, both shared by all clones of the client, so `Hub` holds
the channels and the sets by their addresses.

`Broadcaster` is the thread, one constructor for each point between two accesses to what it
shares with the connection threads: the map of the clients, one set, one channel.
-/

namespace TimeTracker

/-- `broadcast::ClientId`. -/
abbrev ClientId := Nat

/-- `broadcast::WebSocketClient`; `sender` and `subscriptions` are addresses. -/
structure WebSocketClient where
  id : ClientId
  sender : Nat
  subscriptions : Nat
deriving DecidableEq

/-- `Mutex<HashMap<ClientId, WebSocketClient>>`. -/
abbrev ClientMap := Finmap fun _ : ClientId => WebSocketClient

/-- An item of the copied map. -/
abbrev ClientEntry := ClientId × WebSocketClient

/-- What the threads of the server share: the fields of `ServerState` that are not the client
of the database, and the channels and topic sets the clients point to. -/
structure Hub where
  trackingStatus : TrackingStatus
  clients : ClientMap
  broadcasts : Channel BroadcastMessage
  channels : List (Channel String)
  subscriptions : List (Finset SubscriptionTopic)

namespace Hub

/-- `let _ = self.broadcast_sender.send(message)`: the broadcaster never drops its receiver. -/
def enqueue (hub : Hub) (message : BroadcastMessage) : Hub :=
  { hub with broadcasts := hub.broadcasts.push message }

/-- The topics at an address. -/
def topicsAt (hub : Hub) (address : Nat) : Finset SubscriptionTopic :=
  (hub.subscriptions[address]?).getD ∅

/-- `client.sender.send(message)`. -/
def sendAt (hub : Hub) (address : Nat) (message : String) : Option Hub :=
  (hub.channels[address]?).bind fun ch =>
    (ch.send message).map fun ch' => { hub with channels := hub.channels.set address ch' }

/-- `order` lists the keys of the map of the clients, each once. -/
def isClientOrder (hub : Hub) (order : List ClientId) : Bool :=
  (order : Multiset ClientId) = hub.clients.keys.val

/-- `clients.iter().map(|(id, client)| (*id, client.clone()))`, in this order. -/
def copyClients (hub : Hub) (order : List ClientId) : List ClientEntry :=
  order.filterMap fun id => (hub.clients.lookup id).map fun client => (id, client)

end Hub

/-! ## Messages -/

def createTrackingStatusMessage (status : TrackingStatus) : String :=
  (WebSocketMessage.trackingStatusUpdate (Json.toText status.toValue)).toJson

def createAppsMessage (apps : List App) : String :=
  (WebSocketMessage.appsList (arrayJson App.toValue apps)).toJson

def createTimelineMessage (timeline : List Timeline) : String :=
  (WebSocketMessage.timelineData (arrayJson Timeline.toValue timeline)).toJson

/-- The topic and the text an update is broadcast with. Serialising these records does not
fail. -/
def BroadcastMessage.update : BroadcastMessage → Option (SubscriptionTopic × String)
  | .trackingStatusUpdate status => some (.trackingStatus, createTrackingStatusMessage status)
  | .appsUpdate apps => some (.apps, createAppsMessage apps)
  | .timelineUpdate timeline => some (.timeline, createTimelineMessage timeline)
  | _ => none

/-- `for topic in topics { subs.insert / subs.remove }`. -/
def applyTopics (subscribe : Bool) (topics : List SubscriptionTopic)
    (subs : Finset SubscriptionTopic) : Finset SubscriptionTopic :=
  topics.foldl (fun subs topic => if subscribe then insert topic subs else subs.erase topic) subs

/-! ## The thread -/

/-- The program points of `handle_broadcasts`. -/
inductive Broadcaster where
  /-- `for message in receiver` -/
  | receive
  /-- `broadcast_to_subscribers`: copy the map of the clients -/
  | copyClients (topic : SubscriptionTopic) (message : String)
  /-- `broadcast_to_subscribers`: look up the topic among those of the next client -/
  | isSubscribed (topic : SubscriptionTopic) (message : String) (client : ClientEntry)
      (clients : List ClientEntry) (disconnected : List ClientId)
  /-- `broadcast_to_subscribers`: send to that client -/
  | send (topic : SubscriptionTopic) (message : String) (client : ClientEntry)
      (clients : List ClientEntry) (disconnected : List ClientId)
  /-- `broadcast_to_subscribers`: remove the disconnected clients -/
  | remove (disconnected : List ClientId)
  /-- `handle_subscription`: look up the client -/
  | findClient (clientId : ClientId) (topics : List SubscriptionTopic) (subscribe : Bool)
  /-- `handle_subscription`: change its topics -/
  | changeTopics (clientId : ClientId) (subscriptions : Nat) (topics : List SubscriptionTopic)
      (subscribe : Bool)
deriving DecidableEq

namespace Broadcaster

/-- `match message`. -/
def handle : BroadcastMessage → Broadcaster
  | .trackingStatusUpdate status =>
    .copyClients .trackingStatus (createTrackingStatusMessage status)
  | .appsUpdate apps => .copyClients .apps (createAppsMessage apps)
  | .timelineUpdate timeline => .copyClients .timeline (createTimelineMessage timeline)
  | .clientConnected _ => .receive
  | .clientDisconnected _ => .receive
  | .subscribe clientId topics => .findClient clientId topics true
  | .unsubscribe clientId topics => .findClient clientId topics false

/-- `for (client_id, client) in clients`, and what follows the loop. -/
def forClients (topic : SubscriptionTopic) (message : String) (disconnected : List ClientId) :
    List ClientEntry → Broadcaster
  | client :: clients => .isSubscribed topic message client clients disconnected
  | [] => if disconnected.isEmpty then .receive else .remove disconnected

/-- One step of the broadcaster; `order` is the order in which the map is copied. -/
def step (order : List ClientId) : Broadcaster → Hub → Option (Broadcaster × Hub)
  | .receive, hub =>
    hub.broadcasts.recv.map fun (message, broadcasts) => (handle message, { hub with broadcasts })
  | .copyClients topic message, hub =>
    if hub.isClientOrder order then
      some (forClients topic message [] (hub.copyClients order), hub)
    else none
  | .isSubscribed topic message client clients disconnected, hub =>
    if topic ∈ hub.topicsAt client.2.subscriptions then
      some (.send topic message client clients disconnected, hub)
    else some (forClients topic message disconnected clients, hub)
  -- the copy of the client may be stale: its receiver gone, or its sender replaced since
  | .send topic message client clients disconnected, hub =>
    match hub.sendAt client.2.sender message with
    | some hub' => some (forClients topic message disconnected clients, hub')
    | none => some (forClients topic message (disconnected ++ [client.1]) clients, hub)
  | .remove disconnected, hub =>
    some (.receive, { hub with clients := disconnected.foldl (fun map id => map.erase id) hub.clients })
  | .findClient clientId topics subscribe, hub =>
    match hub.clients.lookup clientId with
    -- the client has left before its request is handled
    | none => some (.receive, hub)
    | some client => some (.changeTopics clientId client.subscriptions topics subscribe, hub)
  | .changeTopics _ subscriptions topics subscribe, hub =>
    some (.receive, { hub with
      subscriptions := hub.subscriptions.modify subscriptions (applyTopics subscribe topics) })

end Broadcaster

end TimeTracker
