import TimeTracker.Broadcast
import TimeTracker.Lib.Pool
import TimeTracker.Lib.Runs

/-!
# The WebSocket server

`client.rs` and `server.rs`: the thread of each connection, the callers that report a tracking
status, the loop that accepts connections, and all of them with the broadcaster as one
transition system. A connection thread registers its client with a channel whose receiving end
is dropped at once, and puts the sending end of a second channel in its place once the first
status has been sent; it removes its client when it leaves its loop.
-/

namespace TimeTracker

/-! ## A connection -/

/-- What `websocket.read()` returns. A request that subscribes is told from the others: those
enqueue nothing for this client. -/
inductive Frame where
  | close
  /-- neither text nor binary -/
  | control
  | subscribe (topics : List SubscriptionTopic)
  | unsubscribe (topics : List SubscriptionTopic)
  | text
  | wouldBlock
  | error
deriving DecidableEq

/-- What the socket does in a step: whether it takes what is sent, and what is read. -/
structure Socket where
  ok : Bool := true
  frame : Frame := .wouldBlock

/-- The program points of `handle_connection` and `handle_client_messages`. -/
inductive ConnectionPoint where
  /-- `accept(stream)`, `set_nonblocking(true)` -/
  | accept
  /-- `add_client`: insert into the map -/
  | addClient
  /-- `add_client`: enqueue `ClientConnected` -/
  | clientConnected
  /-- `get_current_tracking_status()` -/
  | getStatus
  | sendInitialStatus (status : TrackingStatus)
  /-- the second `mpsc::channel()` -/
  | createOutgoing
  /-- `client.sender = outgoing_sender` -/
  | replaceSender
  /-- the loop: `outgoing_receiver.try_recv()` -/
  | tryRecv
  /-- the loop: `websocket.send(outgoing_message)` -/
  | forward (message : String)
  /-- the loop: `websocket.read()` -/
  | read
  /-- the loop: the request enqueues `message` -/
  | request (message : BroadcastMessage)
  /-- the loop: `websocket.send(response_text)` -/
  | respond
  /-- `remove_client`: remove from the map -/
  | removeClient
  /-- `remove_client`: enqueue `ClientDisconnected` -/
  | clientDisconnected
  /-- the function returns: its receiving end is dropped -/
  | dropReceiver
  | returned
deriving DecidableEq

/-- A connection thread, with the channels it has created. -/
structure Connection where
  id : ClientId
  clientSender : Option Nat
  outgoing : Option Nat
  point : ConnectionPoint
deriving DecidableEq

namespace Connection

/-- A thread as `thread::spawn` starts it. -/
def spawned (id : ClientId) : Connection := ⟨id, none, none, .accept⟩

/-- `add_client` of a client with a channel nobody receives from and no topics. -/
def register (conn : Connection) (hub : Hub) : Hub :=
  { hub with
    clients := hub.clients.insert conn.id
      ⟨conn.id, hub.channels.length, hub.subscriptions.length⟩
    channels := hub.channels ++ [.newClosed]
    subscriptions := hub.subscriptions ++ [∅] }

/-- `if let Some(client) = clients_guard.get_mut(&client_id) { client.sender = … }`. -/
def replaceSender (conn : Connection) (sender : Nat) (hub : Hub) : Hub :=
  match hub.clients.lookup conn.id with
  | some client => { hub with clients := hub.clients.insert conn.id { client with sender } }
  | none => hub

/-- `outgoing_receiver.try_recv()`. -/
def tryRecv (conn : Connection) (hub : Hub) : Option (String × Hub) := do
  let address ← conn.outgoing
  let ch ← hub.channels[address]?
  let (message, ch') ← ch.recv
  return (message, { hub with channels := hub.channels.set address ch' })

/-- The channel the thread received from is closed. -/
def closeOutgoing (conn : Connection) (hub : Hub) : Hub :=
  match conn.outgoing with
  | some address => { hub with channels := hub.channels.modify address Channel.close }
  | none => hub

/-- What a request of this connection enqueues: a client subscribes under its own id. -/
def afterRead (conn : Connection) : Frame → ConnectionPoint
  | .close => .removeClient
  | .control => .tryRecv
  | .subscribe topics => .request (.subscribe conn.id topics)
  | .unsubscribe topics => .request (.unsubscribe conn.id topics)
  | .text => .respond
  | .wouldBlock => .tryRecv
  | .error => .removeClient

def step (socket : Socket) (conn : Connection) (hub : Hub) : Option (Connection × Hub) :=
  match conn.point with
  | .accept => some ({ conn with point := if socket.ok then .addClient else .returned }, hub)
  | .addClient =>
    some ({ conn with clientSender := some hub.channels.length, point := .clientConnected },
      conn.register hub)
  | .clientConnected => some ({ conn with point := .getStatus }, hub.enqueue (.clientConnected conn.id))
  -- no topics yet: what is broadcast from here to the first subscription passes the client by
  | .getStatus => some ({ conn with point := .sendInitialStatus hub.trackingStatus }, hub)
  | .sendInitialStatus _ =>
    some ({ conn with point := if socket.ok then .createOutgoing else .removeClient }, hub)
  | .createOutgoing =>
    some ({ conn with outgoing := some hub.channels.length, point := .replaceSender },
      { hub with channels := hub.channels ++ [.new] })
  | .replaceSender =>
    match conn.outgoing with
    | some sender => some ({ conn with point := .tryRecv }, conn.replaceSender sender hub)
    | none => none
  | .tryRecv =>
    match conn.tryRecv hub with
    | some (message, hub') => some ({ conn with point := .forward message }, hub')
    -- empty or disconnected: `try_recv` does not wait
    | none => some ({ conn with point := .read }, hub)
  | .forward _ => some ({ conn with point := if socket.ok then .read else .removeClient }, hub)
  | .read => some ({ conn with point := conn.afterRead socket.frame }, hub)
  | .request message => some ({ conn with point := .respond }, hub.enqueue message)
  | .respond => some ({ conn with point := if socket.ok then .tryRecv else .removeClient }, hub)
  | .removeClient =>
    some ({ conn with point := .clientDisconnected }, { hub with clients := hub.clients.erase conn.id })
  | .clientDisconnected =>
    some ({ conn with point := .dropReceiver }, hub.enqueue (.clientDisconnected conn.id))
  | .dropReceiver => some ({ conn with point := .returned }, conn.closeOutgoing hub)
  | .returned => none

end Connection

/-! ## Status calls -/

/-- The program points of `ServerState::broadcast_tracking_status`. -/
inductive StatusPoint where
  /-- `*tracking = status.clone()` -/
  | store
  /-- `broadcast_sender.send(TrackingStatusUpdate(status))` -/
  | enqueue
  | returned
deriving DecidableEq

/-- A call of `broadcast_tracking_status`. -/
structure StatusCall where
  status : TrackingStatus
  point : StatusPoint
deriving DecidableEq

def StatusCall.step (call : StatusCall) (hub : Hub) : Option (StatusCall × Hub) :=
  match call.point with
  | .store => some ({ call with point := .enqueue }, { hub with trackingStatus := call.status })
  | .enqueue =>
    some ({ call with point := .returned }, hub.enqueue (.trackingStatusUpdate call.status))
  | .returned => none

/-! ## The server -/

structure WebSocketServer where
  hub : Hub
  broadcaster : Broadcaster
  connections : List Connection
  statusCalls : List StatusCall
  clientIdCounter : Nat

inductive ServerLabel where
  /-- the broadcaster; it copies the map of the clients in this order -/
  | broadcast (order : List ClientId)
  /-- the accept loop takes a connection and spawns its thread -/
  | accept
  /-- connection thread `k` -/
  | connection (k : Nat) (socket : Socket)
  /-- status call `k` -/
  | statusCall (k : Nat)
  /-- another part of the program enqueues a message -/
  | post (message : BroadcastMessage)

namespace WebSocketServer

def step (s : WebSocketServer) : ServerLabel → Option WebSocketServer
  | .broadcast order =>
    (s.broadcaster.step order s.hub).map fun (broadcaster, hub) => { s with broadcaster, hub }
  | .accept =>
    some { s with
      clientIdCounter := s.clientIdCounter + 1
      connections := s.connections ++ [Connection.spawned (s.clientIdCounter + 1)] }
  | .connection k socket =>
    match s.connections[k]? with
    | none => none
    | some conn => (conn.step socket s.hub).map fun (conn', hub) =>
        { s with hub, connections := s.connections.set k conn' }
  | .statusCall k =>
    match s.statusCalls[k]? with
    | none => none
    | some call => (call.step s.hub).map fun (call', hub) =>
        { s with hub, statusCalls := s.statusCalls.set k call' }
  | .post message => some { s with hub := s.hub.enqueue message }

end WebSocketServer

/-- The server as a transition system. -/
def webSocketServer : Transition.System WebSocketServer ServerLabel := ⟨WebSocketServer.step⟩

/-- `ServerState::new`. -/
def Hub.initial : Hub where
  trackingStatus := .idle
  clients := ∅
  broadcasts := .new
  channels := []
  subscriptions := []

/-- The server as `init_web_socket` starts it, and the statuses that are going to be
reported. -/
def WebSocketServer.initial (statuses : List TrackingStatus) : WebSocketServer where
  hub := .initial
  broadcaster := .receive
  connections := []
  statusCalls := statuses.map fun status => ⟨status, .store⟩
  clientIdCounter := 0

/-! ## What a step is -/

section
variable {s s' : WebSocketServer} {k : Nat}

/-- A step of the broadcaster changes the broadcaster and the hub, -/
theorem server_broadcast {order : List ClientId}
    (h : webSocketServer.step s (.broadcast order) = some s') :
    ∃ broadcaster hub, s.broadcaster.step order s.hub = some (broadcaster, hub) ∧
      s' = { s with broadcaster, hub } := by
  obtain ⟨⟨broadcaster, hub⟩, hstep, rfl⟩ := Option.map_eq_some_iff.mp h
  exact ⟨broadcaster, hub, hstep, rfl⟩

/-- one of a connection thread its own state and the hub, -/
theorem server_connection {socket : Socket}
    (h : webSocketServer.step s (.connection k socket) = some s') :
    ∃ conn conn' hub, s.connections[k]? = some conn ∧ conn.step socket s.hub = some (conn', hub) ∧
      s' = { s with hub, connections := s.connections.set k conn' } := by
  simp only [webSocketServer, WebSocketServer.step] at h
  split at h
  · cases h
  · next conn hk =>
    obtain ⟨⟨conn', hub⟩, hstep, rfl⟩ := Option.map_eq_some_iff.mp h
    exact ⟨conn, conn', hub, hk, hstep, rfl⟩

/-- and one of a status call that call and the hub. -/
theorem server_statusCall (h : webSocketServer.step s (.statusCall k) = some s') :
    ∃ call call' hub, s.statusCalls[k]? = some call ∧ call.step s.hub = some (call', hub) ∧
      s' = { s with hub, statusCalls := s.statusCalls.set k call' } := by
  simp only [webSocketServer, WebSocketServer.step] at h
  split at h
  · cases h
  · next call hk =>
    obtain ⟨⟨call', hub⟩, hstep, rfl⟩ := Option.map_eq_some_iff.mp h
    exact ⟨call, call', hub, hk, hstep, rfl⟩

/-- A status call that moves stores its status or enqueues it. -/
theorem StatusCall.step_cases {call call' : StatusCall} {hub hub' : Hub}
    (h : call.step hub = some (call', hub')) :
    call'.status = call.status ∧
      ((call.point = .store ∧ call'.point = .enqueue ∧
          hub' = { hub with trackingStatus := call.status }) ∨
        (call.point = .enqueue ∧ call'.point = .returned ∧
          hub' = hub.enqueue (.trackingStatusUpdate call.status))) := by
  obtain ⟨status, point⟩ := call
  cases point with
  | store => cases h; exact ⟨rfl, .inl ⟨rfl, rfl, rfl⟩⟩
  | enqueue => cases h; exact ⟨rfl, .inr ⟨rfl, rfl, rfl⟩⟩
  | returned => cases h

end

end TimeTracker
