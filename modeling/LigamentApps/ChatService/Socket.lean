import LigamentApps.Machine.Trace
import LigamentApps.Text.Search

/-!
# The socket of the chat service

The WebSocket of `ChatService` of `chat_service.dart` as a machine: its methods, the callbacks of the channels
that it opens, in any order and from old channels too, and its reconnect timer. What the data of a channel do
to the rest of the application is the parameter `onData`; what the application sends while it handles them is
an action of its own. The clients of the server are shared with the application, which may change them at any
time. -/

namespace LigamentApps.ChatService

/-- The fields of `ApiClient` that the socket reads. -/
structure ApiClient where
  baseUrl : String
  token : Option String
  deriving DecidableEq

structure SocketChannel where
  id : ℕ
  /-- Its sink was not closed, and it has not ended. -/
  isOpen : Bool := true
  readyPending : Bool := true
  /-- Its stream is listened to. -/
  listening : Bool := true

/-- The fields of the service that its socket uses, and what the data change. -/
structure SocketFields (α : Type) where
  wsChannel : Option ℕ := none
  isWsConnected : Bool := false
  isWsConnecting : Bool := false
  /-- `_reconnectTimer` is armed. -/
  reconnectTimer : Bool := false
  lastClient : Option ℕ := none
  pendingOutgoingWs : List String := []
  app : α

/-- The fields, the channels that were opened, and the clients. -/
structure ChatSocket (α : Type) extends SocketFields α where
  channels : List SocketChannel := []
  clients : ℕ → ApiClient

/-- How opening a channel goes. -/
inductive ChannelOpening
  /-- `Uri.parse` throws. -/
  | uriThrows
  /-- `IOWebSocketChannel.connect` throws. -/
  | connectThrows
  | opened

/-- What happens. -/
inductive SocketAction (β : Type)
  | connectWebSocket (client : ℕ) (force : Bool) (opening : ChannelOpening)
  | ensureConnected (client : Option ℕ) (opening : ChannelOpening)
  | disconnectWebSocket
  /-- `sendWs`; adding to the sink may throw. -/
  | sendWs (encoded : String) (throws : Bool) (opening : ChannelOpening)
  | ready (id : ℕ)
  | readyFailed (id : ℕ)
  | data (id : ℕ) (data : β)
  | error (id : ℕ)
  | done (id : ℕ)
  | reconnectTimer (opening : ChannelOpening)
  /-- The application changes a client. -/
  | setClient (client : ℕ) (value : ApiClient)

/-- What the service does. -/
inductive SocketOutput
  /-- `connectWebSocket` or `ensureConnected` is called with a client. -/
  | called
  | disconnected
  /-- A channel is opened, with a token. -/
  | opened (id : ℕ) (wsBase token : String)
  /-- A text is added to the sink of a channel. -/
  | added (id : ℕ) (raw : String)
  deriving DecidableEq

def replaceFirst (s pattern replacement : String) : String :=
  match Text.cutSub pattern.toList s.toList with
  | some (before, after) => String.ofList (before ++ replacement.toList ++ after)
  | none => s

/-- The address of the server with the scheme of a socket. -/
def wsBase (baseUrl : String) : String := replaceFirst (replaceFirst baseUrl "http://" "ws://") "https://" "wss://"

section Machine

variable {α β : Type}

namespace ChatSocket

variable (s : ChatSocket α)

def withChannel (id : ℕ) (f : SocketChannel → SocketChannel) : ChatSocket α :=
  { s with channels := s.channels.map fun c => if c.id = id then f c else c }

/-- `_wsChannel?.sink.close()`. -/
def closeCurrent : ChatSocket α :=
  match s.wsChannel with
  | some id => s.withChannel id fun c => { c with isOpen := false }
  | none => s

/-- The socket is lost, and `_scheduleReconnect`. -/
def lost : ChatSocket α :=
  { s with isWsConnecting := false, isWsConnected := false, reconnectTimer := true }

def connectWsInternal (opening : ChannelOpening) : ChatSocket α × List SocketOutput :=
  let idle := { s with reconnectTimer := false }
  match s.lastClient with
  | none => (idle, [])
  | some c =>
    let client := s.clients c
    if client.baseUrl = "" then (idle, [])
    else
      match opening with
      | .uriThrows => (idle.lost, [])
      | .connectThrows => (idle.closeCurrent.lost, [])
      | .opened =>
        let id := s.channels.length
        let closed := idle.closeCurrent
        ({ closed with channels := closed.channels ++ [{ id }], wsChannel := some id, isWsConnecting := true },
          [.opened id (wsBase client.baseUrl) (client.token.getD "")])

def connectWebSocket (client : ℕ) (force : Bool) (opening : ChannelOpening) : ChatSocket α × List SocketOutput :=
  if !force && (s.isWsConnected || s.isWsConnecting) && s.lastClient.any (fun last => s.clients last = s.clients client)
  then (s, [.called])
  else
    let r := { s with lastClient := some client }.connectWsInternal opening
    (r.1, .called :: r.2)

/-- `ensureConnected` without a client. -/
def ensureOpen (opening : ChannelOpening) : ChatSocket α × List SocketOutput :=
  if !s.isWsConnected && !s.isWsConnecting && s.lastClient.isSome then s.connectWsInternal opening else (s, [])

def ensureConnected (client : Option ℕ) (opening : ChannelOpening) : ChatSocket α × List SocketOutput :=
  match client with
  | none => s.ensureOpen opening
  | some c =>
    let r := { s with lastClient := some c }.ensureOpen opening
    (r.1, .called :: r.2)

def disconnectWebSocket : ChatSocket α × List SocketOutput :=
  ({ s.closeCurrent with
      reconnectTimer := false, wsChannel := none, isWsConnecting := false, isWsConnected := false,
      pendingOutgoingWs := [] }, [.disconnected])

/-- A text is queued: the oldest of 64 gives way. -/
def queue (encoded : String) : ChatSocket α :=
  { s with
    pendingOutgoingWs :=
      (if 64 ≤ s.pendingOutgoingWs.length then s.pendingOutgoingWs.drop 1 else s.pendingOutgoingWs) ++ [encoded] }

def sendWs (encoded : String) (throws : Bool) (opening : ChannelOpening) : ChatSocket α × List SocketOutput :=
  match s.wsChannel, s.isWsConnected with
  | some id, true =>
    if throws then
      let r := ({ s with isWsConnected := false }.queue encoded).ensureOpen opening
      (r.1, .added id encoded :: r.2)
    else (s, [.added id encoded])
  | _, _ => (s.queue encoded).ensureOpen opening

/-- The current channel is ready, and `_flushPendingOutgoingWs`. -/
def onReady (id : ℕ) : ChatSocket α × List SocketOutput :=
  if s.wsChannel = some id then
    ({ s with isWsConnecting := false, isWsConnected := true, pendingOutgoingWs := [] },
      s.pendingOutgoingWs.map (.added id))
  else (s, [])

/-- A channel fails or ends. -/
def onLost (id : ℕ) : ChatSocket α := if s.wsChannel = some id then s.lost else s

/-- A channel that was opened. -/
def channelOf (id : ℕ) : Option SocketChannel := s.channels.find? (·.id == id)

def step (onData : α → β → α) (s : ChatSocket α) : SocketAction β → Option (ChatSocket α × List SocketOutput)
  | .connectWebSocket client force opening => some (s.connectWebSocket client force opening)
  | .ensureConnected client opening => some (s.ensureConnected client opening)
  | .disconnectWebSocket => some s.disconnectWebSocket
  | .sendWs encoded throws opening => some (s.sendWs encoded throws opening)
  | .ready id => do
    let c ← s.channelOf id
    guard c.readyPending
    return (s.withChannel id fun c => { c with readyPending := false }).onReady id
  | .readyFailed id => do
    let c ← s.channelOf id
    guard c.readyPending
    return ((s.withChannel id fun c => { c with readyPending := false }).onLost id, [])
  | .data id data => do
    let c ← s.channelOf id
    guard c.listening
    return ({ s with app := onData s.app data }, [])
  | .error id => do
    let c ← s.channelOf id
    guard c.listening
    return ((s.withChannel id fun c => { c with listening := false }).onLost id, [])
  | .done id => do
    let c ← s.channelOf id
    guard c.listening
    return ((s.withChannel id fun c => { c with listening := false, isOpen := false }).onLost id, [])
  | .reconnectTimer opening => do
    guard s.reconnectTimer
    return s.connectWsInternal opening
  | .setClient client value =>
    some ({ s with clients := fun c => if c = client then value else s.clients c }, [])

end ChatSocket

def chatSocket (onData : α → β → α) : Machine (ChatSocket α) (SocketAction β) SocketOutput :=
  ⟨ChatSocket.step onData⟩

end Machine

end LigamentApps.ChatService
