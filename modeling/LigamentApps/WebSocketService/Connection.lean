import LigamentApps.LinkHost.RecordingConfig
import LigamentApps.Machine.Trace
import LigamentApps.Text.Search

/-!
# The connection of the WebSocket service

`WebSocketService` of `ws_service.dart` as a machine: `connect`, `disconnect`, the callbacks of the channels
that it opens, in any order and from old channels too, and its timers. What `Uri.parse` makes of an address is
the parameter `schemeOf`. The callbacks of the application call neither `connect` nor `disconnect` before they
return, as those of `auth_state.dart`; they may throw. The debug log is left out. -/

namespace LigamentApps.WebSocketService

open LinkHost

/-- `ReconnectBackoff`: its limits and how many delays it has given since it was reset. -/
structure ReconnectBackoff where
  baseMs : ℤ := 1000
  maxMs : ℤ := 30000
  attempt : ℕ := 0

def ReconnectBackoff.reset (b : ReconnectBackoff) : ReconnectBackoff := { b with attempt := 0 }

/-- The state after `nextDelay`. -/
def ReconnectBackoff.advance (b : ReconnectBackoff) : ReconnectBackoff := { b with attempt := b.attempt + 1 }

/-- A channel that was opened, with what its callbacks have captured. -/
structure Channel where
  id : ℕ
  generation : ℕ
  targetUrl : String
  isRelay : Bool
  /-- It was not closed and has not ended. -/
  isOpen : Bool := true
  readyPending : Bool := true
  /-- Its stream is listened to. -/
  listening : Bool := true

/-- A reconnect timer that is armed, with what it has captured. -/
structure ReconnectTimer where
  id : ℕ
  generation : ℕ
  channelAtSchedule : Option ℕ

/-- The fields of the service, the channels it has opened and the reconnect timers that are armed. -/
structure State where
  channel : Option ℕ := none
  generation : ℕ := 0
  channels : List Channel := []
  /-- `_reconnectTimer`: a timer that may have fired or been cancelled. -/
  reconnectTimer : Option ℕ := none
  armed : List ReconnectTimer := []
  nextTimer : ℕ := 0
  /-- `_stableResetTimer`, where it is armed: the generation and the channel it has captured. -/
  stableResetTimer : Option (ℕ × ℕ) := none
  disposed : Bool := false
  authFailed : Bool := false
  wasReady : Bool := false
  backoff : ReconnectBackoff := {}
  currentEndpoint : Option String := none
  isUsingRelay : Bool := false
  primaryBaseUrl : Option String := none
  token : Option String := none
  fallbackUrls : List String := []
  attemptIndex : ℕ := 0

/-- How the opening of a channel goes. -/
inductive Opening
  | throws
  /-- The channel is there, but its stream cannot be listened to. -/
  | listenThrows
  | opened

/-- What happens. A callback of a channel may find a callback of the application that throws. -/
inductive Action
  | connect (baseUrl token : String) (fallbackUrls : List String) (opening : Opening)
  | disconnect
  /-- `channel.ready` completes; an error that a callback throws goes to the handler of failures, whose own
  callback may throw. -/
  | ready (id : ℕ) (thrown : Option (String × Bool))
  | handshakeFailed (id : ℕ) (error : String) (throws : Bool)
  | message (id : ℕ)
  | done (id : ℕ) (throws : Bool)
  | error (id : ℕ) (error : String) (throws : Bool)
  | reconnectTimer (id : ℕ) (opening : Opening)
  | stableResetTimer

/-- What the service does. -/
inductive Event
  /-- `connect` is called. -/
  | connect
  /-- `disconnect` is called. -/
  | disconnect
  /-- A candidate is about to be tried. -/
  | attempt
  /-- A reconnect is scheduled, with the attempt that its delay counts from. -/
  | scheduled (attempt : ℕ)
  | opened (id : ℕ)
  | onEndpointChanged (endpoint : String) (isRelay : Bool)
  | onConnected
  | onDisconnected
  /-- The server has rejected the token. -/
  | onUnauthorized
  | handleMessage
  deriving DecidableEq

namespace State

def isConnected (s : State) : Bool := s.channel.isSome

def isCurrent (s : State) (c : Channel) : Bool :=
  !s.disposed && s.generation == c.generation && s.channel == some c.id

def withChannel (s : State) (id : ℕ) (f : Channel → Channel) : State :=
  { s with channels := s.channels.map fun c => if c.id = id then f c else c }

/-- `channel.sink.close()`. -/
def sinkClose (s : State) (id : ℕ) : State := s.withChannel id fun c => { c with isOpen := false }

/-- `_reconnectTimer?.cancel()`. -/
def cancelReconnect (s : State) : State :=
  { s with armed := s.armed.filter fun timer => some timer.id ≠ s.reconnectTimer }

def closeCurrentChannel (s : State) : State :=
  let closed := match s.channel with
    | some previous => s.sinkClose previous
    | none => s
  { closed with generation := s.generation + 1, channel := none, stableResetTimer := none }

def scheduleReconnect (s : State) (advanceCandidate : Bool) : State × List Event :=
  if s.disposed || s.authFailed then (s, [])
  else
    let timer : ReconnectTimer := ⟨s.nextTimer, s.generation, s.channel⟩
    ({ s.cancelReconnect with
        attemptIndex := if advanceCandidate then s.attemptIndex + 1 else s.attemptIndex,
        backoff := s.backoff.advance, reconnectTimer := some timer.id,
        armed := timer :: s.cancelReconnect.armed, nextTimer := s.nextTimer + 1 },
      [.scheduled s.backoff.attempt])

def handleUnauthorized (s : State) : State × List Event :=
  ({ s.cancelReconnect with authFailed := true, channel := none, stableResetTimer := none }, [.onUnauthorized])

end State

/-! ## Errors and addresses -/

/-- Dart's `trim`. -/
def trim (cs : List Char) : List Char :=
  ((cs.dropWhile isDartSpace).reverse.dropWhile isDartSpace).reverse

/-- A text has `401` with no digit before or after it. -/
def has401 : Option Char → List Char → Bool
  | _, [] => false
  | before, c :: cs =>
    (!before.any Char.isDigit && ['4', '0', '1'].isPrefixOf (c :: cs) && !(cs.drop 2).head?.any Char.isDigit) ||
      has401 (some c) cs

/-- `_isUnauthorized`, of the text of an error. -/
def isUnauthorized (error : String) : Bool :=
  let s := error.toList.map Char.toLower
  has401 none s || (Text.cutSub "unauthorized".toList s).isSome || (Text.cutSub "connection denied".toList s).isSome

/-- The address of a candidate: secure, without a slash at its end, with the path of the server or of a
relay. -/
def wsUrl (targetUrl : String) (isRelay : Bool) : Option String :=
  let cs := trim targetUrl.toList
  if "https://".toList.isPrefixOf cs then
    let url := "wss://".toList ++ cs.drop 8
    let bare := if url.getLast? = some '/' then url.dropLast else url
    some (String.ofList (bare ++ (if isRelay then "/api/v1/ws" else "/api/v1/app/ws").toList))
  else none

section Machine

variable (schemeOf : String → Option String)

namespace State

variable (s : State)

def openChannel (targetUrl : String) (isRelay : Bool) (opening : Opening) : State × List Event :=
  let closed := s.closeCurrentChannel
  let c : Channel := { id := s.channels.length, generation := closed.generation, targetUrl, isRelay }
  match opening with
  | .throws => closed.scheduleReconnect true
  | .opened =>
    ({ closed with channels := closed.channels ++ [c], channel := some c.id, wasReady := false }, [.opened c.id])
  | .listenThrows =>
    let deaf : State := { closed with
      channels := closed.channels ++ [{ c with listening := false }], channel := some c.id, wasReady := false }
    let r := deaf.scheduleReconnect true
    (r.1, .opened c.id :: r.2)

/-- `_connectCandidate` for a candidate of the list. -/
def tryCandidate (targetUrl : String) (isRelay : Bool) (opening : Opening) : State × List Event :=
  match (wsUrl targetUrl isRelay).bind schemeOf with
  | some scheme => if scheme = "wss" then s.openChannel targetUrl isRelay opening else s.scheduleReconnect true
  | none => s.scheduleReconnect true

def connectCandidate (expectedGeneration : Option ℕ) (opening : Opening) : State × List Event :=
  match s.primaryBaseUrl, s.token with
  | some primary, some _ =>
    if s.disposed || s.authFailed || expectedGeneration.any (· ≠ s.generation) then (s, [])
    else
      let candidates := primary :: s.fallbackUrls
      let index := s.attemptIndex % candidates.length
      let r := s.tryCandidate schemeOf (candidates.getD index primary) (index ≠ 0) opening
      (r.1, .attempt :: r.2)
  | _, _ => (s, [])

/-- The state in which `connect` tries its first candidate. -/
def forServer (baseUrl token : String) (fallbackUrls : List String) : State :=
  { s.closeCurrentChannel.cancelReconnect with
    disposed := false, authFailed := false, primaryBaseUrl := some baseUrl, token := some token, fallbackUrls,
    backoff := s.backoff.reset, attemptIndex := 0 }

def connect (baseUrl token : String) (fallbackUrls : List String) (opening : Opening) : State × List Event :=
  let r := (s.forServer baseUrl token fallbackUrls).connectCandidate schemeOf none opening
  (r.1, .connect :: r.2)

def disconnect : State × List Event :=
  ({ s.cancelReconnect.closeCurrentChannel with
      disposed := true, primaryBaseUrl := none, token := none, fallbackUrls := [], currentEndpoint := none,
      isUsingRelay := false }, [.disconnect])

/-- The current channel is given up, up to the callback. -/
def dropChannel : State := { s with channel := none, stableResetTimer := none }

/-- What follows the callback that the current channel is lost, unless the callback throws. -/
def afterLoss (unauthorized advanceCandidate throws : Bool) : State × List Event :=
  if throws then (s, [.onDisconnected])
  else
    let r := if unauthorized then s.handleUnauthorized else s.scheduleReconnect advanceCandidate
    (r.1, .onDisconnected :: r.2)

variable (c : Channel)

def onHandshakeFailed (error : String) (throws : Bool) : State × List Event :=
  if s.isCurrent c then (s.dropChannel.sinkClose c.id).afterLoss (isUnauthorized error) true throws else (s, [])

def onReady (thrown : Option (String × Bool)) : State × List Event :=
  if s.isCurrent c then
    let connected := { s with
      wasReady := true, backoff := s.backoff.reset, stableResetTimer := some (c.generation, c.id),
      currentEndpoint := some c.targetUrl, isUsingRelay := c.isRelay }
    match thrown with
    | none => (connected, [.onEndpointChanged c.targetUrl c.isRelay, .onConnected])
    | some (error, throws) =>
      let r := connected.onHandshakeFailed c error throws
      (r.1, .onEndpointChanged c.targetUrl c.isRelay :: r.2)
  else (s, [])

/-- The stream of a channel is done. -/
def onDone (throws : Bool) : State × List Event :=
  if s.isCurrent c then s.dropChannel.afterLoss false false throws else (s, [])

/-- The stream of a channel has an error, after which it is not listened to. -/
def onError (error : String) (throws : Bool) : State × List Event :=
  if s.isCurrent c then (s.dropChannel.sinkClose c.id).afterLoss (isUnauthorized error) (!s.wasReady) throws
  else (s, [])

def onReconnectTimer (timer : ReconnectTimer) (opening : Opening) : State × List Event :=
  let fired := { s with armed := s.armed.filter (·.id ≠ timer.id) }
  if !s.disposed && !s.authFailed && s.generation == timer.generation && s.channel == timer.channelAtSchedule then
    fired.connectCandidate schemeOf (some timer.generation) opening
  else (fired, [])

/-- The timer of a stable connection fires. -/
def onStableReset (captured : ℕ × ℕ) : State :=
  let fired := { s with stableResetTimer := none }
  if !s.disposed && s.generation == captured.1 && s.channel == some captured.2 then
    { fired with backoff := s.backoff.reset, attemptIndex := 0 }
  else fired

/-- A channel that was opened. -/
def channelOf (id : ℕ) : Option Channel := s.channels.find? (·.id == id)

end State

def step (s : State) : Action → Option (State × List Event)
  | .connect baseUrl token fallbackUrls opening => some (s.connect schemeOf baseUrl token fallbackUrls opening)
  | .disconnect => some s.disconnect
  | .ready id thrown => do
    let c ← s.channelOf id
    guard c.readyPending
    return (s.withChannel id fun c => { c with readyPending := false }).onReady c thrown
  | .handshakeFailed id error throws => do
    let c ← s.channelOf id
    guard c.readyPending
    return (s.withChannel id fun c => { c with readyPending := false }).onHandshakeFailed c error throws
  | .message id => do
    let c ← s.channelOf id
    guard c.listening
    return (s, if s.isCurrent c then [.handleMessage] else [])
  | .done id throws => do
    let c ← s.channelOf id
    guard c.listening
    return (s.withChannel id fun c => { c with listening := false, isOpen := false }).onDone c throws
  | .error id error throws => do
    let c ← s.channelOf id
    guard c.listening
    return (s.withChannel id fun c => { c with listening := false }).onError c error throws
  | .reconnectTimer id opening => do
    let timer ← s.armed.find? (·.id == id)
    return s.onReconnectTimer schemeOf timer opening
  | .stableResetTimer => do
    let captured ← s.stableResetTimer
    return (s.onStableReset captured, [])

def webSocketService : Machine State Action Event := ⟨step schemeOf⟩

end Machine

end LigamentApps.WebSocketService
