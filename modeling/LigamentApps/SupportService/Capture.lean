import LigamentApps.Machine.Trace

/-!
# Sessions of the support service

`SupportService` of `support_service.dart` as a machine: starting and stopping the screen sharing, the timers
and callbacks of a session, and its lease, with a step for what runs between two waits. Times are in
milliseconds. The media streams, the recorder, the telemetry, the chat and the debug log are left out, and so
are a signal's description and candidates, which change nothing of the session. Sessions are numbered in the
order in which they are announced, and everything that waits knows the number of the session it belongs to. -/

namespace LigamentApps.SupportService

inductive SupportSessionState
  | idle | requested | authorizing | connecting | active | ended
  deriving DecidableEq

/-- A peer connection, with its session and the start that created it. -/
structure Peer where
  id : ℕ
  session : ℕ
  start : ℕ
  deriving DecidableEq

structure DataChannel where
  id : ℕ
  session : ℕ
  deriving DecidableEq

/-- A timer of a session: one that has fired is still known, but not active. -/
structure SessionTimer where
  due : ℕ
  session : ℕ
  isActive : Bool := true

/-- A start that waits in `_captureStartQueue`. -/
structure StartRequest where
  id : ℕ
  session : ℕ
  sessionId : String
  expectedEpoch : ℕ
  deriving DecidableEq

inductive StartPc
  | iceServers | createPeer | createChannel | sources | displayMedia | addTracks | tuning | sendOffer
  /-- It has failed and waits for its `stopScreenSharing`. -/
  | cleanup
  deriving DecidableEq

structure StartRun where
  id : ℕ
  session : ℕ
  epoch : ℕ
  pc : StartPc
  deriving DecidableEq

/-- Who has called `stopScreenSharing`. -/
inductive StopCaller
  | host
  | failSession (userError : String)
  /-- The cleanup of a start, and whether the start was cancelled before. -/
  | cleanup (start : ℕ) (cancelled : Bool)

/-- What `stopScreenSharing` waits for. -/
inductive StopPc
  | releasing | closingChannel | closingPeer | disposing

/-- The `stopScreenSharing` that runs. -/
structure StopRun where
  session : ℕ
  caller : StopCaller
  pc : StopPc

/-- The fields of the service, with what waits. -/
structure Capture where
  now : ℕ := 0
  serviceHost : Bool := false
  captureEpoch : ℕ := 0
  phase : SupportSessionState := .idle
  activeSessionId : Option String := none
  lastError : Option String := none
  ownerSession : Bool := false
  linkHosted : Bool := false
  iceServersKnown : Bool := false
  peerConnection : Option Peer := none
  dataChannel : Option DataChannel := none
  p2pConnected : Bool := false
  iceRestartAttempts : ℕ := 0
  lastIceRestartAt : Option ℕ := none
  establishmentTimer : Option SessionTimer := none
  establishmentDeadlineTimer : Option SessionTimer := none
  disconnectedTimer : Option SessionTimer := none
  leaseWatchdogTimer : Option SessionTimer := none
  localLeaseDeadline : Option ℕ := none
  /-- The timers of ICE restarts that were too early. -/
  retryTimers : List SessionTimer := []
  /-- The sessions whose lease is being asked for. -/
  leaseReplies : List ℕ := []
  /-- The sessions for which a signal has a data channel created. -/
  renegotiations : List ℕ := []
  /-- The peers and channels whose callbacks are installed. -/
  peers : List Peer := []
  channels : List DataChannel := []
  queue : List StartRequest := []
  running : Option StartRun := none
  /-- `_isStopping` is true while this runs. -/
  stopping : Option StopRun := none
  /-- The calls of `_failSession` whose stop is over, with their errors. -/
  failed : List (ℕ × String) := []
  /-- The number of sessions announced, the name of the last one where it was not stopped, and the number of
  the session that `_activeSessionId` is of. -/
  sessions : ℕ := 0
  announced : Option String := none
  current : Option ℕ := none
  nextId : ℕ := 0
  nextStart : ℕ := 0

/-- The states of a peer connection to which its callback answers. -/
inductive PeerState
  | connected | disconnected | failed | closed

/-- The answer to the question for the current session. -/
inductive LeaseReply
  | missing
  | status (status : Option String)
  | failed

/-- What happens. -/
inductive CaptureAction
  | setRequested (sessionId : String)
  | setAuthorizing (sessionId : String) (owner : Bool)
  | setLinkHostedSession (sessionId : String) (active : Bool)
  | startScreenSharing (sessionId : String)
  | stopScreenSharing
  | clearError
  /-- A signal asks for a new offer. -/
  | renegotiate (channelOpen : Bool)
  | elapse (ms : ℕ)
  /-- The first start of the queue has its turn. -/
  | startTurn
  /-- What the running start waits for is there, or has failed. -/
  | startResumed (ok : Bool)
  | stopResumed
  | failResumed
  | renegotiated (index : ℕ) (ok : Bool)
  | peerState (peer : Peer) (state : PeerState)
  /-- The peer has opened a data channel. -/
  | channelOpened (peer : Peer)
  /-- A message arrives, one that ends the session or another. -/
  | channelMessage (channel : DataChannel) (ends : Bool)
  | establishmentTimer
  | establishmentDeadlineTimer
  | disconnectedTimer
  | retryTimer (index : ℕ)
  | leaseTick
  | leaseReply (index : ℕ) (reply : LeaseReply)

/-- What the service does. -/
inductive CaptureEvent
  /-- A start is cancelled before it began. -/
  | startCancelled (start : ℕ)
  /-- A start calls `stopScreenSharing`, and whether it was cancelled before. -/
  | cleanup (start : ℕ) (cancelled : Bool)
  /-- `stopScreenSharing` begins. -/
  | stopping
  /-- An offer of this peer is sent. -/
  | offered (peer : Peer)

/-- The state after a part of a step, with its events. -/
abbrev Outcome := Capture × List CaptureEvent

namespace Capture

variable (s : Capture)

def cancelEstablishmentTimers : Capture :=
  { s with establishmentTimer := none, establishmentDeadlineTimer := none, disconnectedTimer := none }

def cancelResilienceTimers : Capture :=
  { s.cancelEstablishmentTimers with leaseWatchdogTimer := none, localLeaseDeadline := none }

variable (session : ℕ)

/-- `_armEstablishmentTimeouts`: the deadline keeps its first time. -/
def armEstablishmentTimeouts : Capture :=
  { s with
    establishmentTimer := some ⟨s.now + 30000, session, true⟩,
    establishmentDeadlineTimer := s.establishmentDeadlineTimer.or (some ⟨s.now + 60000, session, true⟩) }

def startLeaseWatchdog : Capture :=
  { s with
    leaseWatchdogTimer := some ⟨s.now + 15000, session, true⟩, localLeaseDeadline := some (s.now + 60000) }

/-- The local deadline of the lease is over. -/
def leaseExpired : Bool := s.localLeaseDeadline.any (· < s.now)

/-- The peer connection is given up, and closed where there is one. -/
def closePeer (run : StopRun) : Capture :=
  { s with
    peerConnection := none,
    peers := s.peers.filter (some · ≠ s.peerConnection),
    stopping := some { run with pc := if s.peerConnection.isSome then .closingPeer else .disposing } }

/-- The session is reset, and its data channel closed where there is one. -/
def resetSession (run : StopRun) : Capture :=
  let reset := { s.cancelResilienceTimers with
    p2pConnected := false, iceRestartAttempts := 0, lastIceRestartAt := none
    phase := .idle, activeSessionId := none,
    ownerSession := false, linkHosted := false, dataChannel := none, current := none,
    channels := s.channels.filter (some · ≠ s.dataChannel) }
  if s.dataChannel.isSome then { reset with stopping := some { run with pc := .closingChannel } }
  else reset.closePeer run

/-- `stopScreenSharing`, up to its first wait. A call while another one runs only counts the epoch. -/
def stopScreenSharing (caller : StopCaller) : Outcome :=
  if s.stopping.isSome then ({ s with captureEpoch := s.captureEpoch + 1 }, [])
  else
    let run : StopRun := ⟨session, caller, .releasing⟩
    let begun := { s with captureEpoch := s.captureEpoch + 1, announced := none, stopping := some run }
    (if s.serviceHost then begun else begun.resetSession run, [.stopping])

/-- The end of `stopScreenSharing`, and what its caller does at once. -/
def stopFinished (run : StopRun) : Capture :=
  match run.caller with
  | .host => { s with stopping := none }
  | .failSession userError => { s with stopping := none, failed := s.failed ++ [(run.session, userError)] }
  | .cleanup _ _ => { s with stopping := none, running := none }

/-- `stopScreenSharing` goes on. -/
def stopResumed (run : StopRun) : Capture :=
  match run.pc with
  | .releasing => s.resetSession run
  | .closingChannel => s.closePeer run
  | .closingPeer => { s with stopping := some { run with pc := .disposing } }
  | .disposing => s.stopFinished run

/-- `_failSession`, up to the end of its stop. -/
def failSession (userError : String) : Outcome :=
  if s.stopping.isSome then (s, [])
  else { s with lastError := some userError }.cancelResilienceTimers.stopScreenSharing session (.failSession userError)

/-- `_sendOffer`: of the peer that there is. -/
def sendOffer : List CaptureEvent :=
  match s.peerConnection, s.activeSessionId with
  | some peer, some _ => [.offered peer]
  | _, _ => []

/-- The error after the last ICE restart. -/
def restartsExhausted : String := "Не удалось восстановить P2P-соединение после 3 попыток"

/-- `_attemptIceRestart`, unless forced. -/
def attemptIceRestart : Outcome :=
  if s.stopping.isSome || s.peerConnection.isNone || s.activeSessionId.isNone then (s, [])
  else if 3 ≤ s.iceRestartAttempts then s.failSession session restartsExhausted
  else if s.lastIceRestartAt.any (s.now - · < 5000) then
    ({ s with retryTimers := s.retryTimers ++ [⟨s.lastIceRestartAt.getD 0 + 5000, session, true⟩] }, [])
  else ({ s with iceRestartAttempts := s.iceRestartAttempts + 1, lastIceRestartAt := some s.now }, s.sendOffer)

/-- `_attemptIceRestart`, forced. -/
def forceIceRestart : Outcome :=
  if s.stopping.isSome || s.peerConnection.isNone || s.activeSessionId.isNone then (s, [])
  else
    ({ s with iceRestartAttempts := 0, lastIceRestartAt := some s.now }.armEstablishmentTimeouts session,
      s.sendOffer)

def onP2pConnected : Capture :=
  let connected := { s.cancelEstablishmentTimers with
    p2pConnected := true, iceRestartAttempts := 0, lastIceRestartAt := none }
  if s.phase = .active then connected else { connected with phase := .active }.startLeaseWatchdog session

/-- The session connects or is active. -/
def isLive : Bool := s.phase = .active ∨ s.phase = .connecting

def onP2pDisconnected : Capture :=
  if s.stopping.isSome || s.peerConnection.isNone || !s.isLive then { s with p2pConnected := false }
  else { s with p2pConnected := false, disconnectedTimer := some ⟨s.now + 10000, session, true⟩ }

def onP2pFailed : Outcome :=
  let lost := { s with p2pConnected := false }
  if s.stopping.isSome || s.peerConnection.isNone || !s.isLive then (lost, [])
  else { lost with disconnectedTimer := none }.attemptIceRestart session

/-- The peer connection was closed by the other side. -/
def onP2pClosed : Outcome :=
  if s.stopping.isSome then (s, [])
  else
    let lost := { s with p2pConnected := false }
    if s.isLive then
      lost.failSession session
        (if s.ownerSession then "Соединение с вашим устройством закрыто" else "Соединение с инженером закрыто")
    else (lost, [])

def onConnectionState : PeerState → Outcome
  | .connected => (s.onP2pConnected session, [])
  | .disconnected => (s.onP2pDisconnected session, [])
  | .failed => s.onP2pFailed session
  | .closed => s.onP2pClosed session

/-- `_setupDataChannel`, of a new channel of a session. -/
def setupDataChannel : Capture :=
  let channel : DataChannel := ⟨s.nextId, session⟩
  { s with dataChannel := some channel, channels := s.channels ++ [channel], nextId := s.nextId + 1 }

variable (sessionId : String)

/-- The number of a session that is announced: a new one, unless it is the last one and was not stopped. -/
def announce : ℕ :=
  if s.announced = some sessionId then s.sessions else s.sessions + 1

/-- The session is announced and becomes the current one. -/
def setSession (phase : SupportSessionState) : Capture :=
  { s with
    activeSessionId := some sessionId, phase, sessions := s.announce sessionId, announced := some sessionId,
    current := some (s.announce sessionId) }

/-- `startScreenSharing`: the start is put in the queue. -/
def startScreenSharing : Capture :=
  { s with
    queue := s.queue ++ [⟨s.nextStart, s.announce sessionId, sessionId, s.captureEpoch⟩],
    sessions := s.announce sessionId, announced := some sessionId, nextStart := s.nextStart + 1 }

/-- `_startScreenSharing`, up to its first wait. -/
def beginStart (r : StartRequest) : Capture :=
  { s with
    captureEpoch := s.captureEpoch + 1, activeSessionId := some r.sessionId, current := some r.session,
    running := some ⟨r.id, r.session, s.captureEpoch + 1, if s.iceServersKnown then .createPeer else .iceServers⟩ }

/-- The first start of the queue has its turn. -/
def startTurn (r : StartRequest) (rest : List StartRequest) : Outcome :=
  if r.expectedEpoch ≠ s.captureEpoch then ({ s with queue := rest }, [.startCancelled r.id])
  else ({ s with queue := rest }.beginStart r, [])

variable (run : StartRun)

/-- `_requireCaptureEpoch` passes. -/
def hasEpoch : Bool := run.epoch = s.captureEpoch ∧ s.stopping = none

/-- The running start waits for the next thing. -/
def startGoesOn (pc : StartPc) : Capture :=
  { s with running := some { run with pc } }

/-- The running start has failed: it calls `stopScreenSharing`. Where a stop runs already the call only counts
the epoch, and the start is over. -/
def startFailed : Outcome :=
  let cancelled := decide (run.epoch ≠ s.captureEpoch)
  if s.stopping.isSome then
    ({ s with captureEpoch := s.captureEpoch + 1, running := none }, [.cleanup run.id cancelled])
  else
    let r := (s.startGoesOn run .cleanup).stopScreenSharing run.session (.cleanup run.id cancelled)
    (r.1, .cleanup run.id cancelled :: r.2)

/-- The peer connection that a start has created. -/
def withNewPeer : Capture :=
  { s with peerConnection := some ⟨s.nextId, run.session, run.id⟩, nextId := s.nextId + 1 }

/-- The callbacks of the peer connection are installed. -/
def withCallbacks : Capture := { s with peers := s.peers ++ s.peerConnection.toList }

/-- The running start goes on. A data channel that is not created, and screens that are not listed, are no
failure. -/
def startResumed (ok : Bool) : Outcome :=
  match run.pc with
  | .iceServers =>
    let known := { s with iceServersKnown := ok }
    if s.hasEpoch run then (known.startGoesOn run .createPeer, []) else known.startFailed run
  | .createPeer =>
    if !ok then s.startFailed run
    else if s.hasEpoch run then ((s.withNewPeer run).withCallbacks.startGoesOn run .createChannel, [])
    else (s.withNewPeer run).startFailed run
  | .createChannel =>
    if s.hasEpoch run then ((if ok then s.setupDataChannel run.session else s).startGoesOn run .sources, [])
    else s.startFailed run
  | .sources => if s.hasEpoch run then (s.startGoesOn run .displayMedia, []) else s.startFailed run
  | .displayMedia => if ok && s.hasEpoch run then (s.startGoesOn run .addTracks, []) else s.startFailed run
  | .addTracks => if ok && s.peerConnection.isSome then (s.startGoesOn run .tuning, []) else s.startFailed run
  | .tuning => if s.hasEpoch run then (s.startGoesOn run .sendOffer, s.sendOffer) else s.startFailed run
  | .sendOffer =>
    if s.hasEpoch run then
      ({ s with phase := .connecting, running := none }.armEstablishmentTimeouts run.session, [])
    else s.startFailed run
  | .cleanup => (s, [])

/-- The error when the deadline of the lease is over. -/
def leaseLost : String := "Связь с сервером Ligament потеряна, срок аренды сеанса истёк"

def onLeaseTick : Outcome :=
  if s.phase ≠ .active || s.activeSessionId.isNone then (s, [])
  else if s.leaseExpired then s.failSession session leaseLost
  else ({ s with leaseReplies := s.leaseReplies ++ [session] }, [])

/-- The server has ended the session. -/
def LeaseReply.isEnded : LeaseReply → Bool
  | .status (some status) => ["completed", "cancelled", "rejected"].contains status
  | _ => false

/-- The server has answered the watchdog. -/
def onLeaseReply (reply : LeaseReply) : Outcome :=
  match reply with
  | .missing => s.failSession session "Срок действия сеанса удаленного доступа истёк"
  | .failed => if s.leaseExpired then s.failSession session leaseLost else (s, [])
  | .status _ =>
    if LeaseReply.isEnded reply then s.failSession session "Сеанс удаленной помощи завершен сервером"
    else ({ s with localLeaseDeadline := some (s.now + 60000) }, [])

variable (timer : SessionTimer)

/-- The timer is active and due. -/
def isDue : Bool := timer.isActive && timer.due ≤ s.now

/-- `_establishmentTimer` fires. -/
def onEstablishmentTimer : Outcome :=
  let fired := { s with establishmentTimer := some { timer with isActive := false } }
  if s.p2pConnected || s.peerConnection.isNone then (fired, []) else fired.attemptIceRestart timer.session

/-- The error when a connection was not established in time. -/
def establishmentTimeout : String :=
  if s.ownerSession then "Не удалось подключиться к вашему устройству (таймаут 60 с)"
  else "Не удалось установить соединение с инженером (таймаут 60 с)"

/-- `_establishmentDeadlineTimer` fires. -/
def onEstablishmentDeadline : Outcome :=
  let fired := { s with establishmentDeadlineTimer := some { timer with isActive := false } }
  if s.p2pConnected || s.peerConnection.isNone then (fired, [])
  else fired.failSession timer.session s.establishmentTimeout

/-- `_disconnectedTimer` fires. -/
def onDisconnectedTimer : Outcome :=
  let fired := { s with disconnectedTimer := some { timer with isActive := false } }
  if s.p2pConnected || s.peerConnection.isNone || s.stopping.isSome then (fired, [])
  else fired.attemptIceRestart timer.session

/-- The timer of an ICE restart that was too early fires. -/
def onRetryTimer (index : ℕ) (timer : SessionTimer) : Outcome :=
  let fired := { s with retryTimers := s.retryTimers.eraseIdx index }
  if !s.p2pConnected && s.stopping.isNone && s.peerConnection.isSome then fired.attemptIceRestart timer.session
  else (fired, [])

/-- A signal asks for a new offer: with an open data channel there is nothing to wait for. -/
def renegotiate (channelOpen : Bool) : Outcome :=
  if s.peerConnection.isNone then (s, [])
  else if s.dataChannel.isSome && channelOpen then s.forceIceRestart (s.current.getD s.sessions)
  else ({ s with renegotiations := s.renegotiations ++ [s.current.getD s.sessions] }, [])

/-- The data channel that a signal has asked for is created, or not. -/
def renegotiated (index session : ℕ) (ok : Bool) : Outcome :=
  let resumed := { s with renegotiations := s.renegotiations.eraseIdx index }
  (if ok then resumed.setupDataChannel session else resumed).forceIceRestart session

def setLinkHostedSession (active : Bool) : Capture :=
  let next : SupportSessionState := if active then .active else .authorizing
  if s.linkHosted ∧ s.activeSessionId = some sessionId ∧ s.phase = next then s
  else { s.setSession sessionId next with ownerSession := false, linkHosted := true }

def clearError : Capture :=
  { s with lastError := none, phase := if s.phase = .ended then .idle else s.phase }

end Capture

def Capture.step (s : Capture) : CaptureAction → Option Outcome
  | .setRequested sessionId =>
    some ({ s.setSession sessionId .requested with ownerSession := false, linkHosted := false, lastError := none }, [])
  | .setAuthorizing sessionId owner =>
    some ({ s.setSession sessionId .authorizing with ownerSession := owner, linkHosted := false }, [])
  | .setLinkHostedSession sessionId active => some (s.setLinkHostedSession sessionId active, [])
  | .startScreenSharing sessionId => some (s.startScreenSharing sessionId, [])
  | .stopScreenSharing => some (s.stopScreenSharing s.sessions .host)
  | .clearError => some (s.clearError, [])
  | .renegotiate channelOpen => some (s.renegotiate channelOpen)
  | .elapse ms => some ({ s with now := s.now + ms }, [])
  | .startTurn =>
    match s.queue, s.running, s.stopping with
    | r :: rest, none, none => some (s.startTurn r rest)
    | _, _, _ => none
  | .startResumed ok => do
    let run ← s.running
    guard (run.pc ≠ .cleanup)
    return s.startResumed run ok
  | .stopResumed => do
    let run ← s.stopping
    return (s.stopResumed run, [])
  | .failResumed =>
    match s.failed with
    | _ :: rest => some ({ s with phase := .ended, failed := rest }, [])
    | [] => none
  | .renegotiated index ok => do
    let session ← s.renegotiations[index]?
    return s.renegotiated index session ok
  | .peerState peer state => do
    guard (peer ∈ s.peers)
    return s.onConnectionState peer.session state
  | .channelOpened peer => do
    guard (peer ∈ s.peers)
    return (s.setupDataChannel peer.session, [])
  | .channelMessage channel ends => do
    guard (channel ∈ s.channels)
    return if ends then s.stopScreenSharing channel.session .host else (s, [])
  | .establishmentTimer => do
    let timer ← s.establishmentTimer
    guard (s.isDue timer)
    return s.onEstablishmentTimer timer
  | .establishmentDeadlineTimer => do
    let timer ← s.establishmentDeadlineTimer
    guard (s.isDue timer)
    return s.onEstablishmentDeadline timer
  | .disconnectedTimer => do
    let timer ← s.disconnectedTimer
    guard (s.isDue timer)
    return s.onDisconnectedTimer timer
  | .retryTimer index => do
    let timer ← s.retryTimers[index]?
    guard (s.isDue timer)
    return s.onRetryTimer index timer
  | .leaseTick => do
    let timer ← s.leaseWatchdogTimer
    guard (s.isDue timer)
    return { s with leaseWatchdogTimer := some { timer with due := timer.due + 15000 } }.onLeaseTick timer.session
  | .leaseReply index reply => do
    let session ← s.leaseReplies[index]?
    return { s with leaseReplies := s.leaseReplies.eraseIdx index }.onLeaseReply session reply

def supportService : Machine Capture CaptureAction CaptureEvent := ⟨Capture.step⟩

end LigamentApps.SupportService
