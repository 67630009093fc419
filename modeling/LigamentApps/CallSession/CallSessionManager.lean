import Mathlib.Algebra.Ring.Int.Defs
import LigamentApps.Machine.Trace

/-!
# The session of a call

`CallSessionManager` of `call_session_manager.dart` as a machine, with the dispatch of `webrtc.signal` events
in `ChatService.onWebSocketEvent`. A call of the platform that a method awaits ends the step: what the method
does next is kept in `waiting` until the call answers. Calls, connections and streams are numbered in the
order in which they are made, and times are in milliseconds.

Left out: the sounds, the alerts, the CallKit reports, the audio route and the renderers, with what only they
and the screens read (the titles, the mute flag, the display mode), and the ICE servers, also the ones that a
late answer leaves in `_configuredIceServers`. A local description stands as `optimizeOpusSdp` leaves it. -/

namespace LigamentApps.CallSession

/-! ## Signals -/

inductive CallStatus
  | idle
  | calling
  | ringing
  | incoming
  | connected
  | offline
  | ended
  deriving DecidableEq

/-- A field of a payload that the code casts: the cast throws at a value of another type. -/
inductive Field (α : Type)
  | absent
  | given (value : α)
  | other

/-- The value of a field, or a default when it is absent, unless the cast throws. -/
def Field.read {α : Type} (default : α) : Field α → Option α
  | .absent => some default
  | .given value => some value
  | .other => none

/-- `RTCIceCandidate`. -/
structure Candidate where
  candidate : String
  sdpMid : Option String := none
  sdpMLineIndex : Option ℤ := none
  deriving DecidableEq

structure CandidatePayload where
  candidate : Field String := .absent
  sdpMid : Field String := .absent
  sdpMLineIndex : Field ℤ := .absent

/-- The candidate that `handleRemoteCandidate` makes of a map, unless it returns or throws before. -/
def CandidatePayload.read (payload : CandidatePayload) : Option Candidate := do
  let candidate ← payload.candidate.read ""
  if candidate = "" then none
  else
    let sdpMid ← payload.sdpMid.read ""
    let sdpMLineIndex ← payload.sdpMLineIndex.read 0
    some ⟨candidate, some sdpMid, some sdpMLineIndex⟩

structure OfferPayload where
  callerName : Field String := .absent
  isVideo : Bool := false
  sdp : Field String := .absent
  iceRestart : Bool := false

/-- The payload of a `webrtc.signal` event. -/
inductive Signal
  | offer (payload : OfferPayload)
  | ringing
  | offline
  | busy
  | answer (sdp : Field String)
  | candidate (payload : CandidatePayload)
  | candidates (payloads : List CandidatePayload)
  | cancel (reason : Field String)
  | hangup
  | rejected
  | other

/-- A payload that `onSendSignal` is called with. -/
inductive SentSignal
  | offer (sdp : String) (isVideo iceRestart : Bool)
  | ringing
  | busy
  | answer (sdp : String) (iceRestart : Bool)
  | candidate (candidate : Candidate)
  | candidates (candidates : List Candidate)
  | hangup
  | rejected

/-- What the manager does to its surroundings. -/
inductive CallEvent
  | sent (targetUserId chatId : String) (signal : SentSignal)
  /-- `setLocalDescription` of a connection. -/
  | localDescription (peer : ℕ) (sdp : String)
  /-- `setRemoteDescription` of a connection. -/
  | remoteDescription (peer : ℕ) (sdp : String)
  /-- `addCandidate` of a connection. -/
  | addedCandidate (peer : ℕ) (candidate : Candidate)

/-- A stream of the other side: one that came with a track, or one that the manager made for its tracks. -/
inductive RemoteStream
  | given (id : String)
  | made (stream : ℕ)
  deriving DecidableEq

/-- The fields of the manager. The empty call identifier is `none`. -/
structure CallFields where
  currentCallId : Option ℕ := none
  isAcceptingCall : Bool := false
  status : CallStatus := .idle
  chatId : String := ""
  targetUserId : String := ""
  isVideo : Bool := false
  isCameraOff : Bool := false
  durationSeconds : ℕ := 0
  peerConnection : Option ℕ := none
  localStream : Option ℕ := none
  remoteStream : Option RemoteStream := none
  remoteIceCandidateQueue : List Candidate := []
  remoteDescriptionSet : Bool := false
  pendingOfferSdp : String := ""
  pendingAcceptOnOffer : Bool := false
  localSdp : String := ""
  remoteSdp : String := ""
  outgoingCandidateBatch : List Candidate := []
  isRestartingIce : Bool := false
  deriving DecidableEq

inductive TimerKind
  /-- `_ringTimeout` as `startCall` sets it. -/
  | outgoingRing
  /-- `_ringTimeout` as `prepareIncomingCall` and `handleIncomingOffer` set it. -/
  | incomingRing
  /-- `_reconnectTimer`. -/
  | reconnect
  /-- `_callTimer`. -/
  | call
  /-- `_candidateBatchTimer`. -/
  | candidateBatch
  /-- The timer of `handleOffline`, which no field keeps. -/
  | offlineEnd
  /-- The timer of `handleBusy`, which no field keeps. -/
  | busyEnd
  deriving DecidableEq

/-- A timer that runs, with the call that was the current one when it was set. -/
structure CallTimer where
  kind : TimerKind
  due : ℕ
  callId : Option ℕ
  deriving DecidableEq

/-- A run of `_flushRemoteCandidates` that waits for its connection. -/
structure Flush where
  peer : ℕ
  left : List Candidate

/-- `_initAndStartWebRTC`, with its parameter, or `acceptIncomingCall`. -/
inductive SetupKind
  | outgoing (isVideo : Bool)
  | accepting

inductive SetupStage
  | permissions
  | renderers
  | session
  | media (wantVideo : Bool)
  | routing (tracks : ℕ)
  | iceServers (tracks : ℕ)
  | peer (tracks : ℕ)
  /-- The closing of a connection that came too late. -/
  | closing
  | tracks (peer left : ℕ)
  | offer (peer : ℕ)
  | offerDescription (sdp : String)
  | remoteDescription (peer : ℕ)
  | candidates (peer : ℕ) (flush : Option Flush)
  | answer (peer : ℕ)
  | answerDescription (sdp : String)

/-- What `handleAnswer` waits for. -/
inductive AnswerStage
  | remoteDescription
  | candidates (flush : Option Flush)

/-- What `_handleOfferRenegotiation` waits for. -/
inductive RenegotiationStage
  | remoteDescription
  | candidates (flush : Option Flush)
  | answer
  | answerDescription (sdp : String)

inductive TrackKind
  | video
  | audio
  | other

/-- What `onTrack` waits for. -/
inductive TrackStage
  /-- `createLocalMediaStream`, with the kind of the track. -/
  | making (kind : TrackKind)
  /-- `Helper.setVolume`. -/
  | volume (remote : RemoteStream)
  | adding (remote : RemoteStream)

/-- What a method that waits has still to do. -/
inductive Work
  | setup (kind : SetupKind) (stage : SetupStage)
  /-- `performIceRestart`, with the offer once there is one. -/
  | iceRestart (peer : ℕ) (sdp : Option String)
  | answer (peer : ℕ) (stage : AnswerStage)
  | renegotiation (peer : ℕ) (stage : RenegotiationStage)
  | track (stage : TrackStage)

/-- A method that waits, with the call for which it runs. -/
structure Continuation where
  callId : Option ℕ
  work : Work

/-- The callbacks that a setup gave its connection. -/
structure PeerCallbacks where
  peer : ℕ
  callId : Option ℕ
  accepting : Bool

/-- The manager with what runs beside it. -/
structure CallSessionManager extends CallFields where
  now : ℕ := 0
  /-- The number of the next call. -/
  nextCall : ℕ := 0
  /-- How many connections were made, and those of them that are open. -/
  peers : ℕ := 0
  openPeers : List ℕ := []
  /-- How many streams were made, the captured ones that are open, and the open ones made for tracks of the
  other side. -/
  streams : ℕ := 0
  openCaptures : List ℕ := []
  openContainers : List ℕ := []
  callbacks : List PeerCallbacks := []
  armed : List CallTimer := []
  waiting : List Continuation := []

/-- The state after a part of a step, with its events. -/
abbrev Outcome := CallSessionManager × List CallEvent

/-- What a call of the platform gives a method that awaits it: whether it throws, and of the rest what the
method reads. -/
structure Reply where
  failed : Bool := false
  /-- Whether the permissions are given, the ICE servers are still to be fetched, or the stream has the
  track. -/
  answer : Bool := false
  tracks : ℕ := 0
  sdp : String := ""

/-- `RTCPeerConnectionState`. -/
inductive ConnectionState
  | connected
  | failed
  | disconnected
  | other

/-- What a connection calls back with. -/
inductive PeerEvent
  | connectionState (state : ConnectionState)
  /-- `onIceConnectionState`, with whether the state is a connected or completed one. -/
  | iceConnectionState (connected : Bool)
  | iceCandidate (candidate : Option Candidate)
  /-- `onTrack`, with the first stream of the track, its kind, and whether the stream has it already. -/
  | track (stream : Option String) (kind : TrackKind) (known : Bool)

/-- What happens. -/
inductive CallAction
  | startCall (chatId chatTitle targetUserId : String) (isVideo : Bool)
  | prepareIncomingCall (chatId : String) (isVideo : Bool)
  | acceptIncomingCall
  | rejectIncomingCall
  | endCall (notifyPeer : Bool)
  /-- CallKit has ended the call. -/
  | callKitEnded
  | toggleCamera
  /-- A `webrtc.signal` event. -/
  | signal (sender chatId : String) (signal : Signal)
  /-- A connection calls back. -/
  | callback (index : ℕ) (event : PeerEvent)
  | timer (index : ℕ)
  /-- What a method waits for is there. -/
  | resume (index : ℕ) (reply : Reply)
  | elapse (ms : ℕ)

namespace CallSessionManager

/-! ## Timers and waiting methods -/

variable (s : CallSessionManager)

variable (callId : Option ℕ)

/-- `isStillActive` of a method that runs for a call. -/
def isStillActive : Bool :=
  s.status ≠ .idle && s.currentCallId = callId

def cancel (kinds : TimerKind → Bool) (s : CallSessionManager) : CallSessionManager :=
  { s with armed := s.armed.filter fun timer => !kinds timer.kind }

/-- The timers of `_ringTimeout`. -/
def ringTimeout : TimerKind → Bool
  | .outgoingRing | .incomingRing => true
  | _ => false

/-- Sets a timer for the current call. -/
def arm (kind : TimerKind) (delay : ℕ) (s : CallSessionManager) : CallSessionManager :=
  { s with armed := s.armed ++ [⟨kind, s.now + delay, s.currentCallId⟩] }

/-- A method awaits something. -/
def await (work : Work) (s : CallSessionManager) : CallSessionManager :=
  { s with waiting := s.waiting ++ [⟨callId, work⟩] }

/-! ## The end of a call -/

/-- The timers that the end of a call cancels. -/
def endsWithCall : TimerKind → Bool
  | .offlineEnd | .busyEnd => false
  | _ => true

/-- The disposal of the streams and the closing of the connection, as `endCall` and `handleCancel` have it. -/
def release : CallSessionManager :=
  { s with
    openCaptures := s.openCaptures.filter fun stream => s.localStream ≠ some stream
    openContainers := s.openContainers.filter fun stream => s.remoteStream ≠ some (.made stream)
    openPeers := s.openPeers.filter fun peer => s.peerConnection ≠ some peer }

/-- What `endCall` and `handleCancel` leave of a call. -/
def clear : CallSessionManager :=
  { (s.cancel endsWithCall).release with
    toCallFields := { isVideo := s.isVideo, isCameraOff := s.isCameraOff } }

def endCall (notifyPeer : Bool) (s : CallSessionManager) : Outcome :=
  (s.clear, if notifyPeer && s.targetUserId ≠ "" then [.sent s.targetUserId s.chatId .hangup] else [])

def handleCancel : CallSessionManager := { s.clear with isCameraOff := false }

def rejectIncomingCall : Outcome :=
  ((endCall false (s.cancel ringTimeout)).1,
    if s.targetUserId ≠ "" then [.sent s.targetUserId s.chatId .rejected] else [])

/-! ## Candidates -/

def queueOutgoingCandidate (candidate : Option Candidate) (s : CallSessionManager) : CallSessionManager :=
  match candidate with
  | none => s
  | some candidate =>
    if s.targetUserId = "" then s
    else arm .candidateBatch 60 (cancel (· == .candidateBatch)
      { s with outgoingCandidateBatch := s.outgoingCandidateBatch ++ [candidate] })

def batchSignal : List Candidate → SentSignal
  | [candidate] => .candidate candidate
  | candidates => .candidates candidates

def flushOutgoingCandidates : Outcome :=
  if s.outgoingCandidateBatch = [] ∨ s.targetUserId = "" then (s.cancel (· == .candidateBatch), [])
  else ({ s.cancel (· == .candidateBatch) with outgoingCandidateBatch := [] },
    [.sent s.targetUserId s.chatId (batchSignal s.outgoingCandidateBatch)])

def handleRemoteCandidate (payload : CandidatePayload) (s : CallSessionManager) : Outcome :=
  match payload.read with
  | none => (s, [])
  | some candidate =>
    match s.peerConnection, s.remoteDescriptionSet with
    | some peer, true => (s, [.addedCandidate peer candidate])
    | _, _ => ({ s with remoteIceCandidateQueue := s.remoteIceCandidateQueue ++ [candidate] }, [])

/-- `handleRemoteCandidate` for each candidate of a list. -/
def handleRemoteCandidates : List CandidatePayload → CallSessionManager → Outcome
  | [], s => (s, [])
  | payload :: payloads, s =>
    let first := s.handleRemoteCandidate payload
    let rest := handleRemoteCandidates payloads first.1
    (rest.1, first.2 ++ rest.2)

/-- A run of `_flushRemoteCandidates` up to the next await of `addCandidate`, or to its end. -/
def flushNext (flush : Flush) (s : CallSessionManager) : Option Flush × List CallEvent :=
  match flush.left with
  | [] => (none, [])
  | candidate :: left =>
    if s.peerConnection = some flush.peer then (some ⟨flush.peer, left⟩, [.addedCandidate flush.peer candidate])
    else (none, [])

/-- The start of `_flushRemoteCandidates` once the remote description is set. -/
def flushRemoteCandidates : CallSessionManager × Option Flush × List CallEvent :=
  match s.peerConnection, s.remoteDescriptionSet with
  | some peer, true => ({ s with remoteIceCandidateQueue := [] }, flushNext ⟨peer, s.remoteIceCandidateQueue⟩ s)
  | _, _ => (s, none, [])

/-! ## The setup of a call -/

variable (kind : SetupKind)

/-- The `finally` block of a setup. -/
def finishSetup (s : CallSessionManager) : CallSessionManager :=
  match kind with
  | .outgoing _ => s
  | .accepting => { s with isAcceptingCall := false }

/-- A setup goes on, or returns, as `isStillActive` says. -/
def whileActive (next : Outcome) (s : CallSessionManager) : Outcome :=
  if s.isStillActive callId then next else (s.finishSetup kind, [])

/-- The `catch` block of a setup. -/
def setupFailed (s : CallSessionManager) : Outcome :=
  if s.isStillActive callId then (((endCall true s).1).finishSetup kind, (endCall true s).2)
  else (s.finishSetup kind, [])

/-- What an await that may throw leads to. -/
def proceed (reply : Reply) (callId : Option ℕ) (kind : SetupKind) (next : Outcome) (s : CallSessionManager) :
    Outcome :=
  if reply.failed then s.setupFailed callId kind else s.whileActive callId kind next

/-- The user has not given the permissions. -/
def permissionDenied (s : CallSessionManager) : Outcome :=
  match kind with
  | .outgoing _ => endCall false s
  | .accepting => (s.rejectIncomingCall.1.finishSetup kind, s.rejectIncomingCall.2)

/-- The setup awaits the next thing. -/
def awaitSetup (stage : SetupStage) (s : CallSessionManager) : CallSessionManager :=
  s.await callId (.setup kind stage)

/-- What a setup does with its connection once the tracks are added. -/
def describe (peer : ℕ) (s : CallSessionManager) : Outcome :=
  match kind with
  | .outgoing _ =>
    (awaitSetup callId kind (.offer peer) { s with callbacks := s.callbacks ++ [⟨peer, callId, false⟩] }, [])
  | .accepting =>
    (awaitSetup callId kind (.remoteDescription peer)
      { s with callbacks := s.callbacks ++ [⟨peer, callId, true⟩], remoteSdp := s.pendingOfferSdp },
      [.remoteDescription peer s.pendingOfferSdp])

/-- The tracks that are left are added to the connection, one after another. -/
def addTracks (peer tracks : ℕ) (s : CallSessionManager) : Outcome :=
  match tracks with
  | 0 => s.describe callId kind peer
  | left + 1 => (s.awaitSetup callId kind (.tracks peer left), [])

/-- With which video the user media are asked for: an accepting call reads the field. -/
def wantsVideo (s : CallSessionManager) : Bool :=
  match kind with
  | .outgoing isVideo => isVideo
  | .accepting => s.isVideo

/-- `_acquireUserMedia` and what follows it. -/
def mediaAcquired (reply : Reply) (callId : Option ℕ) (kind : SetupKind) (wantVideo : Bool)
    (s : CallSessionManager) : Outcome :=
  if reply.failed then
    if wantVideo then
      (awaitSetup callId kind (.media false) { s with isVideo := false, isCameraOff := true }, [])
    else s.setupFailed callId kind
  else if s.isStillActive callId then
    (awaitSetup callId kind (.routing reply.tracks)
      { s with
        streams := s.streams + 1
        openCaptures := s.streams :: s.openCaptures
        localStream := some s.streams }, [])
  else (finishSetup kind { s with streams := s.streams + 1 }, [])

/-- `createPeerConnection` and what follows it. -/
def peerCreated (reply : Reply) (callId : Option ℕ) (kind : SetupKind) (tracks : ℕ) (s : CallSessionManager) :
    Outcome :=
  if reply.failed then s.setupFailed callId kind
  else if s.isStillActive callId then
    addTracks callId kind s.peers tracks
      { s with peers := s.peers + 1, openPeers := s.peers :: s.openPeers, peerConnection := some s.peers }
  else (awaitSetup callId kind .closing { s with peers := s.peers + 1 }, [])

/-- An accepting setup sets the remote description and hands on the candidates that came before. -/
def remoteDescribed (peer : ℕ) (s : CallSessionManager) : Outcome :=
  let flush := flushRemoteCandidates { s with remoteDescriptionSet := true }
  (flush.1.awaitSetup callId kind (.candidates peer flush.2.1), flush.2.2)

variable (sdp : String)

/-- The end of an outgoing setup. -/
def sendOffer (s : CallSessionManager) : Outcome :=
  ({ s with localSdp := sdp }, [.sent s.targetUserId s.chatId (.offer sdp s.isVideo false)])

/-- The end of an accepting setup. -/
def sendAnswer (s : CallSessionManager) : Outcome :=
  (finishSetup kind
    { s with localSdp := sdp, status := if s.status = .connected then .connected else .calling },
    [.sent s.targetUserId s.chatId (.answer sdp false)])

/-- A setup goes on with what it has waited for. -/
def resumeSetup (stage : SetupStage) (reply : Reply) (s : CallSessionManager) : Outcome :=
  match stage with
  | .permissions =>
    s.proceed reply callId kind
      (if reply.answer then (s.awaitSetup callId kind .renderers, []) else s.permissionDenied kind)
  | .renderers => s.whileActive callId kind (s.awaitSetup callId kind .session, [])
  | .session => s.proceed reply callId kind (s.awaitSetup callId kind (.media (s.wantsVideo kind)), [])
  | .media wantVideo => s.mediaAcquired reply callId kind wantVideo
  | .routing tracks =>
    s.proceed reply callId kind
      (s.awaitSetup callId kind (if reply.answer then .iceServers tracks else .peer tracks), [])
  | .iceServers tracks => s.whileActive callId kind (s.awaitSetup callId kind (.peer tracks), [])
  | .peer tracks => s.peerCreated reply callId kind tracks
  | .closing => (s.finishSetup kind, [])
  | .tracks peer left => s.proceed reply callId kind (s.addTracks callId kind peer left)
  | .offer peer =>
    s.proceed reply callId kind
      (s.awaitSetup callId kind (.offerDescription reply.sdp), [.localDescription peer reply.sdp])
  | .offerDescription sdp => s.proceed reply callId kind (s.sendOffer sdp)
  | .remoteDescription peer => s.proceed reply callId kind (s.remoteDescribed callId kind peer)
  | .candidates peer (some flush) =>
    (s.awaitSetup callId kind (.candidates peer (s.flushNext flush).1), (s.flushNext flush).2)
  | .candidates peer none => s.whileActive callId kind (s.awaitSetup callId kind (.answer peer), [])
  | .answer peer =>
    s.proceed reply callId kind
      (s.awaitSetup callId kind (.answerDescription reply.sdp), [.localDescription peer reply.sdp])
  | .answerDescription sdp => s.proceed reply callId kind (s.sendAnswer kind sdp)

/-! ## The methods that wait on the current connection -/

/-- `performIceRestart` up to its first await. -/
def performIceRestart : CallSessionManager :=
  match s.peerConnection with
  | none => s
  | some peer =>
    if s.status ≠ .connected ∨ s.isRestartingIce then s
    else await s.currentCallId (.iceRestart peer none) { s with isRestartingIce := true }

/-- `performIceRestart` goes on. -/
def resumeIceRestart (peer : ℕ) (sdp : Option String) (reply : Reply) (s : CallSessionManager) : Outcome :=
  match sdp with
  | none =>
    if reply.failed ∨ s.peerConnection ≠ some peer ∨ s.status ≠ .connected then
      ({ s with isRestartingIce := false }, [])
    else (s.await callId (.iceRestart peer (some reply.sdp)), [.localDescription peer reply.sdp])
  | some sdp =>
    if reply.failed then ({ s with isRestartingIce := false }, [])
    else ({ s with localSdp := sdp, isRestartingIce := false },
      if s.targetUserId ≠ "" then [.sent s.targetUserId s.chatId (.offer sdp s.isVideo true)] else [])

/-- `handleAnswer` up to its first await. -/
def handleAnswer (s : CallSessionManager) : Outcome :=
  match s.peerConnection with
  | none => (s, [])
  | some peer =>
    (await s.currentCallId (.answer peer .remoteDescription) { s with remoteSdp := sdp },
      [.remoteDescription peer sdp])

/-- `handleAnswer` goes on. -/
def resumeAnswer (peer : ℕ) (stage : AnswerStage) (reply : Reply) (s : CallSessionManager) : Outcome :=
  match stage with
  | .remoteDescription =>
    if reply.failed ∨ s.peerConnection ≠ some peer then (s, [])
    else
      let flush := flushRemoteCandidates { s with remoteDescriptionSet := true }
      (flush.1.await callId (.answer peer (.candidates flush.2.1)), flush.2.2)
  | .candidates (some flush) =>
    (s.await callId (.answer peer (.candidates (s.flushNext flush).1)), (s.flushNext flush).2)
  | .candidates none => (s.cancel fun kind => ringTimeout kind || kind == .reconnect, [])

/-- `_handleOfferRenegotiation` up to its first await. -/
def handleOfferRenegotiation (payload : OfferPayload) (s : CallSessionManager) : Outcome :=
  match payload.sdp.read "", s.peerConnection with
  | some sdp, some peer =>
    if sdp = "" then (s, [])
    else (await s.currentCallId (.renegotiation peer .remoteDescription) { s with remoteSdp := sdp },
      [.remoteDescription peer sdp])
  | _, _ => (s, [])

/-- `_handleOfferRenegotiation` goes on. -/
def resumeRenegotiation (peer : ℕ) (stage : RenegotiationStage) (reply : Reply)
    (s : CallSessionManager) : Outcome :=
  match stage with
  | .remoteDescription =>
    if reply.failed ∨ s.peerConnection ≠ some peer then (s, [])
    else
      let flush := flushRemoteCandidates { s with remoteDescriptionSet := true }
      (flush.1.await callId (.renegotiation peer (.candidates flush.2.1)), flush.2.2)
  | .candidates (some flush) =>
    (s.await callId (.renegotiation peer (.candidates (s.flushNext flush).1)), (s.flushNext flush).2)
  | .candidates none => (s.await callId (.renegotiation peer .answer), [])
  | .answer =>
    if reply.failed ∨ s.peerConnection ≠ some peer then (s, [])
    else (s.await callId (.renegotiation peer (.answerDescription reply.sdp)), [.localDescription peer reply.sdp])
  | .answerDescription sdp =>
    if reply.failed then (s, [])
    else ({ s with localSdp := sdp },
      if s.targetUserId ≠ "" then [.sent s.targetUserId s.chatId (.answer sdp true)] else [])

/-! ## Tracks of the other side -/

/-- `onTrack` once it has the stream, up to its next await. -/
def placeTrack (remote : RemoteStream) (kind : TrackKind) (known : Bool)
    (s : CallSessionManager) : CallSessionManager :=
  match kind, known with
  | .video, true => { s with remoteStream := some remote }
  | .video, false => s.await callId (.track (.adding remote))
  | .audio, _ => s.await callId (.track (.volume remote))
  | .other, _ => s

/-- `onTrack` up to its first await. -/
def onTrack (stream : Option String) (kind : TrackKind) (known : Bool)
    (s : CallSessionManager) : CallSessionManager :=
  match stream, s.remoteStream with
  | some id, _ => s.placeTrack callId (.given id) kind known
  | none, some remote => s.placeTrack callId remote kind known
  | none, none => s.await callId (.track (.making kind))

/-- `onTrack` goes on. -/
def resumeTrack (stage : TrackStage) (reply : Reply) (s : CallSessionManager) : CallSessionManager :=
  match stage with
  | .making kind =>
    if reply.failed then s
    else
      let made : CallSessionManager :=
        { s with
          streams := s.streams + 1
          openContainers := s.streams :: s.openContainers
          remoteStream := some (.made s.streams) }
      if s.isStillActive callId then made.placeTrack callId (.made s.streams) kind false else made
  | .volume remote =>
    if reply.answer then { s with remoteStream := some remote } else s.await callId (.track (.adding remote))
  | .adding remote => { s with remoteStream := some remote }

/-- A method that waits goes on. -/
def resume (continuation : Continuation) (reply : Reply) (s : CallSessionManager) : Outcome :=
  match continuation.work with
  | .setup kind stage => s.resumeSetup continuation.callId kind stage reply
  | .iceRestart peer sdp => s.resumeIceRestart continuation.callId peer sdp reply
  | .answer peer stage => s.resumeAnswer continuation.callId peer stage reply
  | .renegotiation peer stage => s.resumeRenegotiation continuation.callId peer stage reply
  | .track stage => (s.resumeTrack continuation.callId stage reply, [])

/-! ## The callbacks of a connection -/

def startDurationTimer : CallSessionManager :=
  arm .call 1000 { s.cancel (· == .call) with durationSeconds := 0 }

def onConnectionState (peer : PeerCallbacks) (state : ConnectionState) (s : CallSessionManager) : Outcome :=
  match state with
  | .connected =>
    -- Only an outgoing call cancels its ring timer here.
    let quiet := s.cancel fun kind => kind == .reconnect || (!peer.accepting && ringTimeout kind)
    (startDurationTimer { quiet with status := .connected }, [])
  | .failed => endCall true s
  | .disconnected =>
    if s.status = .connected then
      (performIceRestart (arm .reconnect 25000 (s.cancel (· == .reconnect))), [])
    else endCall true s
  | .other => (s, [])

/-- A connection calls back: every callback returns at once when its call is no longer active. -/
def callback (peer : PeerCallbacks) (event : PeerEvent) (s : CallSessionManager) : Outcome :=
  if s.isStillActive peer.callId then
    match event with
    | .connectionState state => s.onConnectionState peer state
    | .iceConnectionState connected => (if connected then s.cancel (· == .reconnect) else s, [])
    | .iceCandidate candidate => (s.queueOutgoingCandidate candidate, [])
    | .track stream kind known => (s.onTrack peer.callId stream kind known, [])
  else (s, [])

def startCall (chatId chatTitle targetUserId : String) (isVideo : Bool) (s : CallSessionManager) :
    CallSessionManager :=
  if s.status = .idle ∨ s.status = .ended ∨ s.status = .offline then
    let started : CallSessionManager :=
      { s with
        chatId := chatId
        targetUserId := if targetUserId ≠ "" then targetUserId else chatTitle
        isVideo := isVideo
        isCameraOff := !isVideo
        durationSeconds := 0
        status := .calling
        remoteDescriptionSet := false
        remoteIceCandidateQueue := []
        isAcceptingCall := false
        currentCallId := some s.nextCall
        nextCall := s.nextCall + 1 }
    (arm .outgoingRing 55000 (started.cancel ringTimeout)).awaitSetup (some s.nextCall) (.outgoing isVideo)
      .permissions
  else s

def prepareIncomingCall (chatId : String) (isVideo : Bool) (s : CallSessionManager) : CallSessionManager :=
  if s.status = .idle then
    arm .incomingRing 55000 (cancel ringTimeout
      { s with
        currentCallId := some s.nextCall
        nextCall := s.nextCall + 1
        isAcceptingCall := false
        chatId := chatId
        isVideo := isVideo
        isCameraOff := !isVideo
        status := .incoming })
  else s

/-- `acceptIncomingCall` up to its first await. -/
def acceptIncomingCall : CallSessionManager :=
  if s.isAcceptingCall ∨ s.status = .connected ∨ s.status = .idle then s
  else if s.pendingOfferSdp = "" then { s with pendingAcceptOnOffer := true, status := .calling }
  else
    awaitSetup s.currentCallId .accepting .permissions
      { s.cancel ringTimeout with pendingAcceptOnOffer := false, isAcceptingCall := true, status := .calling }

/-- The rest of `handleIncomingOffer` once the payload is read. -/
def takeOffer (s : CallSessionManager) : CallSessionManager :=
  let offered : CallSessionManager :=
    { s with pendingOfferSdp := sdp, remoteDescriptionSet := false, remoteIceCandidateQueue := [] }
  let named : CallSessionManager :=
    if s.currentCallId = none then
      { offered with currentCallId := some s.nextCall, nextCall := s.nextCall + 1, isAcceptingCall := false }
    else offered
  if s.pendingAcceptOnOffer then acceptIncomingCall { named with pendingAcceptOnOffer := false }
  else arm .incomingRing 55000 (cancel ringTimeout { named with status := .incoming })

def handleIncomingOffer (fromUser chatId : String) (payload : OfferPayload) (s : CallSessionManager) : Outcome :=
  if s.status = .idle ∨ s.status = .incoming ∨ s.status = .calling then
    let named : CallSessionManager := { s with chatId := chatId, targetUserId := fromUser }
    let asked : CallSessionManager := { named with isVideo := payload.isVideo, isCameraOff := !payload.isVideo }
    -- A cast that throws leaves what is assigned before it.
    (match payload.callerName.read "", payload.sdp.read "" with
      | none, _ => named
      | some _, none => asked
      | some _, some sdp => asked.takeOffer sdp,
      [.sent fromUser chatId .ringing])
  else if s.status = .connected ∧ (s.targetUserId = fromUser ∨ payload.iceRestart) then
    s.handleOfferRenegotiation payload
  else (s, [.sent fromUser chatId .busy])

def handleRinging : CallSessionManager :=
  if s.status = .calling then { s with status := .ringing } else s

def handleOffline : CallSessionManager :=
  arm .offlineEnd 3000 { s.cancel ringTimeout with status := .offline }

def handleBusy : CallSessionManager :=
  arm .busyEnd 2500 { s.cancel ringTimeout with status := .ended }

/-- The dispatch of a `webrtc.signal` event: only an offer is handed on with its sender. -/
def onSignal (sender chatId : String) (signal : Signal) (s : CallSessionManager) : Outcome :=
  match signal with
  | .offer payload => s.handleIncomingOffer sender chatId payload
  | .ringing => (s.handleRinging, [])
  | .offline => (s.handleOffline, [])
  | .busy => (s.handleBusy, [])
  | .answer sdp =>
    match sdp.read "" with
    | none => (s, [])
    | some sdp => if sdp = "" then (s, []) else s.handleAnswer sdp
  | .candidate payload => s.handleRemoteCandidate payload
  | .candidates payloads => s.handleRemoteCandidates payloads
  | .cancel reason => (if (reason.read "").isSome then s.handleCancel else s, [])
  | .hangup | .rejected => endCall false s
  | .other => (s, [])

def fire (timer : CallTimer) (s : CallSessionManager) : Outcome :=
  match timer.kind with
  | .outgoingRing =>
    if s.currentCallId = timer.callId ∧ (s.status = .calling ∨ s.status = .ringing) then endCall true s
    else (s, [])
  | .incomingRing => if s.status = .incoming then s.rejectIncomingCall else (s, [])
  | .reconnect => if s.isStillActive timer.callId then endCall true s else (s, [])
  | .call =>
    ({ s with
        durationSeconds := s.durationSeconds + 1
        armed := s.armed ++ [{ timer with due := timer.due + 1000 }] }, [])
  | .candidateBatch => s.flushOutgoingCandidates
  | .offlineEnd => if s.status = .offline then endCall false s else (s, [])
  | .busyEnd => endCall false s

def step : CallAction → Option Outcome
  | .startCall chatId chatTitle targetUserId isVideo =>
    some (s.startCall chatId chatTitle targetUserId isVideo, [])
  | .prepareIncomingCall chatId isVideo => some (s.prepareIncomingCall chatId isVideo, [])
  | .acceptIncomingCall => some (s.acceptIncomingCall, [])
  | .rejectIncomingCall => some s.rejectIncomingCall
  | .endCall notifyPeer => some (endCall notifyPeer s)
  | .callKitEnded =>
    some (if s.status = .incoming then s.rejectIncomingCall
      else if s.status ≠ .idle then endCall true s else (s, []))
  | .toggleCamera => some ({ s with isCameraOff := !s.isCameraOff }, [])
  | .signal sender chatId signal => some (s.onSignal sender chatId signal)
  | .callback index event => (s.callbacks[index]?).map fun peer => s.callback peer event
  | .timer index =>
    match s.armed[index]? with
    | none => none
    | some timer =>
      if timer.due ≤ s.now then some (fire timer { s with armed := s.armed.eraseIdx index }) else none
  | .resume index reply =>
    (s.waiting[index]?).map fun continuation =>
      resume continuation reply { s with waiting := s.waiting.eraseIdx index }
  | .elapse ms => some ({ s with now := s.now + ms }, [])

end CallSessionManager

def callMachine : Machine CallSessionManager CallAction CallEvent where
  step := CallSessionManager.step

end LigamentApps.CallSession
