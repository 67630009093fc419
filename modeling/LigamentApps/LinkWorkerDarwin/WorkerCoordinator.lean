import LigamentApps.LinkHost.HostRules
import LigamentApps.LinkWorkerDarwin.InputInjector

/-!
# The native macOS worker

`WorkerCoordinator` of `main.swift` with `WebRTCBridge`, `ScreenCapturer` and `RecorderSink`, as a
machine. `run` is cut at its waits; the read loop, the callbacks of the peer and of the capture, and
`shutdown` come in between in any order, each as an action. What the outside world decides is in the
actions: the frames that arrive, the results of the capture and of the peer, and whether a frame could
be written. -/

namespace LigamentApps.LinkWorkerDarwin

open LinkHost

/-- Where `run` stands. -/
inductive Pc
  /-- The initial frame was read. -/
  | decode (frame : Json)
  /-- In `startCapture`. -/
  | capture
  /-- In `setRemoteDescription`. -/
  | remoteDescription
  /-- In `answer(for:)`. -/
  | answer
  /-- In `setLocalDescription`. -/
  | localDescription
  /-- It has returned, and the read loop runs. -/
  | readLoop
  /-- It has returned, and the read loop has ended. -/
  | readLoopEnded
  /-- In `stopCapture`, before it exits. -/
  | stopCapture
  /-- The process has exited. -/
  | exited

structure Candidate where
  sdp : String
  sdpMLineIndex : ℤ
  sdpMid : Option String

/-- The worker. -/
structure State where
  pc : Pc
  currentSessionId : String := ""
  /-- The decoded offer, once there is one. -/
  offer : Option SessionOfferPayload := none
  /-- `peerConnection` and the video source exist. -/
  peerConnection : Bool := false
  hasRemoteDescription : Bool := false
  pendingIceCandidates : List Candidate := []
  /-- `dataChannel` exists. -/
  dataChannel : Bool := false
  targetDisplayBounds : DisplayBounds := {}
  /-- `InputInjector.shared`. -/
  injector : InputInjector := {}
  /-- A call of `shutdown` waits for `stopCapture`. -/
  shuttingDown : Bool := false

/-- The worker after it has read its initial frame. -/
def State.start (frame : Json) : State := { pc := .decode frame }

/-- What can happen. -/
inductive Action
  /-- The initial frame is decoded. -/
  | decode
  /-- `startCapture` returns, with the bounds of the display, or throws. -/
  | captureStarted (bounds : Option DisplayBounds)
  /-- `setRemoteDescription` returns. -/
  | remoteDescriptionSet (ok : Bool)
  /-- `answer(for:)` returns. -/
  | answerCreated (ok : Bool)
  /-- `setLocalDescription` returns, and where it succeeds the answer is written or not. -/
  | localDescriptionSet (ok written : Bool)
  /-- `stopCapture` returns, in `run` or in `shutdown`. -/
  | captureStopped
  /-- A frame arrives over the socket; `none` where it is no JSON. -/
  | frameRead (frame : Option Json)
  /-- Reading from the socket fails. -/
  | readFailed
  /-- The screen is captured; `record` is whether `RecorderSink` has the time for it and can encode
  it. -/
  | videoFrame (record : Bool)
  /-- `didFailCapture`. -/
  | captureFailed
  /-- `didResumeCapture`. -/
  | captureResumed (bounds : DisplayBounds)
  /-- The operator opened a data channel. -/
  | channelOpened (label : String)
  /-- A message on the control channel. -/
  | message (message : Option Json) (trusted : Bool)
  /-- The peer generated a local candidate. -/
  | candidateGenerated
  /-- The peer's connection failed, or closed. -/
  | disconnected
  /-- The recorder service answers a frame it was sent. -/
  | recorderAnswered (firstFrameAcked : Bool)

abbrev Event := HostEvent CGEvent

variable (s : State)

/-- The worker is alive, and its initial frame is decoded. -/
def State.started : Bool :=
  match s.pc with
  | .decode _ | .exited => false
  | _ => true

/-- `run` from the initial frame to `startCapture`. -/
def State.decodeOffer (frame : Json) : State × List Event :=
  match decodeSessionOfferEnvelope frame with
  | none => ({ s with pc := .exited }, [])
  | some envelope =>
    if envelope.effectiveSessionId = "" then ({ s with pc := .exited }, [])
    else
      ({ s with
          pc := .capture
          currentSessionId := envelope.effectiveSessionId
          offer := some envelope.payload
          peerConnection := true }, [])

/-- The `sdp` of the offer, empty where it has none. -/
def State.offerSdp : String := (s.offer.bind SessionOfferPayload.sdp).getD ""

/-- `run` after `startCapture`, to `setRemoteDescription`. -/
def State.captureStarted (bounds : Option DisplayBounds) : State × List Event :=
  match bounds with
  | none =>
    ({ s with pc := .exited }, [.answered false (some "host_screen_capture_unavailable")])
  | some bounds =>
    if s.offerSdp = "" then
      ({ s with pc := .stopCapture, targetDisplayBounds := bounds },
        [.answered false (some "invalid_offer")])
    else ({ s with pc := .remoteDescription, targetDisplayBounds := bounds }, [])

/-- `createAnswer` throws, or the answer could not be written. -/
def State.answerFailed : State × List Event :=
  ({ s with pc := .stopCapture }, [.answered false (some "host_worker_failed")])

/-- `setRemoteDescription` returns: the candidates that waited for it are added. -/
def State.remoteDescriptionSet (ok : Bool) : State × List Event :=
  if ok then
    ({ s with pc := .answer, hasRemoteDescription := true, pendingIceCandidates := [] },
      s.pendingIceCandidates.map fun _ => .candidateAdded)
  else s.answerFailed

def State.addCandidate (candidate : Candidate) : State × List Event :=
  if s.hasRemoteDescription then (s, if s.peerConnection then [.candidateAdded] else [])
  else ({ s with pendingIceCandidates := s.pendingIceCandidates ++ [candidate] }, [])

/-- The candidate that a `signal` frame carries. -/
def signalCandidate (json : Json) : Option Candidate := do
  let signal ← json.get "signal"
  let candidate ← signal.get "candidate"
  let sdp ← (← candidate.get "candidate").str?
  return ⟨sdp, ((candidate.get "sdpMLineIndex").bind asInt32).getD 0,
    (candidate.get "sdpMid").bind Json.str?⟩

/-- One round of `readLoop`. -/
def State.readFrame (frame : Option Json) : State × List Event :=
  match frame with
  | none => (s, [])
  | some json =>
    match (json.get "type").bind Json.str? with
    | none => (s, [])
    | some type =>
      match if type = "signal" then signalCandidate json else none with
      | some candidate => s.addCandidate candidate
      | none =>
        if type = "session_terminate" then ({ s with pc := .readLoopEnded, shuttingDown := true }, [])
        else (s, [])

/-- `RecorderSink.feedVideoFrame` sends the frame. -/
def State.records : Bool :=
  match s.offer.bind SessionOfferPayload.recording with
  | some config => config.enabled == some true && config.ingestUrl.isSome
  | none => false

/-- `didCaptureVideoFrame`. -/
def State.feedVideoFrame (record : Bool) : State × List Event :=
  (s, (if s.peerConnection then [.streamed] else []) ++
    if record && s.records then [.recorded] else [])

/-- A message on the control channel. -/
def State.receive (message : Option Json) (trusted : Bool) : State × List Event :=
  let r := s.injector.receive s.targetDisplayBounds message trusted
  ({ s with injector := r.1 }, r.2.map .injected)

def step : Action → Option (State × List Event)
  | .decode =>
    match s.pc with
    | .decode frame => some (s.decodeOffer frame)
    | _ => none
  | .captureStarted bounds =>
    match s.pc with
    | .capture => some (s.captureStarted bounds)
    | _ => none
  | .remoteDescriptionSet ok =>
    match s.pc with
    | .remoteDescription => some (s.remoteDescriptionSet ok)
    | _ => none
  | .answerCreated ok =>
    match s.pc with
    | .answer => some (if ok then ({ s with pc := .localDescription }, []) else s.answerFailed)
    | _ => none
  | .localDescriptionSet ok written =>
    match s.pc with
    | .localDescription =>
      some (if ok && written then ({ s with pc := .readLoop }, [.answered true none])
        else s.answerFailed)
    | _ => none
  | .captureStopped =>
    match s.pc with
    | .stopCapture => some ({ s with pc := .exited }, [])
    | _ => if s.shuttingDown && s.started then some ({ s with pc := .exited }, []) else none
  | .frameRead frame =>
    match s.pc with
    | .readLoop => some (s.readFrame frame)
    | _ => none
  | .readFailed =>
    match s.pc with
    | .readLoop => some ({ s with pc := .readLoopEnded, shuttingDown := true }, [])
    | _ => none
  | .videoFrame record => if s.started then some (s.feedVideoFrame record) else none
  | .captureFailed =>
    if s.started then some ({ s with shuttingDown := true }, [.terminated "host_media_failed"])
    else none
  | .captureResumed bounds =>
    if s.started then some ({ s with targetDisplayBounds := bounds }, []) else none
  | .channelOpened label =>
    if s.started && s.peerConnection then
      some ({ s with dataChannel := s.dataChannel || label = "link-control-v1" }, [])
    else none
  | .message message trusted =>
    if s.started && s.dataChannel then some (s.receive message trusted) else none
  | .candidateGenerated =>
    if s.started && s.peerConnection then some (s, [.candidateSent]) else none
  | .disconnected =>
    if s.started then some ({ s with shuttingDown := true }, [.terminated "peer_failed"]) else none
  | .recorderAnswered firstFrameAcked =>
    if s.started then some (s, [.ack firstFrameAcked]) else none

def workerCoordinator : Machine State Action Event := ⟨step⟩

end LigamentApps.LinkWorkerDarwin
