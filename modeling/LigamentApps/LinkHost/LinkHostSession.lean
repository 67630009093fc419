import LigamentApps.LinkHost.Bootstrap
import LigamentApps.Machine.Trace

/-!
# The session of the Flutter worker

`LinkHostSession` of `link_host_session.dart` as a machine. An action is a call from outside, or the moment at
which an awaited future completes and its code goes on; what the code then does without waiting is one step. A
step that ends with a call of `_reject` says for which reason. The peer, the transport and the clock are the
environment, which completes futures in any order. -/

namespace LigamentApps.LinkHost

/-! ## Frames -/

/-- A frame that the session sends. -/
inductive HostFrame
  /-- The answer of the consent stage. -/
  | consent (confirmationCode consentNonce : String)
  | accepts (consentGranted : Bool) (sdp : String)
  /-- The answer to a later offer. -/
  | renegotiates (sdp : String)
  | refuses (reason : String)
  | terminates (reason : String)
  | candidate (c : Json)

def candidateSignal (candidate : Json) : Json := .obj [("type", .str "candidate"), ("candidate", candidate)]

def sessionAnswer (sessionId : String) (members : List (String × Json)) : Json :=
  .obj [("type", .str "session_answer"), ("session_id", .str sessionId),
    ("payload", .obj (("session_id", .str sessionId) :: members))]

def HostFrame.toJson (sessionId : String) : HostFrame → Json
  | .consent code nonce => sessionAnswer sessionId [("stage", .str "consent"), ("accepted", .bool false),
      ("consent_granted", .bool true), ("confirmation_code", .str code), ("consent_nonce", .str nonce)]
  | .accepts consentGranted sdp => sessionAnswer sessionId
      [("accepted", .bool true), ("consent_granted", .bool consentGranted), ("sdp", .str sdp)]
  | .renegotiates sdp => sessionAnswer sessionId
      [("accepted", .bool true), ("consent_granted", .bool true), ("sdp", .str sdp)]
  | .refuses reason => sessionAnswer sessionId [("accepted", .bool false), ("reason", .str reason)]
  | .terminates reason => .obj [("type", .str "session_terminate"), ("session_id", .str sessionId),
      ("payload", .obj [("session_id", .str sessionId), ("reason", .str reason)])]
  | .candidate c => .obj [("type", .str "signal"), ("session_id", .str sessionId), ("signal", candidateSignal c)]

/-- The fields of a session that do not change. -/
structure SessionSetup where
  sessionId : String
  accessMode : String

/-- The arguments of `start`, and the nonce that it makes. -/
structure StartArgs where
  offerSdp : String
  iceServers : ℕ
  consentGranted : Bool
  confirmationRequired : Bool
  confirmationCode : String
  nonce : String

/-- Where `start` waits. -/
inductive StartPhase
  /-- It has not been called. -/
  | idle
  /-- For the answer of the consent stage to be sent. -/
  | consentSend (args : StartArgs)
  /-- For the decision of the server. -/
  | authorizing (args : StartArgs)
  /-- For the peer to start. -/
  | peerStart (args : StartArgs)
  /-- For its answer to be sent. -/
  | answerSend
  /-- For the peer to take the first of these candidates. -/
  | applying (candidates : List Json)
  /-- It has returned, or waits for a rejection. -/
  | over
  deriving Inhabited

/-- Where `_rejectOnce` waits. -/
inductive Rejecting
  /-- It has not been called. -/
  | no
  /-- For its frame to be sent. -/
  | sending
  | done
  deriving DecidableEq

structure LinkHostSession where
  started : Bool := false
  phase : StartPhase := .idle
  /-- The timer of `readyTimeout` runs. -/
  timerArmed : Bool := false
  /-- `_authorization`, with what it was completed with. -/
  authorization : Option (Option Bool) := none
  consentNonce : Option String := none
  ready : Bool := false
  closed : Bool := false
  rejecting : Rejecting := .no
  pendingCandidates : List Json := []
  /-- `peer.start` has been called. -/
  peerStarted : Bool := false
  /-- The later offers that the peer is answering. -/
  renegotiations : ℕ := 0
  /-- The candidates that are being sent. -/
  candidateSends : ℕ := 0

inductive SessionEvent
  /-- A frame begins to be sent. -/
  | sends (frame : HostFrame)
  /-- The media peer is started. -/
  | startsPeer
  /-- A frame from the broker is looked at. -/
  | receives (frame : Json)
  /-- The session is closed, other than by a rejection. -/
  | closes

/-- How `peer.start` ends. -/
inductive PeerResult
  | answer (sdp : String)
  /-- `LinkHostReadinessException`. -/
  | notReady (reason : String)
  | fails

/-- The calls of `reject` from outside. -/
inductive RejectCall
  | localDisconnect
  | uiUnavailable
  | consentDenied
  /-- A violation that the recorder reports. -/
  | recorder (what : String)

def RejectCall.reason : RejectCall → String
  | .localDisconnect => "host_local_disconnect"
  | .uiUnavailable => "host_ui_unavailable"
  | .consentDenied => "host_consent_denied"
  | .recorder what => "recorder_" ++ what

inductive SessionAction
  | start (args : StartArgs)
  | receive (frame : Json)
  | reject (call : RejectCall)
  | close
  | readyTimeout
  /-- The answer of the consent stage is sent, or fails to be. -/
  | consentSent (ok : Bool)
  /-- `start` goes on with the decision, or because the time for it is over. -/
  | authorizationEnds (timedOut : Bool)
  | peerStarts (result : PeerResult)
  | answerSent (ok : Bool)
  /-- The peer has taken a candidate that waited. -/
  | candidateApplied (ok : Bool)
  | renegotiated (answer : Option String)
  | peerFails
  | peerCandidate (c : Json)
  | candidateSent (ok : Bool)
  /-- The frame of `_rejectOnce` is sent, or fails to be. -/
  | rejectSent

/-! ## The code -/

/-- `^(?:[0-9]{2}|[0-9]{3}|[0-9]{6})$`. -/
def startCodeOk (code : String) : Bool :=
  code.toList.all Char.isDigit && [2, 3, 6].contains code.length

def maxPendingCandidates : ℕ := 256

/-- The offer has an SDP of some bytes and not too many, and not too many ICE servers. -/
def offerSizeOk (sdp : String) (iceServers : ℕ) : Bool :=
  sdp ≠ "" && sdp.utf8ByteSize ≤ maxOfferSdpBytes && iceServers ≤ maxIceServers

/-- A media line of an SDP begins with this text. -/
def hasMediaLine (sdp head : String) : Bool :=
  (sdp.toList.splitOn '\n').any fun line => head.toList.isPrefixOf line

/-- The offer has the media lines for its access. -/
def mediaOk (accessMode sdp : String) : Bool :=
  hasMediaLine sdp "m=video " &&
    (!(accessMode = "control" || accessMode = "full_control") || hasMediaLine sdp "m=application ")

/-- An SDP that the session takes from its peer, or sends on to it. -/
def sdpOk (sdp : String) : Bool := sdp ≠ "" && sdp.utf8ByteSize ≤ maxOfferSdpBytes

def memberIs (message : Json) (name text : String) : Bool := (message.get name).any (·.isStr text)

/-- What the code does without waiting: the state, the events, and the reason of its call of `_reject`. -/
abbrev Done := LinkHostSession × List SessionEvent × Option String

namespace LinkHostSession

variable (σ : SessionSetup) (s : LinkHostSession)

/-- `close`. -/
def shut : LinkHostSession :=
  if s.closed then s else { s with closed := true, timerArmed := false, pendingCandidates := [] }

/-- `close`, called by others than `_rejectOnce`. -/
def closeNow : Done := (s.shut, if s.closed then [] else [.closes], none)

variable (reason : String)

/-- `_rejectOnce`, up to the frame that it waits for. -/
def rejectOnce : LinkHostSession × List SessionEvent :=
  if s.closed then ({ s with rejecting := .done }, [])
  else if s.ready then
    if reason = "invalid_session_scope" then (({ s with rejecting := .done } : LinkHostSession).shut, [])
    else ({ s with rejecting := .sending }, [.sends (.terminates reason)])
  else ({ s with rejecting := .sending }, [.sends (.refuses reason)])

/-- `_reject`: there is one rejection. -/
def reject : LinkHostSession × List SessionEvent :=
  if s.rejecting = .no then s.rejectOnce reason else (s, [])

/-- `start` ends with a rejection. -/
def refuse : Done := ({ s with phase := .over }, [], some reason)

variable (args : StartArgs)

/-- `start`, after the authorization. -/
def startPeer : Done :=
  if !offerSizeOk args.offerSdp args.iceServers then s.refuse "invalid_offer"
  else if !mediaOk σ.accessMode args.offerSdp then s.refuse "invalid_offer_media"
  else ({ s with phase := .peerStart args, peerStarted := true }, [.startsPeer], none)

def start : Done :=
  let s := { s with started := true, timerArmed := true }
  if args.confirmationRequired then
    if !args.consentGranted || !startCodeOk args.confirmationCode then s.refuse "number_matching_required"
    else ({ s with authorization := some none, consentNonce := some args.nonce, phase := .consentSend args },
      [.sends (.consent args.confirmationCode args.nonce)], none)
  else s.startPeer σ args

/-- The decision, if there is one, or false where none is waited for any longer. -/
def decision (timedOut : Bool) : Option Bool :=
  match s.authorization with
  | some (some authorized) => some authorized
  | _ => if s.closed || timedOut then some false else none

/-- `start`, with the decision. -/
def authorized (args : StartArgs) (authorized : Bool) : Done :=
  if !authorized || s.closed then s.refuse "number_matching_failed" else s.startPeer σ args

/-- `start`, with the result of the peer. -/
def peerResult (result : PeerResult) : Done :=
  match result with
  | .notReady reason => s.refuse reason
  | .fails => s.refuse "host_worker_failed"
  | .answer sdp =>
    if s.closed then ({ s with phase := .over }, [], none)
    else if !sdpOk sdp then s.refuse "host_worker_failed"
    else ({ s with phase := .answerSend }, [.sends (.accepts args.consentGranted sdp)], none)

/-- The rest of the candidates that waited. -/
def apply (candidates : List Json) : LinkHostSession :=
  if candidates.isEmpty then { s with phase := .over, pendingCandidates := [] }
  else { s with phase := .applying candidates }

/-- `start`, after its answer is sent. -/
def answered : LinkHostSession :=
  if s.closed then { s with phase := .over }
  else { s with ready := true, timerArmed := false }.apply s.pendingCandidates

variable (signal : Json)

/-- `receive`, with a decision of the server. -/
def decide : LinkHostSession :=
  if s.authorization = some none && s.consentNonce.any (memberIs signal "consent_nonce") then
    { s with authorization := some (some ((signal.get "authorized").any Json.isTrue)), consentNonce := none }
  else s

/-- `receive`, with a later offer. -/
def renegotiate : LinkHostSession :=
  if s.ready && !s.closed && ((signal.get "sdp").bind Json.str?).any sdpOk then
    { s with renegotiations := s.renegotiations + 1 }
  else s

/-- `receive`, with a candidate. -/
def takeCandidate : Done :=
  match signal.get "candidate" with
  | some (.obj candidate) =>
    if s.ready then (s, [], none)
    else if s.pendingCandidates.length ≥ maxPendingCandidates then (s, [], some "candidate_queue_full")
    else ({ s with pendingCandidates := s.pendingCandidates ++ [.obj candidate] }, [], none)
  | _ => (s, [], none)

/-- The signal inside an `input_control`. -/
def innerSignal : Json :=
  match signal.get "data" with
  | some (.obj data) => if memberIs signal "type" "input_control" then .obj data else signal
  | _ => signal

/-- `receive`, with a signal. -/
def receiveSignal : Done :=
  if memberIs signal "type" "consent_decision" then (s.decide signal, [], none)
  else if ["ice_restart", "offer", "request_offer"].any (memberIs signal "type") then (s.renegotiate signal, [], none)
  -- The peer is asked for its screens, or for another one.
  else if ["screen_list", "get_screens", "switch_screen"].any (memberIs (innerSignal signal) "type") then (s, [], none)
  else s.takeCandidate signal

/-- `receive`, once the frame is one of the session. -/
def receiveFrame (frame : Json) : Done :=
  if memberIs frame "type" "signal" then
    match frame.get "signal" with
    | some (.obj signal) => s.receiveSignal (.obj signal)
    | _ => (s, [], some "invalid_signal")
  else if memberIs frame "type" "session_close" || memberIs frame "type" "session_revoke" then s.closeNow
  else (s, [], none)

def receive (frame : Json) : Done :=
  if s.closed then (s, [], none)
  else if !memberIs frame "session_id" σ.sessionId then (s, [.receives frame], some "invalid_session_scope")
  else
    let (t, es, reason) := s.receiveFrame frame
    (t, .receives frame :: es, reason)

/-- What an action does before it calls `_reject`, if it is possible. -/
def act : SessionAction → Option Done
  | .start args => if s.started || s.closed then none else some (s.start σ args)
  | .receive frame => some (s.receive σ frame)
  | .reject call => some (s, [], some call.reason)
  | .close => some s.closeNow
  | .readyTimeout =>
    if s.timerArmed then some ({ s with timerArmed := false }, [], some "host_ready_timeout") else none
  | .consentSent ok =>
    match s.phase with
    | .consentSend args => some (if ok then ({ s with phase := .authorizing args }, [], none)
        else s.refuse "host_worker_failed")
    | _ => none
  | .authorizationEnds timedOut =>
    match s.phase with
    | .authorizing args => (s.decision timedOut).map (s.authorized σ args)
    | _ => none
  | .peerStarts result =>
    match s.phase with
    | .peerStart args => some (s.peerResult args result)
    | _ => none
  | .answerSent ok =>
    match s.phase with
    | .answerSend => some (if ok then (s.answered, [], none) else s.refuse "host_worker_failed")
    | _ => none
  | .candidateApplied ok =>
    match s.phase with
    | .applying candidates => some (if ok then (s.apply candidates.tail, [],
      none) else s.refuse "host_worker_failed")
    | _ => none
  | .renegotiated answer =>
    if s.renegotiations = 0 then none
    else
      let sent := answer.filter fun sdp => !s.closed && sdpOk sdp
      some ({ s with renegotiations := s.renegotiations - 1 },
        (sent.map fun sdp => .sends (.renegotiates sdp)).toList, none)
  | .peerFails => if s.peerStarted then some (s, [], some "host_media_failed") else none
  | .peerCandidate c =>
    if !s.peerStarted then none
    else if s.closed then some (s, [], none)
    else some ({ s with candidateSends := s.candidateSends + 1 }, [.sends (.candidate c)], none)
  | .candidateSent ok =>
    if s.candidateSends = 0 then none
    else some ({ s with candidateSends := s.candidateSends - 1 }, [], if ok then none else some "signaling_failed")
  | .rejectSent =>
    if s.rejecting = .sending then some (({ s with rejecting := .done } : LinkHostSession).shut, [], none) else none

/-- The rejection that follows. -/
def conclude (d : Done) : LinkHostSession × List SessionEvent :=
  match d with
  | (t, es, none) => (t, es)
  | (t, es, some reason) => ((t.reject reason).1, es ++ (t.reject reason).2)

def step (a : SessionAction) : Option (LinkHostSession × List SessionEvent) := (s.act σ a).map conclude

end LinkHostSession

def linkHostSession (σ : SessionSetup) : Machine LinkHostSession SessionAction SessionEvent :=
  ⟨fun s a => s.step σ a⟩

end LigamentApps.LinkHost
