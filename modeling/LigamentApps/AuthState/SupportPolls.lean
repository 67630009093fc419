import LigamentApps.SupportService.Capture

/-!
# Polls and messages about support sessions

What `AuthState` of `auth_state.dart` does with the support session of one login, on a desktop: the poll
`checkSupportSession` with `_checkSOSRequest`, the messages `support_prompt` and `support_ended`, the start of
an owner screen, and what the user asks for and decides. The service is that of `Capture`, and takes a command
at once. A method that awaits something ends its step; what it does next is kept in `waiting`.

Left out: the texts, the alerts, the checks of the user's presence, and what ends the login. -/

namespace LigamentApps.AuthState

open SupportService (Capture CaptureAction SupportSessionState)

/-- The session that `getCurrentSupportSession` answers with. -/
structure SupportSession where
  id : Option String := none
  status : Option String := none
  owner : Bool := false
  mode : Option String := none
  numberMatch : Option String := none

namespace SupportSession

def sessionId (session : SupportSession) : String := session.id.getD ""

/-- The session waits for the user's consent, or has it. -/
def isJoining (session : SupportSession) : Bool :=
  session.status = some "connecting" || session.status = some "authorizing"

def isRequested (session : SupportSession) : Bool := session.status = some "requested"

/-- The session is over. -/
def isTerminal (session : SupportSession) : Bool :=
  session.status = some "ended" || session.status = some "rejected" || session.status = some "completed" ||
    session.status = some "cancelled"

end SupportSession

/-- A request for help, as `getSOSRequest` and `requestSupport` answer with it. -/
structure SosRequest where
  id : Option String := none
  sosV2 : Bool := false
  status : Option String := none
  activeSessionId : Option String := none

namespace SosRequest

variable (request : SosRequest)

def requestId : String := request.id.getD ""

def sessionId : String := request.activeSessionId.getD ""

def isRequested : Bool := request.status = some "requested"

def isActive : Bool := request.status = some "active"

/-- A session of the request connects or is active. -/
def isHosted : Bool := request.status = some "connecting" || request.isActive

end SosRequest

/-- What a call answers with: a refusal carries the status code that the server gave. -/
structure SupportReply where
  failed : Bool := false
  statusCode : Option ℕ := none
  session : Option SupportSession := none
  request : SosRequest := {}

/-- The server does not know the request, or not for this user. -/
def SupportReply.isGone (reply : SupportReply) : Bool := reply.statusCode = some 404 || reply.statusCode = some 403

/-- A `support_prompt`, with whether an owner's prompt names this device. -/
structure SupportPush where
  sessionId : String
  owner : Bool := false
  targetsThisDevice : Bool := false

/-- What a step is told, for the statements: of which session, and in an answer with how many sessions had
been announced when it was asked for. -/
inductive SupportInfo
  /-- A `support_ended`, with the session that it carries. -/
  | ended (sessionId : Option String)
  /-- There was no session. -/
  | noSession (requested : ℕ)
  | status (sessionId : String) (terminal : Bool) (requested : ℕ)
  /-- The state of a request, with the session that it had. -/
  | request (requestId sessionId : String) (terminal : Bool) (requested : ℕ)
  /-- An owner screen is to start. -/
  | ownerScreen (sessionId : String)
  /-- An owner screen could not start. -/
  | ownerFailed (sessionId : String)

/-- What follows on a `stopScreenSharing`. -/
inductive AfterStop
  /-- `activeSupportPrompt` is reset, by an answer or by `endSupport`. -/
  | closePrompt (info : Option SupportInfo)
  /-- `startOwnerScreenFromWake` goes on. -/
  | ownerScreen (sessionId : String)

inductive SupportWaiting
  /-- `checkSupportSession` waits for the current session. -/
  | current (requested : ℕ)
  /-- `_checkSOSRequest` waits for the request. -/
  | sosRequest (requestId : String) (requested : ℕ)
  /-- A `stopScreenSharing`, which has returned at once where another one ran. -/
  | stopped (own : Bool) (next : AfterStop)
  /-- `startOwnerScreenFromWake` waits for `activateOwnerScreen`, or for the start of the sharing. -/
  | ownerActivation (sessionId : String)
  | ownerStart (sessionId : String) (start : ℕ)
  | requestSupport
  | confirmSupport (sessionId : String)
  | rejectSupport
  | endSupport

/-- The fields, with what waits. -/
structure SupportPolls where
  support : Capture := {}
  /-- `activeSupportPrompt`, by its session. -/
  activeSupportPrompt : Option String := none
  sosRequestId : Option String := none
  isEndingSupport : Bool := false
  waiting : List SupportWaiting := []
  /-- A record: the sessions that were announced for a request. -/
  hosted : List (String × String) := []

/-- What happens. -/
inductive SupportAction
  /-- The service by itself. -/
  | support (action : CaptureAction)
  | supportPrompt (push : SupportPush)
  | autoshare (sessionId : String)
  | supportEnded (sessionId : Option String)
  /-- `checkSupportSession` begins. -/
  | poll
  | requestSupport
  | confirmSupport (sessionId : String)
  | rejectSupport
  | endSupport
  /-- What a method waits for is there. -/
  | resume (index : ℕ) (reply : SupportReply)

/-- What `AuthState` tells the service. -/
inductive SupportEvent
  | stopScreenSharing

/-- The state after a part of a step, with its events. -/
abbrev SupportOutcome := SupportPolls × List SupportEvent

namespace SupportPolls

variable (s : SupportPolls)

/-- The service takes a command. -/
def command (a : CaptureAction) : SupportPolls :=
  { s with support := ((s.support.step a).map (·.1)).getD s.support }

/-- A method waits. -/
def await (w : SupportWaiting) : SupportPolls := { s with waiting := s.waiting ++ [w] }

/-- `support.stopScreenSharing`, with nothing that follows. -/
def stop : SupportOutcome := (s.command .stopScreenSharing, [.stopScreenSharing])

/-- `await support.stopScreenSharing`. -/
def stopAnd (next : AfterStop) : SupportOutcome :=
  ((s.command .stopScreenSharing).await (.stopped s.support.stopping.isNone next), [.stopScreenSharing])

variable (sessionId : String)

/-- The gates of `startOwnerScreenFromWake`: the session has a name, does not start or run already, and has no
open question. -/
def admitsOwnerScreen : Bool :=
  sessionId ≠ "" &&
    !(s.support.activeSessionId = some sessionId &&
      (s.support.phase = .authorizing || s.support.phase = .connecting || s.support.phase = .active)) &&
    s.activeSupportPrompt ≠ some sessionId

/-- `startOwnerScreenFromWake` after the stop of the session before. -/
def activateOwnerScreen : SupportPolls :=
  (s.command (.setAuthorizing sessionId true)).await (.ownerActivation sessionId)

/-- `startOwnerScreenFromWake`, up to its first wait. -/
def startOwnerScreen : SupportOutcome :=
  if !s.admitsOwnerScreen sessionId then (s, [])
  else if s.support.phase = .connecting ∨ s.support.phase = .active then s.stopAnd (.ownerScreen sessionId)
  else (s.activateOwnerScreen sessionId, [])

/-- The owner's session is activated, or not. -/
def ownerActivated (failed : Bool) : SupportOutcome :=
  if failed then s.stop
  else ((s.command (.startScreenSharing sessionId)).await (.ownerStart sessionId s.support.nextStart), [])

variable (session : SupportSession)

/-- `isOwnerSess`. -/
def isOwnerSession : Bool :=
  session.owner || session.mode = some "screen" ||
    (s.support.ownerSession && s.support.activeSessionId = some session.sessionId)

/-- A session of the server is put to the user. -/
def putsQuestion : Bool :=
  !s.isOwnerSession session && session.numberMatch.any (· ≠ "") && s.activeSupportPrompt = none &&
    s.support.phase ≠ .active && s.support.phase ≠ .connecting && s.support.phase ≠ .ended

/-- A session of the server is shown as requested. -/
def showsRequest : Bool :=
  !s.isOwnerSession session && s.support.phase ≠ .requested && s.support.phase ≠ .connecting

/-- `checkSupportSession` with a session. -/
def onSession (requested : ℕ) (session : SupportSession) : SupportOutcome :=
  if session.isJoining then
    if s.putsQuestion session then
      ({ s.command (.setAuthorizing session.sessionId false) with activeSupportPrompt := some session.sessionId }, [])
    else (s, [])
  else if session.isRequested then
    if s.showsRequest session then (s.command (.setRequested session.sessionId), []) else (s, [])
  else if session.isTerminal then
    if s.support.phase ≠ .idle then s.stopAnd (.closePrompt (some (.status session.sessionId true requested)))
    else ({ s with activeSupportPrompt := none }, [])
  else (s, [])

/-- `checkSupportSession` without a session. -/
def onNoSession (requested : ℕ) : SupportOutcome :=
  if s.support.phase = .requested ∨ s.support.phase = .connecting then
    s.stopAnd (.closePrompt (some (.noSession requested)))
  else if s.support.phase = .authorizing ∧ s.activeSupportPrompt = none then s.stop
  else (s, [])

/-- `checkSupportSession` is answered. -/
def onCurrent (requested : ℕ) (reply : SupportReply) : SupportOutcome :=
  if reply.failed then (s, [])
  else
    match reply.session with
    | some session => s.onSession requested session
    | none => s.onNoSession requested

/-- `_checkSOSRequest` with the request that it has asked for. -/
def onRequest (requestId : String) (request : SosRequest) : SupportOutcome :=
  if request.isRequested then
    if s.support.phase ≠ .requested then (s.command (.setRequested requestId), []) else (s, [])
  else if request.isHosted then
    if request.sessionId ≠ "" then
      ({ s.command (.setLinkHostedSession request.sessionId request.isActive) with
        hosted := (requestId, request.sessionId) :: s.hosted }, [])
    else (s, [])
  else { s with sosRequestId := none }.stop

/-- `_checkSOSRequest` is answered. -/
def onSosRequest (requestId : String) (reply : SupportReply) : SupportOutcome :=
  if s.sosRequestId ≠ some requestId then (s, [])
  else if reply.failed then if reply.isGone then { s with sosRequestId := none }.stop else (s, [])
  else s.onRequest requestId reply.request

/-- `requestSupport` is answered. -/
def supportRequested (reply : SupportReply) : SupportPolls :=
  if reply.failed then s
  else
    { s.command (.setRequested reply.request.requestId) with
      sosRequestId :=
        if reply.request.sosV2 && reply.request.requestId ≠ "" then some reply.request.requestId else none }

/-- `endSupport`, up to its first wait. -/
def endSupport : SupportOutcome :=
  if s.isEndingSupport then (s, [])
  else if s.sosRequestId.isSome ∨ s.support.activeSessionId.isSome then
    ({ s with isEndingSupport := true, sosRequestId := none }.await .endSupport, [])
  else { s with isEndingSupport := true }.stopAnd (.closePrompt none)

/-- A `stopScreenSharing` is over. -/
def stopOver : AfterStop → SupportPolls
  | .closePrompt (some _) => { s with activeSupportPrompt := none }
  | .closePrompt none => { s with activeSupportPrompt := none, isEndingSupport := false }
  | .ownerScreen sessionId => s.activateOwnerScreen sessionId

/-- A method goes on. -/
def resume (reply : SupportReply) : SupportWaiting → SupportOutcome
  | .current requested => s.onCurrent requested reply
  | .sosRequest requestId _ => s.onSosRequest requestId reply
  | .stopped _ next => (s.stopOver next, [])
  | .ownerActivation sessionId => s.ownerActivated sessionId reply.failed
  | .ownerStart _ _ => if reply.failed then s.stop else (s, [])
  | .requestSupport => (s.supportRequested reply, [])
  | .confirmSupport sessionId =>
    if reply.failed then (s, []) else (s.command (.startScreenSharing sessionId), [])
  | .rejectSupport => s.stop
  | .endSupport => s.stopAnd (.closePrompt none)

/-- What a method waits for may be there: a stop of its own is over, a start has left the queue and does not
run. -/
def mayResume : SupportWaiting → Bool
  | .stopped own _ => !own || s.support.stopping.isNone
  | .ownerStart _ start => s.support.queue.all (·.id ≠ start) && s.support.running.all (·.id ≠ start)
  | _ => true

def onSupportPrompt (push : SupportPush) : SupportOutcome :=
  if push.owner then if push.targetsThisDevice then s.startOwnerScreen push.sessionId else (s, [])
  else ({ s.command (.setAuthorizing push.sessionId false) with activeSupportPrompt := some push.sessionId }, [])

def onSupportEnded : SupportOutcome :=
  ({ s.command .stopScreenSharing with activeSupportPrompt := none }, [.stopScreenSharing])

/-- `checkSupportSession`, up to its wait. -/
def checkSupportSession : SupportPolls :=
  match s.sosRequestId with
  | some requestId => s.await (.sosRequest requestId s.support.sessions)
  | none => s.await (.current s.support.sessions)

def step : SupportAction → Option SupportOutcome
  | .support action => (s.support.step action).map fun r => ({ s with support := r.1 }, [])
  | .supportPrompt push => some (s.onSupportPrompt push)
  | .autoshare sessionId => some (s.startOwnerScreen sessionId)
  | .supportEnded _ => some s.onSupportEnded
  | .poll => some (s.checkSupportSession, [])
  | .requestSupport => some (s.await .requestSupport, [])
  | .confirmSupport sessionId => some ({ s with activeSupportPrompt := none }.await (.confirmSupport sessionId), [])
  | .rejectSupport => some ({ s with activeSupportPrompt := none }.await .rejectSupport, [])
  | .endSupport => some s.endSupport
  | .resume index reply => do
    let w ← s.waiting[index]?
    guard (s.mayResume w)
    return { s with waiting := s.waiting.eraseIdx index }.resume reply w

end SupportPolls

def supportPolls : Machine SupportPolls SupportAction SupportEvent := ⟨SupportPolls.step⟩

end LigamentApps.AuthState
