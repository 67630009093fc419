import LigamentApps.LinkHost.LinkHostSession

/-!
# The Flutter worker

`LinkHostWorkerState`, which the local user's window shows and answers, and `_runConnectedLinkHostWorker` from
its session on: it waits for the consent of the local user, and starts the session or rejects it. -/

namespace LigamentApps.LinkHost

inductive LinkHostWorkerPhase
  | starting
  | awaitingConsent
  | connecting
  | active
  | closing
  | closed
  deriving DecidableEq

/-- `LinkHostWorkerState`, as far as the consent goes. -/
structure LinkHostWorkerState where
  phase : LinkHostWorkerPhase := .starting
  /-- `_disconnect` is completed. -/
  disconnected : Bool := false
  /-- `_consent`, with what it was completed with. -/
  consent : Option (Option Bool) := none
  consentUiAvailable : Bool := true
  confirmationCode : String := ""
  confirmationDigits : ℤ := 2

/-- `^(?:[0-9]{2}|[0-9]{3}|[0-9]{4}|[0-9]{6})$`. -/
def approveCodeOk (code : String) : Bool :=
  code.toList.all Char.isDigit && [2, 3, 4, 6].contains code.length

namespace LinkHostWorkerState

variable (ui : LinkHostWorkerState)

/-- A consent that is waited for is completed. -/
def completeConsent (granted : Bool) : LinkHostWorkerState :=
  if ui.consent = some none then { ui with consent := some (some granted) } else ui

def markConsentUiUnavailable : LinkHostWorkerState :=
  let ui := ({ ui with consentUiAvailable := false } : LinkHostWorkerState).completeConsent false
  if ui.phase = .awaitingConsent then { ui with phase := .closing } else ui

def showSession (attended : Bool) (digits : ℤ) : LinkHostWorkerState :=
  { ui with
    consent := none, confirmationCode := "", confirmationDigits := digits
    phase := if attended then .awaitingConsent else .connecting }

/-- `awaitConsent`: what is waited for, or the answer that there is none. -/
def awaitConsent : LinkHostWorkerState × Option Bool :=
  if ui.disconnected || ui.phase = .closing || ui.phase = .closed || !ui.consentUiAvailable then (ui, some false)
  else if ui.consent.isSome then (ui, none)
  else ({ ui with consent := some none, phase := .awaitingConsent }, none)

/-- The local user is asked, and has not answered. -/
def asking : Bool := ui.phase = .awaitingConsent && ui.consent = some none

/-- The code is one that `approveConsent` takes. -/
def takesCode (code : String) : Bool := ui.asking && approveCodeOk code && code.length = ui.confirmationDigits

def approveConsent (code : String) : LinkHostWorkerState :=
  if ui.takesCode code then { ui with confirmationCode := code, consent := some (some true), phase := .connecting }
  else ui

def denyConsent : LinkHostWorkerState :=
  if ui.asking then { ui with consent := some (some false), phase := .closing } else ui

def markActive : LinkHostWorkerState :=
  if ui.phase = .connecting || ui.phase = .awaitingConsent then { ui with phase := .active } else ui

/-- `requestDisconnect`, before it calls its handler. -/
def requestDisconnect : LinkHostWorkerState :=
  if ui.disconnected then ui else { ui.completeConsent false with phase := .closing, disconnected := true }

end LinkHostWorkerState

/-- Where `_runConnectedLinkHostWorker` is. -/
inductive MainPhase
  /-- Before its session. -/
  | begins
  /-- It waits for the consent, unless there is an answer at once. -/
  | consent (answer : Option Bool)
  /-- It has started the session, or has not. -/
  | decided

structure HostWorker where
  ui : LinkHostWorkerState := {}
  session : LinkHostSession := {}
  main : MainPhase := .begins

inductive WorkerEvent
  /-- The local user's code is taken. -/
  | approves (code : String)
  | session (e : SessionEvent)

inductive WorkerAction
  | begins
  /-- The worker goes on with the consent, or because the time for it is over. -/
  | consentEnds (timedOut : Bool) (nonce : String)
  | approve (code : String)
  | deny
  | uiUnavailable
  | requestDisconnect
  | markActive
  /-- A step of the session, which only the worker itself starts. -/
  | session (a : SessionAction)

def HostOffer.setup (o : HostOffer) : SessionSetup := ⟨o.sessionId, o.accessMode⟩

namespace HostWorker

variable (o : HostOffer) (w : HostWorker)

/-- The arguments with which the worker starts its session. -/
def startArgs (granted : Bool) (nonce : String) : StartArgs :=
  ⟨o.sdp, o.iceServers, granted, o.attended, w.ui.confirmationCode, nonce⟩

/-- `session.reject`. -/
def reject (call : RejectCall) : HostWorker × List WorkerEvent :=
  let (s, es) := w.session.reject call.reason
  ({ w with session := s }, es.map .session)

/-- The worker starts its session, or rejects it. -/
def proceed (granted : Bool) (nonce : String) : HostWorker × List WorkerEvent :=
  let w : HostWorker := { w with main := .decided }
  if w.session.closed || w.ui.phase = .closing || o.attended && !granted then
    if w.session.closed then (w, [])
    else w.reject (if o.attended && !w.ui.consentUiAvailable then .uiUnavailable else .consentDenied)
  else
    let (s, es) := (w.session.step o.setup (.start (w.startArgs o granted nonce))).getD (w.session, [])
    ({ w with session := s, ui := { w.ui with confirmationCode := "" } }, es.map .session)

/-- The worker shows its session, and gives the window its handler, which is called at once where the user has
disconnected before. -/
def shown : HostWorker × List WorkerEvent :=
  let w : HostWorker := { w with ui := w.ui.showSession o.attended o.confirmationDigits }
  if w.ui.disconnected then w.reject .localDisconnect else (w, [])

/-- The worker waits for the consent, or goes on without it. -/
def begin : HostWorker × List WorkerEvent :=
  let (w, es) := w.shown o
  if o.attended then
    let (ui, answer) := w.ui.awaitConsent
    ({ w with ui, main := .consent answer }, es)
  else
    let (w, fs) := w.proceed o false ""
    (w, es ++ fs)

/-- The answer that the worker goes on with, if there is one, and what the end of the time does. -/
def consentAnswer (answer : Option Bool) (timedOut : Bool) : Option (Bool × LinkHostWorkerState) :=
  match answer, w.ui.consent with
  | some granted, _ => some (granted, w.ui)
  | none, some (some granted) => some (granted, w.ui)
  | none, _ =>
    if w.session.closed then some (false, w.ui) else if timedOut then some (false, w.ui.denyConsent) else none

def step : WorkerAction → Option (HostWorker × List WorkerEvent)
  | .begins =>
    match w.main with
    | .begins => some (w.begin o)
    | _ => none
  | .consentEnds timedOut nonce =>
    match w.main with
    | .consent answer =>
      (w.consentAnswer answer timedOut).map fun (granted,
        ui) => ({ w with ui } : HostWorker).proceed o granted nonce
    | _ => none
  | .approve code =>
    some ({ w with ui := w.ui.approveConsent code }, if w.ui.takesCode code then [.approves code] else [])
  | .deny => some ({ w with ui := w.ui.denyConsent }, [])
  | .uiUnavailable => some ({ w with ui := w.ui.markConsentUiUnavailable }, [])
  | .requestDisconnect =>
    let disconnecting : HostWorker := { w with ui := w.ui.requestDisconnect }
    match w.main with
    | .begins => some (disconnecting, [])
    | _ => some (if w.ui.disconnected then (w, []) else disconnecting.reject .localDisconnect)
  | .markActive => if w.session.peerStarted then some ({ w with ui := w.ui.markActive }, []) else none
  | .session a =>
    match w.main, a with
    | .begins, _ | _, .start _ => none
    | _, a => (w.session.step o.setup a).map fun (s, es) => ({ w with session := s }, es.map .session)

end HostWorker

def hostWorker (o : HostOffer) : Machine HostWorker WorkerAction WorkerEvent := ⟨fun w a => w.step o a⟩

end LigamentApps.LinkHost
