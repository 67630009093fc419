import LigamentApps.Machine.Trace

/-!
# The RDP connector

`RdpConnectorService` of `rdp_service.dart` as a machine: `connect` and `connectBridge` as attempts that run
beside each other, each up to its next await, and the end of a session that `_finish` brings about. Attempts
are numbered in the order in which they are started, and the session of an attempt goes by its number.

What an attempt has opened is held until something closes it, whether or not its session refers to it. Left
out: the traces, the texts of the errors, the names and details that only the screens show, and `dispose`. A
grant with its confirmation by the user is one await, as nothing of the service is touched in between; so are
the three ways to start a client. -/

namespace LigamentApps.RdpConnector

inductive RdpTunnelPhase
  | idle
  | grant
  | listener
  | tunnel
  | launching
  | waitingClient
  | active
  | closed
  | failed
  deriving DecidableEq

/-- `_TunnelEndReason`. -/
inductive EndReason
  | user
  | mstscExited
  | socketClosed
  | wsClosed
  | remoteClosed
  | expired
  deriving DecidableEq

/-- What `lastError` tells. -/
inductive Failure
  /-- There is no client for the platform. -/
  | platform
  /-- The server has returned a malformed grant. -/
  | malformedGrant
  /-- The grant that was handed over is malformed. -/
  | malformedSession
  | malformedEndpoint
  /-- The port of the bridge has closed the connection. -/
  | rejected
  | clientMissing
  /-- Someone from outside has come to the listener. -/
  | outsideClient
  | expired
  /-- `rdpConnectErrorText` of what was thrown. -/
  | thrown (error : String)

/-- What an attempt opens. -/
inductive Resource
  | listener
  | ws
  /-- The socket to the target or to the bridge. -/
  | remote
  /-- The connection of the client. -/
  | socket
  | mstsc
  | tempRdpFile
  | grantTtl
  | heartbeatTimer
  deriving DecidableEq

/-- The part of a grant that the connector reads: `direct` if its route is and there is a host. -/
structure Grant where
  grantId : String
  token : String
  direct : Bool := false

inductive Client
  | missing
  /-- A client without a process of ours, as on a phone. -/
  | opened
  | process
  deriving DecidableEq

/-- What an await gives: an error, or what the attempt reads. -/
structure Reply where
  error : Option String := none
  /-- The grant, or none if the user has dismissed the confirmation. -/
  grant : Option Grant := none
  /-- `rdpBridgeEndpoint` finds an address. -/
  endpoint : Bool := false
  rejected : Bool := false
  /-- The claim has an identifier of a session. -/
  sessionId : Bool := false
  /-- The .rdp file that is made next can be written. -/
  file : Bool := false
  client : Client := .missing
  loopback : Bool := false

/-- What an attempt awaits. -/
inductive Stage
  | localIps
  | grant
  | bind (direct : Bool)
  | directTcp
  | directClaim
  /-- `_teardownListener` after a claim that has failed. -/
  | claimFailed (error : String)
  /-- `_quietTeardown` before the late grant is closed. -/
  | claimLate
  | websocket
  /-- `_teardownListener` after a WebSocket that has failed. -/
  | websocketFailed (error : String)
  | launch
  | accept
  | bridgeInfo
  | bridgeTcp
  | liveness
  | bridgeBind
  | bridgeLaunch
  | bridgeAccept
  deriving DecidableEq

/-- What `_finish` awaits. -/
inductive Finishing
  | ws (reason : EndReason)
  | listener (reason : EndReason)

structure Attempt where
  generation : ℕ := 0
  /-- The grant that it has got, or was given. -/
  grantId : String := ""
  stage : Option Stage := none
  finishing : Option Finishing := none
  /-- The fields of the session that are set. -/
  fields : Resource → Bool := fun _ => false
  /-- What is open. -/
  held : Resource → Bool := fun _ => false
  /-- `rdpClose` was called for the grant. -/
  grantClosed : Bool := false

namespace Attempt

/-- The session refers to something that the attempt has opened. -/
def keep (r : Resource) (a : Attempt) : Attempt :=
  { a with fields := Function.update a.fields r true, held := Function.update a.held r true }

/-- The attempt has opened something to which its session does not refer yet. -/
def hold (r : Resource) (a : Attempt) : Attempt := { a with held := Function.update a.held r true }

def drop (r : Resource) (a : Attempt) : Attempt := { a with held := Function.update a.held r false }

/-- Some of what the session refers to is closed. -/
def release (rs : List Resource) (a : Attempt) : Attempt :=
  { a with held := fun r => a.held r && !(rs.contains r && a.fields r) }

def await (stage : Stage) (a : Attempt) : Attempt := { a with stage := some stage }

variable {a : Attempt} {r q : Resource}

theorem held_keep (h : (a.keep r).held q = true) : a.held q = true ∨ q = r := by
  by_cases hq : q = r
  · exact .inr hq
  · have hupdate : Function.update a.held r true q = true := h
    rw [Function.update_of_ne hq] at hupdate
    exact .inl hupdate

theorem fields_keep (h : a.fields q = true ∨ q = r) : (a.keep r).fields q = true := by
  have hupdate : Function.update a.fields r true q = true := by
    by_cases hq : q = r
    · rw [hq, Function.update_self]
    · rw [Function.update_of_ne hq]
      exact h.resolve_right hq
  exact hupdate

theorem held_hold (h : (a.hold r).held q = true) : a.held q = true ∨ q = r := held_keep h

theorem held_drop (h : (a.drop r).held q = true) : a.held q = true ∧ q ≠ r := by
  have hupdate : Function.update a.held r false q = true := h
  have hq : q ≠ r := by
    rintro rfl
    rw [Function.update_self] at hupdate
    cases hupdate
  rw [Function.update_of_ne hq] at hupdate
  exact ⟨hupdate, hq⟩

theorem held_drop_self : (a.drop r).held r = false := by
  exact Function.update_self r false a.held

theorem held_release {rs : List Resource} (h : (a.release rs).held q = true) :
    a.held q = true ∧ (rs.contains q && a.fields q) = false := by
  have hand : (a.held q && !(rs.contains q && a.fields q)) = true := h
  rw [Bool.and_eq_true, Bool.not_eq_true'] at hand
  exact hand

end Attempt

structure RdpConnectorService where
  phase : RdpTunnelPhase := .idle
  lastError : Option Failure := none
  session : Option ℕ := none
  connectGeneration : ℕ := 0
  closeGrantHandler : Bool := true
  /-- How many attempts were started. -/
  started : ℕ := 0
  attempts : ℕ → Attempt := fun _ => {}

/-- What the connector runs on. -/
structure Platform where
  canRunMstsc : Bool
  isWindows : Bool

/-- How the bytes between the client and the target end. -/
inductive TransportEnd
  | socketClosed
  | wsClosed
  | remoteClosed

def TransportEnd.reason : TransportEnd → EndReason
  | .socketClosed => .socketClosed
  | .wsClosed => .wsClosed
  | .remoteClosed => .remoteClosed

inductive RdpAction
  | connect
  | connectBridge (grantId token : String)
  | close
  /-- The owner sets `closeGrantHandler`, or takes it away. -/
  | setHandler (isSet : Bool)
  /-- What an attempt awaits is there. -/
  | resumes (n : ℕ) (reply : Reply)
  /-- What `_finish` of the session of an attempt awaits is there. -/
  | finishes (n : ℕ)
  | ttlFires (n : ℕ)
  | clientExits (n : ℕ)
  | transportEnds (n : ℕ) (transport : TransportEnd)

namespace RdpConnectorService

variable (s : RdpConnectorService)

def isBusy : Bool :=
  s.phase = .grant || s.phase = .listener || s.phase = .tunnel || s.phase = .launching || s.phase = .waitingClient

def isActive : Bool := s.phase = .active

variable (n : ℕ)

/-- The check that an attempt makes after an await. -/
def superseded : Bool := s.connectGeneration ≠ (s.attempts n).generation || s.session ≠ some n

def modify (f : Attempt → Attempt) (s : RdpConnectorService) : RdpConnectorService :=
  { s with attempts := Function.update s.attempts n (f (s.attempts n)) }

def setPhase (p : RdpTunnelPhase) (s : RdpConnectorService) : RdpConnectorService :=
  { s with phase := p, lastError := if p ≠ .failed then none else s.lastError }

/-! ## The end of a session -/

def cleanupTempRdpFile (s : RdpConnectorService) : RdpConnectorService := s.modify n (.release [.tempRdpFile])

def fail (failure : Failure) (s : RdpConnectorService) : RdpConnectorService :=
  let cleaned := match s.session with
    | none => s
    | some n => s.cleanupTempRdpFile n
  { cleaned with
    connectGeneration := s.connectGeneration + 1
    session := none
    lastError := some failure
    phase := .failed }

/-- What `_finish` closes before its first await. -/
def finished (reason : EndReason) : List Resource :=
  [.grantTtl, .heartbeatTimer, .tempRdpFile] ++ (if reason = .mstscExited then [] else [.mstsc]) ++
    [.socket, .remote, .ws]

/-- `_finish` up to its first await. -/
def finish (reason : EndReason) (s : RdpConnectorService) : RdpConnectorService :=
  if s.session ≠ some n then s
  else
    modify n (fun a => { a.release (finished reason) with finishing := some (.ws reason) }) { s with session := none }

def closeGrantQuietly (s : RdpConnectorService) : RdpConnectorService :=
  if s.closeGrantHandler then s.modify n fun a => { a with grantClosed := true } else s

/-- `_finish` goes on. -/
def resumeFinish (finishing : Finishing) (s : RdpConnectorService) : RdpConnectorService :=
  match finishing with
  | .ws reason => s.modify n fun a => { a.release [.listener] with finishing := some (.listener reason) }
  | .listener reason =>
    let closed := closeGrantQuietly n (s.modify n fun a => { a with finishing := none })
    if reason = .expired then closed.fail .expired else closed.setPhase .closed

def teardownListener (s : RdpConnectorService) : RdpConnectorService := s.modify n (.release [.listener])

/-- `_quietTeardown`, with the WebSocket of the attempt if it has one. -/
def quietTeardown (s : RdpConnectorService) : RdpConnectorService :=
  s.modify n fun a => (a.release [.grantTtl, .heartbeatTimer, .tempRdpFile, .remote, .listener]).drop .ws

def quietTeardownBridge (s : RdpConnectorService) : RdpConnectorService :=
  s.modify n (.release [.grantTtl, .heartbeatTimer, .tempRdpFile, .socket, .remote, .listener])

/-! ## The attempts -/

variable (stage : Stage)

def begin (grantId : String) (s : RdpConnectorService) : RdpConnectorService :=
  setPhase .grant
    { s with
      connectGeneration := s.connectGeneration + 1
      started := s.started + 1
      attempts := Function.update s.attempts s.started
        { generation := s.connectGeneration + 1, grantId := grantId, stage := some stage } }

variable (platform : Platform)

/-- `connect` up to its first await. -/
def connect (s : RdpConnectorService) : RdpConnectorService :=
  if s.isBusy || s.isActive then s
  else if !platform.canRunMstsc then s.fail .platform
  else s.begin .localIps ""

/-- `connectBridge` up to its first await. -/
def connectBridge (grantId token : String) (s : RdpConnectorService) : RdpConnectorService :=
  if s.isBusy || s.isActive then s
  else if !platform.canRunMstsc then s.fail .platform
  else if grantId = "" || token = "" then s.fail .malformedSession
  else s.begin .bridgeInfo grantId

def openWebsocket (s : RdpConnectorService) : RdpConnectorService :=
  (s.setPhase .tunnel).modify n (.await .websocket)

/-- The attempt writes the .rdp file and launches the client. -/
def launchClient (file : Bool) (s : RdpConnectorService) : RdpConnectorService :=
  (s.setPhase .launching).modify n fun a => (if file then a.keep .tempRdpFile else a).await stage

/-- The client is launched, and is to connect. -/
def waitClient (client : Client) (s : RdpConnectorService) : RdpConnectorService :=
  (setPhase .waitingClient (s.modify n fun a => if client = .process then a.keep .mstsc else a)).modify n (.await stage)

/-- What follows the wait for the client, in both kinds of attempts. -/
def accepted (teardown : ℕ → RdpConnectorService → RdpConnectorService) (reply : Reply)
    (s : RdpConnectorService) : RdpConnectorService :=
  match reply.error with
  | some error => if s.superseded n then s else teardown n (s.fail (.thrown error))
  | none =>
    if s.superseded n then s
    else if !reply.loopback then teardown n (s.fail .outsideClient)
    -- The timer is cancelled, which an attempt over a bridge does not have.
    else setPhase .active (s.modify n fun a => (a.keep .socket).release [.grantTtl])

/-- `connect` or `connectBridge` goes on. -/
def resumeAttempt (reply : Reply) (s : RdpConnectorService) : RdpConnectorService :=
  match stage with
  | .localIps => s.modify n (.await .grant)
  | .grant =>
    match reply.error, reply.grant with
    | some error, _ => s.fail (.thrown error)
    | none, none => if s.connectGeneration ≠ (s.attempts n).generation then s else s.setPhase .idle
    | none, some grant =>
      let granted := s.modify n fun a => { a with grantId := grant.grantId }
      if s.connectGeneration ≠ (s.attempts n).generation then granted
      else if grant.grantId = "" || grant.token = "" then granted.fail .malformedGrant
      else (setPhase .listener { granted with session := some n }).modify n (.await (.bind grant.direct))
  | .bind direct =>
    match reply.error with
    | some error => s.fail (.thrown error)
    | none =>
      if s.superseded n then s
      else
        let bound := s.modify n fun a => (a.keep .listener).keep .grantTtl
        if direct then bound.modify n (.await .directTcp) else bound.openWebsocket n
  | .directTcp =>
    -- A direct connection that fails is none: the attempt takes the WebSocket.
    if s.superseded n then s.quietTeardown n
    else if reply.error = none then s.modify n fun a => (a.hold .remote).await .directClaim
    else s.openWebsocket n
  | .directClaim =>
    match reply.error with
    | some error => (teardownListener n (s.modify n (.drop .remote))).modify n (.await (.claimFailed error))
    | none =>
      let claimed := s.modify n fun a => if reply.sessionId then a.keep .heartbeatTimer else a
      if s.superseded n then (quietTeardown n (claimed.modify n (.drop .remote))).modify n (.await .claimLate)
      else launchClient n .launch reply.file (claimed.modify n (.keep .remote))
  | .claimFailed error => if s.superseded n then s else s.fail (.thrown error)
  | .claimLate => s.modify n fun a => { a with grantClosed := true }
  | .websocket =>
    match reply.error with
    | some error => (s.teardownListener n).modify n (.await (.websocketFailed error))
    | none =>
      if s.superseded n then s.quietTeardown n
      else launchClient n .launch reply.file (s.modify n (.keep .ws))
  | .websocketFailed error => s.fail (.thrown error)
  | .launch =>
    match reply.error with
    | some error => quietTeardown n (if s.superseded n then s else s.fail (.thrown error))
    | none =>
      if s.superseded n then s.quietTeardown n
      else if reply.client = .missing then quietTeardown n (s.fail .clientMissing)
      else s.waitClient n .accept reply.client
  | .accept => s.accepted n quietTeardown reply
  | .bridgeInfo =>
    match reply.error with
    | some error => s.fail (.thrown error)
    | none =>
      if s.connectGeneration ≠ (s.attempts n).generation then s
      else if !reply.endpoint then s.fail .malformedEndpoint
      else (setPhase .tunnel { s with session := some n }).modify n (.await .bridgeTcp)
  | .bridgeTcp =>
    match reply.error with
    | some error => s.fail (.thrown error)
    | none => if s.superseded n then s else s.modify n fun a => (a.keep .remote).await .liveness
  | .liveness =>
    if s.superseded n then s.quietTeardownBridge n
    else if reply.rejected then quietTeardownBridge n (s.fail .rejected)
    else (s.setPhase .listener).modify n (.await .bridgeBind)
  | .bridgeBind =>
    match reply.error with
    | some error => quietTeardownBridge n (s.fail (.thrown error))
    | none => if s.superseded n then s else launchClient n .bridgeLaunch reply.file (s.modify n (.keep .listener))
  | .bridgeLaunch =>
    match reply.error with
    | some error => quietTeardownBridge n (s.fail (.thrown error))
    | none =>
      if s.superseded n then s.quietTeardownBridge n
      else if reply.client = .missing then quietTeardownBridge n (s.fail .clientMissing)
      else s.waitClient n .bridgeAccept reply.client
  | .bridgeAccept => s.accepted n quietTeardownBridge reply

/-! ## What else happens -/

/-- `close` up to its first await. -/
def close (s : RdpConnectorService) : RdpConnectorService :=
  let next : RdpConnectorService := { s with connectGeneration := s.connectGeneration + 1 }
  match s.session with
  | none => next.setPhase .idle
  | some n => next.finish n .user

/-- The timer of the grant fires. -/
def ttlFires (s : RdpConnectorService) : RdpConnectorService :=
  let fired := s.modify n (.drop .grantTtl)
  if s.session = some n && !s.isActive then fired.finish n .expired else fired

/-- The process of the client exits: on Windows its end is watched once the session has it. -/
def clientExits (n : ℕ) (s : RdpConnectorService) : RdpConnectorService :=
  let exited := s.modify n (.drop .mstsc)
  if platform.isWindows && (s.attempts n).fields .mstsc && s.session =
    some n && !(s.attempts n).fields .socket then exited.finish n .mstscExited
  else exited

def step (s : RdpConnectorService) : RdpAction → Option RdpConnectorService
  | .connect => some (s.connect platform)
  | .connectBridge grantId token => some (s.connectBridge platform grantId token)
  | .close => some s.close
  | .setHandler isSet => some { s with closeGrantHandler := isSet }
  | .resumes n reply =>
    (s.attempts n).stage.map fun stage => resumeAttempt n stage reply (s.modify n fun a => { a with stage := none })
  | .finishes n => (s.attempts n).finishing.map fun finishing => s.resumeFinish n finishing
  | .ttlFires n => if (s.attempts n).held .grantTtl then some (s.ttlFires n) else none
  | .clientExits n => if (s.attempts n).held .mstsc then some (s.clientExits platform n) else none
  | .transportEnds n transport =>
    if (s.attempts n).fields .socket then some (s.finish n transport.reason) else none

end RdpConnectorService

/-- The machine of the connector. It emits no events. -/
def rdpMachine (platform : Platform) : Machine RdpConnectorService RdpAction Empty where
  step s a := (s.step platform a).map fun t => (t, [])

end LigamentApps.RdpConnector
