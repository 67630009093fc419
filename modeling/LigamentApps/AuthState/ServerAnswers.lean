import LigamentApps.AuthState.Prompts
import LigamentApps.AuthState.SupportPolls

/-!
# Answers of the server

The methods of `AuthState` of `auth_state.dart` that await a call of the `ApiClient`, on a desktop: the
loaders and `refreshAll`, the polling cycle, the notifications and their settings, the posture, the
registration of the machine, the step-up, the decisions, the support, the Windows ticket, what `init`
restores, and what a login and a logout do around them. A method that awaits something ends its step. What it
goes on with is kept in `waiting`, together with what its callers still have to call.

Left out: the alerts, the texts, what `cancelStepUpPush` resets at once, the storage, the local detection, the
relay in use, what a login does before its commit, and `endSupport` without a client. A timer may tick
whenever the code lets it do something. The fields marked as a record are not in the code. -/

namespace LigamentApps.AuthState

/-! ## What the server sends -/

structure Profile where
  username : String := ""
  supportRoles : List String := []
  perimeter : Option String := none
  clientIp : Option String := none
  notificationSettings : Option String := none

structure Notification where
  id : Option String
  isRead : Bool := false
  readAt : Option ℕ := none

/-- A host of the Link inventory: whether it is online may be unknown. -/
structure InventoryHost where
  id : String
  isOnline : Option Bool

/-- The posture that the telemetry collects, with what `checkPosture` adds. -/
structure Posture where
  isCompliant : Bool := false
  identityMismatch : Option Bool := none
  details : String := ""
  deriving DecidableEq

/-- What a method goes on with: whether what it has waited for failed, and else the parts of the answer. The
status code is that of an `ApiException`. -/
structure ServerReply where
  failed : Bool := false
  statusCode : Option ℕ := none
  error : String := ""
  profile : Profile := {}
  /-- The applications, the history, the queue, the targets or the relays. -/
  entries : List String := []
  iceServers : List String := []
  notifications : List Notification := []
  hosts : List InventoryHost := []
  notificationSettings : Option String := none
  ok : Bool := false
  /-- The machine, or the challenge of a step-up. -/
  id : Option String := none
  status : Option String := none
  /-- The version that `getAppVersion` gives, and whether it is newer. -/
  update : Option (String × Bool) := none
  posture : Posture := {}
  /-- `windowsIdentityMatch`. -/
  identityMatch : Option Bool := none
  ticket : Option String := none
  expiresAt : Option ℕ := none
  prompts : PromptReply := {}
  support : SupportReply := {}

/-! ## The fields -/

def Notification.isUnread (n : Notification) : Bool := !n.isRead && n.readAt.isNone

/-- `notifications` with `unreadNotificationsCount`. -/
structure Inbox where
  notifications : List Notification := []
  unreadCount : ℕ := 0
  counted : unreadCount = notifications.countP (·.isUnread) := by rfl

namespace Inbox

def ofList (notifications : List Notification) : Inbox := ⟨notifications, notifications.countP (·.isUnread), rfl⟩

def read (now : ℕ) (n : Notification) : Notification := { n with isRead := true, readAt := some now }

/-- The first notification with an identifier is marked. -/
def markFirst (id : String) (now : ℕ) : List Notification → List Notification
  | [] => []
  | n :: rest => if n.id = some id then read now n :: rest else n :: markFirst id now rest

/-- `markNotificationRead`. -/
def markRead (inbox : Inbox) (id : String) (now : ℕ) : Inbox := ofList (markFirst id now inbox.notifications)

/-- `markAllNotificationsRead`. -/
def markAllRead (inbox : Inbox) (now : ℕ) : Inbox where
  notifications := inbox.notifications.map (read now)
  unreadCount := 0
  counted := by
    rw [eq_comm, List.countP_eq_zero]
    intro n hn
    obtain ⟨m, -, rfl⟩ := List.mem_map.mp hn
    simp [Notification.isUnread, read]

end Inbox

/-- `SsoTicketFlow`. A new one has a new number. -/
structure SsoTicketFlow where
  number : ℕ
  serverNotEnabled : Bool := false
  lastAttemptAt : Option ℕ := none
  verifiedUntil : Option ℕ := none

/-- The fields that the methods read and write, but for the session's own. -/
structure AuthFields where
  currentUser : Option Profile := none
  perimeter : String := "internal"
  clientIp : Option String := none
  currentPosture : Option Posture := none
  isCompliant : Bool := true
  allowedApps : List String := []
  history : List String := []
  supportQueue : List String := []
  inbox : Inbox := {}
  rdpTargets : List String := []
  rdpFeatureAvailable : Bool := true
  linkHosts : List InventoryHost := []
  linkFeatureAvailable : Bool := true
  linkHostsLoading : Bool := false
  linkHostsError : Option String := none
  linkHostsUpdatedAt : Option ℕ := none
  relays : List String := []
  iceServers : List String := []
  appUpdate : Option String := none
  registeredMachineId : Option String := none
  instanceRegistered : Bool := false
  /-- `_machineRetryTimer` is set. -/
  machineRetry : Bool := false
  isPollingInFlight : Bool := false
  ssoTicketFlow : Option SsoTicketFlow := none
  flows : ℕ := 0
  support : SupportService.Capture := {}
  /-- `activeSupportPrompt`, by its session. -/
  activeSupportPrompt : Option String := none
  sosRequestId : Option String := none
  isEndingSupport : Bool := false
  /-- The fields of the prompts, with the clock. What waits of them is kept with the rest. -/
  prompts : Prompts := {}

namespace AuthFields

variable (f : AuthFields)

/-- `DateTime.now`. -/
def now : ℕ := f.prompts.now

/-- What concerns the support, with nothing that waits. -/
def polls : SupportPolls where
  support := f.support
  activeSupportPrompt := f.activeSupportPrompt
  sosRequestId := f.sosRequestId
  isEndingSupport := f.isEndingSupport

def withPolls (polls : SupportPolls) : AuthFields :=
  { f with
    support := polls.support, activeSupportPrompt := polls.activeSupportPrompt, sosRequestId := polls.sosRequestId,
    isEndingSupport := polls.isEndingSupport }

def isEngineer : Bool := f.currentUser.any (·.supportRoles ≠ [])

/-- `_registeredMachineId` is given. -/
def hasMachine : Bool := isGiven f.registeredMachineId

def updatePerimeter (perimeter clientIp : Option String) : AuthFields :=
  { f with
    perimeter := if isGiven perimeter then perimeter.getD "" else f.perimeter
    clientIp := if isGiven clientIp then clientIp else f.clientIp }

def setProfile (profile : Profile) : AuthFields :=
  { f with currentUser := some profile }.updatePerimeter profile.perimeter profile.clientIp

def markLinkPresenceUnknown : AuthFields :=
  { f with linkHosts := f.linkHosts.map fun host => { host with isOnline := none } }

/-- `loadLinkHosts`, up to its call. -/
def linkHostsAsked : AuthFields :=
  let marked := if f.linkHostsUpdatedAt.all (45000 < f.now - ·) then f.markLinkPresenceUnknown else f
  { marked with linkHostsLoading := true, linkHostsError := none }

/-- `loadLinkHosts` with its answer. -/
def linkHostsAnswered (reply : ServerReply) : AuthFields :=
  if !reply.failed then
    { f with linkHosts := reply.hosts, linkHostsUpdatedAt := some f.now, linkFeatureAvailable := true }
  else if reply.statusCode = some 402 ∨ reply.statusCode = some 403 ∨ reply.statusCode = some 404 then
    { f with linkFeatureAvailable := false, linkHosts := [] }
  else { f with linkHostsError := some reply.error }.markLinkPresenceUnknown

def setIceServers (iceServers : List String) : AuthFields :=
  { f with iceServers := if iceServers = [] then f.iceServers else iceServers }

/-- `checkPosture` with what the telemetry has collected. -/
def setPosture (reply : ServerReply) : AuthFields :=
  { f with
    currentPosture := some { reply.posture with
      identityMismatch := (reply.identityMatch.map (!·)).or reply.posture.identityMismatch }
    isCompliant := reply.posture.isCompliant }

/-- `updateNotificationSettings` with its answer. -/
def setNotificationSettings (settings : Option String) : AuthFields :=
  match f.currentUser, settings with
  | some user, some settings => { f with currentUser := some { user with notificationSettings := some settings } }
  | _, _ => f

/-- `checkAppUpdate` with its answer. -/
def setAppUpdate : Option (String × Bool) → AuthFields
  | none => f
  | some (latest, newer) => { f with appUpdate := if newer then some latest else none }

/-- The flow of the Windows tickets, a new one where there is none. -/
def withFlow : AuthFields :=
  match f.ssoTicketFlow with
  | some _ => f
  | none => { f with ssoTicketFlow := some { number := f.flows }, flows := f.flows + 1 }

/-- The answer to a ticket, for the flow that has sent it. -/
def ticketAnswered (number : ℕ) (reply : ServerReply) : AuthFields :=
  { f with
    ssoTicketFlow := f.ssoTicketFlow.map fun flow =>
      if flow.number ≠ number then flow
      else if reply.statusCode = some 200 then { flow with verifiedUntil := reply.expiresAt }
      else if reply.statusCode = some 404 then { flow with serverNotEnabled := true }
      else flow }

/-- What a logout resets of the prompts. -/
def clearedPrompts (p : Prompts) : Prompts :=
  { p with
    activePrompt := none, activeBrowserSsoPrompt := none, browserSsoTicket := none, browserSsoHasTicket := false,
    browserSsoMachineOk := false, resolvedChallengeIds := [], pendingChallenges := [] }

/-- What a logout resets. -/
def cleared : AuthFields :=
  { f.withPolls { (f.polls.command .stopScreenSharing) with activeSupportPrompt := none, sosRequestId := none } with
    rdpTargets := [], rdpFeatureAvailable := true, instanceRegistered := false, ssoTicketFlow := none,
    prompts := clearedPrompts f.prompts, currentUser := none, relays := [], linkHosts := [],
    linkFeatureAvailable := true, linkHostsLoading := false, linkHostsError := none, linkHostsUpdatedAt := none,
    allowedApps := [], history := [], inbox := {}, supportQueue := [] }

end AuthFields

/-! ## What waits -/

/-- What a method keeps of the session in which it begins. -/
structure SessionMark where
  epoch : ℕ
  client : Option ℕ
  token : Option String
  /-- A record: the number of logins before it. -/
  logins : ℕ

inductive AuthMethod
  | refreshProfile | refreshRelays | loadSupportQueue | loadPendingChallenges | loadAllowedApps | loadHistory
  | loadNotifications | loadLinkHosts | registerRdpMachineAndInstance | markAllNotificationsRead
  | updateNotificationSettings | checkPosture | beginStepUpPush | connectToSupportSession | claimSOSRequest
  | checkSupportSession | presentSsoTicket
  /-- With whether only a list that is not empty is loaded again. -/
  | loadRdpTargets (listed : Bool)
  | checkAppUpdate
  | markNotificationRead (id : String)
  | pollStepUpPush (challengeId : String)
  /-- `onFetchIceServers`. -/
  | fetchIceServers
  /-- A call whose answer is only returned: the options of the step-up and its verification and end, the
  devices, a grant, the test of the delivery, the heartbeat, the token of the push service. -/
  | returned
  deriving DecidableEq

/-- What a method still has to do after one that it has called. -/
inductive Call
  | method (m : AuthMethod)
  /-- A wait for this computer alone. -/
  | here
  /-- `isCurrent` of an attempt that has logged in with this token and client, or else its rollback. -/
  | ifCurrent (attempt : ℕ) (token : String) (client : ℕ)
  | setupServices
  | refreshAll
  /-- The end of a `refreshAll`, by its number, once nothing of it waits. -/
  | refreshed (number : ℕ)
  /-- The end of `_retryMachineRegistration`. -/
  | retried
  /-- The end of a polling cycle. -/
  | endPoll
  deriving DecidableEq

inductive ServerWait
  | refreshProfile
  /-- `refreshRelays` waits for the configuration, the preferences, the write to them, and the ICE servers. -/
  | relayConfig
  | relayPreferences (relays iceServers : List String)
  | relaySaved (relays iceServers : List String)
  | relayIceServers
  | supportQueue | allowedApps | history | notifications | rdpTargets | linkHosts
  | registerMachine | registerInstance
  | appUpdate
  | markRead (id : String)
  | markAllRead
  | updateSettings
  | posture
  | restoreProfile
  | beginStepUp
  | pollStepUp (challengeId : String)
  | iceServers
  | connectToSupport | claimSOS
  /-- A ticket is read. -/
  | ssoTicket
  /-- A ticket is sent, by the flow with this number. -/
  | submitSsoTicket (number : ℕ)
  /-- A prompt, with what `loadPendingChallenges` has kept where it is the caller. -/
  | prompts (w : Waiting) (caller : SessionMark)
  | support (w : SupportWaiting)
  /-- `logout` waits for the tombstone, and for the server. -/
  | logoutMarker | logoutServer
  | here
  | returned

def ServerWait.isCall : ServerWait → Bool
  | .relayPreferences _ _ | .relaySaved _ _ | .ssoTicket | .logoutMarker | .here => false
  | .prompts (.pendingGoesOn _) _ | .prompts (.ticket _ _) _ => false
  | .support (.stopped _ _) | .support (.ownerStart _ _) => false
  | _ => true

/-- A method that waits. -/
structure Asked where
  mark : SessionMark
  /-- A record: what it does follows on an answer. -/
  answered : Bool := false
  wait : ServerWait
  /-- What its callers still have to do. -/
  rest : List Call := []

/-- What a method does next. -/
inductive Sequel
  | ends
  | waits (mark : SessionMark) (wait : ServerWait)
  | calls (calls : List Call)
  /-- `logout` is called. -/
  | logout
  /-- A logout goes on. -/
  | clears

/-- What is started or ended beside the fields. -/
inductive AuthEvent
  | services
  | heartbeat
  | machineRetry
  | support (event : SupportEvent)
  | decision (decision : SentDecision)

/-- The fields, what is started, and what is done next. -/
abbrev AnswerEffect := AuthFields × List AuthEvent × Sequel

/-! ## The session -/

/-- The session with its fields, and what waits. A client has its number. -/
structure AuthSession where
  authEpoch : ℕ := 0
  loginGeneration : ℕ := 0
  committedLoginGeneration : ℕ := 0
  api : Option ℕ := none
  clients : ℕ := 0
  token : Option String := none
  fields : AuthFields := {}
  waiting : List Asked := []
  /-- The calls of `refreshAll` so far, which number them. -/
  refreshes : ℕ := 0
  /-- Records: the number of logins, and their tokens. -/
  logins : ℕ := 0
  tokens : List String := []

/-- The state after a part of a step, with what is started. -/
abbrev AuthOutcome := AuthSession × List AuthEvent

structure LoginCommit where
  token : String
  user : Profile := {}
  perimeter : Option String := none
  clientIp : Option String := none
  posture : Option Posture := none
  hasDeviceId : Bool := false

/-- What happens. -/
inductive AuthAction
  /-- `init` restores a session. -/
  | restore (token : String)
  /-- `setServerUrl` makes its client. -/
  | setServerUrl
  | login (commit : LoginCommit)
  | cancelLoginAttempts
  | logout
  | call (m : AuthMethod)
  | refreshAll
  /-- The polling timer ticks, with whether the notifications and the applications have their turn. -/
  | poll (notifications apps : Bool)
  | retryMachineRegistration
  /-- A message, the user or the service, about the support. -/
  | support (action : SupportAction)
  /-- A message or the user, about a prompt. -/
  | prompts (action : PromptAction)
  /-- What a method waits for is there. -/
  | answer (index : ℕ) (reply : ServerReply)

namespace AuthSession

variable (s : AuthSession)

def isLoggedIn : Bool := s.token.isSome && s.fields.currentUser.isSome

def mark : SessionMark := ⟨s.authEpoch, s.api, s.token, s.logins⟩

variable (mark : SessionMark)

def isCurrentAuthClient : Bool :=
  s.api = mark.client && s.authEpoch = mark.epoch && s.token = mark.token && mark.token.isSome && s.isLoggedIn

def hasClient : Bool := s.api.isSome && s.token.isSome

def await (w : Asked) : AuthSession := { s with waiting := s.waiting ++ [w] }

/-! ## Methods that begin -/

/-- A method goes on to its call, and does not return at once. -/
def opens : AuthMethod → Bool
  | .refreshProfile | .loadNotifications => s.hasClient && s.isLoggedIn
  | .refreshRelays | .loadPendingChallenges | .loadAllowedApps | .loadHistory => s.hasClient
  | .loadRdpTargets listed => s.hasClient && (!listed || s.fields.rdpTargets ≠ [])
  | .loadSupportQueue => s.hasClient && s.fields.isEngineer
  | .loadLinkHosts => s.api.isSome && !s.fields.linkHostsLoading
  | .registerRdpMachineAndInstance | .presentSsoTicket => s.api.isSome && s.isLoggedIn
  | .fetchIceServers => s.api.isSome && s.fields.iceServers = []
  | _ => s.api.isSome

/-- The fields after the beginning of a method. -/
def entered : AuthMethod → AuthFields
  | .loadLinkHosts => s.fields.linkHostsAsked
  | .presentSsoTicket => s.fields.withFlow
  | _ => s.fields

def firstWait : AuthMethod → ServerWait
  | .refreshProfile => .refreshProfile
  | .refreshRelays => .relayConfig
  | .loadSupportQueue => .supportQueue
  | .loadPendingChallenges => .prompts (.pending s.fields.prompts.steps) s.mark
  | .loadAllowedApps => .allowedApps
  | .loadHistory => .history
  | .loadNotifications => .notifications
  | .loadRdpTargets _ => .rdpTargets
  | .loadLinkHosts => .linkHosts
  | .registerRdpMachineAndInstance => .registerMachine
  | .checkAppUpdate => .appUpdate
  | .markNotificationRead id => .markRead id
  | .markAllNotificationsRead => .markAllRead
  | .updateNotificationSettings => .updateSettings
  | .checkPosture => .posture
  | .beginStepUpPush => .beginStepUp
  | .pollStepUpPush challengeId => .pollStepUp challengeId
  | .fetchIceServers => .iceServers
  | .connectToSupportSession => .connectToSupport
  | .claimSOSRequest => .claimSOS
  | .checkSupportSession =>
    match s.fields.sosRequestId with
    | some requestId => .support (.sosRequest requestId s.fields.support.sessions)
    | none => .support (.current s.fields.support.sessions)
  | .presentSsoTicket => .ssoTicket
  | .returned => .returned

/-- A method, up to its first wait. -/
def begins (m : AuthMethod) (rest : List Call) : AuthSession :=
  { s with fields := s.entered m }.await { mark := s.mark, wait := s.firstWait m, rest }

/-- A method of a `refreshAll`, which goes on when all of them are over. -/
def beginMember (rest : List Call) (s : AuthSession) (m : AuthMethod) : AuthSession :=
  if s.opens m then s.begins m rest else s

/-- The methods that `refreshAll` calls. -/
def refreshMethods : List AuthMethod :=
  [.refreshProfile, .loadPendingChallenges, .loadAllowedApps, .loadHistory, .loadNotifications, .checkPosture,
    .checkSupportSession, .refreshRelays, .loadRdpTargets false, .loadLinkHosts, .registerRdpMachineAndInstance,
    .checkAppUpdate] ++ if s.fields.isEngineer then [.loadSupportQueue] else []

/-- `refreshAll`, up to its wait. -/
def beginRefresh (rest : List Call) : AuthSession :=
  s.refreshMethods.foldl (beginMember (.refreshed s.refreshes :: rest)) { s with refreshes := s.refreshes + 1 }

/-- Something of a `refreshAll` still waits. -/
def isRefreshing (number : ℕ) : Bool := s.waiting.any (·.rest.contains (.refreshed number))

/-! ## What callers do next -/

/-- `isCurrent` of an attempt. -/
def isCurrentLogin (attempt client : ℕ) : Bool :=
  attempt = s.loginGeneration && s.api = some client

/-- `_rollbackCancelledLogin`. -/
def rollback (attempt : ℕ) (token : String) (client : ℕ) : AuthSession :=
  if s.committedLoginGeneration ≠ attempt then s
  else if s.token = some token && s.api = some client then
    { s with committedLoginGeneration := 0, token := none, fields := { s.fields with currentUser := none } }
  else { s with committedLoginGeneration := 0 }

/-- The timer of the registration is set where the machine is not registered. -/
def startRetry : AuthOutcome :=
  if s.isLoggedIn && !s.fields.hasMachine then
    ({ s with fields := { s.fields with machineRetry := true } }, [.machineRetry])
  else (s, [])

def scheduleMachineRetryIfNeeded : AuthOutcome :=
  if s.fields.machineRetry then (s, []) else s.startRetry

/-- Something started before the rest of an outcome. -/
def after (es : List AuthEvent) (r : AuthOutcome) : AuthOutcome := (r.1, es ++ r.2)

/-- What callers still have to do, up to the next wait, with what the method that is over has kept. -/
def run (mark : SessionMark) (answered : Bool) : List Call → AuthSession → AuthOutcome
  | [], s => (s, [])
  | .method m :: rest, s => if s.opens m then (s.begins m rest, []) else run mark answered rest s
  | .here :: rest, s => (s.await { mark, answered, wait := .here, rest }, [])
  | .ifCurrent attempt token client :: rest, s =>
    if s.isCurrentLogin attempt client then run mark answered rest s else (s.rollback attempt token client, [])
  | .setupServices :: rest, s => after (if s.hasClient then [.services] else []) (run mark answered rest s)
  | .refreshAll :: rest, s =>
    if !s.isLoggedIn then run mark answered rest s
    else
      let begun := s.beginRefresh rest
      if begun.isRefreshing s.refreshes then (begun, [])
      else
        let scheduled := begun.scheduleMachineRetryIfNeeded
        after scheduled.2 (run mark answered rest scheduled.1)
  | .refreshed number :: rest, s =>
    if s.isRefreshing number then (s, [])
    else
      let scheduled := s.scheduleMachineRetryIfNeeded
      after scheduled.2 (run mark answered rest scheduled.1)
  | .retried :: rest, s =>
    let scheduled := s.startRetry
    after scheduled.2 (run mark answered rest scheduled.1)
  | .endPoll :: rest, s => run mark answered rest { s with fields := { s.fields with isPollingInFlight := false } }

/-! ## Answers -/

/-- Nothing is done, and the method ends. -/
def nothing : AnswerEffect := (s.fields, [], .ends)

/-- The fields are set, and the method ends. -/
def sets (fields : AuthFields) : AnswerEffect := (fields, [], .ends)

variable (reply : ServerReply)

/-- Nothing is done where a method has failed. -/
def unlessFailed (effect : AnswerEffect) : AnswerEffect :=
  if reply.failed then s.nothing else effect

/-- Nothing is done where the client, the epoch or the token are others. -/
def guarded (effect : AnswerEffect) : AnswerEffect :=
  if s.isCurrentAuthClient mark then effect else s.nothing

/-- `loadRdpTargets` with its answer. -/
def rdpTargetsAnswered : AnswerEffect :=
  if !reply.failed then sets { s.fields with rdpTargets := reply.entries, rdpFeatureAvailable := true }
  else if reply.statusCode = some 404 then sets { s.fields with rdpFeatureAvailable := false, rdpTargets := [] }
  else s.nothing

/-- `loadLinkHosts` with its answer: the token is not compared. -/
def linkHostsAnswered : AnswerEffect :=
  if s.authEpoch ≠ mark.epoch then s.nothing
  else
    let answered := if s.isLoggedIn then s.fields.linkHostsAnswered reply else s.fields
    sets { answered with linkHostsLoading := false }

/-- `registerRdpMachineAndInstance` with the machine: it goes on with `api!`. -/
def machineRegistered : AnswerEffect :=
  ({ s.fields with
      registeredMachineId := if reply.ok && reply.id.isSome then reply.id else s.fields.registeredMachineId },
    [], if s.api.isSome then .waits s.mark .registerInstance else .ends)

/-- `registerRdpMachineAndInstance` with the instance. -/
def instanceRegistered (s : AuthSession) (reply : ServerReply) : AnswerEffect :=
  if reply.ok then
    ({ s.fields with instanceRegistered := true }, [.heartbeat], .calls [.method (.loadRdpTargets false)])
  else s.nothing

/-- What `init` goes on with, once it has the profile. -/
def profileRestored : AnswerEffect :=
  if reply.failed then (s.fields, [], if reply.statusCode = some 401 then .logout else .ends)
  else
    (s.fields.setProfile reply.profile, [],
      .calls [.here, .setupServices, .refreshAll, .method .presentSsoTicket])

/-- The step-up that this device asks another one for begins, or is over. -/
def setOutboundStepUp (challengeId : Option String) : AnswerEffect :=
  sets { s.fields with prompts := { s.fields.prompts with activeOutboundStepUpChallengeId := challengeId } }

/-- `beginStepUpPush` with its answer. -/
def stepUpBegun : AnswerEffect :=
  if isGiven reply.id then s.setOutboundStepUp reply.id else s.nothing

/-- `pollStepUpPush` with its answer. -/
def stepUpPolled (challengeId : String) (reply : ServerReply) : AnswerEffect :=
  if reply.status.any (· ≠ "pending") && s.fields.prompts.activeOutboundStepUpChallengeId =
    some challengeId then s.setOutboundStepUp none
  else s.nothing

/-- The flow sends a ticket: there is one, the server takes them, and none was sent for a minute. -/
def mayPresent (ticket : Option String) (flow : SsoTicketFlow) : Bool :=
  isGiven ticket && !flow.serverNotEnabled && flow.lastAttemptAt.all (60000 ≤ s.fields.now - ·)

/-- `presentSsoTicket` with the ticket: `submit` finds no client where there is none. -/
def ticketRead : AnswerEffect :=
  match s.fields.ssoTicketFlow with
  | none => s.nothing
  | some flow =>
    if s.mayPresent reply.ticket flow then
      ({ s.fields with ssoTicketFlow := some { flow with lastAttemptAt := some s.fields.now } }, [],
        if s.api.isSome then .waits s.mark (.submitSsoTicket flow.number) else .ends)
    else s.nothing

/-- A prompt may go on: a reading of the ticket compares the epoch and the token, everything else the client,
too. -/
def promptGoesOn : Waiting → Bool
  | .ticket _ _ => s.authEpoch = mark.epoch && s.token = mark.token
  | _ => s.isCurrentAuthClient mark

/-- What waits of a prompt. The decision on a browser sign-on needs a client, and where there is none its
caller is not current any more. -/
def promptSequel (mark caller : SessionMark) : List Waiting → Sequel
  | .pending _ :: _ => .calls [.method .loadPendingChallenges, .method .loadHistory]
  | .pendingGoesOn answer :: _ => .waits caller (.prompts (.pendingGoesOn answer) caller)
  | .browserSsoDecision prompt answer :: _ =>
    if s.hasClient then .waits s.mark (.prompts (.browserSsoDecision prompt answer) caller) else .ends
  | w :: _ => .waits mark (.prompts w caller)
  | [] => .ends

def promptAnswered (mark caller : SessionMark) (w : Waiting) (reply : PromptReply) : AnswerEffect :=
  if s.promptGoesOn mark w then
    let r := Prompts.resume w reply { s.fields.prompts with steps := s.fields.prompts.steps + 1 }
    ({ s.fields with prompts := { r.1 with waiting := [] } }, if s.hasClient then r.2.map .decision else [],
      s.promptSequel mark caller r.1.waiting)
  else s.nothing

def supportSequel : List SupportWaiting → Sequel
  | w :: _ => .waits (if (ServerWait.support w).isCall then s.mark else mark) (.support w)
  | [] => .ends

/-- `confirmSupport` goes on with `api!`. -/
def supportReply (reply : SupportReply) : SupportWaiting → SupportReply
  | .confirmSupport _ => { reply with failed := reply.failed || s.api.isNone }
  | _ => reply

def supportAnswered (w : SupportWaiting) (reply : SupportReply) : AnswerEffect :=
  let r := s.fields.polls.resume (s.supportReply reply w) w
  (s.fields.withPolls r.1, r.2.map .support, s.supportSequel mark r.1.waiting)

/-- What a method does when what it has waited for is there. -/
def answered : ServerWait → AnswerEffect
  | .refreshProfile => s.unlessFailed reply (s.guarded mark (sets (s.fields.setProfile reply.profile)))
  | .relayConfig =>
    s.unlessFailed reply
      (s.guarded mark (s.fields, [], .waits mark (.relayPreferences reply.entries reply.iceServers)))
  | .relayPreferences relays iceServers =>
    s.guarded mark (s.fields, [], .waits mark (.relaySaved relays iceServers))
  | .relaySaved relays iceServers =>
    s.guarded mark ({ s.fields with relays }.setIceServers iceServers, [], .waits mark .relayIceServers)
  | .relayIceServers => s.unlessFailed reply (s.guarded mark (sets (s.fields.setIceServers reply.iceServers)))
  | .supportQueue => s.unlessFailed reply (s.guarded mark (sets { s.fields with supportQueue := reply.entries }))
  | .allowedApps => s.unlessFailed reply (s.guarded mark (sets { s.fields with allowedApps := reply.entries }))
  | .history => s.unlessFailed reply (s.guarded mark (sets { s.fields with history := reply.entries }))
  | .notifications =>
    s.unlessFailed reply (s.guarded mark (sets { s.fields with inbox := Inbox.ofList reply.notifications }))
  | .rdpTargets => s.guarded mark (s.rdpTargetsAnswered reply)
  | .linkHosts => s.linkHostsAnswered mark reply
  | .registerMachine => s.unlessFailed reply (s.machineRegistered reply)
  | .registerInstance => s.unlessFailed reply (s.instanceRegistered reply)
  | .appUpdate => s.unlessFailed reply (sets (s.fields.setAppUpdate reply.update))
  | .markRead id => s.unlessFailed reply (sets { s.fields with inbox := s.fields.inbox.markRead id s.fields.now })
  | .markAllRead => s.unlessFailed reply (sets { s.fields with inbox := s.fields.inbox.markAllRead s.fields.now })
  | .updateSettings => s.unlessFailed reply (sets (s.fields.setNotificationSettings reply.notificationSettings))
  | .posture => s.unlessFailed reply (sets (s.fields.setPosture reply))
  | .restoreProfile => s.profileRestored reply
  | .beginStepUp => s.unlessFailed reply (s.stepUpBegun reply)
  | .pollStepUp challengeId => s.unlessFailed reply (s.stepUpPolled challengeId reply)
  | .iceServers => s.unlessFailed reply (sets (s.fields.setIceServers reply.iceServers))
  | .connectToSupport => s.unlessFailed reply (s.fields, [], .calls [.method .loadSupportQueue])
  | .claimSOS => (s.fields, [], .calls [.method .loadSupportQueue])
  | .ssoTicket => s.ticketRead reply
  | .submitSsoTicket number => s.unlessFailed reply (sets (s.fields.ticketAnswered number reply))
  | .prompts w caller => s.promptAnswered mark caller w reply.prompts
  | .support w => s.supportAnswered mark w reply.support
  | .logoutMarker => ({ s.fields with machineRetry := false }, [], .waits mark .logoutServer)
  | .logoutServer => (s.fields, [], .clears)
  | .here | .returned => s.nothing

/-- `logout`, up to its first wait. -/
def logout : AuthSession :=
  let begun := { s with
    authEpoch := s.authEpoch + 1, loginGeneration := s.loginGeneration + 1, committedLoginGeneration := 0 }
  begun.await { mark := begun.mark, wait := .logoutMarker }

/-- What a logout resets. -/
def clear : AuthSession := { s with token := none, api := none, fields := s.fields.cleared }

/-- A method goes on to what it does next. -/
def follow (w : Asked) : Sequel → AuthOutcome
  | .ends => s.run w.mark (w.answered || w.wait.isCall) w.rest
  | .waits mark wait => (s.await { mark, answered := w.answered || w.wait.isCall, wait, rest := w.rest }, [])
  | .calls calls => s.run w.mark (w.answered || w.wait.isCall) (calls ++ w.rest)
  | .logout => (s.logout, [])
  | .clears => (s.clear, [])

/-- A method goes on. -/
def resume (w : Asked) (reply : ServerReply) : AuthOutcome :=
  let effect := s.answered w.mark reply w.wait
  after effect.2.1 (follow { s with fields := effect.1 } w effect.2.2)

def mayResume : ServerWait → Bool
  | .support w => s.fields.polls.mayResume w
  | _ => true

/-- What waits is taken out. -/
def without (index : ℕ) : AuthSession := { s with waiting := s.waiting.eraseIdx index }

/-- What a login goes on with after its commit. -/
def afterLogin (attempt : ℕ) (token : String) (client : ℕ) (hasDeviceId : Bool) : List Call :=
  let device : List Call := if hasDeviceId then [.here] else []
  device ++ [.ifCurrent attempt token client, .setupServices] ++ device ++
    [.ifCurrent attempt token client, .method .refreshProfile, .refreshAll, .ifCurrent attempt token client,
      .method .presentSsoTicket]

/-- A login of the latest attempt commits. -/
def login (client : ℕ) (commit : LoginCommit) : AuthOutcome :=
  let attempt := s.loginGeneration + 1
  let known := s.fields.updatePerimeter commit.perimeter commit.clientIp
  let begun := { s with
    loginGeneration := attempt, committedLoginGeneration := attempt, token := some commit.token,
    logins := s.logins + 1, tokens := commit.token :: s.tokens,
    fields := { known.setProfile commit.user with
      currentPosture := commit.posture, isCompliant := commit.posture.any Posture.isCompliant } }
  begun.run begun.mark false (afterLogin attempt commit.token client commit.hasDeviceId)

/-- `init` restores a token and asks for the profile. -/
def restore (token : String) : AuthSession :=
  let begun := { s with
    api := some s.clients, clients := s.clients + 1, token := some token, logins := s.logins + 1,
    tokens := token :: s.tokens }
  begun.await { mark := begun.mark, wait := .restoreProfile }

/-- What a tick of the polling timer calls. -/
def pollCalls (notifications apps : Bool) : List Call :=
  [.method .loadPendingChallenges, .method .checkSupportSession, .method .loadSupportQueue] ++
    (if notifications then [.method .loadNotifications] else []) ++
    (if apps then [.method .loadAllowedApps, .method (.loadRdpTargets true)] else []) ++ [.endPoll]

/-- A tick of the polling timer. -/
def poll (notifications apps : Bool) : AuthOutcome :=
  if !s.isLoggedIn || s.fields.isPollingInFlight then (s, [])
  else
    run s.mark false (pollCalls notifications apps) { s with fields := { s.fields with isPollingInFlight := true } }

def retryMachineRegistration : AuthOutcome :=
  run s.mark false ((if s.fields.hasMachine then [] else [.method .registerRdpMachineAndInstance]) ++ [.retried])
    { s with fields := { s.fields with machineRetry := false } }

/-- What happens to the support: the service and a message go on without a client. A poll is a method, and
what waits is kept with the rest. -/
def takesSupport : SupportAction → Bool
  | .resume _ _ | .poll => false
  | .support _ | .supportEnded _ => true
  | _ => s.api.isSome

def takesPrompt : PromptAction → Bool
  | .resume _ _ | .poll => false
  | _ => true

/-- A message, the user or the service, about the support. -/
def onSupport (r : SupportOutcome) : AuthOutcome :=
  ({ s with
    fields := s.fields.withPolls r.1
    waiting := s.waiting ++ r.1.waiting.map fun w => { mark := s.mark, wait := .support w } }, r.2.map .support)

/-- A message or the user, about a prompt: without a client and a token only a ticket is read. -/
def onPrompts (r : PromptOutcome) : AuthOutcome :=
  let begun := r.1.waiting.filter fun w => s.hasClient || !(ServerWait.prompts w s.mark).isCall
  ({ s with
    fields := { s.fields with prompts := { r.1 with waiting := [] } }
    waiting := s.waiting ++ begun.map fun w => { mark := s.mark, wait := .prompts w s.mark } },
    if s.hasClient then r.2.map .decision else [])

def step : AuthAction → Option AuthOutcome
  | .restore token => if s.logins = 0 ∧ s.api = none then some (s.restore token, []) else none
  | .setServerUrl =>
    some ({ s with loginGeneration := s.loginGeneration + 1, api := some s.clients, clients := s.clients + 1 }, [])
  | .login commit => s.api.map fun client => s.login client commit
  | .cancelLoginAttempts => some ({ s with loginGeneration := s.loginGeneration + 1 }, [])
  | .logout => some (s.logout, [])
  | .call m => some (s.run s.mark false [.method m])
  | .refreshAll => some (s.run s.mark false [.refreshAll])
  | .poll notifications apps => some (s.poll notifications apps)
  | .retryMachineRegistration => if s.fields.machineRetry then some s.retryMachineRegistration else none
  | .support action => if s.takesSupport action then (s.fields.polls.step action).map s.onSupport else none
  | .prompts action => if takesPrompt action then (s.fields.prompts.step action).map s.onPrompts else none
  | .answer index reply => do
    let w ← s.waiting[index]?
    guard (s.mayResume w.wait)
    return (s.without index).resume w reply

end AuthSession

def authSessions : Machine AuthSession AuthAction AuthEvent := ⟨AuthSession.step⟩

end LigamentApps.AuthState
