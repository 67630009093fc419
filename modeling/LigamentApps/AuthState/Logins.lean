import LigamentApps.Machine.Trace

/-!
# Logins and logouts

How `AuthState` of `auth_state.dart` and the `ApiClient` of `client.dart` come to a bearer token and lose it:
`login`, `loginClaim` and `_finalizeLogin` with its rollback, `cancelLoginAttempts`, `setServerUrl`, `logout`,
and what `init` restores. Every call that waits is a task, and the tasks go on in any order. A task that waits
for the storage has its operation done in one step and goes on in another, so that a process can end between
any two operations.

Left out: the group policy, the plaintext token of older versions, the device identifier, the services that a
login starts, and the failures of the preferences. The fields marked as a record are not in the code. Nothing
that waits survives a restart, so generations may count on over it, which tells the attempts of several
processes apart. -/

namespace LigamentApps.AuthState

structure BearerToken where
  text : String
  /-- A record: the attempt whose response it is from. -/
  attempt : ℕ
  deriving DecidableEq

/-- What is kept over a restart: the tombstone and the address in the preferences, the token in the secure
storage. -/
structure AuthStore where
  loggedOut : Bool := false
  serverUrl : Option String := none
  token : Option BearerToken := none

/-- An operation on the storage. -/
inductive StoreOp
  | writeMarker
  | removeMarker
  | writeServerUrl (url : String)
  | writeToken (token : BearerToken)
  | deleteToken
  deriving DecidableEq

def StoreOp.apply (store : AuthStore) : StoreOp → AuthStore
  | .writeMarker => { store with loggedOut := true }
  | .removeMarker => { store with loggedOut := false }
  | .writeServerUrl url => { store with serverUrl := some url }
  | .writeToken token => { store with token := some token }
  | .deleteToken => { store with token := none }

/-- Only the secure storage may fail. -/
def StoreOp.mayFail : StoreOp → Bool
  | .writeToken _ | .deleteToken => true
  | _ => false

/-- The token that `init` restores. -/
def AuthStore.restored (store : AuthStore) : Option BearerToken :=
  if store.loggedOut || store.serverUrl.isNone then none else store.token

structure LoginResponse where
  token : Option String := none
  hasUser : Bool := false
  hasDeviceId : Bool := false
  deriving DecidableEq

/-- A call of `login` or of `loginClaim`, with the client and the address that it found. -/
structure LoginAttempt where
  generation : ℕ
  client : ℕ
  base : String
  claim : Bool
  deriving DecidableEq

/-- What an attempt waits for. -/
inductive LoginPc
  | marker
  /-- The device and its posture. -/
  | posture
  | request
  /-- `client.login` has returned. -/
  | answered (response : LoginResponse)
  | writeToken (token : BearerToken) (hasDeviceId : Bool)
  | writeServerUrl (token : BearerToken) (hasDeviceId : Bool)
  | removeMarker (token : BearerToken) (hasDeviceId : Bool)
  | writeDeviceId (token : BearerToken)
  | localDetect (token : BearerToken)
  /-- `refreshProfile` and `refreshAll`. -/
  | refresh (token : BearerToken)
  deriving DecidableEq

inductive LogoutPc
  | marker | server | localDetect | preferences | secureStorage
  deriving DecidableEq

/-- What waits. -/
inductive AuthTask
  | login (attempt : LoginAttempt) (pc : LoginPc)
  /-- A logout, with the generation that it began. -/
  | logout (began : ℕ) (pc : LogoutPc)
  /-- A `_writeLogoutMarker` that nobody awaits. -/
  | marker
  /-- `setServerUrl` waits for the preferences, and for what it writes there. -/
  | serverUrlPreferences
  | serverUrlWrite (url : String)
  /-- `client.logout` of a client. -/
  | clientLogout (client : ℕ)
  /-- `init` waits for the profile of a restored session. -/
  | restoreProfile (attempt : ℕ)
  deriving DecidableEq

/-- The operation that an attempt waits for. -/
def LoginPc.op (attempt : LoginAttempt) : LoginPc → Option StoreOp
  | .marker => some .writeMarker
  | .writeToken token _ => some (.writeToken token)
  | .writeServerUrl _ _ => some (.writeServerUrl attempt.base)
  | .removeMarker _ _ => some .removeMarker
  | _ => none

/-- The operation that a task waits for. -/
def AuthTask.op : AuthTask → Option StoreOp
  | .login attempt pc => pc.op attempt
  | .logout _ .marker | .marker => some .writeMarker
  | .logout _ .secureStorage => some .deleteToken
  | .serverUrlWrite url => some (.writeServerUrl url)
  | _ => none

/-- A task, and whether its operation is done. -/
structure PendingTask where
  task : AuthTask
  stored : Bool := false
  deriving DecidableEq

/-- What a task goes on with. -/
structure AuthReply where
  failed : Bool := false
  unauthorized : Bool := false
  response : LoginResponse := {}

def PendingTask.mayResume (p : PendingTask) (reply : AuthReply) : Bool :=
  p.stored || p.task.op.all fun op => op.mayFail && reply.failed

/-- The fields, with the storage and what waits. A client is known by its place in `bearers`. -/
structure Logins where
  loginGeneration : ℕ := 0
  committedLoginGeneration : ℕ := 0
  serverUrl : Option String := none
  api : Option ℕ := none
  /-- The bearer tokens of the clients. -/
  bearers : List (Option BearerToken) := []
  token : Option BearerToken := none
  /-- The user, by the attempt that logged in. -/
  currentUser : Option ℕ := none
  store : AuthStore := {}
  tasks : List PendingTask := []
  /-- A record: the attempts that came to their end as the latest ones, and the one that was restored. -/
  finished : List ℕ := []
  /-- A record: the attempt that has removed the tombstone since the last logout or cancellation began. -/
  lastWord : Option ℕ := none

/-- What happens in a process. -/
inductive LoginAction
  | login (claim : Bool)
  | cancelLoginAttempts
  /-- `setServerUrl` with the address, trimmed. -/
  | setServerUrl (url : String)
  | logout
  /-- The operation of a task is done. -/
  | store (index : ℕ)
  /-- A task goes on. -/
  | resume (index : ℕ) (reply : AuthReply)

namespace Logins

variable (s : Logins)

/-- A task waits. -/
def goesOn (task : AuthTask) : Logins := { s with tasks := s.tasks ++ [⟨task, false⟩] }

variable (attempt : LoginAttempt)

/-- The test of `isCurrent`. -/
def isCurrent : Bool :=
  attempt.generation = s.loginGeneration && s.api = some attempt.client

/-- `login` or `loginClaim`, up to the first wait. -/
def login (claim : Bool) : Logins :=
  let begun := { s with loginGeneration := s.loginGeneration + 1 }
  match s.serverUrl, s.api with
  | some base, some client =>
    if base = "" then begun else begun.goesOn (.login ⟨s.loginGeneration + 1, client, base, claim⟩ .marker)
  | _, _ => begun

/-- `client.login` sets the client's token, `client.loginClaim` does not. -/
def takeResponse (response : LoginResponse) : Logins :=
  if attempt.claim then s
  else { s with bearers := s.bearers.set attempt.client (response.token.map (⟨·, attempt.generation⟩)) }

/-- `_finalizeLogin`, up to the write of the token. -/
def finalizeLogin (response : LoginResponse) : Logins :=
  match response.token with
  | some text =>
    if text = "" || !response.hasUser then s
    else s.goesOn (.login attempt (.writeToken ⟨text, attempt.generation⟩ response.hasDeviceId))
  | none => s

variable (token : BearerToken)

/-- `_finalizeLogin` after the tombstone is removed. -/
def commit (hasDeviceId : Bool) : Logins :=
  { s with
    bearers := s.bearers.set attempt.client (some token), token := some token,
    currentUser := some attempt.generation, committedLoginGeneration := attempt.generation }.goesOn
      (.login attempt (if hasDeviceId then .writeDeviceId token else .refresh token))

/-- The rollback of an attempt finds its token and its client. -/
def isOwn : Bool :=
  s.token.any (·.text = token.text) && s.api = some attempt.client

/-- `_rollbackCancelledLogin`. -/
def rollback : Logins :=
  if s.committedLoginGeneration ≠ attempt.generation then s
  else if s.isOwn attempt token then
    { s with
      committedLoginGeneration := 0, token := none, currentUser := none
      bearers := s.bearers.set attempt.client none }
  else { s with committedLoginGeneration := 0 }

/-- An attempt goes on. -/
def resumeLogin (reply : AuthReply) : LoginPc → Logins
  | .marker => if s.isCurrent attempt then s.goesOn (.login attempt .posture) else s
  | .posture => s.goesOn (.login attempt .request)
  | .request =>
    if reply.failed then s
    else (s.takeResponse attempt reply.response).goesOn (.login attempt (.answered reply.response))
  | .answered response => if s.isCurrent attempt then s.finalizeLogin attempt response else s
  | .writeToken token hasDeviceId =>
    if reply.failed then s else s.goesOn (.login attempt (.writeServerUrl token hasDeviceId))
  | .writeServerUrl token hasDeviceId =>
    if s.isCurrent attempt then s.goesOn (.login attempt (.removeMarker token hasDeviceId)) else s
  | .removeMarker token hasDeviceId =>
    if s.isCurrent attempt then s.commit attempt token hasDeviceId else s.rollback attempt token
  | .writeDeviceId token =>
    if s.isCurrent attempt then s.goesOn (.login attempt (.localDetect token)) else s.rollback attempt token
  | .localDetect token =>
    if s.isCurrent attempt then s.goesOn (.login attempt (.refresh token)) else s.rollback attempt token
  | .refresh token =>
    if s.isCurrent attempt then { s with finished := attempt.generation :: s.finished } else s.rollback attempt token

def cancelLoginAttempts : Logins :=
  { s with loginGeneration := s.loginGeneration + 1, lastWord := none }.goesOn .marker

/-- `setServerUrl`, up to its first wait. -/
def setServerUrl (url : String) : Logins :=
  { s.cancelLoginAttempts with serverUrl := some url }.goesOn .serverUrlPreferences

/-- The client that `setServerUrl` makes. -/
def newClient : Logins := { s with api := some s.bearers.length, bearers := s.bearers ++ [none] }

/-- `logout`, up to its first wait. -/
def logout : Logins :=
  { s with
    loginGeneration := s.loginGeneration + 1, committedLoginGeneration := 0, lastWord := none }.goesOn
      (.logout (s.loginGeneration + 1) .marker)

/-- `api?.logout()` begins. -/
def callLogout : Logins :=
  match s.api with
  | some client => s.goesOn (.clientLogout client)
  | none => s

/-- The fields that a logout resets. -/
def clear : Logins := { s with token := none, currentUser := none, api := none }

def resumeLogout (began : ℕ) : LogoutPc → Logins
  | .marker => s.callLogout.goesOn (.logout began .server)
  | .server => s.goesOn (.logout began .localDetect)
  | .localDetect => s.clear.goesOn (.logout began .preferences)
  | .preferences => s.goesOn (.logout began .secureStorage)
  | .secureStorage => s

/-- A task goes on. -/
def resume (reply : AuthReply) : AuthTask → Logins
  | .login attempt pc => s.resumeLogin attempt reply pc
  | .logout began pc => s.resumeLogout began pc
  | .marker => s
  | .serverUrlPreferences => s.goesOn (.serverUrlWrite (s.serverUrl.getD ""))
  | .serverUrlWrite _ => s.newClient
  | .clientLogout client => { s with bearers := s.bearers.set client none }
  | .restoreProfile attempt =>
    if !reply.failed then { s with currentUser := some attempt } else if reply.unauthorized then s.logout else s

/-- The record of the last word when the operation of a task is done. -/
def wordAfter : AuthTask → Option ℕ
  | .login attempt (.removeMarker _ _) => if s.isCurrent attempt then some attempt.generation else s.lastWord
  | _ => s.lastWord

/-- The operation of a task is done. -/
def stores (task : AuthTask) (op : StoreOp) : Logins :=
  { s with store := op.apply s.store, lastWord := s.wordAfter task, tasks := s.tasks ++ [⟨task, true⟩] }

/-- A task is taken out. -/
def without (index : ℕ) : Logins := { s with tasks := s.tasks.eraseIdx index }

def step : LoginAction → Option Logins
  | .login claim => some (s.login claim)
  | .cancelLoginAttempts => some s.cancelLoginAttempts
  | .setServerUrl url => some (s.setServerUrl url)
  | .logout => some s.logout
  | .store index => do
    let p ← s.tasks[index]?
    guard (p.stored = false)
    let op ← p.task.op
    return (s.without index).stores p.task op
  | .resume index reply => do
    let p ← s.tasks[index]?
    guard (p.mayResume reply)
    return (s.without index).resume reply p.task

/-- `init` deletes the token of a session that was logged out, unless that fails. -/
def initialStore (store : AuthStore) (deleteFails : Bool) : AuthStore :=
  if store.loggedOut && !deleteFails then { store with token := none } else store

/-- The process ends and `init` runs, up to the profile. -/
def restart (deleteFails : Bool) : Logins :=
  let fresh : Logins :=
    { loginGeneration := s.loginGeneration, lastWord := s.lastWord, serverUrl := s.store.serverUrl,
      store := initialStore s.store deleteFails }
  match s.store.restored with
  | some token =>
    { fresh with api := some 0, bearers := [some token], token := some token, finished := [token.attempt] }.goesOn
      (.restoreProfile token.attempt)
  | none => fresh

end Logins

/-- The logins of one process as a machine. -/
def loginMachine : Machine Logins LoginAction Empty := ⟨fun s a => (s.step a).map (·, [])⟩

/-- What happens over several processes. -/
inductive ProcessAction
  | act (action : LoginAction)
  /-- The process ends at any point and the next one begins. -/
  | restart (deleteFails : Bool)

/-- One step of a process, or the next process. -/
def Logins.processStep (s : Logins) : ProcessAction → Option Logins
  | .act action => s.step action
  | .restart deleteFails => some (s.restart deleteFails)

/-- The logins over several processes as a machine. -/
def processMachine : Machine Logins ProcessAction Empty := ⟨fun s a => (s.processStep a).map (·, [])⟩

end LigamentApps.AuthState
