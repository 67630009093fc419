import LigamentApps.CredentialProvider.HttpApiClient

/-!
# The state of the credential tile

The fields of `LigamentCredential` and `LigamentProvider` that a logon decision depends on, the
points at which the LogonUI thread and the worker thread can be interrupted by each other, and
the actions and events of the machine of `Step.lean`.

The LogonUI thread runs one call at a time. Between calls its program counter is `idle`; inside a
call it stands before the next access to what the worker also writes, or before a wait for the
worker's end. The worker's program counter is kept with the thread handle `m_hPollThread`: `none`
is the null handle. What the outside world decides is in the actions: the arguments of a call,
the answers of servers, and whether a thread could be created or the credentials packed. -/

namespace LigamentApps.CredentialProvider

/-- `CREDENTIAL_PROVIDER_USAGE_SCENARIO`. -/
inductive UsageScenario
  | invalid
  | logon
  | unlockWorkstation
  | changePassword
  | credUI
  | plap
  deriving DecidableEq

inductive AuthFactorMode
  | fido2
  | push
  | otp
  deriving DecidableEq

inductive WorkerJob
  | none
  | startPush
  | webAuthnBegin
  | verifyOtp
  deriving DecidableEq

/-- The fields of the tile that `SetStringValue` accepts. -/
inductive FieldId
  | username
  | password
  | otpCode

inductive CommandLink
  | fido2Btn
  | switchFactorBtn

/-- The user name, domain and password that a logon is for. -/
structure Credentials where
  /-- `m_username`. -/
  username : WString
  /-- `m_domain`. -/
  domain : WString
  /-- `m_password`. -/
  password : WString
  deriving DecidableEq

/-- `WorkerState`: what the worker reports to the LogonUI thread, and the request to stop. -/
structure WorkerState where
  /-- The worker is asked to stop. -/
  stop : Bool := false
  /-- The start call returned. -/
  beginDone : Bool := false
  /-- The start call succeeded. -/
  beginOk : Bool := false
  /-- The error text of the start call. -/
  beginError : Bytes := []
  /-- The pause the server asked for. -/
  retryAfterSec : ℕ := 0
  /-- The number to show on the tile. -/
  numberMatch : WString := []
  /-- The job is over. -/
  done : Bool := false
  /-- The final status of the poll. -/
  status : WString := []

/-- What the worker takes from the fields `m_job…` when it starts. -/
structure JobInput where
  /-- `m_job`. -/
  job : WorkerJob
  /-- `m_jobUser`. -/
  user : WString
  /-- `m_jobDomain`. -/
  domain : WString
  /-- `m_jobPass`. -/
  pass : WString
  /-- `m_jobOtp`. -/
  otp : WString

def JobInput.empty : JobInput := ⟨.none, [], [], [], []⟩

/-- The points of `RunAsyncJob` between which the worker is not interrupted. -/
inductive WorkerPc
  /-- Before it takes the job. -/
  | start
  /-- Before it reads the configuration. -/
  | configure (input : JobInput)
  /-- Before the RDP gate. -/
  | gate (input : JobInput) (cfg : Config)
  /-- The gate is satisfied by `answer`; before the result is written. -/
  | gateWrite (input : JobInput) (answer : Option HttpResponse)
  /-- Before the start call. -/
  | begin (input : JobInput) (cfg : Config)
  /-- The start call returned `result`, having received `core` and `relay`; before the result is
  written. -/
  | beginWrite (input : JobInput) (cfg : Config) (result : BeginResult)
      (core relay : Option HttpResponse)
  /-- At the head of the poll loop, in round `i`. -/
  | poll (input : JobInput) (cfg : Config) (challengeId : WString) (i : ℕ)
  /-- Before the poll call of round `i`. -/
  | pollCall (input : JobInput) (cfg : Config) (challengeId : WString) (i : ℕ)
  /-- The poll returned a final status with `answer`; before it is written. -/
  | pollWrite (input : JobInput) (status : WString) (answer : Option HttpResponse)
  /-- The rounds are used up; before the timeout is written. -/
  | timeoutWrite (input : JobInput)
  /-- The thread function returned. -/
  | exited

/-- Which part of `GetSerialization` hands out the credentials. -/
inductive Branch
  /-- The account is on the bypass list. -/
  | bypass
  /-- `m_authenticated` is set when the call looks at it. -/
  | alreadyAuthenticated
  /-- The worker's result is an approval. -/
  | approved
  /-- The server could not be reached and the configuration lets the user in. -/
  | failOpen
  deriving DecidableEq

/-- `CREDENTIAL_PROVIDER_STATUS_ICON`. -/
inductive StatusIcon
  | none
  | error
  | warning
  deriving DecidableEq

/-- What `GetSerialization` returns besides the packed credentials. -/
structure SerializationResult where
  /-- `CPGSR_RETURN_CREDENTIAL_FINISHED` rather than `CPGSR_NO_CREDENTIAL_NOT_FINISHED`. -/
  finished : Bool
  /-- The status text. -/
  statusText : Option WString
  /-- The status icon. -/
  icon : StatusIcon
  deriving DecidableEq

/-- The value `SetStringValue` stores once `ResetAuthState` has returned; `ReportResult` and
`SetDeselected` store nothing. -/
inductive Store
  | nothing
  | username (raw : WString)
  | password (psz : WString)
  deriving DecidableEq

/-- Who called `StartWorkerJob`. -/
inductive StartCaller
  /-- `GetSerialization` in push or code mode. -/
  | serialize
  /-- `GetSerialization` in passkey mode, through `TriggerFIDO2Auth`. -/
  | serializeFido2
  /-- `SwitchToMode`, through `TriggerFIDO2Auth`. -/
  | switchToMode
  deriving DecidableEq

/-- What the LogonUI thread does when the worker it waits for has ended. -/
inductive AfterJoin
  /-- The rest of `ResetAuthState` and of its caller. -/
  | reset (store : Store)
  /-- The rest of `SwitchToMode`. -/
  | switchToMode (mode : AuthFactorMode)
  /-- The rest of `StartWorkerJob`. -/
  | startJob (job : WorkerJob) (caller : StartCaller)
  /-- `GetSerialization` hands out the credentials. -/
  | pack (branch : Branch)
  /-- `GetSerialization` returns a refusal. -/
  | refuse (result : SerializationResult)
  deriving DecidableEq

/-- The points at which the LogonUI thread can be interrupted by the worker. -/
inductive UiPc
  /-- Between two calls. -/
  | idle
  /-- At the head of `StopPollThread`. -/
  | stop (after : AfterJoin)
  /-- At the head of `JoinPollThread`. -/
  | join (after : AfterJoin)
  /-- Before `CreateThread` in `StartWorkerJob`. -/
  | createThread (caller : StartCaller)
  /-- In `GetSerialization`, before `m_authenticated` is read after `TriggerFIDO2Auth`. -/
  | recheck
  /-- In `GetSerialization`, before the worker's result is read. -/
  | readWorker
  deriving DecidableEq

/-- The provider and its credential. -/
structure State where
  /-- `LigamentProvider::m_scenario`. -/
  scenario : UsageScenario := .invalid
  /-- Whether `m_pCredential` exists. -/
  created : Bool := false
  /-- `m_config`. -/
  config : Config := Config.default
  /-- `m_isRemoteSession`. -/
  isRemoteSession : Bool := false
  /-- `m_cpus`. -/
  cpus : UsageScenario := .logon
  /-- `m_currentMode`. -/
  currentMode : AuthFactorMode := .push
  /-- `m_username`. -/
  username : WString := []
  /-- `m_domain`. -/
  domain : WString := []
  /-- `m_usernameRaw`. -/
  usernameRaw : WString := []
  /-- `m_password`. -/
  password : WString := []
  /-- `m_otpCode`. -/
  otpCode : WString := []
  /-- `m_numberMatch`. -/
  numberMatch : WString := []
  /-- `m_authenticated`. -/
  authenticated : Bool := false
  /-- `m_beginApplied`. -/
  beginApplied : Bool := false
  /-- `m_worker`. -/
  worker : WorkerState := {}
  /-- `m_job`, `m_jobUser`, `m_jobDomain`, `m_jobPass`, `m_jobOtp`. -/
  job : JobInput := JobInput.empty
  /-- `m_hPollThread`, and where the thread stands. -/
  thread : Option WorkerPc := none
  /-- Where the LogonUI thread stands. -/
  pc : UiPc := .idle

/-- The credentials the tile holds. -/
def State.creds (s : State) : Credentials := ⟨s.username, s.domain, s.password⟩

/-- What a worker's calls meet outside: the RDP gate, Core, and the relay. -/
structure WorkerEnv where
  /-- What the RDP gate meets. -/
  gate : GateEnv := {}
  /-- Core's answer. -/
  core : Option HttpResponse := none
  /-- The relay's answer. -/
  relay : Option HttpResponse := none

/-- The calls of LogonUI, and the steps of the two threads. -/
inductive Action
  /-- `LigamentProvider::SetUsageScenario`, with the registry's configuration, the kind of session
  and the kind of prompt it finds. -/
  | setUsageScenario (cpus : UsageScenario) (cfg : Config) (isRemote isUacPrompt : Bool)
  | setStringValue (field : FieldId) (psz : WString)
  | setSelected
  | setDeselected
  | commandLinkClicked (link : CommandLink)
  /-- `GetSerialization`; `packOk` is whether packing succeeds, if it is reached at once. -/
  | getSerialization (packOk : Bool)
  | reportResult
  /-- The LogonUI thread goes on inside a call; `ok` is whether the system call it makes there
  succeeds. -/
  | ui (ok : Bool)
  /-- The worker goes on. -/
  | worker (env : WorkerEnv)

/-- Why the worker set `m_authenticated`. -/
inductive Approval
  /-- The RDP gate is satisfied by this answer. -/
  | gate (answer : Option HttpResponse)
  /-- `VerifyCombined` succeeded on these answers. -/
  | otp (core relay : Option HttpResponse)
  /-- The poll returned `approved` with this answer. -/
  | poll (answer : Option HttpResponse)
  deriving DecidableEq

/-- What can be seen of a run. -/
inductive Event
  /-- The provider is used for another scenario. -/
  | scenario (cpus : UsageScenario)
  /-- A worker was started for these credentials. -/
  | started (creds : Credentials) (job : WorkerJob)
  /-- The worker's start call received these answers. -/
  | request (core relay : Option HttpResponse)
  /-- The worker set `m_authenticated`. -/
  | approved (why : Approval)
  /-- `ResetAuthState` cleared `m_authenticated`. -/
  | reset
  /-- `SetSelected` returned this flag. -/
  | autoLogon (flag : Bool)
  /-- `GetSerialization` reached `PackAndFinish` in this branch under this value of `FailClose`,
  and packing succeeded or not. -/
  | serialized (creds : Credentials) (branch : Branch) (failClose finished : Bool)
  /-- `GetSerialization` returned. -/
  | returned (result : SerializationResult)
  deriving DecidableEq

end LigamentApps.CredentialProvider
