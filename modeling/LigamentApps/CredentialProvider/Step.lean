import LigamentApps.CredentialProvider.State
import LigamentApps.Machine.Trace

/-!
# The steps of the credential tile

`LigamentCredential.cpp` and `LigamentProvider::SetUsageScenario` as a machine: one definition for
each function of the source, cut where the other thread can come in between, and `step` over
them. -/

namespace LigamentApps.CredentialProvider

open LigamentApps.Text

/-! ## Texts -/

def describeServerError (P : Platform) (err : Bytes) (retryAfterSec : ℕ) : WString :=
  if err = networkError then wide "сервер 2FA недоступен (проверьте сеть и настройку ServerURL)"
  else if err = ascii "bad_credentials" ∨ err = ascii "status_401" then
    wide "неверное имя пользователя или пароль"
  else if err = ascii "locked" ∨ err = ascii "status_423" then
    wide "вход временно заблокирован из-за неудачных попыток"
  else if err = ascii "rate_limited" ∨ err = ascii "status_429" then
    if retryAfterSec > 0 then
      wide "слишком много попыток, повторите через " ++ wide (toString retryAfterSec) ++ wide " с"
    else wide "слишком много попыток, подождите немного"
  else if err = ascii "cooldown" then
    if retryAfterSec > 0 then
      wide "повторная отправка возможна через " ++ wide (toString retryAfterSec) ++ wide " с"
    else wide "повторная отправка пока недоступна, подождите"
  else if err = ascii "no_channel" then wide "у пользователя не настроен канал доставки 2FA"
  else if err = ascii "no_credentials" then wide "нет зарегистрированных ключей FIDO2"
  else if err = ascii "webauthn_disabled" ∨ err = ascii "status_503" then
    wide "этот способ входа отключен на сервере"
  else if err = ascii "internal" ∨ err = ascii "status_500" then
    wide "внутренняя ошибка сервера 2FA"
  else if (ascii "status_").isPrefixOf err then
    wide "сервер 2FA ответил ошибкой HTTP " ++ P.utf8ToWide (err.drop 7)
  else if err = [] then wide "сервер 2FA вернул пустой ответ"
  else P.utf8ToWide err

/-- `GetSerialization` returns without credentials, and LogonUI may call it again. -/
def notFinished : SerializationResult := ⟨false, none, .none⟩

/-- `GetSerialization` returns without credentials and with an error text. -/
def failedWith (text : WString) : SerializationResult := ⟨false, some text, .error⟩

variable (status : WString)

/-- The text and icon for a poll that ended without approval, in push mode. -/
def pushDeclined : SerializationResult :=
  if status = wide "denied" then ⟨false, some (wide "❌ Вход отклонён пользователем"), .error⟩
  else if status = wide "expired" then
    ⟨false, some (wide "⌛ Срок действия подтверждения истёк, повторите попытку"), .warning⟩
  else ⟨false, some (wide "⌛ Время ожидания подтверждения истекло"), .warning⟩

/-- The text and icon for a poll that ended without approval, in passkey mode. -/
def fido2Declined : SerializationResult :=
  if status = wide "denied" then
    ⟨false, some (wide "❌ Вход по Passkey отклонён на телефоне"), .error⟩
  else if status = wide "expired" then
    ⟨false, some (wide "⌛ Срок действия QR-кода истёк, нажмите для повтора"), .warning⟩
  else ⟨false, some (wide "⌛ Время ожидания Passkey истекло"), .warning⟩

/-! ## The LogonUI thread -/

/-- The split of a typed name in `SetStringValue` into user and domain. -/
def splitUserName (raw : WString) : WString × WString :=
  match cutFirst (· == backslash) raw with
  | some (domain, user) => (user, domain)
  | none =>
    match cutFirst (· == atSign) raw with
    | some (user, domain) => if user ≠ [] ∧ domain ≠ [] then (user, domain) else (raw, [])
    | none => (raw, [])

variable (s : State)

/-- The name `SetStringValue` compares a new one with. -/
def State.prevRaw : WString :=
  if s.domain = [] then s.username else s.domain ++ backslash :: s.username

/-- The end of `SetStringValue`: the value is stored. -/
def State.store : Store → State
  | .nothing => s
  | .username raw =>
    { s with usernameRaw := raw, username := (splitUserName raw).1,
             domain := (splitUserName raw).2 }
  | .password psz => { s with password := psz }

/-- `ResetAuthState` up to `StopPollThread`. -/
def State.resetAuthState (store : Store) : State × List Event :=
  ({ s with authenticated := false, numberMatch := [], beginApplied := false, otpCode := [],
            pc := .stop (.reset store) }, [.reset])

/-- `SetStringValue` up to `ResetAuthState`, or to its end where nothing changed. -/
def State.setStringValue (field : FieldId) (psz : WString) : State × List Event :=
  match field with
  | .username =>
    if WcsICmpEq psz s.prevRaw then (s.store (.username psz), [])
    else s.resetAuthState (.username psz)
  | .password =>
    if s.password = psz then (s.store (.password psz), []) else s.resetAuthState (.password psz)
  | .otpCode => ({ s with otpCode := psz }, [])

def State.setDeselected : State × List Event :=
  if s.thread.isNone ∧ s.authenticated = false then s.resetAuthState .nothing else (s, [])

/-- `ReportResult` up to `ResetAuthState`. -/
def State.reportResult : State × List Event :=
  State.resetAuthState { s with password := [], otpCode := [] } .nothing

def State.fido2Allowed : Bool := s.config.fido2Enabled && s.cpus ≠ .credUI

/-- `SwitchToMode` up to `StopPollThread`. -/
def State.switchToMode (newMode : AuthFactorMode) : State × List Event :=
  if newMode = .fido2 ∧ s.fido2Allowed = false then (s, [])
  else if s.currentMode = newMode then (s, [])
  else ({ s with pc := .stop (.switchToMode newMode) }, [])

def State.commandLinkClicked : CommandLink → State × List Event
  | .fido2Btn => s.switchToMode (if s.currentMode = .push then .fido2 else .push)
  | .switchFactorBtn => s.switchToMode (if s.currentMode = .otp then .fido2 else .otp)

def State.packAndFinish (branch : Branch) (ok : Bool) : State × List Event :=
  ({ s with pc := .idle },
    [.serialized s.creds branch s.config.failClose ok,
     .returned (if ok then ⟨true, none, .none⟩
       else failedWith (wide "Внутренняя ошибка провайдера, попробуйте еще раз"))])

/-- `GetSerialization` returns to LogonUI without credentials. -/
def State.giveUp (result : SerializationResult) : State × List Event :=
  ({ s with pc := .idle }, [.returned result])

variable (caller : StartCaller)

/-- The caller of `StartWorkerJob` goes on; `started` is what it returned. -/
def State.afterStart (started : Bool) : State × List Event :=
  match caller with
  | .switchToMode => ({ s with pc := .idle }, [])
  | .serializeFido2 => ({ s with pc := .recheck }, [])
  | .serialize =>
    s.giveUp <|
      if started then notFinished
      else failedWith <|
        if s.currentMode = .otp then
          wide "Не удалось запустить проверку кода, попробуйте еще раз"
        else wide "Не удалось запустить ожидание Push, попробуйте еще раз"

/-- `TriggerFIDO2Auth` up to `StartWorkerJob`, or to its end where there is nothing to start. -/
def State.triggerFIDO2Auth : State × List Event :=
  if s.username = [] ∨ s.password = [] ∨ s.authenticated = true then s.afterStart caller true
  else ({ s with pc := .stop (.startJob .webAuthnBegin caller) }, [])

/-- `GetSerialization` up to its first access to the worker's result, or to its end. -/
def State.getSerialization (packOk : Bool) : State × List Event :=
  if s.username = [] ∨ s.password = [] then
    s.giveUp ⟨false, some (wide "Введите имя пользователя и пароль"), .none⟩
  else if s.config.isBypassAccount s.username s.domain then s.packAndFinish .bypass packOk
  else if s.authenticated then ({ s with pc := .join (.pack .alreadyAuthenticated) }, [])
  else
    match s.currentMode with
    | .otp =>
      if s.otpCode = [] then
        s.giveUp ⟨false, some (wide "Введите 6 цифр TOTP или коснитесь YubiKey"), .none⟩
      else if s.thread.isNone then
        ({ s with pc := .stop (.startJob .verifyOtp .serialize) }, [])
      else ({ s with pc := .readWorker }, [])
    | .push =>
      if s.thread.isNone then ({ s with pc := .stop (.startJob .startPush .serialize) }, [])
      else ({ s with pc := .readWorker }, [])
    | .fido2 =>
      if s.thread.isNone then s.triggerFIDO2Auth .serializeFido2
      else ({ s with pc := .readWorker }, [])

/-- `GetSerialization` in code mode on the worker's result. -/
def State.readOtp (P : Platform) (s : State) : State × List Event :=
  if s.worker.done = false then s.giveUp notFinished
  else if s.worker.beginDone && s.worker.beginOk then
    ({ s with pc := .join (.pack .approved) }, [])
  else if s.config.failClose = false ∧ s.worker.beginError = networkError then
    ({ s with pc := .join (.pack .failOpen) }, [])
  else
    ({ s with pc := .join (.refuse (failedWith (wide "Вход отклонен: " ++
        describeServerError P s.worker.beginError s.worker.retryAfterSec))) }, [])

/-- The result of a successful start call is applied to the tile, once. -/
def State.applyBegin : State :=
  if s.worker.beginDone && s.worker.beginOk && !s.beginApplied then
    { s with beginApplied := true,
             numberMatch := if s.currentMode = .push then s.worker.numberMatch else s.numberMatch }
  else s

/-- The end of `GetSerialization` in push and passkey mode: the final status decides. -/
def State.decidePoll (declined : WString → SerializationResult) : State × List Event :=
  if s.worker.done = false then s.giveUp notFinished
  else if s.worker.status = wide "approved" ∨ s.authenticated = true then
    ({ s with pc := .join (.pack .approved) }, [])
  else ({ s with pc := .join (.refuse (declined s.worker.status)) }, [])

/-- `GetSerialization` in push mode on the worker's result. -/
def State.readPush (P : Platform) (s : State) : State × List Event :=
  if s.worker.beginDone && !s.worker.beginOk then
    if s.config.failClose = false ∧ s.worker.beginError = networkError then
      ({ s with pc := .join (.pack .failOpen) }, [])
    else
      ({ s with pc := .join (.refuse (failedWith (wide "Не удалось отправить Push: " ++
          describeServerError P s.worker.beginError s.worker.retryAfterSec))) }, [])
  else s.applyBegin.decidePoll pushDeclined

/-- `GetSerialization` in passkey mode on the worker's result. -/
def State.readFido2 (P : Platform) (s : State) : State × List Event :=
  if s.worker.beginDone && !s.worker.beginOk then
    ({ s with pc := .join (.refuse (failedWith (wide "Ошибка Passkey: " ++
        describeServerError P s.worker.beginError s.worker.retryAfterSec))) }, [])
  else s.applyBegin.decidePoll fido2Declined

/-- `GetSerialization` on the worker's result. -/
def State.readWorker (P : Platform) (s : State) : State × List Event :=
  match s.currentMode with
  | .otp => s.readOtp P
  | .push => s.readPush P
  | .fido2 => s.readFido2 P

/-- `JoinPollThread` after the worker has ended: the handle is closed and its state is reset. -/
def State.joined : State :=
  { s with thread := none, job := JobInput.empty, worker := {} }

/-- `SwitchToMode` after `StopPollThread`. -/
def State.enterMode (mode : AuthFactorMode) : State × List Event :=
  let s := { s with currentMode := mode, numberMatch := [] }
  if mode = .fido2 ∧ s.username ≠ [] ∧ s.password ≠ [] then s.triggerFIDO2Auth .switchToMode
  else ({ s with pc := .idle }, [])

/-- `StartWorkerJob` after `StopPollThread`, up to `CreateThread`. -/
def State.fillJob (job : WorkerJob) (caller : StartCaller) : State :=
  { s with
    worker := {}
    job := ⟨job, s.username, s.domain, s.password,
      if job = .verifyOtp then s.otpCode else s.job.otp⟩
    beginApplied := false
    pc := .createThread caller }

/-- The LogonUI thread after `JoinPollThread`. -/
def State.afterJoin (ok : Bool) : AfterJoin → State × List Event
  | .reset store => ({ s.store store with pc := .idle }, [])
  | .switchToMode mode => s.enterMode mode
  | .startJob job caller => (s.fillJob job caller, [])
  | .pack branch =>
    State.packAndFinish
      { s with
        authenticated := s.authenticated || branch = .approved
        numberMatch := if branch = .alreadyAuthenticated ∨ s.currentMode = .push then []
          else s.numberMatch }
      branch ok
  | .refuse result =>
    State.giveUp { s with numberMatch := if s.currentMode = .push then [] else s.numberMatch }
      result

/-- `CreateThread` in `StartWorkerJob`, and what follows on its failure. -/
def State.createThread (ok : Bool) : State × List Event :=
  if ok then
    let r := State.afterStart { s with thread := some .start } caller true
    (r.1, .started ⟨s.job.user, s.job.domain, s.job.pass⟩ s.job.job :: r.2)
  else State.afterStart { s with job := JobInput.empty, worker := {} } caller false

/-- The next step of the LogonUI thread inside a call. A wait for the worker ends only when there
is none or it has returned. -/
def State.uiStep (P : Platform) (s : State) (ok : Bool) : Option (State × List Event) :=
  match s.pc with
  | .idle => none
  | .stop after =>
    some ({ s with worker := { s.worker with stop := true }, pc := .join after }, [])
  | .join after =>
    match s.thread with
    | none | some .exited => some (s.joined.afterJoin ok after)
    | _ => none
  | .createThread caller => some (s.createThread caller ok)
  | .recheck =>
    some (if s.authenticated then s.packAndFinish .alreadyAuthenticated ok
      else s.giveUp notFinished)
  | .readWorker => some (s.readWorker P)

/-- The mode `Initialize` starts in. -/
def initialMode (cfg : Config) (cpus : UsageScenario) : AuthFactorMode :=
  if cpus = .credUI then if cfg.defaultFactor = 2 then .otp else .push
  else if cfg.defaultFactor = 1 ∧ cfg.fido2Enabled = true then .fido2
  else if cfg.defaultFactor = 2 then .otp
  else .push

/-- `LigamentCredential::Initialize`. -/
def State.credentialInitialize (cfg : Config) (isRemote : Bool) (cpus : UsageScenario) : State :=
  { s with config := cfg, isRemoteSession := isRemote, cpus := cpus,
           currentMode := initialMode cfg cpus }

/-- `m_shouldEnforce2FA` as `SetUsageScenario` computes it. -/
def shouldEnforce2FA (cfg : Config) (cpus : UsageScenario) (isRemote isUacPrompt : Bool) : Bool :=
  if cpus = .credUI then cfg.serverUrlConfigured && cfg.elevation2faEnabled && isUacPrompt
  else if cfg.serverUrlConfigured = true ∧ (cpus = .logon ∨ cpus = .unlockWorkstation) then
    (isRemote && cfg.rdp2faEnabled) || (!isRemote && cfg.console2faEnabled)
  else false

/-- `LigamentProvider::SetUsageScenario`: the credential is initialised when it is new or the
scenario changed. -/
def State.setUsageScenario (cpus : UsageScenario) (cfg : Config)
    (isRemote isUacPrompt : Bool) : State × List Event :=
  let events := if s.scenario = cpus then [] else [Event.scenario cpus]
  if shouldEnforce2FA cfg cpus isRemote isUacPrompt then
    if s.created = false ∨ s.scenario ≠ cpus then
      (State.credentialInitialize { s with scenario := cpus, created := true } cfg isRemote cpus,
        events)
    else (s, events)
  else ({ s with scenario := cpus }, events)

/-! ## The worker thread -/

/-- The result of a job's start call, with what it received from Core and from the relay. -/
def startCall (P : Platform) (cfg : Config) (job : WorkerJob) (env : WorkerEnv) :
    BeginResult × Option HttpResponse × Option HttpResponse :=
  let client := HttpApiClient.ofConfig P cfg
  match job with
  | .startPush => (client.startPush P env.core, client.sendRequest env.core, none)
  | .webAuthnBegin => (client.webAuthnBegin P env.core, client.sendRequest env.core, none)
  | .verifyOtp =>
    (client.verifyCombined env.core env.relay, client.sendRequest env.core,
      client.relayAnswer env.core env.relay)
  | .none => (.failed [] 0, none, none)

def State.takeJob : State × List Event :=
  ({ s with job := JobInput.empty, thread := some (.configure s.job) }, [])

/-- The RDP gate, which only a remote session outside CredUI has. -/
def State.checkGate (P : Platform) (s : State) (input : JobInput) (cfg : Config) (env : WorkerEnv) :
    State × List Event :=
  if s.isRemoteSession = true ∧ s.cpus ≠ .credUI ∧ input.job ≠ .none ∧
      (checkRdpMfaSatisfied P cfg.serverUrl cfg.allowHttp env.gate).satisfied = true then
    ({ s with thread := some (.gateWrite input env.gate.response) }, [])
  else ({ s with thread := some (.begin input cfg) }, [])

/-- The worker writes that the gate is satisfied. -/
def State.writeGate (answer : Option HttpResponse) : State × List Event :=
  if s.worker.stop then ({ s with thread := some .exited }, [])
  else
    ({ s with
        worker := { s.worker with beginDone := true, beginOk := true, done := true }
        authenticated := true
        thread := some .exited }, [.approved (.gate answer)])

/-- The worker makes the start call of its job. -/
def State.beginJob (P : Platform) (s : State) (input : JobInput) (cfg : Config) (env : WorkerEnv) :
    State × List Event :=
  if input.job = .none then ({ s with thread := some .exited }, [])
  else
    let r := startCall P cfg input.job env
    ({ s with thread := some (.beginWrite input cfg r.1 r.2.1 r.2.2) }, [.request r.2.1 r.2.2])

/-- What the result of a start call makes of the worker's state. -/
def WorkerState.begun (w : WorkerState) (result : BeginResult) : WorkerState :=
  { w with beginDone := true, beginOk := result.ok, beginError := result.error,
           retryAfterSec := result.retryAfterSec }

/-- The worker writes the result of its start call: a code is decided by it, a challenge is polled
after it. -/
def State.writeBegin (input : JobInput) (cfg : Config) (result : BeginResult)
    (core relay : Option HttpResponse) : State × List Event :=
  if s.worker.stop then ({ s with thread := some .exited }, [])
  else if input.job = .verifyOtp then
    ({ s with
        worker := { s.worker.begun result with done := true }
        authenticated := s.authenticated || result.ok
        thread := some .exited }, if result.ok then [.approved (.otp core relay)] else [])
  else if result.ok then
    ({ s with
        worker := { s.worker.begun result with numberMatch := result.numberMatch }
        numberMatch := if input.job = .startPush then result.numberMatch else s.numberMatch
        thread := some (.poll input cfg result.challengeId 0) }, [])
  else ({ s with worker := s.worker.begun result, thread := some .exited }, [])

def State.pollHead (input : JobInput) (cfg : Config) (challengeId : WString) (i : ℕ) : State × List Event :=
  if (i : ℤ) < cfg.pushTimeoutSec then
    if s.worker.stop then ({ s with thread := some .exited }, [])
    else ({ s with thread := some (.pollCall input cfg challengeId i) }, [])
  else ({ s with thread := some (.timeoutWrite input) }, [])

/-- A status that ends the poll. -/
def isFinalStatus : Bool :=
  status = wide "approved" ∨ status = wide "denied" ∨ status = wide "expired"

/-- A poll call of the loop. -/
def State.pollOnce (P : Platform) (s : State) (input : JobInput) (cfg : Config)
    (challengeId : WString) (i : ℕ) (env : WorkerEnv) : State × List Event :=
  match (HttpApiClient.ofConfig P cfg).pollStatus P env.core with
  | some status =>
    if isFinalStatus status then ({ s with thread := some (.pollWrite input status env.core) }, [])
    else ({ s with thread := some (.poll input cfg challengeId (i + 1)) }, [])
  | none => ({ s with thread := some (.poll input cfg challengeId (i + 1)) }, [])

/-- The worker writes the final status of the poll. -/
def State.writePoll (status : WString) (answer : Option HttpResponse) : State × List Event :=
  if s.worker.stop then ({ s with thread := some .exited }, [])
  else
    ({ s with
        worker := { s.worker with status := status, done := true }
        authenticated := s.authenticated || status = wide "approved"
        numberMatch := []
        thread := some .exited }, if status = wide "approved" then [.approved (.poll answer)] else [])

/-- The worker writes that the time is over. -/
def State.writeTimeout : State × List Event :=
  if s.worker.stop then ({ s with thread := some .exited }, [])
  else
    ({ s with
        worker := { s.worker with status := wide "timeout", done := true }
        numberMatch := []
        thread := some .exited }, [])

def State.workerStep (P : Platform) (s : State) (env : WorkerEnv) : Option (State × List Event) :=
  match s.thread with
  | none | some .exited => none
  | some .start => some s.takeJob
  | some (.configure input) => some ({ s with thread := some (.gate input s.config) }, [])
  | some (.gate input cfg) => some (s.checkGate P input cfg env)
  | some (.gateWrite _ answer) => some (s.writeGate answer)
  | some (.begin input cfg) => some (s.beginJob P input cfg env)
  | some (.beginWrite input cfg result core relay) =>
    some (s.writeBegin input cfg result core relay)
  | some (.poll input cfg challengeId i) => some (s.pollHead input cfg challengeId i)
  | some (.pollCall input cfg challengeId i) => some (s.pollOnce P input cfg challengeId i env)
  | some (.pollWrite _ status answer) => some (s.writePoll status answer)
  | some (.timeoutWrite _) => some s.writeTimeout

/-! ## The machine -/

/-- LogonUI calls the credential only while it exists, one call at a time. -/
def State.callable : Bool := s.created && s.pc = .idle

def step (P : Platform) (s : State) : Action → Option (State × List Event)
  | .setUsageScenario cpus cfg isRemote isUacPrompt =>
    if s.pc = .idle then some (s.setUsageScenario cpus cfg isRemote isUacPrompt) else none
  | .setStringValue field psz => if s.callable then some (s.setStringValue field psz) else none
  | .setSelected => if s.callable then some (s, [.autoLogon s.authenticated]) else none
  | .setDeselected => if s.callable then some s.setDeselected else none
  | .commandLinkClicked link => if s.callable then some (s.commandLinkClicked link) else none
  | .getSerialization packOk => if s.callable then some (s.getSerialization packOk) else none
  | .reportResult => if s.callable then some s.reportResult else none
  | .ui ok => s.uiStep P ok
  | .worker env => s.workerStep P env

def tile (P : Platform) : Machine State Action Event := ⟨step P⟩

end LigamentApps.CredentialProvider
