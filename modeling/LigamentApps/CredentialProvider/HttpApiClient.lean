import LigamentApps.CredentialProvider.Common

/-!
# The server calls of the credential provider

`HttpApiClient.cpp` and the gate of `rdp_gate.cpp`, as functions from what the network answered to
what the caller learns. An answer is `none` when no HTTP response arrived, which is what
`SendRequest` reports as failure; otherwise it is a status code and a body. The URL parser and the
UTF-8 decoder of Windows are the fields of `Platform`. -/

namespace LigamentApps.CredentialProvider

open LigamentApps.Text

/-- The scheme of a URL, as far as the provider tells schemes apart. -/
inductive UrlScheme
  | https
  | http
  | other
  deriving DecidableEq

/-- The functions of Windows that the provider relies on. -/
structure Platform where
  /-- `WinHttpCrackUrl`: the scheme and the host of a URL, when it is one. -/
  crackUrl : WString → Option (UrlScheme × WString)
  /-- `Utf8ToWide`, which is `MultiByteToWideChar` for UTF-8. -/
  utf8ToWide : Bytes → WString

structure HttpResponse where
  /-- The status code. -/
  statusCode : ℕ
  /-- The body, as far as it could be read. -/
  response : Bytes
  deriving DecidableEq

/-- The hosts an `HttpApiClient` sends to. -/
structure HttpApiClient where
  /-- `m_host`: the host of `ServerURL`, or empty when the URL was refused. -/
  host : WString
  /-- `m_relayHost`: the host of `FallbackRelayURL`, or empty when there is none. -/
  relayHost : WString

/-- `HttpApiClient::ParseUrl`: the host, for `https` or an allowed `http`. -/
def parseUrl (P : Platform) (url : WString) (allowHttp : Bool) : WString :=
  match P.crackUrl url with
  | some (.https, host) => host
  | some (.http, host) => if allowHttp then host else []
  | _ => []

/-- `HttpApiClient::ParseRelayUrl`: the host, for `https` only. -/
def parseRelayUrl (P : Platform) (url : WString) : WString :=
  match P.crackUrl url with
  | some (.https, host) => host
  | _ => []

/-- The constructor of `HttpApiClient` on the configuration a worker read. -/
def HttpApiClient.ofConfig (P : Platform) (cfg : Config) : HttpApiClient where
  host := parseUrl P cfg.serverUrl cfg.allowHttp
  relayHost := if cfg.fallbackRelayUrl = [] then [] else parseRelayUrl P cfg.fallbackRelayUrl

/-- `HttpApiClient::SendRequest`: without a host nothing is sent and nothing answers. -/
def HttpApiClient.sendRequest (client : HttpApiClient) (answer : Option HttpResponse) : Option HttpResponse :=
  if client.host = [] then none else answer

/-- `HttpApiClient::SendRelayRequest`. -/
def HttpApiClient.sendRelayRequest (client : HttpApiClient) (answer : Option HttpResponse) : Option HttpResponse :=
  if client.relayHost = [] then none else answer

/-- The error text that stands for a missing response. -/
def networkError : Bytes := ascii "network_error"

theorem networkError_ne_nil : networkError ≠ [] := by decide

variable (r : HttpResponse)

/-- The error text of a response: its field `error`, or `status_` and the code. -/
def serverError : Bytes :=
  if extractJsonString r.response (ascii "error") = [] then
    ascii "status_" ++ ascii (toString r.statusCode)
  else extractJsonString r.response (ascii "error")

/-- What a call that starts a job returns to the worker. -/
structure BeginResult where
  /-- Whether the call succeeded. -/
  ok : Bool
  /-- The challenge to poll. -/
  challengeId : WString
  /-- The number to show on the tile. -/
  numberMatch : WString
  /-- The error text. -/
  error : Bytes
  /-- `LastRetryAfterSec`. -/
  retryAfterSec : ℕ

/-- The result of a call that failed with an error text. -/
def BeginResult.failed (error : Bytes) (retryAfterSec : ℕ) : BeginResult :=
  ⟨false, [], [], error, retryAfterSec⟩

/-- A response starts a push: status 200 and a `challenge_id`. -/
def HttpResponse.startsPush : Bool :=
  r.statusCode == 200 && extractJsonString r.response (ascii "challenge_id") ≠ []

/-- `HttpApiClient::StartPush`. -/
def HttpApiClient.startPush (P : Platform) (client : HttpApiClient) (core : Option HttpResponse) : BeginResult :=
  match client.sendRequest core with
  | none => .failed networkError 0
  | some r =>
    if r.startsPush then
      ⟨true, P.utf8ToWide (extractJsonString r.response (ascii "challenge_id")),
        P.utf8ToWide (extractJsonString r.response (ascii "number_match")), [], 0⟩
    else .failed (serverError r) (extractJsonInt r.response (ascii "retry_after"))

/-- `HttpApiClient::WebAuthnBegin`: an answer with status 200 and no handle fails without an error
text. -/
def HttpApiClient.webAuthnBegin (P : Platform) (client : HttpApiClient)
    (core : Option HttpResponse) : BeginResult :=
  match client.sendRequest core with
  | none => .failed networkError 0
  | some r =>
    if r.statusCode = 200 then
      ⟨extractJsonString r.response (ascii "handle") ≠ [],
        P.utf8ToWide (extractJsonString r.response (ascii "challenge_id")), [], [], 0⟩
    else .failed (serverError r) (extractJsonInt r.response (ascii "retry_after"))

/-- A response confirms a code: status 200 and `ok` true. -/
def HttpResponse.confirms : Bool :=
  r.statusCode == 200 && extractJsonBool r.response (ascii "ok")

/-- The end of `HttpApiClient::VerifyCombined`, when Core did not confirm the code and no relay
decided. -/
def verifyCombinedCore (core : Option HttpResponse) : BeginResult :=
  match core with
  | none => .failed networkError 0
  | some r => .failed (serverError r) (extractJsonInt r.response (ascii "retry_after"))

/-- Core is unavailable for the fallback: no response, or status 500 and above. -/
def coreUnavailable : Option HttpResponse → Bool
  | none => true
  | some r => 500 ≤ r.statusCode

/-- The relay's answer, when `VerifyCombined` asks the relay at all: Core is unavailable and a
relay is configured. -/
def HttpApiClient.relayAnswer (client : HttpApiClient) (core relay : Option HttpResponse) : Option HttpResponse :=
  if coreUnavailable (client.sendRequest core) ∧ client.relayHost ≠ [] then
    client.sendRelayRequest relay
  else none

/-- `HttpApiClient::VerifyCombined`: Core decides, unless it is unavailable and a relay is
configured and answers. -/
def HttpApiClient.verifyCombined (client : HttpApiClient) (core relay : Option HttpResponse) : BeginResult :=
  if (client.sendRequest core).any HttpResponse.confirms then ⟨true, [], [], [], 0⟩
  else
    match client.relayAnswer core relay with
    | some r => if r.confirms then ⟨true, [], [], [], 0⟩ else .failed (serverError r) 0
    | none => verifyCombinedCore (client.sendRequest core)

/-- `HttpApiClient::PollStatus`: the status text of an answer with status 200 that has one. -/
def HttpApiClient.pollStatus (P : Platform) (client : HttpApiClient)
    (core : Option HttpResponse) : Option WString :=
  match client.sendRequest core with
  | none => none
  | some r =>
    if r.statusCode = 200 ∧ extractJsonString r.response (ascii "status") ≠ [] then
      some (P.utf8ToWide (extractJsonString r.response (ascii "status")))
    else none

/-- What the RDP gate asks of the machine and of the server. -/
structure GateEnv where
  /-- The computer's name. -/
  computerName : WString := []
  /-- The endpoint agent's key in the registry. -/
  agentKey : WString := []
  /-- The hexadecimal id of the logon session. -/
  logonId : Bytes := []
  /-- The SID of the user. -/
  userSid : Bytes := []
  /-- What the endpoint service wrote into the named pipe; empty when it did not answer. -/
  pipeAnswer : Bytes := []
  /-- The server's answer to `rdp-assert`. -/
  response : Option HttpResponse := none

structure RdpGateResult where
  /-- The server confirmed the assertion. -/
  satisfied : Bool
  /-- The server answered with status 200. -/
  responded : Bool
  /-- Why the gate decided so, for the log. -/
  note : Bytes

def gateNote (satisfied : Bool) : Bytes :=
  if satisfied then ascii "satisfied" else ascii "not_satisfied"

def checkRdpMfaSatisfied (P : Platform) (serverUrl : WString) (allowHttp : Bool) (env : GateEnv) : RdpGateResult :=
  if serverUrl = [] ∨ env.computerName = [] then ⟨false, false, ascii "not_configured"⟩
  else if env.agentKey = [] then ⟨false, false, ascii "no_agent_key"⟩
  else if env.logonId = [] then ⟨false, false, ascii "logon_id_failed"⟩
  else if env.userSid = [] then ⟨false, false, ascii "user_sid_failed"⟩
  else if extractJsonString env.pipeAnswer (ascii "nonce") = [] then
    ⟨false, false, ascii "no_assertion"⟩
  else
    match P.crackUrl serverUrl with
    | none => ⟨false, false, ascii "bad_url"⟩
    | some (scheme, _) =>
      if scheme = .https ∨ (scheme = .http ∧ allowHttp = true) then
        match env.response with
        | none => ⟨false, false, networkError⟩
        | some r =>
          if r.statusCode ≠ 200 then
            ⟨false, false, ascii "status_" ++ ascii (toString r.statusCode)⟩
          else
            ⟨extractJsonBool r.response (ascii "satisfied"), true,
              gateNote (extractJsonBool r.response (ascii "satisfied"))⟩
      else ⟨false, false, ascii "scheme_rejected"⟩

section Specs

variable {P : Platform} {client : HttpApiClient} {core relay : Option HttpResponse}

theorem serverError_eq_networkError (r : HttpResponse) (h : serverError r = networkError) :
    extractJsonString r.response (ascii "error") = networkError := by
  unfold serverError at h
  split at h
  · have hhead : (ascii "status_" ++ ascii (toString r.statusCode)).head? = networkError.head? := by
      rw [h]
    have hs : ascii "status_" = 0x73 :: ascii "tatus_" := by decide
    rw [hs, List.cons_append, List.head?_cons] at hhead
    cases hhead
  · exact h

theorem startPush_networkError (herr : (client.startPush P core).error = networkError) :
    client.sendRequest core = none ∨ ∃ r, client.sendRequest core = some r ∧
      r.startsPush = false ∧ extractJsonString r.response (ascii "error") = networkError := by
  unfold HttpApiClient.startPush at herr
  cases hr : client.sendRequest core with
  | none => exact .inl rfl
  | some r =>
    simp only [hr] at herr
    by_cases hstart : r.startsPush = true
    · rw [if_pos hstart] at herr
      exact absurd herr.symm networkError_ne_nil
    · rw [if_neg hstart] at herr
      exact .inr ⟨r, rfl, by simpa using hstart, serverError_eq_networkError r herr⟩

theorem verifyCombined_ok (h : (client.verifyCombined core relay).ok = true) :
    (∃ r, client.sendRequest core = some r ∧ r.confirms = true) ∨
      coreUnavailable (client.sendRequest core) = true ∧
        ∃ r, client.relayAnswer core relay = some r ∧ r.confirms = true := by
  unfold HttpApiClient.verifyCombined at h
  split at h
  · rename_i hany
    exact .inl ((Option.any_eq_true ..).mp hany)
  · right
    split at h
    · rename_i r hr
      split at h
      · rename_i hconf
        refine ⟨?_, r, hr, hconf⟩
        unfold HttpApiClient.relayAnswer at hr
        split at hr
        · rename_i hun
          exact hun.1
        · simp at hr
      · simp [BeginResult.failed] at h
    · cases hc : client.sendRequest core <;> simp [verifyCombinedCore, hc, BeginResult.failed] at h

/-- A code that is refused with the text `network_error` was answered by nobody, or the answer that
decided carries the text itself: the relay's, or Core's where the relay gave none. -/
theorem verifyCombined_networkError
    (herr : (client.verifyCombined core relay).error = networkError) :
    (client.relayAnswer core relay <|> client.sendRequest core) = none ∨
      ∃ r, (client.relayAnswer core relay <|> client.sendRequest core) = some r ∧
        r.confirms = false ∧ extractJsonString r.response (ascii "error") = networkError := by
  unfold HttpApiClient.verifyCombined at herr
  by_cases hany : (client.sendRequest core).any HttpResponse.confirms = true
  · rw [if_pos hany] at herr
    exact absurd herr.symm networkError_ne_nil
  · rw [if_neg hany] at herr
    cases hr : client.relayAnswer core relay with
    | some r =>
      simp only [hr] at herr
      by_cases hconf : r.confirms = true
      · simp only [if_pos hconf] at herr
        exact absurd herr.symm networkError_ne_nil
      · simp only [if_neg hconf] at herr
        exact .inr ⟨r, rfl, by simpa using hconf, serverError_eq_networkError r herr⟩
    | none =>
      simp only [hr] at herr
      cases hc : client.sendRequest core with
      | none => exact .inl rfl
      | some r =>
        rw [hc] at herr hany
        exact .inr ⟨r, rfl, by simpa using hany, serverError_eq_networkError r herr⟩

theorem checkRdpMfaSatisfied_satisfied {serverUrl : WString} {allowHttp : Bool} {env : GateEnv}
    (h : (checkRdpMfaSatisfied P serverUrl allowHttp env).satisfied = true) :
    ∃ r, env.response = some r ∧ r.statusCode = 200 ∧
      extractJsonBool r.response (ascii "satisfied") = true := by
  unfold checkRdpMfaSatisfied at h
  repeat' split at h
  all_goals try cases h
  rename_i r hr hcode
  exact ⟨r, hr, not_not.mp hcode, h⟩

theorem pollStatus_some {status : WString} (h : client.pollStatus P core = some status) :
    ∃ r, core = some r ∧ r.statusCode = 200 ∧
      status = P.utf8ToWide (extractJsonString r.response (ascii "status")) := by
  unfold HttpApiClient.pollStatus HttpApiClient.sendRequest at h
  by_cases hhost : client.host = []
  · simp [hhost] at h
  · rw [if_neg hhost] at h
    cases hc : core with
    | none => simp [hc] at h
    | some r =>
      simp only [hc] at h
      split at h
      · rename_i hok
        exact ⟨r, rfl, hok.1, (Option.some.inj h).symm⟩
      · simp at h

end Specs

end LigamentApps.CredentialProvider
