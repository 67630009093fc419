import LigamentApps.CredentialProvider.Frame

/-!
# The second factor as a ledger

What the tile is for, told by its events alone. The ledger keeps the current job: the credentials
it was started for, what its start call received, whether it was approved, and whether its
approval was used. A change of the usage scenario voids it. `secondFactor` and `transportOnly` are
the two monitors over the ledger: the first demands that credentials are handed out as approved
only under an unused approval of a job for the same credentials, the second that they are handed
out unapproved only where nobody answered and the configuration allows it. -/

namespace LigamentApps.CredentialProvider

/-- A job as the ledger knows it. -/
structure JobRecord where
  /-- The credentials the job was started for. -/
  creds : Credentials
  /-- The kind of the job. -/
  kind : WorkerJob
  /-- What its start call received from Core and from the relay, once it was made. -/
  request : Option (Option HttpResponse × Option HttpResponse)
  /-- Why the job was approved, once it was. -/
  approval : Option Approval
  /-- Credentials were handed out under the approval. -/
  served : Bool

/-- The current job of the current usage scenario. -/
abbrev Ledger := Option JobRecord

/-- The branches of `GetSerialization` that rest on the second factor. -/
def Branch.needsApproval : Branch → Bool
  | .alreadyAuthenticated | .approved => true
  | .bypass | .failOpen => false

variable (ledger : Ledger)

def Ledger.next : Event → Ledger
  | .scenario _ => none
  | .started creds job => some ⟨creds, job, none, none, false⟩
  | .request core relay => ledger.map fun j => { j with request := some (core, relay) }
  | .approved why => ledger.map fun j => { j with approval := some why }
  | .serialized _ branch _ finished =>
    if branch.needsApproval && finished then ledger.map fun j => { j with served := true }
    else ledger
  | _ => ledger

/-- The answers on which a code counts as confirmed: Core's confirmation, or the relay's where
Core was unavailable. -/
def CodeConfirmed (core relay : Option HttpResponse) : Prop :=
  (∃ r, core = some r ∧ r.confirms = true) ∨
    (coreUnavailable core = true ∧ ∃ r, relay = some r ∧ r.confirms = true)

/-- The server, or the RDP gate, said what the approval says. -/
def Approval.Justified (P : Platform) : Approval → Prop
  | .gate answer => ∃ r, answer = some r ∧ r.statusCode = 200 ∧
      extractJsonBool r.response (ascii "satisfied") = true
  | .otp core relay => CodeConfirmed core relay
  | .poll answer => ∃ r, answer = some r ∧ r.statusCode = 200 ∧
      P.utf8ToWide (extractJsonString r.response (ascii "status")) = wide "approved"

instance (core relay : Option HttpResponse) : Decidable (CodeConfirmed core relay) :=
  inferInstanceAs (Decidable (_ ∨ _))

instance (P : Platform) : ∀ why, Decidable (Approval.Justified P why)
  | .gate answer => inferInstanceAs (Decidable (∃ r, answer = some r ∧ r.statusCode = 200 ∧
      extractJsonBool r.response (ascii "satisfied") = true))
  | .otp core relay => inferInstanceAs (Decidable (CodeConfirmed core relay))
  | .poll answer => inferInstanceAs (Decidable (∃ r, answer = some r ∧ r.statusCode = 200 ∧
      P.utf8ToWide (extractJsonString r.response (ascii "status")) = wide "approved"))

/-- The ledger holds an approval for these credentials. -/
def Ledger.Approved (creds : Credentials) : Prop :=
  ∃ j, ledger = some j ∧ j.creds = creds ∧ j.approval.isSome = true

/-- The ledger holds an approval for these credentials that was not used yet. -/
def Ledger.Unserved (creds : Credentials) : Prop :=
  ∃ j, ledger = some j ∧ j.creds = creds ∧ j.approval.isSome = true ∧ j.served = false

instance (ledger : Ledger) (creds : Credentials) : Decidable (ledger.Unserved creds) :=
  inferInstanceAs (Decidable (∃ j, ledger = some j ∧ j.creds = creds ∧
    j.approval.isSome = true ∧ j.served = false))

/-- The answer that decides a start call: the relay's, or Core's where the relay gave none. -/
def decidingAnswer (core relay : Option HttpResponse) : Option HttpResponse := relay <|> core

/-- The answer is no success for a job of this kind, and carries the text that stands for a missing
answer as its own error text. -/
def HttpResponse.ClaimsNetworkError (r : HttpResponse) (kind : WorkerJob) : Prop :=
  (if kind = .verifyOtp then r.confirms else r.startsPush) = false ∧
    extractJsonString r.response (ascii "error") = networkError

/-- The job is no passkey job, and its start call was answered by nobody, or by an answer that
claims so. -/
def JobRecord.Unanswered (j : JobRecord) : Prop :=
  j.kind ≠ .webAuthnBegin ∧ ∃ core relay, j.request = some (core, relay) ∧
    (decidingAnswer core relay = none ∨
      ∃ r, decidingAnswer core relay = some r ∧ r.ClaimsNetworkError j.kind)

/-- An approval of a code rests on the answers to the job's own start call. -/
def JobRecord.Received (j : JobRecord) : Approval → Prop
  | .otp core relay => j.request = some (core, relay)
  | .gate _ | .poll _ => True

/-- What every event of the tile satisfies in well-behaved runs. -/
def Ledger.Ok (P : Platform) (ledger : Ledger) : Event → Prop
  | .approved why => why.Justified P ∧ ∃ j, ledger = some j ∧ j.Received why
  | .serialized creds branch failClose _ =>
    (branch.needsApproval = true → ledger.Approved creds) ∧
      (branch = .failOpen → failClose = false ∧
        ∃ j, ledger = some j ∧ j.creds = creds ∧ j.Unanswered)
  | _ => True

def ledgerMonitor (P : Platform) : Monitor Ledger Event := ⟨none, Ledger.next, Ledger.Ok P⟩

/-! ## What the server calls report -/

/-- What a start call of a job returned, for some configuration and some answers. -/
def CallResult (P : Platform) (job : WorkerJob) (result : BeginResult) (core relay : Option HttpResponse) : Prop :=
  ∃ cfg env, startCall P cfg job env = (result, core, relay)

section Calls

variable {P : Platform} {job : WorkerJob} {result : BeginResult} {core relay : Option HttpResponse}

theorem CallResult.confirmed (h : CallResult P job result core relay) (hjob : job = .verifyOtp)
    (hok : result.ok = true) : CodeConfirmed core relay := by
  obtain ⟨cfg, env, hcall⟩ := h
  subst hjob
  simp only [startCall, Prod.mk.injEq] at hcall
  obtain ⟨rfl, rfl, rfl⟩ := hcall
  exact verifyCombined_ok hok

theorem CallResult.error_of_ok (h : CallResult P job result core relay) (hok : result.ok = true) :
    result.error = [] := by
  obtain ⟨cfg, env, hcall⟩ := h
  have hres : result = (startCall P cfg job env).1 := by rw [hcall]
  rw [hres] at hok ⊢
  cases job with
  | none => rfl
  | startPush =>
    simp only [startCall, HttpApiClient.startPush] at hok ⊢
    split at hok
    · cases hok
    · split at hok
      · rename_i hstart
        simp only [hstart, if_true]
      · cases hok
  | webAuthnBegin =>
    simp only [startCall, HttpApiClient.webAuthnBegin] at hok ⊢
    split at hok
    · cases hok
    · split at hok
      · rename_i hcode
        simp only [hcode, if_true]
      · cases hok
  | verifyOtp =>
    simp only [startCall, HttpApiClient.verifyCombined] at hok ⊢
    split at hok
    · rename_i hany
      simp only [hany, if_true]
    · rename_i hany
      simp only [hany]
      split at hok
      · split at hok
        · rename_i hconf
          simp only [hconf, if_true]
          rfl
        · cases hok
      · unfold verifyCombinedCore at hok
        split at hok <;> cases hok

theorem CallResult.unanswered (h : CallResult P job result core relay)
    (hjob : job = .startPush ∨ job = .verifyOtp) (herr : result.error = networkError) :
    decidingAnswer core relay = none ∨
      ∃ r, decidingAnswer core relay = some r ∧ r.ClaimsNetworkError job := by
  obtain ⟨cfg, env, hcall⟩ := h
  rcases hjob with rfl | rfl
  · simp only [startCall, Prod.mk.injEq] at hcall
    obtain ⟨rfl, rfl, rfl⟩ := hcall
    exact startPush_networkError herr
  · simp only [startCall, Prod.mk.injEq] at hcall
    obtain ⟨rfl, rfl, rfl⟩ := hcall
    exact verifyCombined_networkError herr

end Calls

end LigamentApps.CredentialProvider
