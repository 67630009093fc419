import LigamentApps.CredentialProvider.Ledger

/-!
# The tile agrees with its ledger

The invariant `Bound` of the tile's state and the ledger, and its preservation by the worker. Each
way in which the worker moves on, ends, approves or reports has its own lemma, with what the
invariant needs of the move as its hypotheses; `Bound.workerStep` assembles them. The calls of
LogonUI follow in `Calls.lean`. -/

namespace LigamentApps.CredentialProvider

/-- The job that `GetSerialization` starts in a mode. -/
def AuthFactorMode.job : AuthFactorMode → WorkerJob
  | .fido2 => .webAuthnBegin
  | .push => .startPush
  | .otp => .verifyOtp

/-- The LogonUI thread is in the second half of `ResetAuthState`. -/
def UiPc.resetting : UiPc → Bool
  | .stop (.reset _) | .join (.reset _) => true
  | _ => false

/-- What storing a value makes of the credentials is no danger to an approval of the present ones:
they stay the same, or there is no password to log on with. -/
def State.Harmless (s : State) (store : Store) : Prop :=
  (s.store store).creds = s.creds ∨ (s.store store).password = []

theorem State.Harmless.congr {s t : State} {store : Store} (h : s.Harmless store)
    (hu : t.username = s.username) (hd : t.domain = s.domain) (hp : t.password = s.password) :
    t.Harmless store := by
  unfold State.Harmless State.creds at *
  cases store with
  | nothing => exact .inl rfl
  | username | password =>
    simp only [State.store, hu, hd, hp] at h ⊢
    exact h

/-- Nothing that a logon could rest on is in the worker's result. -/
structure WorkerState.Undecided (w : WorkerState) : Prop where
  /-- No error is reported. -/
  beginError : w.beginError = []
  /-- The job is not over. -/
  done : w.done = false
  /-- No final status is reported. -/
  status : w.status = []

/-- What the worker knows at each point, for the job of the ledger; `job` is the job that waits in
`m_job`. -/
def WorkerPc.Ok (P : Platform) (job : WorkerJob) (j : JobRecord) : WorkerPc → Prop
  | .start => job = j.kind
  | .configure input | .gate input _ | .begin input _ => input.job = j.kind
  | .gateWrite input answer => input.job = j.kind ∧ (Approval.gate answer).Justified P
  | .beginWrite input _ result core relay =>
    input.job = j.kind ∧ j.request = some (core, relay) ∧ CallResult P input.job result core relay
  | .poll input _ _ _ | .pollCall input _ _ _ | .timeoutWrite input =>
    input.job = j.kind ∧ input.job ≠ .verifyOtp
  | .pollWrite input status answer =>
    input.job = j.kind ∧ input.job ≠ .verifyOtp ∧
      (status = wide "approved" → (Approval.poll answer).Justified P)
  | .exited => True

/-- What the LogonUI thread knows at each point inside a call. -/
def UiPc.Ok (s : State) (ledger : Ledger) : UiPc → Prop
  | .stop (.startJob job _) | .join (.startJob job _) =>
    s.authenticated = false ∧ s.thread = none ∧ s.password ≠ [] ∧ job = s.currentMode.job
  | .createThread _ =>
    s.authenticated = false ∧ s.thread = none ∧ s.password ≠ [] ∧ s.worker = {} ∧
      s.job.job = s.currentMode.job ∧ Credentials.mk s.job.user s.job.domain s.job.pass = s.creds
  | .stop (.reset store) => s.authenticated = true → s.Harmless store
  | .join (.reset store) =>
    (s.authenticated = true → s.Harmless store) ∧ s.worker.stop = true
  | .stop (.pack _) | .join (.pack .bypass) => False
  | .join (.pack .failOpen) =>
    s.password ≠ [] ∧ s.config.failClose = false ∧ s.worker.beginError = networkError ∧
      ∃ j, ledger = some j ∧ j.creds = s.creds ∧ j.Unanswered
  | .join (.pack .alreadyAuthenticated) | .join (.pack .approved) =>
    s.password ≠ [] ∧ s.authenticated = true
  | .recheck | .readWorker => s.password ≠ []
  | _ => True

/-- The tile and its ledger agree. -/
structure Bound (P : Platform) (s : State) (ledger : Ledger) : Prop where
  /-- Before the credential exists nothing has happened. -/
  fresh : s.created = false →
    s.pc = .idle ∧ s.authenticated = false ∧ s.thread = none ∧ ledger = none
  /-- A set flag stands for an approval of the credentials in the tile, or there is no password. -/
  flag : s.authenticated = true → s.password = [] ∨ ledger.Approved s.creds
  /-- Without a worker there is no result. -/
  unjoined : s.thread = none → s.worker.Undecided
  /-- A running worker works on the ledger's job, for the credentials in the tile, and nothing is
  decided yet. -/
  running : ∀ p, s.thread = some p → p ≠ .exited →
    s.authenticated = false ∧ s.worker.Undecided ∧
      ∃ j, ledger = some j ∧ (j.creds = s.creds ∨ s.password = []) ∧
        j.kind = s.currentMode.job ∧ j.approval = none ∧ p.Ok P s.job.job j
  /-- A result that says approved comes with the flag. -/
  decided : s.worker.done = true →
    s.worker.status = wide "approved" ∨ (s.currentMode = .otp ∧ s.worker.beginOk = true) →
    s.pc.resetting = false → s.authenticated = true
  /-- A start call that reports a missing answer had none, or one that claims so. -/
  failed : s.worker.beginError = networkError → s.currentMode ≠ .fido2 →
    s.password = [] ∨ ∃ j, ledger = some j ∧ j.creds = s.creds ∧ j.Unanswered
  /-- The LogonUI thread knows where it stands. -/
  call : s.pc.Ok s ledger

/-- What a part of a step, which computed a state and events, has to establish. -/
def Keeps (P : Platform) (ledger : Ledger) (r : State × List Event) : Prop :=
  (ledgerMonitor P).AcceptsFrom ledger r.2 ∧ Bound P r.1 (r.2.foldl Ledger.next ledger)

/-! ## The worker's steps -/

section Worker

variable {P : Platform} {s : State} {ledger : Ledger} {p : WorkerPc}

/-- While a worker runs, the LogonUI thread is at no point that rests on a result or on the absence
of a worker, so what it knows there survives a step of the worker. -/
theorem Bound.call_of_running (h : Bound P s ledger) (hp : s.thread = some p) (hne : p ≠ .exited)
    {t : State} {ledger' : Ledger} (hpc : t.pc = s.pc) (hpw : t.password = s.password)
    (hstop : s.worker.stop = true → t.worker.stop = true ∧ t.authenticated = s.authenticated)
    (hreset : ∀ store, s.pc = .stop (.reset store) → t.authenticated = true → t.Harmless store) :
    t.pc.Ok t ledger' := by
  obtain ⟨hauth, herr, -⟩ := h.running p hp hne
  have hlive : s.thread ≠ none := by simp [hp]
  have hcall := h.call
  rw [hpc]
  cases hui : s.pc with
  | idle => trivial
  | createThread =>
    rw [hui] at hcall
    exact absurd hcall.2.1 hlive
  | recheck | readWorker =>
    rw [hui] at hcall
    show t.password ≠ []
    rw [hpw]
    exact hcall
  | stop after =>
    rw [hui] at hcall
    cases after with
    | startJob => exact absurd hcall.2.1 hlive
    | reset store => exact hreset store hui
    | pack => exact hcall
    | switchToMode | refuse => trivial
  | join after =>
    rw [hui] at hcall
    cases after with
    | startJob => exact absurd hcall.2.1 hlive
    | reset =>
      obtain ⟨hstop', hauth'⟩ := hstop hcall.2
      exact ⟨fun ht => absurd ht (by simp [hauth', hauth]), hstop'⟩
    | switchToMode | refuse => trivial
    | pack branch =>
      cases branch with
      | bypass => exact hcall
      | alreadyAuthenticated | approved => exact absurd hcall.2 (by simp [hauth])
      | failOpen =>
        have hneterr := hcall.2.2.1
        rw [herr.beginError] at hneterr
        exact absurd hneterr.symm networkError_ne_nil

theorem Bound.move (h : Bound P s ledger) (hp : s.thread = some p) (hne : p ≠ .exited)
    (p' : WorkerPc) (job : JobInput) (hok : ∀ j, p.Ok P s.job.job j → p'.Ok P job.job j) :
    Keeps P ledger ({ s with thread := some p', job := job }, []) := by
  obtain ⟨hauth, herr, j, hj, hcreds, hkind, happ, hpc⟩ := h.running p hp hne
  refine ⟨trivial, ?_, h.flag, ?_, ?_, h.decided, h.failed, ?_⟩
  · intro hcr
    exact absurd (h.fresh hcr).2.2.1 (by simp [hp])
  · intro hnone
    simp at hnone
  · rintro q hq -
    cases hq
    exact ⟨hauth, herr, j, hj, hcreds, hkind, happ, hok j hpc⟩
  · exact h.call_of_running hp hne rfl rfl (fun hst => ⟨hst, rfl⟩)
      fun _ _ ht => absurd ht (by simp [hauth])

theorem Bound.exit (h : Bound P s ledger) (hp : s.thread = some p) (hne : p ≠ .exited) :
    Keeps P ledger ({ s with thread := some .exited }, []) := by
  obtain ⟨hauth, -⟩ := h.running p hp hne
  refine ⟨trivial, ?_, h.flag, ?_, ?_, h.decided, h.failed, ?_⟩
  · intro hcr
    exact absurd (h.fresh hcr).2.2.1 (by simp [hp])
  · intro hnone
    simp at hnone
  · rintro q hq hqne
    exact absurd (Option.some.inj hq).symm hqne
  · exact h.call_of_running hp hne rfl rfl (fun hst => ⟨hst, rfl⟩)
      fun _ _ ht => absurd ht (by simp [hauth])

theorem Bound.approve (h : Bound P s ledger) (hp : s.thread = some p) (hne : p ≠ .exited)
    (hrun : s.worker.stop = false)
    (hreset : ∀ store, s.pc = .stop (.reset store) → s.Harmless store)
    (why : Approval) (hwhy : why.Justified P) (hown : ∀ j, p.Ok P s.job.job j → j.Received why)
    (w : WorkerState) (herror : w.beginError = [])
    (number : WString) :
    Keeps P ledger
      ({ s with worker := w, authenticated := true, numberMatch := number,
                thread := some .exited }, [.approved why]) := by
  obtain ⟨hauth, -, j, hj, hcreds, -, -, hpc⟩ := h.running p hp hne
  refine ⟨⟨⟨hwhy, j, hj, hown j hpc⟩, trivial⟩, ?_, ?_, ?_, ?_, ?_, ?_, ?_⟩
  · intro hcr
    exact absurd (h.fresh hcr).2.2.1 (by simp [hp])
  · rintro -
    rcases hcreds with hcreds | hpw
    · exact .inr ⟨{ j with approval := some why }, by simp [Ledger.next, hj], hcreds, rfl⟩
    · exact .inl hpw
  · intro hnone
    simp at hnone
  · rintro q hq hqne
    exact absurd (Option.some.inj hq).symm hqne
  · intro _ _ _
    rfl
  · intro hnet
    rw [show w.beginError = networkError from hnet] at herror
    exact absurd herror networkError_ne_nil
  · exact h.call_of_running hp hne rfl rfl (fun hst => absurd hst (by simp [hrun]))
      fun store hpc _ => (hreset store hpc).congr rfl rfl rfl

theorem Bound.report (h : Bound P s ledger) (hp : s.thread = some p) (hne : p ≠ .exited)
    (hrun : s.worker.stop = false) (p' : WorkerPc) (w : WorkerState) (number : WString)
    (hok : p' = .exited ∨ w.Undecided ∧ ∀ j, p.Ok P s.job.job j → p'.Ok P s.job.job j)
    (hdecided : ∀ j, p.Ok P s.job.job j → j.kind = s.currentMode.job → w.done = true →
      ¬(w.status = wide "approved" ∨ (s.currentMode = .otp ∧ w.beginOk = true)))
    (hfailed : ∀ j, p.Ok P s.job.job j → j.kind = s.currentMode.job →
      w.beginError = networkError → s.currentMode ≠ .fido2 → j.Unanswered) :
    Keeps P ledger
      ({ s with worker := w, numberMatch := number, thread := some p' }, []) := by
  obtain ⟨hauth, -, j, hj, hcreds, hkind, happ, hpc⟩ := h.running p hp hne
  refine ⟨trivial, ?_, h.flag, ?_, ?_, ?_, ?_, ?_⟩
  · intro hcr
    exact absurd (h.fresh hcr).2.2.1 (by simp [hp])
  · intro hnone
    simp at hnone
  · rintro q hq hqne
    cases hq
    rcases hok with hex | ⟨herr, hok⟩
    · exact absurd hex hqne
    · exact ⟨hauth, herr, j, hj, hcreds, hkind, happ, hok j hpc⟩
  · intro hdone hres
    exact absurd hres (hdecided j hpc hkind hdone)
  · intro hnet hmode
    rcases hcreds with hcreds | hpw
    · exact .inr ⟨j, hj, hcreds, hfailed j hpc hkind hnet hmode⟩
    · exact .inl hpw
  · exact h.call_of_running hp hne rfl rfl (fun hst => absurd hst (by simp [hrun]))
      fun _ _ ht => absurd ht (by simp [hauth])

theorem Bound.request (h : Bound P s ledger) {input : JobInput} {cfg : Config}
    (hp : s.thread = some (.begin input cfg)) (env : WorkerEnv) :
    Keeps P ledger (s.beginJob P input cfg env) := by
  have hne : WorkerPc.begin input cfg ≠ .exited := by simp
  unfold State.beginJob
  split
  · exact h.exit hp hne
  · obtain ⟨hauth, herr, j, hj, hcreds, hkind, happ, hpc⟩ := h.running _ hp hne
    refine ⟨⟨trivial, trivial⟩, ?_, ?_, ?_, ?_, h.decided, ?_, ?_⟩
    · intro hcr
      exact absurd (h.fresh hcr).2.2.1 (by simp [hp])
    · intro ht
      simp [hauth] at ht
    · intro hnone
      simp at hnone
    · rintro q hq -
      cases hq
      exact ⟨hauth, herr, { j with request := some (startCall P cfg input.job env).2 },
        by simp [Ledger.next, hj], hcreds, hkind, happ, hpc, rfl, cfg, env, rfl⟩
    · intro hnet
      have hnil := herr.beginError
      rw [show s.worker.beginError = networkError from hnet] at hnil
      exact absurd hnil networkError_ne_nil
    · exact h.call_of_running hp hne rfl rfl (fun hst => ⟨hst, rfl⟩)
        fun _ _ ht => absurd ht (by simp [hauth])

/-- The next step of the worker sets the flag. -/
def State.approves (s : State) : Bool :=
  !s.worker.stop &&
    match s.thread with
    | some (.gateWrite ..) => true
    | some (.beginWrite input _ result _ _) => input.job = .verifyOtp && result.ok
    | some (.pollWrite _ status _) => status = wide "approved"
    | _ => false

theorem Bound.writeBegin (h : Bound P s ledger) {input : JobInput} {cfg : Config}
    {result : BeginResult} {core relay : Option HttpResponse}
    (hp : s.thread = some (.beginWrite input cfg result core relay))
    (hreset : ∀ store, s.pc = .stop (.reset store) → s.approves = true → s.Harmless store) :
    Keeps P ledger (s.writeBegin input cfg result core relay) := by
  have hne : WorkerPc.beginWrite input cfg result core relay ≠ .exited := by simp
  unfold State.writeBegin
  split
  · exact h.exit hp hne
  rename_i hrun
  have hrun' : s.worker.stop = false := by simpa using hrun
  obtain ⟨-, hund, -⟩ := h.running _ hp hne
  have hjob : s.currentMode ≠ .fido2 → input.job = s.currentMode.job →
      input.job = .startPush ∨ input.job = .verifyOtp := by
    intro hmode hj
    rw [hj]
    cases hm : s.currentMode with
    | fido2 => exact absurd hm hmode
    | push => exact .inl rfl
    | otp => exact .inr rfl
  -- Whatever is written, an error text `network_error` comes from an unanswered call.
  have hfailed : ∀ j, (WorkerPc.beginWrite input cfg result core relay).Ok P s.job.job j →
      j.kind = s.currentMode.job → result.error = networkError → s.currentMode ≠ .fido2 →
      j.Unanswered := by
    rintro j ⟨hij, hreq, hcall⟩ hkind hnet hmode
    rw [← hij] at hkind
    have hun := hcall.unanswered (hjob hmode hkind) hnet
    rw [hij] at hun
    refine ⟨?_, core, relay, hreq, hun⟩
    rw [← hij]
    rcases hjob hmode hkind with hpush | hotp
    · simp [hpush]
    · simp [hotp]
  split
  · rename_i hotp
    cases hok : result.ok with
    | true =>
      obtain ⟨-, -, j, -, -, -, -, -, -, hcall⟩ := h.running _ hp hne
      have happ := h.approve hp hne hrun'
        (fun store hpc => hreset store hpc (by simp [State.approves, hrun', hp, hotp, hok]))
        (.otp core relay) (hcall.confirmed hotp hok) (fun j hpc => hpc.2.1)
        { s.worker.begun result with done := true } (hcall.error_of_ok hok) s.numberMatch
      simpa using happ
    | false =>
      have hrep := h.report hp hne hrun' .exited { s.worker.begun result with done := true }
        s.numberMatch (.inl rfl) ?_ hfailed
      · simpa using hrep
      · rintro j - - - (hst | ⟨-, hbegin⟩)
        · cases hund.status.symm.trans hst
        · simp [WorkerState.begun, hok] at hbegin
  · rename_i hotp
    -- The job is no code, so the mode is not the code mode.
    have hmode : ∀ j, (WorkerPc.beginWrite input cfg result core relay).Ok P s.job.job j →
        j.kind = s.currentMode.job → s.currentMode ≠ .otp := by
      rintro j ⟨hij, -⟩ hkind hm
      exact hotp (by rw [hij, hkind, hm]; rfl)
    split
    · rename_i hok
      refine h.report hp hne hrun' (.poll input cfg result.challengeId 0)
        { s.worker.begun result with numberMatch := result.numberMatch } _ (.inr ⟨?_, ?_⟩) ?_ ?_
      · obtain ⟨-, -, j, -, -, -, -, -, -, hcall⟩ := h.running _ hp hne
        exact ⟨hcall.error_of_ok hok, hund.done, hund.status⟩
      · rintro j ⟨hij, -⟩
        exact ⟨hij, hotp⟩
      · rintro j - - hdone
        cases hund.done.symm.trans hdone
      · exact hfailed
    · refine h.report hp hne hrun' .exited (s.worker.begun result) s.numberMatch (.inl rfl) ?_
        hfailed
      rintro j - - hdone
      cases hund.done.symm.trans hdone

theorem Bound.writePoll (h : Bound P s ledger) {input : JobInput} {status : WString}
    {answer : Option HttpResponse} (hp : s.thread = some (.pollWrite input status answer))
    (hreset : ∀ store, s.pc = .stop (.reset store) → s.approves = true → s.Harmless store) :
    Keeps P ledger (s.writePoll status answer) := by
  have hne : WorkerPc.pollWrite input status answer ≠ .exited := by simp
  obtain ⟨-, hund, j, -, -, hkind, -, hij, hotp, hjust⟩ := h.running _ hp hne
  unfold State.writePoll
  split
  · exact h.exit hp hne
  rename_i hrun
  have hrun' : s.worker.stop = false := by simpa using hrun
  by_cases hst : status = wide "approved"
  · have happ := h.approve hp hne hrun'
      (fun store hpc => hreset store hpc (by simp [State.approves, hrun', hp, hst]))
      (.poll answer) (hjust hst) (fun _ _ => trivial) { s.worker with status := status, done := true }
      hund.beginError []
    simpa [hst] using happ
  · have hrep := h.report hp hne hrun' .exited { s.worker with status := status, done := true } []
      (.inl rfl) ?_ ?_
    · simpa [hst] using hrep
    · rintro j' ⟨hij', hotp', -⟩ hkind' - (hst' | ⟨hm, -⟩)
      · exact hst hst'
      · exact hotp' (by rw [hij', hkind', hm]; rfl)
    · rintro j' - - hnet
      exact absurd (hund.beginError.symm.trans hnet) networkError_ne_nil.symm

theorem Bound.writeTimeout (h : Bound P s ledger) {input : JobInput}
    (hp : s.thread = some (.timeoutWrite input)) : Keeps P ledger s.writeTimeout := by
  have hne : WorkerPc.timeoutWrite input ≠ .exited := by simp
  obtain ⟨-, hund, -⟩ := h.running _ hp hne
  unfold State.writeTimeout
  split
  · exact h.exit hp hne
  rename_i hrun
  refine h.report hp hne (by simpa using hrun) .exited
    { s.worker with status := wide "timeout", done := true } [] (.inl rfl) ?_ ?_
  · rintro j ⟨hij, hotp⟩ hkind - (hst | ⟨hm, -⟩)
    · have hdiff : wide "timeout" ≠ wide "approved" := by decide
      exact hdiff hst
    · exact hotp (by rw [hij, hkind, hm]; rfl)
  · rintro j - - hnet
    exact absurd (hund.beginError.symm.trans hnet) networkError_ne_nil.symm

theorem Bound.writeGate (h : Bound P s ledger) {input : JobInput} {answer : Option HttpResponse}
    (hp : s.thread = some (.gateWrite input answer))
    (hreset : ∀ store, s.pc = .stop (.reset store) → s.approves = true → s.Harmless store) :
    Keeps P ledger (s.writeGate answer) := by
  have hne : WorkerPc.gateWrite input answer ≠ .exited := by simp
  obtain ⟨-, hund, j, -, -, -, -, -, hjust⟩ := h.running _ hp hne
  unfold State.writeGate
  split
  · exact h.exit hp hne
  rename_i hrun
  have hrun' : s.worker.stop = false := by simpa using hrun
  exact h.approve hp hne hrun'
    (fun store hpc => hreset store hpc (by simp [State.approves, hrun', hp]))
    (.gate answer) hjust (fun _ _ => trivial) { s.worker with beginDone := true, beginOk := true, done := true }
    hund.beginError s.numberMatch

/-- Every step of the worker keeps the tile and its ledger in agreement, unless it writes an
approval while `ResetAuthState` has cleared the flag and not yet asked the worker to stop. -/
theorem Bound.workerStep (h : Bound P s ledger) {env : WorkerEnv} {t : State} {es : List Event}
    (hs : s.workerStep P env = some (t, es))
    (hreset : ∀ store, s.pc = .stop (.reset store) → s.approves = true → s.Harmless store) :
    Keeps P ledger (t, es) := by
  unfold State.workerStep at hs
  split at hs
  · cases hs
  · cases hs
  all_goals rename_i hp
  all_goals rw [← Option.some.inj hs]
  · exact h.move hp (by simp) _ _ fun j hj => hj
  · exact h.move hp (by simp) _ s.job fun j hj => hj
  · unfold State.checkGate
    split
    · rename_i hgate
      exact h.move hp (by simp) _ s.job fun j hj =>
        ⟨hj, checkRdpMfaSatisfied_satisfied hgate.2.2.2⟩
    · exact h.move hp (by simp) _ s.job fun j hj => hj
  · exact h.writeGate hp hreset
  · exact h.request hp env
  · exact h.writeBegin hp hreset
  · unfold State.pollHead
    split
    · split
      · exact h.exit hp (by simp)
      · exact h.move hp (by simp) _ s.job fun j hj => hj
    · exact h.move hp (by simp) _ s.job fun j hj => hj
  · unfold State.pollOnce
    split
    · rename_i status hpoll
      split
      · refine h.move hp (by simp) _ s.job fun j hj => ⟨hj.1, hj.2, ?_⟩
        rintro rfl
        obtain ⟨r, hr, hcode, hst⟩ := pollStatus_some hpoll
        exact ⟨r, hr, hcode, hst.symm⟩
      · exact h.move hp (by simp) _ s.job fun j hj => hj
    · exact h.move hp (by simp) _ s.job fun j hj => hj
  · exact h.writePoll hp hreset
  · exact h.writeTimeout hp

end Worker

end LigamentApps.CredentialProvider
