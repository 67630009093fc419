import LigamentApps.CredentialProvider.Invariant

/-!
# The calls of LogonUI keep the ledger

`Bound` is preserved by every part of a call, and `bound_step` by every step of the tile that is
`Careful`: that lets no approval, and no job that can still be approved, pass to other credentials
or to another usage scenario. -/

namespace LigamentApps.CredentialProvider

section Calls

variable {P : Platform} {s : State} {ledger : Ledger}

/-- `t` differs from `s` at most in what the invariant does not look at, and in its place in the
call. -/
structure SameFactor (s t : State) : Prop where
  /-- The credential exists in both or in neither. -/
  created : t.created = s.created
  /-- The configuration is the same. -/
  config : t.config = s.config
  /-- The mode is the same. -/
  currentMode : t.currentMode = s.currentMode
  /-- The credentials are the same. -/
  creds : t.creds = s.creds
  /-- The flag is the same. -/
  authenticated : t.authenticated = s.authenticated
  /-- The worker's result is the same. -/
  worker : t.worker = s.worker
  /-- The job is the same. -/
  job : t.job = s.job
  /-- The thread is the same. -/
  thread : t.thread = s.thread

theorem Bound.place (h : Bound P s ledger) {t : State} (hst : SameFactor s t)
    (hcr : s.created = true) (hreset : s.pc.resetting = false) (hcall : t.pc.Ok t ledger) :
    Bound P t ledger := by
  have hpw : t.password = s.password := congrArg Credentials.password hst.creds
  refine ⟨?_, ?_, ?_, ?_, ?_, ?_, hcall⟩
  · intro hf
    exact absurd (hst.created.symm.trans hf) (by simp [hcr])
  · rw [hst.authenticated, hpw, hst.creds]
    exact h.flag
  · rw [hst.thread, hst.worker]
    exact h.unjoined
  · rw [hst.thread, hst.authenticated, hst.worker, hst.creds, hst.currentMode, hst.job, hpw]
    exact h.running
  · rw [hst.worker, hst.currentMode, hst.authenticated]
    exact fun hdone hres _ => h.decided hdone hres hreset
  · rw [hst.worker, hst.currentMode, hst.creds, hpw]
    exact h.failed

theorem Bound.created (h : Bound P s ledger) (hpc : s.pc ≠ .idle) : s.created = true := by
  by_contra hcr
  exact hpc (h.fresh (by simpa using hcr)).1

theorem Bound.serve (h : Bound P s ledger) : Bound P s (ledger.map fun j => { j with served := true }) := by
  have happ : ∀ {creds}, ledger.Approved creds →
      Ledger.Approved (ledger.map fun j => { j with served := true }) creds := by
    rintro creds ⟨j, rfl, hcreds, hj⟩
    exact ⟨_, rfl, hcreds, hj⟩
  have hun : ∀ {creds}, (∃ j, ledger = some j ∧ j.creds = creds ∧ j.Unanswered) →
      ∃ j, (ledger.map fun j => { j with served := true }) = some j ∧ j.creds = creds ∧
        j.Unanswered := by
    rintro creds ⟨j, rfl, hcreds, hj⟩
    exact ⟨_, rfl, hcreds, hj⟩
  refine ⟨?_, fun ha => (h.flag ha).imp_right happ, h.unjoined, ?_, h.decided,
    fun hnet hmode => (h.failed hnet hmode).imp_right hun, ?_⟩
  · intro hcr
    obtain ⟨hpc, ha, ht, hl⟩ := h.fresh hcr
    exact ⟨hpc, ha, ht, by rw [hl]; rfl⟩
  · intro p hp hne
    obtain ⟨ha, hund, j, rfl, hcreds, hkind, hj, hok⟩ := h.running p hp hne
    exact ⟨ha, hund, { j with served := true }, rfl, hcreds, hkind, hj, by cases p <;> exact hok⟩
  · have hcall := h.call
    cases hpc : s.pc with
    | join after =>
      rw [hpc] at hcall
      cases after with
      | pack branch =>
        cases branch with
        | failOpen => exact ⟨hcall.1, hcall.2.1, hcall.2.2.1, hun hcall.2.2.2⟩
        | _ => exact hcall
      | _ => exact hcall
    | stop after =>
      rw [hpc] at hcall
      cases after <;> exact hcall
    | _ => rw [hpc] at hcall; exact hcall

theorem Bound.ofJoined (hcr : s.created = true)
    (hflag : s.authenticated = true → s.password = [] ∨ ledger.Approved s.creds)
    (hthread : s.thread = none) (hworker : s.worker.Undecided) (hcall : s.pc.Ok s ledger) :
    Bound P s ledger := by
  refine ⟨?_, hflag, fun _ => hworker, ?_, ?_, ?_, hcall⟩
  · intro hf
    simp [hcr] at hf
  · intro p hp
    simp [hthread] at hp
  · intro hdone
    cases hworker.done.symm.trans hdone
  · intro hnet
    exact absurd (hworker.beginError.symm.trans hnet) networkError_ne_nil.symm

theorem undecided_default : ({} : WorkerState).Undecided := ⟨rfl, rfl, rfl⟩

theorem Bound.idle (h : Bound P s ledger) (hcr : s.created = true)
    (hreset : s.pc.resetting = false) : Bound P { s with pc := .idle } ledger :=
  h.place ⟨rfl, rfl, rfl, rfl, rfl, rfl, rfl, rfl⟩ hcr hreset trivial

theorem Bound.goto (h : Bound P { s with pc := .idle } ledger) (hcr : s.created = true) (pc : UiPc)
    (hok : pc.Ok { s with pc := pc } ledger) : Keeps P ledger ({ s with pc := pc }, []) :=
  ⟨trivial, h.place ⟨rfl, rfl, rfl, rfl, rfl, rfl, rfl, rfl⟩ hcr rfl hok⟩

theorem Bound.giveUp (h : Bound P { s with pc := .idle } ledger) (result : SerializationResult) :
    Keeps P ledger (s.giveUp result) :=
  ⟨⟨trivial, trivial⟩, h⟩

theorem Bound.packAndFinish (h : Bound P { s with pc := .idle } ledger) (branch : Branch)
    (ok : Bool) (happroved : branch.needsApproval = true → ledger.Approved s.creds)
    (hopen : branch = .failOpen → s.config.failClose = false ∧
      ∃ j, ledger = some j ∧ j.creds = s.creds ∧ j.Unanswered) :
    Keeps P ledger (s.packAndFinish branch ok) := by
  refine ⟨⟨⟨happroved, hopen⟩, trivial, trivial⟩, ?_⟩
  show Bound P { s with pc := .idle } (if _ then _ else ledger)
  split
  · exact h.serve
  · exact h

theorem Bound.afterStart (h : Bound P { s with pc := .idle } ledger) (hcr : s.created = true)
    (caller : StartCaller) (started : Bool) (hpw : caller = .serializeFido2 → s.password ≠ []) :
    Keeps P ledger (s.afterStart caller started) := by
  cases caller with
  | serialize => exact h.giveUp _
  | serializeFido2 => exact h.goto hcr .recheck (hpw rfl)
  | switchToMode => exact h.goto hcr .idle trivial

theorem Bound.triggerFIDO2Auth (h : Bound P { s with pc := .idle } ledger)
    (hcr : s.created = true) (caller : StartCaller) (hmode : s.currentMode = .fido2)
    (hthread : s.thread = none) (hpw : caller = .serializeFido2 → s.password ≠ []) :
    Keeps P ledger (s.triggerFIDO2Auth caller) := by
  unfold State.triggerFIDO2Auth
  split
  · exact h.afterStart hcr caller true hpw
  · rename_i hcond
    rw [not_or, not_or] at hcond
    obtain ⟨-, hpw', hauth⟩ := hcond
    exact h.goto hcr _ ⟨by simpa using hauth, hthread, hpw', by rw [hmode]; rfl⟩

theorem Bound.getSerialization (h : Bound P s ledger) (hcr : s.created = true)
    (hidle : s.pc = .idle) (packOk : Bool) : Keeps P ledger (s.getSerialization packOk) := by
  have hb := h.idle hcr (by rw [hidle]; rfl)
  unfold State.getSerialization
  split
  · exact hb.giveUp _
  rename_i hcreds
  have hpw : s.password ≠ [] := (not_or.mp hcreds).2
  split
  · exact hb.packAndFinish _ _ (by simp [Branch.needsApproval]) (by simp)
  split
  · rename_i hauth
    exact hb.goto hcr _ ⟨hpw, hauth⟩
  rename_i hauth
  have hauth' : s.authenticated = false := by simpa using hauth
  split
  · rename_i hmode
    split
    · exact hb.giveUp _
    split
    · rename_i hnone
      exact hb.goto hcr _ ⟨hauth', by simpa using hnone, hpw, by rw [hmode]; rfl⟩
    · exact hb.goto hcr _ hpw
  · rename_i hmode
    split
    · rename_i hnone
      exact hb.goto hcr _ ⟨hauth', by simpa using hnone, hpw, by rw [hmode]; rfl⟩
    · exact hb.goto hcr _ hpw
  · rename_i hmode
    split
    · rename_i hnone
      exact hb.triggerFIDO2Auth hcr _ hmode (by simpa using hnone) fun _ => hpw
    · exact hb.goto hcr _ hpw

theorem applyBegin_same (s : State) : SameFactor s s.applyBegin := by
  unfold State.applyBegin
  split <;> exact ⟨rfl, rfl, rfl, rfl, rfl, rfl, rfl, rfl⟩

theorem Bound.decidePoll (h : Bound P { s with pc := .idle } ledger) (hcr : s.created = true)
    (hpw : s.password ≠ []) (declined : WString → SerializationResult) :
    Keeps P ledger (s.decidePoll declined) := by
  unfold State.decidePoll
  split
  · exact h.giveUp _
  rename_i hdone
  split
  · rename_i happ
    refine h.goto hcr _ ⟨hpw, ?_⟩
    rcases happ with hst | ha
    · exact h.decided (by simpa using hdone) (.inl hst) rfl
    · exact ha
  · exact h.goto hcr _ trivial

theorem Bound.readWorker (h : Bound P s ledger) (hread : s.pc = .readWorker) : Keeps P ledger (s.readWorker P) := by
  have hcr : s.created = true := h.created (by simp [hread])
  have hreset : s.pc.resetting = false := by rw [hread]; rfl
  have hpw : s.password ≠ [] := by
    have hcall := h.call
    rw [hread] at hcall
    exact hcall
  have hb := h.idle hcr hreset
  have hpoll : ∀ declined, Keeps P ledger (s.applyBegin.decidePoll declined) := by
    intro declined
    have hsame := applyBegin_same s
    refine Bound.decidePoll ?_ (hsame.created.trans hcr) ?_ declined
    · exact h.place ⟨hsame.created, hsame.config, hsame.currentMode, hsame.creds,
        hsame.authenticated, hsame.worker, hsame.job, hsame.thread⟩ hcr hreset trivial
    · rw [show s.applyBegin.password = s.password from congrArg Credentials.password hsame.creds]
      exact hpw
  have hopen : s.config.failClose = false → s.worker.beginError = networkError →
      s.currentMode ≠ .fido2 → Keeps P ledger ({ s with pc := .join (.pack .failOpen) }, []) := by
    intro hfc hnet hmode
    rcases h.failed hnet hmode with hnil | hun
    · exact absurd hnil hpw
    · exact hb.goto hcr _ ⟨hpw, hfc, hnet, hun⟩
  unfold State.readWorker
  split
  · rename_i hmode
    unfold State.readOtp
    split
    · exact hb.giveUp _
    rename_i hdone
    split
    · rename_i hbegin
      rw [Bool.and_eq_true] at hbegin
      exact hb.goto hcr _ ⟨hpw, h.decided (by simpa using hdone) (.inr ⟨hmode, hbegin.2⟩) hreset⟩
    split
    · rename_i hcond
      exact hopen hcond.1 hcond.2 (by simp [hmode])
    · exact hb.goto hcr _ trivial
  · rename_i hmode
    unfold State.readPush
    split
    · split
      · rename_i hcond
        exact hopen hcond.1 hcond.2 (by simp [hmode])
      · exact hb.goto hcr _ trivial
    · exact hpoll _
  · unfold State.readFido2
    split
    · exact hb.goto hcr _ trivial
    · exact hpoll _

theorem Bound.afterJoin (h : Bound P s ledger) {after : AfterJoin} (hpc : s.pc = .join after)
    (ok : Bool) : Keeps P ledger (s.joined.afterJoin ok after) := by
  have hcr : s.created = true := h.created (by simp [hpc])
  have hcall := h.call
  rw [hpc] at hcall
  cases after with
  | reset store =>
    refine ⟨trivial, .ofJoined ?_ ?_ ?_ ?_ trivial⟩
    · cases store <;> exact hcr
    · intro ha
      have ha' : s.authenticated = true := by cases store <;> exact ha
      rcases hcall.1 ha' with hsame | hnil
      · rcases h.flag ha' with hnil | happ
        · refine .inl ?_
          have hpw := congrArg Credentials.password hsame
          cases store <;> exact hpw.trans hnil
        · refine .inr ?_
          rw [← hsame] at happ
          cases store <;> exact happ
      · refine .inl ?_
        cases store <;> exact hnil
    · cases store <;> rfl
    · cases store <;> exact undecided_default
  | switchToMode mode =>
    show Keeps P ledger (s.joined.enterMode mode)
    unfold State.enterMode
    generalize hu : ({ s.joined with currentMode := mode, numberMatch := [] } : State) = u
    have hb : Bound P { u with pc := .idle } ledger := by
      subst hu
      exact .ofJoined hcr h.flag rfl undecided_default trivial
    have hucr : u.created = true := by rw [← hu]; exact hcr
    have huthread : u.thread = none := by rw [← hu]; rfl
    have humode : u.currentMode = mode := by rw [← hu]
    dsimp only
    split
    · rename_i hmode
      exact hb.triggerFIDO2Auth hucr .switchToMode (humode.trans hmode.1) huthread (by simp)
    · exact hb.goto hucr .idle trivial
  | startJob =>
    obtain ⟨hauth, hthread, hpw, hjob⟩ := hcall
    refine ⟨trivial, .ofJoined hcr ?_ rfl undecided_default ?_⟩
    · intro ha
      cases hauth.symm.trans ha
    · exact ⟨hauth, rfl, hpw, rfl, hjob, rfl⟩
  | pack branch =>
    show Keeps P ledger (State.packAndFinish _ branch ok)
    generalize hu : State.mk .. = u
    have hidle : (u.authenticated = true → s.password = [] ∨ ledger.Approved s.creds) →
        Bound P { u with pc := .idle } ledger := by
      subst hu
      exact fun ha => Bound.ofJoined hcr ha rfl undecided_default trivial
    have hucreds : u.creds = s.creds := by rw [← hu]; rfl
    have hucfg : u.config = s.config := by rw [← hu]; rfl
    cases branch with
    | bypass => exact absurd hcall id
    | alreadyAuthenticated | approved =>
      have happ := (h.flag hcall.2).resolve_left hcall.1
      exact (hidle fun _ => .inr happ).packAndFinish _ ok (fun _ => hucreds ▸ happ) (by simp)
    | failOpen =>
      obtain ⟨-, hfc, -, hun⟩ := hcall
      refine (hidle fun ha => h.flag ?_).packAndFinish _ ok (by simp [Branch.needsApproval])
        fun _ => ⟨hucfg ▸ hfc, hucreds ▸ hun⟩
      rw [← hu] at ha
      simpa [State.joined] using ha
  | refuse result =>
    apply Bound.giveUp
    exact Bound.ofJoined hcr h.flag rfl undecided_default trivial

theorem Bound.createThread (h : Bound P s ledger) {caller : StartCaller}
    (hpc : s.pc = .createThread caller) (ok : Bool) :
    Keeps P ledger (s.createThread caller ok) := by
  have hcr : s.created = true := h.created (by simp [hpc])
  have hcall := h.call
  rw [hpc] at hcall
  obtain ⟨hauth, hthread, hpw, hworker, hjob, hcreds⟩ := hcall
  have hund : s.worker.Undecided := hworker ▸ undecided_default
  unfold State.createThread
  split
  · have hb : Bound P { s with thread := some .start, pc := .idle }
        (some ⟨s.creds, s.currentMode.job, none, none, false⟩) := by
      refine ⟨?_, ?_, ?_, ?_, ?_, ?_, trivial⟩
      · intro hf
        cases hcr.symm.trans hf
      · intro ha
        cases hauth.symm.trans ha
      · intro hnone
        simp at hnone
      · rintro p hp -
        cases hp
        exact ⟨hauth, hund, _, rfl, .inl rfl, rfl, rfl, hjob⟩
      · intro hdone
        cases hund.done.symm.trans hdone
      · intro hnet
        exact absurd (hund.beginError.symm.trans hnet) networkError_ne_nil.symm
    obtain ⟨hacc, hb'⟩ := Bound.afterStart (s := { s with thread := some .start }) hb hcr caller
      true fun _ => hpw
    rw [← hcreds, ← hjob] at hacc hb'
    exact ⟨⟨trivial, hacc⟩, hb'⟩
  · have hb : Bound P { s with job := .empty, worker := {}, pc := .idle } ledger :=
      .ofJoined hcr (fun ha => absurd (hauth.symm.trans ha) (by simp)) hthread
        undecided_default trivial
    exact Bound.afterStart (s := { s with job := JobInput.empty, worker := {} }) hb hcr caller false
      fun _ => hpw

theorem Bound.askStop (h : Bound P s ledger) {after : AfterJoin} (hpc : s.pc = .stop after) : Keeps P ledger
      ({ s with worker := { s.worker with stop := true }, pc := .join after }, []) := by
  have hcr : s.created = true := h.created (by simp [hpc])
  have hcall := h.call
  rw [hpc] at hcall
  refine ⟨trivial, ?_, h.flag, ?_, ?_, ?_, h.failed, ?_⟩
  · intro hf
    cases hcr.symm.trans hf
  · intro hnone
    obtain ⟨herr, hdone, hst⟩ := h.unjoined hnone
    exact ⟨herr, hdone, hst⟩
  · intro p hp hne
    obtain ⟨hauth, ⟨herr, hdone, hst⟩, hj⟩ := h.running p hp hne
    exact ⟨hauth, ⟨herr, hdone, hst⟩, hj⟩
  · intro hdone hres hreset
    refine h.decided hdone hres ?_
    rw [hpc]
    cases after <;> exact hreset
  · cases after with
    | reset =>
      exact ⟨fun ha => .congr (hcall ha) rfl rfl rfl, rfl⟩
    | pack => exact absurd hcall id
    | startJob => exact hcall
    | switchToMode | refuse => trivial

theorem Bound.uiStep (h : Bound P s ledger) {ok : Bool} {t : State} {es : List Event}
    (hs : s.uiStep P ok = some (t, es)) : Keeps P ledger (t, es) := by
  unfold State.uiStep at hs
  split at hs
  · cases hs
  · rename_i after hpc
    rw [← Option.some.inj hs]
    exact h.askStop hpc
  · rename_i after hpc
    split at hs
    · rw [← Option.some.inj hs]
      exact h.afterJoin hpc ok
    · rw [← Option.some.inj hs]
      exact h.afterJoin hpc ok
    · cases hs
  · rename_i caller hpc
    rw [← Option.some.inj hs]
    exact h.createThread hpc ok
  · rename_i hpc
    rw [← Option.some.inj hs]
    have hcr : s.created = true := h.created (by simp [hpc])
    have hb := h.idle hcr (by rw [hpc]; rfl)
    have hpw := h.call
    rw [hpc] at hpw
    split
    · rename_i hauth
      have happ := (h.flag hauth).resolve_left hpw
      exact hb.packAndFinish _ ok (fun _ => happ) (by simp)
    · exact hb.giveUp _
  · rename_i hpc
    rw [← Option.some.inj hs]
    exact h.readWorker hpc

theorem Bound.resetAuthState (h : Bound P s ledger) (hcr : s.created = true) (store : Store) :
    Keeps P ledger (s.resetAuthState store) := by
  refine ⟨⟨trivial, trivial⟩, ?_, ?_, h.unjoined, ?_, ?_, h.failed, ?_⟩
  · intro hf
    cases hcr.symm.trans hf
  · intro ha
    simp [State.resetAuthState] at ha
  · intro p hp hne
    obtain ⟨-, hrest⟩ := h.running p hp hne
    exact ⟨rfl, hrest⟩
  · intro _ _ hreset
    simp [State.resetAuthState, UiPc.resetting] at hreset
  · intro ha
    simp [State.resetAuthState] at ha

theorem Bound.dropPassword (h : Bound P s ledger) (hidle : s.pc = .idle) (otp : WString) :
    Bound P { s with password := [], otpCode := otp } ledger := by
  refine ⟨h.fresh, fun _ => .inl rfl, h.unjoined, ?_, h.decided, fun _ _ => .inl rfl, ?_⟩
  · intro p hp hne
    obtain ⟨ha, hund, j, hj, -, hrest⟩ := h.running p hp hne
    exact ⟨ha, hund, j, hj, .inr rfl, hrest⟩
  · rw [show ({ s with password := [], otpCode := otp } : State).pc = .idle from hidle]
    trivial

end Calls

/-- The value to be stored, while `ResetAuthState` has cleared the flag and not yet asked the worker
to stop. -/
def UiPc.clearing : UiPc → Option Store
  | .stop (.reset store) => some store
  | _ => none

/-- A step that lets no approval, and no job that can still be approved, pass to other credentials
or to another usage scenario. -/
def Careful (s : State) : Action → Prop
  -- No approval is written between the clearing of the flag and the request to stop, unless the
  -- value to be stored leaves the credentials as they are or there is no password.
  | .worker _ => ∀ store, s.pc.clearing = some store → s.approves = true → s.Harmless store
  -- A name equal to the stored one up to case splits into exactly the stored user and domain, or
  -- there is neither an approval nor a worker.
  | .setStringValue .username raw =>
    WcsICmpEq raw s.prevRaw →
      splitUserName raw = (s.username, s.domain) ∨
        (s.authenticated = false ∧ s.thread.isNone = true)
  -- The scenario changes only when there is neither an approval nor a worker.
  | .setUsageScenario cpus .. =>
    s.scenario ≠ cpus → s.authenticated = false ∧ s.thread.isNone = true
  | _ => True

instance (s : State) (store : Store) : Decidable (s.Harmless store) :=
  inferInstanceAs (Decidable (_ ∨ _))

instance (s : State) : ∀ a, Decidable (Careful s a)
  | .worker _ => inferInstanceAs (Decidable (∀ store, s.pc.clearing = some store →
      s.approves = true → s.Harmless store))
  | .setStringValue .username raw => inferInstanceAs (Decidable (WcsICmpEq raw s.prevRaw → _ ∨ _))
  | .setUsageScenario cpus .. => inferInstanceAs (Decidable (s.scenario ≠ cpus → _ ∧ _))
  | .setStringValue .password _ | .setStringValue .otpCode _ | .setSelected | .setDeselected
  | .commandLinkClicked _ | .getSerialization _ | .reportResult | .ui _ => .isTrue trivial

section Steps

variable {P : Platform} {s : State} {ledger : Ledger}

theorem Bound.setStringValue (h : Bound P s ledger) (hcr : s.created = true) (hidle : s.pc = .idle)
    (field : FieldId) (psz : WString)
    (hname : field = .username → WcsICmpEq psz s.prevRaw →
      splitUserName psz = (s.username, s.domain) ∨ (s.authenticated = false ∧ s.thread = none)) :
    Keeps P ledger (s.setStringValue field psz) := by
  have hreset : s.pc.resetting = false := by rw [hidle]; rfl
  have hpcOk : ∀ t : State, t.pc = s.pc → t.pc.Ok t ledger := by
    intro t ht
    rw [ht, hidle]
    trivial
  cases field with
  | otpCode =>
    exact ⟨trivial, h.place ⟨rfl, rfl, rfl, rfl, rfl, rfl, rfl, rfl⟩ hcr hreset (hpcOk _ rfl)⟩
  | password =>
    unfold State.setStringValue
    dsimp only
    split
    · rename_i heq
      refine ⟨trivial, h.place ⟨rfl, rfl, rfl, ?_, rfl, rfl, rfl, rfl⟩ hcr hreset (hpcOk _ rfl)⟩
      rw [← heq]
      rfl
    · exact h.resetAuthState hcr _
  | username =>
    unfold State.setStringValue
    dsimp only
    split
    · rename_i heq
      rcases hname rfl heq with hsplit | ⟨hauth, hthread⟩
      · refine ⟨trivial, h.place ⟨rfl, rfl, rfl, ?_, rfl, rfl, rfl, rfl⟩ hcr hreset (hpcOk _ rfl)⟩
        simp [State.creds, State.store, hsplit]
      · refine ⟨trivial, .ofJoined hcr ?_ hthread (h.unjoined hthread) (hpcOk _ rfl)⟩
        intro ha
        cases hauth.symm.trans ha
    · exact h.resetAuthState hcr _

theorem Bound.void (hidle : s.pc = .idle) (hauth : s.authenticated = false)
    (hthread : s.thread = none) (hworker : s.worker.Undecided) : Bound P s none := by
  refine ⟨fun _ => ⟨hidle, hauth, hthread, rfl⟩, ?_, fun _ => hworker, ?_, ?_, ?_, ?_⟩
  · intro ha
    cases hauth.symm.trans ha
  · intro p hp
    simp [hthread] at hp
  · intro hdone
    cases hworker.done.symm.trans hdone
  · intro hnet
    exact absurd (hworker.beginError.symm.trans hnet) networkError_ne_nil.symm
  · rw [hidle]
    trivial

theorem Bound.setUsageScenario (h : Bound P s ledger) (hidle : s.pc = .idle)
    (cpus : UsageScenario) (cfg : Config) (isRemote isUacPrompt : Bool)
    (hscenario : s.scenario ≠ cpus → s.authenticated = false ∧ s.thread = none) :
    Keeps P ledger (s.setUsageScenario cpus cfg isRemote isUacPrompt) := by
  unfold State.setUsageScenario
  by_cases hsame : s.scenario = cpus
  · rw [if_pos hsame]
    split
    · split
      · rename_i hnew
        have hcr : s.created = false := hnew.resolve_right (not_not.mpr hsame)
        obtain ⟨-, hauth, hthread, rfl⟩ := h.fresh hcr
        exact ⟨trivial, Bound.void hidle hauth hthread (h.unjoined hthread)⟩
      · exact ⟨trivial, h⟩
    · exact ⟨trivial, h.fresh, h.flag, h.unjoined, h.running, h.decided, h.failed, by
        rw [show ({ s with scenario := cpus } : State).pc = .idle from hidle]
        trivial⟩
  · obtain ⟨hauth, hthread⟩ := hscenario hsame
    have hund := h.unjoined hthread
    rw [if_neg hsame]
    split
    · rw [if_pos (.inr hsame)]
      exact ⟨⟨trivial, trivial⟩, .void hidle hauth hthread hund⟩
    · exact ⟨⟨trivial, trivial⟩, .void hidle hauth hthread hund⟩

theorem Bound.switchToMode (h : Bound P s ledger) (hcr : s.created = true) (hidle : s.pc = .idle)
    (mode : AuthFactorMode) : Keeps P ledger (s.switchToMode mode) := by
  unfold State.switchToMode
  split
  · exact ⟨trivial, h⟩
  split
  · exact ⟨trivial, h⟩
  · exact (h.idle hcr (by rw [hidle]; rfl)).goto hcr _ trivial

theorem created_of_callable {s : State} (h : s.callable = true) : s.created = true :=
  (Bool.and_eq_true_iff.mp h).1

theorem bound_step (h : Bound P s ledger) {a : Action} {t : State} {es : List Event}
    (hcareful : Careful s a) (hs : step P s a = some (t, es)) : Keeps P ledger (t, es) := by
  have hcalled : ∀ {r : State × List Event},
      (if s.callable then some r else none) = some (t, es) →
      (s.created = true → s.pc = .idle → Keeps P ledger r) → Keeps P ledger (t, es) := by
    intro r hr hkeeps
    split at hr
    · rename_i hcall
      rw [← Option.some.inj hr]
      exact hkeeps (created_of_callable hcall) (pc_eq_idle_of_callable hcall)
    · cases hr
  cases a with
  | setUsageScenario cpus cfg isRemote isUacPrompt =>
    unfold step at hs
    dsimp only at hs
    split at hs
    · rename_i hidle
      rw [← Option.some.inj hs]
      refine h.setUsageScenario hidle cpus cfg isRemote isUacPrompt fun hne => ?_
      exact (hcareful hne).imp_right Option.isNone_iff_eq_none.mp
    · cases hs
  | setStringValue field psz =>
    refine hcalled hs fun hcr hidle => h.setStringValue hcr hidle field psz ?_
    rintro rfl heq
    exact (hcareful heq).imp_right fun hnone => hnone.imp_right Option.isNone_iff_eq_none.mp
  | setSelected => exact hcalled hs fun _ _ => ⟨⟨trivial, trivial⟩, h⟩
  | setDeselected =>
    refine hcalled hs fun hcr hidle => ?_
    unfold State.setDeselected
    split
    · exact h.resetAuthState hcr _
    · exact ⟨trivial, h⟩
  | commandLinkClicked link =>
    refine hcalled hs fun hcr hidle => ?_
    cases link <;> exact h.switchToMode hcr hidle _
  | getSerialization packOk => exact hcalled hs fun hcr hidle => h.getSerialization hcr hidle packOk
  | reportResult =>
    exact hcalled hs fun hcr hidle => (h.dropPassword hidle []).resetAuthState hcr _
  | ui => exact h.uiStep hs
  | worker =>
    refine h.workerStep hs fun store hpc happ => hcareful store ?_ happ
    rw [hpc]
    rfl

end Steps

end LigamentApps.CredentialProvider
