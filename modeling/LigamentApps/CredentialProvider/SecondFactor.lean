import LigamentApps.CredentialProvider.Calls

/-!
# The second factor is bound to the credentials

The results about runs of the tile. `Effect` says what the events of a step can be, and what the
step does to the flag; from it follows that an approval is used only once where LogonUI does not
submit again before the first submission was reported (`Once`). Together with `bound_step` this
gives `second_factor_bound`. `fail_open_transport_only` adds what the answers of the servers must
not say. -/

namespace LigamentApps.CredentialProvider

variable {failClose b : Bool} {ledger : Ledger} {es : List Event} {t s : State} (P : Platform)

/-! ## What a step can do to the flag -/

/-- What the worker's start call receives, in a step that makes it: Core's answer and the
relay's. -/
def State.answers (P : Platform) (s : State) :
    Action → Option (Option HttpResponse × Option HttpResponse)
  | .worker env =>
    match s.thread with
    | some (.begin input cfg) => some (startCall P cfg input.job env).2
    | _ => none
  | _ => none

/-- An event that leaves the job of the ledger as it is, under a value of `FailClose`. -/
def Event.IsQuiet (failClose : Bool) : Event → Bool
  | .autoLogon _ | .returned _ => true
  | .serialized _ branch fc _ => !branch.needsApproval && fc == failClose
  | _ => false

theorem branch_of_quiet {creds : Credentials} {branch : Branch} {fc finished : Bool}
    (h : (Event.serialized creds branch fc finished).IsQuiet failClose = true) :
    branch.needsApproval = false := by
  simpa using (Bool.and_eq_true_iff.mp h).1

/-- The LogonUI thread is inside `GetSerialization`. -/
def UiPc.serializing : UiPc → Bool
  | .stop (.startJob _ caller) | .join (.startJob _ caller) | .createThread caller =>
    caller ≠ .switchToMode
  | .stop (.pack _) | .join (.pack _) | .stop (.refuse _) | .join (.refuse _) => true
  | .recheck | .readWorker => true
  | _ => false

/-- The events of a step from `s` to `t`, in which a start call may receive `answers`, with what
the step does to the flag. -/
inductive Effect (answers : Option (Option HttpResponse × Option HttpResponse)) (s t : State) :
    List Event → Prop
  /-- Nothing that the ledger notes, and the flag is not set. -/
  | quiet {es : List Event} : (∀ e ∈ es, e.IsQuiet s.config.failClose = true) →
      (t.authenticated = true → s.authenticated = true) → Effect answers s t es
  /-- The start call is made. -/
  | request (core relay : Option HttpResponse) : answers = some (core, relay) →
      (t.authenticated = true → s.authenticated = true) →
      (∃ input cfg, s.thread = some (.begin input cfg)) → Effect answers s t [.request core relay]
  /-- A running worker approves. -/
  | approved (p : WorkerPc) (why : Approval) : s.thread = some p → p ≠ .exited →
      Effect answers s t [.approved why]
  /-- The flag is cleared. -/
  | reset : t.authenticated = false → Effect answers s t [.reset]
  /-- Credentials are handed out under the second factor, or packing them fails. -/
  | handedOut (creds : Credentials) (branch : Branch) (failClose finished : Bool)
      (result : SerializationResult) : branch.needsApproval = true → t.pc = .idle →
      s.authenticated = true → s.pc.serializing = true →
      Effect answers s t [.serialized creds branch failClose finished, .returned result]
  /-- A job is started. -/
  | started (creds : Credentials) (job : WorkerJob) {es : List Event} :
      (∀ e ∈ es, e.IsQuiet s.config.failClose = true) → Effect answers s t (.started creds job :: es)
  /-- The scenario changes. -/
  | scenario (cpus : UsageScenario) : Effect answers s t [.scenario cpus]

/-- A part of a step with its effect, which stays inside `GetSerialization` only if `inside`. -/
structure Move (answers : Option (Option HttpResponse × Option HttpResponse)) (inside : Bool)
    (s : State) (r : State × List Event) : Prop where
  /-- The events and the flag. -/
  effect : Effect answers s r.1 r.2
  /-- The place in the call. -/
  call : r.1.pc.serializing = true → inside = true

section Moves

variable {answers : Option (Option HttpResponse × Option HttpResponse)} (s : State) (inside : Bool)

theorem giveUp_move (result : SerializationResult) : Move answers inside s (s.giveUp result) :=
  ⟨.quiet (by simp [State.giveUp, Event.IsQuiet]) id, by simp [State.giveUp, UiPc.serializing]⟩

theorem packAndFinish_move (branch : Branch) (ok : Bool)
    (happroved : branch.needsApproval = true → s.authenticated = true ∧ s.pc.serializing = true) :
    Move answers inside s (s.packAndFinish branch ok) := by
  refine ⟨?_, by simp [State.packAndFinish, UiPc.serializing]⟩
  cases hbranch : branch.needsApproval with
  | true =>
    obtain ⟨hflag, hpc⟩ := happroved hbranch
    exact .handedOut _ _ _ _ _ hbranch rfl hflag hpc
  | false => exact .quiet (by simp [State.packAndFinish, Event.IsQuiet, hbranch]) id

/-- A part of a step from a state that differs in nothing the effect looks at, after the worker was
waited for, is a part of a step from the state itself. -/
theorem Move.of_joined {s s' : State} {inside : Bool} {r : State × List Event}
    (h : Move answers inside s' r) (ha : s'.authenticated = s.authenticated) (hpc : s'.pc = s.pc)
    (hc : s'.config = s.config) (ht : s'.thread = none) : Move answers inside s r := by
  obtain ⟨t, es⟩ := r
  obtain ⟨heffect, hcall⟩ := h
  refine ⟨?_, hcall⟩
  cases heffect with
  | quiet hes hflag => exact .quiet (hc ▸ hes) (ha ▸ hflag)
  | request _ _ _ _ hp =>
    obtain ⟨input, cfg, hp⟩ := hp
    simp [ht] at hp
  | approved _ _ hp => simp [ht] at hp
  | reset hflag => exact .reset hflag
  | handedOut c b fc fin r hb hidle hflag hser =>
    exact .handedOut c b fc fin r hb hidle (ha ▸ hflag) (hpc ▸ hser)
  | started c k hes => exact .started c k (hc ▸ hes)
  | scenario c => exact .scenario c

variable (caller : StartCaller)

theorem afterStart_quiet_events (started : Bool) :
    (∀ e ∈ (s.afterStart caller started).2, e.IsQuiet s.config.failClose = true) ∧
      (s.afterStart caller started).1.authenticated = s.authenticated ∧
      ((s.afterStart caller started).1.pc.serializing = true → caller ≠ .switchToMode) := by
  cases caller with
  | serialize => exact ⟨by simp [State.afterStart, State.giveUp, Event.IsQuiet], rfl, by simp⟩
  | serializeFido2 => exact ⟨by simp [State.afterStart], rfl, by simp⟩
  | switchToMode =>
    exact ⟨by simp [State.afterStart], rfl, by simp [State.afterStart, UiPc.serializing]⟩

theorem triggerFIDO2Auth_move (hin : caller ≠ .switchToMode → inside = true) :
    Move answers inside s (s.triggerFIDO2Auth caller) := by
  unfold State.triggerFIDO2Auth
  split
  · obtain ⟨hes, hflag, hpc⟩ := afterStart_quiet_events s caller true
    exact ⟨.quiet hes fun h => hflag ▸ h, fun h => hin (hpc h)⟩
  · refine ⟨.quiet (by simp) id, fun h => hin ?_⟩
    simpa [UiPc.serializing] using h

theorem getSerialization_move (packOk : Bool) : Move answers true s (s.getSerialization packOk) :=
  ⟨by
    unfold State.getSerialization
    split
    · exact (giveUp_move s true _).effect
    split
    · exact (packAndFinish_move s true _ _ (by simp [Branch.needsApproval])).effect
    split
    · exact .quiet (by simp) id
    split
    · split
      · exact (giveUp_move s true _).effect
      · split <;> exact .quiet (by simp) id
    · split <;> exact .quiet (by simp) id
    · split
      · exact (triggerFIDO2Auth_move s true _ fun _ => rfl).effect
      · exact .quiet (by simp) id, fun _ => rfl⟩

theorem decidePoll_effect (declined : WString → SerializationResult) :
    Effect answers s (s.applyBegin.decidePoll declined).1 (s.applyBegin.decidePoll declined).2 := by
  have hflag := (applyBegin_same s).authenticated
  unfold State.decidePoll
  split
  · exact .quiet (by simp [State.giveUp, Event.IsQuiet]) fun h => hflag ▸ h
  split
  · exact .quiet (by simp) fun h => hflag ▸ h
  · exact .quiet (by simp) fun h => hflag ▸ h

theorem readWorker_move (P : Platform) : Move answers true s (s.readWorker P) :=
  ⟨by
    unfold State.readWorker
    split
    · unfold State.readOtp
      split
      · exact (giveUp_move s true _).effect
      split
      · exact .quiet (by simp) id
      split <;> exact .quiet (by simp) id
    · unfold State.readPush
      split
      · split <;> exact .quiet (by simp) id
      · exact decidePoll_effect s _
    · unfold State.readFido2
      split
      · exact .quiet (by simp) id
      · exact decidePoll_effect s _, fun _ => rfl⟩

theorem createThread_move (ok : Bool)
    (hin : caller ≠ .switchToMode → inside = true) : Move answers inside s (s.createThread caller ok) := by
  unfold State.createThread
  split
  · obtain ⟨hes, -, hpc⟩ := afterStart_quiet_events { s with thread := some .start } caller true
    exact ⟨.started _ _ hes, fun h => hin (hpc h)⟩
  · obtain ⟨hes, hflag, hpc⟩ :=
      afterStart_quiet_events { s with job := JobInput.empty, worker := {} } caller false
    exact ⟨.quiet hes fun h => hflag ▸ h, fun h => hin (hpc h)⟩

/-- The LogonUI thread after a wait; where it is about to hand out credentials under the second
factor, the flag is set. -/
theorem afterJoin_move (after : AfterJoin) (hpc : s.pc = .join after) (ok : Bool)
    (hin : s.pc.serializing = true → inside = true)
    (hset : ∀ branch, after = .pack branch → branch.needsApproval = true →
      s.authenticated = true) :
    Move answers inside s (s.joined.afterJoin ok after) := by
  cases after with
  | reset store =>
    refine ⟨.quiet (by simp [State.afterJoin]) ?_, by simp [State.afterJoin, UiPc.serializing]⟩
    intro h
    cases store <;> exact h
  | switchToMode mode =>
    show Move answers inside s (s.joined.enterMode mode)
    unfold State.enterMode
    dsimp only
    split
    · exact (triggerFIDO2Auth_move _ inside .switchToMode (by simp)).of_joined rfl rfl rfl rfl
    · exact ⟨.quiet (by simp) id, by simp [UiPc.serializing]⟩
  | startJob =>
    rw [hpc] at hin
    exact ⟨.quiet (by simp [State.afterJoin]) id, hin⟩
  | pack branch =>
    show Move answers inside s (State.packAndFinish _ branch ok)
    generalize hu : State.mk .. = u
    have hflag : u.authenticated = s.authenticated := by
      by_cases hb : branch = .approved
      · have ha := hset branch rfl (by rw [hb]; rfl)
        rw [← hu, ha]
        simp [hb]
      · rw [← hu]
        simp [hb, State.joined]
    have hupc : u.pc = s.pc := by rw [← hu]; rfl
    have hucfg : u.config = s.config := by rw [← hu]; rfl
    have huthread : u.thread = none := by rw [← hu]; rfl
    refine Move.of_joined (packAndFinish_move u inside branch ok fun hb => ?_) hflag hupc hucfg
      huthread
    rw [hflag, hupc, hpc]
    exact ⟨hset branch rfl hb, rfl⟩
  | refuse =>
    exact ⟨.quiet (by simp [State.afterJoin, State.giveUp, Event.IsQuiet]) id,
      by simp [State.afterJoin, State.giveUp, UiPc.serializing]⟩

theorem effect_silent {s t : State} (h : t.authenticated = s.authenticated) : Effect answers s t [] :=
  .quiet (by simp) fun ha => h ▸ ha

theorem writeBegin_effect {input : JobInput} {cfg : Config} {result : BeginResult}
    {core relay : Option HttpResponse}
    (hp : s.thread = some (.beginWrite input cfg result core relay)) :
    Effect answers s (s.writeBegin input cfg result core relay).1
      (s.writeBegin input cfg result core relay).2 := by
  unfold State.writeBegin
  split
  · exact effect_silent rfl
  split
  · cases hok : result.ok with
    | true => exact .approved _ _ hp (by simp)
    | false => exact effect_silent (by simp)
  split <;> exact effect_silent rfl

theorem writePoll_effect {input : JobInput} {status : WString} {answer : Option HttpResponse}
    (hp : s.thread = some (.pollWrite input status answer)) :
    Effect answers s (s.writePoll status answer).1 (s.writePoll status answer).2 := by
  unfold State.writePoll
  split
  · exact effect_silent rfl
  by_cases hst : status = wide "approved"
  · rw [if_pos hst]
    exact .approved _ _ hp (by simp)
  · rw [if_neg hst]
    exact effect_silent (by simp [hst])

theorem workerStep_effect {P : Platform} {s t : State} {env : WorkerEnv} {es : List Event}
    (h : s.workerStep P env = some (t, es)) : Effect (s.answers P (.worker env)) s t es := by
  unfold State.workerStep at h
  split at h
  · cases h
  · cases h
  all_goals rename_i hp
  all_goals refine rel_of_step (Effect _ s) h ?_
  · exact effect_silent rfl
  · exact effect_silent rfl
  · unfold State.checkGate
    split <;> exact effect_silent rfl
  · unfold State.writeGate
    split
    · exact effect_silent rfl
    · exact .approved _ _ hp (by simp)
  · rename_i input cfg
    have hanswers : s.answers P (.worker env) = some (startCall P cfg input.job env).2 := by
      rw [State.answers, hp]
    unfold State.beginJob
    split
    · exact effect_silent rfl
    · exact .request _ _ hanswers id ⟨input, cfg, hp⟩
  · exact writeBegin_effect s hp
  · unfold State.pollHead
    split
    · split <;> exact effect_silent rfl
    · exact effect_silent rfl
  · unfold State.pollOnce
    split
    · split <;> exact effect_silent rfl
    · exact effect_silent rfl
  · exact writePoll_effect s hp
  · unfold State.writeTimeout
    split <;> exact effect_silent rfl

theorem uiStep_move {P : Platform} (h : Bound P s ledger) {ok : Bool} (hs : s.uiStep P ok = some (t, es)) :
    Move answers s.pc.serializing s (t, es) := by
  unfold State.uiStep at hs
  split at hs
  · cases hs
  · rename_i after hpc
    rw [← Option.some.inj hs, hpc]
    refine ⟨.quiet (by simp) id, fun hin => ?_⟩
    cases after <;> exact hin
  · rename_i after hpc
    have hset : ∀ branch, after = .pack branch → branch.needsApproval = true →
        s.authenticated = true := by
      rintro branch rfl hb
      have hcall := h.call
      rw [hpc] at hcall
      cases branch with
      | alreadyAuthenticated | approved => exact hcall.2
      | _ => simp [Branch.needsApproval] at hb
    split at hs
    · rw [← Option.some.inj hs]
      exact afterJoin_move s _ after hpc ok id hset
    · rw [← Option.some.inj hs]
      exact afterJoin_move s _ after hpc ok id hset
    · cases hs
  · rename_i caller hpc
    rw [← Option.some.inj hs, hpc]
    exact createThread_move s _ caller ok fun hne => by simp [UiPc.serializing, hne]
  · rename_i hpc
    rw [← Option.some.inj hs]
    split
    · rename_i hflag
      exact packAndFinish_move s _ _ ok fun _ => ⟨hflag, by rw [hpc]; rfl⟩
    · exact giveUp_move s _ _
  · rename_i hpc
    rw [← Option.some.inj hs, hpc]
    exact readWorker_move s P

/-- What one step can do, and that only `GetSerialization` begins to serialize. -/
theorem step_move {P : Platform} {ledger : Ledger} (h : Bound P s ledger) {a : Action} {t : State}
    {es : List Event} (hs : step P s a = some (t, es)) :
    Effect (s.answers P a) s t es ∧ (t.pc.serializing = true →
      s.pc.serializing = true ∨ ∃ packOk, a = .getSerialization packOk) := by
  generalize hanswers : s.answers P a = answers
  have hmove : Move answers s.pc.serializing s (t, es) → Effect answers s t es ∧ (t.pc.serializing = true →
      s.pc.serializing = true ∨ ∃ packOk, a = .getSerialization packOk) :=
    fun hm => ⟨hm.effect, fun hin => .inl (hm.call hin)⟩
  -- a reset, and a call that does nothing, are moves of their own
  have hreset : ∀ (u : State) (store : Store), u.resetAuthState store = (t, es) →
      Move answers s.pc.serializing s (t, es) := by
    rintro u store heq
    cases heq
    exact ⟨.reset rfl, by simp [UiPc.serializing]⟩
  have hsame : (s, ([] : List Event)) = (t, es) → Move answers s.pc.serializing s (t, es) := by
    rintro heq
    cases heq
    exact ⟨.quiet (by simp) id, id⟩
  cases a with
  | setUsageScenario cpus =>
    unfold step at hs
    dsimp only at hs
    split at hs
    · have heq := Option.some.inj hs
      refine hmove ?_
      have hev : ∀ u : State, u.authenticated = s.authenticated → u.pc = s.pc →
          Move answers s.pc.serializing s
            (u, if s.scenario = cpus then [] else [.scenario cpus]) := by
        intro u hflag hpc
        refine ⟨?_, by rw [hpc]; exact id⟩
        split
        · exact .quiet (by simp) fun ha => hflag ▸ ha
        · exact .scenario cpus
      rw [← heq]
      unfold State.setUsageScenario
      dsimp only
      split
      · split
        · exact hev _ rfl rfl
        · exact hev _ rfl rfl
      · exact hev _ rfl rfl
    · cases hs
  | setStringValue field =>
    obtain ⟨-, heq⟩ := step_call hs
    refine hmove ?_
    cases field with
    | otpCode =>
      cases heq
      exact ⟨.quiet (by simp) id, id⟩
    | password | username =>
      unfold State.setStringValue at heq
      dsimp only at heq
      split at heq
      · cases heq
        exact ⟨.quiet (by simp) id, id⟩
      · exact hreset s _ heq
  | setSelected =>
    obtain ⟨-, heq⟩ := step_call hs
    cases heq
    exact hmove ⟨.quiet (by simp [Event.IsQuiet]) id, id⟩
  | setDeselected =>
    obtain ⟨-, heq⟩ := step_call hs
    refine hmove ?_
    unfold State.setDeselected at heq
    split at heq
    · exact hreset s _ heq
    · exact hsame heq
  | commandLinkClicked link =>
    obtain ⟨-, heq⟩ := step_call hs
    refine hmove ?_
    have hswitch : ∀ mode, s.switchToMode mode = (t, es) → Move answers s.pc.serializing s (t, es) := by
      intro mode hmode
      unfold State.switchToMode at hmode
      split at hmode
      · exact hsame hmode
      split at hmode
      · exact hsame hmode
      · cases hmode
        exact ⟨.quiet (by simp) id, by simp [UiPc.serializing]⟩
    cases link <;> exact hswitch _ heq
  | getSerialization packOk =>
    obtain ⟨-, heq⟩ := step_call hs
    have hm : Move answers true s _ := getSerialization_move s packOk
    rw [heq] at hm
    exact ⟨hm.effect, fun _ => .inr ⟨packOk, rfl⟩⟩
  | reportResult =>
    obtain ⟨-, heq⟩ := step_call hs
    exact hmove (hreset _ _ heq)
  | ui => exact hmove (uiStep_move s h hs)
  | worker =>
    refine hmove ⟨hanswers ▸ workerStep_effect hs, fun hin => ?_⟩
    have hframe : SharedOnly s t := workerStep_frame hs
    rw [show t.pc = s.pc by rw [hframe]] at hin
    exact hin

end Moves

/-! ## One logon for one approval -/

/-- Whether credentials were handed out under the second factor since the flag was last cleared. -/
def submittedNext (submitted : Bool) : Event → Bool
  | .serialized _ branch _ finished => submitted || (branch.needsApproval && finished)
  | .reset | .scenario _ => false
  | _ => submitted

/-- `submittedNext` over a trace. -/
def submitted (es : List Event) : Bool := es.foldl submittedNext false

/-- The part of the invariant that an approval is used once: a used approval is an approval, the
flag outlives it only while LogonUI has not had the first use reported, and meanwhile nothing is
submitted. -/
structure Once (s : State) (submitted : Bool) (ledger : Ledger) : Prop where
  /-- What was used had been approved. -/
  approved : ∀ j, ledger = some j → j.served = true → j.approval.isSome = true
  /-- A used approval with its flag is a submission not yet reported. -/
  reported : ∀ j, ledger = some j → j.served = true → s.authenticated = true → submitted = true
  /-- Inside `GetSerialization` every submission has been reported. -/
  serializing : s.pc.serializing = true → submitted = false

theorem Once.keep {ledger' : Ledger} (h : Once s b ledger)
    (hold : ∀ j', ledger' = some j' → ∃ j, ledger = some j ∧ j'.served = j.served ∧ j'.approval = j.approval)
    (hflag : t.authenticated = true → s.authenticated = true) (hser : t.pc.serializing = true → b = false) :
    Once t b ledger' := by
  refine ⟨?_, ?_, hser⟩
  · intro j' hj' hserved
    obtain ⟨j, hj, hserved', happ⟩ := hold j' hj'
    rw [happ]
    exact h.approved j hj (hserved'.symm.trans hserved)
  · intro j' hj' hserved hauth
    obtain ⟨j, hj, hserved', -⟩ := hold j' hj'
    exact h.reported j hj (hserved'.symm.trans hserved) (hflag hauth)

theorem foldl_next_quiet (es : List Event) (h : ∀ e ∈ es, e.IsQuiet failClose = true) (ledger : Ledger) :
    ∀ j', es.foldl Ledger.next ledger = some j' →
      ∃ j, ledger = some j ∧ j'.served = j.served ∧ j'.approval = j.approval := by
  induction es generalizing ledger with
  | nil => exact fun j' hj => ⟨j', hj, rfl, rfl⟩
  | cons e es ih =>
    intro j' hj'
    obtain ⟨j, hj, hserved, happ⟩ := ih (fun e he => h e (List.mem_cons_of_mem _ he)) _ j' hj'
    have he := h e (List.mem_cons_self ..)
    cases e with
    | autoLogon | returned => exact ⟨j, hj, hserved, happ⟩
    | serialized creds branch fc finished =>
      have hb : branch.needsApproval = false := branch_of_quiet he
      simp only [Ledger.next, hb, Bool.false_and, Bool.false_eq_true, if_false] at hj
      exact ⟨j, hj, hserved, happ⟩
    | _ => simp [Event.IsQuiet] at he

theorem foldl_submitted_quiet (es : List Event) (h : ∀ e ∈ es, e.IsQuiet failClose = true) (b : Bool) :
    es.foldl submittedNext b = b := by
  induction es with
  | nil => rfl
  | cons e _ ih =>
    have he := h e (List.mem_cons_self ..)
    have hnext : submittedNext b e = b := by
      cases e with
      | serialized _ branch =>
        have hb : branch.needsApproval = false := branch_of_quiet he
        simp [submittedNext, hb]
      | reset | scenario => simp [Event.IsQuiet] at he
      | _ => rfl
    rw [List.foldl_cons, hnext]
    exact ih fun e he => h e (List.mem_cons_of_mem _ he)

/-- Between two calls of `GetSerialization` at most one factor is submitted. -/
theorem once_step {P : Platform} (h : Bound P s ledger) (hone : Once s b ledger) {a : Action}
    (hcall : ∀ packOk, a = .getSerialization packOk → b = false) (hs : step P s a = some (t, es))
    (hok : (ledgerMonitor P).AcceptsFrom ledger es) :
    Once t (es.foldl submittedNext b) (es.foldl Ledger.next ledger) := by
  obtain ⟨heffect, henter⟩ := step_move s h hs
  have hser : t.pc.serializing = true → b = false := by
    intro hin
    rcases henter hin with hin' | ⟨packOk, ha⟩
    · exact hone.serializing hin'
    · exact hcall packOk ha
  cases heffect with
  | quiet hes hflag =>
    rw [foldl_submitted_quiet es hes]
    exact hone.keep (foldl_next_quiet es hes ledger) hflag hser
  | request _ _ _ hflag =>
    refine hone.keep (fun j' hj' => ?_) hflag hser
    obtain ⟨j, hj, rfl⟩ := Option.map_eq_some_iff.mp hj'
    exact ⟨j, hj, rfl, rfl⟩
  | approved p _ hp hne =>
    obtain ⟨-, -, j, hj, -, -, happ, -⟩ := h.running p hp hne
    -- The job was not approved yet, so it was not used either.
    have hfresh : j.served = false := by
      by_contra hserved
      have hsome := hone.approved j hj (by simpa using hserved)
      rw [happ] at hsome
      simp at hsome
    subst hj
    refine ⟨?_, ?_, hser⟩
    · rintro j' hj' -
      cases hj'
      rfl
    · intro j' hj' hserved
      cases hj'
      cases hfresh.symm.trans hserved
  | reset hflag =>
    refine ⟨hone.approved, ?_, fun _ => rfl⟩
    intro j _ _ hauth
    cases hflag.symm.trans hauth
  | handedOut creds branch failClose finished result hb hidle hauth hin =>
    obtain ⟨j, rfl, -, happ⟩ := hok.1.1 hb
    have hpc : t.pc.serializing = true → (b || (branch.needsApproval && finished)) = false := by
      rw [hidle]
      exact nofun
    cases finished with
    | false =>
      refine ⟨?_, ?_, hpc⟩
      · simpa [Ledger.next] using hone.approved
      · intro j' hj' hserved _
        have hj : some j = some j' := by simpa [Ledger.next] using hj'
        simpa [submittedNext] using hone.reported j' hj hserved hauth
    | true =>
      refine ⟨?_, ?_, hpc⟩
      · intro j' hj' _
        have hj : { j with served := true } = j' := by simpa [Ledger.next, hb] using hj'
        rw [← hj]
        exact happ
      · intro j' _ _ _
        simp [submittedNext, hb]
  | started creds job hes =>
    rename_i rest
    have hnew := foldl_next_quiet rest hes (some ⟨creds, job, none, none, false⟩)
    have hunserved : ∀ j', (Event.started creds job :: rest).foldl Ledger.next ledger = some j' →
        j'.served = false := by
      intro j' hj'
      obtain ⟨j, hj, hserved, -⟩ := hnew j' hj'
      cases hj
      exact hserved
    have hsub : (Event.started creds job :: rest).foldl submittedNext b = b :=
      foldl_submitted_quiet rest hes b
    rw [hsub]
    refine ⟨?_, ?_, hser⟩
    · intro j' hj' hserved
      cases (hunserved j' hj').symm.trans hserved
    · intro j' hj' hserved
      cases (hunserved j' hj').symm.trans hserved
  | scenario cpus =>
    refine ⟨?_, ?_, fun _ => rfl⟩
    · intro j hj
      simp [Ledger.next] at hj
    · intro j hj
      simp [Ledger.next] at hj

/-- What the second factor demands of an event: an approval is justified by a server's answer, and
credentials are handed out under the second factor only with an unused approval for the very same
user name, domain and password. -/
def SecondFactorOk (P : Platform) (ledger : Ledger) : Event → Prop
  | .approved why => why.Justified P
  | .serialized creds branch _ _ => branch.needsApproval = true → ledger.Unserved creds
  | _ => True

instance (P : Platform) (ledger : Ledger) : ∀ e, Decidable (SecondFactorOk P ledger e)
  | .approved why => inferInstanceAs (Decidable (why.Justified P))
  | .serialized creds branch _ _ =>
    inferInstanceAs (Decidable (branch.needsApproval = true → ledger.Unserved creds))
  | .scenario _ | .started .. | .request .. | .reset | .autoLogon _ | .returned _ => .isTrue trivial

/-- The demand as a monitor of the ledger. -/
def secondFactor (P : Platform) : Monitor Ledger Event := ⟨none, Ledger.next, SecondFactorOk P⟩

instance (P : Platform) (ledger : Ledger) (e : Event) : Decidable ((secondFactor P).Ok ledger e) :=
  inferInstanceAs (Decidable (SecondFactorOk P ledger e))

theorem secondFactor_quiet (es : List Event) (h : ∀ e ∈ es, e.IsQuiet failClose = true) (ledger : Ledger) :
    (secondFactor P).AcceptsFrom ledger es := by
  induction es generalizing ledger with
  | nil => trivial
  | cons e _ ih =>
    have he := h e (List.mem_cons_self ..)
    refine ⟨?_, ih (fun e he => h e (List.mem_cons_of_mem _ he)) _⟩
    cases e with
    | approved => simp [Event.IsQuiet] at he
    | serialized _ branch =>
      have hb : branch.needsApproval = false := branch_of_quiet he
      exact fun hneeds => absurd (hb.symm.trans hneeds) (by simp)
    | _ => trivial

theorem secondFactor_step {P : Platform} {answers : Option (Option HttpResponse × Option HttpResponse)}
    (hone : Once s b ledger) (heffect : Effect answers s t es)
    (hok : (ledgerMonitor P).AcceptsFrom ledger es) : (secondFactor P).AcceptsFrom ledger es := by
  cases heffect with
  | quiet hes => exact secondFactor_quiet P es hes ledger
  | request | reset | scenario => exact ⟨trivial, trivial⟩
  | approved => exact ⟨hok.1.1, trivial⟩
  | handedOut _ _ _ _ _ hb _ hauth hin =>
    obtain ⟨j, rfl, hcreds, happ⟩ := hok.1.1 hb
    have hfresh : j.served = false := by
      by_contra hserved
      have hreported := hone.reported j rfl (by simpa using hserved) hauth
      cases hreported.symm.trans (hone.serializing hin)
    exact ⟨fun _ => ⟨j, rfl, hcreds, happ, hfresh⟩, trivial, trivial⟩
  | started _ _ hes => exact ⟨trivial, secondFactor_quiet P _ hes _⟩

/-- The action is a call of `GetSerialization`. -/
def Action.submits : Action → Bool
  | .getSerialization _ => true
  | _ => false

/-- The steps in which the second factor stays bound: careful ones, in which LogonUI calls
`GetSerialization` only when the last submission under the second factor was followed by a
`ResetAuthState`. -/
def Bounded (s : State) (es : List Event) (a : Action) : Prop :=
  Careful s a ∧ (a.submits = true → submitted es = false)

instance (s : State) (es : List Event) (a : Action) : Decidable (Bounded s es a) :=
  inferInstanceAs (Decidable (Careful s a ∧ _))

theorem bound_start : Bound P {} none :=
  Bound.void rfl rfl rfl undecided_default

/-- In every run whose steps are all bounded, every approval comes from a server, and credentials
are handed out under the second factor only with an approval for the same user name, domain and
password in the present usage scenario, which no earlier logon used. -/
theorem second_factor_bound (P : Platform) {t : State} {es : List Event}
    (h : (tile P).Reach Bounded {} t es) : (secondFactor P).Accepts es := by
  have hrun := h.monitor_accepts (secondFactor P)
    (fun s es ledger => Bound P s ledger ∧ Once s (submitted es) ledger)
    ⟨bound_start P, by simp [secondFactor], by simp [secondFactor], fun _ => rfl⟩ ?_
  · exact hrun.1
  intro s es a t fs hinv hgood hs
  generalize (secondFactor P).after es = ledger at hinv ⊢
  obtain ⟨hbound, hone⟩ := hinv
  obtain ⟨hok, hbound'⟩ := bound_step hbound hgood.1 hs
  have hone' := once_step hbound hone (fun packOk ha => hgood.2 (by rw [ha]; rfl)) hs hok
  have hsub : submitted (es ++ fs) = fs.foldl submittedNext (submitted es) := by
    rw [submitted, List.foldl_append]
    rfl
  exact ⟨secondFactor_step hone (step_move s hbound hs).1 hok, hbound', by rw [hsub]; exact hone'⟩

/-- A platform on which every text is a host behind `https`, and text is ASCII. -/
def asciiPlatform : Platform where
  crackUrl url := some (.https, url)
  utf8ToWide bytes := bytes.map UInt8.toUInt16

/-- A configuration with a server, which applies the second factor at the console. -/
def consoleConfig : Config :=
  { Config.default with
    serverUrl := wide "host", serverUrlConfigured := true, console2faEnabled := true }

/-- The calls that enter a name and a password into a fresh tile and submit them in push mode, up
to the start of the worker. -/
def submitAlice (cfg : Config) : List Action :=
  [.setUsageScenario .logon cfg false false,
   .setStringValue .username (wide "alice"), .ui true, .ui true,
   .setStringValue .password (wide "p"), .ui true, .ui true,
   .getSerialization true, .ui true, .ui true, .ui true]

/-- The worker's steps on a push that is started and then approved, up to the point before the
approval is written. -/
def approvePush : List Action :=
  [.worker {}, .worker {}, .worker {},
   .worker { core := some ⟨200, ascii "\x7b\"challenge_id\":\"c\"\x7d"⟩ }, .worker {}, .worker {},
   .worker { core := some ⟨200, ascii "\x7b\"status\":\"approved\"\x7d"⟩ }]

/-- The approval of a push for `alice` is written after the typing of `bob` has cleared the flag and
before it stops the worker; `bob` is logged on with it. -/
theorem approval_passes_to_other_user : ¬∀ (P : Platform) (t : State) (es : List Event),
      (tile P).Reach (fun _ _ _ => True) {} t es → (secondFactor P).Accepts es := by
  intro hclaim
  have hrun : ((tile asciiPlatform).exec (fun _ _ _ => true) {} []
      (submitAlice consoleConfig ++ approvePush ++
        [.setStringValue .username (wide "bob"), .worker {}, .ui true, .ui true,
         .getSerialization true, .ui true])).any
      (fun r => decide ¬(secondFactor asciiPlatform).Accepts r.2) = true := by decide
  obtain ⟨⟨t, es⟩, hexec, hviolated⟩ := (Option.any_eq_true ..).mp hrun
  exact of_decide_eq_true hviolated
    (hclaim asciiPlatform t es (Machine.reach_of_exec (fun _ _ _ _ => trivial) hexec))

/-- The approval of a push for `alice` logs on `alice`. -/
theorem second_factor_bound_alice : ∃ t es, (tile asciiPlatform).Reach Bounded {} t es ∧
      Event.serialized ⟨wide "alice", [], wide "p"⟩ .alreadyAuthenticated true true ∈ es ∧
      (secondFactor asciiPlatform).Accepts es := by
  have hrun : ((tile asciiPlatform).exec (fun s es a => decide (Bounded s es a)) {} []
      (submitAlice consoleConfig ++ approvePush ++
        [.worker {}, .getSerialization true, .ui true])).any
      (fun r => decide (Event.serialized ⟨wide "alice", [], wide "p"⟩ .alreadyAuthenticated true true
        ∈ r.2)) = true := by decide
  obtain ⟨⟨t, es⟩, hexec, hmem⟩ := (Option.any_eq_true ..).mp hrun
  have hreach := Machine.reach_of_exec (fun _ _ _ => of_decide_eq_true) hexec
  exact ⟨t, es, hreach, of_decide_eq_true hmem, second_factor_bound asciiPlatform hreach⟩

end LigamentApps.CredentialProvider
