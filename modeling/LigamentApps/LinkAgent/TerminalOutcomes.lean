import LigamentApps.LinkAgent.BrokerSteps
import LigamentApps.Machine.Past

/-!
# The outcome of a session

A run that ends without the server and the agent has put an outcome on record, and what is on record is final:
no worker is launched and nothing is accepted after it. This holds where no queue is full, no run is restarted
too often or after a refusal, and the server gets the frames that end a session. -/

namespace LigamentApps.LinkAgent

open List

variable {outcome ended : Bool} {act : RunAction} (r : ℕ)

/-- The event puts the outcome of a run on record. -/
def BrokerEvent.isOutcomeOf (r : ℕ) : BrokerEvent → Bool
  | .run r' (.forwards _ frame) => r' = r && isTerminal frame
  | .run r' (.refuses _) => r' = r
  | _ => false

/-- The server or the agent has ended the session of a run. -/
def BrokerEvent.isEndOf (r : ℕ) : BrokerEvent → Bool
  | .serverCloses r' | .agentStops r' => r' = r
  | _ => false

/-- An outcome of a run is on record. -/
def outcomeIn (r : ℕ) (es : List BrokerEvent) : Bool := es.any (·.isOutcomeOf r)

/-- The end of a run by the server or the agent is on record. -/
def endIn (r : ℕ) (es : List BrokerEvent) : Bool := es.any (·.isEndOf r)

/-- A run does not remove its session in silence, and goes no further after its outcome. -/
def EndsOnRecord (past : List BrokerEvent) : BrokerEvent → Prop
  | .run r .removes | .overflows r => outcomeIn r past = true ∨ endIn r past = true
  | .run r (.launches _ _) => outcomeIn r past = false
  | .run r (.forwards _ frame) => isAccepting frame = true → outcomeIn r past = false
  | _ => True

/-- The steps after which no session ends in silence or goes on after its outcome: no signal meets a full
queue; a restart is counted only without an outcome, and not as the fourth one of its window; nothing is
accepted after an outcome; and a refusal, and the end of the session by the worker, reach the server, unless
the session has ended already. -/
structure KeepsRecord (env : BrokerEnv) (s : WorkerBroker) (es : List BrokerEvent) (a : BrokerAction) : Prop where
  room : s.overflows a = false
  restarts : ∀ r act run now, a = .run r act → s.runs[r]? = some run →
    run.countsRestart env (s.view r run) act = some now →
      outcomeIn r es = false ∧ (run.windowOver now = true ∨ run.restarts < 3)
  refuses : ∀ r run reason, a = .run r (.launchFails reason false) → s.runs[r]? = some run →
    run.phase = .launching → run.restarts = 0 → endIn r es = true
  terminates : ∀ r run frame now w, a = .run r (.receives (some frame) false now) → s.runs[r]? = some run →
    run.phase = .serving w → validWorkerResponse env.size frame run.sessionID = true →
      frameType frame = "session_terminate" → outcomeIn r es = true ∨ endIn r es = true
  accepts : ∀ r run frame now w, a = .run r (.receives (some frame) true now) → s.runs[r]? = some run →
    run.phase = .serving w → validWorkerResponse env.size frame run.sessionID = true →
      isAccepting frame = true → outcomeIn r es = false

/-- A run in this phase may have an outcome. -/
def RunPhase.settles : RunPhase → Bool
  | .serving _ | .leaving | .over => true
  | _ => false

/-- A run whose outcome is on record, or whose end by the server or the agent is, is where it may be. -/
structure WorkerRun.Recorded (run : WorkerRun) (outcome ended : Bool) : Prop where
  settled : outcome = true → run.phase.settles = true
  terminated : run.terminateRequested = true → run.phase = .over ∨ outcome = true ∨ ended = true
  cancelled : run.cancelled = true → run.phase = .over ∨ ended = true
  leaving : run.phase = .leaving → outcome = true ∨ ended = true

namespace WorkerBroker

variable {env : BrokerEnv} {s t : WorkerBroker} {a : BrokerAction} {es fs : List BrokerEvent}

/-- What holds of the record in every state. -/
structure OnRecord (s : WorkerBroker) (es : List BrokerEvent) : Prop where
  registered : s.Registered
  runs : ∀ (r : ℕ) (run : WorkerRun), s.runs[r]? = some run → run.Recorded (outcomeIn r es) (endIn r es)
  stopping : ∀ r stage, s.stopping = some (r, stage) → endIn r es = true
  known : ∀ r, outcomeIn r es = true → r < s.runs.length
  final : EachAfter EndsOnRecord es

theorem outcomeIn_append : outcomeIn r (es ++ fs) = (outcomeIn r es || outcomeIn r fs) := any_append

theorem endIn_append : endIn r (es ++ fs) = (endIn r es || endIn r fs) := any_append

theorem endIn_mono {r : ℕ} (h : endIn r es = true) : endIn r (es ++ fs) = true := by
  rw [endIn_append, h, Bool.true_or]

theorem outcomeIn_quiet (hquiet : ∀ r e, .run r e ∉ fs) (r : ℕ) : outcomeIn r fs = false := by
  refine any_eq_false.mpr fun e he => ?_
  cases e with
  | run r' e => exact absurd he (hquiet r' e)
  | _ => exact Bool.false_ne_true

theorem OnRecord.rest (h : OnRecord s es) (hreg : t.Registered) (hrest : Rest s t) (hquiet : ∀ r e, .run r e ∉ fs)
    (hterminated : ∀ (r : ℕ) (run run' : WorkerRun), s.runs[r]? = some run → t.runs[r]? = some run' →
      run'.terminateRequested = true → run.terminateRequested = true ∨ endIn r es = true)
    (hcancelled : ∀ (r : ℕ) (run run' : WorkerRun), s.runs[r]? = some run → t.runs[r]? = some run' →
      run'.cancelled = true → run.cancelled = true ∨ endIn r (es ++ fs) = true)
    (hstopping : ∀ r stage, t.stopping = some (r, stage) → endIn r (es ++ fs) = true)
    (hfinal : EachAfter (fun fs₁ e => EndsOnRecord (es ++ fs₁) e) fs) : OnRecord t (es ++ fs) := by
  have houtcome : ∀ r, outcomeIn r (es ++ fs) = outcomeIn r es := fun r => by
    rw [outcomeIn_append, outcomeIn_quiet hquiet, Bool.or_false]
  constructor
  · exact hreg
  · intro r run' hr'
    obtain ⟨run, hr, -, hphase, -⟩ := hrest.runs r run' hr'
    have hbefore := h.runs r run hr
    constructor
    · intro hmem
      rw [houtcome] at hmem
      rw [hphase]
      exact hbefore.settled hmem
    · intro hmark
      rw [houtcome, hphase]
      rcases hterminated r run run' hr hr' hmark with hmarked | hend
      · exact (hbefore.terminated hmarked).imp_right (·.imp_right endIn_mono)
      · exact .inr (.inr (endIn_mono hend))
    · intro hmark
      rw [hphase]
      rcases hcancelled r run run' hr hr' hmark with hmarked | hend
      · exact (hbefore.cancelled hmarked).imp_right endIn_mono
      · exact .inr hend
    · intro hleaving
      rw [houtcome]
      exact (hbefore.leaving (hphase ▸ hleaving)).imp_right endIn_mono
  · exact hstopping
  · intro r hmem
    rw [houtcome] at hmem
    rw [hrest.length]
    exact h.known r hmem
  · exact eachAfter_append h.final hfinal

theorem OnRecord.offered {message : Json} {now : ℤ} {offer : SessionOffer} (h : OnRecord s es) (hreg : t.Registered)
    (hruns : t.runs = s.runs ++ [{ offer := offer, initialOfferFrame := message, restartWindow := now }])
    (hstopping : t.stopping = s.stopping) : OnRecord t es := by
  have hcases : ∀ {r : ℕ} {run : WorkerRun}, t.runs[r]? = some run → s.runs[r]? = some run ∨
      r = s.runs.length ∧ run = { offer := offer, initialOfferFrame := message, restartWindow := now } :=
    fun hr => getElem?_snoc (hruns ▸ hr)
  constructor
  · exact hreg
  · intro r run hr
    rcases hcases hr with hold | ⟨rfl, rfl⟩
    · exact h.runs r run hold
    · refine ⟨fun hmem => absurd (h.known _ hmem) (Nat.lt_irrefl _), nofun,
        nofun, fun hleaving => absurd hleaving (by simp)⟩
  · intro r stage hstop
    exact h.stopping r stage (hstopping ▸ hstop)
  · intro r hmem
    rw [hruns, length_append]
    exact Nat.lt_of_lt_of_le (h.known r hmem) (Nat.le_add_right ..)
  · exact h.final

/-! ### A step of a run -/

def hasOutcome (res : List RunEvent) : Bool :=
  res.any fun e => match e with
    | .forwards _ frame => isTerminal frame
    | .refuses _ => true
    | _ => false

theorem outcomeIn_map_run (r' : ℕ) (res : List RunEvent) :
    outcomeIn r' (res.map (.run r)) = (decide (r = r') && hasOutcome res) := by
  unfold outcomeIn hasOutcome
  rw [any_map]
  induction res with
  | nil => exact (Bool.and_false _).symm
  | cons e _ ih =>
    rw [any_cons, any_cons, ih, Bool.and_or_distrib_left]
    congr 1
    cases e with
    | forwards => rfl
    | refuses => exact (Bool.and_true _).symm
    | _ => exact (Bool.and_false _).symm

theorem endIn_map_run (r' : ℕ) (res : List RunEvent) : endIn r' (res.map (.run r)) = false := by
  refine any_eq_false.mpr fun e he => ?_
  obtain ⟨e', -, rfl⟩ := mem_map.mp he
  exact Bool.false_ne_true

/-- The conditions on a step of one run. -/
structure RunKeepsRecord (env : BrokerEnv) (v : BrokerView) (run : WorkerRun) (a : RunAction)
    (outcome ended : Bool) : Prop where
  restarts : ∀ now, run.countsRestart env v a = some now →
    outcome = false ∧ (run.windowOver now = true ∨ run.restarts < 3)
  refuses : ∀ reason, a = .launchFails reason false → run.phase = .launching → run.restarts = 0 → ended = true
  terminates : ∀ frame now w, a = .receives (some frame) false now → run.phase = .serving w →
    validWorkerResponse env.size frame run.sessionID = true → frameType frame = "session_terminate" →
      outcome = true ∨ ended = true
  accepts : ∀ frame now w, a = .receives (some frame) true now → run.phase = .serving w →
    validWorkerResponse env.size frame run.sessionID = true → isAccepting frame = true → outcome = false

theorem recorded_leaving {run : WorkerRun} {outcome' : Bool} (h : run.Recorded outcome ended)
    (hphase : run.phase ≠ .over) (hmono : outcome = true → outcome' = true)
    (hwhy : outcome' = true ∨ ended = true) : (run.goTo .leaving).Recorded outcome' ended where
  settled := fun _ => rfl
  terminated := fun hmark => .inr (((h.terminated hmark).resolve_left hphase).imp_left hmono)
  cancelled := fun hmark => .inr ((h.cancelled hmark).resolve_left hphase)
  leaving := fun _ => hwhy

theorem recorded_goTo {run : WorkerRun} {phase : RunPhase} (h : run.Recorded outcome ended)
    (hnone : outcome = false) (hover : run.phase ≠ .over) (hleaving : phase ≠ .leaving) :
    (run.goTo phase).Recorded outcome ended where
  settled := fun hmem => by rw [hnone] at hmem; cases hmem
  terminated := fun hmark => .inr ((h.terminated hmark).resolve_left hover)
  cancelled := fun hmark => .inr ((h.cancelled hmark).resolve_left hover)
  leaving := fun hphase => absurd hphase hleaving

theorem outcome_of_unsettled {run : WorkerRun} (h : run.Recorded outcome ended)
    (hphase : run.phase.settles = false) : outcome = false := by
  by_contra hmem
  have hsettled := h.settled (Bool.not_eq_false _ ▸ hmem)
  rw [hphase] at hsettled
  cases hsettled

theorem recorded_of_done {run : WorkerRun} (h : run.Recorded outcome ended) (hdone : run.done = true)
    (hover : run.phase ≠ .over) : outcome = true ∨ ended = true := by
  rcases (Bool.or_eq_true ..).mp hdone with hmark | hmark
  · exact (h.terminated hmark).resolve_left hover
  · exact .inr ((h.cancelled hmark).resolve_left hover)

/-- A run that moves on keeps the account of its outcome. -/
theorem recorded_of_moves {v : BrokerView} {run run' : WorkerRun} {ops : List WorkerOp}
    {res : List RunEvent} (hmove : RunMoves env v run act run' ops res) (h : run.Recorded outcome ended)
    (hgood : RunKeepsRecord env v run act outcome ended)
    (hcurrent : v.current = false → run.terminateRequested = true ∨ ended = true) :
    run'.Recorded (outcome || hasOutcome res) ended := by
  have hquiet : ∀ {o : Bool}, o = outcome → (o || hasOutcome []) = outcome := fun ho => by
    rw [ho]
    exact Bool.or_false _
  cases hmove with
  | leaves hphase hwhy =>
    rw [hquiet rfl]
    refine recorded_leaving h hphase.2 id ?_
    rcases hwhy with hdone | hgone
    · exact recorded_of_done h hdone hphase.2
    · exact (hcurrent hgone).elim (fun hmark => (h.terminated hmark).resolve_left hphase.2) .inr
  | readied hphase | backsOff hphase | paused hphase =>
    rw [hquiet rfl]
    exact recorded_goTo h (outcome_of_unsettled h (by rw [hphase]; rfl)) (by simp [hphase]) (by simp)
  | launches hphase =>
    rw [show hasOutcome [.launches run.sessionID (run.currentOfferFrame env)] = false from rfl, Bool.or_false]
    exact recorded_goTo h (outcome_of_unsettled h (by rw [hphase]; rfl)) (by simp [hphase]) (by simp)
  | refused reason sent ha hphase hfirst =>
    refine recorded_leaving h (by simp [hphase]) (fun hmem => by rw [hmem]; rfl) ?_
    cases sent with
    | false => exact .inr (hgood.refuses reason ha hphase hfirst)
    | true => exact .inl (Bool.or_true _)
  | started hphase =>
    rw [show hasOutcome [.starts run.sessionID v.nextWorker] = false from rfl, Bool.or_false]
    exact recorded_goTo h (outcome_of_unsettled h (by rw [hphase]; rfl)) (by simp [hphase]) (by simp)
  | attached w hphase =>
    rw [show hasOutcome [.attaches w] = false from rfl, Bool.or_false]
    have hgone : (run.goTo (.attached w)).Recorded outcome ended :=
      recorded_goTo h (outcome_of_unsettled h (by rw [hphase]; rfl)) (by simp [hphase]) (by simp)
    exact ⟨hgone.settled, hgone.terminated, hgone.cancelled, hgone.leaving⟩
  | served w hphase =>
    rw [hquiet rfl]
    have hgone : (run.goTo (.serving w)).Recorded outcome ended :=
      recorded_goTo h (outcome_of_unsettled h (by rw [hphase]; rfl)) (by simp [hphase]) (by simp)
    exact ⟨hgone.settled, hgone.terminated, hgone.cancelled, hgone.leaving⟩
  -- a frame of the worker: a termination settles the outcome, others leave it
  | forwarded w frame sent now ha hphase hvalid =>
    have hsettles : run.phase.settles = true := by
      rw [hphase]
      rfl
    have hover : run.phase ≠ .over := by simp [hphase]
    have hmono : outcome = true ∨ ended = true →
        (outcome || hasOutcome (run.forward w frame sent).2.2) = true ∨ ended = true :=
      .imp_left fun hmem => by rw [hmem, Bool.true_or]
    unfold WorkerRun.forward
    split
    · rename_i hterminate
      refine ⟨fun _ => hsettles, fun _ => .inr ?_, h.cancelled, fun hleaving => absurd hleaving (by simp [hphase])⟩
      cases sent with
      | false => exact hmono (hgood.terminates frame now w ha hphase hvalid hterminate)
      | true =>
        have hterminal : isTerminal frame = true := by
          unfold isTerminal
          rw [decide_eq_true hterminate, Bool.true_or]
        refine .inl ?_
        rw [show hasOutcome (if true = true then [RunEvent.forwards w frame] else []) =
          (isTerminal frame || false) from rfl,
          hterminal]
        exact Bool.or_true _
    · exact ⟨fun _ => hsettles, fun hmark => .inr (hmono ((h.terminated hmark).resolve_left hover)),
        h.cancelled, fun hleaving => absurd hleaving (by simp [hphase])⟩
  -- a restart, unless they were too many
  | restarted now phase hphase hcounts =>
    rw [hquiet rfl]
    have hover : run.phase ≠ .over := by
      rcases hphase with ⟨hbackoff, -⟩ | ⟨⟨w, hserving⟩, -⟩
      · simp [hbackoff]
      · simp [hserving]
    have hcounted : (run.countRestart now).Recorded outcome ended := by
      unfold WorkerRun.countRestart
      split
      · exact ⟨h.settled, h.terminated, h.cancelled, h.leaving⟩
      · exact ⟨h.settled, h.terminated, h.cancelled, h.leaving⟩
    have hsamePhase : (run.countRestart now).phase = run.phase := by
      unfold WorkerRun.countRestart
      split
      · rfl
      · rfl
    have hnone : outcome = false := by
      rcases hcounts with ⟨-, hbackoff⟩ | hcounts
      · exact outcome_of_unsettled h (by rw [hbackoff]; rfl)
      · exact (hgood.restarts now hcounts).1
    unfold WorkerRun.orGiveUp
    split
    · rename_i hmany
      rcases hcounts with ⟨hdone, hbackoff⟩ | hcounts
      · exact recorded_leaving hcounted (hsamePhase ▸ hover) id (recorded_of_done h hdone hover)
      · exfalso
        have hfew := (hgood.restarts now hcounts).2
        unfold WorkerRun.countRestart at hmany
        split at hmany
        · simp at hmany
        · rename_i hopen
          have hlt := hfew.resolve_left hopen
          dsimp only at hmany
          omega
    · refine recorded_goTo hcounted hnone (hsamePhase ▸ hover) ?_
      rcases hphase with ⟨-, rfl⟩ | ⟨-, rfl⟩
      · simp
      · simp
  | removed =>
    exact ⟨fun _ => rfl, fun _ => .inl rfl, fun _ => .inl rfl, fun hleaving => absurd hleaving (by simp)⟩
  | ended =>
    exact ⟨fun _ => rfl, fun _ => .inl rfl, fun _ => .inl rfl, fun hleaving =>
      absurd hleaving (by simp [WorkerRun.goTo])⟩

theorem final_of_moves {v : BrokerView} {r : ℕ} {run run' : WorkerRun} {ops : List WorkerOp}
    {res : List RunEvent} (hmove : RunMoves env v run act run' ops res)
    (h : run.Recorded (outcomeIn r es) (endIn r es))
    (hgood : RunKeepsRecord env v run act (outcomeIn r es) (endIn r es)) :
    EachAfter (fun fs₁ e => EndsOnRecord (es ++ fs₁) e) (res.map (.run r)) := by
  have hone : ∀ {e : RunEvent}, EndsOnRecord es (.run r e) →
      EachAfter (fun fs₁ e => EndsOnRecord (es ++ fs₁) e) ([e].map (.run r)) := by
    intro e hfinal
    refine eachAfter_snoc eachAfter_nil ?_
    rw [append_nil]
    exact hfinal
  cases hmove with
  | launches hphase => exact hone (outcome_of_unsettled h (by rw [hphase]; rfl))
  | refused _ sent =>
    cases sent with
    | false => exact eachAfter_nil
    | true => exact hone trivial
  | started | attached => exact hone trivial
  | forwarded w frame sent now ha hphase hvalid =>
    cases sent with
    | false => exact eachAfter_nil
    | true => exact hone fun haccepts => hgood.accepts frame now w ha hphase hvalid haccepts
  | removed hphase => exact hone (h.leaving hphase)
  | _ => exact eachAfter_nil

theorem runKeepsRecord_of {r : ℕ} {run : WorkerRun} (h : KeepsRecord env s es (.run r act))
    (hr : s.runs[r]? = some run) :
    RunKeepsRecord env (s.view r run) run act (outcomeIn r es) (endIn r es) where
  restarts := fun now hcounts => h.restarts r act run now rfl hr hcounts
  refuses := fun reason ha => by subst ha; exact h.refuses r run reason rfl hr
  terminates := fun frame now w ha => by subst ha; exact h.terminates r run frame now w rfl hr
  accepts := fun frame now w ha => by subst ha; exact h.accepts r run frame now w rfl hr

theorem OnRecord.run (h : OnRecord s es) {r : ℕ} {run run' : WorkerRun} {act : RunAction} {ops : List WorkerOp}
    {res : List RunEvent} (hreg : t.Registered) (hgood : KeepsRecord env s es (.run r act))
    (hr : s.runs[r]? = some run) (hmove : RunMoves env (s.view r run) run act run' ops res)
    (hruns : t.runs = (s.onRun r fun _ => run').runs) (hstopping : t.stopping = s.stopping) :
    OnRecord t (es ++ res.map (.run r)) := by
  have houtcome : ∀ r', outcomeIn r' (es ++ res.map (.run r)) =
      (outcomeIn r' es || (decide (r = r') && hasOutcome res)) := fun r' => by
    rw [outcomeIn_append, outcomeIn_map_run]
  have hend : ∀ r', endIn r' (es ++ res.map (.run r)) = endIn r' es := fun r' => by
    rw [endIn_append, endIn_map_run, Bool.or_false]
  have hcurrent : (s.view r run).current = false → run.terminateRequested = true ∨ endIn r es = true := by
    intro hgone
    cases hmark : run.terminateRequested with
    | true => exact .inl rfl
    | false =>
      rcases h.registered.current r run hr hmark with hlookup | hstop
      · have hnot : s.sessions.lookup run.sessionID ≠ some r := of_decide_eq_false hgone
        exact absurd hlookup hnot
      · exact .inr (h.stopping r .mark hstop)
  have hkeeps := runKeepsRecord_of hgood hr
  constructor
  · exact hreg
  · intro r' run₁ hr₁
    rw [hruns] at hr₁
    obtain ⟨run₂, hr₂, rfl⟩ := getElem?_onRun hr₁
    rw [houtcome, hend]
    by_cases hsame : r = r'
    · subst hsame
      rw [if_pos rfl, decide_eq_true rfl, Bool.true_and]
      exact recorded_of_moves hmove (h.runs r run hr) hkeeps hcurrent
    · rw [if_neg hsame, decide_eq_false hsame, Bool.false_and, Bool.or_false]
      exact h.runs r' run₂ hr₂
  · intro r' stage hstop
    rw [hend]
    exact h.stopping r' stage (hstopping ▸ hstop)
  · intro r' hmem
    rw [houtcome, Bool.or_eq_true, Bool.and_eq_true] at hmem
    have hlength : t.runs.length = s.runs.length := by
      rw [hruns]
      exact length_modify ..
    rw [hlength]
    rcases hmem with hbefore | ⟨hsame, -⟩
    · exact h.known r' hbefore
    · obtain rfl : r = r' := of_decide_eq_true hsame
      exact (List.getElem?_eq_some_iff.mp hr).1
  · exact eachAfter_append h.final (final_of_moves hmove (h.runs r run hr) hkeeps)

theorem OnRecord.same (h : OnRecord s es) (hreg : t.Registered) (hruns : t.runs = s.runs)
    (hquiet : ∀ r e, .run r e ∉ fs) (hstopping : ∀ r stage, t.stopping = some (r, stage) →
      endIn r (es ++ fs) = true)
    (hfinal : EachAfter (fun fs₁ e => EndsOnRecord (es ++ fs₁) e) fs) : OnRecord t (es ++ fs) := by
  refine h.rest hreg (rest_of_runs hruns) hquiet (fun r run run' hr hr' hmark => .inl ?_)
    (fun r run run' hr hr' hmark => .inl ?_) hstopping hfinal
  · rw [hruns] at hr'
    exact Option.some.inj (hr.symm.trans hr') ▸ hmark
  · rw [hruns] at hr'
    exact Option.some.inj (hr.symm.trans hr') ▸ hmark

theorem OnRecord.change (h : OnRecord s es) (hreg : t.Registered) {r : ℕ} {f : WorkerRun → WorkerRun}
    (hruns : t.runs = (s.onRun r f).runs)
    (hf : ∀ run, run.Goes (f run) ∧ (f run).phase = run.phase ∧ (f run).restarts = run.restarts)
    (hterminated : ∀ run, (f run).terminateRequested = run.terminateRequested ∨ endIn r es = true)
    (hcancelled : ∀ run, (f run).cancelled = run.cancelled ∨ endIn r es = true)
    (hstopping : ∀ r stage, t.stopping = some (r, stage) → endIn r es = true) : OnRecord t es := by
  have hmark : ∀ (mark : WorkerRun → Bool), (∀ run, mark (f run) = mark run ∨ endIn r es = true) →
      ∀ (r' : ℕ) (run run' : WorkerRun), s.runs[r']? = some run → t.runs[r']? = some run' → mark run' = true →
        mark run = true ∨ endIn r' es = true := by
    intro mark hleaves r' run run' hr hr' hmarked
    rw [hruns] at hr'
    obtain ⟨run₁, hr₁, rfl⟩ := getElem?_onRun hr'
    cases hr.symm.trans hr₁
    split at hmarked
    · rename_i hsame
      exact (hleaves run).imp (fun hleft => hleft.symm.trans hmarked) fun hend => hsame ▸ hend
    · exact .inl hmarked
  have hrest : OnRecord t (es ++ []) := h.rest hreg (rest_onRun hruns hf) (by simp)
    (hmark WorkerRun.terminateRequested hterminated)
    (fun r' run run' hr hr' hmarked => (hmark WorkerRun.cancelled hcancelled r' run run' hr hr' hmarked).imp_right
      endIn_mono)
    (fun r' stage hstop => endIn_mono (hstopping r' stage hstop)) eachAfter_nil
  rw [append_nil] at hrest
  exact hrest

/-- Every step keeps each run with its recorded outcome. -/
theorem OnRecord.step (h : OnRecord s es) (hgood : KeepsRecord env s es a)
    (hstep : (sessionWorkerBroker env).step s a = some (t, fs)) : OnRecord t (es ++ fs) := by
  have hmoves := moves_of_step hstep
  have hreg := h.registered.step hmoves
  have hone : ∀ {e : BrokerEvent}, EndsOnRecord es e → EachAfter (fun fs₁ e => EndsOnRecord (es ++ fs₁) e) [e] := by
    intro e hfinal
    refine eachAfter_snoc eachAfter_nil ?_
    rw [append_nil]
    exact hfinal
  have hstays : ∀ r stage, s.stopping = some (r, stage) → endIn r (es ++ fs) = true :=
    fun r stage hstop => endIn_mono (h.stopping r stage hstop)
  cases hmoves with
  | same | writerStops => exact h.same hreg rfl (by simp) hstays eachAfter_nil
  | declined | delivered => exact h.same hreg rfl (by simp) hstays (hone trivial)
  | offered =>
    rw [append_nil]
    exact h.offered hreg rfl rfl
  | queued =>
    rw [append_nil]
    exact h.change hreg rfl (fun _ => ⟨⟨rfl, rfl, id, id, .same _⟩, rfl, rfl⟩) (fun _ => .inl rfl)
      (fun _ => .inl rfl) h.stopping
  -- stopped by the server, or because its queue is full, which the condition excludes
  | stops _ _ _ _ _ hwhy =>
    rcases hwhy with rfl | ⟨rfl, hfull⟩
    · refine h.same hreg rfl (by simp) (fun r' stage hstop => ?_) (hone trivial)
      cases hstop
      rw [endIn_append]
      exact Bool.or_eq_true_iff.mpr (.inr (by simp [endIn, BrokerEvent.isEndOf]))
    · rw [hgood.room] at hfull
      cases hfull
  | stopNext r stage hstopping =>
    have hended := h.stopping r stage hstopping
    have hstop : ∀ (r' : ℕ) (stage stage' : StopStage), some (r, stage) = some (r', stage') →
        endIn r' es = true := by
      intro r' stage stage' hsame
      cases hsame
      exact hended
    cases stage with
    | mark =>
      rw [append_nil]
      exact h.change hreg rfl
        (fun _ => ⟨⟨rfl, rfl, fun _ => rfl, id, .same _⟩, rfl, rfl⟩) (fun _ => .inr hended) (fun _ => .inl rfl)
        fun r' stage => hstop r' .cancel stage
    | cancel =>
      rw [append_nil]
      exact h.change hreg rfl
        (fun _ => ⟨⟨rfl, rfl, id, fun _ => rfl, .same _⟩, rfl, rfl⟩) (fun _ => .inl rfl) (fun _ => .inr hended)
        fun r' stage => hstop r' .close stage
    | close =>
      have hruns : (s.stopNext r .close).runs = s.runs := by
        unfold stopNext
        dsimp only
        split
        · rfl
        · rfl
      have hnone : (s.stopNext r .close).stopping = none := by
        unfold stopNext
        dsimp only
        split
        · rfl
        · rfl
      refine h.same hreg hruns (by simp) (fun r' stage hstop => ?_) eachAfter_nil
      rw [hnone] at hstop
      simp at hstop
  -- the agent stops: every run ends on record
  | scope =>
    have hrest : Rest s { s with runs := s.runs.map fun run => { run with cancelled := true } } := by
      refine ⟨length_map .., fun r run' hr' => ?_⟩
      rw [getElem?_map] at hr'
      obtain ⟨run, hr, rfl⟩ := Option.map_eq_some_iff.mp hr'
      exact ⟨run, hr, ⟨rfl, rfl, id, fun _ => rfl, .same _⟩, rfl, rfl⟩
    refine h.rest hreg hrest (by simp) (fun r run run' hr hr' hmark => .inl ?_)
      (fun r run run' hr hr' hmark => .inr ?_) hstays fun fs₁ e fs₂ hsplit => ?_
    · rw [getElem?_map, hr] at hr'
      cases hr'
      exact hmark
    · rw [endIn_append]
      refine Bool.or_eq_true_iff.mpr (.inr (any_eq_true.mpr ⟨.agentStops r, mem_map.mpr ⟨r, ?_, rfl⟩, ?_⟩))
      · exact mem_range.mpr (List.getElem?_eq_some_iff.mp hr).1
      · exact decide_eq_true rfl
    · have hmem : e ∈ (List.range s.runs.length).map .agentStops :=
        hsplit ▸ mem_append_right fs₁ (mem_cons_self ..)
      obtain ⟨r', -, rfl⟩ := mem_map.mp hmem
      trivial
  | run _ _ run _ _ _ ha hr hmove =>
    subst ha
    exact h.run hreg hgood hr hmove (foldl_apply_runs ..) (foldl_apply_stopping ..)
  | takes _ r _ _ rest =>
    rw [append_nil]
    exact h.change hreg rfl
      (fun _ => ⟨⟨rfl, rfl, id, id, .same _⟩, rfl, rfl⟩) (fun _ => .inl rfl) (fun _ => .inl rfl) h.stopping

theorem onRecord_start : OnRecord {} [] where
  registered := registered_start
  runs := fun _ _ hr => absurd hr (by simp)
  stopping := fun _ _ h => absurd h (by simp)
  known := fun _ h => absurd h (by simp [outcomeIn])
  final := eachAfter_nil

end WorkerBroker

/-- In a run whose steps keep the record no run removes its session in silence, unless the server or the agent
has ended it, and none launches a worker or accepts anything after its outcome. -/
theorem sessions_end_on_record {env : BrokerEnv} {s : WorkerBroker} {es : List BrokerEvent}
    (h : (sessionWorkerBroker env).Reach (fun s es a => KeepsRecord env s es a) {} s es) : EachAfter EndsOnRecord es :=
  (h.invariant WorkerBroker.OnRecord WorkerBroker.onRecord_start fun _ _ _ _ _ hs hgood hstep =>
    hs.step hgood hstep).final

/-- The worker of `sampleOffer` refuses it. -/
def sampleRefusal : Json :=
  .obj [("type", .str "session_answer"), ("session_id", .str sampleSession), ("payload", .obj [
    ("session_id", .str sampleSession), ("accepted", .bool false), ("reason", .str "user_denied")])]

/-- The worker that the run serves crashes, and the next one is launched and served. -/
def restarting (now : ℤ) : List BrokerAction := [.run 0 (.readerFails now), .run 0 .pauseOver] ++ serving 0

/-- At last the first run removes its session, without an outcome or an end before. -/
def endsSilently (es : List BrokerEvent) : Bool :=
  match es.reverse with
  | .run 0 .removes :: past => !outcomeIn 0 past.reverse && !endIn 0 past.reverse
  | _ => false

/-- At last the first run launches a worker, after an outcome. -/
def launchesAgain (es : List BrokerEvent) : Bool :=
  match es.reverse with
  | .run 0 (.launches _ _) :: past => outcomeIn 0 past.reverse
  | _ => false

/-- Four crashes within a minute: the run gives up, and removes its session in silence. A worker that refuses
the offer and exits: the offer is put to the next worker. -/
theorem session_ends_in_silence : ¬ (∀ (env : BrokerEnv) (s : WorkerBroker) (es : List BrokerEvent),
      (sessionWorkerBroker env).Reach (fun _ _ _ => True) {} s es →
        ∀ es₁ r es₂, es = es₁ ++ .run r .removes :: es₂ → outcomeIn r es₁ = true ∨ endIn r es₁ = true) ∧
    ¬ ∀ (env : BrokerEnv) (s : WorkerBroker) (es : List BrokerEvent),
      (sessionWorkerBroker env).Reach (fun _ _ _ => True) {} s es → ∀ es₁ r id frame es₂,
        es = es₁ ++ .run r (.launches id frame) :: es₂ → outcomeIn r es₁ = false := by
  constructor
  · intro hclaim
    have hsilent : ∃ e ∈ (sessionWorkerBroker sampleEnv).exec (fun _ _ _ => true) {} []
        (.message (sampleOffer 1) 0 :: serving 0 ++ restarting 1 ++ restarting 2 ++ restarting 3 ++
          [.run 0 (.readerFails 4), .run 0 .leave]),
        endsSilently e.2 = true := by decide +kernel
    obtain ⟨⟨s, es⟩, hexec, hsilent⟩ := hsilent
    have hends := hclaim sampleEnv s es (Machine.reach_of_exec (fun _ _ _ _ => trivial) hexec)
    unfold endsSilently at hsilent
    split at hsilent
    · rename_i past hes
      rw [Bool.and_eq_true, Bool.not_eq_true', Bool.not_eq_true'] at hsilent
      have hsplit : es = past.reverse ++ .run 0 .removes :: [] := by
        rw [← reverse_reverse es, hes, reverse_cons]
      rcases hends _ _ _ hsplit with houtcome | hend
      · cases hsilent.1.symm.trans houtcome
      · cases hsilent.2.symm.trans hend
    · cases hsilent
  · intro hclaim
    have hagain : ∃ e ∈ (sessionWorkerBroker sampleEnv).exec (fun _ _ _ => true) {} []
        (.message (sampleOffer 1) 0 :: serving 0 ++ [.run 0 (.receives (some sampleRefusal) true 1),
          .run 0 (.readerFails 2), .run 0 .pauseOver, .run 0 .check, .run 0 .launch]),
        launchesAgain e.2 = true := by decide +kernel
    obtain ⟨⟨s, es⟩, hexec, hagain⟩ := hagain
    have hfinal := hclaim sampleEnv s es (Machine.reach_of_exec (fun _ _ _ _ => trivial) hexec)
    unfold launchesAgain at hagain
    split at hagain
    · rename_i id frame past hes
      have hsplit : es = past.reverse ++ .run 0 (.launches id frame) :: [] := by
        rw [← reverse_reverse es, hes, reverse_cons]
      cases (hfinal _ _ _ _ _ hsplit).symm.trans hagain
    · cases hagain

/-- `RunKeepsRecord`, evaluated. -/
def runKeepsRecord (env : BrokerEnv) (v : BrokerView) (run : WorkerRun) (outcome ended : Bool)
    (a : RunAction) : Bool :=
  ((run.countsRestart env v a).all fun now => !outcome && (run.windowOver now || run.restarts < 3)) &&
    match a, run.phase with
    | .launchFails _ false, .launching => run.restarts ≠ 0 || ended
    | .receives (some frame) sent _, .serving _ =>
      !validWorkerResponse env.size frame run.sessionID ||
        (if sent then !isAccepting frame || !outcome else frameType frame ≠ "session_terminate" || outcome || ended)
    | _, _ => true

/-- `KeepsRecord`, evaluated. -/
def keepsRecord (env : BrokerEnv) (s : WorkerBroker) (es : List BrokerEvent) (a : BrokerAction) : Bool :=
  !s.overflows a && match a with
    | .run r act => s.runs[r]?.all fun run => runKeepsRecord env (s.view r run) run (outcomeIn r es)
      (endIn r es) act
    | _ => true

theorem keepsRecord_of {env : BrokerEnv} {s : WorkerBroker} {es : List BrokerEvent} {a : BrokerAction}
    (h : keepsRecord env s es a = true) : KeepsRecord env s es a := by
  unfold keepsRecord at h
  rw [Bool.and_eq_true, Bool.not_eq_true'] at h
  obtain ⟨hroom, hruns⟩ := h
  have hrun : ∀ {r : ℕ} {act : RunAction} {run : WorkerRun}, a = .run r act → s.runs[r]? = some run →
      runKeepsRecord env (s.view r run) run (outcomeIn r es) (endIn r es) act = true := by
    rintro r act run rfl hr
    dsimp only at hruns
    rw [hr, Option.all_some] at hruns
    exact hruns
  constructor
  · exact hroom
  · intro r act run now ha hr hcounts
    have hkeeps := (Bool.and_eq_true_iff.mp (hrun ha hr)).1
    rw [hcounts, Option.all_some] at hkeeps
    simpa using hkeeps
  · intro r run reason ha hr hphase hfirst
    have hkeeps := (Bool.and_eq_true_iff.mp (hrun ha hr)).2
    rw [hphase] at hkeeps
    simpa [hfirst] using hkeeps
  · intro r run frame now w ha hr hphase hvalid hterminate
    have hkeeps := (Bool.and_eq_true_iff.mp (hrun ha hr)).2
    rw [hphase] at hkeeps
    simpa [hvalid, hterminate] using hkeeps
  · intro r run frame now w ha hr hphase hvalid haccepts
    have hkeeps := (Bool.and_eq_true_iff.mp (hrun ha hr)).2
    rw [hphase] at hkeeps
    simpa [hvalid, haccepts] using hkeeps

/-- A worker crashes, the next one ends the session. -/
theorem sessions_end_on_record_sample : ∃ es : List BrokerEvent, es.any (fun e => match e with
      | .run 0 .removes => true
      | _ => false) = true ∧ EachAfter EndsOnRecord es := by
  have hrun : ∃ e ∈ (sessionWorkerBroker sampleEnv).exec (fun s es a => keepsRecord sampleEnv s es a) {} []
      (.message (sampleOffer 1) 0 :: serving 0 ++ restarting 1 ++ [.run 0 (.receives (some (.obj [
        ("type", .str "session_terminate"), ("session_id", .str sampleSession), ("payload", .obj [
          ("session_id", .str sampleSession), ("reason", .str "user_closed")])])) true 2),
        .run 0 (.readerFails 3), .run 0 .leave]),
      e.2.any (fun e => match e with
        | .run 0 .removes => true
        | _ => false) = true := by decide +kernel
  obtain ⟨⟨s, es⟩, hexec, hremoves⟩ := hrun
  have hreach : (sessionWorkerBroker sampleEnv).Reach (fun s es a => KeepsRecord sampleEnv s es a) {} s es :=
    Machine.reach_of_exec (fun _ _ _ => keepsRecord_of) hexec
  exact ⟨es, hremoves, sessions_end_on_record hreach⟩

end LigamentApps.LinkAgent
