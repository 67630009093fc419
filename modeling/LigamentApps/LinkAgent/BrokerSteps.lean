import LigamentApps.LinkAgent.SessionWorkerBroker

/-!
# The steps of the broker

What one step of a run and one step of the broker does, said once; and what no step changes: the offer of a
run, and that it is terminated or cancelled. A run that is not terminated is the one of its session, or the
handler is about to mark it. -/

namespace LigamentApps.LinkAgent

open List Option Bool

def RunPhase.worker? : RunPhase → Option ℕ
  | .launched w | .attached w | .serving w => some w
  | _ => none

namespace WorkerRun

/-- The time at which a step counts a restart of a run that is not done. -/
def countsRestart (env : BrokerEnv) (v : BrokerView) (run : WorkerRun) (a : RunAction) : Option ℤ :=
  if run.done then none
  else match a, run.phase with
    | .receives frame _ now, .serving _ =>
      if (frame.filter fun f => validWorkerResponse env.size f run.sessionID).isSome then none else some now
    | .readerFails now, .serving _ => some now
    | .writerFails now, .serving w => if v.writerStopped w then some now else none
    | .backoffOver now, .backoff => some now
    | _, _ => none

end WorkerRun

/-- What a step of a run does: the run after it, what it does beside, and its events. -/
inductive RunMoves (env : BrokerEnv) (v : BrokerView) (run : WorkerRun) (a : RunAction) :
    WorkerRun → List WorkerOp → List RunEvent → Prop
  | leaves (hphase : run.phase ≠ .leaving ∧ run.phase ≠ .over) (hwhy : run.done = true ∨ v.current = false) :
    RunMoves env v run a (run.goTo .leaving) (run.phase.worker?.map WorkerOp.close).toList []
  | readied (hphase : run.phase = .top) (hgoes : run.done = false) : RunMoves env v run a (run.goTo .ready) [] []
  | launches (hphase : run.phase = .ready) :
    RunMoves env v run a (run.goTo .launching) [] [.launches run.sessionID (run.currentOfferFrame env)]
  | refused (reason : String) (sent : Bool) (ha : a = .launchFails reason sent)
    (hphase : run.phase = .launching) (hfirst : run.restarts = 0) :
    RunMoves env v run a (run.goTo .leaving) [] (if sent then [.refuses reason] else [])
  | backsOff (hphase : run.phase = .launching) (hlater : run.restarts ≠ 0) :
    RunMoves env v run a (run.goTo .backoff) [] []
  | started (hphase : run.phase = .launching) :
    RunMoves env v run a (run.goTo (.launched v.nextWorker)) [.launch] [.starts run.sessionID v.nextWorker]
  | attached (w : ℕ) (hphase : run.phase = .launched w) (hcurrent : v.current = true)
    (hgoes : run.cancelled = false) :
    RunMoves env v run a { run with process := some w, phase := .attached w } [] [.attaches w]
  | served (w : ℕ) (hphase : run.phase = .attached w) :
    RunMoves env v run a
      { run with outbound := if run.restarts > 0 then [] else run.outbound, phase := .serving w } [.serve w] []
  | forwarded (w : ℕ) (frame : Json) (sent : Bool) (now : ℤ) (ha : a = .receives (some frame) sent now)
    (hphase : run.phase = .serving w) (hvalid : validWorkerResponse env.size frame run.sessionID = true) :
    RunMoves env v run a (run.forward w frame sent).1 [] (run.forward w frame sent).2.2
  | restarted (now : ℤ) (phase : RunPhase) (hphase : run.phase = .backoff ∧ phase = .top ∨
      (∃ w, run.phase = .serving w) ∧ phase = .pausing)
    (hcounts : run.done = true ∧ run.phase = .backoff ∨ run.countsRestart env v a = some now) :
    RunMoves env v run a ((run.countRestart now).orGiveUp phase) (run.phase.worker?.map WorkerOp.close).toList []
  | paused (hphase : run.phase = .pausing) : RunMoves env v run a (run.goTo .top) [] []
  | removed (hphase : run.phase = .leaving) (hcurrent : v.current = true) :
    RunMoves env v run a { run with cancelled := true, terminateRequested := true, phase := .over }
      (.unregister run.sessionID :: (run.process.map WorkerOp.close).toList) [.removes]
  | ended (hphase : run.phase = .leaving) (hcurrent : v.current = false) : RunMoves env v run a (run.goTo .over) [] []

section RunMoves

variable {env : BrokerEnv} {v : BrokerView} {run run' : WorkerRun} {a : RunAction} {ops : List WorkerOp}
  {es : List RunEvent}

theorem moves_afterWorker {w : ℕ} {now : ℤ} (hphase : run.phase = .serving w)
    (hcounts : run.done = false → run.countsRestart env v a = some now) :
    RunMoves env v run a (run.afterWorker now) [.close w] [] := by
  have hops : [WorkerOp.close w] = (run.phase.worker?.map WorkerOp.close).toList := by
    rw [hphase]
    rfl
  unfold WorkerRun.afterWorker
  rw [hops]
  split
  · rename_i hdone
    exact .leaves (by simp [hphase]) (.inl hdone)
  · rename_i hgoes
    exact .restarted now .pausing (.inr ⟨⟨w, hphase⟩, rfl⟩) (.inr (hcounts (not_eq_true _ ▸ hgoes)))

theorem done_of_cancelled (h : run.cancelled = true) : run.done = true := by
  unfold WorkerRun.done
  rw [h, Bool.or_true]

theorem moves_leaving {p : RunPhase} (hphase : run.phase = p) (hp : p ≠ .leaving ∧ p ≠ .over)
    (hwhy : run.done = true ∨ v.current = false) :
    RunMoves env v run a (run.goTo .leaving) (p.worker?.map WorkerOp.close).toList [] := by
  subst hphase
  exact .leaves hp hwhy

/-- The step function of a run, inverted: one constructor of `RunMoves` for each of its branches. -/
theorem moves_of_run_step (h : run.step env v a = some (run', ops, es)) : RunMoves env v run a run' ops es := by
  unfold WorkerRun.step at h
  split at h
  · rename_i hphase
    cases h
    split
    · rename_i hdone
      exact moves_leaving hphase (by simp) (.inl hdone)
    · rename_i hgoes
      exact .readied hphase (not_eq_true _ ▸ hgoes)
  · rename_i hphase
    cases h
    exact .launches hphase
  · rename_i reason sent hphase
    split at h
    · rename_i hfirst
      cases h
      exact .refused reason sent rfl hphase hfirst
    · rename_i hlater
      cases h
      exact .backsOff hphase hlater
  · rename_i hphase
    cases h
    exact .started hphase
  · rename_i w hphase
    split at h
    · rename_i hmay
      cases h
      rw [and_eq_true, not_eq_true'] at hmay
      exact .attached w hphase hmay.1 hmay.2
    · rename_i hmay
      cases h
      have hwhy : run.done = true ∨ v.current = false := by
        cases hcancelled : run.cancelled with
        | true => exact .inl (done_of_cancelled hcancelled)
        | false =>
          rw [hcancelled] at hmay
          exact .inr (by simpa using hmay)
      exact moves_leaving hphase (by simp) hwhy
  · rename_i w hphase
    cases h
    exact .served w hphase
  · rename_i hphase
    split at h
    · rename_i hcancelled
      cases h
      exact moves_leaving hphase (by simp) (.inl (done_of_cancelled hcancelled))
    · simp at h
  · rename_i w hphase
    split at h
    · rename_i hcancelled
      cases h
      exact moves_leaving hphase (by simp) (.inl (done_of_cancelled hcancelled))
    · simp at h
  · rename_i hphase
    split at h
    · rename_i hcancelled
      cases h
      exact moves_leaving hphase (by simp) (.inl (done_of_cancelled hcancelled))
    · simp at h
  · rename_i frame sent now w hphase
    split at h
    · rename_i f hframe
      obtain ⟨rfl, hvalid⟩ := filter_eq_some_iff.mp hframe
      cases h
      exact .forwarded w f sent now rfl hphase hvalid
    · rename_i hframe
      cases h
      refine moves_afterWorker hphase fun hgoes => ?_
      unfold WorkerRun.countsRestart
      rw [hgoes, hphase]
      dsimp only
      rw [hframe]
      rfl
  · rename_i now w hphase
    cases h
    refine moves_afterWorker hphase fun hgoes => ?_
    unfold WorkerRun.countsRestart
    rw [hgoes, hphase]
    rfl
  · rename_i now w hphase
    split at h
    · rename_i hstopped
      cases h
      refine moves_afterWorker hphase fun hgoes => ?_
      unfold WorkerRun.countsRestart
      rw [hgoes, hphase]
      dsimp only
      rw [if_pos hstopped]
      rfl
    · simp at h
  · rename_i hphase
    cases h
    exact .paused hphase
  · rename_i now hphase
    cases h
    have hcounts : run.done = true ∧ run.phase = .backoff ∨
        run.countsRestart env v (.backoffOver now) = some now := by
      cases hdone : run.done with
      | true => exact .inl ⟨rfl, hphase⟩
      | false =>
        refine .inr ?_
        unfold WorkerRun.countsRestart
        rw [hdone, hphase]
        rfl
    have hmove := RunMoves.restarted now .top (.inl ⟨hphase, rfl⟩) hcounts
    rw [hphase] at hmove
    exact hmove
  · rename_i hphase
    unfold WorkerRun.remove at h
    split at h
    · rename_i hcurrent
      cases h
      exact .removed hphase hcurrent
    · rename_i hcurrent
      cases h
      exact .ended hphase (not_eq_true _ ▸ hcurrent)
  · simp at h

/-- The phase that may follow one of a run that is terminated or not. -/
inductive RunPhase.Next (terminated : Bool) : RunPhase → RunPhase → Prop
  | same (p : RunPhase) : Next terminated p p
  | leaves (p : RunPhase) : Next terminated p .leaving
  | readied (hgoes : terminated = false) : Next terminated .top .ready
  | launches : Next terminated .ready .launching
  | backsOff : Next terminated .launching .backoff
  | started (w : ℕ) : Next terminated .launching (.launched w)
  | attached (w : ℕ) : Next terminated (.launched w) (.attached w)
  | served (w : ℕ) : Next terminated (.attached w) (.serving w)
  | restarted (w : ℕ) : Next terminated (.serving w) .pausing
  | pauseOver : Next terminated .pausing .top
  | backoffOver : Next terminated .backoff .top
  | over : Next terminated .leaving .over

structure WorkerRun.Goes (run run' : WorkerRun) : Prop where
  offer : run'.offer = run.offer
  frame : run'.initialOfferFrame = run.initialOfferFrame
  terminated : run.terminateRequested = true → run'.terminateRequested = true
  cancelled : run.cancelled = true → run'.cancelled = true
  next : RunPhase.Next run.terminateRequested run.phase run'.phase

theorem WorkerRun.Goes.sessionID (h : run.Goes run') : run'.sessionID = run.sessionID := by
  unfold WorkerRun.sessionID
  rw [h.offer]

theorem WorkerRun.Goes.done (h : run.Goes run') (hnot : run'.done = false) : run.done = false := by
  unfold WorkerRun.done at hnot ⊢
  rw [or_eq_false_iff] at hnot ⊢
  constructor
  · by_contra hterminated
    rw [h.terminated (not_eq_false _ ▸ hterminated)] at hnot
    exact absurd hnot.1 (by simp)
  · by_contra hcancelled
    rw [h.cancelled (not_eq_false _ ▸ hcancelled)] at hnot
    exact absurd hnot.2 (by simp)

theorem goes_refl (run : WorkerRun) : run.Goes run := ⟨rfl, rfl, id, id, .same _⟩

theorem goes_goTo {phase : RunPhase} (h : RunPhase.Next run.terminateRequested run.phase phase) :
    run.Goes (run.goTo phase) := ⟨rfl, rfl, id, id, h⟩

theorem not_terminated_of_goes (h : run.done = false) : run.terminateRequested = false := by
  exact (or_eq_false_iff.mp h).1

theorem RunMoves.goes (h : RunMoves env v run a run' ops es) : run.Goes run' := by
  cases h with
  | leaves | refused => exact goes_goTo (.leaves _)
  | readied hphase hgoes => exact goes_goTo (hphase ▸ .readied (not_terminated_of_goes hgoes))
  | launches hphase => exact goes_goTo (hphase ▸ .launches)
  | backsOff hphase => exact goes_goTo (hphase ▸ .backsOff)
  | started hphase => exact goes_goTo (hphase ▸ .started _)
  | attached w hphase => exact ⟨rfl, rfl, id, id, hphase ▸ .attached w⟩
  | served w hphase => exact ⟨rfl, rfl, id, id, hphase ▸ .served w⟩
  | forwarded =>
    unfold WorkerRun.forward
    split
    · exact ⟨rfl, rfl, fun _ => rfl, id, .same _⟩
    · exact goes_refl run
  | restarted now phase hphase =>
    have hnext : RunPhase.Next run.terminateRequested run.phase phase := by
      rcases hphase with ⟨hbackoff, rfl⟩ | ⟨⟨w, hserving⟩, rfl⟩
      · exact hbackoff ▸ .backoffOver
      · exact hserving ▸ .restarted w
    have hcounted : run.Goes (run.countRestart now) := by
      unfold WorkerRun.countRestart
      split
      · exact ⟨rfl, rfl, id, id, .same _⟩
      · exact ⟨rfl, rfl, id, id, .same _⟩
    refine ⟨hcounted.offer, hcounted.frame, hcounted.terminated, hcounted.cancelled, ?_⟩
    unfold WorkerRun.orGiveUp WorkerRun.goTo
    split
    · exact .leaves _
    · exact hnext
  | paused hphase => exact goes_goTo (hphase ▸ .pauseOver)
  | removed hphase => exact ⟨rfl, rfl, fun _ => rfl, fun _ => rfl, hphase ▸ .over⟩
  | ended hphase => exact goes_goTo (hphase ▸ .over)

end RunMoves

/-! ## The broker -/

namespace WorkerBroker

variable {env : BrokerEnv} {s t : WorkerBroker} {a : BrokerAction} {es : List BrokerEvent}

def startsRun (env : BrokerEnv) (s : WorkerBroker) : BrokerAction → Option (Json × SessionOffer)
  | .message message _ =>
    if env.hasLauncher then
      ((decodeOffer env.size message).filter fun offer => (s.sessions.lookup offer.sessionId).isNone).map (message, ·)
    else none
  | _ => none

/-- An action brings a signal for a run whose queue is full. -/
def overflows (s : WorkerBroker) : BrokerAction → Bool
  | .message message _ => (decodeEnvelope message).any fun envelope =>
    envelope.type = "signal" && validUUID envelope.sessionId && envelope.signal.isSome &&
      (s.sessions.lookup envelope.sessionId).any fun r =>
        !s.runs[r]?.any (·.outbound.length < maxQueuedWorkerSignals)
  | _ => false

/-- What a step of the broker does. -/
inductive Moves (env : BrokerEnv) (s : WorkerBroker) (a : BrokerAction) : WorkerBroker → List BrokerEvent → Prop
  | same : Moves env s a s []
  | declined (sessionID : String) : Moves env s a s [.declines sessionID reasonHostWorkerUnavailable]
  | offered (message : Json) (now : ℤ) (offer : SessionOffer) (hstarts : s.startsRun env a = some (message, offer))
    (hidle : s.stopping = none) (hfree : s.sessions.lookup offer.sessionId = none) :
    Moves env s a
      { s with
        runs := s.runs ++ [{ offer := offer, initialOfferFrame := message, restartWindow := now }]
        sessions := s.sessions.insert offer.sessionId s.runs.length } []
  | queued (sessionID : String) (r : ℕ) (signal : Json) (hlookup : s.sessions.lookup sessionID = some r)
    (hsession : (decodeEnvelope signal).map Envelope.sessionId = some sessionID) :
    Moves env s a (s.onRun r fun run => { run with outbound := run.outbound ++ [signal] }) []
  | stops (sessionID : String) (r : ℕ) (e : BrokerEvent) (hlookup : s.sessions.lookup sessionID = some r)
    (hidle : s.stopping = none) (hwhy : e = .serverCloses r ∨ e = .overflows r ∧ s.overflows a = true) :
    Moves env s a { s with sessions := s.sessions.erase sessionID, stopping := some (r, .mark) } [e]
  | stopNext (r : ℕ) (stage : StopStage) (hstopping : s.stopping = some (r, stage)) :
    Moves env s a (s.stopNext r stage) []
  | scope :
    Moves env s a { s with runs := s.runs.map fun run => { run with cancelled := true } }
      ((List.range s.runs.length).map .agentStops)
  | run (r : ℕ) (act : RunAction) (run run' : WorkerRun) (ops : List WorkerOp) (es : List RunEvent)
    (ha : a = .run r act) (hr : s.runs[r]? = some run) (hmove : RunMoves env (s.view r run) run act run' ops es) :
    Moves env s a (ops.foldl (WorkerBroker.apply r) (s.onRun r fun _ => run')) (es.map (.run r))
  | takes (w r : ℕ) (closed : Bool) (signal : Json) (rest : List Json)
    (hw : s.workers[w]? = some ⟨r, closed, .idle⟩)
    (hr : s.runs[r]?.map WorkerRun.outbound = some (signal :: rest)) :
    Moves env s a ((s.onRun r fun run => { run with outbound := rest }).setWriter w (.sending signal)) []
  | delivered (w r : ℕ) (signal : Json) (hw : s.workers[w]? = some ⟨r, false, .sending signal⟩) :
    Moves env s a (s.setWriter w .idle) [.delivers w signal]
  | writerStops (w : ℕ) : Moves env s a (s.setWriter w .stopped) []

theorem moves_stop {sessionID : String} {why : ℕ → BrokerEvent} (hidle : s.stopping = none)
    (hwhy : ∀ r, why r = .serverCloses r ∨ why r = .overflows r ∧ s.overflows a = true) :
    Moves env s a (s.stop sessionID why).1 (s.stop sessionID why).2 := by
  unfold stop
  split
  · exact .same
  · rename_i r hlookup
    exact .stops sessionID r (why r) hlookup hidle (hwhy r)

theorem moves_start {offer : SessionOffer} {message : Json} {now : ℤ} (ha : a = .message message now)
    (hoffer : decodeOffer env.size message = some offer) (hidle : s.stopping = none) :
    Moves env s a (s.start env offer message now).1 (s.start env offer message now).2 := by
  unfold start
  split
  · rename_i hlauncher
    split
    · exact .same
    · rename_i hfree
      rw [not_isSome_iff_eq_none] at hfree
      have hstarts : s.startsRun env a = some (message, offer) := by
        unfold startsRun
        rw [ha]
        dsimp only
        rw [if_pos hlauncher, hoffer, filter_some, hfree]
        rfl
      exact .offered message now offer hstarts hidle hfree
  · exact .declined offer.sessionId

theorem moves_route {envelope : Envelope} {signal : Json} {now : ℤ} (ha : a = .message signal now)
    (hidle : s.stopping = none) (henvelope : decodeEnvelope signal = some envelope)
    (htype : envelope.type = "signal")
    (hsignal : (validUUID envelope.sessionId && envelope.signal.isSome) = true) :
    Moves env s a (s.route envelope.sessionId signal).1 (s.route envelope.sessionId signal).2 := by
  unfold route
  split
  · exact .same
  · rename_i r hlookup
    split
    · exact .queued envelope.sessionId r signal hlookup (by rw [henvelope]; rfl)
    · rename_i hfull
      refine moves_stop hidle fun _ => .inr ⟨rfl, ?_⟩
      rw [and_eq_true] at hsignal
      unfold overflows
      rw [ha]
      dsimp only
      rw [henvelope, any_some, htype, hsignal.1, hsignal.2, hlookup, any_some]
      simpa using hfull

theorem moves_handler {message : Json} {now : ℤ} (ha : a = .message message now) (hidle : s.stopping = none) :
    Moves env s a (s.handler env message now).1 (s.handler env message now).2 := by
  unfold handler
  split
  · exact .same
  · rename_i envelope henvelope
    split
    · split
      · exact .same
      · rename_i offer hoffer
        exact moves_start ha hoffer hidle
    · split
      · rename_i htype
        split
        · rename_i hsignal
          exact moves_route ha hidle henvelope htype hsignal
        · exact .same
      · split
        · split
          · exact moves_stop hidle fun _ => .inl rfl
          · exact .same
        · exact .same

theorem moves_of_step (h : (sessionWorkerBroker env).step s a = some (t, es)) : Moves env s a t es := by
  dsimp only [sessionWorkerBroker] at h
  split at h
  · split at h
    · rename_i hidle
      obtain ⟨rfl, rfl⟩ := Prod.mk.inj (Option.some.inj h)
      exact moves_handler rfl (isNone_iff_eq_none.mp hidle)
    · simp at h
  · obtain ⟨⟨r, stage⟩, hstopping, hpair⟩ := map_eq_some_iff.mp h
    cases hpair
    exact .stopNext r stage hstopping
  · cases h
    exact .scope
  · rename_i r act
    split at h
    · simp at h
    · rename_i run hr
      obtain ⟨⟨run', ops, es'⟩, hstep, hpair⟩ := map_eq_some_iff.mp h
      cases hpair
      exact .run r act run run' ops es' rfl hr (moves_of_run_step hstep)
  · rename_i w
    split at h
    · rename_i r closed hw
      split at h
      · rename_i signal rest hr
        cases h
        exact .takes w r closed signal rest hw hr
      · simp at h
    · simp at h
  · rename_i w ok
    split at h
    · rename_i r closed signal hw
      split at h
      · rename_i hok
        cases h
        rw [and_eq_true, not_eq_true'] at hok
        rw [hok.2] at hw
        exact .delivered w r signal hw
      · cases h
        exact .writerStops w
    · simp at h

/-! ### Runs go on -/

theorem getElem?_snoc {α : Type} {l : List α} {x y : α} {k : ℕ} (h : (l ++ [x])[k]? = some y) :
    l[k]? = some y ∨ k = l.length ∧ y = x := by
  by_cases hk : k < l.length
  · exact .inl ((getElem?_append_left hk).symm.trans h)
  · have hlt : k < l.length + 1 := by
      have hbound := (List.getElem?_eq_some_iff.mp h).1
      rw [length_append, length_singleton] at hbound
      exact hbound
    obtain rfl : k = l.length := by omega
    rw [getElem?_concat_length] at h
    exact .inr ⟨rfl, (Option.some.inj h).symm⟩

theorem foldl_apply_runs (r : ℕ) (ops : List WorkerOp) (s : WorkerBroker) :
    (ops.foldl (WorkerBroker.apply r) s).runs = s.runs := by
  induction ops generalizing s with
  | nil => rfl
  | cons op _ ih => exact (ih _).trans (by cases op <;> rfl)

theorem foldl_apply_stopping (r : ℕ) (ops : List WorkerOp) (s : WorkerBroker) :
    (ops.foldl (WorkerBroker.apply r) s).stopping = s.stopping := by
  induction ops generalizing s with
  | nil => rfl
  | cons op _ ih => exact (ih _).trans (by cases op <;> rfl)

theorem sessions_apply {v : BrokerView} {run run' : WorkerRun} {act : RunAction} {ops : List WorkerOp}
    {res : List RunEvent} (h : RunMoves env v run act run' ops res) (r : ℕ) (u : WorkerBroker) :
    (ops.foldl (WorkerBroker.apply r) u).sessions = u.sessions ∨
      v.current = true ∧ run'.terminateRequested = true ∧
        (ops.foldl (WorkerBroker.apply r) u).sessions = u.sessions.erase run.sessionID := by
  have hclose : ∀ (o : Option ℕ) (u : WorkerBroker),
      ((o.map .close).toList.foldl (.apply r) u).sessions = u.sessions := by
    intro o u
    cases o with
    | none | some => rfl
  cases h with
  | leaves | restarted => exact .inl (hclose _ u)
  | removed _ hcurrent => exact .inr ⟨hcurrent, rfl, hclose _ _⟩
  | _ => exact .inl rfl

theorem getElem?_onRun {r r' : ℕ} {f : WorkerRun → WorkerRun} {run' : WorkerRun}
    (h : (s.onRun r f).runs[r']? = some run') :
    ∃ run, s.runs[r']? = some run ∧ run' = if r = r' then f run else run := by
  unfold onRun at h
  rw [getElem?_modify] at h
  obtain ⟨run, hrun, hpair⟩ := map_eq_some_iff.mp h
  refine ⟨run, hrun, hpair.symm.trans ?_⟩
  split
  · rfl
  · rfl

/-- The runs go on, and none is added. -/
structure GoOn (s t : WorkerBroker) : Prop where
  length : t.runs.length = s.runs.length
  runs : ∀ (r : ℕ) (run' : WorkerRun), t.runs[r]? = some run' →
    ∃ run : WorkerRun, s.runs[r]? = some run ∧ run.Goes run'

theorem goOn_refl (s : WorkerBroker) : GoOn s s := ⟨rfl, fun _ run h => ⟨run, h, goes_refl run⟩⟩

theorem goOn_onRun {r : ℕ} {f : WorkerRun → WorkerRun} (hf : ∀ run, s.runs[r]? = some run → run.Goes (f run)) :
    GoOn s (s.onRun r f) := by
  refine ⟨length_modify .., fun r' run' h => ?_⟩
  obtain ⟨run, hrun, rfl⟩ := getElem?_onRun h
  refine ⟨run, hrun, ?_⟩
  split
  · rename_i hsame
    exact hf run (hsame ▸ hrun)
  · exact goes_refl run

theorem GoOn.of_runs {u : WorkerBroker} (h : GoOn s u) (hruns : t.runs = u.runs) : GoOn s t :=
  ⟨hruns ▸ h.length, hruns ▸ h.runs⟩

theorem goOn_stopNext {r : ℕ} {stage : StopStage} : GoOn s (s.stopNext r stage) := by
  cases stage with
  | mark =>
    exact (goOn_onRun (f := fun run => { run with terminateRequested := true })
      fun _ _ => ⟨rfl, rfl, fun _ => rfl, id, .same _⟩).of_runs rfl
  | cancel =>
    exact (goOn_onRun (f := fun run => { run with cancelled := true })
      fun _ _ => ⟨rfl, rfl, id, fun _ => rfl, .same _⟩).of_runs rfl
  | close =>
    unfold stopNext
    dsimp only
    split
    · exact (goOn_refl s).of_runs rfl
    · exact (goOn_refl s).of_runs rfl

theorem sessions_stopNext (r : ℕ) (stage : StopStage) : (s.stopNext r stage).sessions = s.sessions := by
  cases stage with
  | mark | cancel => rfl
  | close =>
    unfold stopNext
    dsimp only
    split
    · rfl
    · rfl

theorem goOn_queued (r : ℕ) (signal : Json) :
    GoOn s (s.onRun r fun run => { run with outbound := run.outbound ++ [signal] }) :=
  goOn_onRun fun _ _ => ⟨rfl, rfl, id, id, .same _⟩

theorem goOn_takes (w r : ℕ) (signal : Json) (rest : List Json) :
    GoOn s ((s.onRun r fun run => { run with outbound := rest }).setWriter w (.sending signal)) :=
  (goOn_onRun (f := fun run => { run with outbound := rest })
    fun _ _ => ⟨rfl, rfl, id, id, .same _⟩).of_runs rfl

theorem goOn_scope (s : WorkerBroker) :
    GoOn s { s with runs := s.runs.map fun run => { run with cancelled := true } } := by
  refine ⟨length_map .., fun r run' h => ?_⟩
  rw [getElem?_map] at h
  obtain ⟨run, hrun, rfl⟩ := map_eq_some_iff.mp h
  exact ⟨run, hrun, rfl, rfl, id, fun _ => rfl, .same _⟩

theorem goOn_run {v : BrokerView} {r : ℕ} {run run' : WorkerRun} {act : RunAction} {ops : List WorkerOp}
    {res : List RunEvent} (hr : s.runs[r]? = some run) (hmove : RunMoves env v run act run' ops res) :
    GoOn s (ops.foldl (WorkerBroker.apply r) (s.onRun r fun _ => run')) := by
  refine (goOn_onRun fun run₁ hr₁ => ?_).of_runs (foldl_apply_runs ..)
  cases hr.symm.trans hr₁
  exact hmove.goes

theorem Moves.goOn (h : Moves env s a t es) (hlength : t.runs.length = s.runs.length) : GoOn s t := by
  cases h with
  | offered =>
    rw [length_append, length_singleton] at hlength
    exact absurd hlength (by omega)
  | queued _ r signal => exact goOn_queued r signal
  | stopNext => exact goOn_stopNext
  | scope => exact goOn_scope s
  | run _ _ _ _ _ _ _ hr hmove => exact goOn_run hr hmove
  | takes w r _ signal rest => exact goOn_takes w r signal rest
  | _ => exact (goOn_refl s).of_runs rfl

/-- The runs stay where they are. -/
structure Rest (s t : WorkerBroker) : Prop where
  length : t.runs.length = s.runs.length
  runs : ∀ (r : ℕ) (run' : WorkerRun), t.runs[r]? = some run' → ∃ run : WorkerRun, s.runs[r]? = some run ∧
    run.Goes run' ∧ run'.phase = run.phase ∧ run'.restarts = run.restarts

theorem rest_of_runs (h : t.runs = s.runs) : Rest s t :=
  ⟨by rw [h], fun _ run hr => ⟨run, h ▸ hr, goes_refl run, rfl, rfl⟩⟩

theorem rest_onRun {r : ℕ} {f : WorkerRun → WorkerRun} (hruns : t.runs = (s.onRun r f).runs)
    (hf : ∀ run, run.Goes (f run) ∧ (f run).phase = run.phase ∧ (f run).restarts = run.restarts) : Rest s t := by
  refine ⟨by rw [hruns]; exact length_modify .., fun r' run' h => ?_⟩
  rw [hruns] at h
  obtain ⟨run, hrun, rfl⟩ := getElem?_onRun h
  refine ⟨run, hrun, ?_⟩
  split
  · exact hf run
  · exact ⟨goes_refl run, rfl, rfl⟩

theorem Moves.kinds (h : Moves env s a t es) : (Rest s t ∧ ∀ r e, .run r e ∉ es) ∨
      (∃ message now offer, s.startsRun env a = some (message, offer) ∧ es = [] ∧
        t.runs = s.runs ++ [{ offer := offer, initialOfferFrame := message, restartWindow := now }]) ∨
      ∃ r act run run' ops res, a = .run r act ∧ s.runs[r]? = some run ∧
        RunMoves env (s.view r run) run act run' ops res ∧ t.runs = (s.onRun r fun _ => run').runs ∧
        es = res.map (.run r) := by
  cases h with
  | same | declined | delivered | writerStops => exact .inl ⟨rest_of_runs rfl, by simp⟩
  | offered message now offer hstarts => exact .inr (.inl ⟨message, now, offer, hstarts, rfl, rfl⟩)
  | queued =>
    exact .inl ⟨rest_onRun rfl fun _ => ⟨⟨rfl, rfl, id, id, .same _⟩, rfl, rfl⟩, by simp⟩
  | stops _ _ _ _ _ hwhy =>
    refine .inl ⟨rest_of_runs rfl, fun r' e' hmem => ?_⟩
    rcases hwhy with rfl | ⟨rfl, -⟩
    · simp at hmem
    · simp at hmem
  | stopNext _ stage =>
    refine .inl ⟨?_, by simp⟩
    cases stage with
    | mark => exact rest_onRun rfl fun _ => ⟨⟨rfl, rfl, fun _ => rfl, id, .same _⟩, rfl, rfl⟩
    | cancel => exact rest_onRun rfl fun _ => ⟨⟨rfl, rfl, id, fun _ => rfl, .same _⟩, rfl, rfl⟩
    | close =>
      unfold WorkerBroker.stopNext
      dsimp only
      split
      · exact rest_of_runs rfl
      · exact rest_of_runs rfl
  | scope =>
    refine .inl ⟨⟨length_map .., fun r run' h => ?_⟩, by simp⟩
    rw [getElem?_map] at h
    obtain ⟨run, hrun, rfl⟩ := map_eq_some_iff.mp h
    exact ⟨run, hrun, ⟨rfl, rfl, id, fun _ => rfl, .same _⟩, rfl, rfl⟩
  | run r act run run' ops res ha hr hmove =>
    exact .inr (.inr ⟨r, act, run, run', ops, res, ha, hr, hmove, foldl_apply_runs .., rfl⟩)
  | takes _ r _ _ rest =>
    exact .inl ⟨rest_onRun rfl
      fun _ => ⟨⟨rfl, rfl, id, id, .same _⟩, rfl, rfl⟩, by simp⟩

/-! ### The map and the runs -/

/-- The sessions of the map are those of the runs that are not terminated. -/
structure Registered (s : WorkerBroker) : Prop where
  entries : ∀ id r, s.sessions.lookup id = some r → ∃ run, s.runs[r]? = some run ∧ run.sessionID = id
  current : ∀ r run, s.runs[r]? = some run → run.terminateRequested = false →
    s.sessions.lookup run.sessionID = some r ∨ s.stopping = some (r, .mark)

theorem GoOn.forward (h : GoOn s t) {r : ℕ} {run : WorkerRun} (hr : s.runs[r]? = some run) :
    ∃ run', t.runs[r]? = some run' ∧ run.Goes run' := by
  have hlt : r < t.runs.length := h.length ▸ (List.getElem?_eq_some_iff.mp hr).1
  obtain ⟨run₁, hr₁, hgoes⟩ := h.runs r t.runs[r] (getElem?_eq_getElem hlt)
  cases hr.symm.trans hr₁
  exact ⟨_, getElem?_eq_getElem hlt, hgoes⟩

theorem Registered.goOn (h : s.Registered) (hgo : GoOn s t)
    (hentries : ∀ id r, t.sessions.lookup id = some r → s.sessions.lookup id = some r)
    (hcurrent : ∀ r run', t.runs[r]? = some run' → run'.terminateRequested = false →
      s.sessions.lookup run'.sessionID = some r ∨ s.stopping = some (r, .mark) →
        t.sessions.lookup run'.sessionID = some r ∨ t.stopping = some (r, .mark)) : t.Registered := by
  constructor
  · intro id r hlookup
    obtain ⟨run, hr, hid⟩ := h.entries id r (hentries id r hlookup)
    obtain ⟨run', hr', hgoes⟩ := hgo.forward hr
    exact ⟨run', hr', hgoes.sessionID.trans hid⟩
  · intro r run' hr' hnot
    obtain ⟨run, hr, hgoes⟩ := hgo.runs r run' hr'
    have hbefore : run.terminateRequested = false := by
      cases hterminated : run.terminateRequested with
      | false => rfl
      | true => exact absurd (hgoes.terminated hterminated) (by simp [hnot])
    refine hcurrent r run' hr' hnot ?_
    rw [hgoes.sessionID]
    exact h.current r run hr hbefore

/-- A step keeps every session registered with its run. -/
theorem Registered.step (h : s.Registered) (hmoves : Moves env s a t es) : t.Registered := by
  have hstays : ∀ {u : WorkerBroker}, GoOn s u → u.sessions = s.sessions → u.stopping = s.stopping →
      u.Registered := by
    intro u hu hsessions hstopping
    refine h.goOn hu (fun id r hlookup => ?_) fun r run' hr' hnot hcurrent => ?_
    · rw [hsessions] at hlookup
      exact hlookup
    · rw [hsessions, hstopping]
      exact hcurrent
  cases hmoves with
  | offered _ _ offer _ hidle hfree =>
    constructor
    · intro id r hlookup
      by_cases hid : id = offer.sessionId
      · rw [hid, AList.lookup_insert] at hlookup
        cases hlookup
        exact ⟨_, getElem?_concat_length, hid.symm⟩
      · rw [AList.lookup_insert_ne hid] at hlookup
        obtain ⟨run, hr, hsame⟩ := h.entries id r hlookup
        exact ⟨run, (getElem?_append_left (List.getElem?_eq_some_iff.mp hr).1).trans hr, hsame⟩
    · intro r run hr hnot
      rcases getElem?_snoc hr with hold | ⟨rfl, rfl⟩
      · rcases h.current r run hold hnot with hlookup | hstopping
        · have hid : run.sessionID ≠ offer.sessionId := fun hsame => by
            rw [hsame, hfree] at hlookup
            simp at hlookup
          exact .inl ((AList.lookup_insert_ne hid).trans hlookup)
        · rw [hidle] at hstopping
          simp at hstopping
      · exact .inl (AList.lookup_insert ..)
  | stops sessionID _ _ hlookup hidle =>
    refine h.goOn ((goOn_refl s).of_runs rfl) (fun id r' hid => ?_) fun r' run' hr' hnot hcurrent => ?_
    · by_cases hsame : id = sessionID
      · rw [hsame, AList.lookup_erase] at hid
        simp at hid
      · rw [AList.lookup_erase_ne hsame] at hid
        exact hid
    · rw [hidle] at hcurrent
      have hbefore := hcurrent.resolve_right (by simp)
      by_cases hsame : run'.sessionID = sessionID
      · rw [hsame, hlookup] at hbefore
        cases hbefore
        exact .inr rfl
      · exact .inl ((AList.lookup_erase_ne hsame).trans hbefore)
  | stopNext r stage hstopping =>
    refine h.goOn goOn_stopNext (fun id r' hid => ?_) fun r' run' hr' hnot hcurrent => ?_
    · rw [sessions_stopNext] at hid
      exact hid
    · rw [sessions_stopNext]
      rcases hcurrent with hbefore | hmark
      · exact .inl hbefore
      · obtain ⟨rfl, rfl⟩ : r = r' ∧ stage = .mark := by
          rw [hstopping] at hmark
          exact Prod.mk.inj (Option.some.inj hmark)
        obtain ⟨run, hr, rfl⟩ := getElem?_onRun hr'
        rw [if_pos rfl] at hnot
        simp at hnot
  | run r _ run run' _ _ _ hr hmove =>
    have hgo := goOn_run hr hmove
    rcases sessions_apply hmove r (s.onRun r fun _ => run') with hsame | ⟨hcurrent, hterminated, herased⟩
    · exact hstays hgo hsame (foldl_apply_stopping ..)
    · have hlookup : s.sessions.lookup run.sessionID = some r := of_decide_eq_true hcurrent
      refine h.goOn hgo (fun id r' hid => ?_) fun r' run₁ hr₁ hnot hbefore => ?_
      · rw [herased] at hid
        by_cases hsame : id = run.sessionID
        · rw [hsame, AList.lookup_erase] at hid
          simp at hid
        · rw [AList.lookup_erase_ne hsame] at hid
          exact hid
      · rw [herased, foldl_apply_stopping]
        refine hbefore.imp_left fun hid => ?_
        by_cases hsame : run₁.sessionID = run.sessionID
        · exfalso
          rw [hsame, hlookup] at hid
          cases hid
          rw [foldl_apply_runs] at hr₁
          obtain ⟨run₂, hr₂, rfl⟩ := getElem?_onRun hr₁
          rw [if_pos rfl, hterminated] at hnot
          simp at hnot
        · exact (AList.lookup_erase_ne hsame).trans hid
  | queued _ r signal => exact hstays (goOn_queued r signal) rfl rfl
  | scope => exact hstays (goOn_scope s) rfl rfl
  | takes w r _ signal rest => exact hstays (goOn_takes w r signal rest) rfl rfl
  | _ => exact hstays ((goOn_refl s).of_runs rfl) rfl rfl

variable (busy : RunPhase → Prop)

/-- Of two runs of a session the earlier one is terminated, and in none of some phases. -/
def Superseded (s : WorkerBroker) : Prop :=
  ∀ (r r' : ℕ) (run run' : WorkerRun), r < r' → s.runs[r]? = some run → s.runs[r']? = some run' →
    run.sessionID = run'.sessionID → run.terminateRequested = true ∧ ¬ busy run.phase

/-- A run is started only when no run of its session is in one of some phases. -/
def StartsAfter (env : BrokerEnv) (s : WorkerBroker) (a : BrokerAction) : Prop :=
  ∀ message offer, s.startsRun env a = some (message, offer) → ∀ (r : ℕ)
    (run : WorkerRun), s.runs[r]? = some run → run.sessionID = offer.sessionId → ¬ busy run.phase

/-- A terminated run does not enter one of the phases from outside. -/
def Shuts : Prop := ∀ p p', RunPhase.Next true p p' → busy p' → busy p

theorem Superseded.goOn {busy : RunPhase → Prop} (hshut : Shuts busy) (h : s.Superseded busy)
    (hgo : GoOn s t) : t.Superseded busy := by
  intro r r' run₁ run₁' hlt hr hr' hid
  obtain ⟨run, hrun, hgoes⟩ := hgo.runs r run₁ hr
  obtain ⟨run', hrun', hgoes'⟩ := hgo.runs r' run₁' hr'
  obtain ⟨hterminated, hfree⟩ := h r r' run run' hlt hrun hrun'
    (hgoes.sessionID.symm.trans (hid.trans hgoes'.sessionID))
  have hnext := hgoes.next
  rw [hterminated] at hnext
  exact ⟨hgoes.terminated hterminated, fun hbusy => hfree (hshut _ _ hnext hbusy)⟩

theorem Superseded.step {busy : RunPhase → Prop} (hshut : Shuts busy) (h : s.Superseded busy) (hreg : s.Registered)
    (hafter : s.StartsAfter busy env a) (hmoves : Moves env s a t es) : t.Superseded busy := by
  by_cases hlength : t.runs.length = s.runs.length
  · exact h.goOn hshut (hmoves.goOn hlength)
  · cases hmoves with
    | offered message _ offer hstarts hidle hfree =>
      intro r r' run run' hlt hr hr' hid
      have hold : s.runs[r]? = some run := by
        refine (getElem?_snoc hr).resolve_right fun hnew => ?_
        have hbound := (List.getElem?_eq_some_iff.mp hr').1
        rw [length_append, length_singleton] at hbound
        omega
      rcases getElem?_snoc hr' with hold' | ⟨rfl, rfl⟩
      · exact h r r' run run' hlt hold hold' hid
      · refine ⟨?_, hafter message offer hstarts r run hold hid⟩
        by_contra hnot
        have hcurrent := hreg.current r run hold (not_eq_true _ ▸ hnot)
        rw [hid, hidle] at hcurrent
        cases hfree.symm.trans (hcurrent.resolve_right (by simp))
    | queued _ r signal => exact absurd (goOn_queued r signal).length hlength
    | stopNext => exact absurd goOn_stopNext.length hlength
    | scope => exact absurd (goOn_scope s).length hlength
    | run _ _ _ _ _ _ _ hr hmove => exact absurd (goOn_run hr hmove).length hlength
    | takes w r _ signal rest => exact absurd (goOn_takes w r signal rest).length hlength
    | _ => exact absurd rfl hlength

theorem registered_start : Registered {} := by
  constructor
  · intro id r hlookup
    simp at hlookup
  · intro r run hr
    simp at hr

/-- In every run the map has the sessions of the runs that go on. -/
theorem runs_registered (env : BrokerEnv) (as : List BrokerAction) :
    (sessionWorkerBroker env).Every (fun s _ _ => s.Registered) {} [] as :=
  Machine.every_of_reach (fun hrun => hrun.invariant (fun s _ => s.Registered) registered_start
    fun _ _ _ _ _ h _ hstep => h.step (moves_of_step hstep)) as .start

end WorkerBroker

end LigamentApps.LinkAgent
