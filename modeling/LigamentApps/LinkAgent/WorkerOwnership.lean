import LigamentApps.LinkAgent.BrokerSteps
import LigamentApps.Machine.Past

/-!
# The workers of a session

A worker that is not closed is held by its run, is the last one launched for its session, and is the only one;
no frame goes to another worker or comes from one; and no worker is attached after the end of its session:
where an offer starts a run only after the earlier runs of its session have no worker and no launch under
way. -/

namespace LigamentApps.LinkAgent

open List Bool

variable {run' : WorkerRun} {ops : List WorkerOp} {res : List RunEvent} {act : RunAction} {r w : ℕ}

/-- The run has a worker, or is about to have one. -/
def RunPhase.busy : RunPhase → Bool
  | .ready | .launching | .launched _ | .attached _ | .serving _ => true
  | _ => false

/-- The workers that have been launched for a session. -/
def startedWorkers (sessionID : String) (es : List BrokerEvent) : List ℕ :=
  es.filterMap fun e => match e with
    | .run _ (.starts id w) => if id = sessionID then some w else none
    | _ => none

def frameSession (frame : Json) : Option String := (decodeEnvelope frame).map Envelope.sessionId

/-- The worker is the last one that has been launched for the session of a frame. -/
def NewestFor (past : List BrokerEvent) (w : ℕ) (frame : Json) : Prop :=
  ∃ sessionID, frameSession frame = some sessionID ∧ (startedWorkers sessionID past).getLast? = some w

/-- The event is the end of the session of a run, by the server, by its full queue or by the agent. -/
def BrokerEvent.isStopOf (r : ℕ) : BrokerEvent → Bool
  | .serverCloses r' | .overflows r' | .agentStops r' => r' = r
  | _ => false

/-- Frames go to the newest worker of their session and come from it, and no worker is attached after a
stop. -/
def OwnWorker (past : List BrokerEvent) : BrokerEvent → Prop
  | .run _ (.forwards w frame) => NewestFor past w frame
  | .delivers w signal => NewestFor past w signal
  | .run r (.attaches _) => past.any (·.isStopOf r) = false
  | _ => True

namespace WorkerBroker

variable {env : BrokerEnv} {s t : WorkerBroker} {a : BrokerAction} {es fs : List BrokerEvent}

/-- What holds of the workers in every state. -/
structure WorkersOwned (s : WorkerBroker) (es : List BrokerEvent) : Prop where
  registered : s.Registered
  superseded : s.Superseded (·.busy = true)
  launcher : ∀ (w : ℕ) (p : WorkerProcess), s.workers[w]? = some p → ∃ run : WorkerRun, s.runs[p.run]? = some run
  held : ∀ (w : ℕ) (p : WorkerProcess), s.workers[w]? = some p → p.closed = false →
    ∃ run : WorkerRun, s.runs[p.run]? = some run ∧ run.phase.worker? = some w
  newest : ∀ (r : ℕ) (run : WorkerRun) (w : ℕ), s.runs[r]? = some run → run.phase.worker? = some w →
    (startedWorkers run.sessionID es).getLast? = some w
  queued : ∀ (r : ℕ) (run : WorkerRun), s.runs[r]? = some run → ∀ signal ∈ run.outbound,
    frameSession signal = some run.sessionID
  sending : ∀ (w : ℕ) (p : WorkerProcess) (signal : Json), s.workers[w]? = some p → p.writer =
    .sending signal → ∃ run : WorkerRun, s.runs[p.run]? = some run ∧ frameSession signal = some run.sessionID
  stopped : ∀ (r : ℕ) (run : WorkerRun), s.runs[r]? = some run → es.any (·.isStopOf r) = true →
    s.sessions.lookup run.sessionID ≠ some r ∨ run.cancelled = true
  known : ∀ r, es.any (·.isStopOf r) = true → r < s.runs.length
  owns : EachAfter OwnWorker es

theorem shuts_busy : Shuts (·.busy = true) := by
  intro p p' hnext hbusy
  cases hnext with
  | same => exact hbusy
  | readied hgoes => simp at hgoes
  | launches | started | attached | served => rfl
  | _ => cases hbusy

/-! ### Workers that are kept -/

/-- A run goes on and holds the worker that it has held, or none once that is closed; its queue gets signals
of its session only. -/
def KeepsRun (t : WorkerBroker) (run run' : WorkerRun) : Prop :=
  run.Goes run' ∧
    (run'.phase.worker? = run.phase.worker? ∨ run'.phase.worker? = none ∧ ∀ w, run.phase.worker? = some w →
      ∀ p : WorkerProcess, t.workers[w]? = some p → p.closed = true) ∧
    ∀ signal ∈ run'.outbound, signal ∈ run.outbound ∨ frameSession signal = some run.sessionID

/-- A worker stays closed, and its writer gets signals of its session only. -/
def KeepsWorker (s : WorkerBroker) (p p' : WorkerProcess) : Prop :=
  p'.run = p.run ∧ (p'.closed = false → p.closed = false) ∧
    ∀ signal, p'.writer = .sending signal → p.writer = .sending signal ∨
      ∃ run : WorkerRun, s.runs[p.run]? = some run ∧ frameSession signal = some run.sessionID

/-- A step launches no worker and enters no session. -/
structure Keeps (s t : WorkerBroker) : Prop where
  length : t.runs.length = s.runs.length
  runs : ∀ (r : ℕ) (run' : WorkerRun), t.runs[r]? = some run' →
    ∃ run : WorkerRun, s.runs[r]? = some run ∧ KeepsRun t run run'
  workers : ∀ (w : ℕ) (p' : WorkerProcess), t.workers[w]? = some p' →
    ∃ p : WorkerProcess, s.workers[w]? = some p ∧ KeepsWorker s p p'
  sessions : ∀ id r, t.sessions.lookup id = some r → s.sessions.lookup id = some r

theorem Keeps.forward (h : Keeps s t) {run : WorkerRun} (hr : s.runs[r]? = some run) :
    ∃ run' : WorkerRun, t.runs[r]? = some run' ∧ run.Goes run' ∧
      (run'.phase.worker? = run.phase.worker? ∨ run'.phase.worker? = none ∧ ∀ w, run.phase.worker? = some w →
        ∀ p : WorkerProcess, t.workers[w]? = some p → p.closed = true) := by
  have hlt : r < t.runs.length := h.length ▸ (List.getElem?_eq_some_iff.mp hr).1
  obtain ⟨run₁, hr₁, hgoes, hworker, -⟩ := h.runs r t.runs[r] (getElem?_eq_getElem hlt)
  cases hr.symm.trans hr₁
  exact ⟨_, getElem?_eq_getElem hlt, hgoes, hworker⟩

/-- The events that a step adds while the workers are kept. -/
structure KeptEvents (t : WorkerBroker) (es fs : List BrokerEvent) : Prop where
  unstarted : ∀ id, startedWorkers id fs = []
  stopped : ∀ (r : ℕ) (run : WorkerRun), t.runs[r]? = some run → fs.any (·.isStopOf r) = true →
    t.sessions.lookup run.sessionID ≠ some r ∨ run.cancelled = true
  known : ∀ r, fs.any (·.isStopOf r) = true → r < t.runs.length
  owns : EachAfter (fun fs₁ e => OwnWorker (es ++ fs₁) e) fs

theorem startedWorkers_append (id : String) :
    startedWorkers id (es ++ fs) = startedWorkers id es ++ startedWorkers id fs := filterMap_append

theorem keptEvents_nil (t : WorkerBroker) (es : List BrokerEvent) : KeptEvents t es [] :=
  ⟨fun _ => rfl, fun _ _ _ h => absurd h (by simp), fun _ h => absurd h (by simp), eachAfter_nil⟩

theorem WorkersOwned.keeps (h : WorkersOwned s es) (hreg : t.Registered) (hsuper : t.Superseded (·.busy = true))
    (hkeeps : Keeps s t) (hevents : KeptEvents t es fs) : WorkersOwned t (es ++ fs) := by
  constructor
  · exact hreg
  · exact hsuper
  · intro w p' hw'
    obtain ⟨p, hw, hrun, -⟩ := hkeeps.workers w p' hw'
    obtain ⟨run, hr⟩ := h.launcher w p hw
    obtain ⟨run', hr', -⟩ := hkeeps.forward hr
    exact ⟨run', hrun ▸ hr'⟩
  · intro w p' hw' hopen
    obtain ⟨p, hw, hrun, hclosed, -⟩ := hkeeps.workers w p' hw'
    obtain ⟨run, hr, hheld⟩ := h.held w p hw (hclosed hopen)
    obtain ⟨run', hr', -, hworker⟩ := hkeeps.forward hr
    refine ⟨run', hrun ▸ hr', ?_⟩
    rcases hworker with hsame | ⟨-, hclosing⟩
    · exact hsame.trans hheld
    · have hcontra := hclosing w hheld p' hw'
      rw [hopen] at hcontra
      cases hcontra
  · intro r run' w hr' hheld'
    obtain ⟨run, hr, hgoes, hworker, -⟩ := hkeeps.runs r run' hr'
    rw [startedWorkers_append, hevents.unstarted, append_nil, hgoes.sessionID]
    rcases hworker with hsame | ⟨hnone, -⟩
    · exact h.newest r run w hr (hsame.symm.trans hheld')
    · rw [hnone] at hheld'
      simp at hheld'
  · intro r run' hr' signal hsignal
    obtain ⟨run, hr, hgoes, -, houtbound⟩ := hkeeps.runs r run' hr'
    rw [hgoes.sessionID]
    exact (houtbound signal hsignal).elim (h.queued r run hr signal) id
  · intro w p' signal hw' hwriter
    obtain ⟨p, hw, hrun, -, hsending⟩ := hkeeps.workers w p' hw'
    have hbefore : ∃ run : WorkerRun, s.runs[p.run]? = some run ∧ frameSession signal = some run.sessionID :=
      (hsending signal hwriter).elim (h.sending w p signal hw) id
    obtain ⟨run, hr, hsession⟩ := hbefore
    obtain ⟨run', hr', hgoes, -⟩ := hkeeps.forward hr
    exact ⟨run', hrun ▸ hr', by rw [hgoes.sessionID]; exact hsession⟩
  · intro r run' hr' hstopped
    rw [any_append, or_eq_true] at hstopped
    rcases hstopped with hbefore | hnow
    · obtain ⟨run, hr, hgoes, -⟩ := hkeeps.runs r run' hr'
      refine (h.stopped r run hr hbefore).imp (fun hgone hlookup => hgone ?_) hgoes.cancelled
      rw [hgoes.sessionID] at hlookup
      exact hkeeps.sessions _ _ hlookup
    · exact hevents.stopped r run' hr' hnow
  · intro r hstopped
    rw [any_append, or_eq_true] at hstopped
    rcases hstopped with hbefore | hnow
    · rw [hkeeps.length]
      exact h.known r hbefore
    · exact hevents.known r hnow
  · exact eachAfter_append h.owns hevents.owns

/-! ### The steps beside the runs -/

theorem getElem?_onWorker {w' : ℕ} {f : WorkerProcess → WorkerProcess} {p' : WorkerProcess}
    (h : (s.onWorker w f).workers[w']? = some p') :
    ∃ p, s.workers[w']? = some p ∧ p' = if w = w' then f p else p := by
  unfold onWorker at h
  rw [getElem?_modify] at h
  obtain ⟨p, hp, hpair⟩ := Option.map_eq_some_iff.mp h
  refine ⟨p, hp, hpair.symm.trans ?_⟩
  split
  · rfl
  · rfl

theorem keepsRun_refl (t : WorkerBroker) (run : WorkerRun) : KeepsRun t run run :=
  ⟨goes_refl run, .inl rfl, fun _ h => .inl h⟩

theorem keepsWorker_refl (s : WorkerBroker) (p : WorkerProcess) : KeepsWorker s p p :=
  ⟨rfl, id, fun _ h => .inl h⟩

theorem keeps_of {r w : ℕ} {f : WorkerRun → WorkerRun} {g : WorkerProcess → WorkerProcess}
    (hruns : t.runs = s.runs ∨ t.runs = (s.onRun r f).runs)
    (hrun : ∀ run, s.runs[r]? = some run → KeepsRun t run (f run))
    (hworkers : t.workers = s.workers ∨ t.workers = (s.onWorker w g).workers)
    (hworker : ∀ p, s.workers[w]? = some p → KeepsWorker s p (g p))
    (hsessions : ∀ id r, t.sessions.lookup id = some r → s.sessions.lookup id = some r) : Keeps s t := by
  constructor
  · rcases hruns with hsame | hchanged
    · rw [hsame]
    · rw [hchanged]
      exact length_modify ..
  · intro r' run' hr'
    rcases hruns with hsame | hchanged
    · exact ⟨run', hsame ▸ hr', keepsRun_refl t run'⟩
    · rw [hchanged] at hr'
      obtain ⟨run, hr, rfl⟩ := getElem?_onRun hr'
      refine ⟨run, hr, ?_⟩
      split
      · rename_i hsame
        exact hrun run (hsame ▸ hr)
      · exact keepsRun_refl t run
  · intro w' p' hw'
    rcases hworkers with hsame | hchanged
    · exact ⟨p', hsame ▸ hw', keepsWorker_refl s p'⟩
    · rw [hchanged] at hw'
      obtain ⟨p, hp, rfl⟩ := getElem?_onWorker hw'
      refine ⟨p, hp, ?_⟩
      split
      · rename_i hsame
        exact hworker p (hsame ▸ hp)
      · exact keepsWorker_refl s p
  · exact hsessions

theorem keeps_refl (s : WorkerBroker) : Keeps s s :=
  keeps_of (r := 0) (w := 0) (g := id) (.inl rfl) (fun run _ => keepsRun_refl s run) (.inl rfl)
    (fun p _ => keepsWorker_refl s p) fun _ _ h => h

theorem keeps_onWorker {g : WorkerProcess → WorkerProcess} (hruns : t.runs = s.runs)
    (hworkers : t.workers = (s.onWorker w g).workers) (hsessions : t.sessions = s.sessions)
    (hworker : ∀ p, KeepsWorker s p (g p)) : Keeps s t :=
  keeps_of (r := 0) (.inl hruns) (fun run _ => keepsRun_refl t run) (.inr hworkers) (fun p _ => hworker p)
    fun _ _ h => hsessions ▸ h

theorem keepsWorker_closed (s : WorkerBroker) (p : WorkerProcess) : KeepsWorker s p { p with closed := true } :=
  ⟨rfl, fun h => absurd h (by simp), fun _ h => .inl h⟩

theorem keepsWorker_writer {writer : SignalWriter} (hwriter : ∀ signal, writer ≠ .sending signal)
    (p : WorkerProcess) : KeepsWorker s p { p with writer := writer } :=
  ⟨rfl, id, fun signal h => absurd h (hwriter signal)⟩

theorem keeps_onRun {r : ℕ} {f : WorkerRun → WorkerRun} (hruns : t.runs = (s.onRun r f).runs)
    (hworkers : t.workers = s.workers) (hsessions : t.sessions = s.sessions)
    (hrun : ∀ run, s.runs[r]? = some run → KeepsRun t run (f run)) : Keeps s t :=
  keeps_of (w := 0) (.inr hruns) hrun (.inl hworkers) (fun p _ => keepsWorker_refl s p) fun _ _ h =>
    hsessions ▸ h

theorem keeps_stopNext (r : ℕ) (stage : StopStage) : Keeps s (s.stopNext r stage) := by
  cases stage with
  | mark =>
    exact keeps_onRun rfl rfl rfl
      fun run _ => ⟨⟨rfl, rfl, fun _ => rfl, id, .same _⟩, .inl rfl, fun _ h => .inl h⟩
  | cancel =>
    exact keeps_onRun rfl rfl rfl
      fun run _ => ⟨⟨rfl, rfl, id, fun _ => rfl, .same _⟩, .inl rfl, fun _ h => .inl h⟩
  | close =>
    unfold stopNext
    dsimp only
    split
    · exact keeps_onWorker (w := 0) (g := id) rfl (by simp [onWorker]) rfl fun p => keepsWorker_refl s p
    · rename_i w hw
      exact keeps_onWorker rfl rfl rfl fun p =>
        keepsWorker_closed s p

theorem WorkersOwned.offered {message : Json} {now : ℤ} {offer : SessionOffer} (h : WorkersOwned s es)
    (hsuper : t.Superseded (·.busy = true)) (hreg : t.Registered)
    (ht : t = { s with
      runs := s.runs ++ [{ offer := offer, initialOfferFrame := message, restartWindow := now }]
      sessions := s.sessions.insert offer.sessionId s.runs.length }) : WorkersOwned t es := by
  have hcases : ∀ {r : ℕ} {run : WorkerRun}, t.runs[r]? = some run → s.runs[r]? = some run ∨
      r = s.runs.length ∧ run = { offer := offer, initialOfferFrame := message, restartWindow := now } := by
    intro r run hr
    rw [ht] at hr
    exact getElem?_snoc hr
  have hold : ∀ {r : ℕ} {run : WorkerRun}, s.runs[r]? = some run → t.runs[r]? = some run := by
    intro r run hr
    rw [ht]
    exact (getElem?_append_left (List.getElem?_eq_some_iff.mp hr).1).trans hr
  have hworkers : t.workers = s.workers := by rw [ht]
  constructor
  · exact hreg
  · exact hsuper
  · intro w p hw
    obtain ⟨run, hr⟩ := h.launcher w p (hworkers ▸ hw)
    exact ⟨run, hold hr⟩
  · intro w p hw hopen
    obtain ⟨run, hr, hheld⟩ := h.held w p (hworkers ▸ hw) hopen
    exact ⟨run, hold hr, hheld⟩
  · intro r run w hr hheld
    rcases hcases hr with hbefore | ⟨rfl, rfl⟩
    · exact h.newest r run w hbefore hheld
    · simp [RunPhase.worker?] at hheld
  · intro r run hr signal hsignal
    rcases hcases hr with hbefore | ⟨rfl, rfl⟩
    · exact h.queued r run hbefore signal hsignal
    · simp at hsignal
  · intro w p signal hw hwriter
    obtain ⟨run, hr, hsession⟩ := h.sending w p signal (hworkers ▸ hw) hwriter
    exact ⟨run, hold hr, hsession⟩
  · intro r run hr hstopped
    have hlt := h.known r hstopped
    rcases hcases hr with hbefore | ⟨rfl, rfl⟩
    · refine (h.stopped r run hbefore hstopped).imp_left fun hgone hlookup => hgone ?_
      rw [ht] at hlookup
      by_cases hsame : run.sessionID = offer.sessionId
      · rw [hsame] at hlookup
        have hnew := Option.some.inj ((AList.lookup_insert ..).symm.trans hlookup)
        omega
      · exact (AList.lookup_insert_ne hsame).symm.trans hlookup
    · exact absurd hlt (Nat.lt_irrefl _)
  · intro r hstopped
    rw [ht]
    have hlt := h.known r hstopped
    rw [length_append]
    omega
  · exact h.owns

/-! ### The steps of a run -/

theorem workers_close (r : ℕ) (o : Option ℕ) (u : WorkerBroker) :
    ((o.map WorkerOp.close).toList.foldl (WorkerBroker.apply r) u).workers = u.workers ∨ ∃ w, o = some w ∧
      ((o.map WorkerOp.close).toList.foldl (WorkerBroker.apply r) u).workers = (u.close w).workers := by
  cases o with
  | none => exact .inl rfl
  | some w => exact .inr ⟨w, rfl, rfl⟩

theorem keeps_shrinks {v : BrokerView} {run : WorkerRun} (hmove : RunMoves env v run act run' ops res)
    (id : String) (r' : ℕ)
    (hlookup : (ops.foldl (WorkerBroker.apply r) (s.onRun r fun _ => run')).sessions.lookup id = some r') :
    s.sessions.lookup id = some r' := by
  rcases sessions_apply hmove r (s.onRun r fun _ => run') with hsame | ⟨-, -, herased⟩
  · rw [hsame] at hlookup
    exact hlookup
  · rw [herased] at hlookup
    by_cases hsame : id = run.sessionID
    · rw [hsame, AList.lookup_erase] at hlookup
      simp at hlookup
    · rw [AList.lookup_erase_ne hsame] at hlookup
      exact hlookup

theorem keeps_closing {r : ℕ} {run run' : WorkerRun} (hr : s.runs[r]? = some run) (hgoes : run.Goes run')
    (hnone : run'.phase.worker? = none) (houtbound : run'.outbound = run.outbound)
    (ht : t = (run.phase.worker?.map WorkerOp.close).toList.foldl (WorkerBroker.apply r) (s.onRun r fun _ => run'))
    (hshrinks : ∀ id r', t.sessions.lookup id = some r' → s.sessions.lookup id = some r') : Keeps s t := by
  have hruns : t.runs = (s.onRun r fun _ => run').runs := by rw [ht, foldl_apply_runs]
  rcases workers_close r run.phase.worker? (s.onRun r fun _ => run') with hsame | ⟨w, hw, hclosed⟩
  · have hfree : ∀ w, run.phase.worker? = some w → ∀ p : WorkerProcess, t.workers[w]? = some p →
      p.closed = true := by
      intro w hw p hp
      rw [ht, hw] at hp
      obtain ⟨q, -, rfl⟩ := getElem?_onWorker hp
      rw [if_pos rfl]
    refine keeps_of (w := 0) (.inr hruns) (fun run₁ hr₁ => ?_) (.inl (by rw [ht, hsame]; rfl))
      (fun p _ => keepsWorker_refl s p) hshrinks
    cases hr.symm.trans hr₁
    exact ⟨hgoes, .inr ⟨hnone, hfree⟩, fun _ h => .inl (houtbound ▸ h)⟩
  · have hworkers : t.workers = (s.onWorker w fun p => { p with closed := true }).workers := by
      rw [ht, hclosed]
      rfl
    refine keeps_of (.inr hruns) (fun run₁ hr₁ => ?_) (.inr hworkers)
      (fun p _ => keepsWorker_closed s p) hshrinks
    cases hr.symm.trans hr₁
    refine ⟨hgoes, .inr ⟨hnone, fun w' hw' p hp => ?_⟩, fun _ h => .inl (houtbound ▸ h)⟩
    cases hw.symm.trans hw'
    rw [hworkers] at hp
    obtain ⟨q, -, rfl⟩ := getElem?_onWorker hp
    rw [if_pos rfl]

theorem keeps_going {g : WorkerProcess → WorkerProcess} {run : WorkerRun} (hr : s.runs[r]? = some run)
    (hgoes : run.Goes run') (hsame : run'.phase.worker? = run.phase.worker?)
    (houtbound : ∀ signal ∈ run'.outbound, signal ∈ run.outbound)
    (hruns : t.runs = (s.onRun r fun _ => run').runs)
    (hworkers : t.workers = s.workers ∨ t.workers = (s.onWorker w g).workers)
    (hworker : ∀ p, KeepsWorker s p (g p))
    (hshrinks : ∀ id r', t.sessions.lookup id = some r' → s.sessions.lookup id = some r') : Keeps s t := by
  refine keeps_of (.inr hruns) (fun run₁ hr₁ => ?_) hworkers (fun p _ => hworker p) hshrinks
  cases hr.symm.trans hr₁
  exact ⟨hgoes, .inl hsame, fun _ h => .inl (houtbound _ h)⟩

theorem keeps_of_moves {v : BrokerView} {r : ℕ} {run run' : WorkerRun} {act : RunAction} {ops : List WorkerOp}
    {res : List RunEvent} (hr : s.runs[r]? = some run) (hmove : RunMoves env v run act run' ops res)
    (hnone : ∀ id w, .starts id w ∉ res) :
    Keeps s (ops.foldl (WorkerBroker.apply r) (s.onRun r fun _ => run')) := by
  have hgoes := hmove.goes
  have hshrinks := keeps_shrinks (s := s) (r := r) hmove
  have hstays : ∀ {phase : RunPhase}, run.phase.worker? = none → phase.worker? = none →
      run.Goes (run.goTo phase) → Keeps s (s.onRun r fun _ => run.goTo phase) := by
    intro phase hbefore hafter hgoes
    exact keeps_going (w := 0) hr hgoes (hafter.trans hbefore.symm) (fun _ h => h) rfl (.inl rfl)
      (fun p => keepsWorker_refl s p) fun _ _ h => h
  cases hmove with
  | leaves => exact keeps_closing hr hgoes rfl rfl rfl hshrinks
  | readied hphase | launches hphase | refused _ _ _ hphase | backsOff hphase
  | paused hphase | ended hphase => exact hstays (by rw [hphase]; rfl) rfl hgoes
  | started => exact absurd (mem_singleton_self _) (hnone _ _)
  | attached w hphase =>
    exact keeps_going (w := 0) hr hgoes (by rw [hphase]; rfl) (fun _ h => h) rfl (.inl rfl)
      (fun p => keepsWorker_refl s p) fun _ _ h => h
  | served w hphase =>
    refine keeps_going hr hgoes (by rw [hphase]; rfl)
      (fun signal h => ?_) rfl (.inr rfl) (keepsWorker_writer fun _ => by simp) fun _ _ h => h
    split at h
    · simp at h
    · exact h
  | forwarded w =>
    refine keeps_going (w := 0) (g := id) hr hgoes ?_ (fun signal h => ?_) rfl (.inl rfl)
      (fun p => keepsWorker_refl s p) fun _ _ h => h
    · unfold WorkerRun.forward
      split
      · rfl
      · rfl
    · unfold WorkerRun.forward at h
      split at h
      · exact h
      · exact h
  | restarted now _ hphase =>
    have hcounted : (run.countRestart now).outbound = run.outbound := by
      unfold WorkerRun.countRestart
      split
      · rfl
      · rfl
    refine keeps_closing hr hgoes ?_ hcounted rfl hshrinks
    unfold WorkerRun.orGiveUp WorkerRun.goTo
    split
    · rfl
    · rcases hphase with ⟨-, rfl⟩ | ⟨-, rfl⟩
      · rfl
      · rfl
  | removed hphase =>
    let u : WorkerBroker := .apply r (s.onRun r fun _ =>
      { run with cancelled := true, terminateRequested := true, phase := .over }) (.unregister run.sessionID)
    have hsame : RunPhase.worker? .over = run.phase.worker? := by
      rw [hphase]
      rfl
    rcases workers_close r run.process u with hworkers | ⟨w, -, hworkers⟩
    · exact keeps_going (w := 0) hr hgoes hsame (fun _ h => h) (foldl_apply_runs ..) (.inl hworkers)
        (fun p => keepsWorker_refl s p) hshrinks
    · exact keeps_going hr hgoes hsame (fun _ h => h)
        (foldl_apply_runs ..) (.inr hworkers) (keepsWorker_closed s) hshrinks

theorem frameSession_of_valid {frame : Json} {sessionID : String}
    (h : validWorkerResponse env.size frame sessionID = true) : frameSession frame = some sessionID := by
  unfold validWorkerResponse at h
  unfold frameSession
  rw [and_eq_true] at h
  cases henvelope : decodeEnvelope frame with
  | none =>
    rw [henvelope] at h
    cases h.2
  | some =>
    rw [henvelope] at h
    have hsame := (and_eq_true_iff.mp h.2).1
    exact congrArg some (of_decide_eq_true hsame)

theorem any_isStopOf_map_run (r r' : ℕ) (res : List RunEvent) :
    (res.map (BrokerEvent.run r)).any (·.isStopOf r') = false := by
  refine any_eq_false.mpr fun e he => ?_
  obtain ⟨e', -, rfl⟩ := mem_map.mp he
  exact Bool.false_ne_true

theorem WorkersOwned.owns_of_moves (h : WorkersOwned s es) {run : WorkerRun} (hr : s.runs[r]? = some run)
    (hmove : RunMoves env (s.view r run) run act run' ops res) :
    EachAfter (fun fs₁ e => OwnWorker (es ++ fs₁) e) (res.map (.run r)) := by
  have hone : ∀ {e : RunEvent}, OwnWorker es (.run r e) →
      EachAfter (fun fs₁ e => OwnWorker (es ++ fs₁) e) ([e].map (.run r)) := by
    intro e howns
    refine eachAfter_snoc eachAfter_nil ?_
    rw [append_nil]
    exact howns
  cases hmove with
  | launches | started | removed => exact hone trivial
  | refused _ sent =>
    cases sent with
    | false => exact eachAfter_nil
    | true => exact hone trivial
  | attached _ _ hcurrent hfree =>
    refine hone ?_
    change es.any (·.isStopOf r) = false
    by_contra hstopped
    rcases h.stopped r run hr (not_eq_false _ ▸ hstopped) with hgone | hcancelled
    · exact hgone (of_decide_eq_true hcurrent)
    · rw [hfree] at hcancelled
      cases hcancelled
  | forwarded w _ sent _ _ hphase hvalid =>
    cases sent with
    | false => exact eachAfter_nil
    | true =>
      refine hone ⟨run.sessionID, frameSession_of_valid hvalid, h.newest r run w hr ?_⟩
      rw [hphase]
      rfl
  | _ => exact eachAfter_nil

theorem WorkersOwned.runKeeps (h : WorkersOwned s es) {run : WorkerRun}
    (hreg : (ops.foldl (WorkerBroker.apply r) (s.onRun r fun _ => run')).Registered)
    (hsuper : (ops.foldl (WorkerBroker.apply r) (s.onRun r fun _ => run')).Superseded (·.busy = true))
    (hr : s.runs[r]? = some run) (hmove : RunMoves env (s.view r run) run act run' ops res)
    (hnone : ∀ id w, .starts id w ∉ res) :
    WorkersOwned (ops.foldl (WorkerBroker.apply r) (s.onRun r fun _ => run')) (es ++ res.map (.run r)) := by
  refine h.keeps hreg hsuper (keeps_of_moves hr hmove hnone) ⟨fun id => ?_, fun r' _ _ hstop => ?_,
    fun r' hstop => ?_, h.owns_of_moves hr hmove⟩
  · refine filterMap_eq_nil_iff.mpr fun e he => ?_
    obtain ⟨e', he', rfl⟩ := mem_map.mp he
    cases e' with
    | starts id' w => exact absurd he' (hnone id' w)
    | _ => rfl
  · rw [any_isStopOf_map_run] at hstop
    cases hstop
  · rw [any_isStopOf_map_run] at hstop
    cases hstop

/-- The new worker belongs to the run that launched it, and to no other. -/
theorem WorkersOwned.started (h : WorkersOwned s es) {run : WorkerRun}
    (ht : t = WorkerBroker.apply r (s.onRun r fun _ => run.goTo (.launched s.workers.length)) .launch)
    (hreg : t.Registered) (hsuper : t.Superseded (·.busy = true)) (hr : s.runs[r]? = some run)
    (hphase : run.phase = .launching) :
    WorkersOwned t (es ++ [.run r (.starts run.sessionID s.workers.length)]) := by
  have hruns : t.runs = (s.onRun r fun _ => run.goTo (.launched s.workers.length)).runs := by rw [ht]; rfl
  have hworkers : t.workers = s.workers ++ [{ run := r }] := by rw [ht]; rfl
  have hcases : ∀ {r₁ : ℕ} {run₁ : WorkerRun}, t.runs[r₁]? = some run₁ →
      r₁ = r ∧ run₁ = run.goTo (.launched s.workers.length) ∨ r ≠ r₁ ∧ s.runs[r₁]? = some run₁ := by
    intro r₁ run₁ hr₁
    rw [hruns] at hr₁
    obtain ⟨run₂, hr₂, rfl⟩ := getElem?_onRun hr₁
    by_cases hsame : r = r₁
    · exact .inl ⟨hsame.symm, if_pos hsame⟩
    · rw [if_neg hsame]
      exact .inr ⟨hsame, hr₂⟩
  have hnow : t.runs[r]? = some (run.goTo (.launched s.workers.length)) := by
    rw [hruns]
    unfold onRun
    rw [getElem?_modify, hr]
    exact congrArg some (if_pos rfl)
  -- a run of before is there still, and only the launching one holds another worker
  have hold : ∀ {r₁ : ℕ} {run₁ : WorkerRun}, s.runs[r₁]? = some run₁ →
      ∃ run' : WorkerRun, t.runs[r₁]? = some run' ∧ run'.sessionID = run₁.sessionID ∧ (r ≠ r₁ → run' = run₁) := by
    intro r₁ run₁ hr₁
    by_cases hsame : r = r₁
    · subst hsame
      cases hr.symm.trans hr₁
      exact ⟨_, hnow, rfl, fun hne => absurd rfl hne⟩
    · refine ⟨run₁, ?_, rfl, fun _ => rfl⟩
      rw [hruns]
      unfold onRun
      rw [getElem?_modify, hr₁]
      exact congrArg some (if_neg hsame)
  have hstarts : ∀ id, startedWorkers id (es ++ [.run r (.starts run.sessionID s.workers.length)]) =
      startedWorkers id es ++ if run.sessionID = id then [s.workers.length] else [] := by
    intro id
    rw [startedWorkers_append]
    congr 1
    unfold startedWorkers
    rw [filterMap_cons, filterMap_nil]
    dsimp only
    split_ifs with hid
    · rfl
    · rfl
  have hstop : ∀ r₁, (es ++ [BrokerEvent.run r (.starts run.sessionID s.workers.length)]).any (·.isStopOf r₁) =
      es.any (·.isStopOf r₁) := by
    intro r₁
    rw [any_append]
    exact Bool.or_false _
  constructor
  · exact hreg
  · exact hsuper
  · intro w p hw
    rw [hworkers] at hw
    rcases getElem?_snoc hw with hbefore | ⟨-, rfl⟩
    · obtain ⟨run₁, hr₁⟩ := h.launcher w p hbefore
      obtain ⟨run', hr', -⟩ := hold hr₁
      exact ⟨run', hr'⟩
    · exact ⟨_, hnow⟩
  · intro w p hw hopen
    rw [hworkers] at hw
    rcases getElem?_snoc hw with hbefore | ⟨rfl, rfl⟩
    · obtain ⟨run₁, hr₁, hheld⟩ := h.held w p hbefore hopen
      have hne : r ≠ p.run := fun hsame => by
        rw [← hsame, hr] at hr₁
        rw [← Option.some.inj hr₁, hphase] at hheld
        simp [RunPhase.worker?] at hheld
      obtain ⟨run', hr', -, hsame⟩ := hold hr₁
      rw [hsame hne] at hr'
      exact ⟨run₁, hr', hheld⟩
    · exact ⟨_, hnow, rfl⟩
  · intro r₁ run₁ w hr₁ hheld
    rw [hstarts]
    rcases hcases hr₁ with ⟨rfl, rfl⟩ | ⟨hne, hbefore⟩
    · rw [if_pos (show run.sessionID = (run.goTo (.launched s.workers.length)).sessionID from rfl),
        getLast?_concat]
      exact hheld
    -- another run of this session would be superseded, so no other holds a worker
    · have hbusy : run₁.phase.busy = true := by
        unfold RunPhase.worker? at hheld
        split at hheld
        · rename_i hp
          rw [hp]
          rfl
        · rename_i hp
          rw [hp]
          rfl
        · rename_i hp
          rw [hp]
          rfl
        · simp at hheld
      have hother : run.sessionID ≠ run₁.sessionID := by
        intro hid
        rcases Nat.lt_or_gt_of_ne hne with hlt | hlt
        · refine (h.superseded r r₁ run run₁ hlt hr hbefore hid).2 ?_
          rw [hphase]
          rfl
        · exact (h.superseded r₁ r run₁ run hlt hbefore hr hid.symm).2 hbusy
      rw [if_neg hother, append_nil]
      exact h.newest r₁ run₁ w hbefore hheld
  · intro r₁ run₁ hr₁ signal hsignal
    rcases hcases hr₁ with ⟨rfl, rfl⟩ | ⟨-, hbefore⟩
    · exact h.queued r₁ run hr signal hsignal
    · exact h.queued r₁ run₁ hbefore signal hsignal
  · intro w p signal hw hwriter
    rw [hworkers] at hw
    rcases getElem?_snoc hw with hbefore | ⟨-, rfl⟩
    · obtain ⟨run₁, hr₁, hsession⟩ := h.sending w p signal hbefore hwriter
      obtain ⟨run', hr', hid, -⟩ := hold hr₁
      exact ⟨run', hr', by rw [hid]; exact hsession⟩
    · simp at hwriter
  · intro r₁ run₁ hr₁ hstopped
    rw [hstop] at hstopped
    have hsessions : t.sessions = s.sessions := by rw [ht]; rfl
    rw [hsessions]
    rcases hcases hr₁ with ⟨rfl, rfl⟩ | ⟨-, hbefore⟩
    · exact h.stopped r₁ run hr hstopped
    · exact h.stopped r₁ run₁ hbefore hstopped
  · intro r₁ hstopped
    rw [hstop] at hstopped
    have hlength : t.runs.length = s.runs.length := by
      rw [hruns]
      exact length_modify ..
    rw [hlength]
    exact h.known r₁ hstopped
  · exact eachAfter_snoc h.owns trivial

theorem WorkersOwned.run (h : WorkersOwned s es) {r : ℕ} {run run' : WorkerRun} {act : RunAction}
    {ops : List WorkerOp} {res : List RunEvent}
    (hreg : (ops.foldl (WorkerBroker.apply r) (s.onRun r fun _ => run')).Registered)
    (hsuper : (ops.foldl (WorkerBroker.apply r) (s.onRun r fun _ => run')).Superseded (·.busy = true))
    (hr : s.runs[r]? = some run) (hmove : RunMoves env (s.view r run) run act run' ops res) :
    WorkersOwned (ops.foldl (WorkerBroker.apply r) (s.onRun r fun _ => run')) (es ++ res.map (.run r)) := by
  by_cases hnone : ∀ id w, .starts id w ∉ res
  · exact h.runKeeps hreg hsuper hr hmove hnone
  · cases hmove with
    | started hphase => exact h.started rfl hreg hsuper hr hphase
    | refused _ sent =>
      refine absurd (fun id w hmem => ?_) hnone
      cases sent with
      | false | true => simp at hmem
    | forwarded _ _ sent =>
      refine absurd (fun id w' hmem => ?_) hnone
      cases sent with
      | false | true => simp [WorkerRun.forward] at hmem
    | _ => exact absurd (fun id w hmem => absurd hmem (by simp)) hnone

/-- Every step of the broker keeps the workers with their runs. -/
theorem WorkersOwned.step (h : WorkersOwned s es) (hafter : s.StartsAfter (·.busy = true) env a)
    (hstep : (sessionWorkerBroker env).step s a = some (t, fs)) : WorkersOwned t (es ++ fs) := by
  have hmoves := moves_of_step hstep
  have hreg := h.registered.step hmoves
  have hsuper := h.superseded.step shuts_busy h.registered hafter hmoves
  have hquiet : ∀ {e : BrokerEvent}, (∀ id, startedWorkers id [e] = []) → (∀ r, e.isStopOf r = false) →
      OwnWorker es e → KeptEvents t es [e] := by
    intro e hstarts hstop howns
    refine ⟨hstarts, fun r run _ hmem => ?_, fun r hmem => ?_, ?_⟩
    · rw [any_cons, hstop] at hmem
      simp at hmem
    · rw [any_cons, hstop] at hmem
      simp at hmem
    · refine eachAfter_snoc eachAfter_nil ?_
      rw [append_nil]
      exact howns
  cases hmoves with
  | same => exact h.keeps hreg hsuper (keeps_refl s) (keptEvents_nil s es)
  | declined => exact h.keeps hreg hsuper (keeps_refl s) (hquiet (fun _ => rfl) (fun _ => rfl) trivial)
  | offered =>
    rw [append_nil]
    exact h.offered hsuper hreg rfl
  | queued sessionID r _ hlookup hsession =>
    refine h.keeps hreg hsuper (keeps_onRun rfl rfl rfl fun run hr => ?_) (keptEvents_nil _ es)
    refine ⟨⟨rfl, rfl, id, id, .same _⟩, .inl rfl, fun signal' hsignal => ?_⟩
    rw [mem_append, mem_singleton] at hsignal
    obtain ⟨run₁, hr₁, hid⟩ := h.registered.entries sessionID r hlookup
    cases hr.symm.trans hr₁
    exact hsignal.imp_right fun hsame => by rw [hsame, hid]; exact hsession
  -- the session leaves the table, and its run is to be stopped
  | stops sessionID r e hlookup _ hwhy =>
    obtain ⟨run, hr, hid⟩ := h.registered.entries sessionID r hlookup
    have hshrinks : ∀ id r', (s.sessions.erase sessionID).lookup id = some r' → s.sessions.lookup id = some r' := by
      intro id r' hlookup'
      by_cases hsame : id = sessionID
      · rw [hsame, AList.lookup_erase] at hlookup'
        simp at hlookup'
      · rw [AList.lookup_erase_ne hsame] at hlookup'
        exact hlookup'
    have hkeeps : Keeps s { s with sessions := s.sessions.erase sessionID, stopping := some (r, .mark) } :=
      keeps_of (r := 0) (w := 0) (g := id) (.inl rfl) (fun run _ => keepsRun_refl _ run) (.inl rfl)
        (fun p _ => keepsWorker_refl s p) hshrinks
    have hstop : ∀ r', e.isStopOf r' = true → r' = r := by
      intro r' hstop
      rcases hwhy with rfl | ⟨rfl, -⟩
      · exact (of_decide_eq_true hstop).symm
      · exact (of_decide_eq_true hstop).symm
    refine h.keeps hreg hsuper hkeeps ⟨fun id => ?_, fun r' run' hr' hmem => .inl ?_, fun r' hmem => ?_, ?_⟩
    · rcases hwhy with rfl | ⟨rfl, -⟩
      · rfl
      · rfl
    · rw [any_cons, any_nil, Bool.or_false] at hmem
      obtain rfl := hstop r' hmem
      cases hr.symm.trans hr'
      rw [hid]
      exact fun hlookup' => absurd ((AList.lookup_erase ..).symm.trans hlookup') (by simp)
    · rw [any_cons, any_nil, Bool.or_false] at hmem
      obtain rfl := hstop r' hmem
      exact (List.getElem?_eq_some_iff.mp hr).1
    · refine eachAfter_snoc eachAfter_nil ?_
      rcases hwhy with rfl | ⟨rfl, -⟩
      · trivial
      · trivial
  | stopNext r stage => exact h.keeps hreg hsuper (keeps_stopNext r stage) (keptEvents_nil _ es)
  | scope =>
    have hkeeps : Keeps s { s with runs := s.runs.map fun run => { run with cancelled := true } } := by
      refine ⟨length_map .., fun r run' hr' => ?_, fun w p hw => ⟨p, hw, keepsWorker_refl s p⟩, fun _ _ h => h⟩
      rw [getElem?_map] at hr'
      obtain ⟨run, hr, rfl⟩ := Option.map_eq_some_iff.mp hr'
      exact ⟨run, hr, ⟨rfl, rfl, id, fun _ => rfl, .same _⟩, .inl rfl, fun _ h => .inl h⟩
    refine h.keeps hreg hsuper hkeeps ⟨fun id => ?_, fun r run' hr' _ => .inr ?_, fun r hmem => ?_, ?_⟩
    · refine filterMap_eq_nil_iff.mpr fun e he => ?_
      obtain ⟨r, -, rfl⟩ := mem_map.mp he
      rfl
    · rw [getElem?_map] at hr'
      obtain ⟨run, hr, rfl⟩ := Option.map_eq_some_iff.mp hr'
      rfl
    · obtain ⟨e, he, hstop⟩ := any_eq_true.mp hmem
      obtain ⟨r', hr', rfl⟩ := mem_map.mp he
      obtain rfl : r' = r := of_decide_eq_true hstop
      rw [hkeeps.length]
      exact mem_range.mp hr'
    · intro fs₁ e fs₂ hsplit
      have hmem : e ∈ (List.range s.runs.length).map BrokerEvent.agentStops :=
        hsplit ▸ mem_append_right fs₁ (mem_cons_self ..)
      obtain ⟨r', -, rfl⟩ := mem_map.mp hmem
      trivial
  | run _ _ run _ _ _ _ hr hmove => exact h.run hreg hsuper hr hmove
  -- the writer takes a signal of the run that its worker belongs to
  | takes w r _ signal rest hw hr =>
    obtain ⟨run, hrun, houtbound⟩ := Option.map_eq_some_iff.mp hr
    refine h.keeps hreg hsuper (keeps_of
      (.inr rfl) (fun run₁ hrun₁ => ?_) (.inr rfl) (fun p hp => ?_)
      fun _ _ h => h) (keptEvents_nil _ es)
    · cases hrun.symm.trans hrun₁
      exact ⟨⟨rfl, rfl, id, id, .same _⟩, .inl rfl, fun signal' h => .inl (houtbound ▸ mem_cons_of_mem signal h)⟩
    · cases hw.symm.trans hp
      refine ⟨rfl, id, fun signal' hsignal => .inr ⟨run, hrun, ?_⟩⟩
      cases hsignal
      exact h.queued r run hrun signal (houtbound ▸ mem_cons_self ..)
  | delivered w r signal hw =>
    obtain ⟨run, hr, hsession⟩ := h.sending w _ signal hw rfl
    obtain ⟨run₁, hr₁, hheld⟩ := h.held w _ hw rfl
    cases hr.symm.trans hr₁
    exact h.keeps hreg hsuper
      (keeps_onWorker rfl rfl rfl
        (keepsWorker_writer fun _ => by simp))
      (hquiet (fun _ => rfl) (fun _ => rfl) ⟨run.sessionID, hsession, h.newest r run w hr hheld⟩)
  | writerStops w =>
    exact h.keeps hreg hsuper
      (keeps_onWorker rfl rfl rfl
        (keepsWorker_writer fun _ => by simp)) (keptEvents_nil _ es)

theorem workersOwned_start : WorkersOwned {} [] where
  registered := registered_start
  superseded := fun _ _ _ _ _ hr => absurd hr (by simp)
  launcher := fun _ _ hw => absurd hw (by simp)
  held := fun _ _ hw => absurd hw (by simp)
  newest := fun _ _ _ hr => absurd hr (by simp)
  queued := fun _ _ hr => absurd hr (by simp)
  sending := fun _ _ _ hw => absurd hw (by simp)
  stopped := fun _ _ hr => absurd hr (by simp)
  known := fun _ h => absurd h (by simp)
  owns := eachAfter_nil

end WorkerBroker

/-- No two workers of a session are live. -/
def OneLiveWorker (s : WorkerBroker) : Prop :=
  ∀ (w w' : ℕ) (p p' : WorkerProcess) (run run' : WorkerRun), s.workers[w]? = some p → s.workers[w']? =
    some p' → p.closed = false → p'.closed = false → s.runs[p.run]? = some run → s.runs[p'.run]? = some run' →
      run.sessionID = run'.sessionID → w = w'

/-- The workers of a run that is over are closed. -/
def ClosedWhenOver (s : WorkerBroker) : Prop :=
  ∀ (w : ℕ) (p : WorkerProcess) (run : WorkerRun), s.workers[w]? = some p → s.runs[p.run]? = some run →
    run.phase = .over → p.closed = true

/-- Where offers start runs only after the earlier runs of their session have no worker and no launch under
way, a session has one live worker at most, a run that is over leaves none, frames go to the newest worker of
their session and come from it, and no worker is attached after the end of its session. -/
theorem workers_owned {env : BrokerEnv} {s : WorkerBroker} {es : List BrokerEvent}
    (h : (sessionWorkerBroker env).Reach (fun s _ a => s.StartsAfter (·.busy = true) env a) {} s es) :
    OneLiveWorker s ∧ ClosedWhenOver s ∧ EachAfter OwnWorker es := by
  have howned : WorkerBroker.WorkersOwned s es :=
    h.invariant WorkerBroker.WorkersOwned WorkerBroker.workersOwned_start fun _ _ _ _ _ hs hgood hstep =>
      hs.step hgood hstep
  refine ⟨?_, ?_, howned.owns⟩
  · intro w w' p p' run run' hw hw' hopen hopen' hr hr' hid
    obtain ⟨run₁, hr₁, hheld⟩ := howned.held w p hw hopen
    obtain ⟨run₂, hr₂, hheld'⟩ := howned.held w' p' hw' hopen'
    cases hr.symm.trans hr₁
    cases hr'.symm.trans hr₂
    have hnewest := howned.newest _ run w hr hheld
    rw [hid, howned.newest _ run' w' hr' hheld'] at hnewest
    exact (Option.some.inj hnewest).symm
  · intro w p run hw hr hover
    by_contra hopen
    obtain ⟨run₁, hr₁, hheld⟩ := howned.held w p hw (not_eq_true _ ▸ hopen)
    cases hr.symm.trans hr₁
    rw [hover] at hheld
    simp [RunPhase.worker?] at hheld

/-- The worker of `sampleOffer` ends its session. -/
def sampleTerminate : Json :=
  .obj [("type", .str "session_terminate"), ("session_id", .str sampleSession), ("payload", .obj [
    ("session_id", .str sampleSession), ("reason", .str "user_closed")])]

/-- The server closes the session of the examples, and offers it again. -/
def reoffer : List BrokerAction :=
  [.message sampleClose 1, .stopGoesOn, .stopGoesOn, .stopGoesOn, .message (sampleOffer 2) 2]

/-- Two workers are live, of runs of one session. -/
def WorkerBroker.twoLive (s : WorkerBroker) : Bool :=
  match s.workers with
  | [⟨0, false, _⟩, ⟨1, false, _⟩] => s.runs.map WorkerRun.sessionID = [sampleSession, sampleSession]
  | _ => false

theorem WorkerBroker.not_oneLive_of_twoLive {s : WorkerBroker} (h : s.twoLive = true) : ¬ OneLiveWorker s := by
  intro hone
  unfold WorkerBroker.twoLive at h
  split at h
  · rename_i writer writer' hworkers
    have hids : s.runs.map WorkerRun.sessionID = [sampleSession, sampleSession] := of_decide_eq_true h
    obtain ⟨run, run', hruns⟩ : ∃ run run', s.runs = [run, run'] := by
      have hlength : s.runs.length = 2 := by
        rw [← length_map, hids]
        rfl
      exact length_eq_two.mp hlength
    rw [hruns] at hids
    have hfirst : run.sessionID = sampleSession := (cons_eq_cons.mp hids).1
    have hsecond : run'.sessionID = sampleSession := (cons_eq_cons.mp (cons_eq_cons.mp hids).2).1
    have hsame := hone 0 1 ⟨0, false, writer⟩ ⟨1, false, writer'⟩ run run' (by rw [hworkers]; rfl)
      (by rw [hworkers]; rfl)
      rfl rfl (by rw [hruns]; rfl) (by rw [hruns]; rfl) (hfirst.trans hsecond.symm)
    cases hsame
  · cases h

/-- At last the first run forwards a frame of its worker, while the newest worker is the second. -/
def forwardsLate (es : List BrokerEvent) : Bool :=
  match es.reverse with
  | .run 0 (.forwards 0 frame) :: past => frameSession frame = some sampleSession &&
    (startedWorkers sampleSession past.reverse).getLast? = some 1
  | _ => false

/-- A session is closed while its worker is being launched, and offered again: two workers are live. A session
is closed while its worker is served, and offered again: a frame of the closed worker goes to the server after
the next one is there. -/
theorem reoffer_keeps_old_worker : ¬ (∀ (env : BrokerEnv) (s : WorkerBroker) (es : List BrokerEvent),
      (sessionWorkerBroker env).Reach (fun _ _ _ => True) {} s es → OneLiveWorker s) ∧
    ¬ ∀ (env : BrokerEnv) (s : WorkerBroker) (es : List BrokerEvent),
      (sessionWorkerBroker env).Reach (fun _ _ _ => True) {} s es → EachAfter OwnWorker es := by
  constructor
  · intro hclaim
    have htwo : ∃ e ∈ (sessionWorkerBroker sampleEnv).exec (fun _ _ _ => true) {} []
        (.message (sampleOffer 1) 0 :: [.run 0 .check, .run 0 .launch] ++ reoffer ++
          [.run 1 .check, .run 1 .launch, .run 0 .launchSucceeds, .run 1 .launchSucceeds]),
        e.1.twoLive = true := by decide +kernel
    obtain ⟨⟨s, es⟩, hexec, htwo⟩ := htwo
    exact WorkerBroker.not_oneLive_of_twoLive htwo
      (hclaim sampleEnv s es (Machine.reach_of_exec (fun _ _ _ _ => trivial) hexec))
  · intro hclaim
    have hforwards : ∃ e ∈ (sessionWorkerBroker sampleEnv).exec (fun _ _ _ => true) {} []
        (.message (sampleOffer 1) 0 :: serving 0 ++ reoffer ++ serving 1 ++
          [.run 0 (.receives (some sampleTerminate) true 3)]),
        forwardsLate e.2 = true := by decide +kernel
    obtain ⟨⟨s, es⟩, hexec, hforwards⟩ := hforwards
    have howns := hclaim sampleEnv s es (Machine.reach_of_exec (fun _ _ _ _ => trivial) hexec)
    unfold forwardsLate at hforwards
    split at hforwards
    · rename_i frame past hes
      rw [and_eq_true, decide_eq_true_eq, decide_eq_true_eq] at hforwards
      have hsplit : es = past.reverse ++ .run 0 (.forwards 0 frame) :: [] := by
        rw [← reverse_reverse es, hes, reverse_cons]
      obtain ⟨sessionID, hsession, hnewest⟩ : NewestFor past.reverse 0 frame := howns _ _ _ hsplit
      rw [hforwards.1] at hsession
      rw [← Option.some.inj hsession, hforwards.2] at hnewest
      cases hnewest
    · cases hforwards

/-- `StartsAfter` without busy runs, evaluated. -/
def WorkerBroker.startsAfterBusy (env : BrokerEnv) (s : WorkerBroker) (a : BrokerAction) : Bool :=
  (s.startsRun env a).all fun (_, offer) => s.runs.all fun run => run.sessionID ≠ offer.sessionId || !run.phase.busy

theorem WorkerBroker.startsAfter_of {env : BrokerEnv} {s : WorkerBroker} {a : BrokerAction}
    (h : s.startsAfterBusy env a = true) : s.StartsAfter (·.busy = true) env a := by
  intro message offer hstarts r run hr hid hbusy
  unfold WorkerBroker.startsAfterBusy at h
  rw [hstarts, Option.all_some, all_eq_true] at h
  have hrun := h run (mem_of_getElem? hr)
  rw [hid, hbusy] at hrun
  simp at hrun

/-- A session is closed, its run ends, and it is offered again: the second worker is the live one. -/
theorem workers_owned_sample : ∃ s : WorkerBroker, s.workers.map (·.closed) = [true, false] ∧ OneLiveWorker s := by
  have hagain : ∃ e ∈ (sessionWorkerBroker sampleEnv).exec (fun s _ a => s.startsAfterBusy sampleEnv a) {} []
      (.message (sampleOffer 1) 0 :: serving 0 ++
        [.message sampleClose 1, .stopGoesOn, .stopGoesOn, .stopGoesOn, .run 0 .seesDone, .run 0 .leave,
          .message (sampleOffer 2) 2] ++ serving 1),
      e.1.workers.map (·.closed) = [true, false] := by decide +kernel
  obtain ⟨⟨s, es⟩, hexec, hclosed⟩ := hagain
  have hreach : (sessionWorkerBroker sampleEnv).Reach (fun s _ a => s.StartsAfter (·.busy = true) sampleEnv a)
    {} s es :=
    Machine.reach_of_exec (fun _ _ _ => WorkerBroker.startsAfter_of) hexec
  exact ⟨s, hclosed, (workers_owned hreach).1⟩

end LigamentApps.LinkAgent
