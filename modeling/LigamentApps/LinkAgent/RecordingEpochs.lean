import LigamentApps.LinkAgent.BrokerSteps
import LigamentApps.Machine.Past

/-!
# The epochs of the recordings of a session

The epochs that the broker hands to the workers of one session increase, from the one of the offer on, where
no restart window is over at a second restart, every offer of a session has a new epoch, and the first offer's
is below the one of the first restart. -/

namespace LigamentApps.LinkAgent

open List Bool

variable {res : List RunEvent} {run' : WorkerRun} {ops : List WorkerOp} {act : RunAction} {v : BrokerView}
  {r : ℕ} (sessionID : String)

/-- The epochs that have been handed to the workers of a session. -/
def handedEpochs (sessionID : String) (es : List BrokerEvent) : List ℤ :=
  es.filterMap fun e => match e with
    | .run _ (.launches id frame) => if id = sessionID then handedEpoch frame else none
    | _ => none

/-- The current epoch of a run has been handed to a worker. -/
def RunPhase.handsOut : RunPhase → Bool
  | .launching | .backoff | .launched _ | .attached _ | .serving _ => true
  | _ => false

def RunPhase.left : RunPhase → Bool
  | .leaving | .over => true
  | _ => false

/-- The event is a call of `Launch` by a run. -/
def BrokerEvent.isLaunchOf (r : ℕ) : BrokerEvent → Bool
  | .run r' (.launches _ _) => r' = r
  | _ => false

/-- A first call of `Launch` by a run is handed the offer as the server has sent it. -/
def LaunchesOfferFirst (s : WorkerBroker) (past : List BrokerEvent) : BrokerEvent → Prop
  | .run r (.launches _ frame) => past.any (·.isLaunchOf r) = false →
    ∃ run, s.runs[r]? = some run ∧ frame = run.initialOfferFrame
  | _ => True

/-- A step that counts a restart finds the window open at a second restart; at a first one the offer has the
epoch 1 or an earlier one, and Go can read it and write it again. An offer that starts a run has a later epoch
than all workers of its session so far, and no other run of the session is about to launch one. -/
structure KeepsEpochs (env : BrokerEnv) (s : WorkerBroker) (es : List BrokerEvent) (a : BrokerAction) : Prop where
  restarts : ∀ r act run now, a = .run r act → s.runs[r]? = some run →
    run.countsRestart env (s.view r run) act = some now → ∀ x, handedEpoch run.initialOfferFrame = some x →
      if run.restarts = 0 then x < 2 ∧ (remarshal env.float64 run.initialOfferFrame).isSome = true
      else run.windowOver now = false
  offers : ∀ message offer, s.startsRun env a = some (message, offer) →
    ∀ x, handedEpoch message = some x → ∀ y ∈ handedEpochs offer.sessionId es, y < x
  after : s.StartsAfter (· = .ready) env a

/-- The current epoch of a run is none of those handed out before it. -/
def WorkerRun.EpochAhead (env : BrokerEnv) (run : WorkerRun) (epochs : List ℤ) : Prop :=
  run.phase.left = true ∨ ∀ x, handedEpoch (run.currentOfferFrame env) = some x → ∀ y ∈ epochs,
    y < x ∨ run.phase.handsOut = true ∧ y = x

namespace WorkerBroker

variable {env : BrokerEnv} {s t : WorkerBroker} {a : BrokerAction} {es fs : List BrokerEvent}

/-- What holds of the epochs in every state. -/
structure EpochsKept (env : BrokerEnv) (s : WorkerBroker) (es : List BrokerEvent) : Prop where
  registered : s.Registered
  superseded : s.Superseded (· = .ready)
  increasing : ∀ sessionID, (handedEpochs sessionID es).Pairwise (· < ·)
  ahead : ∀ (r : ℕ) (run : WorkerRun), s.runs[r]? = some run →
    run.done = false ∨ run.phase = .ready → run.EpochAhead env (handedEpochs run.sessionID es)
  readable : ∀ (r : ℕ) (run : WorkerRun), s.runs[r]? = some run → run.done = false → run.restarts ≠ 0 →
    (handedEpoch run.initialOfferFrame).isSome = true → (remarshal env.float64 run.initialOfferFrame).isSome = true
  unlaunched : ∀ (r : ℕ) (run : WorkerRun), s.runs[r]? = some run → es.any (·.isLaunchOf r) = false →
    run.phase.left = true ∨ run.restarts = 0 ∧ (run.phase = .top ∨ run.phase = .ready)
  known : ∀ r, es.any (·.isLaunchOf r) = true → r < s.runs.length
  first : EachAfter (LaunchesOfferFirst s) es

theorem shuts_ready : Shuts (· = .ready) := by
  intro p p' hnext hready
  cases hnext with
  | same => exact hready
  | readied hgoes => simp at hgoes
  | _ => simp at hready

/-! ### What is handed out -/

theorem handedEpochs_append :
    handedEpochs sessionID (es ++ fs) = handedEpochs sessionID es ++ handedEpochs sessionID fs :=
  filterMap_append

theorem handedEpochs_quiet (hquiet : ∀ r e, .run r e ∉ fs) : handedEpochs sessionID fs = [] := by
  refine filterMap_eq_nil_iff.mpr fun e he => ?_
  cases e with
  | run r e => exact absurd he (hquiet r e)
  | _ => rfl

theorem any_isLaunchOf_quiet (r : ℕ) (hquiet : ∀ r e, .run r e ∉ fs) : fs.any (·.isLaunchOf r) = false := by
  refine any_eq_false.mpr fun e he => ?_
  cases e with
  | run r' e => exact absurd he (hquiet r' e)
  | _ => exact Bool.false_ne_true

theorem launch_of_moves {run : WorkerRun} (h : RunMoves env v run act run' ops res) :
    (∀ id frame, .launches id frame ∉ res) ∨
      run.phase = .ready ∧ run' = run.goTo .launching ∧
        res = [.launches run.sessionID (run.currentOfferFrame env)] := by
  cases h with
  | launches hphase => exact .inr ⟨hphase, rfl, rfl⟩
  | refused _ sent =>
    refine .inl fun id frame hmem => ?_
    cases sent with
    | false | true => simp at hmem
  | forwarded _ _ sent =>
    refine .inl fun id frame' hmem => ?_
    cases sent with
    | false | true => simp [WorkerRun.forward] at hmem
  | _ => exact .inl fun _ _ hmem => absurd hmem (by simp)

theorem handedEpochs_map_run (hnone : ∀ id frame, .launches id frame ∉ res) :
    handedEpochs sessionID (res.map (.run r)) = [] := by
  refine filterMap_eq_nil_iff.mpr fun e he => ?_
  obtain ⟨e', he', rfl⟩ := mem_map.mp he
  cases e' with
  | launches id frame => exact absurd he' (hnone id frame)
  | _ => rfl

theorem any_isLaunchOf_map_run {r' : ℕ} (hnone : ∀ id frame, .launches id frame ∉ res) :
    (res.map (BrokerEvent.run r)).any (·.isLaunchOf r') = false := by
  refine any_eq_false.mpr fun e he => ?_
  obtain ⟨e', he', rfl⟩ := mem_map.mp he
  cases e' with
  | launches id frame => exact absurd he' (hnone id frame)
  | _ => exact Bool.false_ne_true

theorem LaunchesOfferFirst.mono {past : List BrokerEvent} {e : BrokerEvent}
    (hframes : ∀ (r : ℕ) (run : WorkerRun), s.runs[r]? = some run →
      ∃ run' : WorkerRun, t.runs[r]? = some run' ∧ run'.initialOfferFrame = run.initialOfferFrame)
    (h : LaunchesOfferFirst s past e) : LaunchesOfferFirst t past e := by
  unfold LaunchesOfferFirst at h ⊢
  split
  · rename_i r id frame
    intro hfirst
    obtain ⟨run, hr, hframe⟩ := h hfirst
    obtain ⟨run', hr', hsame⟩ := hframes r run hr
    exact ⟨run', hr', hframe.trans hsame.symm⟩
  · trivial

theorem EpochsKept.rest (h : EpochsKept env s es) (hreg : t.Registered) (hsuper : t.Superseded (· = .ready))
    (hrest : Rest s t) (hquiet : ∀ r e, .run r e ∉ fs) : EpochsKept env t (es ++ fs) := by
  have hepochs : ∀ id, handedEpochs id (es ++ fs) = handedEpochs id es := fun id => by
    rw [handedEpochs_append, handedEpochs_quiet id hquiet, append_nil]
  have hlaunch : ∀ r, (es ++ fs).any (·.isLaunchOf r) = es.any (·.isLaunchOf r) := fun r => by
    rw [any_append, any_isLaunchOf_quiet r hquiet, Bool.or_false]
  have hframe : ∀ {run run' : WorkerRun}, run.Goes run' → run'.restarts = run.restarts →
      run'.currentOfferFrame env = run.currentOfferFrame env := by
    intro run run' hgoes hrestarts
    unfold WorkerRun.currentOfferFrame
    rw [hgoes.frame, hrestarts]
  constructor
  · exact hreg
  · exact hsuper
  · intro id
    rw [hepochs]
    exact h.increasing id
  · intro r run' hr' hmay
    obtain ⟨run, hr, hgoes, hphase, hrestarts⟩ := hrest.runs r run' hr'
    have hbefore := h.ahead r run hr (hmay.imp hgoes.done fun hready => hphase ▸ hready)
    unfold WorkerRun.EpochAhead at hbefore ⊢
    rw [hepochs, hphase, hgoes.sessionID, hframe hgoes hrestarts]
    exact hbefore
  · intro r run' hr' hnot hrestarts' hrecorded
    obtain ⟨run, hr, hgoes, hphase, hrestarts⟩ := hrest.runs r run' hr'
    rw [hgoes.frame] at hrecorded ⊢
    exact h.readable r run hr (hgoes.done hnot) (hrestarts ▸ hrestarts') hrecorded
  · intro r run' hr' hnone
    obtain ⟨run, hr, hgoes, hphase, hrestarts⟩ := hrest.runs r run' hr'
    rw [hlaunch] at hnone
    rw [hphase, hrestarts]
    exact h.unlaunched r run hr hnone
  · intro r hlaunched
    rw [hlaunch] at hlaunched
    rw [hrest.length]
    exact h.known r hlaunched
  · refine eachAfter_append (fun es₁ e es₂ hsplit => ?_) fun es₁ e es₂ hsplit => ?_
    · refine LaunchesOfferFirst.mono (fun r run hr => ?_) (h.first es₁ e es₂ hsplit)
      have hlt : r < t.runs.length := hrest.length ▸ (List.getElem?_eq_some_iff.mp hr).1
      obtain ⟨run₁, hr₁, hgoes, -⟩ := hrest.runs r t.runs[r] (getElem?_eq_getElem hlt)
      cases hr.symm.trans hr₁
      exact ⟨_, getElem?_eq_getElem hlt, hgoes.frame⟩
    · cases e with
      | run r e => exact absurd (hsplit ▸ mem_append_right es₁ (mem_cons_self ..)) (hquiet r e)
      | _ => trivial

theorem EpochsKept.offered {message : Json} {now : ℤ} {offer : SessionOffer} (h : EpochsKept env s es)
    (hreg : t.Registered) (hsuper : t.Superseded (· = .ready))
    (hruns : t.runs = s.runs ++ [{ offer := offer, initialOfferFrame := message, restartWindow := now }])
    (hoffers : ∀ x, handedEpoch message = some x → ∀ y ∈ handedEpochs offer.sessionId es, y < x) :
    EpochsKept env t es := by
  have hcases : ∀ {r : ℕ} {run : WorkerRun}, t.runs[r]? = some run → s.runs[r]? = some run ∨
      r = s.runs.length ∧ run = { offer := offer, initialOfferFrame := message, restartWindow := now } :=
    fun hr => getElem?_snoc (hruns ▸ hr)
  constructor
  · exact hreg
  · exact hsuper
  · exact h.increasing
  · intro r run hr hmay
    rcases hcases hr with hold | ⟨rfl, rfl⟩
    · exact h.ahead r run hold hmay
    · exact .inr fun x hx y hy => .inl (hoffers x hx y hy)
  · intro r run hr hnot hrestarts
    rcases hcases hr with hold | ⟨rfl, rfl⟩
    · exact h.readable r run hold hnot hrestarts
    · exact absurd rfl hrestarts
  · intro r run hr hnone
    rcases hcases hr with hold | ⟨rfl, rfl⟩
    · exact h.unlaunched r run hold hnone
    · exact .inr ⟨rfl, .inl rfl⟩
  · intro r hlaunched
    rw [hruns, length_append]
    exact Nat.lt_of_lt_of_le (h.known r hlaunched) (Nat.le_add_right ..)
  · refine fun es₁ e es₂ hsplit => LaunchesOfferFirst.mono (fun r run hr => ⟨run, ?_, rfl⟩)
      (h.first es₁ e es₂ hsplit)
    rw [hruns, getElem?_append_left (List.getElem?_eq_some_iff.mp hr).1]
    exact hr

/-! ### A step of a run -/

theorem epoch_of_restarted (env : BrokerEnv) {run : WorkerRun} (hlater : run.restarts ≠ 0)
    (hreads : (remarshal env.float64 run.initialOfferFrame).isSome = true)
    (hrecorded : (handedEpoch run.initialOfferFrame).isSome = true) :
    handedEpoch (run.currentOfferFrame env) = some ((1 + run.restarts : ℕ) : ℤ) := by
  unfold WorkerRun.currentOfferFrame
  rw [if_pos (Nat.pos_of_ne_zero hlater)]
  exact handedEpoch_updateOfferEpoch (1 + run.restarts) hreads hrecorded

theorem epochAhead_restarted {run : WorkerRun} {now : ℤ} {epochs : List ℤ} (phase : RunPhase)
    (hcounts : ∀ x, handedEpoch run.initialOfferFrame = some x →
      if run.restarts = 0 then x < 2 ∧ (remarshal env.float64 run.initialOfferFrame).isSome = true
      else run.windowOver now = false)
    (hreadable : run.restarts ≠ 0 → (handedEpoch run.initialOfferFrame).isSome = true →
      (remarshal env.float64 run.initialOfferFrame).isSome = true)
    (hleft : run.phase.left = false) (hahead : run.EpochAhead env epochs) :
    ((run.countRestart now).orGiveUp phase).EpochAhead env epochs := by
  refine .inr fun x hx y hy => .inl ?_
  have hbefore := hahead.resolve_left (by simp [hleft])
  have hframe : ((run.countRestart now).orGiveUp phase).initialOfferFrame = run.initialOfferFrame := by
    unfold WorkerRun.orGiveUp WorkerRun.countRestart
    split
    · rfl
    · rfl
  have hrestarts : ((run.countRestart now).orGiveUp phase).restarts =
      if run.windowOver now then 1 else run.restarts + 1 := by
    unfold WorkerRun.orGiveUp WorkerRun.countRestart
    split
    · rfl
    · rfl
  have hlater : ((run.countRestart now).orGiveUp phase).restarts ≠ 0 := by
    rw [hrestarts]
    split
    · exact Nat.one_ne_zero
    · exact Nat.succ_ne_zero _
  cases hrecording : handedEpoch run.initialOfferFrame with
  | none =>
    unfold WorkerRun.currentOfferFrame at hx
    rw [if_pos (Nat.pos_of_ne_zero hlater), hframe, handedEpoch_updateOfferEpoch_none _ hrecording] at hx
    simp at hx
  | some x₀ =>
    have hrecorded : (handedEpoch run.initialOfferFrame).isSome = true := by rw [hrecording]; rfl
    have hcond := hcounts x₀ hrecording
    by_cases hfirst : run.restarts = 0
    · rw [if_pos hfirst] at hcond
      have hepoch := epoch_of_restarted env hlater (by rw [hframe]; exact hcond.2) (by rw [hframe]; exact hrecorded)
      have hone : ((run.countRestart now).orGiveUp phase).restarts = 1 := by
        rw [hrestarts, hfirst]
        split
        · rfl
        · rfl
      have hx₀ : handedEpoch (run.currentOfferFrame env) = some x₀ := by
        unfold WorkerRun.currentOfferFrame
        rw [hfirst, if_neg (Nat.lt_irrefl 0)]
        exact hrecording
      rw [hone] at hepoch
      cases hepoch.symm.trans hx
      have hy₀ := hbefore x₀ hx₀ y hy
      omega
    · rw [if_neg hfirst] at hcond
      have hreads := hreadable hfirst hrecorded
      have hepoch := epoch_of_restarted env hlater (by rw [hframe]; exact hreads) (by rw [hframe]; exact hrecorded)
      have hcurrent := epoch_of_restarted env hfirst hreads hrecorded
      rw [hrestarts, hcond, if_neg Bool.false_ne_true] at hepoch
      cases hepoch.symm.trans hx
      have hy₀ := hbefore _ hcurrent y hy
      omega

theorem epochAhead_of_moves {run : WorkerRun} {epochs : List ℤ} (h : RunMoves env v run act run' ops res)
    (hnone : ∀ id frame, .launches id frame ∉ res)
    (hcounts : ∀ now, run.countsRestart env v act = some now → ∀ x, handedEpoch run.initialOfferFrame = some x →
      if run.restarts = 0 then x < 2 ∧ (remarshal env.float64 run.initialOfferFrame).isSome = true
      else run.windowOver now = false)
    (hreadable : run.done = false → run.restarts ≠ 0 → (handedEpoch run.initialOfferFrame).isSome = true →
      (remarshal env.float64 run.initialOfferFrame).isSome = true)
    (hahead : run.done = false ∨ run.phase = .ready → run.EpochAhead env epochs)
    (hmay : run'.done = false ∨ run'.phase = .ready) : run'.EpochAhead env epochs := by
  cases h with
  | leaves | refused | removed | ended =>
    exact .inl rfl
  | readied hphase hgoes =>
    have hbefore := (hahead (.inl hgoes)).resolve_left (by simp [hphase, RunPhase.left])
    refine .inr fun x hx y hy => .inl ((hbefore x hx y hy).resolve_right ?_)
    rw [hphase]
    exact fun h => absurd h.1 (by simp [RunPhase.handsOut])
  | launches => exact absurd (mem_singleton_self _) (hnone _ _)
  | backsOff hphase | started hphase =>
    have hbefore := (hahead (hmay.imp_right fun h => absurd h (by simp [WorkerRun.goTo]))).resolve_left
      (by simp [hphase, RunPhase.left])
    exact .inr fun x hx y hy => (hbefore x hx y hy).imp_right fun h => ⟨rfl, h.2⟩
  | attached _ hphase | served _ hphase =>
    have hbefore := (hahead (hmay.imp_right fun h => absurd h (by simp))).resolve_left (by simp [hphase,
      RunPhase.left])
    exact .inr fun x hx y hy => (hbefore x hx y hy).imp_right fun h => ⟨rfl, h.2⟩
  | forwarded =>
    have hsame : ∀ u : WorkerRun, u = run ∨ u = { run with terminateRequested := true } →
        (u.done = false ∨ u.phase = .ready → u.EpochAhead env epochs) := by
      rintro u (rfl | rfl) hu
      · exact hahead hu
      · rcases hu with hdone | hready
        · simp [WorkerRun.done] at hdone
        · exact hahead (.inr hready)
    refine hsame _ ?_ hmay
    unfold WorkerRun.forward
    split
    · exact .inr rfl
    · exact .inl rfl
  | restarted now phase hphase hcounted =>
    have hnotReady : ((run.countRestart now).orGiveUp phase).phase ≠ .ready := by
      unfold WorkerRun.orGiveUp WorkerRun.goTo
      split
      · simp
      · rcases hphase with ⟨-, rfl⟩ | ⟨-, rfl⟩
        · simp
        · simp
    have hdone' := hmay.resolve_right hnotReady
    have hdone : run.done = false := by
      unfold WorkerRun.orGiveUp WorkerRun.goTo WorkerRun.countRestart at hdone'
      split at hdone'
      · exact hdone'
      · exact hdone'
    have hleft : run.phase.left = false := by
      rcases hphase with ⟨hbackoff, -⟩ | ⟨⟨w, hserving⟩, -⟩
      · rw [hbackoff]
        rfl
      · rw [hserving]
        rfl
    have hcounts' := hcounted.resolve_left fun h => by
      rw [hdone] at h
      exact absurd h.1 (by simp)
    exact epochAhead_restarted phase (hcounts now hcounts') (hreadable hdone) hleft (hahead (.inl hdone))
  | paused hphase =>
    have hbefore := (hahead (hmay.imp_right fun h => absurd h (by simp [WorkerRun.goTo]))).resolve_left
      (by simp [hphase, RunPhase.left])
    refine .inr fun x hx y hy => .inl ((hbefore x hx y hy).resolve_right ?_)
    rw [hphase]
    exact fun h => absurd h.1 (by simp [RunPhase.handsOut])

theorem unlaunched_of_moves {run : WorkerRun} (h : RunMoves env v run act run' ops res)
    (hnone : ∀ id frame, .launches id frame ∉ res)
    (hbefore : run.phase.left = true ∨ run.restarts = 0 ∧ (run.phase = .top ∨ run.phase = .ready)) :
    run'.phase.left = true ∨ run'.restarts = 0 ∧ (run'.phase = .top ∨ run'.phase = .ready) := by
  have hgone : ∀ {p : RunPhase}, run.phase = p → p.left = false → p ≠ .top → p ≠ .ready → False := by
    rintro p hp hleft htop hready
    rw [hp] at hbefore
    rcases hbefore with hgone | ⟨-, hp | hp⟩
    · rw [hleft] at hgone
      simp at hgone
    · exact htop hp
    · exact hready hp
  cases h with
  | leaves | refused | removed | ended =>
    exact .inl rfl
  | readied hphase =>
    refine .inr ⟨(hbefore.resolve_left ?_).1, .inr rfl⟩
    rw [hphase]
    exact Bool.false_ne_true
  | launches => exact absurd (mem_singleton_self _) (hnone _ _)
  | backsOff hphase | started hphase | attached _ hphase | served _ hphase
  | forwarded _ _ _ _ _ hphase | paused hphase => exact (hgone hphase rfl (by simp) (by simp)).elim
  | restarted _ _ hphase =>
    rcases hphase with ⟨hbackoff, -⟩ | ⟨⟨w, hserving⟩, -⟩
    · exact (hgone hbackoff rfl (by simp) (by simp)).elim
    · exact (hgone hserving rfl (by simp) (by simp)).elim

theorem EpochsKept.sessionID_ne (h : EpochsKept env s es) {r' : ℕ} {run : WorkerRun} (hne : r ≠ r')
    (hr : s.runs[r]? = some run) (hr' : s.runs[r']? = some run') (hready : run.phase = .ready)
    (hmay : run'.done = false ∨ run'.phase = .ready) : run.sessionID ≠ run'.sessionID := by
  intro hid
  rcases Nat.lt_or_gt_of_ne hne with hlt | hlt
  · exact (h.superseded r r' run run' hlt hr hr' hid).2 hready
  · obtain ⟨hterminated, hnot⟩ := h.superseded r' r run' run hlt hr' hr hid.symm
    rcases hmay with hdone | hready'
    · unfold WorkerRun.done at hdone
      rw [hterminated] at hdone
      simp at hdone
    · exact hnot hready'

theorem counts_of_restarts {run : WorkerRun} (h : RunMoves env v run act run' ops res)
    (hdone : run'.done = false) (hzero : run.restarts = 0) (hlater : run'.restarts ≠ 0) :
    ∃ now, run.countsRestart env v act = some now := by
  have hbefore := h.goes.done hdone
  cases h with
  | restarted now _ _ hcounts =>
    refine ⟨now, hcounts.resolve_left fun h => ?_⟩
    rw [hbefore] at h
    exact absurd h.1 (by simp)
  | forwarded =>
    unfold WorkerRun.forward at hlater
    split at hlater
    · exact absurd hzero hlater
    · exact absurd hzero hlater
  | _ => exact absurd hzero hlater

/-- A move of one run keeps the epochs increasing: only a launch hands one out, and it is above all before. -/
theorem EpochsKept.run {r : ℕ} {act : RunAction} {run run' : WorkerRun} {ops : List WorkerOp} {res : List RunEvent}
    (h : EpochsKept env s es) (hreg : t.Registered) (hsuper : t.Superseded (· = .ready))
    (hgood : KeepsEpochs env s es (.run r act)) (hr : s.runs[r]? = some run)
    (hmove : RunMoves env (s.view r run) run act run' ops res) (hruns : t.runs = (s.onRun r fun _ => run').runs) :
    EpochsKept env t (es ++ res.map (.run r)) := by
  have hcases : ∀ {r₁ : ℕ} {run₁ : WorkerRun}, t.runs[r₁]? = some run₁ →
      r₁ = r ∧ run₁ = run' ∨ r ≠ r₁ ∧ s.runs[r₁]? = some run₁ := by
    intro r₁ run₁ hr₁
    rw [hruns] at hr₁
    obtain ⟨run₂, hr₂, rfl⟩ := getElem?_onRun hr₁
    by_cases hsame : r = r₁
    · exact .inl ⟨hsame.symm, if_pos hsame⟩
    · rw [if_neg hsame]
      exact .inr ⟨hsame, hr₂⟩
  have hgoes := hmove.goes
  have hlength : t.runs.length = s.runs.length := by
    rw [hruns]
    exact length_modify ..
  have hlt : r < s.runs.length := (List.getElem?_eq_some_iff.mp hr).1
  -- the launches before this step are judged by a run's first frame, which no move changes
  have hfirst : EachAfter (LaunchesOfferFirst t) es := by
    refine fun es₁ e es₂ hsplit => LaunchesOfferFirst.mono (fun r₁ run₁ hr₁ => ?_) (h.first es₁ e es₂ hsplit)
    have hlt₁ : r₁ < t.runs.length := hlength ▸ (List.getElem?_eq_some_iff.mp hr₁).1
    refine ⟨t.runs[r₁], getElem?_eq_getElem hlt₁, ?_⟩
    rcases hcases (getElem?_eq_getElem hlt₁) with ⟨rfl, hrun'⟩ | ⟨-, hold⟩
    · cases hr.symm.trans hr₁
      rw [hrun', hgoes.frame]
    · rw [Option.some.inj (hold.symm.trans hr₁)]
  have hreadable : ∀ (r₁ : ℕ) (run₁ : WorkerRun), t.runs[r₁]? = some run₁ → run₁.done = false →
      run₁.restarts ≠ 0 → (handedEpoch run₁.initialOfferFrame).isSome = true →
        (remarshal env.float64 run₁.initialOfferFrame).isSome = true := by
    intro r₁ run₁ hr₁ hdone hlater hrecorded
    rcases hcases hr₁ with ⟨rfl, rfl⟩ | ⟨-, hold⟩
    · rw [hgoes.frame] at hrecorded ⊢
      by_cases hzero : run.restarts = 0
      · obtain ⟨now, hcounts⟩ := counts_of_restarts hmove hdone hzero hlater
        obtain ⟨x, hx⟩ := Option.isSome_iff_exists.mp hrecorded
        have hcond := hgood.restarts r₁ act run now rfl hr hcounts x hx
        rw [if_pos hzero] at hcond
        exact hcond.2
      · exact h.readable r₁ run hr (hgoes.done hdone) hzero hrecorded
    · exact h.readable r₁ run₁ hold hdone hlater hrecorded
  -- the move hands out no epoch, or is the launch from `ready`
  rcases launch_of_moves hmove with hnone | ⟨hready, rfl, rfl⟩
  · have hepochs : ∀ id, handedEpochs id (es ++ res.map (.run r)) = handedEpochs id es := fun id => by
      rw [handedEpochs_append, handedEpochs_map_run id hnone, append_nil]
    have hlaunch : ∀ r₁, (es ++ res.map (BrokerEvent.run r)).any (·.isLaunchOf r₁) = es.any (·.isLaunchOf r₁) :=
      fun r₁ => by
      rw [any_append, any_isLaunchOf_map_run hnone, Bool.or_false]
    constructor
    · exact hreg
    · exact hsuper
    · intro id
      rw [hepochs]
      exact h.increasing id
    · intro r₁ run₁ hr₁ hmay
      rw [hepochs]
      rcases hcases hr₁ with ⟨rfl, rfl⟩ | ⟨-, hold⟩
      · rw [hgoes.sessionID]
        exact epochAhead_of_moves hmove hnone (fun now hcounts => hgood.restarts r₁ act run now rfl hr hcounts)
          (h.readable r₁ run hr) (h.ahead r₁ run hr) hmay
      · exact h.ahead r₁ run₁ hold hmay
    · exact hreadable
    · intro r₁ run₁ hr₁ hnever
      rw [hlaunch] at hnever
      rcases hcases hr₁ with ⟨rfl, rfl⟩ | ⟨-, hold⟩
      · exact unlaunched_of_moves hmove hnone (h.unlaunched r₁ run hr hnever)
      · exact h.unlaunched r₁ run₁ hold hnever
    · intro r₁ hlaunched
      rw [hlaunch] at hlaunched
      rw [hlength]
      exact h.known r₁ hlaunched
    · refine eachAfter_append hfirst fun es₁ e es₂ hsplit => ?_
      have hmem : e ∈ res.map (BrokerEvent.run r) := hsplit ▸ mem_append_right es₁ (mem_cons_self ..)
      obtain ⟨e', he', rfl⟩ := mem_map.mp hmem
      cases e' with
      | launches id frame => exact absurd he' (hnone id frame)
      | _ => trivial
  · -- the current epoch of the run is handed out
    have hstrict : ∀ x, handedEpoch (run.currentOfferFrame env) = some x →
      ∀ y ∈ handedEpochs run.sessionID es, y < x := by
      intro x hx y hy
      have hbefore := (h.ahead r run hr (.inr hready)).resolve_left (by simp [hready, RunPhase.left])
      refine (hbefore x hx y hy).resolve_right fun hsame => ?_
      rw [hready] at hsame
      exact absurd hsame.1 (by simp [RunPhase.handsOut])
    have hepochs : ∀ id, handedEpochs id
        (es ++ [.launches run.sessionID (run.currentOfferFrame env)].map (.run r)) =
          handedEpochs id es ++ if run.sessionID = id
            then (handedEpoch (run.currentOfferFrame env)).toList else [] := by
      intro id
      rw [handedEpochs_append]
      congr 1
      unfold handedEpochs
      rw [map_singleton, filterMap_cons, filterMap_nil]
      dsimp only
      split_ifs with hid
      · cases handedEpoch (run.currentOfferFrame env) with
        | none | some => rfl
      · rfl
    constructor
    · exact hreg
    · exact hsuper
    · intro id
      rw [hepochs]
      split_ifs with hid
      · subst hid
        refine pairwise_append.mpr ⟨h.increasing _, ?_, fun y hy x hx => hstrict x (Option.mem_toList.mp hx) y hy⟩
        cases handedEpoch (run.currentOfferFrame env) with
        | none => exact List.Pairwise.nil
        | some => exact pairwise_singleton ..
      · rw [append_nil]
        exact h.increasing id
    · intro r₁ run₁ hr₁ hmay
      rcases hcases hr₁ with ⟨rfl, rfl⟩ | ⟨hne, hold⟩
      · refine .inr fun x hx y hy => ?_
        change y ∈ handedEpochs run.sessionID _ at hy
        change handedEpoch (run.currentOfferFrame env) = some x at hx
        rw [hepochs, if_pos rfl, mem_append, hx] at hy
        rcases hy with hy | hy
        · exact .inl (hstrict x hx y hy)
        · exact .inr ⟨rfl, mem_singleton.mp hy⟩
      · rw [hepochs, if_neg (h.sessionID_ne hne hr hold hready hmay), append_nil]
        exact h.ahead r₁ run₁ hold hmay
    · exact hreadable
    · intro r₁ run₁ hr₁ hnever
      rw [any_append, or_eq_false_iff] at hnever
      rcases hcases hr₁ with ⟨rfl, rfl⟩ | ⟨-, hold⟩
      · exact absurd hnever.2 (by simp [BrokerEvent.isLaunchOf])
      · exact h.unlaunched r₁ run₁ hold hnever.1
    · intro r₁ hlaunched
      rw [any_append, or_eq_true] at hlaunched
      rw [hlength]
      rcases hlaunched with hbefore | hnow
      · exact h.known r₁ hbefore
      · have hsame : r = r₁ := by simpa [BrokerEvent.isLaunchOf] using hnow
        exact hsame ▸ hlt
    · refine eachAfter_snoc hfirst fun hnever => ?_
      have hzero := ((h.unlaunched r run hr hnever).resolve_left (by simp [hready, RunPhase.left])).1
      refine ⟨run.goTo .launching, ?_, ?_⟩
      · rw [hruns]
        unfold onRun
        rw [getElem?_modify, hr]
        exact congrArg some (if_pos rfl)
      · unfold WorkerRun.currentOfferFrame
        rw [hzero, if_neg (Nat.lt_irrefl 0)]
        rfl

theorem EpochsKept.step (h : EpochsKept env s es) (hgood : KeepsEpochs env s es a)
    (hstep : (sessionWorkerBroker env).step s a = some (t, fs)) : EpochsKept env t (es ++ fs) := by
  have hmoves := moves_of_step hstep
  have hreg := h.registered.step hmoves
  have hsuper := h.superseded.step shuts_ready h.registered hgood.after hmoves
  rcases hmoves.kinds with ⟨hrest, hquiet⟩ | ⟨message, now, offer, hstarts, rfl, hruns⟩ |
    ⟨r, act, run, run', ops, res, rfl, hr, hmove, hruns, rfl⟩
  · exact h.rest hreg hsuper hrest hquiet
  · rw [append_nil]
    exact h.offered hreg hsuper hruns (hgood.offers message offer hstarts)
  · exact h.run hreg hsuper hgood hr hmove hruns

theorem epochsKept_start (env : BrokerEnv) : EpochsKept env {} [] where
  registered := registered_start
  superseded := fun _ _ _ _ _ hr => absurd hr (by simp)
  increasing := fun _ => List.Pairwise.nil
  ahead := fun _ _ hr => absurd hr (by simp)
  readable := fun _ _ hr => absurd hr (by simp)
  unlaunched := fun _ _ hr => absurd hr (by simp)
  known := fun _ h => absurd h (by simp)
  first := eachAfter_nil

end WorkerBroker

/-- In a run that keeps the epochs those of the workers of one session increase, and the first worker of a run
has the offer as it came. -/
theorem recording_epochs_increase {env : BrokerEnv} {s : WorkerBroker} {es : List BrokerEvent}
    (h : (sessionWorkerBroker env).Reach (fun s es a => KeepsEpochs env s es a) {} s es) :
    (∀ sessionID, (handedEpochs sessionID es).Pairwise (· < ·)) ∧ EachAfter (LaunchesOfferFirst s) es := by
  have hkept : WorkerBroker.EpochsKept env s es :=
    h.invariant (WorkerBroker.EpochsKept env) (WorkerBroker.epochsKept_start env)
      fun _ _ _ _ _ hs hgood hstep => hs.step hgood hstep
  exact ⟨hkept.increasing, hkept.first⟩

/-- A worker that crashes after a second, and the restarted one much later: the next worker gets the epoch of
the second one again. -/
theorem window_reset_repeats_epoch : ¬ ∀ (env : BrokerEnv) (s : WorkerBroker) (es : List BrokerEvent),
      (sessionWorkerBroker env).Reach (fun _ _ _ => True) {} s es →
        ∀ sessionID, (handedEpochs sessionID es).Pairwise (· < ·) := by
  intro hclaim
  have hrepeats : ∃ e ∈ (sessionWorkerBroker sampleEnv).exec (fun _ _ _ => true) {} []
      (.message (sampleOffer 1) 0 :: serving 0 ++ [.run 0 (.readerFails 1000000), .run 0 .pauseOver] ++ serving 0 ++
        [.run 0 (.readerFails 100000000), .run 0 .pauseOver] ++ serving 0),
      handedEpochs sampleSession e.2 = [1, 2, 2] := by decide +kernel
  obtain ⟨⟨s, es⟩, hexec, hepochs⟩ := hrepeats
  have hincreasing := hclaim sampleEnv s es (Machine.reach_of_exec (fun _ _ _ _ => trivial) hexec) sampleSession
  rw [hepochs] at hincreasing
  exact absurd hincreasing (by decide)

/-- `KeepsEpochs`, evaluated. -/
def keepsEpochs (env : BrokerEnv) (s : WorkerBroker) (es : List BrokerEvent) (a : BrokerAction) : Bool :=
  (match a with
    | .run r act => s.runs[r]?.all fun run => (run.countsRestart env (s.view r run) act).all fun now =>
      (handedEpoch run.initialOfferFrame).all fun x =>
        if run.restarts = 0 then x < 2 && (remarshal env.float64 run.initialOfferFrame).isSome
        else !run.windowOver now
    | _ => true) &&
  (s.startsRun env a).all fun (message, offer) =>
    ((handedEpoch message).all fun x => (handedEpochs offer.sessionId es).all (· < x)) &&
      s.runs.all fun run => run.sessionID ≠ offer.sessionId || run.phase ≠ .ready

theorem keepsEpochs_of {env : BrokerEnv} {s : WorkerBroker} {es : List BrokerEvent} {a : BrokerAction}
    (h : keepsEpochs env s es a = true) : KeepsEpochs env s es a := by
  unfold keepsEpochs at h
  rw [and_eq_true] at h
  obtain ⟨hrestarts, hoffers⟩ := h
  have hstarts : ∀ message offer, s.startsRun env a = some (message, offer) →
      ((handedEpoch message).all fun x => (handedEpochs offer.sessionId es).all (· < x)) = true ∧
        (s.runs.all fun run => run.sessionID ≠ offer.sessionId || run.phase ≠ .ready) = true := by
    intro message offer hstarts
    rw [hstarts] at hoffers
    exact and_eq_true_iff.mp hoffers
  constructor
  · rintro r act run now rfl hr hcounts x hx
    dsimp only at hrestarts
    rw [hr, Option.all_some, hcounts, Option.all_some, hx, Option.all_some] at hrestarts
    split
    · rename_i hzero
      rw [if_pos hzero] at hrestarts
      simpa using hrestarts
    · rename_i hlater
      rw [if_neg hlater] at hrestarts
      simpa using hrestarts
  · intro message offer hstart x hx y hy
    have hepochs := (hstarts message offer hstart).1
    rw [hx, Option.all_some, all_eq_true] at hepochs
    exact of_decide_eq_true (hepochs y hy)
  · intro message offer hstart r run hr hid hready
    have hrun := all_eq_true.mp (hstarts message offer hstart).2 run (mem_of_getElem? hr)
    rw [hid, hready] at hrun
    simp at hrun

/-- A crash within the window, an end by the server, and a new offer of the session with a new epoch. -/
theorem recording_epochs_increase_sample :
    ∃ es, handedEpochs sampleSession es = [1, 2, 3] ∧ (handedEpochs sampleSession es).Pairwise (· < ·) := by
  have hrun : ∃ e ∈ (sessionWorkerBroker sampleEnv).exec (fun s es a => keepsEpochs sampleEnv s es a) {} []
      (.message (sampleOffer 1) 0 :: serving 0 ++ [.run 0 (.readerFails 1000000), .run 0 .pauseOver] ++ serving 0 ++
        [.message sampleClose 2000000, .stopGoesOn, .stopGoesOn, .stopGoesOn, .message (sampleOffer 3) 3000000] ++
        serving 1),
      handedEpochs sampleSession e.2 = [1, 2, 3] := by decide +kernel
  obtain ⟨⟨s, es⟩, hexec, hepochs⟩ := hrun
  have hreach : (sessionWorkerBroker sampleEnv).Reach (fun s es a => KeepsEpochs sampleEnv s es a) {} s es :=
    Machine.reach_of_exec (fun _ _ _ => keepsEpochs_of) hexec
  exact ⟨es, hepochs, (recording_epochs_increase hreach).1 sampleSession⟩

end LigamentApps.LinkAgent
