import LigamentApps.Machine.Laws

/-!
# The recovery window of the operator's screen

`_schedulePcGraceTermination` of `support_operator_screen.dart` with its three timers, and everything that
arms or cancels them: the states of the connection, the pongs, the answers, the restarts of a Link session,
and the ends of the session. Times are in milliseconds; a timer may fire late.

`recoveryWindow` says which runs keep to the window: those in which a grace timer fires only in the attempt
that armed it, and in which nothing cancels it while the timers that were armed with it are still there. -/

namespace LigamentApps.SupportOperator.Recovery

/-! ## The screen -/

def pcGraceTimeout : ℕ := 60000

/-- How long an ICE restart in a Link session is held back. -/
def recoveryDelay : ℕ := 2000

/-- A timer that is armed, with the attempt it was armed in. -/
structure ArmedTimer where
  armedAt : ℕ
  attempt : ℕ

inductive IceState
  | connected
  | completed
  | failed
  | disconnected
  | closed
  /-- New or checking. -/
  | starting

inductive PcState
  | connected
  | failed
  | disconnected
  | closed
  | starting
  deriving DecidableEq

structure State where
  isLink : Bool
  now : ℕ := 0
  mounted : Bool := true
  isCleanedUp : Bool := false
  sessionTerminatedHandled : Bool := false
  linkRestarting : Bool := false
  linkAttemptGeneration : ℕ := 0
  /-- `_peerConnection`, by the attempt that has made it. -/
  peerConnection : Option ℕ := none
  linkRemoteDescriptionSet : Bool := false
  graceSecondsLeft : ℕ := 60
  pcGraceTimer : Option ArmedTimer := none
  graceCountdownTimer : Bool := false
  linkRecoveryTimer : Option ArmedTimer := none

/-- What happens to the connection, and when. -/
inductive Event
  /-- A state in which the connection is lost. -/
  | lost (time : ℕ)
  /-- A connected state, an applied answer or a pong. -/
  | recovers (time : ℕ)
  /-- A new attempt begins. -/
  | attempt (time : ℕ)
  /-- The grace timer ends the session with `pc_failed`. -/
  | expires (time : ℕ)
  deriving DecidableEq

namespace State

def start (isLink : Bool) : State := { isLink := isLink }

/-- `_pcGraceTimer?.cancel(); _pcGraceTimer = null`. -/
def cancelGrace (s : State) : State := { s with pcGraceTimer := none }

def cleanupResources (s : State) : State :=
  if s.isCleanedUp then s
  else
    { s with
      isCleanedUp := true
      pcGraceTimer := none
      graceCountdownTimer := false
      linkRecoveryTimer := none
      peerConnection := none }

def onSessionTerminated (s : State) : State :=
  if !s.mounted || s.sessionTerminatedHandled then s
  else
    { s with
      sessionTerminatedHandled := true
      pcGraceTimer := none
      graceCountdownTimer := false }.cleanupResources

def schedulePcGraceTermination (s : State) : State :=
  if !s.mounted || s.isCleanedUp || s.sessionTerminatedHandled || s.pcGraceTimer.isSome then s
  else
    { s with
      graceSecondsLeft := 60
      graceCountdownTimer := true
      pcGraceTimer := some ⟨s.now, s.linkAttemptGeneration⟩
      linkRecoveryTimer := if s.isLink then some ⟨s.now, s.linkAttemptGeneration⟩ else s.linkRecoveryTimer }

/-- The callbacks of a peer connection are heard: in a Link session only those of the present attempt. -/
def hears (s : State) (peer : ℕ) : Bool :=
  s.mounted && !s.isCleanedUp &&
    (!s.isLink || peer == s.linkAttemptGeneration && s.peerConnection == some peer)

/-- `onIceConnectionState` in a Link session. -/
def onLinkIceState (s : State) (peer : ℕ) (state : IceState) : State × List Event :=
  if s.hears peer then
    match state with
    | .connected | .completed => (s.cancelGrace, [.recovers s.now])
    | .failed => (if s.linkRemoteDescriptionSet then s.schedulePcGraceTermination else s, [.lost s.now])
    | .disconnected =>
      (if s.linkRemoteDescriptionSet && s.pcGraceTimer.isNone then s.schedulePcGraceTermination else s,
        [.lost s.now])
    | .closed => (s, [.lost s.now])
    | .starting => (s, [])
  else (s, [])

/-- `onIceConnectionState` in a support session. -/
def onSupportIceState (s : State) (state : IceState) : State × List Event :=
  if s.isCleanedUp then (s, [])
  else
    match state with
    | .connected | .completed => (s, [.recovers s.now])
    | .failed => (s, [.lost s.now])
    | .disconnected => (s.schedulePcGraceTermination, [.lost s.now])
    | .closed => (s.onSessionTerminated, [.lost s.now])
    | .starting => (s, [])

/-- `onConnectionState`, in both kinds of sessions. -/
def onConnectionState (s : State) (peer : ℕ) (state : PcState) : State × List Event :=
  if s.hears peer then
    match state with
    | .connected => (s.cancelGrace, [.recovers s.now])
    | .failed | .disconnected =>
      (if s.isLink && !s.linkRemoteDescriptionSet then s else s.schedulePcGraceTermination, [.lost s.now])
    | .closed => (if s.isLink then s.schedulePcGraceTermination else s.onSessionTerminated, [.lost s.now])
    | .starting => (s, [])
  else (s, [])

/-- A pong on the current data channel. -/
def onPong (s : State) : State × List Event :=
  if s.isCleanedUp || s.sessionTerminatedHandled then (s, []) else (s.cancelGrace, [.recovers s.now])

/-- The answer is one for the present attempt. -/
def takesAnswer (s : State) (peer : ℕ) : Bool :=
  !s.isCleanedUp && !s.sessionTerminatedHandled && peer == s.linkAttemptGeneration && s.peerConnection == some peer

/-- `setRemoteDescription` with the host's answer has completed. -/
def onAnswerApplied (s : State) (peer : ℕ) : State × List Event :=
  if s.takesAnswer peer then
    let applied := { s with linkRemoteDescriptionSet := true }
    (if applied.pcGraceTimer.isSome then { applied.cancelGrace with graceCountdownTimer := false } else applied,
      [.recovers s.now])
  else (s, [])

def onGraceTimer (s : State) : State × List Event :=
  let fired := { s with graceCountdownTimer := false }
  if !fired.mounted || fired.isCleanedUp then (fired, []) else (fired.onSessionTerminated, [.expires s.now])

/-- The callback of the countdown, once a second. -/
def onCountdown (s : State) : State :=
  if !s.mounted || s.isCleanedUp || s.pcGraceTimer.isNone then { s with graceCountdownTimer := false }
  else { s with graceSecondsLeft := s.graceSecondsLeft - 1 }

/-- The beginning of `_restartLinkConnection`. -/
def restartLinkConnection (s : State) : State × List Event :=
  if s.linkRestarting || s.isCleanedUp || s.sessionTerminatedHandled then (s, [])
  else
    ({ s with
        linkRestarting := true
        linkAttemptGeneration := s.linkAttemptGeneration + 1
        peerConnection := none
        linkRecoveryTimer := none
        linkRemoteDescriptionSet := false },
      [.attempt s.now])

end State

inductive Action
  /-- Time passes. -/
  | elapses (ms : ℕ)
  | iceState (peer : ℕ) (state : IceState)
  | connectionState (peer : ℕ) (state : PcState)
  | pong
  | answerApplied (peer : ℕ)
  /-- `_performLinkIceRestart` has set its offer. -/
  | iceRestarted
  | dataChannelClosed
  | graceTimer
  | countdown
  | recoveryTimer
  | restartLinkConnection
  /-- `_startLinkConnection` begins. -/
  | startLinkConnection
  /-- `_restartLinkConnection` is over. -/
  | restartOver
  /-- The peer connection of an attempt is there. -/
  | peerCreated (attempt : ℕ)
  /-- An attempt fails. -/
  | startFails (attempt : ℕ)
  /-- `_endSession` begins to end the session. -/
  | endSession
  /-- `_onSessionTerminated` for another reason. -/
  | terminated
  | dispose

/-- The screen and what happens to its connection. -/
def recovery : Machine State Action Event where
  step s
    | .elapses ms => some ({ s with now := s.now + ms }, [])
    | .iceState peer state => some (if s.isLink then s.onLinkIceState peer state else s.onSupportIceState state)
    | .connectionState peer state => some (s.onConnectionState peer state)
    | .pong => some s.onPong
    | .answerApplied peer => some (s.onAnswerApplied peer)
    | .iceRestarted => some ({ s with linkRemoteDescriptionSet := false }, [])
    | .dataChannelClosed =>
      some (if s.isLink && !s.isCleanedUp && !s.sessionTerminatedHandled then { s with linkRecoveryTimer := none }
        else s, [])
    | .graceTimer => s.pcGraceTimer.bind fun timer =>
      if timer.armedAt + pcGraceTimeout ≤ s.now then some s.onGraceTimer else none
    | .countdown => if s.graceCountdownTimer then some (s.onCountdown, []) else none
    | .recoveryTimer => s.linkRecoveryTimer.bind fun timer =>
      if timer.armedAt + recoveryDelay ≤ s.now then some ({ s with linkRecoveryTimer := none }, []) else none
    | .restartLinkConnection => if s.isLink then some s.restartLinkConnection else none
    | .startLinkConnection =>
      if s.isLink then some ({ s with linkAttemptGeneration := s.linkAttemptGeneration + 1 }, [.attempt s.now])
      else none
    | .restartOver => some ({ s with linkRestarting := false }, [])
    | .peerCreated attempt =>
      some (if !s.isCleanedUp && attempt == s.linkAttemptGeneration then { s with peerConnection := some attempt }
        else s, [])
    | .startFails attempt =>
      let left := if s.peerConnection = some attempt then { s with peerConnection := none } else s
      some (if !left.mounted || left.isCleanedUp || attempt != left.linkAttemptGeneration then left
        else { left with linkRemoteDescriptionSet := false }, [])
    | .endSession => some ({ s with linkRecoveryTimer := none }, [])
    | .terminated => some (s.onSessionTerminated, [])
    | .dispose => some ({ s.cleanupResources with mounted := false }, [])

/-! ## The laws and the conditions -/

variable {s t : State} {a : Action} {as : List Action} {es fs : List Event} {down : Option ℕ}

/-- Since when the connection is lost, in one attempt and without a recovery. The grace timer ends the session
only when it has been so for the whole grace period. -/
def graceLaw : Monitor (Option ℕ) Event where
  start := none
  next
    | down, .lost time => some (down.getD time)
    | _, .recovers _ | _, .attempt _ => none
    | down, .expires _ => down
  Ok
    | down, .expires time => down.any (fun since => since + pcGraceTimeout ≤ time) = true
    | _, _ => True

instance (down : Option ℕ) (e : Event) : Decidable (graceLaw.Ok down e) :=
  match e with
  | .expires time => inferInstanceAs (Decidable (down.any (fun since => since + pcGraceTimeout ≤ time) = true))
  | .lost _ | .recovers _ | .attempt _ => inferInstanceAs (Decidable True)

/-- Without a grace timer there is no countdown, and no ICE restart is held back. -/
def State.Tied (s : State) : Prop :=
  s.pcGraceTimer = none → s.graceCountdownTimer = false ∧ s.linkRecoveryTimer = none

def StaysTied (s : State) (_ : List Event) (a : Action) : Prop := ∀ t fs, recovery.step s a = some (t, fs) → t.Tied

/-- The grace timer fires in the attempt that has armed it, and in a support session ICE does not recover
while the timer is armed. -/
def Owned (s : State) (_ : List Event) : Action → Prop
  | .graceTimer => ∀ timer, s.pcGraceTimer = some timer → timer.attempt = s.linkAttemptGeneration
  | .iceState _ state => state = .connected ∨ state = .completed → s.isLink = false → s.pcGraceTimer = none
  | _ => True

/-- No connected state and no pong comes while the grace timer is armed, and no answer is applied while it is
armed and an ICE restart is held back. -/
def Tidy (s : State) (_ : List Event) : Action → Prop
  | .iceState peer state => s.isLink = true ∧ s.hears peer = true ∧
    (state = .connected ∨ state = .completed) → s.pcGraceTimer = none
  | .connectionState peer state => s.hears peer = true ∧ state = .connected → s.pcGraceTimer = none
  | .pong => s.isCleanedUp = false ∧ s.sessionTerminatedHandled = false → s.pcGraceTimer = none
  | .answerApplied peer => s.takesAnswer peer = true → s.pcGraceTimer = none ∨ s.linkRecoveryTimer = none
  | _ => True

/-! ## The grace period -/

/-- A grace timer of the present attempt was armed after the connection was lost. -/
structure Inv (s : State) (down : Option ℕ) : Prop where
  attempt : ∀ timer, s.pcGraceTimer = some timer → timer.attempt ≤ s.linkAttemptGeneration
  own : ∀ timer, s.pcGraceTimer = some timer → timer.attempt = s.linkAttemptGeneration →
    ∃ since, down = some since ∧ since ≤ timer.armedAt
  past : ∀ since, down = some since → since ≤ s.now

/-- A loss begins the time down, or goes on with it. -/
theorem Inv.lost (h : Inv s down) : Inv s (some (down.getD s.now)) := by
  cases down with
  | none =>
    refine ⟨h.attempt, fun timer htimer hown => ?_, fun since hsince => Nat.le_of_eq (Option.some.inj hsince).symm⟩
    obtain ⟨since, hno, -⟩ := h.own timer htimer hown
    simp at hno
  | some => exact h

theorem Inv.of_cancelled (hgrace : t.pcGraceTimer = none)
    (hpast : ∀ since, down = some since → since ≤ t.now) : Inv t down :=
  have hno : ∀ timer, t.pcGraceTimer ≠ some timer := fun _ htimer => absurd (hgrace.symm.trans htimer) (by simp)
  ⟨fun timer htimer => absurd htimer (hno timer), fun timer htimer => absurd htimer (hno timer), hpast⟩

theorem Inv.recovers (t : State) (hgrace : t.pcGraceTimer = none) : Inv t none := .of_cancelled hgrace nofun

theorem Inv.newAttempt (h : Inv s down) (hgrace : t.pcGraceTimer = s.pcGraceTimer)
    (hattempt : t.linkAttemptGeneration = s.linkAttemptGeneration + 1) : Inv t none := by
  refine ⟨fun timer htimer => ?_, fun timer htimer hown => ?_, nofun⟩
  · have hle := h.attempt timer (hgrace.symm.trans htimer)
    omega
  · have hle := h.attempt timer (hgrace.symm.trans htimer)
    omega

theorem Inv.same (h : Inv s down) (hgrace : t.pcGraceTimer = s.pcGraceTimer) (hnow : s.now ≤ t.now)
    (hattempt : t.linkAttemptGeneration = s.linkAttemptGeneration) : Inv t down := by
  refine ⟨?_, ?_, fun since hsince => Nat.le_trans (h.past since hsince) hnow⟩
  · rw [hgrace, hattempt]
    exact h.attempt
  · rw [hgrace, hattempt]
    exact h.own

theorem Inv.schedule (h : Inv s down) (hdown : down ≠ none) : Inv s.schedulePcGraceTermination down := by
  unfold State.schedulePcGraceTermination
  split
  · exact h
  · obtain ⟨since, rfl⟩ := Option.ne_none_iff_exists'.mp hdown
    refine ⟨fun timer htimer => ?_, fun timer htimer _ => ?_, h.past⟩
    · cases htimer
      exact Nat.le_refl _
    · cases htimer
      exact ⟨since, rfl, h.past since rfl⟩

theorem Inv.cleanupResources (h : Inv s down) : Inv s.cleanupResources down := by
  unfold State.cleanupResources
  split
  · exact h
  · exact .of_cancelled rfl h.past

theorem Inv.onSessionTerminated (h : Inv s down) : Inv s.onSessionTerminated down := by
  unfold State.onSessionTerminated
  split
  · exact h
  · have hcancelled : Inv { s with
        sessionTerminatedHandled := true
        pcGraceTimer := none
        graceCountdownTimer := false } down := .of_cancelled rfl h.past
    exact hcancelled.cleanupResources

/-- What a step does to the law. -/
def Keeps (down : Option ℕ) (r : State × List Event) : Prop :=
  graceLaw.AcceptsFrom down r.2 ∧ Inv r.1 (r.2.foldl graceLaw.next down)

theorem keeps_quiet (h : Inv t down) : Keeps down (t, []) := ⟨trivial, h⟩

theorem keeps_recovers (hgrace : t.pcGraceTimer = none) (time : ℕ) : Keeps down (t, [.recovers time]) :=
  ⟨⟨trivial, trivial⟩, .recovers t hgrace⟩

theorem keeps_lost (h : Inv t (some (down.getD s.now))) : Keeps down (t, [.lost s.now]) := ⟨⟨trivial, trivial⟩, h⟩

theorem Inv.lostAndScheduled (h : Inv s down) : Keeps down (s.schedulePcGraceTermination, [.lost s.now]) :=
  keeps_lost (h.lost.schedule (by simp))

theorem Inv.lostAndTerminated (h : Inv s down) : Keeps down (s.onSessionTerminated, [.lost s.now]) :=
  keeps_lost h.lost.onSessionTerminated

theorem Inv.onLinkIceState (h : Inv s down) (peer : ℕ) (state : IceState) :
    Keeps down (s.onLinkIceState peer state) := by
  unfold State.onLinkIceState
  split
  · cases state with
    | connected | completed => exact keeps_recovers rfl _
    | failed | disconnected =>
      dsimp only
      split
      · exact h.lostAndScheduled
      · exact keeps_lost h.lost
    | closed => exact keeps_lost h.lost
    | starting => exact keeps_quiet h
  · exact keeps_quiet h

theorem Inv.onSupportIceState (h : Inv s down) (state : IceState)
    (howned : state = .connected ∨ state = .completed → s.pcGraceTimer = none) :
    Keeps down (s.onSupportIceState state) := by
  unfold State.onSupportIceState
  split
  · exact keeps_quiet h
  · cases state with
    | connected => exact keeps_recovers (howned (Or.inl rfl)) _
    | completed => exact keeps_recovers (howned (Or.inr rfl)) _
    | failed => exact keeps_lost h.lost
    | disconnected => exact h.lostAndScheduled
    | closed => exact h.lostAndTerminated
    | starting => exact keeps_quiet h

theorem Inv.onConnectionState (h : Inv s down) (peer : ℕ) (state : PcState) :
    Keeps down (s.onConnectionState peer state) := by
  unfold State.onConnectionState
  split
  · cases state with
    | connected => exact keeps_recovers rfl _
    | failed | disconnected =>
      dsimp only
      split
      · exact keeps_lost h.lost
      · exact h.lostAndScheduled
    | closed =>
      dsimp only
      split
      · exact h.lostAndScheduled
      · exact h.lostAndTerminated
    | starting => exact keeps_quiet h
  · exact keeps_quiet h

theorem Inv.onAnswerApplied (h : Inv s down) (peer : ℕ) : Keeps down (s.onAnswerApplied peer) := by
  unfold State.onAnswerApplied
  split
  · dsimp only
    split
    · exact keeps_recovers rfl _
    · rename_i hnone
      exact keeps_recovers (by simpa using hnone) _
  · exact keeps_quiet h

theorem Inv.onGraceTimer (h : Inv s down) {timer : ArmedTimer} (htimer : s.pcGraceTimer = some timer)
    (hdue : timer.armedAt + pcGraceTimeout ≤ s.now) (hown : timer.attempt = s.linkAttemptGeneration) :
    Keeps down s.onGraceTimer := by
  have hfired : Inv { s with graceCountdownTimer := false } down := ⟨h.attempt, h.own, h.past⟩
  unfold State.onGraceTimer
  dsimp only
  split
  · exact keeps_quiet hfired
  · obtain ⟨since, rfl, hsince⟩ := h.own timer htimer hown
    refine ⟨⟨?_, trivial⟩, hfired.onSessionTerminated⟩
    simp only [graceLaw, Option.any_some, decide_eq_true_eq]
    omega

theorem keeps_step (h : Inv s down) (howned : Owned s es a) (hstep : recovery.step s a = some (t, fs)) :
    Keeps down (t, fs) := by
  cases a with
  | elapses =>
    rw [← Option.some.inj hstep]
    exact keeps_quiet (h.same rfl (Nat.le_add_right _ _) rfl)
  | iceState peer state =>
    rw [← Option.some.inj hstep]
    split
    · exact h.onLinkIceState peer state
    · rename_i hsupport
      exact h.onSupportIceState state fun hup => howned hup (by simpa using hsupport)
  | connectionState peer state =>
    rw [← Option.some.inj hstep]
    exact h.onConnectionState peer state
  | pong =>
    rw [← Option.some.inj hstep, State.onPong]
    split
    · exact keeps_quiet h
    · exact keeps_recovers rfl _
  | answerApplied peer =>
    rw [← Option.some.inj hstep]
    exact h.onAnswerApplied peer
  | iceRestarted | restartOver | endSession =>
    rw [← Option.some.inj hstep]
    exact keeps_quiet (h.same rfl (Nat.le_refl _) rfl)
  | dataChannelClosed | peerCreated =>
    rw [← Option.some.inj hstep]
    refine keeps_quiet ?_
    split
    · exact h.same rfl (Nat.le_refl _) rfl
    · exact h
  | graceTimer =>
    obtain ⟨timer, htimer, hrun⟩ := Option.bind_eq_some_iff.mp hstep
    split_ifs at hrun with hdue
    rw [← Option.some.inj hrun]
    exact h.onGraceTimer htimer hdue (howned timer htimer)
  | countdown =>
    simp only [recovery] at hstep
    split_ifs at hstep
    rw [← Option.some.inj hstep]
    refine keeps_quiet ?_
    unfold State.onCountdown
    split <;> exact h.same rfl (Nat.le_refl _) rfl
  | recoveryTimer =>
    obtain ⟨timer, htimer, hrun⟩ := Option.bind_eq_some_iff.mp hstep
    split_ifs at hrun with hdue
    rw [← Option.some.inj hrun]
    exact keeps_quiet (h.same rfl (Nat.le_refl _) rfl)
  | restartLinkConnection =>
    simp only [recovery] at hstep
    split_ifs at hstep
    rw [← Option.some.inj hstep, State.restartLinkConnection]
    split
    · exact keeps_quiet h
    · exact ⟨⟨trivial, trivial⟩, h.newAttempt rfl rfl⟩
  | startLinkConnection =>
    simp only [recovery] at hstep
    split_ifs at hstep
    rw [← Option.some.inj hstep]
    exact ⟨⟨trivial, trivial⟩, h.newAttempt rfl rfl⟩
  | startFails =>
    rw [← Option.some.inj hstep]
    refine keeps_quiet ?_
    split_ifs <;> exact h.same rfl (Nat.le_refl _) rfl
  | terminated =>
    rw [← Option.some.inj hstep]
    exact keeps_quiet h.onSessionTerminated
  | dispose =>
    rw [← Option.some.inj hstep]
    exact keeps_quiet (h.cleanupResources.same rfl (Nat.le_refl _) rfl)

/-! ## The timers -/

/-- The three timers together, and the end of the session. -/
structure Kept (s : State) : Prop where
  tied : s.Tied
  counted : s.pcGraceTimer ≠ none → s.graceCountdownTimer = true
  handled : s.sessionTerminatedHandled = true → s.isCleanedUp = true
  mounted : s.mounted = false → s.isCleanedUp = true
  cleaned : s.isCleanedUp = true →
    s.pcGraceTimer = none ∧ s.graceCountdownTimer = false ∧ s.linkRecoveryTimer = none

theorem kept_start (isLink : Bool) : Kept (.start isLink) := ⟨fun _ => ⟨rfl, rfl⟩, nofun, nofun, nofun, nofun⟩

theorem Kept.same (h : Kept s) (hgrace : t.pcGraceTimer = s.pcGraceTimer)
    (hcountdown : t.graceCountdownTimer = s.graceCountdownTimer)
    (hrecovery : t.linkRecoveryTimer = s.linkRecoveryTimer ∨ t.linkRecoveryTimer = none)
    (hhandled : t.sessionTerminatedHandled = s.sessionTerminatedHandled) (hmounted : t.mounted = s.mounted)
    (hcleaned : t.isCleanedUp = s.isCleanedUp) : Kept t := by
  have hkept : ∀ {p : Prop}, (p → s.linkRecoveryTimer = none) → p → t.linkRecoveryTimer = none := by
    intro p hnone hp
    rcases hrecovery with hsame | hcancelled
    · exact hsame.trans (hnone hp)
    · exact hcancelled
  refine ⟨fun hnone => ?_, ?_, ?_, ?_, fun hyes => ?_⟩
  · have hnone : s.pcGraceTimer = none := hgrace.symm.trans hnone
    exact ⟨hcountdown.trans (h.tied hnone).1, hkept (fun hnone => (h.tied hnone).2) hnone⟩
  · rw [hgrace, hcountdown]
    exact h.counted
  · rw [hhandled, hcleaned]
    exact h.handled
  · rw [hmounted, hcleaned]
    exact h.mounted
  · have hyes : s.isCleanedUp = true := hcleaned.symm.trans hyes
    obtain ⟨hnone, hcounted, -⟩ := h.cleaned hyes
    exact ⟨hgrace.trans hnone, hcountdown.trans hcounted, hkept (fun hyes => (h.cleaned hyes).2.2) hyes⟩

theorem Kept.schedule (h : Kept s) : Kept s.schedulePcGraceTermination := by
  unfold State.schedulePcGraceTermination
  split
  · exact h
  · rename_i hbusy
    simp only [Bool.or_eq_true, not_or, Bool.not_eq_true] at hbusy
    refine ⟨nofun, fun _ => rfl, h.handled, h.mounted, fun hyes => ?_⟩
    cases hbusy.1.1.2.symm.trans hyes

theorem kept_cleaned (hcleaned : t.isCleanedUp = true) (hgrace : t.pcGraceTimer = none)
    (hcountdown : t.graceCountdownTimer = false) (hrecovery : t.linkRecoveryTimer = none) : Kept t :=
  ⟨fun _ => ⟨hcountdown, hrecovery⟩, fun hne => absurd hgrace hne, fun _ => hcleaned, fun _ => hcleaned,
    fun _ => ⟨hgrace, hcountdown, hrecovery⟩⟩

theorem Kept.cleanupResources (h : Kept s) : Kept s.cleanupResources := by
  unfold State.cleanupResources
  split
  · exact h
  · exact kept_cleaned rfl rfl rfl rfl

theorem Kept.onSessionTerminated (h : Kept s) : Kept s.onSessionTerminated := by
  unfold State.onSessionTerminated State.cleanupResources
  split
  · exact h
  · split
    · rename_i hcleaned
      exact kept_cleaned hcleaned rfl rfl (h.cleaned hcleaned).2.2
    · exact kept_cleaned rfl rfl rfl rfl

theorem Kept.dispose (h : Kept s) : Kept { s.cleanupResources with mounted := false } := by
  have hcleaned : s.cleanupResources.isCleanedUp = true := by
    unfold State.cleanupResources
    split
    · assumption
    · rfl
  obtain ⟨hgrace, hcountdown, hrecovery⟩ := h.cleanupResources.cleaned hcleaned
  exact kept_cleaned hcleaned hgrace hcountdown hrecovery

theorem Kept.cancelGrace_iff (h : Kept s) :
    (s.cancelGrace.Tied ↔ s.pcGraceTimer = none) ∧ (s.pcGraceTimer = none → Kept s.cancelGrace) := by
  refine ⟨⟨fun htied => ?_, fun hnone _ => h.tied hnone⟩, fun hnone => ?_⟩
  · by_contra hne
    have hcountdown := (htied rfl).1
    cases hcountdown.symm.trans (h.counted hne)
  · exact h.same hnone.symm rfl (.inl rfl) rfl rfl rfl

/-- What a step does to the timers. -/
def Tidies (p : Prop) (t : State) : Prop := (t.Tied ↔ p) ∧ (p → Kept t)

theorem Kept.tidies {p : Prop} (h : Kept t) (hp : p) : Tidies p t := ⟨iff_of_true h.tied hp, fun _ => h⟩

theorem Kept.tidies_cancel {p : Prop} (h : Kept s) (hp : p ↔ s.pcGraceTimer = none) : Tidies p s.cancelGrace := by
  obtain ⟨htied, hkept⟩ := h.cancelGrace_iff
  exact ⟨htied.trans hp.symm, fun hyes => hkept (hp.mp hyes)⟩

theorem Kept.onLinkIceState (h : Kept s) (hlink : s.isLink = true) (es : List Event) (peer : ℕ)
    (state : IceState) : Tidies (Tidy s es (.iceState peer state)) (s.onLinkIceState peer state).1 := by
  unfold State.onLinkIceState
  split
  · rename_i hhears
    cases state with
    | connected | completed => exact h.tidies_cancel (by simp [Tidy, hlink, hhears])
    | failed | disconnected =>
      dsimp only
      split
      · exact h.schedule.tidies (by simp [Tidy])
      · exact h.tidies (by simp [Tidy])
    | closed | starting => exact h.tidies (by simp [Tidy])
  · rename_i hdeaf
    exact h.tidies fun hyes => absurd hyes.2.1 hdeaf

theorem Kept.onSupportIceState (h : Kept s) (hsupport : s.isLink = false) (es : List Event) (peer : ℕ)
    (state : IceState) :
    Tidies (Tidy s es (.iceState peer state)) (s.onSupportIceState state).1 := by
  have htidy : Tidy s es (.iceState peer state) :=
    fun hyes => absurd (hsupport.symm.trans hyes.1) Bool.false_ne_true
  unfold State.onSupportIceState
  split
  · exact h.tidies htidy
  · cases state with
    | connected | completed | failed | starting => exact h.tidies htidy
    | disconnected => exact h.schedule.tidies htidy
    | closed => exact h.onSessionTerminated.tidies htidy

theorem Kept.onConnectionState (h : Kept s) (es : List Event) (peer : ℕ) (state : PcState) :
    Tidies (Tidy s es (.connectionState peer state)) (s.onConnectionState peer state).1 := by
  unfold State.onConnectionState
  split
  · rename_i hhears
    cases state with
    | connected => exact h.tidies_cancel (by simp [Tidy, hhears])
    | failed | disconnected =>
      dsimp only
      split
      · exact h.tidies (by simp [Tidy])
      · exact h.schedule.tidies (by simp [Tidy])
    | closed =>
      dsimp only
      split
      · exact h.schedule.tidies (by simp [Tidy])
      · exact h.onSessionTerminated.tidies (by simp [Tidy])
    | starting => exact h.tidies (by simp [Tidy])
  · rename_i hdeaf
    exact h.tidies fun hyes => absurd hyes.1 hdeaf

theorem Kept.onPong (h : Kept s) (es : List Event) : Tidies (Tidy s es .pong) s.onPong.1 := by
  unfold State.onPong
  split
  · rename_i hover
    refine h.tidies fun hyes => ?_
    rcases (Bool.or_eq_true ..).mp hover with hcleaned | hhandled
    · cases hyes.1.symm.trans hcleaned
    · cases hyes.2.symm.trans hhandled
  · rename_i hlive
    refine h.tidies_cancel ?_
    have halive : s.isCleanedUp = false ∧ s.sessionTerminatedHandled = false := by simpa using hlive
    exact ⟨fun hyes => hyes halive, fun hnone _ => hnone⟩

theorem Kept.onAnswerApplied (h : Kept s) (es : List Event) (peer : ℕ) :
    Tidies (Tidy s es (.answerApplied peer)) (s.onAnswerApplied peer).1 := by
  unfold State.onAnswerApplied
  split
  · rename_i htakes
    dsimp only
    split
    · rename_i harmed
      have hne : s.pcGraceTimer ≠ none := Option.isSome_iff_ne_none.mp harmed
      constructor
      · constructor
        · exact fun htied _ => .inr (htied rfl).2
        · intro htidy _
          exact ⟨rfl, (htidy htakes).resolve_left hne⟩
      · intro htidy
        have hrecovery : s.linkRecoveryTimer = none := (htidy htakes).resolve_left hne
        refine ⟨fun _ => ⟨rfl, hrecovery⟩, fun hno => absurd rfl hno, h.handled, h.mounted, fun hcleaned => ?_⟩
        exact ⟨rfl, rfl, hrecovery⟩
    · rename_i hnone
      have hkept : Kept { s with linkRemoteDescriptionSet := true } := h.same rfl rfl (Or.inl rfl) rfl rfl rfl
      exact hkept.tidies fun _ => .inl (by simpa using hnone)
  · rename_i hother
    exact h.tidies fun htakes => absurd htakes hother

theorem Kept.gone (h : Kept s) : (!s.mounted || s.isCleanedUp) = s.isCleanedUp := by
  cases hmounted : s.mounted with
  | true => simp
  | false => simp [h.mounted hmounted]

theorem Kept.onGraceTimer (h : Kept s) : Kept s.onGraceTimer.1 := by
  unfold State.onGraceTimer
  dsimp only
  rw [h.gone]
  split
  · rename_i hcleaned
    obtain ⟨hgrace, -, hrecovery⟩ := h.cleaned hcleaned
    exact kept_cleaned hcleaned hgrace rfl hrecovery
  · rename_i hlive
    unfold State.onSessionTerminated State.cleanupResources
    split
    · rename_i hover
      refine absurd ?_ hlive
      rcases (Bool.or_eq_true ..).mp hover with hmounted | hhandled
      · exact h.mounted (by simpa using hmounted)
      · exact h.handled hhandled
    · exact kept_cleaned rfl rfl rfl rfl

theorem Kept.onCountdown (h : Kept s) : Kept s.onCountdown := by
  unfold State.onCountdown
  rw [h.gone]
  split
  · rename_i hstops
    have hgrace : s.pcGraceTimer = none := by
      rcases (Bool.or_eq_true ..).mp hstops with hcleaned | hnone
      · exact (h.cleaned hcleaned).1
      · simpa using hnone
    refine ⟨fun _ => ⟨rfl, (h.tied hgrace).2⟩, fun hne => absurd hgrace hne, h.handled, h.mounted,
      fun hcleaned => ?_⟩
    exact ⟨hgrace, rfl, (h.cleaned hcleaned).2.2⟩
  · exact h.same rfl rfl (.inl rfl) rfl rfl rfl

/-- A step leaves no timer of an earlier window behind. -/
theorem tidies_step (h : Kept s) (hstep : recovery.step s a = some (t, fs)) : Tidies (Tidy s es a) t := by
  cases a with
  | iceState peer state =>
    have hrun := Option.some.inj hstep
    split at hrun
    · rename_i hlink
      have hice := h.onLinkIceState hlink es peer state
      rwa [hrun] at hice
    · rename_i hsupport
      have hice := h.onSupportIceState (by simpa using hsupport) es peer state
      rwa [hrun] at hice
  | connectionState peer state =>
    have hpc := h.onConnectionState es peer state
    rwa [Option.some.inj hstep] at hpc
  | pong =>
    have hpong := h.onPong es
    rwa [Option.some.inj hstep] at hpong
  | answerApplied peer =>
    have hanswer := h.onAnswerApplied es peer
    rwa [Option.some.inj hstep] at hanswer
  | elapses | iceRestarted | restartOver =>
    rw [← (Prod.mk.inj (Option.some.inj hstep)).1]
    exact Kept.tidies (h.same rfl rfl (Or.inl rfl) rfl rfl rfl) trivial
  | endSession =>
    rw [← (Prod.mk.inj (Option.some.inj hstep)).1]
    exact Kept.tidies (h.same rfl rfl (Or.inr rfl) rfl rfl rfl) trivial
  | dataChannelClosed =>
    rw [← (Prod.mk.inj (Option.some.inj hstep)).1]
    split
    · exact Kept.tidies (h.same rfl rfl (Or.inr rfl) rfl rfl rfl) trivial
    · exact h.tidies trivial
  | graceTimer =>
    obtain ⟨timer, -, hrun⟩ := Option.bind_eq_some_iff.mp hstep
    split_ifs at hrun
    have hkept := h.onGraceTimer
    rw [Option.some.inj hrun] at hkept
    exact hkept.tidies trivial
  | countdown =>
    simp only [recovery] at hstep
    split_ifs at hstep
    rw [← (Prod.mk.inj (Option.some.inj hstep)).1]
    exact h.onCountdown.tidies trivial
  | recoveryTimer =>
    obtain ⟨timer, -, hrun⟩ := Option.bind_eq_some_iff.mp hstep
    split_ifs at hrun
    rw [← (Prod.mk.inj (Option.some.inj hrun)).1]
    exact Kept.tidies (h.same rfl rfl (Or.inr rfl) rfl rfl rfl) trivial
  | restartLinkConnection =>
    simp only [recovery, State.restartLinkConnection] at hstep
    split_ifs at hstep
    · rw [← (Prod.mk.inj (Option.some.inj hstep)).1]
      exact h.tidies trivial
    · rw [← (Prod.mk.inj (Option.some.inj hstep)).1]
      exact Kept.tidies (h.same rfl rfl (Or.inr rfl) rfl rfl rfl) trivial
  | startLinkConnection =>
    simp only [recovery] at hstep
    split_ifs at hstep
    rw [← (Prod.mk.inj (Option.some.inj hstep)).1]
    exact Kept.tidies (h.same rfl rfl (Or.inl rfl) rfl rfl rfl) trivial
  | peerCreated =>
    rw [← (Prod.mk.inj (Option.some.inj hstep)).1]
    split
    · exact Kept.tidies (h.same rfl rfl (Or.inl rfl) rfl rfl rfl) trivial
    · exact h.tidies trivial
  | startFails =>
    rw [← (Prod.mk.inj (Option.some.inj hstep)).1]
    split_ifs <;> exact Kept.tidies (h.same rfl rfl (Or.inl rfl) rfl rfl rfl) trivial
  | terminated =>
    rw [← (Prod.mk.inj (Option.some.inj hstep)).1]
    exact h.onSessionTerminated.tidies trivial
  | dispose =>
    rw [← (Prod.mk.inj (Option.some.inj hstep)).1]
    exact h.dispose.tidies trivial

theorem staysTied_iff (h : Kept s) (es : List Event) (a : Action) : StaysTied s es a ↔ Tidy s es a := by
  cases hstep : recovery.step s a with
  | none =>
    refine iff_of_true (fun t fs hno => absurd (hstep.symm.trans hno) (by simp)) ?_
    -- only the timers and the beginnings of attempts may be impossible
    cases a with
    | iceState | connectionState | pong | answerApplied => simp [recovery] at hstep
    | _ => trivial
  | some r =>
    have htidies : Tidies (Tidy s es a) r.1 := tidies_step h hstep
    obtain ⟨htied, -⟩ := htidies
    constructor
    · exact fun hstays => htied.mp (hstays r.1 r.2 hstep)
    · intro htidy t fs hstep'
      cases hstep.symm.trans hstep'
      exact htied.mpr htidy

/-- In every run the grace timer ends the session only after a whole grace period, where it is the attempt's
own; and without a grace timer there is no other one exactly when everything that cancels it comes when it
may. -/
theorem recoveryWindow (isLink : Bool) (h : recovery.Path (.start isLink) as t es) :
    (recovery.Every Owned (.start isLink) [] as → graceLaw.Accepts es) ∧
      (recovery.Every StaysTied (.start isLink) [] as ↔ recovery.Every Tidy (.start isLink) [] as) := by
  constructor
  · refine h.accepts_of_every graceLaw Inv (fun s es a t fs hinv howned hstep => keeps_step hinv howned hstep) [] ?_
    exact ⟨nofun, nofun, nofun⟩
  · refine Machine.every_iff (fun s _ => Kept s) ?_ (fun s es a h => staysTied_iff h es a) as _ [] (kept_start isLink)
    intro s es a t fs hkept htidy hstep
    exact (tidies_step hkept hstep).2 htidy

/-- The connection of an attempt is lost for good. -/
def lostForGood : List Action :=
  [.startLinkConnection, .peerCreated 1, .connectionState 1 .closed, .elapses 60000, .graceTimer]

theorem lostForGood_expires : ∃ t es, recovery.Path (.start true) lostForGood t es ∧ .expires 60000 ∈ es ∧
    graceLaw.Accepts es ∧ recovery.Every StaysTied (.start true) [] lostForGood := by
  have hcheck : (recovery.exec (fun _ _ _ => true) (.start true) [] lostForGood).any
      (fun r => decide (.expires 60000 ∈ r.2)) = true := by decide
  obtain ⟨t, es, hpath, hexpires⟩ := Machine.path_of_check hcheck
  have hgood : recovery.Every (fun s es a => Owned s es a ∧ Tidy s es a) (.start true) [] lostForGood := by
    refine ⟨⟨trivial, trivial⟩, fun _ _ hs => ?_⟩
    cases hs
    refine ⟨⟨trivial, trivial⟩, fun _ _ hs => ?_⟩
    cases hs
    refine ⟨⟨trivial, fun hyes => absurd hyes.2 (by decide)⟩, fun _ _ hs => ?_⟩
    cases hs
    refine ⟨⟨trivial, trivial⟩, fun _ _ hs => ?_⟩
    cases hs
    refine ⟨⟨fun timer htimer => ?_, trivial⟩, fun _ _ _ => trivial⟩
    cases htimer
    rfl
  obtain ⟨haccepts, htied⟩ := recoveryWindow true hpath
  have himp : ∀ {p : State → List Event → Action → Prop}, (∀ s es a, Owned s es a ∧ Tidy s es a → p s es a) →
      recovery.Every p (.start true) [] lostForGood := fun hp =>
    hgood.imp (fun _ _ => True) (fun _ _ _ _ _ _ _ _ => trivial) (fun s es a _ h => hp s es a h) _ trivial
  exact ⟨t, es, hpath, by simpa using hexpires, haccepts (himp fun _ _ _ h => h.1),
    htied.mpr (himp fun _ _ _ h => h.2)⟩

/-- The connection of an attempt is lost; a new attempt begins half a minute later and is still under way when
the timer of the old one fires. -/
def restartInGrace : List Action :=
  [.startLinkConnection, .peerCreated 1, .connectionState 1 .closed, .elapses 30000, .restartLinkConnection,
    .startLinkConnection, .peerCreated 3, .elapses 30000, .graceTimer]

/-- The old timer ends the session of the new attempt. -/
theorem restartInGrace_expires : ¬∀ (isLink : Bool) (as : List Action) (t : State) (es : List Event),
    recovery.Path (.start isLink) as t es →
      graceLaw.Accepts es ∧ recovery.Every StaysTied (.start isLink) [] as := by
  intro h
  have hcheck : (recovery.exec (fun _ _ _ => true) (.start true) [] restartInGrace).any
      (fun r => !decide (graceLaw.Accepts r.2)) = true := by decide
  obtain ⟨t, es, hpath, hlate⟩ := Machine.path_of_check hcheck
  have haccepts := (h true restartInGrace t es hpath).1
  simp [haccepts] at hlate

end LigamentApps.SupportOperator.Recovery
