import LigamentApps.WebSocketService.ConnectionLaws

/-!
# The reset of the reconnect counter

The law that the attempts are counted until `connect` is called or a connection has been up for the time of
`_stableResetTimer`, and the one callback that breaks it: a handshake that completes sets the counter back at
once. -/

namespace LigamentApps.WebSocketService

variable {schemeOf : String → Option String} {s : State} {r : State × List Event} {c : Channel}

/-- The attempts that reconnects are scheduled for. -/
def delays (fs : List Event) : List ℕ := fs.filterMap fun
  | .scheduled attempt => some attempt
  | _ => none

/-- The timer is about to fire for the connection that is up. -/
def State.IsUp (s : State) (captured : ℕ × ℕ) : Prop := s.channel = some captured.2 ∧ s.generation = captured.1

/-- The counter may be set back. -/
def State.Restarts (s : State) : Action → Prop
  | .connect .. => True
  | .stableResetTimer => ∃ captured, s.stableResetTimer = some captured ∧ s.IsUp captured
  | _ => False

/-- The counter and the delays of a part of a step: it advances with each delay that is counted from it. -/
def Counted (s : State) (r : State × List Event) : Prop :=
  delays r.2 = [] ∧ r.1.backoff.attempt = s.backoff.attempt ∨
    delays r.2 = [s.backoff.attempt] ∧ r.1.backoff.attempt = s.backoff.attempt + 1

/-- The law of a step: unless it may set the counter back, it counts; and the timer of a stable connection is
armed when the connection is ready, and only as long as it is up. -/
structure Grows (s : State) (a : Action) (r : State × List Event) : Prop where
  counted : ¬s.Restarts a → Counted s r
  armed : ∀ captured, r.1.stableResetTimer = some captured →
    s.stableResetTimer = some captured ∨ ∃ thrown, a = .ready captured.2 thrown
  isUp : ∀ captured, r.1.stableResetTimer = some captured → r.1.IsUp captured

/-- A handshake that completes for the current channel finds the counter at zero. -/
def State.ReadyAtZero (s : State) : Action → Prop
  | .ready id _ => ∀ c, s.channelOf id = some c → c.readyPending = true → s.isCurrent c = true →
    s.backoff.attempt = 0
  | _ => True

/-- The invariant: the timer is armed only for the connection that is up. -/
def State.TimerUp (s : State) : Prop := ∀ captured, s.stableResetTimer = some captured → s.IsUp captured

/-- What every part of a step does but `onReady`: it counts, and leaves the timer with its connection or
cancels it. -/
structure Part (s : State) (r : State × List Event) : Prop where
  counted : Counted s r
  timer : ∀ captured, r.1.stableResetTimer = some captured →
    s.stableResetTimer = some captured ∧ r.1.channel = s.channel ∧ r.1.generation = s.generation

theorem part_nil : Part s (s, []) := ⟨.inl ⟨rfl, rfl⟩, fun _ h => ⟨h, rfl, rfl⟩⟩

theorem scheduleReconnect_part (b : Bool) : Part s (s.scheduleReconnect b) := by
  unfold State.scheduleReconnect
  split
  · exact part_nil
  · exact ⟨.inr ⟨rfl, rfl⟩, fun _ h => ⟨h, rfl, rfl⟩⟩

/-- A part after the timer was cancelled. -/
theorem Part.cancelled {s' : State} (h : Part s' r) (hattempt : s'.backoff.attempt = s.backoff.attempt)
    (hnone : s'.stableResetTimer = none) : Part s r := by
  refine ⟨?_, fun captured hsome => ?_⟩
  · have hcounted := h.counted
    unfold Counted at hcounted ⊢
    rwa [hattempt] at hcounted
  · have hbefore := (h.timer captured hsome).1
    rw [hnone] at hbefore
    cases hbefore

theorem Part.opened (h : Part s r) (id : ℕ) : Part s (r.1, .opened id :: r.2) := ⟨h.counted, h.timer⟩

theorem closeCurrentChannel_attempt : s.closeCurrentChannel.backoff = s.backoff := by
  unfold State.closeCurrentChannel
  cases s.channel <;> rfl

theorem afterLoss_part (unauthorized advanceCandidate throws : Bool) :
    Part s (s.afterLoss unauthorized advanceCandidate throws) := by
  unfold State.afterLoss
  split
  · exact ⟨.inl ⟨rfl, rfl⟩, fun _ h => ⟨h, rfl, rfl⟩⟩
  · cases unauthorized with
    | true => exact ⟨.inl ⟨rfl, rfl⟩, fun _ h => nomatch h⟩
    | false =>
      have hpart := scheduleReconnect_part (s := s) advanceCandidate
      exact ⟨hpart.counted, hpart.timer⟩

theorem openChannel_part (targetUrl : String) (isRelay : Bool) (opening : Opening) :
    Part s (s.openChannel targetUrl isRelay opening) := by
  have hattempt : s.closeCurrentChannel.backoff.attempt = s.backoff.attempt := by rw [closeCurrentChannel_attempt]
  unfold State.openChannel
  cases opening with
  | throws => exact (scheduleReconnect_part true).cancelled hattempt rfl
  | opened => exact ⟨.inl ⟨rfl, hattempt⟩, fun _ h => nomatch h⟩
  | listenThrows =>
    refine .opened ?_ _
    exact (scheduleReconnect_part true).cancelled hattempt rfl

theorem connectCandidate_part (expectedGeneration : Option ℕ) (opening : Opening) :
    Part s (s.connectCandidate schemeOf expectedGeneration opening) := by
  unfold State.connectCandidate
  split
  · split
    · exact part_nil
    · have htried : ∀ targetUrl isRelay, Part s (s.tryCandidate schemeOf targetUrl isRelay opening) := by
        intro targetUrl isRelay
        unfold State.tryCandidate
        split
        · split
          · exact openChannel_part _ _ _
          · exact scheduleReconnect_part _
        · exact scheduleReconnect_part _
      exact ⟨(htried _ _).counted, (htried _ _).timer⟩
  · exact part_nil

theorem lost_part (id : ℕ) (unauthorized advanceCandidate throws : Bool) :
    Part s ((s.dropChannel.sinkClose id).afterLoss unauthorized advanceCandidate throws) :=
  (afterLoss_part _ _ _).cancelled rfl rfl

theorem onHandshakeFailed_part (error : String) (throws : Bool) : Part s (s.onHandshakeFailed c error throws) := by
  unfold State.onHandshakeFailed
  split
  · exact lost_part _ _ _ _
  · exact part_nil

theorem isCurrent_isUp (h : s.isCurrent c = true) : s.IsUp (c.generation, c.id) := by
  unfold State.isCurrent at h
  simp only [Bool.and_eq_true, beq_iff_eq] at h
  exact ⟨h.2, h.1.2⟩

theorem Part.grows {a : Action} (h : Part s r) (hup : s.TimerUp) : Grows s a r := by
  refine ⟨fun _ => h.counted, fun captured hsome => .inl (h.timer captured hsome).1, fun captured hsome => ?_⟩
  obtain ⟨hbefore, hchannel, hgeneration⟩ := h.timer captured hsome
  obtain ⟨hid, hsame⟩ := hup captured hbefore
  exact ⟨hchannel.trans hid, hgeneration.trans hsame⟩

/-- A completed handshake: the counter counts from zero, and where the connection stays, its timer is
armed. -/
theorem onReady_zero (hcurrent : s.isCurrent c = true) (thrown : Option (String × Bool)) :
    (delays (s.onReady c thrown).2 = [] ∧ (s.onReady c thrown).1.backoff.attempt = 0 ∨
        delays (s.onReady c thrown).2 = [0] ∧ (s.onReady c thrown).1.backoff.attempt = 1) ∧
      ∀ captured, (s.onReady c thrown).1.stableResetTimer = some captured →
        captured = (c.generation, c.id) ∧ (s.onReady c thrown).1.IsUp captured := by
  have hisUp := isCurrent_isUp hcurrent
  unfold State.onReady
  rw [if_pos hcurrent]
  cases thrown with
  | none =>
    refine ⟨.inl ⟨rfl, rfl⟩, fun captured hsome => ?_⟩
    obtain rfl := Option.some.inj hsome
    exact ⟨rfl, hisUp⟩
  | some failure =>
    have hpart := onHandshakeFailed_part (s := { s with
      wasReady := true, backoff := s.backoff.reset, stableResetTimer := some (c.generation, c.id),
      currentEndpoint := some c.targetUrl, isUsingRelay := c.isRelay }) (c := c) failure.1 failure.2
    refine ⟨hpart.counted, fun captured hsome => ?_⟩
    obtain ⟨harmed, hchannel, hgeneration⟩ := hpart.timer captured hsome
    obtain rfl := Option.some.inj harmed
    exact ⟨rfl, hchannel.trans hisUp.1, hgeneration.trans hisUp.2⟩

/-- The delay grows until the connection is ready. -/
theorem step_grows {a : Action} (hup : s.TimerUp) (hzero : s.ReadyAtZero a)
    (hstep : step schemeOf s a = some r) : Grows s a r := by
  cases a with
  | connect baseUrl token fallbackUrls opening =>
    rw [← Option.some.inj hstep]
    have hdial : Part _ ((s.forServer baseUrl token fallbackUrls).connectCandidate schemeOf none opening) :=
      connectCandidate_part none opening
    have hpart := hdial.cancelled rfl rfl
    refine ⟨fun hnot => absurd trivial hnot, fun captured hsome => ?_, fun captured hsome => ?_⟩
    · cases (hpart.timer captured hsome).1
    · cases (hpart.timer captured hsome).1
  | disconnect =>
    rw [← Option.some.inj hstep]
    refine Part.grows ⟨.inl ⟨rfl, ?_⟩, fun _ h => nomatch h⟩ hup
    exact congrArg ReconnectBackoff.attempt (closeCurrentChannel_attempt (s := s.cancelReconnect))
  | ready id thrown =>
    obtain ⟨c, hc, hpending, hr⟩ := guarded_eq_some hstep
    rw [← hr]
    by_cases hcurrent : s.isCurrent c = true
    · have hattempt := hzero c hc hpending hcurrent
      obtain ⟨hcounted, htimer⟩ := onReady_zero (s := s.withChannel id fun c => { c with readyPending := false })
        hcurrent thrown
      refine ⟨fun _ => ?_, fun captured hsome => .inr ⟨thrown, ?_⟩, fun captured hsome => (htimer captured hsome).2⟩
      · unfold Counted
        rw [hattempt]
        exact hcounted
      · rw [(htimer captured hsome).1, channelOf_id hc]
    · unfold State.onReady
      split
      · contradiction
      · exact Part.grows ⟨part_nil.counted, part_nil.timer⟩ hup
  | handshakeFailed id error throws =>
    obtain ⟨c, -, -, hr⟩ := guarded_eq_some hstep
    rw [← hr]
    have hpart := onHandshakeFailed_part (s := s.withChannel id fun c => { c with readyPending := false })
      (c := c) error throws
    exact Part.grows ⟨hpart.counted, hpart.timer⟩ hup
  | message id =>
    obtain ⟨c, -, -, hr⟩ := guarded_eq_some hstep
    rw [← hr]
    refine Part.grows ⟨.inl ⟨?_, rfl⟩, part_nil.timer⟩ hup
    split <;> rfl
  | done id throws =>
    obtain ⟨c, -, -, hr⟩ := guarded_eq_some hstep
    rw [← hr]
    unfold State.onDone
    split
    · refine Part.grows ?_ hup
      exact (afterLoss_part _ _ _).cancelled rfl rfl
    · exact Part.grows ⟨part_nil.counted, part_nil.timer⟩ hup
  | error id error throws =>
    obtain ⟨c, -, -, hr⟩ := guarded_eq_some hstep
    rw [← hr]
    unfold State.onError
    split
    · have hpart := lost_part (s := s.withChannel id fun c => { c with listening := false }) c.id
        (isUnauthorized error) (!s.wasReady) throws
      exact Part.grows ⟨hpart.counted, hpart.timer⟩ hup
    · exact Part.grows ⟨part_nil.counted, part_nil.timer⟩ hup
  | reconnectTimer id opening =>
    obtain ⟨timer, -, hr⟩ := Option.bind_eq_some_iff.mp hstep
    have hpair : s.onReconnectTimer schemeOf timer opening = r := Option.some.inj hr
    rw [← hpair]
    unfold State.onReconnectTimer
    split
    · have hpart : Part _ (State.connectCandidate schemeOf { s with armed := s.armed.filter (·.id ≠ timer.id) }
          (some timer.generation) opening) :=
        connectCandidate_part (some timer.generation) opening
      exact Part.grows ⟨hpart.counted, hpart.timer⟩ hup
    · exact Part.grows ⟨part_nil.counted, part_nil.timer⟩ hup
  | stableResetTimer =>
    obtain ⟨captured, harmed, hr⟩ := Option.bind_eq_some_iff.mp hstep
    rw [← Option.some.inj hr]
    have hnone : (s.onStableReset captured).stableResetTimer = none := by
      unfold State.onStableReset
      split <;> rfl
    refine ⟨fun hnot => absurd ⟨captured, harmed, hup captured harmed⟩ hnot, fun _ hsome => ?_, fun _ hsome => ?_⟩
    · cases hnone.symm.trans hsome
    · cases hnone.symm.trans hsome

/-- Every way the step can go is lawful. -/
def State.Lawful (schemeOf : String → Option String) (s : State) (a : Action) : Prop :=
  ∀ r, step schemeOf s a = some r → Grows s a r

theorem lawful_iff {a : Action} (hup : s.TimerUp) : s.Lawful schemeOf a ↔ s.ReadyAtZero a := by
  refine ⟨fun h => ?_, fun hzero r hstep => step_grows hup hzero hstep⟩
  cases a with
  | ready id thrown =>
    intro c hc hpending hcurrent
    let s' := s.withChannel id fun c => { c with readyPending := false }
    have hstep : step schemeOf s (.ready id thrown) = some (s'.onReady c thrown) := by
      simp [step, hc, hpending, s']
    have hcounted := (h _ hstep).counted fun h => h
    obtain ⟨hzero, -⟩ := onReady_zero (s := s') hcurrent thrown
    rcases hcounted with ⟨hnone, hsame⟩ | ⟨hone, hmore⟩
    · rcases hzero with ⟨-, h0⟩ | ⟨h0, -⟩
      · exact hsame.symm.trans h0
      · cases hnone.symm.trans h0
    · rcases hzero with ⟨h0, -⟩ | ⟨h0, -⟩
      · cases h0.symm.trans hone
      · exact List.head_eq_of_cons_eq (hone.symm.trans h0)
  | _ => trivial

/-- In every run the reconnects are counted up to `connect` or to a connection that has been up for the time
of the timer, exactly when every handshake that completes finds the counter at zero. -/
theorem backoff_grows_iff (as : List Action) :
    (webSocketService schemeOf).Every (fun s _ a => s.Lawful schemeOf a) {} [] as ↔
      (webSocketService schemeOf).Every (fun s _ a => s.ReadyAtZero a) {} [] as := by
  have hstart : State.TimerUp {} := fun _ harmed => nomatch harmed
  refine Machine.every_iff (fun s _ => State.TimerUp s) ?_ (fun s es a hup => lawful_iff hup) as {} [] hstart
  intro s es a t fs hup hzero hstep
  exact (step_grows hup hzero hstep).isUp

/-- A connection that drops at once and is ready again sets the counter back. -/
theorem flapping_restarts : ¬∀ as, (webSocketService fun _ => some "wss").Every
    (fun s _ a => s.Lawful (fun _ => some "wss") a) {} [] as := by
  intro h
  let flaps : List Action := [.connect "https://a" "t" [] .opened, .ready 0 none, .done 0 false,
    .reconnectTimer 0 .opened]
  have hcheck : ((webSocketService fun _ => some "wss").exec (fun _ _ _ => true) {} [] flaps).any
      (fun r => r.1.backoff.attempt == 1 && r.1.stableResetTimer.isNone &&
        (r.1.channelOf 1).any fun c => c.readyPending && r.1.isCurrent c) = true := by decide +kernel
  obtain ⟨s, es, hpath, hs⟩ := Machine.path_of_check hcheck
  simp only [Bool.and_eq_true, beq_iff_eq, Option.isNone_iff_eq_none, Option.any_eq_true] at hs
  obtain ⟨⟨hone, htimer⟩, c, hc, hpending, hcurrent⟩ := hs
  have hlawful := (h (flaps ++ [.ready 1 none])).good hpath
  have hzero := (lawful_iff fun _ harmed => nomatch htimer.symm.trans harmed).mp hlawful c hc hpending hcurrent
  rw [hone] at hzero
  cases hzero

end LigamentApps.WebSocketService
