import LigamentApps.SupportService.StartEpoch

/-!
# Isolation of the sessions

What the work of an earlier session that is still outstanding does to the session that has come after it. -/

namespace LigamentApps.SupportService

open List Option

variable {run : StartRun} (timer : SessionTimer)

/-! ## What a step may do to another session -/

/-- The session that a step belongs to: of a call of the host, none. -/
def Capture.actionSession (s : Capture) : CaptureAction → Option ℕ
  | .startTurn => s.queue.head?.map (·.session)
  | .startResumed _ => s.running.map (·.session)
  | .stopResumed => s.stopping.map (·.session)
  | .failResumed => s.failed.head?.map (·.1)
  | .renegotiated index _ => s.renegotiations[index]?
  | .peerState peer _ => some peer.session
  | .channelOpened peer => some peer.session
  | .channelMessage channel _ => some channel.session
  | .establishmentTimer => s.establishmentTimer.map (·.session)
  | .establishmentDeadlineTimer => s.establishmentDeadlineTimer.map (·.session)
  | .disconnectedTimer => s.disconnectedTimer.map (·.session)
  | .retryTimer index => s.retryTimers[index]?.map (·.session)
  | .leaseTick => s.leaseWatchdogTimer.map (·.session)
  | .leaseReply index _ => s.leaseReplies[index]?
  | _ => none

/-- A start of the session waits for its turn or runs, and was not cancelled. -/
def Capture.HasStart (s : Capture) (session start : ℕ) : Prop :=
  (∃ r ∈ s.queue, r.id = start ∧ r.session = session ∧ r.expectedEpoch = s.captureEpoch) ∨
  ∃ run, s.running = some run ∧ run.id = start ∧ run.session = session ∧ run.epoch = s.captureEpoch ∧
    run.pc ≠ .cleanup

def Capture.HoldsPeer (s : Capture) (session : ℕ) : Prop :=
  ∃ peer, s.peerConnection = some peer ∧ peer.session = session

/-- A step spares a session: its phase, its name, its peer and its error stay, it goes on, its peer makes no
offer, and its starts are not cancelled. A peer of another session may be closed. -/
structure Capture.Spared (s : Capture) (r : Outcome) (session : ℕ) : Prop where
  phase : r.1.phase = s.phase
  activeSessionId : r.1.activeSessionId = s.activeSessionId
  lastError : r.1.lastError = s.lastError
  peer : r.1.peerConnection = s.peerConnection ∨ (r.1.peerConnection = none ∧ ¬s.HoldsPeer session)
  current : r.1.current = s.current
  notEnded : .stopping ∉ r.2
  noOffer : ∀ peer, .offered peer ∈ r.2 → peer.session ≠ session
  starts : ∀ start, s.HasStart session start → r.1.HasStart session start

/-- A step that belongs to an earlier session spares the current one. -/
def Capture.Isolated (s : Capture) (a : CaptureAction) : Prop :=
  ∀ t fs, s.step a = some (t, fs) → ∀ earlier session, s.actionSession a = some earlier →
    s.current = some session → earlier < session → s.Spared (t, fs) session

/-! ## When a step intrudes -/

/-- An ICE restart ends the session, after three of them, or makes an offer of its peer. -/
def Capture.RestartIntrudes (s : Capture) (session : ℕ) : Prop :=
  s.stopping = none ∧ s.activeSessionId.isSome = true ∧ s.peerConnection.isSome = true ∧
    (3 ≤ s.iceRestartAttempts ∨ (s.lastIceRestartAt.any (s.now - · < 5000) = false ∧ s.HoldsPeer session))

/-- The cleanup of a start ends the session, or cancels its starts. -/
def Capture.FailureIntrudes (s : Capture) (session : ℕ) : Prop :=
  s.stopping = none ∨ ∃ start, s.HasStart session start

/-- A start that goes on has a peer of its own, makes an offer of the session's peer, sets the phase, or
fails. -/
def Capture.StartIntrudes (s : Capture) (session : ℕ) (run : StartRun) (ok : Bool) : Prop :=
  match run.pc with
  | .createPeer => ok = true ∨ s.FailureIntrudes session
  | .displayMedia => ¬(ok = true ∧ s.hasEpoch run = true) ∧ s.FailureIntrudes session
  | .addTracks => ¬(ok = true ∧ s.peerConnection.isSome = true) ∧ s.FailureIntrudes session
  | .tuning =>
    (s.hasEpoch run = true ∧ s.HoldsPeer session ∧ s.activeSessionId.isSome = true) ∨
      (s.hasEpoch run = false ∧ s.FailureIntrudes session)
  | .sendOffer =>
    (s.hasEpoch run = true ∧ s.phase ≠ .connecting) ∨ (s.hasEpoch run = false ∧ s.FailureIntrudes session)
  | .cleanup => False
  | _ => s.hasEpoch run = false ∧ s.FailureIntrudes session

/-- A step of an earlier session passes the checks that its code makes. -/
def Capture.Intrudes (s : Capture) (session : ℕ) : CaptureAction → Prop
  | .startTurn => ∃ r rest, s.queue = r :: rest ∧ r.expectedEpoch = s.captureEpoch
  | .startResumed ok => ∃ run, s.running = some run ∧ s.StartIntrudes session run ok
  | .stopResumed => ∃ run, s.stopping = some run ∧
      (run.pc = .releasing ∨ (run.pc = .closingChannel ∧ s.HoldsPeer session))
  | .failResumed => s.phase ≠ .ended
  | .renegotiated _ _ => s.stopping = none ∧ s.activeSessionId.isSome = true ∧ s.HoldsPeer session
  | .peerState _ .connected => s.phase ≠ .active
  | .peerState _ .disconnected => False
  | .peerState _ .failed => s.isLive = true ∧ s.RestartIntrudes session
  | .peerState _ .closed => s.isLive = true ∧ s.stopping = none
  | .channelMessage _ ends => ends = true ∧ s.FailureIntrudes session
  | .establishmentTimer | .disconnectedTimer | .retryTimer _ => s.p2pConnected = false ∧ s.RestartIntrudes session
  | .establishmentDeadlineTimer =>
    s.p2pConnected = false ∧ s.peerConnection.isSome = true ∧ s.stopping = none
  | .leaseTick =>
    s.phase = .active ∧ s.activeSessionId.isSome = true ∧ s.leaseExpired = true ∧ s.stopping = none
  | .leaseReply _ .missing => s.stopping = none
  | .leaseReply _ .failed => s.leaseExpired = true ∧ s.stopping = none
  | .leaseReply _ (.status status) => LeaseReply.isEnded (.status status) = true ∧ s.stopping = none
  | _ => False

/-- No step of an earlier session that is made passes its checks. -/
def Capture.Contained (s : Capture) (a : CaptureAction) : Prop :=
  (s.step a).isSome = true → ∀ earlier session, s.actionSession a = some earlier → s.current = some session →
    earlier < session → ¬s.Intrudes session a

/-! ## Steps that change other fields -/

/-- The session is as before, for all that a step has changed. -/
structure Capture.SameSession (s t : Capture) (session : ℕ) : Prop where
  phase : t.phase = s.phase
  activeSessionId : t.activeSessionId = s.activeSessionId
  lastError : t.lastError = s.lastError
  peer : t.peerConnection = s.peerConnection
  current : t.current = s.current
  epoch : t.captureEpoch = s.captureEpoch
  queue : ∀ r ∈ s.queue, r.session = session → r ∈ t.queue
  running : ∀ run, s.running = some run → run.session = session → run.pc ≠ .cleanup → t.running = some run

section Spared

variable {s t u : Capture} {session earlier : ℕ} {fs : List CaptureEvent}

/-- What an intrusion would change. -/
def Capture.sessionPart (s : Capture) :=
  (s.phase, s.activeSessionId, s.lastError, s.peerConnection, s.current, s.captureEpoch, s.queue, s.running)

theorem sameSession_of_eq (h : t.sessionPart = s.sessionPart) : s.SameSession t session := by
  unfold Capture.sessionPart at h
  simp only [Prod.mk.injEq] at h
  obtain ⟨hphase, hactive, herror, hpeer, hcurrent, hepoch, hqueue, hrunning⟩ := h
  refine ⟨hphase, hactive, herror, hpeer, hcurrent, hepoch, fun r hr _ => ?_, fun run hrun _ _ => ?_⟩
  · rw [hqueue]
    exact hr
  · rw [hrunning]
    exact hrun

theorem Capture.SameSession.starts (h : s.SameSession t session)
    {start : ℕ} (hstart : s.HasStart session start) : t.HasStart session start := by
  obtain ⟨r, hr, hid, hsession, hexpected⟩ | ⟨run, hrun, hid, hsession, hepoch, hpc⟩ := hstart
  · refine .inl ⟨r, h.queue r hr hsession, hid, hsession, ?_⟩
    rw [h.epoch]
    exact hexpected
  · refine .inr ⟨run, h.running run hrun hsession hpc, hid, hsession, ?_, hpc⟩
    rw [h.epoch]
    exact hepoch

theorem spared_of_same (h : s.SameSession t session) (hstop : .stopping ∉ fs)
    (hoffer : ∀ peer, .offered peer ∈ fs → peer.session ≠ session) : s.Spared (t, fs) session :=
  ⟨h.phase, h.activeSessionId, h.lastError, .inl h.peer, h.current, hstop, hoffer, fun _ hstart => h.starts hstart⟩

theorem spared_nil (h : s.SameSession t session) : s.Spared (t, []) session :=
  spared_of_same h not_mem_nil fun _ hmem => absurd hmem not_mem_nil

theorem not_spared_of_stopping {r : Outcome} (h : .stopping ∈ r.2) : ¬s.Spared r session :=
  fun hspared => hspared.notEnded h

/-! ## Stops -/

theorem stopping_mem_stop (hstop : u.stopping = none) (caller : StopCaller) (owner : ℕ) :
    .stopping ∈ (u.stopScreenSharing owner caller).2 := by
  rw [stopScreenSharing_events, hstop]
  exact mem_singleton_self _

theorem failSession_spared (h : s.SameSession u session) (userError : String) :
    s.Spared (u.failSession earlier userError) session ↔ ¬u.stopping = none := by
  unfold Capture.failSession
  cases hstop : u.stopping with
  | some => exact iff_of_true (spared_nil h) (by simp)
  | none =>
    refine iff_of_false (not_spared_of_stopping ?_) (by simp)
    dsimp only [isSome_none]
    rw [if_neg Bool.false_ne_true]
    refine stopping_mem_stop ?_ _ _
    rfl

theorem no_start_of_new_epoch (hordered : s.Ordered) {start : ℕ} (hstart : s.HasStart session start)
    (hqueue : t.queue = s.queue) (hrunning : ∀ run, t.running = some run → s.running = some run)
    (hepoch : t.captureEpoch = s.captureEpoch + 1) : ¬t.HasStart session start := by
  have hqueued : ∀ r ∈ t.queue, r.expectedEpoch ≠ t.captureEpoch := by
    intro r hr hexpected
    have hbound := (hordered.bounded r (hqueue ▸ hr)).2
    omega
  rintro (⟨r, hr, -, -, hexpected⟩ | ⟨run, hrun, hid, -, hnew, -⟩)
  · exact hqueued r hr hexpected
  · have hrun' := hrunning run hrun
    obtain ⟨r, hr, hid', -⟩ | ⟨run', hsome, -, -, hold, -⟩ := hstart
    · have hbefore := (hordered.runs run hrun').2 r hr
      omega
    · cases hrun'.symm.trans hsome
      omega

theorem stopScreenSharing_spared (hordered : s.Ordered) :
    s.Spared (s.stopScreenSharing earlier .host) session ↔ ¬s.FailureIntrudes session := by
  unfold Capture.FailureIntrudes
  cases hstop : s.stopping with
  | none =>
    refine iff_of_false (not_spared_of_stopping (stopping_mem_stop hstop _ _)) ?_
    exact fun hnot => hnot (.inl rfl)
  | some =>
    have heq : s.stopScreenSharing earlier .host = ({ s with captureEpoch := s.captureEpoch + 1 }, []) := by
      unfold Capture.stopScreenSharing
      rw [hstop]
      rfl
    rw [heq]
    constructor
    · rintro hspared (hnone | ⟨start, hstart⟩)
      · simp at hnone
      · have hnew : ¬Capture.HasStart { s with captureEpoch := s.captureEpoch + 1 } session start :=
          no_start_of_new_epoch hordered hstart rfl (fun _ hrun => hrun) rfl
        exact hnew (hspared.starts start hstart)
    · intro hnot
      refine ⟨rfl, rfl, rfl, .inl rfl, rfl, not_mem_nil, fun _ hmem => absurd hmem not_mem_nil, ?_⟩
      intro start hstart
      exact absurd (.inr ⟨start, hstart⟩) hnot

/-! ## ICE restarts -/

theorem offered_mem_sendOffer {peer : Peer} : .offered peer ∈ s.sendOffer ↔
    s.peerConnection = some peer ∧ s.activeSessionId.isSome = true := by
  unfold Capture.sendOffer
  cases hpeer : s.peerConnection with
  | none => exact iff_of_false not_mem_nil (by simp)
  | some p =>
    cases hactive : s.activeSessionId with
    | none => exact iff_of_false not_mem_nil (by simp)
    | some =>
      rw [mem_singleton]
      constructor
      · intro h
        exact ⟨congrArg some (CaptureEvent.offered.inj h).symm, rfl⟩
      · rintro ⟨h, -⟩
        rw [Option.some.inj h]

theorem stopping_notMem_sendOffer : .stopping ∉ s.sendOffer := by
  unfold Capture.sendOffer
  split
  · intro hmem
    exact CaptureEvent.noConfusion (mem_singleton.mp hmem)
  · exact not_mem_nil

theorem sendOffer_spared (h : s.SameSession t session) (hpeer : u.peerConnection = s.peerConnection)
    (hactive : u.activeSessionId = s.activeSessionId) :
    s.Spared (t, u.sendOffer) session ↔ ¬(s.HoldsPeer session ∧ s.activeSessionId.isSome = true) := by
  constructor
  · rintro hspared ⟨⟨peer, hholds, hsession⟩, hsome⟩
    refine hspared.noOffer peer ?_ hsession
    exact offered_mem_sendOffer.mpr ⟨hpeer.trans hholds, by rw [hactive]; exact hsome⟩
  · intro hnot
    refine spared_of_same h stopping_notMem_sendOffer fun peer hmem hsession => ?_
    obtain ⟨hholds, hsome⟩ := offered_mem_sendOffer.mp hmem
    exact hnot ⟨⟨peer, hpeer.symm.trans hholds, hsession⟩, by rw [← hactive]; exact hsome⟩

theorem attemptIceRestart_spared (h : s.SameSession u session) :
    s.Spared (u.attemptIceRestart earlier) session ↔ ¬u.RestartIntrudes session := by
  unfold Capture.attemptIceRestart Capture.RestartIntrudes
  split
  · rename_i hguard
    refine iff_of_true (spared_nil h) ?_
    rintro ⟨hstop, hactive, hpeer, -⟩
    rw [hstop] at hguard
    cases hp : u.peerConnection with
    | none =>
      rw [hp] at hpeer
      simp at hpeer
    | some =>
      cases ha : u.activeSessionId with
      | none =>
        rw [ha] at hactive
        simp at hactive
      | some =>
        rw [hp, ha] at hguard
        simp at hguard
  · have hpass : u.stopping = none ∧ u.peerConnection.isSome = true ∧ u.activeSessionId.isSome = true := by
      cases hs : u.stopping <;> cases hp : u.peerConnection <;> cases ha : u.activeSessionId <;> simp_all
    obtain ⟨hstop, hpeer, hactive⟩ := hpass
    split
    · rename_i hthree
      rw [failSession_spared h]
      constructor
      · exact fun hnot => absurd hstop hnot
      · exact fun hnot => absurd ⟨hstop, hactive, hpeer, .inl hthree⟩ hnot
    · rename_i hfew
      split
      · rename_i hearly
        refine iff_of_true (spared_nil ?_) ?_
        · exact ⟨h.phase, h.activeSessionId, h.lastError, h.peer, h.current, h.epoch, h.queue, h.running⟩
        · rintro ⟨-, -, -, hthree | ⟨hlate, -⟩⟩
          · exact hfew hthree
          · rw [hlate] at hearly
            cases hearly
      · rename_i hlate
        have hsame : s.SameSession { u with
            iceRestartAttempts := u.iceRestartAttempts + 1, lastIceRestartAt := some u.now } session :=
          ⟨h.phase, h.activeSessionId, h.lastError, h.peer, h.current, h.epoch, h.queue, h.running⟩
        have hholds : u.HoldsPeer session ↔ s.HoldsPeer session := by
          unfold Capture.HoldsPeer
          rw [h.peer]
        rw [sendOffer_spared hsame h.peer h.activeSessionId, ← hholds, ← h.activeSessionId]
        constructor
        · rintro hnot ⟨-, -, -, hthree | ⟨-, hown⟩⟩
          · exact hfew hthree
          · exact hnot ⟨hown, hactive⟩
        · rintro hnot ⟨hown, -⟩
          exact hnot ⟨hstop, hactive, hpeer, .inr ⟨Bool.eq_false_iff.mpr hlate, hown⟩⟩

theorem forceIceRestart_spared (h : s.SameSession u session) : s.Spared (u.forceIceRestart earlier) session ↔
      ¬(u.stopping = none ∧ u.activeSessionId.isSome = true ∧ u.HoldsPeer session) := by
  unfold Capture.forceIceRestart
  split
  · rename_i hguard
    refine iff_of_true (spared_nil h) ?_
    rintro ⟨hstop, hactive, peer, hpeer, -⟩
    rw [hstop, hpeer] at hguard
    cases ha : u.activeSessionId with
    | none =>
      rw [ha] at hactive
      simp at hactive
    | some =>
      rw [ha] at hguard
      simp at hguard
  · have hpass : u.stopping = none ∧ u.activeSessionId.isSome = true := by
      cases hs : u.stopping <;> cases ha : u.activeSessionId <;> simp_all
    obtain ⟨hstop, hactive⟩ := hpass
    have hsame : s.SameSession ({ u with
        iceRestartAttempts := 0, lastIceRestartAt := some u.now }.armEstablishmentTimeouts earlier) session :=
      ⟨h.phase, h.activeSessionId, h.lastError, h.peer, h.current, h.epoch, h.queue, h.running⟩
    have hholds : u.HoldsPeer session ↔ s.HoldsPeer session := by
      unfold Capture.HoldsPeer
      rw [h.peer]
    rw [sendOffer_spared hsame h.peer h.activeSessionId, ← hholds, ← h.activeSessionId]
    constructor
    · rintro hnot ⟨-, -, hown⟩
      exact hnot ⟨hown, hactive⟩
    · rintro hnot ⟨hown, -⟩
      exact hnot ⟨hstop, hactive, hown⟩

/-! ## The peer and the timers -/

theorem onConnectionState_spared (state : PeerState) (peer : Peer) :
    s.Spared (s.onConnectionState earlier state) session ↔ ¬s.Intrudes session (.peerState peer state) := by
  cases state with
  | connected =>
    show s.Spared (s.onP2pConnected earlier, []) session ↔ ¬s.phase ≠ .active
    unfold Capture.onP2pConnected
    split
    · rename_i hphase
      exact iff_of_true (spared_nil ⟨rfl, rfl, rfl, rfl, rfl, rfl, fun _ hr _ => hr, fun _ hrun _ _ => hrun⟩)
        (not_not_intro hphase)
    · rename_i hphase
      refine iff_of_false (fun hspared => hphase ?_) (not_not_intro hphase)
      exact hspared.phase.symm
  | disconnected =>
    refine iff_of_true (spared_nil ?_) not_false
    unfold Capture.onP2pDisconnected
    split
    · exact sameSession_of_eq rfl
    · exact sameSession_of_eq rfl
  | failed =>
    show s.Spared (s.onP2pFailed earlier) session ↔ ¬(s.isLive = true ∧ s.RestartIntrudes session)
    unfold Capture.onP2pFailed
    split
    · rename_i hguard
      refine iff_of_true (spared_nil (sameSession_of_eq rfl)) ?_
      rintro ⟨hlive, hstop, -, hpeer, -⟩
      rw [hlive, hstop] at hguard
      cases hp : s.peerConnection with
      | none => exact absurd (hp ▸ hpeer) (by simp)
      | some => exact absurd (hp ▸ hguard) (by simp)
    · rename_i hguard
      have hlive : s.isLive = true := by
        by_contra hnot
        rw [Bool.eq_false_iff.mpr hnot] at hguard
        simp at hguard
      refine (attemptIceRestart_spared ?_).trans (not_congr ⟨fun hrestart => ⟨hlive, hrestart⟩, fun h => h.2⟩)
      exact sameSession_of_eq rfl
  | closed =>
    show s.Spared (s.onP2pClosed earlier) session ↔ ¬(s.isLive = true ∧ s.stopping = none)
    unfold Capture.onP2pClosed
    cases hstop : s.stopping with
    | some => exact iff_of_true (spared_nil (sameSession_of_eq rfl)) (by simp)
    | none =>
      dsimp only [isSome_none]
      rw [if_neg Bool.false_ne_true]
      split
      · rename_i hlive
        refine (failSession_spared ?_ _).trans (iff_of_false (not_not_intro ?_) (not_not_intro ⟨hlive, rfl⟩))
        · exact sameSession_of_eq rfl
        · rfl
      · rename_i hlive
        exact iff_of_true (spared_nil (sameSession_of_eq rfl)) fun h => hlive h.1

theorem restart_spared (h : s.SameSession u session) (hp2p : s.p2pConnected = u.p2pConnected)
    (hrestart : u.RestartIntrudes session ↔ s.RestartIntrudes session) {guarded : Bool}
    (hguarded : guarded = true → u.p2pConnected = true ∨ u.peerConnection = none ∨ u.stopping ≠ none)
    (hopen : guarded = false → u.p2pConnected = false) :
    s.Spared (if guarded = true then (u, []) else u.attemptIceRestart earlier) session ↔
      ¬(s.p2pConnected = false ∧ s.RestartIntrudes session) := by
  rw [hp2p, ← hrestart]
  cases guarded with
  | true =>
    rw [if_pos rfl]
    refine iff_of_true (spared_nil h) ?_
    rintro ⟨hlost, hstop, -, hpeer, -⟩
    obtain hconnected | hnone | hstopping := hguarded rfl
    · cases hlost.symm.trans hconnected
    · exact absurd (hnone ▸ hpeer) (by simp)
    · exact hstopping hstop
  | false =>
    rw [if_neg Bool.false_ne_true, attemptIceRestart_spared h]
    exact not_congr ⟨fun hrestart => ⟨hopen rfl, hrestart⟩, fun h => h.2⟩

theorem onEstablishmentTimer_spared :
    s.Spared (s.onEstablishmentTimer timer) session ↔ ¬(s.p2pConnected = false ∧ s.RestartIntrudes session) := by
  refine restart_spared ?_ ?_ ?_ (fun hguard => ?_) fun hguard => ?_
  · exact sameSession_of_eq rfl
  · rfl
  · exact Iff.rfl
  · exact ((Bool.or_eq_true ..).mp hguard).imp id fun hnone => .inl (isNone_iff_eq_none.mp hnone)
  · exact ((Bool.or_eq_false_iff ..).mp hguard).1

theorem onDisconnectedTimer_spared :
    s.Spared (s.onDisconnectedTimer timer) session ↔ ¬(s.p2pConnected = false ∧ s.RestartIntrudes session) := by
  refine restart_spared ?_ ?_ ?_ (fun hguard => ?_) fun hguard => ?_
  · exact sameSession_of_eq rfl
  · rfl
  · exact Iff.rfl
  · obtain hor | hstop := (Bool.or_eq_true ..).mp hguard
    · exact ((Bool.or_eq_true ..).mp hor).imp id fun hnone => .inl (isNone_iff_eq_none.mp hnone)
    · refine .inr (.inr fun hnone => ?_)
      exact absurd (hnone ▸ hstop) (by simp)
  · exact ((Bool.or_eq_false_iff ..).mp ((Bool.or_eq_false_iff ..).mp hguard).1).1

theorem onRetryTimer_spared (index : ℕ) (timer : SessionTimer) :
    s.Spared (s.onRetryTimer index timer) session ↔ ¬(s.p2pConnected = false ∧ s.RestartIntrudes session) := by
  have hflip : s.onRetryTimer index timer =
      if (!(!s.p2pConnected && s.stopping.isNone && s.peerConnection.isSome)) = true
      then ({ s with retryTimers := s.retryTimers.eraseIdx index }, [])
      else Capture.attemptIceRestart { s with retryTimers := s.retryTimers.eraseIdx index } timer.session := by
    unfold Capture.onRetryTimer
    cases !s.p2pConnected && s.stopping.isNone && s.peerConnection.isSome with
    | true | false => rfl
  rw [hflip]
  refine restart_spared ?_ ?_ ?_ (fun hguard => ?_) fun hguard => ?_
  · exact sameSession_of_eq rfl
  · rfl
  · exact Iff.rfl
  · cases hp2p : s.p2pConnected with
    | true => exact .inl rfl
    | false =>
      cases hpeer : s.peerConnection with
      | none => exact .inr (.inl rfl)
      | some =>
        refine .inr (.inr fun hstop => ?_)
        rw [hp2p, hpeer, hstop] at hguard
        simp at hguard
  · cases hp2p : s.p2pConnected with
    | true =>
      rw [hp2p] at hguard
      simp at hguard
    | false => rfl

theorem onEstablishmentDeadline_spared : s.Spared (s.onEstablishmentDeadline timer) session ↔
      ¬(s.p2pConnected = false ∧ s.peerConnection.isSome = true ∧ s.stopping = none) := by
  unfold Capture.onEstablishmentDeadline
  split
  · rename_i hguard
    refine iff_of_true (spared_nil (sameSession_of_eq rfl)) ?_
    rintro ⟨hlost, hpeer, -⟩
    obtain hconnected | hnone := (Bool.or_eq_true ..).mp hguard
    · cases hlost.symm.trans hconnected
    · exact absurd (isNone_iff_eq_none.mp hnone ▸ hpeer) (by simp)
  · rename_i hguard
    obtain ⟨hlost, hpeer⟩ := (Bool.or_eq_false_iff ..).mp (Bool.eq_false_iff.mpr hguard)
    refine (failSession_spared ?_ _).trans (not_congr ⟨fun hstop => ⟨hlost, ?_, hstop⟩, fun h => h.2.2⟩)
    · exact sameSession_of_eq rfl
    · exact isSome_iff_ne_none.mpr fun hnone => by simp [hnone] at hpeer

/-! ## The lease -/

theorem onLeaseTick_spared (h : s.SameSession u session) (hexpired : u.leaseExpired = s.leaseExpired)
    (hstop : u.stopping = s.stopping) :
    s.Spared (u.onLeaseTick earlier) session ↔
      ¬(s.phase = .active ∧ s.activeSessionId.isSome = true ∧ s.leaseExpired = true ∧ s.stopping = none) := by
  rw [← h.phase, ← h.activeSessionId, ← hexpired, ← hstop]
  unfold Capture.onLeaseTick
  split
  · rename_i hguard
    refine iff_of_true (spared_nil h) ?_
    rintro ⟨hphase, hactive, -⟩
    obtain hother | hnone := (Bool.or_eq_true ..).mp hguard
    · exact absurd hphase (of_decide_eq_true hother)
    · exact absurd (isNone_iff_eq_none.mp hnone ▸ hactive) (by simp)
  · rename_i hguard
    obtain ⟨hphase, hsome⟩ := (Bool.or_eq_false_iff ..).mp (Bool.eq_false_iff.mpr hguard)
    have hactive : u.phase = .active := by
      by_contra hother
      cases hphase.symm.trans (decide_eq_true hother)
    have hid : u.activeSessionId.isSome = true := isSome_iff_ne_none.mpr fun hnone => by simp [hnone] at hsome
    split
    · rename_i hlost
      rw [failSession_spared h]
      exact not_congr ⟨fun hnone => ⟨hactive, hid, hlost, hnone⟩, fun h => h.2.2.2⟩
    · rename_i hlease
      refine iff_of_true (spared_nil ?_) fun hall => hlease hall.2.2.1
      exact ⟨h.phase, h.activeSessionId, h.lastError, h.peer, h.current, h.epoch, h.queue, h.running⟩

theorem onLeaseReply_spared (h : s.SameSession u session) (hexpired : u.leaseExpired = s.leaseExpired)
    (hstop : u.stopping = s.stopping) (index : ℕ) (reply : LeaseReply) :
    s.Spared (u.onLeaseReply earlier reply) session ↔ ¬s.Intrudes session (.leaseReply index reply) := by
  cases reply with
  | missing =>
    show s.Spared (u.failSession earlier _) session ↔ ¬s.stopping = none
    rw [failSession_spared h, hstop]
  | failed =>
    show s.Spared (if u.leaseExpired = true then u.failSession earlier _ else (u, [])) session ↔
      ¬(s.leaseExpired = true ∧ s.stopping = none)
    rw [hexpired]
    split
    · rename_i hlost
      rw [failSession_spared h, hstop]
      exact not_congr ⟨fun hnone => ⟨hlost, hnone⟩, fun h => h.2⟩
    · rename_i hlease
      exact iff_of_true (spared_nil h) fun hall => hlease hall.1
  | status status =>
    show s.Spared (if Capture.LeaseReply.isEnded (.status status) = true then u.failSession earlier _
      else ({ u with localLeaseDeadline := some (u.now + 60000) }, [])) session ↔
      ¬(Capture.LeaseReply.isEnded (.status status) = true ∧ s.stopping = none)
    split
    · rename_i hended
      rw [failSession_spared h, hstop]
      exact not_congr ⟨fun hnone => ⟨hended, hnone⟩, fun h => h.2⟩
    · rename_i hgoes
      refine iff_of_true (spared_nil ?_) fun hall => hgoes hall.1
      exact ⟨h.phase, h.activeSessionId, h.lastError, h.peer, h.current, h.epoch, h.queue, h.running⟩

/-! ## Stops and starts that go on -/

theorem stopResumed_spared {stop : StopRun} (hordered : s.Ordered) (hstop : s.stopping = some stop)
    (hcurrent : s.current = some session) : s.Spared (s.stopResumed stop, []) session ↔
      ¬(stop.pc = .releasing ∨ (stop.pc = .closingChannel ∧ s.HoldsPeer session)) := by
  unfold Capture.stopResumed
  split
  · rename_i hpc
    refine iff_of_false (fun hspared => ?_) (not_not_intro (.inl hpc))
    have hreset : (s.resetSession stop).current = none := by
      unfold Capture.resetSession
      split
      · rfl
      · rfl
    have hkept : (s.resetSession stop).current = s.current := hspared.current
    rw [hreset, hcurrent] at hkept
    simp at hkept
  · rename_i hpc
    have hother : stop.pc ≠ .releasing := by
      rw [hpc]
      exact StopPc.noConfusion
    constructor
    · rintro hspared (hreleasing | ⟨-, peer, hholds, hsession⟩)
      · exact hother hreleasing
      · obtain hsame | ⟨-, hnot⟩ := hspared.peer
        · cases (show none = s.peerConnection from hsame).trans hholds
        · exact hnot ⟨peer, hholds, hsession⟩
    · intro hnot
      refine ⟨rfl, rfl, rfl, .inr ⟨rfl, fun hholds => hnot (.inr ⟨hpc, hholds⟩)⟩, rfl, not_mem_nil,
        fun _ hmem => absurd hmem not_mem_nil, fun start hstart => ?_⟩
      exact hstart
  · rename_i hpc
    refine iff_of_true (spared_nil (sameSession_of_eq rfl)) ?_
    rw [hpc]
    rintro (h | ⟨h, -⟩)
    · exact StopPc.noConfusion h
    · exact StopPc.noConfusion h
  · rename_i hpc
    refine iff_of_true (spared_nil ?_) ?_
    · unfold Capture.stopFinished
      split
      · exact sameSession_of_eq rfl
      · exact sameSession_of_eq rfl
      · -- The start that is over here was in its cleanup.
        rename_i start cancelled hcaller
        refine ⟨rfl, rfl, rfl, rfl, rfl, rfl, fun _ hr _ => hr, fun run hrun _ hpc => ?_⟩
        obtain ⟨run', hrun', -, hcleaning⟩ := hordered.cleaning stop start cancelled hstop hcaller
        cases hrun.symm.trans hrun'
        exact absurd hcleaning hpc
    · rw [hpc]
      rintro (h | ⟨h, -⟩)
      · exact StopPc.noConfusion h
      · exact StopPc.noConfusion h

theorem startFailed_spared (hordered : s.Ordered) (h : s.SameSession u session)
    (hqueue : u.queue = s.queue) (hstopping : u.stopping = s.stopping) :
    s.Spared (u.startFailed run) session ↔ ¬s.FailureIntrudes session := by
  unfold Capture.startFailed Capture.FailureIntrudes
  rw [hstopping]
  cases hstop : s.stopping with
  | none =>
    refine iff_of_false (not_spared_of_stopping ?_) fun hnot => hnot (.inl rfl)
    dsimp only [isSome_none]
    rw [if_neg Bool.false_ne_true]
    refine mem_cons_of_mem _ (stopping_mem_stop ?_ _ _)
    exact hstopping.trans hstop
  | some =>
    dsimp only [isSome_some]
    rw [if_pos rfl]
    have hnew : ∀ start, s.HasStart session start →
        ¬Capture.HasStart { u with captureEpoch := u.captureEpoch + 1, running := none } session start := by
      intro start hstart
      refine no_start_of_new_epoch hordered hstart hqueue (fun run' hnow => ?_) ?_
      · cases hnow
      · exact congrArg (· + 1) h.epoch
    constructor
    · rintro hspared (hnone | ⟨start, hstart⟩)
      · simp at hnone
      · exact hnew start hstart (hspared.starts start hstart)
    · intro hnot
      refine ⟨h.phase, h.activeSessionId, h.lastError, .inl h.peer, h.current, fun hmem => ?_,
        fun peer hmem => ?_, fun start hstart => absurd (.inr ⟨start, hstart⟩) hnot⟩
      · exact CaptureEvent.noConfusion (mem_singleton.mp hmem)
      · exact CaptureEvent.noConfusion (mem_singleton.mp hmem)

theorem goesOn_same (hrun : s.running = some run) (hsession : run.session ≠ session)
    (hphase : t.phase = s.phase) (hactive : t.activeSessionId = s.activeSessionId)
    (herror : t.lastError = s.lastError) (hpeer : t.peerConnection = s.peerConnection)
    (hcurrent : t.current = s.current) (hepoch : t.captureEpoch = s.captureEpoch)
    (hqueue : t.queue = s.queue) : s.SameSession t session := by
  refine ⟨hphase, hactive, herror, hpeer, hcurrent, hepoch, fun r hr _ => hqueue ▸ hr, fun run' hrun' hown _ => ?_⟩
  cases hrun.symm.trans hrun'
  exact absurd hown hsession

theorem goesOn_spared (hordered : s.Ordered) (h : s.SameSession t session) {passes : Bool} :
    s.Spared (if passes = true then (t, []) else s.startFailed run) session ↔
      ¬(¬passes = true ∧ s.FailureIntrudes session) := by
  cases passes with
  | true =>
    rw [if_pos rfl]
    exact iff_of_true (spared_nil h) fun hall => hall.1 rfl
  | false =>
    rw [if_neg Bool.false_ne_true,
      startFailed_spared hordered (sameSession_of_eq rfl) rfl rfl]
    exact not_congr ⟨fun hfails => ⟨Bool.false_ne_true, hfails⟩, fun hall => hall.2⟩

theorem not_spared_of_newPeer (run : StartRun) {r : Outcome} (hordered : s.Ordered)
    (hpeer : r.1.peerConnection = (s.withNewPeer run).peerConnection) : ¬s.Spared r session := by
  intro hspared
  have hnew : r.1.peerConnection = some ⟨s.nextId, run.session, run.id⟩ := hpeer
  obtain hsame | ⟨hnone, -⟩ := hspared.peer
  · have hfresh := hordered.fresh _ (hsame.symm.trans hnew)
    exact absurd hfresh (Nat.lt_irrefl _)
  · cases hnone.symm.trans hnew

/-- A start that goes on late spares the current session exactly where it does not intrude. -/
theorem startResumed_spared (hordered : s.Ordered) (hrun : s.running = some run) (hpc : run.pc ≠ .cleanup)
    (hsession : run.session ≠ session) (ok : Bool) :
    s.Spared (s.startResumed run ok) session ↔ ¬s.StartIntrudes session run ok := by
  have hgoesOn : ∀ pc, s.SameSession (s.startGoesOn run pc) session := fun pc =>
    goesOn_same hrun hsession rfl rfl rfl rfl rfl rfl rfl
  have hepoch : (¬s.hasEpoch run = true ∧ s.FailureIntrudes session) ↔
      (s.hasEpoch run = false ∧ s.FailureIntrudes session) := by
    rw [Bool.not_eq_true]
  have hknown : s.SameSession { s with iceServersKnown := ok } session :=
    sameSession_of_eq rfl
  have hfailed : s.Spared (s.startFailed run) session ↔ ¬s.FailureIntrudes session :=
    startFailed_spared hordered (sameSession_of_eq rfl) rfl rfl
  unfold Capture.startResumed Capture.StartIntrudes
  cases hat : run.pc with
  | iceServers =>
    dsimp only
    rw [← hepoch]
    split
    · rename_i hhas
      refine iff_of_true (spared_nil ?_) fun hall => hall.1 hhas
      exact goesOn_same hrun hsession rfl rfl rfl rfl rfl rfl rfl
    · rename_i hlost
      rw [startFailed_spared hordered hknown rfl rfl]
      exact not_congr ⟨fun hfails => ⟨hlost, hfails⟩, fun hall => hall.2⟩
  | createPeer =>
    dsimp only
    cases ok with
    | false =>
      rw [Bool.not_false, if_pos rfl, hfailed]
      exact not_congr ⟨.inr, fun h => h.resolve_left Bool.false_ne_true⟩
    | true =>
      rw [Bool.not_true, if_neg Bool.false_ne_true]
      refine iff_of_false ?_ (not_not_intro (.inl rfl))
      split
      · exact not_spared_of_newPeer run hordered rfl
      · -- With a stop that runs already the start is over, and its peer stays; otherwise it has the service stop.
        unfold Capture.startFailed
        split
        · exact not_spared_of_newPeer run hordered rfl
        · rename_i hstop
          refine not_spared_of_stopping (mem_cons_of_mem _ (stopping_mem_stop ?_ _ _))
          exact not_isSome_iff_eq_none.mp hstop
  | createChannel =>
    rw [← hepoch]
    refine goesOn_spared hordered ?_
    split
    · exact goesOn_same hrun hsession rfl rfl rfl rfl rfl rfl rfl
    · exact hgoesOn _
  | sources =>
    rw [← hepoch]
    exact goesOn_spared hordered (hgoesOn _)
  | displayMedia | addTracks =>
    rw [goesOn_spared hordered (hgoesOn _), Bool.and_eq_true]
  | tuning =>
    dsimp only
    split
    · rename_i hhas
      rw [sendOffer_spared (hgoesOn _) rfl rfl]
      refine not_congr ⟨fun hown => .inl ⟨hhas, hown⟩, ?_⟩
      rintro (⟨-, hown⟩ | ⟨hlost, -⟩)
      · exact hown
      · cases hhas.symm.trans hlost
    · rename_i hlost
      rw [hfailed]
      refine not_congr ⟨fun hfails => .inr ⟨Bool.eq_false_iff.mpr hlost, hfails⟩, ?_⟩
      rintro (⟨hhas, -⟩ | ⟨-, hfails⟩)
      · exact absurd hhas hlost
      · exact hfails
  | sendOffer =>
    dsimp only
    split
    · rename_i hhas
      constructor
      · rintro hspared (⟨-, hphase⟩ | ⟨hlost, -⟩)
        · exact hphase hspared.phase.symm
        · cases hhas.symm.trans hlost
      · intro hnot
        have hphase : s.phase = .connecting := by
          by_contra hother
          exact hnot (.inl ⟨hhas, hother⟩)
        refine spared_nil (goesOn_same hrun hsession hphase.symm rfl rfl rfl rfl rfl rfl)
    · rename_i hlost
      rw [hfailed]
      refine not_congr ⟨fun hfails => .inr ⟨Bool.eq_false_iff.mpr hlost, hfails⟩, ?_⟩
      rintro (⟨hhas, -⟩ | ⟨-, hfails⟩)
      · exact absurd hhas hlost
      · exact hfails
  | cleanup => exact absurd hat hpc

theorem startTurn_spared {r : StartRequest} {rest : List StartRequest} (hqueue : s.queue = r :: rest)
    (hcurrent : s.current = some session) (hsession : r.session ≠ session) :
    s.Spared (s.startTurn r rest) session ↔ ¬r.expectedEpoch = s.captureEpoch := by
  unfold Capture.startTurn
  split
  · rename_i hold
    refine iff_of_true (spared_of_same ?_ (fun hmem => ?_) fun peer hmem => ?_) hold
    · refine ⟨rfl, rfl, rfl, rfl, rfl, rfl, fun r' hr' hown => ?_, fun _ hrun _ _ => hrun⟩
      rw [hqueue] at hr'
      obtain rfl | hrest := mem_cons.mp hr'
      · exact absurd hown hsession
      · exact hrest
    · exact CaptureEvent.noConfusion (mem_singleton.mp hmem)
    · exact CaptureEvent.noConfusion (mem_singleton.mp hmem)
  · rename_i hlive
    refine iff_of_false (fun hspared => hsession ?_) hlive
    have hkept : some r.session = s.current := hspared.current
    exact Option.some.inj (hkept.trans hcurrent)

/-- An action of an earlier session spares the current one exactly where it does not intrude. -/
theorem step_spared {a : CaptureAction} (hordered : s.Ordered) (hstep : s.step a = some (t, fs))
    (hbelongs : s.actionSession a = some earlier) (hcurrent : s.current = some session) (hlt : earlier < session) :
    s.Spared (t, fs) session ↔ ¬s.Intrudes session a := by
  have hother : earlier ≠ session := Nat.ne_of_lt hlt
  cases a with
  | startTurn =>
    unfold Capture.step at hstep
    dsimp only at hstep
    split at hstep
    · rename_i r rest hqueue hidle hstop
      rw [← Option.some.inj hstep]
      have hsession : r.session = earlier := by
        have hhead : (s.queue.head?.map (·.session)) = some earlier := hbelongs
        rw [hqueue] at hhead
        exact Option.some.inj hhead
      rw [startTurn_spared hqueue hcurrent (hsession ▸ hother)]
      refine not_congr ⟨fun hlive => ⟨r, rest, hqueue, hlive⟩, ?_⟩
      rintro ⟨r', rest', hqueue', hlive⟩
      obtain ⟨rfl, -⟩ := List.cons.inj (hqueue.symm.trans hqueue')
      exact hlive
    · simp at hstep
  -- the start that goes on belongs to the earlier session
  | startResumed =>
    obtain ⟨run, hrun, hrest⟩ := bind_eq_some_iff.mp hstep
    obtain ⟨_, hpc, hr⟩ := bind_eq_some_iff.mp hrest
    rw [← Option.some.inj hr]
    have hsession : run.session = earlier := by
      have hmap : s.running.map (·.session) = some earlier := hbelongs
      rw [hrun] at hmap
      exact Option.some.inj hmap
    rw [startResumed_spared hordered hrun ((guard_eq_some' _).mp hpc) (hsession ▸ hother)]
    refine not_congr ⟨fun hintrudes => ⟨run, hrun, hintrudes⟩, ?_⟩
    rintro ⟨run', hrun', hintrudes⟩
    cases hrun.symm.trans hrun'
    exact hintrudes
  | stopResumed =>
    obtain ⟨stop, hstop, hr⟩ := bind_eq_some_iff.mp hstep
    rw [← Option.some.inj hr, stopResumed_spared hordered hstop hcurrent]
    refine not_congr ⟨fun hintrudes => ⟨stop, hstop, hintrudes⟩, ?_⟩
    rintro ⟨stop', hstop', hintrudes⟩
    cases hstop.symm.trans hstop'
    exact hintrudes
  | failResumed =>
    unfold Capture.step at hstep
    dsimp only at hstep
    split at hstep
    · rw [← Option.some.inj hstep]
      constructor
      · exact fun hspared hphase => hphase hspared.phase.symm
      · intro hnot
        have hphase : s.phase = .ended := by
          by_contra hgoes
          exact hnot hgoes
        exact spared_nil (sameSession_of_eq (Prod.ext hphase.symm rfl))
    · simp at hstep
  | renegotiated index ok =>
    obtain ⟨asked, -, hr⟩ := bind_eq_some_iff.mp hstep
    rw [← Option.some.inj hr]
    show s.Spared (s.renegotiated index asked ok) session ↔
      ¬(s.stopping = none ∧ s.activeSessionId.isSome = true ∧ s.HoldsPeer session)
    cases ok with
    | true | false => exact forceIceRestart_spared (sameSession_of_eq rfl)
  | peerState peer state =>
    obtain ⟨-, -, hr⟩ := bind_eq_some_iff.mp hstep
    rw [← Option.some.inj hr]
    exact onConnectionState_spared state peer
  | channelOpened =>
    obtain ⟨-, -, hr⟩ := bind_eq_some_iff.mp hstep
    rw [← Option.some.inj hr]
    exact iff_of_true (spared_nil (sameSession_of_eq rfl)) not_false
  | channelMessage _ ends =>
    obtain ⟨-, -, hr⟩ := bind_eq_some_iff.mp hstep
    rw [← Option.some.inj hr]
    cases ends with
    | true =>
      rw [if_pos rfl, stopScreenSharing_spared hordered]
      exact not_congr ⟨fun hfails => ⟨rfl, hfails⟩, fun h => h.2⟩
    | false =>
      rw [if_neg Bool.false_ne_true]
      exact iff_of_true (spared_nil (sameSession_of_eq rfl))
        fun h => Bool.false_ne_true h.1
  | establishmentTimer =>
    obtain ⟨timer, -, -, hr⟩ := guarded_eq_some hstep
    rw [← hr]
    exact onEstablishmentTimer_spared timer
  | establishmentDeadlineTimer =>
    obtain ⟨timer, -, -, hr⟩ := guarded_eq_some hstep
    rw [← hr]
    exact onEstablishmentDeadline_spared timer
  | disconnectedTimer =>
    obtain ⟨timer, -, -, hr⟩ := guarded_eq_some hstep
    rw [← hr]
    exact onDisconnectedTimer_spared timer
  | retryTimer index =>
    obtain ⟨timer, -, -, hr⟩ := guarded_eq_some hstep
    rw [← hr]
    exact onRetryTimer_spared index timer
  | leaseTick =>
    obtain ⟨timer, -, -, hr⟩ := guarded_eq_some hstep
    rw [← hr]
    refine onLeaseTick_spared ?_ ?_ ?_
    · exact sameSession_of_eq rfl
    · rfl
    · rfl
  | leaseReply index reply =>
    obtain ⟨asked, -, hr⟩ := bind_eq_some_iff.mp hstep
    rw [← Option.some.inj hr]
    refine onLeaseReply_spared ?_ ?_ ?_ index reply
    · exact sameSession_of_eq rfl
    · rfl
    · rfl
  | _ => cases hbelongs

theorem isolated_iff (hordered : s.Ordered) (a : CaptureAction) : s.Isolated a ↔ s.Contained a := by
  constructor
  · intro hisolated hsome earlier session hbelongs hcurrent hlt
    obtain ⟨⟨t, fs⟩, hstep⟩ := isSome_iff_exists.mp hsome
    have hspared := hisolated t fs hstep earlier session hbelongs hcurrent hlt
    exact (step_spared hordered hstep hbelongs hcurrent hlt).mp hspared
  · intro hcontained t fs hstep earlier session hbelongs hcurrent hlt
    have hnot := hcontained (isSome_iff_exists.mpr ⟨_, hstep⟩) earlier session hbelongs hcurrent hlt
    exact (step_spared hordered hstep hbelongs hcurrent hlt).mpr hnot

end Spared

/-- In a run of the service the steps of the earlier sessions leave the current one as it is if and only if
none of them passes the checks that its code makes. -/
theorem session_isolation_iff (serviceHost : Bool) (as : List CaptureAction) :
    supportService.Every (fun s _ a => s.Isolated a) { serviceHost } [] as ↔
      supportService.Every (fun s _ a => s.Contained a) { serviceHost } [] as :=
  Machine.every_iff (fun s _ => s.Ordered) (fun _ _ _ _ _ h _ hstep => step_ordered h hstep)
    (fun _ _ a h => isolated_iff h a)
    as _ [] (ordered_start serviceHost)

/-- A session is active and its lease is asked for when the host stops it and authorizes another. -/
def leaseAskedBefore : List CaptureAction :=
  [.startScreenSharing "sess-1", .startTurn, .startResumed true, .startResumed true, .startResumed false,
    .startResumed true, .startResumed true, .startResumed true, .startResumed true, .startResumed true,
    .peerState ⟨0, 1, 0⟩ .connected, .elapse 15000, .leaseTick, .stopScreenSharing, .stopResumed, .stopResumed,
    .setAuthorizing "sess-2" false]

/-- The answer for the session that was stopped ends the new one. -/
theorem session_ended_by_earlier : ¬∀ (serviceHost : Bool) (as : List CaptureAction),
    supportService.Every (fun s _ a => s.Isolated a) { serviceHost } [] as := by
  intro hclaim
  have hrun : (supportService.exec (fun _ _ _ => true) {} [] leaseAskedBefore).any (fun r => decide
      (r.1.leaseReplies = [1] ∧ r.1.current = some 2 ∧ r.1.stopping = none)) = true := by decide +kernel
  obtain ⟨⟨s, es⟩, hexec, hshape⟩ := (Option.any_eq_true ..).mp hrun
  obtain ⟨hreplies, hcurrent, hstop⟩ := of_decide_eq_true hshape
  obtain ⟨_, rfl, hpath⟩ := Machine.path_of_exec _ hexec
  have hisolated := Machine.Every.good hpath (hclaim false (leaseAskedBefore ++ [.leaseReply 0 .missing]))
  have hordered : s.Ordered := by
    have hreach : supportService.Reach (fun _ _ _ => True) {} s _ :=
      Machine.reach_of_exec (fun _ _ _ _ => trivial) hexec
    exact hreach.invariant (fun s _ => s.Ordered) (ordered_start false) fun _ _ _ _ _ h _ hs => step_ordered h hs
  have hasked : s.leaseReplies[0]? = some 1 := by
    rw [hreplies]
    rfl
  have hmade : (s.step (.leaseReply 0 .missing)).isSome = true := by
    show (s.leaseReplies[0]? >>= fun session => some (Capture.onLeaseReply
      { s with leaseReplies := s.leaseReplies.eraseIdx 0 } session .missing)).isSome = true
    rw [hasked]
    rfl
  exact (isolated_iff hordered _).mp hisolated hmade 1 2 hasked hcurrent (by decide) hstop

end LigamentApps.SupportService
