import LigamentApps.SupportService.Capture

/-!
# A newer start wins

What the cleanup of a start that was cancelled does to the starts that were requested after it. -/

namespace LigamentApps.SupportService

open List

/-- A start lives on: it waits and will have its turn, it runs with the current epoch, or its peer is the
service's. -/
def Capture.LivesOn (s : Capture) (start : ℕ) : Prop :=
  (∃ r ∈ s.queue, r.id = start ∧ r.expectedEpoch = s.captureEpoch) ∨
  (∃ run, s.running = some run ∧ run.id = start ∧ run.epoch = s.captureEpoch) ∨
  ∃ peer, s.peerConnection = some peer ∧ peer.start = start

/-- A step belongs to the cleanup of a start that was cancelled before: it begins it, or goes on with its
stop. -/
def Capture.CleansUp (s : Capture) (a : CaptureAction) (fs : List CaptureEvent) (start : ℕ) : Prop :=
  .cleanup start true ∈ fs ∨
    (a = .stopResumed ∧ ∃ run, s.stopping = some run ∧ run.caller = .cleanup start true)

/-- The cleanup of a start that was cancelled leaves every newer start as it is. -/
def Capture.NewerKept (s : Capture) (a : CaptureAction) : Prop :=
  ∀ t fs, s.step a = some (t, fs) → ∀ start, s.CleansUp a fs start → ∀ newer, start < newer →
    s.LivesOn newer → t.LivesOn newer

/-- A start that was cancelled fails when it goes on: only before its tracks are added it does not look at the
epoch. -/
def Capture.failsNow (s : Capture) (run : StartRun) (ok : Bool) : Bool :=
  match run.pc with
  | .addTracks => !(ok && s.peerConnection.isSome)
  | .cleanup => false
  | _ => true

/-- When a start that was cancelled fails, no start waits that was requested since the last stop. -/
def Capture.NoneWaits (s : Capture) (a : CaptureAction) : Prop :=
  ∀ ok run, a = .startResumed ok → s.running = some run → run.epoch ≠ s.captureEpoch →
    s.failsNow run ok = true → ∀ r ∈ s.queue, r.expectedEpoch ≠ s.captureEpoch

/-! ## The order of the starts -/

/-- The invariant: the starts have their turns in the order of their numbers, and the peer is of one that had
its turn; a stop that a start has called has that start wait for it. -/
structure Capture.Ordered (s : Capture) : Prop where
  queued : s.queue.Pairwise fun r r' => r.id < r'.id
  bounded : ∀ r ∈ s.queue, r.id < s.nextStart ∧ r.expectedEpoch ≤ s.captureEpoch
  runs : ∀ run, s.running = some run → run.id < s.nextStart ∧ ∀ r ∈ s.queue, run.id < r.id
  peer : ∀ peer, s.peerConnection = some peer → peer.start < s.nextStart ∧
    (∀ r ∈ s.queue, peer.start < r.id) ∧ ∀ run, s.running = some run → peer.start ≤ run.id
  cleaning : ∀ stop start cancelled, s.stopping = some stop → stop.caller = .cleanup start cancelled →
    ∃ run, s.running = some run ∧ run.id = start ∧ run.pc = .cleanup
  fresh : ∀ peer, s.peerConnection = some peer → peer.id < s.nextId

/-- A change that leaves the starts as they are. -/
structure Capture.Quiet (s t : Capture) : Prop where
  queue : t.queue = s.queue
  nextStart : t.nextStart = s.nextStart
  running : t.running = s.running
  peer : t.peerConnection = s.peerConnection ∨ t.peerConnection = none
  epoch : s.captureEpoch ≤ t.captureEpoch
  nextId : s.nextId ≤ t.nextId
  stopping : ∀ stop start cancelled, t.stopping = some stop → stop.caller = .cleanup start cancelled →
    ∃ stop', s.stopping = some stop' ∧ stop'.caller = .cleanup start cancelled

/-- A part of a step that leaves the starts as they are, and is no cleanup. -/
structure Capture.Leaves (s : Capture) (r : Outcome) : Prop where
  quiet : s.Quiet r.1
  noCleanup : ∀ start cancelled, .cleanup start cancelled ∉ r.2

section Quiet

variable {s t u : Capture} {session : ℕ}

theorem Capture.Ordered.quiet (h : s.Ordered) (hq : s.Quiet t) : t.Ordered := by
  refine ⟨?_, ?_, ?_, ?_, ?_, ?_⟩
  · rw [hq.queue]
    exact h.queued
  · rw [hq.queue, hq.nextStart]
    intro r hr
    exact ⟨(h.bounded r hr).1, Nat.le_trans (h.bounded r hr).2 hq.epoch⟩
  · rw [hq.queue, hq.nextStart, hq.running]
    exact h.runs
  · rw [hq.queue, hq.nextStart, hq.running]
    intro peer hpeer
    obtain hsame | hnone := hq.peer
    · exact h.peer peer (hsame ▸ hpeer)
    · rw [hnone] at hpeer
      simp at hpeer
  · intro stop start cancelled hstop hcaller
    obtain ⟨stop', hstop', hcaller'⟩ := hq.stopping stop start cancelled hstop hcaller
    rw [hq.running]
    exact h.cleaning stop' start cancelled hstop' hcaller'
  · intro peer hpeer
    obtain hsame | hnone := hq.peer
    · exact Nat.lt_of_lt_of_le (h.fresh peer (hsame ▸ hpeer)) hq.nextId
    · cases hnone.symm.trans hpeer

theorem Capture.Quiet.rfl' (s : Capture) : s.Quiet s :=
  ⟨rfl, rfl, rfl, .inl rfl, Nat.le_refl _, Nat.le_refl _, fun stop _ _ hstop hcaller => ⟨stop, hstop, hcaller⟩⟩

theorem Capture.Quiet.trans (h : s.Quiet t) (h' : t.Quiet u) : s.Quiet u := by
  refine ⟨h'.queue.trans h.queue, h'.nextStart.trans h.nextStart, h'.running.trans h.running, ?_,
    Nat.le_trans h.epoch h'.epoch, Nat.le_trans h.nextId h'.nextId, ?_⟩
  · obtain hsame | hnone := h'.peer
    · rw [hsame]
      exact h.peer
    · exact .inr hnone
  · intro stop start cancelled hstop hcaller
    obtain ⟨stop', hstop', hcaller'⟩ := h'.stopping stop start cancelled hstop hcaller
    exact h.stopping stop' start cancelled hstop' hcaller'

/-- What the order of the starts rests on, the numbers apart. -/
def Capture.startPart (s : Capture) :=
  (s.queue, s.nextStart, s.running, s.peerConnection, s.captureEpoch, s.stopping)

theorem quiet_of_eq (h : t.startPart = s.startPart) (hid : s.nextId ≤ t.nextId) : s.Quiet t := by
  unfold Capture.startPart at h
  simp only [Prod.mk.injEq] at h
  obtain ⟨hqueue, hnext, hrunning, hpeer, hepoch, hstopping⟩ := h
  refine ⟨hqueue, hnext, hrunning, .inl hpeer, Nat.le_of_eq hepoch.symm, hid,
    fun stop start cancelled hstop hcaller => ?_⟩
  rw [hstopping] at hstop
  exact ⟨stop, hstop, hcaller⟩

theorem leaves_nil (h : s.Quiet t) : s.Leaves (t, []) := ⟨h, fun _ _ hmem => absurd hmem not_mem_nil⟩

theorem Capture.Leaves.after {r : Outcome} (h : s.Quiet t) (h' : t.Leaves r) : s.Leaves r :=
  ⟨h.trans h'.quiet, h'.noCleanup⟩

theorem leaves_sendOffer (h : s.Quiet t) : s.Leaves (t, s.sendOffer) := by
  refine ⟨h, fun start cancelled hmem => ?_⟩
  have hoffer : (CaptureEvent.cleanup start cancelled) ∈ s.sendOffer := hmem
  unfold Capture.sendOffer at hoffer
  split at hoffer
  · exact CaptureEvent.noConfusion (mem_singleton.mp hoffer)
  · cases hoffer

/-! ## Stops -/

theorem resetSession_keeps (run : StopRun) : (s.resetSession run).queue = s.queue ∧
    (s.resetSession run).nextStart = s.nextStart ∧ (s.resetSession run).running = s.running ∧
    ((s.resetSession run).peerConnection = s.peerConnection ∨ (s.resetSession run).peerConnection = none) ∧
    (s.resetSession run).captureEpoch = s.captureEpoch ∧ (s.resetSession run).nextId = s.nextId ∧
    ∃ pc, (s.resetSession run).stopping = some { run with pc } := by
  unfold Capture.resetSession
  split
  · exact ⟨rfl, rfl, rfl, .inl rfl, rfl, rfl, _, rfl⟩
  · exact ⟨rfl, rfl, rfl, .inr rfl, rfl, rfl, _, rfl⟩

theorem resetSession_quiet {run : StopRun} (hstop : s.stopping = some run) : s.Quiet (s.resetSession run) := by
  obtain ⟨hqueue, hnext, hrunning, hpeer, hepoch, hid, pc, hstopping⟩ := resetSession_keeps run
  refine ⟨hqueue, hnext, hrunning, hpeer, Nat.le_of_eq hepoch.symm, Nat.le_of_eq hid.symm,
    fun stop start cancelled hnow hcaller => ?_⟩
  rw [hstopping] at hnow
  cases hnow
  exact ⟨run, hstop, hcaller⟩

theorem closePeer_quiet {run : StopRun} (hstop : s.stopping = some run) : s.Quiet (s.closePeer run) := by
  refine ⟨rfl, rfl, rfl, .inr rfl, Nat.le_refl _, Nat.le_refl _, fun stop start cancelled hnow hcaller => ?_⟩
  cases hnow
  exact ⟨run, hstop, hcaller⟩

theorem stopScreenSharing_keeps (caller : StopCaller) (session : ℕ) :
    (s.stopScreenSharing session caller).1.queue = s.queue ∧
    (s.stopScreenSharing session caller).1.nextStart = s.nextStart ∧
    (s.stopScreenSharing session caller).1.running = s.running ∧
    ((s.stopScreenSharing session caller).1.peerConnection = s.peerConnection ∨
      (s.stopScreenSharing session caller).1.peerConnection = none) ∧
    (s.stopScreenSharing session caller).1.captureEpoch = s.captureEpoch + 1 ∧
    (s.stopScreenSharing session caller).1.nextId = s.nextId ∧
    ((s.stopScreenSharing session caller).1.stopping = s.stopping ∨
      ∃ run, (s.stopScreenSharing session caller).1.stopping = some run ∧ run.caller = caller) := by
  unfold Capture.stopScreenSharing
  split
  · exact ⟨rfl, rfl, rfl, .inl rfl, rfl, rfl, .inl rfl⟩
  · split
    · exact ⟨rfl, rfl, rfl, .inl rfl, rfl, rfl, .inr ⟨_, rfl, rfl⟩⟩
    · obtain ⟨hqueue, hnext, hrunning, hpeer, hepoch, hid, pc, hstopping⟩ := resetSession_keeps
        (s := { s with
          captureEpoch := s.captureEpoch + 1, announced := none, stopping := some ⟨session, caller, .releasing⟩ })
        ⟨session, caller, .releasing⟩
      exact ⟨hqueue, hnext, hrunning, hpeer, hepoch, hid, .inr ⟨_, hstopping, rfl⟩⟩

theorem stopScreenSharing_begins (hstop : s.stopping = none) (caller : StopCaller) (session : ℕ) :
    ∃ run, (s.stopScreenSharing session caller).1.stopping = some run ∧ run.session = session ∧
      run.caller = caller := by
  unfold Capture.stopScreenSharing
  rw [hstop]
  dsimp only [Option.isSome_none]
  rw [if_neg Bool.false_ne_true]
  split
  · exact ⟨_, rfl, rfl, rfl⟩
  · obtain ⟨-, -, -, -, -, -, pc, hstopping⟩ := resetSession_keeps
      (s := { s with
        captureEpoch := s.captureEpoch + 1, announced := none, stopping := some ⟨session, caller, .releasing⟩ })
      ⟨session, caller, .releasing⟩
    exact ⟨_, hstopping, rfl, rfl⟩

theorem stopScreenSharing_events (caller : StopCaller) (session : ℕ) :
    (s.stopScreenSharing session caller).2 = if s.stopping.isSome then [] else [.stopping] := by
  unfold Capture.stopScreenSharing
  split
  · rfl
  · rfl

theorem stopScreenSharing_leaves {caller : StopCaller} (hcaller : ∀ start cancelled,
    caller ≠ .cleanup start cancelled)
    (session : ℕ) : s.Leaves (s.stopScreenSharing session caller) := by
  obtain ⟨hqueue, hnext, hrunning, hpeer, hepoch, hid, hstopping⟩ := stopScreenSharing_keeps caller session
  refine ⟨⟨hqueue, hnext, hrunning, hpeer, by omega, Nat.le_of_eq hid.symm,
    fun stop start cancelled hstop hcleanup => ?_⟩,
    fun start cancelled hmem => ?_⟩
  · obtain hsame | ⟨run, hrun, hcaller'⟩ := hstopping
    · rw [hsame] at hstop
      exact ⟨stop, hstop, hcleanup⟩
    · rw [hrun] at hstop
      cases hstop
      exact absurd (hcaller'.symm.trans hcleanup) (hcaller start cancelled)
  · rw [stopScreenSharing_events] at hmem
    split at hmem
    · cases hmem
    · exact CaptureEvent.noConfusion (mem_singleton.mp hmem)

theorem failSession_leaves (session : ℕ) (userError : String) : s.Leaves (s.failSession session userError) := by
  unfold Capture.failSession
  split
  · exact leaves_nil (.rfl' s)
  · refine Capture.Leaves.after ?_ (stopScreenSharing_leaves (fun _ _ h => StopCaller.noConfusion h) session)
    exact quiet_of_eq rfl (Nat.le_refl _)

/-! ## Everything but the starts -/

theorem attemptIceRestart_leaves (session : ℕ) : s.Leaves (s.attemptIceRestart session) := by
  unfold Capture.attemptIceRestart
  split
  · exact leaves_nil (.rfl' s)
  · split
    · exact failSession_leaves session _
    · split
      · exact leaves_nil (quiet_of_eq rfl (Nat.le_refl _))
      · exact leaves_sendOffer (quiet_of_eq rfl (Nat.le_refl _))

theorem forceIceRestart_leaves (session : ℕ) : s.Leaves (s.forceIceRestart session) := by
  unfold Capture.forceIceRestart
  split
  · exact leaves_nil (.rfl' s)
  · exact leaves_sendOffer (quiet_of_eq rfl (Nat.le_refl _))

theorem onConnectionState_leaves (session : ℕ) (state : PeerState) :
    s.Leaves (s.onConnectionState session state) := by
  cases state with
  | connected =>
    show s.Leaves (s.onP2pConnected session, [])
    unfold Capture.onP2pConnected
    split
    · exact leaves_nil (quiet_of_eq rfl (Nat.le_refl _))
    · exact leaves_nil (quiet_of_eq rfl (Nat.le_refl _))
  | disconnected =>
    show s.Leaves (s.onP2pDisconnected session, [])
    unfold Capture.onP2pDisconnected
    split
    · exact leaves_nil (quiet_of_eq rfl (Nat.le_refl _))
    · exact leaves_nil (quiet_of_eq rfl (Nat.le_refl _))
  | failed =>
    show s.Leaves (s.onP2pFailed session)
    unfold Capture.onP2pFailed
    split
    · exact leaves_nil (quiet_of_eq rfl (Nat.le_refl _))
    · refine .after ?_ (attemptIceRestart_leaves session)
      exact quiet_of_eq rfl (Nat.le_refl _)
  | closed =>
    show s.Leaves (s.onP2pClosed session)
    unfold Capture.onP2pClosed
    split
    · exact leaves_nil (.rfl' s)
    · split
      · refine .after ?_ (failSession_leaves session _)
        exact quiet_of_eq rfl (Nat.le_refl _)
      · exact leaves_nil (quiet_of_eq rfl (Nat.le_refl _))

theorem onLeaseTick_leaves (session : ℕ) : s.Leaves (s.onLeaseTick session) := by
  unfold Capture.onLeaseTick
  split
  · exact leaves_nil (.rfl' s)
  · split
    · exact failSession_leaves session _
    · exact leaves_nil (quiet_of_eq rfl (Nat.le_refl _))

theorem onLeaseReply_leaves (session : ℕ) (reply : LeaseReply) : s.Leaves (s.onLeaseReply session reply) := by
  unfold Capture.onLeaseReply
  cases reply with
  | missing => exact failSession_leaves session _
  | failed =>
    dsimp only
    split
    · exact failSession_leaves session _
    · exact leaves_nil (.rfl' s)
  | status =>
    dsimp only
    split
    · exact failSession_leaves session _
    · exact leaves_nil (quiet_of_eq rfl (Nat.le_refl _))

theorem timer_leaves {timer : SessionTimer} (index : ℕ) : s.Leaves (s.onEstablishmentTimer timer) ∧
    s.Leaves (s.onEstablishmentDeadline timer) ∧ s.Leaves (s.onDisconnectedTimer timer) ∧
    s.Leaves (s.onRetryTimer index timer) := by
  refine ⟨?_, ?_, ?_, ?_⟩
  · unfold Capture.onEstablishmentTimer
    split
    · exact leaves_nil (quiet_of_eq rfl (Nat.le_refl _))
    · refine Capture.Leaves.after ?_ (attemptIceRestart_leaves _)
      exact quiet_of_eq rfl (Nat.le_refl _)
  · unfold Capture.onEstablishmentDeadline
    split
    · exact leaves_nil (quiet_of_eq rfl (Nat.le_refl _))
    · refine .after ?_ (failSession_leaves _ _)
      exact quiet_of_eq rfl (Nat.le_refl _)
  · unfold Capture.onDisconnectedTimer
    split
    · exact leaves_nil (quiet_of_eq rfl (Nat.le_refl _))
    · refine .after ?_ (attemptIceRestart_leaves _)
      exact quiet_of_eq rfl (Nat.le_refl _)
  · unfold Capture.onRetryTimer
    split
    · refine .after ?_ (attemptIceRestart_leaves _)
      exact quiet_of_eq rfl (Nat.le_refl _)
    · exact leaves_nil (quiet_of_eq rfl (Nat.le_refl _))

theorem renegotiate_leaves (channelOpen : Bool) : s.Leaves (s.renegotiate channelOpen) := by
  unfold Capture.renegotiate
  split
  · exact leaves_nil (.rfl' s)
  · split
    · exact forceIceRestart_leaves _
    · exact leaves_nil (quiet_of_eq rfl (Nat.le_refl _))

theorem renegotiated_leaves (index session : ℕ) (ok : Bool) : s.Leaves (s.renegotiated index session ok) := by
  refine Capture.Leaves.after ?_ (forceIceRestart_leaves session)
  split
  · exact quiet_of_eq rfl (Nat.le_succ _)
  · exact quiet_of_eq rfl (Nat.le_refl _)

theorem setLinkHostedSession_quiet (sessionId : String) (active : Bool) :
    s.Quiet (s.setLinkHostedSession sessionId active) := by
  unfold Capture.setLinkHostedSession
  dsimp only
  generalize (if active = true then SupportSessionState.active else .authorizing) = next
  split
  · exact .rfl' s
  · exact quiet_of_eq rfl (Nat.le_refl _)

end Quiet

/-! ## The starts -/

section Starts

variable {s t : Capture} {run : StartRun} {fs : List CaptureEvent}

theorem startScreenSharing_ordered (h : s.Ordered) (sessionId : String) :
    (s.startScreenSharing sessionId).Ordered := by
  have hmem : ∀ r ∈ (s.startScreenSharing sessionId).queue, r ∈ s.queue ∨
      r = ⟨s.nextStart, s.announce sessionId, sessionId, s.captureEpoch⟩ := by
    intro r hr
    exact (mem_append.mp hr).imp id mem_singleton.mp
  refine ⟨?_, ?_, ?_, ?_, h.cleaning, h.fresh⟩
  · refine pairwise_append.mpr ⟨h.queued, pairwise_singleton _ _, fun r hr r' hr' => ?_⟩
    obtain rfl := mem_singleton.mp hr'
    exact (h.bounded r hr).1
  · intro r hr
    show r.id < s.nextStart + 1 ∧ r.expectedEpoch ≤ s.captureEpoch
    obtain hr | rfl := hmem r hr
    · have hbound := h.bounded r hr
      exact ⟨by omega, hbound.2⟩
    · exact ⟨Nat.lt_succ_self _, Nat.le_refl _⟩
  · intro run hrun
    have hruns := h.runs run hrun
    refine ⟨Nat.lt_succ_of_lt hruns.1, fun r hr => ?_⟩
    obtain hr | rfl := hmem r hr
    · exact hruns.2 r hr
    · exact hruns.1
  · intro peer hpeer
    obtain ⟨hbound, hqueue, hrunning⟩ := h.peer peer hpeer
    refine ⟨Nat.lt_succ_of_lt hbound, fun r hr => ?_, hrunning⟩
    obtain hr | rfl := hmem r hr
    · exact hqueue r hr
    · exact hbound

theorem startTurn_ordered {r : StartRequest} {rest : List StartRequest} (h : s.Ordered)
    (hqueue : s.queue = r :: rest)
    (hidle : s.running = none) (hstop : s.stopping = none) : (s.startTurn r rest).1.Ordered := by
  have hrest : ∀ r' ∈ rest, r' ∈ s.queue := fun r' hr' => hqueue ▸ mem_cons_of_mem _ hr'
  have hfirst : r ∈ s.queue := hqueue ▸ mem_cons_self
  have hsorted : (r :: rest).Pairwise fun r r' => r.id < r'.id := hqueue ▸ h.queued
  unfold Capture.startTurn
  split
  · refine ⟨hsorted.of_cons, fun r' hr' => h.bounded r' (hrest r' hr'), fun run hrun => ?_,
      fun peer hpeer => ?_, h.cleaning, h.fresh⟩
    · cases hidle.symm.trans hrun
    · obtain ⟨hbound, hbefore, hrunning⟩ := h.peer peer hpeer
      exact ⟨hbound, fun r' hr' => hbefore r' (hrest r' hr'), hrunning⟩
  · refine ⟨hsorted.of_cons, fun r' hr' => ?_, fun run hrun => ?_, fun peer hpeer => ?_,
      fun stop _ _ hnow => ?_, h.fresh⟩
    · have hbound := h.bounded r' (hrest r' hr')
      exact ⟨hbound.1, Nat.le_succ_of_le hbound.2⟩
    · cases hrun
      exact ⟨(h.bounded r hfirst).1, fun r' hr' => rel_of_pairwise_cons hsorted hr'⟩
    · obtain ⟨hbound, hbefore, -⟩ := h.peer peer hpeer
      refine ⟨hbound, fun r' hr' => hbefore r' (hrest r' hr'), fun run hrun => ?_⟩
      cases hrun
      exact Nat.le_of_lt (hbefore r hfirst)
    · cases hstop.symm.trans hnow

theorem startFailed_keeps (run : StartRun) : (s.startFailed run).1.queue = s.queue ∧
    (s.startFailed run).1.nextStart = s.nextStart ∧
    ((s.startFailed run).1.peerConnection = s.peerConnection ∨ (s.startFailed run).1.peerConnection = none) ∧
    (s.startFailed run).1.captureEpoch = s.captureEpoch + 1 ∧ (s.startFailed run).1.nextId = s.nextId := by
  unfold Capture.startFailed
  split
  · exact ⟨rfl, rfl, .inl rfl, rfl, rfl⟩
  · obtain ⟨hqueue, hnext, -, hpeer, hepoch, hid, -⟩ := stopScreenSharing_keeps
      (.cleanup run.id (decide (run.epoch ≠ s.captureEpoch))) run.session
    exact ⟨hqueue, hnext, hpeer, hepoch, hid⟩

theorem startFailed_running (run : StartRun) :
    (s.startFailed run).1.running = none ∧ (s.startFailed run).1.stopping = s.stopping ∧
    s.stopping.isSome = true ∨ (s.startFailed run).1.running = some { run with pc := .cleanup } ∧
      ∃ stop cancelled, (s.startFailed run).1.stopping = some stop ∧ stop.caller = .cleanup run.id cancelled := by
  unfold Capture.startFailed
  cases hstop : s.stopping with
  | some => exact .inl ⟨rfl, rfl, rfl⟩
  | none =>
    dsimp only [Option.isSome_none]
    rw [if_neg Bool.false_ne_true]
    obtain ⟨-, -, hrunning, -⟩ := stopScreenSharing_keeps
      (.cleanup run.id (decide (run.epoch ≠ s.captureEpoch))) run.session
    obtain ⟨stop, hbegun, -, hcaller⟩ := stopScreenSharing_begins (s := s.startGoesOn run .cleanup) hstop
      (.cleanup run.id (decide (run.epoch ≠ s.captureEpoch))) run.session
    exact .inr ⟨hrunning, stop, _, hbegun, hcaller⟩

theorem startFailed_ordered (h : s.Ordered) (hrun : s.running = some run) (hpc : run.pc ≠ .cleanup) :
    (s.startFailed run).1.Ordered := by
  obtain ⟨hqueue, hnext, hpeer, hepoch, hnextId⟩ := startFailed_keeps (s := s) run
  have hrunning := startFailed_running (s := s) run
  have hid : ∀ run', (s.startFailed run).1.running = some run' → run'.id = run.id := by
    intro run' hrun'
    obtain ⟨hnone, -, -⟩ | ⟨hsome, -⟩ := hrunning
    · cases hnone.symm.trans hrun'
    · rw [← Option.some.inj (hsome.symm.trans hrun')]
  refine ⟨by rw [hqueue]; exact h.queued, ?_, ?_, ?_, ?_, ?_⟩
  · rw [hqueue, hnext, hepoch]
    intro r hr
    exact ⟨(h.bounded r hr).1, Nat.le_succ_of_le (h.bounded r hr).2⟩
  · rw [hqueue, hnext]
    intro run' hrun'
    rw [hid run' hrun']
    exact h.runs run hrun
  · rw [hqueue, hnext]
    intro peer hsome
    obtain hsame | hnone := hpeer
    · obtain ⟨hbound, hbefore, hle⟩ := h.peer peer (hsame ▸ hsome)
      refine ⟨hbound, hbefore, fun run' hrun' => ?_⟩
      rw [hid run' hrun']
      exact hle run hrun
    · cases hnone.symm.trans hsome
  · intro stop start cancelled hstop hcaller
    obtain ⟨-, hsame, -⟩ | ⟨hsome, stop', cancelled', hstop', hcaller'⟩ := hrunning
    · -- The stop that runs is not of this start, which does not wait for one.
      rw [hsame] at hstop
      obtain ⟨run', hrun', -, hcleaning⟩ := h.cleaning stop start cancelled hstop hcaller
      cases hrun.symm.trans hrun'
      exact absurd hcleaning hpc
    · cases hstop'.symm.trans hstop
      obtain ⟨rfl, -⟩ := StopCaller.cleanup.inj (hcaller'.symm.trans hcaller)
      exact ⟨_, hsome, rfl, rfl⟩
  · rw [hnextId]
    intro peer hsome
    obtain hsame | hnone := hpeer
    · exact h.fresh peer (hsame ▸ hsome)
    · cases hnone.symm.trans hsome

theorem goesOn_ordered (h : s.Ordered) (hrun : s.running = some run) (hpc : run.pc ≠ .cleanup)
    (hqueue : t.queue = s.queue) (hnext : t.nextStart = s.nextStart)
    (hepoch : t.captureEpoch = s.captureEpoch) (hstopping : t.stopping = s.stopping)
    (hrunning : ∀ run', t.running = some run' → run'.id = run.id)
    (hpeer : ∀ peer, t.peerConnection = some peer → s.peerConnection = some peer ∨ peer.start = run.id)
    (hfresh : ∀ peer, t.peerConnection = some peer → peer.id < t.nextId) : t.Ordered := by
  obtain ⟨hbound, hbefore⟩ := h.runs run hrun
  refine ⟨by rw [hqueue]; exact h.queued, by rw [hqueue, hnext, hepoch]; exact h.bounded, ?_, ?_, ?_, hfresh⟩
  · rw [hqueue, hnext]
    intro run' hrun'
    rw [hrunning run' hrun']
    exact ⟨hbound, hbefore⟩
  · rw [hqueue, hnext]
    intro peer hsome
    obtain hsame | hown := hpeer peer hsome
    · obtain ⟨hlt, hfirst, hle⟩ := h.peer peer hsame
      refine ⟨hlt, hfirst, fun run' hrun' => ?_⟩
      rw [hrunning run' hrun']
      exact hle run hrun
    · rw [hown]
      exact ⟨hbound, hbefore, fun run' hrun' => Nat.le_of_eq (hrunning run' hrun').symm⟩
  · intro stop start cancelled hstop hcaller
    rw [hstopping] at hstop
    obtain ⟨run', hrun', -, hcleaning⟩ := h.cleaning stop start cancelled hstop hcaller
    cases hrun.symm.trans hrun'
    exact absurd hcleaning hpc

theorem startResumed_cases (h : s.Ordered) (hrun : s.running = some run) (hpc : run.pc ≠ .cleanup)
    (ok : Bool) : (s.startResumed run ok).1.Ordered := by
  have hown : ∀ run' : StartRun, ∀ pc, some { run with pc } = some run' → run'.id = run.id := by
    intro run' pc hrun'
    rw [← Option.some.inj hrun']
  have hnewPeer : (s.withNewPeer run).Ordered := by
    refine goesOn_ordered h hrun hpc rfl rfl rfl rfl (fun run' hrun' => ?_) (fun peer hpeer => .inr ?_)
      fun peer hpeer => ?_
    · rw [← Option.some.inj (hrun.symm.trans hrun')]
    · rw [← Option.some.inj (show some _ = some peer from hpeer)]
    · rw [← Option.some.inj (show some _ = some peer from hpeer)]
      exact Nat.lt_succ_self _
  have hgoesOn : ∀ u : Capture, u.Ordered → u.running = some run → ∀ pc, (u.startGoesOn run pc).Ordered := by
    intro u hu hrun' pc
    exact goesOn_ordered hu hrun' hpc rfl rfl rfl rfl (fun run' hsome => hown run' pc hsome)
      (fun peer hpeer => .inl hpeer) hu.fresh
  unfold Capture.startResumed
  split
  · have hknown : Capture.Ordered { s with iceServersKnown := ok } :=
      ⟨h.queued, h.bounded, h.runs, h.peer, h.cleaning, h.fresh⟩
    split
    · exact hgoesOn _ hknown hrun _
    · exact startFailed_ordered hknown hrun hpc
  · split
    · exact startFailed_ordered h hrun hpc
    · split
      · have hcallbacks : (s.withNewPeer run).withCallbacks.Ordered :=
          ⟨hnewPeer.queued, hnewPeer.bounded, hnewPeer.runs, hnewPeer.peer, hnewPeer.cleaning, hnewPeer.fresh⟩
        exact hgoesOn _ hcallbacks hrun _
      · exact startFailed_ordered hnewPeer hrun hpc
  · split
    · split
      · have hchannel : (s.setupDataChannel run.session).Ordered :=
          ⟨h.queued, h.bounded, h.runs, h.peer, h.cleaning,
            fun peer hpeer => Nat.lt_succ_of_lt (h.fresh peer hpeer)⟩
        exact hgoesOn _ hchannel hrun _
      · exact hgoesOn _ h hrun _
    · exact startFailed_ordered h hrun hpc
  · split
    · exact hgoesOn _ h hrun _
    · exact startFailed_ordered h hrun hpc
  · split
    · exact hgoesOn _ h hrun _
    · exact startFailed_ordered h hrun hpc
  · split
    · exact hgoesOn _ h hrun _
    · exact startFailed_ordered h hrun hpc
  · split
    · exact hgoesOn _ h hrun _
    · exact startFailed_ordered h hrun hpc
  · split
    · refine goesOn_ordered h hrun hpc rfl rfl rfl rfl (fun run' hrun' => ?_) (fun peer hpeer => .inl hpeer) h.fresh
      cases hrun'
    · exact startFailed_ordered h hrun hpc
  · exact h

theorem stopResumed_ordered {stop : StopRun} (h : s.Ordered) (hstop : s.stopping = some stop) :
    (s.stopResumed stop).Ordered := by
  unfold Capture.stopResumed
  split
  · exact h.quiet (resetSession_quiet hstop)
  · exact h.quiet (closePeer_quiet hstop)
  · refine h.quiet ⟨rfl, rfl, rfl, .inl rfl, Nat.le_refl _, Nat.le_refl _,
      fun stop' start cancelled hnow hcaller => ?_⟩
    cases hnow
    exact ⟨stop, hstop, hcaller⟩
  · unfold Capture.stopFinished
    split
    · exact ⟨h.queued, h.bounded, h.runs, h.peer, nofun, h.fresh⟩
    · exact ⟨h.queued, h.bounded, h.runs, h.peer, nofun, h.fresh⟩
    · refine ⟨h.queued, h.bounded, nofun, fun peer hpeer => ?_,
        nofun, h.fresh⟩
      obtain ⟨hbound, hbefore, -⟩ := h.peer peer hpeer
      exact ⟨hbound, hbefore, nofun⟩

theorem leaves_of_step {a : CaptureAction} (hstart : ∀ sessionId, a ≠ .startScreenSharing sessionId)
    (hturn : a ≠ .startTurn) (hresumed : ∀ ok, a ≠ .startResumed ok) (hstop : a ≠ .stopResumed)
    (hstep : s.step a = some (t, fs)) : s.Leaves (t, fs) := by
  cases a with
  | setRequested | setAuthorizing | clearError | elapse =>
    rw [← Option.some.inj hstep]
    exact leaves_nil (quiet_of_eq rfl (Nat.le_refl _))
  | setLinkHostedSession sessionId active =>
    rw [← Option.some.inj hstep]
    exact leaves_nil (setLinkHostedSession_quiet sessionId active)
  | startScreenSharing sessionId => exact absurd rfl (hstart sessionId)
  | stopScreenSharing =>
    rw [← Option.some.inj hstep]
    exact stopScreenSharing_leaves (fun _ _ h => StopCaller.noConfusion h) s.sessions
  | renegotiate channelOpen =>
    rw [← Option.some.inj hstep]
    exact renegotiate_leaves channelOpen
  | startTurn => exact absurd rfl hturn
  | startResumed ok => exact absurd rfl (hresumed ok)
  | stopResumed => exact absurd rfl hstop
  | failResumed =>
    unfold Capture.step at hstep
    dsimp only at hstep
    split at hstep
    · rw [← Option.some.inj hstep]
      exact leaves_nil (quiet_of_eq rfl (Nat.le_refl _))
    · simp at hstep
  | renegotiated index ok =>
    obtain ⟨session, -, hr⟩ := Option.bind_eq_some_iff.mp hstep
    rw [← Option.some.inj hr]
    exact renegotiated_leaves index session ok
  | peerState peer state =>
    obtain ⟨-, -, hr⟩ := Option.bind_eq_some_iff.mp hstep
    rw [← Option.some.inj hr]
    exact onConnectionState_leaves peer.session state
  | channelOpened =>
    obtain ⟨-, -, hr⟩ := Option.bind_eq_some_iff.mp hstep
    rw [← Option.some.inj hr]
    exact leaves_nil (quiet_of_eq rfl (Nat.le_succ _))
  | channelMessage channel =>
    obtain ⟨-, -, hr⟩ := Option.bind_eq_some_iff.mp hstep
    rw [← Option.some.inj hr]
    split
    · exact stopScreenSharing_leaves (fun _ _ h => StopCaller.noConfusion h) channel.session
    · exact leaves_nil (.rfl' s)
  | establishmentTimer =>
    obtain ⟨timer, -, -, hr⟩ := guarded_eq_some hstep
    rw [← hr]
    exact (timer_leaves 0).1
  | establishmentDeadlineTimer =>
    obtain ⟨timer, -, -, hr⟩ := guarded_eq_some hstep
    rw [← hr]
    exact (timer_leaves 0).2.1
  | disconnectedTimer =>
    obtain ⟨timer, -, -, hr⟩ := guarded_eq_some hstep
    rw [← hr]
    exact (timer_leaves 0).2.2.1
  | retryTimer index =>
    obtain ⟨timer, -, -, hr⟩ := guarded_eq_some hstep
    rw [← hr]
    exact (timer_leaves index).2.2.2
  | leaseTick =>
    obtain ⟨timer, -, -, hr⟩ := guarded_eq_some hstep
    rw [← hr]
    refine .after ?_ (onLeaseTick_leaves timer.session)
    exact quiet_of_eq rfl (Nat.le_refl _)
  | leaseReply _ reply =>
    obtain ⟨session, -, hr⟩ := Option.bind_eq_some_iff.mp hstep
    rw [← Option.some.inj hr]
    refine .after ?_ (onLeaseReply_leaves session reply)
    exact quiet_of_eq rfl (Nat.le_refl _)

theorem step_ordered {a : CaptureAction} (h : s.Ordered) (hstep : s.step a = some (t, fs)) : t.Ordered := by
  by_cases hstart : ∃ sessionId, a = .startScreenSharing sessionId
  · obtain ⟨sessionId, rfl⟩ := hstart
    obtain rfl := congrArg Prod.fst (Option.some.inj hstep)
    exact startScreenSharing_ordered h sessionId
  by_cases hturn : a = .startTurn
  · obtain rfl := hturn
    unfold Capture.step at hstep
    dsimp only at hstep
    split at hstep
    · rename_i r rest hqueue hidle hstop
      obtain rfl := congrArg Prod.fst (Option.some.inj hstep)
      exact startTurn_ordered h hqueue hidle hstop
    · simp at hstep
  by_cases hresumed : ∃ ok, a = .startResumed ok
  · obtain ⟨ok, rfl⟩ := hresumed
    obtain ⟨run, hrun, hrest⟩ := Option.bind_eq_some_iff.mp hstep
    obtain ⟨u, hpc, hr⟩ := Option.bind_eq_some_iff.mp hrest
    obtain rfl := congrArg Prod.fst (Option.some.inj hr)
    exact startResumed_cases h hrun ((Option.guard_eq_some' _).mp hpc) ok
  by_cases hstop : a = .stopResumed
  · obtain rfl := hstop
    obtain ⟨stop, hstopping, hr⟩ := Option.bind_eq_some_iff.mp hstep
    obtain rfl := congrArg Prod.fst (Option.some.inj hr)
    exact stopResumed_ordered h hstopping
  · have hleaves := leaves_of_step (fun sessionId ha => hstart ⟨sessionId,
      ha⟩) hturn (fun ok ha => hresumed ⟨ok, ha⟩)
      hstop hstep
    exact h.quiet hleaves.quiet

/-! ## The cleanup -/

theorem cleanup_mem_startFailed {u : Capture} {start : ℕ} :
    .cleanup start true ∈ (u.startFailed run).2 ↔ start = run.id ∧ run.epoch ≠ u.captureEpoch := by
  have hevents : (u.startFailed run).2 = .cleanup run.id (decide (run.epoch ≠ u.captureEpoch)) ::
      if u.stopping.isSome then [] else [.stopping] := by
    unfold Capture.startFailed
    cases hstop : u.stopping with
    | some => rfl
    | none =>
      dsimp only [Option.isSome_none]
      rw [if_neg Bool.false_ne_true, if_neg Bool.false_ne_true, stopScreenSharing_events]
      show _ :: (if u.stopping.isSome then [] else [CaptureEvent.stopping]) = _
      rw [hstop]
      rfl
  rw [hevents, mem_cons]
  constructor
  · rintro (hfirst | hrest)
    · obtain ⟨hid, hcancelled⟩ := CaptureEvent.cleanup.inj hfirst
      exact ⟨hid, of_decide_eq_true hcancelled.symm⟩
    · split at hrest
      · cases hrest
      · exact CaptureEvent.noConfusion (mem_singleton.mp hrest)
  · rintro ⟨rfl, hcancelled⟩
    exact .inl (by rw [decide_eq_true hcancelled])

theorem startResumed_fails (hpc : run.pc ≠ .cleanup) (ok : Bool) :
    (∃ u : Capture, s.startResumed run ok = u.startFailed run ∧ u.queue = s.queue ∧
      u.captureEpoch = s.captureEpoch ∧ u.running = s.running ∧
      (∀ peer, u.peerConnection = some peer → s.peerConnection = some peer ∨ peer.start = run.id) ∧
      s.failsNow run ok = true) ∨
    ((∀ start, .cleanup start true ∉ (s.startResumed run ok).2) ∧
      (run.epoch ≠ s.captureEpoch → s.failsNow run ok = false)) := by
  have hsame : ∀ peer, s.peerConnection = some peer → s.peerConnection = some peer ∨ peer.start = run.id :=
    fun peer hpeer => .inl hpeer
  have hnil : ∀ start : ℕ, CaptureEvent.cleanup start true ∉ ([] : List CaptureEvent) :=
    fun start hmem => absurd hmem not_mem_nil
  have hcurrent : s.hasEpoch run = true → run.epoch ≠ s.captureEpoch → ∀ b : Bool, b = false := by
    intro hepoch hcancelled
    exact absurd (of_decide_eq_true hepoch).1 hcancelled
  obtain ⟨id, session, epoch, pc⟩ := run
  unfold Capture.startResumed
  cases pc with
  | iceServers | createChannel | sources | sendOffer =>
    dsimp only
    split
    · rename_i hepoch
      exact .inr ⟨hnil, fun hcancelled => hcurrent hepoch hcancelled _⟩
    · exact .inl ⟨_, rfl, rfl, rfl, rfl, hsame, rfl⟩
  | createPeer =>
    dsimp only
    split
    · exact .inl ⟨_, rfl, rfl, rfl, rfl, hsame, rfl⟩
    · split
      · rename_i hepoch
        exact .inr ⟨hnil, fun hcancelled => hcurrent hepoch hcancelled _⟩
      · refine .inl ⟨_, rfl, rfl, rfl, rfl, fun peer hpeer => .inr ?_, rfl⟩
        rw [← Option.some.inj (show some _ = some peer from hpeer)]
  | displayMedia =>
    dsimp only
    split
    · rename_i hepoch
      exact .inr ⟨hnil, fun hcancelled => hcurrent (Bool.and_eq_true_iff.mp hepoch).2 hcancelled _⟩
    · exact .inl ⟨_, rfl, rfl, rfl, rfl, hsame, rfl⟩
  | addTracks =>
    dsimp only
    split
    · rename_i hpasses
      refine .inr ⟨hnil, fun _ => ?_⟩
      show (!(ok && s.peerConnection.isSome)) = false
      rw [hpasses]
      rfl
    · rename_i hfails
      refine .inl ⟨_, rfl, rfl, rfl, rfl, hsame, ?_⟩
      show (!(ok && s.peerConnection.isSome)) = true
      rw [Bool.eq_false_iff.mpr hfails]
      rfl
  | tuning =>
    dsimp only
    split
    · rename_i hepoch
      refine .inr ⟨fun start hmem => ?_, fun hcancelled => hcurrent hepoch hcancelled _⟩
      exact (leaves_sendOffer (.rfl' s)).noCleanup start true hmem
    · exact .inl ⟨_, rfl, rfl, rfl, rfl, hsame, rfl⟩
  | cleanup => exact absurd rfl hpc

theorem stopResumed_keeps (stop : StopRun) :
    (s.stopResumed stop).queue = s.queue ∧ (s.stopResumed stop).captureEpoch = s.captureEpoch := by
  unfold Capture.stopResumed
  split
  · obtain ⟨hqueue, -, -, -, hepoch, -, -⟩ := resetSession_keeps (s := s) stop
    exact ⟨hqueue, hepoch⟩
  · exact ⟨rfl, rfl⟩
  · exact ⟨rfl, rfl⟩
  · unfold Capture.stopFinished
    split
    · exact ⟨rfl, rfl⟩
    · exact ⟨rfl, rfl⟩
    · exact ⟨rfl, rfl⟩

theorem resumed_of_cleanup {a : CaptureAction} {start : ℕ} (hstep : s.step a = some (t, fs))
    (hmem : .cleanup start true ∈ fs) : ∃ ok, a = .startResumed ok := by
  by_contra hresumed
  have hother : ∀ ok, a ≠ .startResumed ok := fun ok ha => hresumed ⟨ok, ha⟩
  by_cases hstart : ∃ sessionId, a = .startScreenSharing sessionId
  · obtain ⟨sessionId, rfl⟩ := hstart
    obtain rfl := congrArg Prod.snd (Option.some.inj hstep)
    cases hmem
  by_cases hturn : a = .startTurn
  · obtain rfl := hturn
    unfold Capture.step at hstep
    dsimp only at hstep
    split at hstep
    · obtain rfl := congrArg Prod.snd (Option.some.inj hstep)
      unfold Capture.startTurn at hmem
      split at hmem
      · exact CaptureEvent.noConfusion (mem_singleton.mp hmem)
      · cases hmem
    · simp at hstep
  by_cases hstop : a = .stopResumed
  · obtain rfl := hstop
    obtain ⟨stop, -, hr⟩ := Option.bind_eq_some_iff.mp hstep
    obtain rfl := congrArg Prod.snd (Option.some.inj hr)
    cases hmem
  · have hleaves := leaves_of_step (fun sessionId ha => hstart ⟨sessionId, ha⟩) hturn hother hstop hstep
    exact hleaves.noCleanup start true hmem

/-- A newer start is kept by a step exactly where none waits that would end it. -/
theorem newerKept_iff (h : s.Ordered) (a : CaptureAction) : s.NewerKept a ↔ s.NoneWaits a := by
  constructor
  · rintro hkept ok run rfl hrun hcancelled hfails r hr hlive
    have hpc : run.pc ≠ .cleanup := by
      intro hpc
      unfold Capture.failsNow at hfails
      rw [hpc] at hfails
      cases hfails
    have hstep : s.step (.startResumed ok) = some (s.startResumed run ok) := by
      show (s.running >>= fun run => guard (run.pc ≠ .cleanup) >>= fun _ => pure (s.startResumed run ok)) = _
      rw [hrun]
      show (guard (run.pc ≠ .cleanup) >>= fun _ => pure (s.startResumed run ok) : Option Outcome) = _
      rw [(Option.guard_eq_some' ()).mpr hpc]
      rfl
    obtain ⟨u, heq, hqueue, hepoch, hrunning, hpeer, -⟩ | ⟨-, hgoes⟩ := startResumed_fails (s := s) hpc ok
    · rw [heq] at hstep
      have hcleanup : .cleanup run.id true ∈ (u.startFailed run).2 :=
        cleanup_mem_startFailed.mpr ⟨rfl, by rw [hepoch]; exact hcancelled⟩
      have hnewer : run.id < r.id := (h.runs run hrun).2 r hr
      have hlives : (u.startFailed run).1.LivesOn r.id :=
        hkept _ (u.startFailed run).2 hstep run.id (.inl hcleanup) r.id hnewer (.inl ⟨r, hr, rfl, hlive⟩)
      obtain ⟨hq, -, hp, he, -⟩ := startFailed_keeps (s := u) run
      obtain ⟨r', hr', -, hexpected⟩ | ⟨run', hrun', hid, -⟩ | ⟨peer, hsome, hstart⟩ := hlives
      · -- Nobody waits with an epoch that has only now begun.
        have hbound := (h.bounded r' (by rw [hq, hqueue] at hr'; exact hr')).2
        rw [he, hepoch] at hexpected
        omega
      · obtain ⟨hnone, -⟩ | ⟨hcleaning, -⟩ := startFailed_running (s := u) run
        · cases hnone.symm.trans hrun'
        · have hsame : run'.id = run.id := by rw [← Option.some.inj (hcleaning.symm.trans hrun')]
          omega
      · obtain hsame | hnone := hp
        · obtain hold | hown := hpeer peer (hsame ▸ hsome)
          · have hle := (h.peer peer hold).2.2 run hrun
            omega
          · omega
        · cases hnone.symm.trans hsome
    · exact absurd (hgoes hcancelled) (by rw [hfails]; simp)
  · intro hnone t fs hstep start hcleans newer hnewer hlives
    obtain hmem | ⟨rfl, stop, hstop, hcaller⟩ := hcleans
    · obtain ⟨ok, rfl⟩ := resumed_of_cleanup hstep hmem
      obtain ⟨run, hrun, hrest⟩ := Option.bind_eq_some_iff.mp hstep
      obtain ⟨u, hpc, hr⟩ := Option.bind_eq_some_iff.mp hrest
      have hresumed : s.startResumed run ok = (t, fs) := Option.some.inj hr
      have hpc := (Option.guard_eq_some' _).mp hpc
      obtain ⟨u, heq, -, hepoch, -, -, hfails⟩ | ⟨hno, -⟩ := startResumed_fails (s := s) hpc ok
      · rw [← show _ = fs from congrArg Prod.snd (heq.symm.trans hresumed)] at hmem
        obtain ⟨rfl, hcancelled⟩ := cleanup_mem_startFailed.mp hmem
        rw [hepoch] at hcancelled
        obtain ⟨r, hr, -, hexpected⟩ | ⟨run', hrun', hid, -⟩ | ⟨peer, hsome, hstart⟩ := hlives
        · exact absurd hexpected (hnone ok run rfl hrun hcancelled hfails r hr)
        · cases hrun.symm.trans hrun'
          omega
        · have hle := (h.peer peer hsome).2.2 run hrun
          omega
      · rw [hresumed] at hno
        exact absurd hmem (hno start)
    · obtain ⟨run, hrun, hid, -⟩ := h.cleaning stop start true hstop hcaller
      obtain ⟨stop', hstop', hr⟩ := Option.bind_eq_some_iff.mp hstep
      obtain rfl := congrArg Prod.fst (Option.some.inj hr)
      obtain ⟨hqueue, hepoch⟩ := stopResumed_keeps (s := s) stop'
      obtain ⟨r, hr, hid', hexpected⟩ | ⟨run', hrun', hid', -⟩ | ⟨peer, hsome, hstart⟩ := hlives
      · refine .inl ⟨r, ?_, hid', ?_⟩
        · rw [hqueue]
          exact hr
        · rw [hepoch]
          exact hexpected
      · cases hrun.symm.trans hrun'
        omega
      · have hle := (h.peer peer hsome).2.2 run hrun
        omega

theorem ordered_start (serviceHost : Bool) : Capture.Ordered { serviceHost } := by
  refine ⟨List.Pairwise.nil, fun r hr => absurd hr not_mem_nil, fun run hrun => ?_, fun peer hpeer => ?_,
    fun stop _ _ hstop => ?_, fun peer hpeer => ?_⟩
  · cases hrun
  · cases hpeer
  · cases hstop
  · cases hpeer

/-- In a run of the service no cleanup of a start that was cancelled harms a newer start if and only if none
waits when such a start fails. -/
theorem newer_start_wins_iff (serviceHost : Bool) (as : List CaptureAction) :
    supportService.Every (fun s _ a => s.NewerKept a) { serviceHost } [] as ↔
      supportService.Every (fun s _ a => s.NoneWaits a) { serviceHost } [] as :=
  Machine.every_iff (fun s _ => s.Ordered) (fun _ _ _ _ _ h _ hstep => step_ordered h hstep)
    (fun _ _ a h => newerKept_iff h a)
    as _ [] (ordered_start serviceHost)

/-- In every run the starts have their turns in the order of the requests. -/
theorem starts_in_turn (serviceHost : Bool) (as : List CaptureAction) :
    supportService.Every (fun s _ _ => s.Ordered) { serviceHost } [] as :=
  Machine.every_of_reach (fun hrun => hrun.invariant (fun s _ => s.Ordered) (ordered_start serviceHost)
    fun _ _ _ _ _ h _ hstep => step_ordered h hstep) as .start

/-- A start is stopped while it asks for its servers, and another is requested. -/
def startedAgain : List CaptureAction :=
  [.startScreenSharing "sess-1", .startTurn, .stopScreenSharing, .stopResumed, .startScreenSharing "sess-2"]

/-- The cleanup of the start that was stopped cancels the new one. -/
theorem newer_start_cancelled : ¬∀ (serviceHost : Bool) (as : List CaptureAction),
    supportService.Every (fun s _ a => s.NewerKept a) { serviceHost } [] as := by
  intro hclaim
  have hrun : (supportService.exec (fun _ _ _ => true) {} [] startedAgain).any (fun r => decide
      (r.1.running = some ⟨0, 1, 1, .iceServers⟩ ∧ r.1.captureEpoch = 2 ∧
        r.1.queue = [⟨1, 2, "sess-2", 2⟩])) = true := by decide +kernel
  obtain ⟨⟨s, es⟩, hexec, hshape⟩ := (Option.any_eq_true ..).mp hrun
  obtain ⟨hrunning, hepoch, hqueue⟩ := of_decide_eq_true hshape
  obtain ⟨_, rfl, hpath⟩ := Machine.path_of_exec _ hexec
  have hkept := Machine.Every.good hpath (hclaim false (startedAgain ++ [.startResumed true]))
  have hordered : s.Ordered := by
    have hreach : supportService.Reach (fun _ _ _ => True) {} s _ :=
      Machine.reach_of_exec (fun _ _ _ _ => trivial) hexec
    exact hreach.invariant (fun s _ => s.Ordered) (ordered_start false) fun _ _ _ _ _ h _ hs => step_ordered h hs
  have hnone := (newerKept_iff hordered (.startResumed true)).mp hkept true _ rfl hrunning
    (by rw [hepoch]; decide) rfl ⟨1, 2, "sess-2", 2⟩ (by rw [hqueue]; exact mem_singleton_self _)
  exact hnone hepoch.symm

end Starts

end LigamentApps.SupportService
