import LigamentApps.CallSession.CallSessionManager

/-!
# What a finished call still does

The timers, the methods that wait and the callbacks of a call outlive it. Some ask whether their call is still
the current one, some ask for the status or for the connection only, and some ask nothing: the conditions
below say, for each of them, when it leaves the call that is the current one by then alone. -/

namespace LigamentApps.CallSession

variable {timer : CallTimer} {index : ℕ} (s : CallSessionManager) (kind : SetupKind) (peer : ℕ)

/-- Whether a setup whose call is over returns, and runs its `finally` block, when the reply comes. -/
def SetupStage.ends (reply : Reply) : SetupStage → Bool
  | .media wantVideo => !(reply.failed && wantVideo)
  | .peer _ => reply.failed
  | .candidates _ (some _) => false
  | _ => true

namespace CallSessionManager

/-- What holds of the timers of the current call. -/
def OwnTimers (s : CallSessionManager) (p : CallTimer → Prop) : Prop :=
  ∀ timer ∈ s.armed, timer.callId = s.currentCallId → p timer

/-- The fields of the manager, what is open and the timers of the current call are as they were, and nothing
was sent or given to a connection. -/
structure Untouched (s : CallSessionManager) (r : Outcome) : Prop where
  fields : r.1.toCallFields = s.toCallFields
  quiet : r.2 = []
  peers : r.1.openPeers = s.openPeers
  captures : r.1.openCaptures = s.openCaptures
  containers : r.1.openContainers = s.openContainers
  timers : s.OwnTimers (· ∈ r.1.armed)

/-- The end of a call would find nothing to end. -/
def AtRest (s : CallSessionManager) : Prop :=
  s.toCallFields = { isVideo := s.isVideo, isCameraOff := s.isCameraOff } ∧
    s.OwnTimers fun timer => endsWithCall timer.kind = false

/-- When a timer of a call that is over does nothing. -/
def TimerHarmless (s : CallSessionManager) : TimerKind → Prop
  | .outgoingRing | .reconnect => True
  | .incomingRing => s.status ≠ .incoming
  | .call => False
  | .candidateBatch =>
    (s.outgoingCandidateBatch = [] ∨ s.targetUserId = "") ∧ s.OwnTimers (·.kind ≠ .candidateBatch)
  | .offlineEnd => s.status ≠ .offline
  | .busyEnd => s.AtRest

/-- When handing on candidates does nothing. -/
def FlushHarmless (s : CallSessionManager) (flush : Flush) : Prop :=
  flush.left = [] ∨ s.peerConnection ≠ some flush.peer

/-- When a setup of a call that is over does nothing. -/
structure SetupHarmless (s : CallSessionManager) (kind : SetupKind) (stage : SetupStage) (reply : Reply) :
    Prop where
  /-- The fallback of `_acquireUserMedia` turns the video off. -/
  fallback : stage = .media true → reply.failed = true → s.isVideo = false ∧ s.isCameraOff = true
  flush : ∀ peer flush, stage = .candidates peer (some flush) → s.FlushHarmless flush
  /-- The `finally` block clears the accept guard. -/
  guard : kind = .accepting → stage.ends reply = true → s.isAcceptingCall = false

/-- When `performIceRestart` of a call that is over does nothing. -/
def IceRestartHarmless (s : CallSessionManager) (peer : ℕ) (reply : Reply) : Option String → Prop
  | none => (reply.failed = true ∨ s.peerConnection ≠ some peer ∨ s.status ≠ .connected) ∧ s.isRestartingIce = false
  | some sdp => s.isRestartingIce = false ∧ (reply.failed = true ∨ s.localSdp = sdp ∧ s.targetUserId = "")

/-- When a remote description that is set for a call that is over does nothing more. -/
def DescribedHarmless (s : CallSessionManager) (peer : ℕ) (reply : Reply) : Prop :=
  reply.failed = true ∨ s.peerConnection ≠ some peer ∨
    s.remoteDescriptionSet = true ∧ s.remoteIceCandidateQueue = []

/-- When `handleAnswer` of a call that is over does nothing. -/
def AnswerHarmless (s : CallSessionManager) (peer : ℕ) (reply : Reply) : AnswerStage → Prop
  | .remoteDescription => s.DescribedHarmless peer reply
  | .candidates (some flush) => s.FlushHarmless flush
  | .candidates none => s.OwnTimers fun timer => ringTimeout timer.kind = false ∧ timer.kind ≠ .reconnect

/-- When `_handleOfferRenegotiation` of a call that is over does nothing. -/
def RenegotiationHarmless (s : CallSessionManager) (peer : ℕ) (reply : Reply) : RenegotiationStage → Prop
  | .remoteDescription => s.DescribedHarmless peer reply
  | .candidates (some flush) => s.FlushHarmless flush
  | .candidates none => True
  | .answer => reply.failed = true ∨ s.peerConnection ≠ some peer
  | .answerDescription sdp => reply.failed = true ∨ s.localSdp = sdp ∧ s.targetUserId = ""

/-- When `onTrack` of a call that is over does nothing. -/
def TrackHarmless (s : CallSessionManager) (reply : Reply) : TrackStage → Prop
  | .making _ => reply.failed = true
  | .volume remote => reply.answer = true → s.remoteStream = some remote
  | .adding remote => s.remoteStream = some remote

/-- When a method of a call that is over does nothing. -/
def WorkHarmless (s : CallSessionManager) (reply : Reply) : Work → Prop
  | .setup kind stage => s.SetupHarmless kind stage reply
  | .iceRestart peer sdp => s.IceRestartHarmless peer reply sdp
  | .answer peer stage => s.AnswerHarmless peer reply stage
  | .renegotiation peer stage => s.RenegotiationHarmless peer reply stage
  | .track stage => s.TrackHarmless reply stage

variable {s : CallSessionManager} {callId : Option ℕ}

theorem untouched_self : s.Untouched (s, []) :=
  ⟨rfl, rfl, rfl, rfl, rfl, fun _ htimer _ => htimer⟩

@[simp] theorem untouched_await_iff (t : CallSessionManager) (es : List CallEvent) (work : Work) :
    s.Untouched (t.await callId work, es) ↔ s.Untouched (t, es) :=
  ⟨fun h => ⟨h.1, h.2, h.3, h.4, h.5, h.6⟩, fun h => ⟨h.1, h.2, h.3, h.4, h.5, h.6⟩⟩

theorem not_untouched_cons {t : CallSessionManager} {e : CallEvent} {es : List CallEvent} :
    ¬s.Untouched (t, e :: es) :=
  fun h => nomatch h.quiet

theorem untouched_fields_iff (fields : CallFields) :
    s.Untouched ({ s with toCallFields := fields }, []) ↔ fields = s.toCallFields :=
  ⟨fun h => h.fields, fun h => ⟨h, rfl, rfl, rfl, rfl, fun _ htimer _ => htimer⟩⟩

theorem isStillActive_eq_false (h : callId ≠ s.currentCallId) : s.isStillActive callId = false := by
  simp [isStillActive, h.symm]

theorem untouched_cancel_iff (kinds : TimerKind → Bool) :
    s.Untouched (s.cancel kinds, []) ↔ s.OwnTimers fun timer => kinds timer.kind = false := by
  have hmem : ∀ timer ∈ s.armed, timer ∈ (s.cancel kinds).armed ↔ kinds timer.kind = false := by
    intro timer htimer
    simp [cancel, htimer]
  constructor
  · intro h timer htimer hown
    exact (hmem timer htimer).mp (h.timers timer htimer hown)
  · intro h
    refine ⟨rfl, rfl, rfl, rfl, rfl, fun timer htimer hown => ?_⟩
    exact (hmem timer htimer).mpr (h timer htimer hown)

theorem untouched_finishSetup_iff :
    s.Untouched (s.finishSetup kind, []) ↔ (kind = .accepting → s.isAcceptingCall = false) := by
  cases kind with
  | outgoing => exact iff_of_true s.untouched_self (fun h => nomatch h)
  | accepting =>
    refine (untouched_fields_iff { s.toCallFields with isAcceptingCall := false }).trans ?_
    constructor
    · intro h _
      exact (congrArg CallFields.isAcceptingCall h).symm
    · intro h
      rw [← h rfl]

theorem untouched_endCall_iff : s.Untouched (endCall false s) ↔ s.AtRest := by
  constructor
  · intro h
    refine ⟨h.fields.symm, fun timer htimer hown => ?_⟩
    have hkept : timer ∈ s.clear.armed := h.timers timer htimer hown
    have hfilter : timer ∈ s.armed.filter fun timer => !endsWithCall timer.kind := hkept
    simpa using (List.mem_filter.mp hfilter).2
  · rintro ⟨hfields, htimers⟩
    have hpeer : s.peerConnection = none := congrArg CallFields.peerConnection hfields
    have hlocal : s.localStream = none := congrArg CallFields.localStream hfields
    have hremote : s.remoteStream = none := congrArg CallFields.remoteStream hfields
    have hcancel := (untouched_cancel_iff endsWithCall).mpr htimers
    refine ⟨hfields.symm, rfl, ?_, ?_, ?_, hcancel.timers⟩
    · simp [endCall, clear, release, cancel, hpeer]
    · simp [endCall, clear, release, cancel, hlocal]
    · simp [endCall, clear, release, cancel, hremote]

theorem not_untouched_of_status {r : Outcome} (h : r.1.status ≠ s.status) : ¬s.Untouched r :=
  fun hsame => h (congrArg CallFields.status hsame.fields)

theorem untouched_flushNext_iff (flush : Flush) : s.Untouched (s, (s.flushNext flush).2) ↔
    s.FlushHarmless flush := by
  unfold flushNext FlushHarmless
  cases flush.left with
  | nil => exact iff_of_true s.untouched_self (Or.inl rfl)
  | cons =>
    by_cases hpeer : s.peerConnection = some flush.peer
    · simp only [if_pos hpeer]
      exact iff_of_false (not_untouched_cons) (by simp [hpeer])
    · simp only [if_neg hpeer]
      exact iff_of_true s.untouched_self (.inr hpeer)

/-! ## Methods that wait -/

theorem untouched_finishSetup_streams (n : ℕ) :
    s.Untouched (finishSetup kind { s with streams := n }, []) ↔ s.Untouched (s.finishSetup kind, []) := by
  cases kind with
  | outgoing | accepting => exact ⟨fun h => ⟨h.1, h.2, h.3, h.4, h.5, h.6⟩, fun h => ⟨h.1, h.2, h.3, h.4, h.5, h.6⟩⟩

theorem untouched_fallback_iff (work : Work) :
    s.Untouched (await callId work { s with isVideo := false, isCameraOff := true }, []) ↔
      s.isVideo = false ∧ s.isCameraOff = true := by
  rw [untouched_await_iff]
  refine (untouched_fields_iff { s.toCallFields with isVideo := false, isCameraOff := true }).trans ?_
  constructor
  · intro h
    have hvideo := congrArg CallFields.isVideo h
    have hcamera := congrArg CallFields.isCameraOff h
    exact ⟨hvideo.symm, hcamera.symm⟩
  · rintro ⟨hvideo, hcamera⟩
    rw [← hvideo, ← hcamera]

theorem finishSetup_untouched_iff {kind : SetupKind} {stage : SetupStage} {reply : Reply}
    (hmedia : stage = .media true → reply.failed = false)
    (hflush : ∀ peer flush, stage ≠ .candidates peer (some flush)) (hends : stage.ends reply = true) :
    s.Untouched (s.finishSetup kind, []) ↔ s.SetupHarmless kind stage reply := by
  rw [untouched_finishSetup_iff]
  constructor
  · intro hguard
    refine ⟨fun heq hfailed => ?_, fun peer flush heq => absurd heq (hflush peer flush),
      fun hkind _ => hguard hkind⟩
    rw [hmedia heq] at hfailed
    exact nomatch hfailed
  · exact fun h hkind => h.guard hkind hends

theorem resumeSetup_untouched_iff (hstale : callId ≠ s.currentCallId) (kind : SetupKind) (stage : SetupStage)
    (reply : Reply) : s.Untouched (s.resumeSetup callId kind stage reply) ↔ s.SetupHarmless kind stage reply := by
  have hinactive := isStillActive_eq_false hstale
  have hfailed : s.setupFailed callId kind = (s.finishSetup kind, []) := by simp [setupFailed, hinactive]
  have hwhile : ∀ next : Outcome, s.whileActive callId kind next = (s.finishSetup kind, []) := by
    intro next
    simp [whileActive, hinactive]
  have hproceed : ∀ next : Outcome, s.proceed reply callId kind next = (s.finishSetup kind, []) := by
    intro next
    simp [proceed, hfailed, hwhile]
  cases stage with
  | media wantVideo =>
    rw [resumeSetup, mediaAcquired]
    cases hreply : reply.failed with
    | false =>
      simp only [hinactive, Bool.false_eq_true, if_false]
      rw [untouched_finishSetup_streams]
      exact finishSetup_untouched_iff (fun _ => hreply) nofun (by simp [SetupStage.ends, hreply])
    | true =>
      cases wantVideo with
      | false =>
        simp only [if_true, Bool.false_eq_true, if_false]
        rw [hfailed]
        exact finishSetup_untouched_iff nofun nofun (by simp [SetupStage.ends])
      | true =>
        simp only [if_true, awaitSetup]
        rw [untouched_fallback_iff]
        constructor
        · exact fun h => ⟨fun _ _ => h, nofun, fun _ hends => by simp [SetupStage.ends, hreply] at hends⟩
        · exact fun h => h.fallback rfl hreply
  | peer =>
    rw [resumeSetup, peerCreated]
    cases hreply : reply.failed with
    | true =>
      rw [if_pos rfl, hfailed]
      exact finishSetup_untouched_iff nofun nofun hreply
    | false =>
      simp only [hinactive, Bool.false_eq_true, if_false, awaitSetup, untouched_await_iff]
      refine iff_of_true ⟨rfl, rfl, rfl, rfl, rfl, fun _ htimer _ => htimer⟩ ⟨nofun, nofun, fun _ hends => ?_⟩
      rw [SetupStage.ends, hreply] at hends
      exact nomatch hends
  | candidates peer flush =>
    cases flush with
    | none =>
      rw [resumeSetup, hwhile]
      exact finishSetup_untouched_iff nofun nofun rfl
    | some flush =>
      rw [resumeSetup, awaitSetup, untouched_await_iff, untouched_flushNext_iff]
      constructor
      · intro h
        refine ⟨nofun, fun _ _ heq => ?_, nofun⟩
        obtain ⟨-, hsame⟩ := SetupStage.candidates.inj heq
        exact Option.some.inj hsame ▸ h
      · exact fun h => h.flush peer flush rfl
  | closing => exact finishSetup_untouched_iff nofun nofun rfl
  | renderers | iceServers =>
    rw [resumeSetup, hwhile]
    exact finishSetup_untouched_iff nofun nofun rfl
  | _ =>
    rw [resumeSetup, hproceed]
    exact finishSetup_untouched_iff nofun nofun rfl

theorem untouched_restarted_iff :
    s.Untouched ({ s with isRestartingIce := false }, []) ↔ s.isRestartingIce = false := by
  refine (untouched_fields_iff { s.toCallFields with isRestartingIce := false }).trans ?_
  constructor
  · exact fun h => (congrArg CallFields.isRestartingIce h).symm
  · intro h
    rw [← h]

theorem untouched_localSdp_iff (sdp : String) : s.Untouched ({ s with localSdp := sdp }, []) ↔
    s.localSdp = sdp := by
  refine (untouched_fields_iff { s.toCallFields with localSdp := sdp }).trans ?_
  constructor
  · exact fun h => (congrArg CallFields.localSdp h).symm
  · intro h
    rw [← h]

theorem resumeIceRestart_untouched_iff (sdp : Option String) (reply : Reply) :
    s.Untouched (s.resumeIceRestart callId peer sdp reply) ↔ s.IceRestartHarmless peer reply sdp := by
  cases sdp with
  | none =>
    simp only [resumeIceRestart, IceRestartHarmless]
    by_cases hstops : reply.failed = true ∨ s.peerConnection ≠ some peer ∨ s.status ≠ .connected
    · rw [if_pos hstops, untouched_restarted_iff, and_iff_right hstops]
    · rw [if_neg hstops]
      exact iff_of_false not_untouched_cons (fun h => hstops h.1)
  | some sdp =>
    simp only [resumeIceRestart, IceRestartHarmless]
    by_cases hfailed : reply.failed = true
    · rw [if_pos hfailed, untouched_restarted_iff, and_iff_left (.inl hfailed)]
    · rw [if_neg hfailed, or_iff_right hfailed]
      by_cases htarget : s.targetUserId = ""
      · rw [if_neg (not_not_intro htarget), and_iff_left htarget]
        refine (untouched_fields_iff { s.toCallFields with localSdp := sdp, isRestartingIce := false }).trans ?_
        constructor
        · intro h
          have hrestart := congrArg CallFields.isRestartingIce h
          have hsdp := congrArg CallFields.localSdp h
          exact ⟨hrestart.symm, hsdp.symm⟩
        · rintro ⟨hrestart, hsdp⟩
          rw [← hrestart, ← hsdp]
      · rw [if_pos htarget]
        exact iff_of_false not_untouched_cons (fun h => htarget h.2.2)

theorem flushRemoteCandidates_described {peer : ℕ} (h : s.peerConnection = some peer) :
    flushRemoteCandidates { s with remoteDescriptionSet := true } =
      ({ s with remoteDescriptionSet := true, remoteIceCandidateQueue := [] },
        s.flushNext ⟨peer, s.remoteIceCandidateQueue⟩) := by
  unfold flushRemoteCandidates
  split
  · rename_i other hother _
    cases h.symm.trans hother
    rfl
  · rename_i hnone
    exact absurd rfl (hnone peer h)

theorem described_untouched_iff (reply : Reply) (work : Option Flush → Work) : s.Untouched
        (if reply.failed = true ∨ s.peerConnection ≠ some peer then (s, [])
        else
          ((flushRemoteCandidates { s with remoteDescriptionSet := true }).1.await callId
              (work (flushRemoteCandidates { s with remoteDescriptionSet := true }).2.1),
            (flushRemoteCandidates { s with remoteDescriptionSet := true }).2.2)) ↔
      s.DescribedHarmless peer reply := by
  unfold DescribedHarmless
  rw [← or_assoc]
  by_cases hstops : reply.failed = true ∨ s.peerConnection ≠ some peer
  · rw [if_pos hstops]
    exact iff_of_true s.untouched_self (.inl hstops)
  · rw [if_neg hstops, or_iff_right hstops, untouched_await_iff]
    obtain ⟨-, hpeer⟩ := not_or.mp hstops
    rw [flushRemoteCandidates_described (not_not.mp hpeer)]
    cases hqueue : s.remoteIceCandidateQueue with
    | nil =>
      rw [and_iff_left rfl]
      refine (untouched_fields_iff
        { s.toCallFields with remoteDescriptionSet := true, remoteIceCandidateQueue := [] }).trans ?_
      constructor
      · exact fun h => (congrArg CallFields.remoteDescriptionSet h).symm
      · intro h
        rw [← h, ← hqueue]
    | cons candidate left =>
      have hnext : (s.flushNext ⟨peer, candidate :: left⟩).2 = [.addedCandidate peer candidate] := by
        simp [flushNext, not_not.mp hpeer]
      rw [hnext]
      exact iff_of_false not_untouched_cons (fun h => nomatch h.2)

theorem resumeAnswer_untouched_iff (stage : AnswerStage) (reply : Reply) :
    s.Untouched (s.resumeAnswer callId peer stage reply) ↔ s.AnswerHarmless peer reply stage := by
  cases stage with
  | remoteDescription => exact described_untouched_iff peer reply fun flush => .answer peer (.candidates flush)
  | candidates flush =>
    cases flush with
    | none =>
      refine (untouched_cancel_iff _).trans ?_
      simp [AnswerHarmless, OwnTimers]
    | some flush =>
      simp only [resumeAnswer, untouched_await_iff]
      exact untouched_flushNext_iff flush

theorem resumeRenegotiation_untouched_iff (stage : RenegotiationStage) (reply : Reply) :
    s.Untouched (s.resumeRenegotiation callId peer stage reply) ↔ s.RenegotiationHarmless peer reply stage := by
  cases stage with
  | remoteDescription =>
    exact described_untouched_iff peer reply fun flush => .renegotiation peer (.candidates flush)
  | candidates flush =>
    cases flush with
    | none => exact iff_of_true ((untouched_await_iff ..).mpr s.untouched_self) trivial
    | some flush =>
      simp only [resumeRenegotiation, untouched_await_iff]
      exact untouched_flushNext_iff flush
  | answer =>
    simp only [resumeRenegotiation, RenegotiationHarmless]
    by_cases hstops : reply.failed = true ∨ s.peerConnection ≠ some peer
    · rw [if_pos hstops]
      exact iff_of_true s.untouched_self hstops
    · rw [if_neg hstops]
      exact iff_of_false not_untouched_cons hstops
  | answerDescription =>
    simp only [resumeRenegotiation, RenegotiationHarmless]
    by_cases hfailed : reply.failed = true
    · rw [if_pos hfailed]
      exact iff_of_true s.untouched_self (.inl hfailed)
    · rw [if_neg hfailed, or_iff_right hfailed]
      by_cases htarget : s.targetUserId = ""
      · rw [if_neg (not_not_intro htarget), untouched_localSdp_iff, and_iff_left htarget]
      · rw [if_pos htarget]
        exact iff_of_false not_untouched_cons (fun h => htarget h.2)

theorem untouched_remoteStream_iff (remote : RemoteStream) :
    s.Untouched ({ s with remoteStream := some remote }, []) ↔ s.remoteStream = some remote := by
  refine (untouched_fields_iff { s.toCallFields with remoteStream := some remote }).trans ?_
  constructor
  · exact fun h => (congrArg CallFields.remoteStream h).symm
  · intro h
    rw [← h]

theorem resumeTrack_untouched_iff (hstale : callId ≠ s.currentCallId) (stage : TrackStage) (reply : Reply) :
    s.Untouched (s.resumeTrack callId stage reply, []) ↔ s.TrackHarmless reply stage := by
  cases stage with
  | making =>
    simp only [resumeTrack, TrackHarmless, isStillActive_eq_false hstale]
    by_cases hfailed : reply.failed = true
    · rw [if_pos hfailed]
      exact iff_of_true s.untouched_self hfailed
    · rw [if_neg hfailed]
      -- The stream that was made stays open.
      refine iff_of_false (fun h => ?_) hfailed
      exact absurd h.containers (List.cons_ne_self _ _)
  | volume =>
    simp only [resumeTrack, TrackHarmless]
    by_cases hknown : reply.answer = true
    · rw [if_pos hknown, untouched_remoteStream_iff, forall_prop_of_true hknown]
    · rw [if_neg hknown]
      exact iff_of_true ((untouched_await_iff ..).mpr s.untouched_self) (fun h => absurd h hknown)
  | adding remote => exact untouched_remoteStream_iff remote

theorem resume_untouched_iff {continuation : Continuation} (hstale : continuation.callId ≠ s.currentCallId)
    (reply : Reply) : s.Untouched (s.resume continuation reply) ↔ s.WorkHarmless reply continuation.work := by
  unfold resume WorkHarmless
  cases continuation.work with
  | setup kind stage => exact resumeSetup_untouched_iff hstale kind stage reply
  | iceRestart peer sdp => exact resumeIceRestart_untouched_iff peer sdp reply
  | answer peer stage => exact resumeAnswer_untouched_iff peer stage reply
  | renegotiation peer stage => exact resumeRenegotiation_untouched_iff peer stage reply
  | track stage => exact resumeTrack_untouched_iff hstale stage reply

/-! ## Timers -/

theorem fire_untouched_iff (hstale : timer.callId ≠ s.currentCallId) :
    s.Untouched (s.fire timer) ↔ s.TimerHarmless timer.kind := by
  unfold fire TimerHarmless
  cases timer.kind with
  | outgoingRing =>
    have hother : ¬(s.currentCallId = timer.callId ∧ (s.status = .calling ∨ s.status = .ringing)) := fun h =>
      hstale h.1.symm
    simp only [if_neg hother]
    exact iff_of_true s.untouched_self trivial
  | incomingRing =>
    by_cases hincoming : s.status = .incoming
    · have hended : .idle ≠ s.status := by simp [hincoming]
      simp only [if_pos hincoming]
      exact iff_of_false (not_untouched_of_status hended) (not_not_intro hincoming)
    · simp only [if_neg hincoming]
      exact iff_of_true s.untouched_self hincoming
  | reconnect =>
    simp only [isStillActive_eq_false hstale, Bool.false_eq_true, if_false]
    exact iff_of_true s.untouched_self trivial
  | call =>
    refine iff_of_false (fun h => ?_) id
    have hduration := congrArg CallFields.durationSeconds h.fields
    exact absurd hduration (Nat.succ_ne_self _)
  | candidateBatch =>
    have hbatch : (∀ other : CallTimer, (other.kind == TimerKind.candidateBatch) = false ↔
      other.kind ≠ .candidateBatch) :=
      fun other => beq_eq_false_iff_ne
    simp only [flushOutgoingCandidates]
    by_cases hnothing : s.outgoingCandidateBatch = [] ∨ s.targetUserId = ""
    · rw [if_pos hnothing, and_iff_right hnothing]
      refine (untouched_cancel_iff _).trans ?_
      simp only [hbatch]
    · rw [if_neg hnothing]
      exact iff_of_false not_untouched_cons (fun h => hnothing h.1)
  | offlineEnd =>
    by_cases hoffline : s.status = .offline
    · have hended : .idle ≠ s.status := by simp [hoffline]
      simp only [if_pos hoffline]
      exact iff_of_false (not_untouched_of_status hended) (not_not_intro hoffline)
    · simp only [if_neg hoffline]
      exact iff_of_true s.untouched_self hoffline
  | busyEnd => exact s.untouched_endCall_iff

theorem ownTimers_fired_iff (hget : s.armed[index]? = some timer)
    (hstale : timer.callId ≠ s.currentCallId) (p : CallTimer → Prop) :
    OwnTimers { s with armed := s.armed.eraseIdx index } p ↔ s.OwnTimers p := by
  constructor
  · intro h other hother hown
    have hne : other ≠ timer := fun heq => hstale (heq ▸ hown)
    have hkept : other ∈ s.armed.eraseIdx index := by
      obtain ⟨place, hplace⟩ := List.mem_iff_getElem?.mp hother
      have hindex : place ≠ index := fun heq => hne (Option.some.inj ((heq ▸ hplace).symm.trans hget))
      exact List.mem_eraseIdx_iff_getElem?.mpr ⟨place, hindex, hplace⟩
    exact h other hkept hown
  · intro h other hother hown
    exact h other (List.mem_of_mem_eraseIdx hother) hown

theorem untouched_fired_iff (hget : s.armed[index]? = some timer)
    (hstale : timer.callId ≠ s.currentCallId) (r : Outcome) :
    Untouched { s with armed := s.armed.eraseIdx index } r ↔ s.Untouched r := by
  have htimers := ownTimers_fired_iff hget hstale (· ∈ r.1.armed)
  constructor
  · exact fun h => ⟨h.1, h.2, h.3, h.4, h.5, htimers.mp h.6⟩
  · exact fun h => ⟨h.1, h.2, h.3, h.4, h.5, htimers.mpr h.6⟩

theorem timerHarmless_fired_iff (hget : s.armed[index]? = some timer)
    (hstale : timer.callId ≠ s.currentCallId) (kind : TimerKind) :
    TimerHarmless { s with armed := s.armed.eraseIdx index } kind ↔ s.TimerHarmless kind := by
  cases kind with
  | candidateBatch | busyEnd => exact and_congr_right fun _ => ownTimers_fired_iff hget hstale _
  | _ => exact Iff.rfl

theorem untouched_waiting_iff (left : List Continuation) (r : Outcome) :
    Untouched { s with waiting := left } r ↔ s.Untouched r :=
  ⟨fun h => ⟨h.1, h.2, h.3, h.4, h.5, h.6⟩, fun h => ⟨h.1, h.2, h.3, h.4, h.5, h.6⟩⟩

theorem workHarmless_waiting_iff (left : List Continuation) (reply : Reply) (work : Work) :
    WorkHarmless { s with waiting := left } reply work ↔ s.WorkHarmless reply work := by
  cases work with
  | setup => exact ⟨fun h => ⟨h.1, h.2, h.3⟩, fun h => ⟨h.1, h.2, h.3⟩⟩
  | iceRestart _ sdp => cases sdp <;> exact Iff.rfl
  | answer _ stage =>
    cases stage with
    | remoteDescription => exact Iff.rfl
    | candidates flush => cases flush <;> exact Iff.rfl
  | renegotiation _ stage =>
    cases stage with
    | candidates flush => cases flush <;> exact Iff.rfl
    | _ => exact Iff.rfl
  | track stage => cases stage <;> exact Iff.rfl

/-- What is left of a call that is no longer the current one has no effect. -/
def Unaffected (s : CallSessionManager) : CallAction → Prop
  | .timer index =>
    ∀ timer, s.armed[index]? = some timer → timer.callId ≠ s.currentCallId →
      ∀ r, s.step (.timer index) = some r → s.Untouched r
  | .resume index reply =>
    ∀ continuation, s.waiting[index]? = some continuation → continuation.callId ≠ s.currentCallId →
      ∀ r, s.step (.resume index reply) = some r → s.Untouched r
  | .callback index event =>
    ∀ peer, s.callbacks[index]? = some peer → peer.callId ≠ s.currentCallId →
      ∀ r, s.step (.callback index event) = some r → s.Untouched r
  | _ => True

/-- What is left of a call that is no longer the current one finds nothing that it would have an effect on. -/
def Harmless (s : CallSessionManager) : CallAction → Prop
  | .timer index =>
    ∀ timer, s.armed[index]? = some timer → timer.callId ≠ s.currentCallId → timer.due ≤ s.now →
      s.TimerHarmless timer.kind
  | .resume index reply =>
    ∀ continuation, s.waiting[index]? = some continuation → continuation.callId ≠ s.currentCallId →
      s.WorkHarmless reply continuation.work
  | _ => True

theorem timer_unaffected_iff (index : ℕ) : s.Unaffected (.timer index) ↔ s.Harmless (.timer index) := by
  refine forall_congr' fun timer => forall_congr' fun hget => forall_congr' fun hstale => ?_
  have hfire := fire_untouched_iff (s := { s with armed := s.armed.eraseIdx index }) hstale
  rw [timerHarmless_fired_iff hget hstale, untouched_fired_iff hget hstale] at hfire
  by_cases hdue : timer.due ≤ s.now
  · simp [step, hget, hdue, hfire]
  · simp [step, hget, hdue]

theorem resume_unaffected_iff (index : ℕ) (reply : Reply) :
    s.Unaffected (.resume index reply) ↔ s.Harmless (.resume index reply) := by
  refine forall_congr' fun continuation => forall_congr' fun hget => forall_congr' fun hstale => ?_
  have hresume := resume_untouched_iff (s := { s with waiting := s.waiting.eraseIdx index }) hstale reply
  rw [untouched_waiting_iff, workHarmless_waiting_iff] at hresume
  simp [step, hget, hresume]

theorem callback_unaffected (index : ℕ) (event : PeerEvent) : s.Unaffected (.callback index event) := by
  intro peer hget hstale r hs
  have hstep : s.step (.callback index event) = some (s, []) := by
    simp [step, hget, callback, isStillActive_eq_false hstale]
  rw [← Option.some.inj (hstep.symm.trans hs)]
  exact s.untouched_self

theorem unaffected_iff_harmless (s : CallSessionManager) (a : CallAction) : s.Unaffected a ↔ s.Harmless a := by
  cases a with
  | timer index => exact s.timer_unaffected_iff index
  | resume index reply => exact s.resume_unaffected_iff index reply
  | callback index event => exact iff_of_true (s.callback_unaffected index event) trivial
  | _ => exact Iff.rfl

end CallSessionManager

/-- What is left of the finished calls of a run touches the current call at no time exactly when it never
finds anything to touch. -/
theorem finished_calls_harmless (as : List CallAction) : callMachine.Every (fun s _ a => s.Unaffected a)
      {} [] as ↔ callMachine.Every (fun s _ a => s.Harmless a) {} [] as :=
  Machine.every_iff (fun _ _ => True) (fun _ _ _ _ _ _ _ _ => trivial)
    (fun s _ a _ => CallSessionManager.unaffected_iff_harmless s a) as _ [] trivial

/-- Bob answers that he is busy; within the next two and a half seconds Carol is called, and the timer of the
first call ends the second. -/
theorem busy_end_hits_next : ¬∀ as, callMachine.Every (fun s _ a => s.Unaffected a) {} [] as := by
  intro h
  let as : List CallAction := [.startCall "c" "Bob" "u-bob" false, .signal "u-bob" "c" .busy, .elapse 1000,
    .startCall "d" "Carol" "u-carol" false, .elapse 1500]
  have hcheck : (callMachine.exec (fun _ _ _ => true) {} [] as).any (fun r =>
      r.1.armed[0]? = some ⟨.busyEnd, 2500, some 0⟩ && r.1.currentCallId = some 1 && r.1.status = .calling &&
        r.1.now = 2500) = true := by
    decide +kernel
  obtain ⟨s, es, hpath, hs⟩ := Machine.path_of_check hcheck
  simp only [Bool.and_eq_true, decide_eq_true_eq] at hs
  obtain ⟨⟨⟨htimer, hcurrent⟩, hcalling⟩, hnow⟩ := hs
  have hunaffected := (h (as ++ [.timer 0])).good hpath
  have hharmless := (CallSessionManager.unaffected_iff_harmless s (.timer 0)).mp hunaffected
  have hrest : s.AtRest := hharmless _ htimer (by simp [hcurrent]) (by simp [hnow])
  have hidle := congrArg CallFields.status hrest.1
  rw [hcalling] at hidle
  exact nomatch hidle

end LigamentApps.CallSession
