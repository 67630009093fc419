import LigamentApps.LinkHost.LinkHostSession
import LigamentApps.LinkAgent.WorkerFrames

/-!
# The steps of a session

What an action does before it calls `_reject`, said once, and what `_reject` then does. -/

namespace LigamentApps.LinkHost

variable {frame : Json} {args : StartArgs}

/-- The offer of these arguments has what a peer is started with. -/
def startable (σ : SessionSetup) (args : StartArgs) : Bool :=
  offerSizeOk args.offerSdp args.iceServers && mediaOk σ.accessMode args.offerSdp

/-- The reasons for which `start` refuses what it is called with. -/
def startReasons : List String :=
  ["number_matching_required", "number_matching_failed", "invalid_offer", "invalid_offer_media"]

def brokenSignal (σ : SessionSetup) (frame : Json) : Bool :=
  memberIs frame "session_id" σ.sessionId && memberIs frame "type" "signal" && !(frame.get "signal").any Json.isObj

/-- The frame is a decision of the server on the consent. -/
def consentDecision (σ : SessionSetup) (frame : Json) : Bool :=
  memberIs frame "session_id" σ.sessionId && memberIs frame "type" "signal" &&
    (frame.get "signal").any fun signal => memberIs signal "type" "consent_decision"

/-- The events are frames that are no such decision. -/
def OtherFrames (σ : SessionSetup) (es : List SessionEvent) : Prop :=
  ∀ e ∈ es, ∃ frame, e = .receives frame ∧ consentDecision σ frame = false

/-- The code of `start` waits for something. -/
def StartPhase.waits : StartPhase → Bool
  | .idle | .over => false
  | _ => true

/-- What only receiving frames and calls from outside change. -/
structure SameStart (s t : LinkHostSession) : Prop where
  started : t.started = s.started
  phase : t.phase = s.phase
  authorization : t.authorization = s.authorization
  consentNonce : t.consentNonce = s.consentNonce
  ready : t.ready = s.ready
  closed : t.closed = s.closed
  rejecting : t.rejecting = s.rejecting
  peerStarted : t.peerStarted = s.peerStarted

/-- The reason of a rejection that `start` does not call for. -/
def OutsideReason (σ : SessionSetup) (s : LinkHostSession) (a : SessionAction) (reason : String) : Prop :=
  reason ∉ startReasons ∧ (LinkAgent.terminateReasonOk reason = true ∨ reason = "invalid_session_scope" ∨
    reason = "invalid_signal" ∧ s.closed = false ∧ ∃ frame, a = .receive frame ∧ brokenSignal σ frame = true)

/-- What an action does before it calls `_reject`. -/
inductive Acts (σ : SessionSetup) (s : LinkHostSession) :
    SessionAction → LinkHostSession → List SessionEvent → Option String → Prop
  /-- `start` asks the server for its consent. -/
  | asks {args : StartArgs} (hnew : s.started = false ∧ s.closed = false)
    (hrequired : args.confirmationRequired = true)
      (hgranted : args.consentGranted = true) (hcode : startCodeOk args.confirmationCode = true) :
      Acts σ s (.start args)
        { s with
          started := true, timerArmed := true, authorization := some none, consentNonce := some args.nonce
          phase := .consentSend args }
        [.sends (.consent args.confirmationCode args.nonce)] none
  | refusesAtOnce {args : StartArgs} {reason : String} (hnew : s.started = false ∧ s.closed = false)
      (hwhy : args.confirmationRequired = true ∧
          ¬ (args.consentGranted = true ∧ startCodeOk args.confirmationCode = true) ∨
        args.confirmationRequired = false ∧ startable σ args = false) (hreason : reason ∈ startReasons) :
      Acts σ s (.start args) { s with started := true, timerArmed := true, phase := .over } [] (some reason)
  | startsAtOnce {args : StartArgs} (hnew : s.started = false ∧ s.closed = false)
      (hplain : args.confirmationRequired = false) (hoffer : startable σ args = true) :
      Acts σ s (.start args)
        { s with started := true, timerArmed := true, phase := .peerStart args, peerStarted := true } [.startsPeer] none
  | asked {args : StartArgs} (hphase : s.phase = .consentSend args) :
      Acts σ s (.consentSent true) { s with phase := .authorizing args } [] none
  | startsAuthorized {args : StartArgs} {timedOut : Bool} (hphase : s.phase = .authorizing args)
      (hdecision : s.authorization = some (some true)) (hopen : s.closed = false)
      (hoffer : startable σ args = true) :
      Acts σ s (.authorizationEnds timedOut) { s with phase := .peerStart args, peerStarted := true } [.startsPeer] none
  | accepts {args : StartArgs} {sdp : String} (hphase : s.phase = .peerStart args) (hopen : s.closed = false)
      (hsdp : sdpOk sdp = true) :
      Acts σ s (.peerStarts (.answer sdp)) { s with phase := .answerSend }
        [.sends (.accepts args.consentGranted sdp)] none
  | readied (hphase : s.phase = .answerSend) (hopen : s.closed = false) :
      Acts σ s (.answerSent true)
        (({ s with ready := true, timerArmed := false } : LinkHostSession).apply s.pendingCandidates) [] none
  | applied {candidates : List Json} (hphase : s.phase = .applying candidates) :
      Acts σ s (.candidateApplied true) (s.apply candidates.tail) [] none
  /-- `start` ends with a rejection: something has failed, or the server or the offer does not let it go
  on. -/
  | refuses {a : SessionAction} {reason : String} (hphase : s.phase.waits = true)
      (hwhy : reason = "host_worker_failed" ∨ (∃ args, s.phase = .peerStart args) ∨
        ∃ args, s.phase = .authorizing args ∧
          (s.authorization ≠ some (some true) ∨ s.closed = true ∨ startable σ args = false)) :
      Acts σ s a { s with phase := .over } [] (some reason)
  | abandons {a : SessionAction} (hphase : (∃ args, s.phase = .peerStart args) ∨ s.phase = .answerSend)
      (hclosed : s.closed = true) : Acts σ s a { s with phase := .over } [] none
  | decides {frame : Json} {signal : List (String × Json)} (hopen : s.closed = false)
      (hsession : memberIs frame "session_id" σ.sessionId = true)
      (hsignal : frame.get "signal" = some (.obj signal))
      (hkind : memberIs frame "type" "signal" = true ∧ memberIs (.obj signal) "type" "consent_decision" = true) :
      Acts σ s (.receive frame) (s.decide (.obj signal)) [.receives frame] none
  | closes {a : SessionAction} (before : List SessionEvent) (hbefore : OtherFrames σ before) :
      Acts σ s a s.shut (before ++ if s.closed then [] else [.closes]) none
  | renegotiates {sdp : String} (hopen : s.closed = false) (hsdp : sdpOk sdp = true) :
      Acts σ s (.renegotiated (some sdp)) { s with renegotiations := s.renegotiations - 1 }
        [.sends (.renegotiates sdp)] none
  | candidate {c : Json} (hopen : s.closed = false) :
      Acts σ s (.peerCandidate c) { s with candidateSends := s.candidateSends + 1 } [.sends (.candidate c)] none
  | rejected (hsending : s.rejecting = .sending) :
      Acts σ s .rejectSent ({ s with rejecting := .done } : LinkHostSession).shut [] none
  | outside {a : SessionAction} {t : LinkHostSession} {es : List SessionEvent} {reason : Option String}
      (hsame : SameStart s t) (hes : OtherFrames σ es)
      (hreason : ∀ r, reason = some r → OutsideReason σ s a r) : Acts σ s a t es reason

section Acts

variable {σ : SessionSetup} {s t : LinkHostSession} {a : SessionAction} {es : List SessionEvent}
  {reason : Option String}

theorem sameStart_refl (s : LinkHostSession) : SameStart s s := ⟨rfl, rfl, rfl, rfl, rfl, rfl, rfl, rfl⟩

theorem acts_quiet (hsame : SameStart s t) : Acts σ s a t [] none :=
  .outside hsame nofun nofun

theorem startPeer_cases (args : StartArgs) : startable σ args = true ∧
        s.startPeer σ args = ({ s with phase := .peerStart args, peerStarted := true }, [.startsPeer], none) ∨
      startable σ args = false ∧ ∃ r ∈ startReasons, s.startPeer σ args = s.refuse r := by
  unfold LinkHostSession.startPeer startable
  by_cases hsize : offerSizeOk args.offerSdp args.iceServers = true
  · by_cases hmedia : mediaOk σ.accessMode args.offerSdp = true
    · refine .inl ⟨by rw [hsize, hmedia]; rfl, ?_⟩
      rw [hsize, hmedia]
      rfl
    · rw [Bool.not_eq_true] at hmedia
      refine .inr ⟨by rw [hsize, hmedia]; rfl, "invalid_offer_media", by decide, ?_⟩
      rw [hsize, hmedia]
      rfl
  · rw [Bool.not_eq_true] at hsize
    refine .inr ⟨by rw [hsize]; rfl, "invalid_offer", by decide, ?_⟩
    rw [hsize]
    rfl

theorem start_cases (args : StartArgs) :
    (args.confirmationRequired = true ∧ args.consentGranted = true ∧
      startCodeOk args.confirmationCode = true ∧ s.start σ args = ({ s with
        started := true, timerArmed := true, authorization := some none, consentNonce := some args.nonce
        phase := .consentSend args }, [.sends (.consent args.confirmationCode args.nonce)], none)) ∨
    (∃ r ∈ startReasons, (args.confirmationRequired = true ∧
        ¬ (args.consentGranted = true ∧ startCodeOk args.confirmationCode = true) ∨
          args.confirmationRequired = false ∧ startable σ args = false) ∧
      s.start σ args = ({ s with started := true, timerArmed := true, phase := .over }, [], some r)) ∨
    (args.confirmationRequired = false ∧ startable σ args = true ∧
      s.start σ args = ({ s with started := true, timerArmed := true, phase := .peerStart args, peerStarted := true },
        [.startsPeer], none)) := by
  unfold LinkHostSession.start
  split
  · rename_i hrequired
    split
    · rename_i hcode
      refine .inr (.inl ⟨"number_matching_required", by decide, .inl ⟨hrequired, fun hyes => ?_⟩, rfl⟩)
      rw [hyes.1, hyes.2] at hcode
      cases hcode
    · rename_i hcode
      simp only [Bool.or_eq_true, Bool.not_eq_true', not_or, Bool.not_eq_false] at hcode
      exact .inl ⟨hrequired, hcode.1, hcode.2, rfl⟩
  · rename_i hrequired
    rw [Bool.not_eq_true] at hrequired
    obtain ⟨hoffer, hgoes⟩ | ⟨hoffer, r, hr, hgoes⟩ :=
      startPeer_cases (σ := σ) args
    · exact .inr (.inr ⟨hrequired, hoffer, hgoes⟩)
    · exact .inr (.inl ⟨r, hr, .inr ⟨hrequired, hoffer⟩, hgoes⟩)

theorem acts_start (hnew : s.started = false ∧ s.closed = false) (h : s.start σ args = (t, es, reason)) :
    Acts σ s (.start args) t es reason := by
  obtain ⟨hrequired, hgranted, hcode, hgoes⟩ | ⟨r, hr, hwhy, hgoes⟩ | ⟨hrequired, hoffer, hgoes⟩ :=
    start_cases (σ := σ) args
  · cases hgoes.symm.trans h
    exact .asks hnew hrequired hgranted hcode
  · cases hgoes.symm.trans h
    exact .refusesAtOnce hnew hwhy hr
  · cases hgoes.symm.trans h
    exact .startsAtOnce hnew hrequired hoffer

theorem acts_authorized {timedOut authorized : Bool} (hphase : s.phase = .authorizing args)
    (hdecision : s.decision timedOut = some authorized)
    (h : s.authorized σ args authorized = (t, es, reason)) :
    Acts σ s (.authorizationEnds timedOut) t es reason := by
  have hwaits : s.phase.waits = true := by rw [hphase]; rfl
  have hyes : authorized = true → s.authorization = some (some true) := by
    rintro rfl
    unfold LinkHostSession.decision at hdecision
    split at hdecision
    · rename_i b hb
      rw [hb, Option.some.inj hdecision]
    · split at hdecision
      · simp at hdecision
      · simp at hdecision
  have hno : authorized = false → s.authorization ≠ some (some true) := by
    rintro rfl htrue
    unfold LinkHostSession.decision at hdecision
    rw [htrue] at hdecision
    simp at hdecision
  unfold LinkHostSession.authorized at h
  split at h
  · rename_i hstop
    cases h
    rw [Bool.or_eq_true, Bool.not_eq_true'] at hstop
    obtain hfalse | hclosed := hstop
    · exact .refuses hwaits (.inr (.inr ⟨args, hphase, .inl (hno hfalse)⟩))
    · exact .refuses hwaits (.inr (.inr ⟨args, hphase, .inr (.inl hclosed)⟩))
  · rename_i hgoesOn
    simp only [Bool.or_eq_true, Bool.not_eq_true', not_or, Bool.not_eq_false, Bool.not_eq_true] at hgoesOn
    obtain ⟨hoffer, hgoes⟩ | ⟨hoffer, r, hr, hgoes⟩ := startPeer_cases (σ := σ) args
    · cases hgoes.symm.trans h
      exact .startsAuthorized hphase (hyes hgoesOn.1) hgoesOn.2 hoffer
    · cases hgoes.symm.trans h
      exact .refuses hwaits (.inr (.inr ⟨args, hphase, .inr (.inr hoffer)⟩))

theorem acts_peerResult {result : PeerResult} (hphase : s.phase = .peerStart args)
    (h : s.peerResult args result = (t, es, reason)) : Acts σ s (.peerStarts result) t es reason := by
  have hwaits : s.phase.waits = true := by rw [hphase]; rfl
  unfold LinkHostSession.peerResult at h
  split at h
  · cases h
    exact .refuses hwaits (.inr (.inl ⟨args, hphase⟩))
  · cases h
    exact .refuses hwaits (.inl rfl)
  · split at h
    · rename_i hclosed
      cases h
      exact .abandons (.inl ⟨args, hphase⟩) hclosed
    · rename_i hopen
      split at h
      · cases h
        exact .refuses hwaits (.inl rfl)
      · rename_i hsdp
        cases h
        exact .accepts hphase (Bool.not_eq_true _ ▸ hopen) (by simpa using hsdp)

theorem otherFrames_one (hother : consentDecision σ frame = false) : OtherFrames σ [.receives frame] :=
  fun _ he => ⟨frame, List.mem_singleton.mp he, hother⟩

theorem acts_received (hother : consentDecision σ frame = false) (hsame : SameStart s t)
    (hreason : ∀ r, reason = some r → OutsideReason σ s (.receive frame) r) :
    Acts σ s (.receive frame) t [.receives frame] reason :=
  .outside hsame (otherFrames_one hother) hreason

theorem acts_takeCandidate {signal : Json} (hother : consentDecision σ frame = false)
    (h : s.takeCandidate signal = (t, es, reason)) :
    Acts σ s (.receive frame) t (.receives frame :: es) reason := by
  unfold LinkHostSession.takeCandidate at h
  split at h
  · split at h
    · cases h
      exact acts_received hother (sameStart_refl _) nofun
    · split at h
      · cases h
        refine acts_received hother (sameStart_refl _) fun r hr => ?_
        cases hr
        exact ⟨by decide, .inl (by decide)⟩
      · cases h
        exact acts_received hother ⟨rfl, rfl, rfl, rfl, rfl, rfl, rfl, rfl⟩ nofun
  · cases h
    exact acts_received hother (sameStart_refl _) nofun

/-- What a session does with a frame of its own. -/
theorem acts_receiveFrame (hopen : s.closed = false)
    (hsession : memberIs frame "session_id" σ.sessionId = true)
    (h : s.receiveFrame frame = (t, es, reason)) :
    Acts σ s (.receive frame) t (.receives frame :: es) reason := by
  unfold LinkHostSession.receiveFrame at h
  split at h
  · rename_i hkind
    split at h
    · rename_i signal hsignal
      unfold LinkHostSession.receiveSignal at h
      split at h
      · rename_i hdecision
        cases h
        exact .decides hopen hsession hsignal ⟨hkind, hdecision⟩
      · rename_i hdecision
        have hother : consentDecision σ frame = false := by
          unfold consentDecision
          rw [hsignal, Option.any_some, Bool.eq_false_iff.mpr hdecision, Bool.and_false]
        split at h
        · cases h
          refine acts_received hother ?_ nofun
          unfold LinkHostSession.renegotiate
          split
          · exact ⟨rfl, rfl, rfl, rfl, rfl, rfl, rfl, rfl⟩
          · exact sameStart_refl _
        · split at h
          · cases h
            exact acts_received hother (sameStart_refl _) nofun
          · exact acts_takeCandidate hother h
    · rename_i hsignal
      cases h
      -- no map, and so neither a signal nor a decision
      have hnot : ∀ j, frame.get "signal" = some j → ∀ name, j.isObj = false ∧ j.get name = none := by
        intro j hj name
        cases j with
        | obj members => exact absurd hj (hsignal members)
        | _ => exact ⟨rfl, rfl⟩
      have hbroken : brokenSignal σ frame = true := by
        have hany : (frame.get "signal").any Json.isObj = false := by
          cases hget : frame.get "signal" with
          | none => rfl
          | some j => exact (hnot j hget "type").1
        unfold brokenSignal
        rw [hsession, hkind, hany]
        rfl
      have hother : consentDecision σ frame = false := by
        have hany : ((frame.get "signal").any fun signal => memberIs signal "type" "consent_decision") = false := by
          cases hget : frame.get "signal" with
          | none => rfl
          | some j =>
            rw [Option.any_some]
            unfold memberIs
            rw [(hnot j hget "type").2]
            rfl
        unfold consentDecision
        rw [hany, Bool.and_false]
      refine acts_received hother (sameStart_refl _) fun r hr => ?_
      cases hr
      exact ⟨by decide, .inr (.inr ⟨rfl, hopen, frame, rfl, hbroken⟩)⟩
  · rename_i hkind
    have hother : consentDecision σ frame = false := by
      unfold consentDecision
      rw [Bool.eq_false_iff.mpr hkind, Bool.and_false, Bool.false_and]
    split at h
    · cases h
      exact .closes [.receives frame] (otherFrames_one hother)
    · cases h
      exact acts_received hother (sameStart_refl _) nofun

theorem acts_receive (h : s.receive σ frame = (t, es, reason)) : Acts σ s (.receive frame) t es reason := by
  unfold LinkHostSession.receive at h
  split at h
  · cases h
    exact acts_quiet (sameStart_refl _)
  · rename_i hopen
    split at h
    · rename_i hscope
      have hother : consentDecision σ frame = false := by
        unfold consentDecision
        rw [(Bool.not_eq_true' _).mp hscope, Bool.false_and, Bool.false_and]
      cases h
      refine acts_received hother (sameStart_refl _) fun r hr => ?_
      cases hr
      exact ⟨by decide, .inr (.inl rfl)⟩
    · rename_i hsession
      cases h
      exact acts_receiveFrame (Bool.not_eq_true _ ▸ hopen) (by simpa using hsession) rfl

theorem reason_of_call (call : RejectCall) :
    call.reason ∉ startReasons ∧ LinkAgent.terminateReasonOk call.reason = true := by
  cases call with
  | localDisconnect | uiUnavailable | consentDenied => decide
  | recorder what =>
    have htext : (RejectCall.recorder what).reason.toList = "recorder_".toList ++ what.toList :=
      String.toList_append
    constructor
    · intro hin
      -- no reason of `start` begins with an `r`
      have hfirst : ∀ r ∈ startReasons, r.toList.head? ≠ some 'r' := by decide
      refine hfirst _ hin ?_
      rw [htext]
      rfl
    · unfold LinkAgent.terminateReasonOk
      rw [htext, List.isPrefixOf_iff_prefix.mpr (List.prefix_append _ _), Bool.or_true]

theorem outsideReason_of_ok {r : String} (hstart : r ∉ startReasons)
    (hok : LinkAgent.terminateReasonOk r = true) : OutsideReason σ s a r := ⟨hstart, .inl hok⟩

theorem acts_rejecting {r : String} (hsame : SameStart s t) (hstart : r ∉ startReasons)
    (hok : LinkAgent.terminateReasonOk r = true) : Acts σ s a t [] (some r) := by
  refine .outside hsame nofun fun r' hr => ?_
  cases hr
  exact outsideReason_of_ok hstart hok

/-- What one step of a session can do. -/
theorem acts_of_act (h : s.act σ a = some (t, es, reason)) : Acts σ s a t es reason := by
  cases a with
  | start args =>
    unfold LinkHostSession.act at h
    dsimp only at h
    split at h
    · simp at h
    · rename_i hnew
      simp only [Bool.or_eq_true, not_or, Bool.not_eq_true] at hnew
      exact acts_start hnew (Option.some.inj h)
  | receive => exact acts_receive (Option.some.inj h)
  | reject call =>
    cases h
    exact acts_rejecting (sameStart_refl _) (reason_of_call call).1 (reason_of_call call).2
  | close =>
    cases h
    exact .closes [] nofun
  | readyTimeout =>
    unfold LinkHostSession.act at h
    dsimp only at h
    split at h
    · cases h
      exact acts_rejecting ⟨rfl, rfl, rfl, rfl, rfl, rfl, rfl, rfl⟩ (by decide) (by decide)
    · simp at h
  | consentSent ok =>
    unfold LinkHostSession.act at h
    dsimp only at h
    split at h
    · rename_i args hphase
      cases ok with
      | true =>
        cases h
        exact .asked hphase
      | false =>
        cases h
        exact .refuses (by rw [hphase]; rfl) (.inl rfl)
    · simp at h
  | authorizationEnds timedOut =>
    unfold LinkHostSession.act at h
    dsimp only at h
    split at h
    · rename_i args hphase
      obtain ⟨authorized, hdecision, h⟩ := Option.map_eq_some_iff.mp h
      exact acts_authorized hphase hdecision h
    · simp at h
  | peerStarts result =>
    unfold LinkHostSession.act at h
    dsimp only at h
    split at h
    · rename_i args hphase
      exact acts_peerResult hphase (Option.some.inj h)
    · simp at h
  | answerSent ok =>
    unfold LinkHostSession.act at h
    dsimp only at h
    split at h
    · rename_i hphase
      cases ok with
      | true =>
        cases h
        unfold LinkHostSession.answered
        split
        · rename_i hclosed
          exact .abandons (.inr hphase) hclosed
        · rename_i hopen
          exact .readied hphase (Bool.not_eq_true _ ▸ hopen)
      | false =>
        cases h
        exact .refuses (by rw [hphase]; rfl) (.inl rfl)
    · simp at h
  | candidateApplied ok =>
    unfold LinkHostSession.act at h
    dsimp only at h
    split at h
    · rename_i candidates hphase
      cases ok with
      | true =>
        cases h
        exact .applied hphase
      | false =>
        cases h
        exact .refuses (by rw [hphase]; rfl) (.inl rfl)
    · simp at h
  | renegotiated answer =>
    unfold LinkHostSession.act at h
    dsimp only at h
    split at h
    · simp at h
    · cases h
      cases answer with
      | none => exact acts_quiet ⟨rfl, rfl, rfl, rfl, rfl, rfl, rfl, rfl⟩
      | some sdp =>
        by_cases hsends : (!s.closed && sdpOk sdp) = true
        · rw [Option.filter_some, if_pos hsends]
          rw [Bool.and_eq_true, Bool.not_eq_true'] at hsends
          exact .renegotiates hsends.1 hsends.2
        · rw [Option.filter_some, if_neg hsends]
          exact acts_quiet ⟨rfl, rfl, rfl, rfl, rfl, rfl, rfl, rfl⟩
  | peerFails =>
    unfold LinkHostSession.act at h
    dsimp only at h
    split at h
    · cases h
      exact acts_rejecting (sameStart_refl _) (by decide) (by decide)
    · simp at h
  | peerCandidate c =>
    unfold LinkHostSession.act at h
    dsimp only at h
    split at h
    · simp at h
    · split at h
      · cases h
        exact acts_quiet (sameStart_refl _)
      · rename_i hopen
        cases h
        exact .candidate (Bool.not_eq_true _ ▸ hopen)
  | candidateSent ok =>
    unfold LinkHostSession.act at h
    dsimp only at h
    split at h
    · simp at h
    · cases h
      cases ok with
      | true => exact acts_quiet ⟨rfl, rfl, rfl, rfl, rfl, rfl, rfl, rfl⟩
      | false => exact acts_rejecting ⟨rfl, rfl, rfl, rfl, rfl, rfl, rfl, rfl⟩ (by decide) (by decide)
  | rejectSent =>
    unfold LinkHostSession.act at h
    dsimp only at h
    split at h
    · rename_i hsending
      cases h
      exact .rejected hsending
    · simp at h

end Acts

end LigamentApps.LinkHost
