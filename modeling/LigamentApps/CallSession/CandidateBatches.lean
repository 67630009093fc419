import LigamentApps.CallSession.CallSessionManager

/-!
# The timer of a batch

A batch of candidates that are still to be sent has a timer: no step of the manager takes the timer away and
leaves the batch, as long as there is someone to send it to. -/

namespace LigamentApps.CallSession.CallSessionManager

open List

variable {s t : CallSessionManager}

/-- The timer of the batch runs. -/
def batchTimed (s : CallSessionManager) : Bool := s.armed.any (·.kind == .candidateBatch)

/-- A batch that is not empty has its timer. -/
def Timed (s : CallSessionManager) : Prop := s.outgoingCandidateBatch ≠ [] → s.batchTimed = true

theorem timed_of_same (h : s.Timed) (hbatch : t.outgoingCandidateBatch = s.outgoingCandidateBatch)
    (harmed : t.armed = s.armed) : t.Timed := by
  unfold Timed batchTimed
  rw [hbatch, harmed]
  exact h

theorem timed_of_empty (hbatch : t.outgoingCandidateBatch = []) : t.Timed := fun hne => absurd hbatch hne

theorem timed_cancel (kinds : TimerKind → Bool) (hkinds : kinds .candidateBatch = false) (h : s.Timed) :
    (s.cancel kinds).Timed := by
  intro hne
  obtain ⟨timer, htimer, hkind⟩ := any_eq_true.mp (h hne)
  have hbatch : timer.kind = .candidateBatch := beq_iff_eq.mp hkind
  have hkept : timer ∈ (s.cancel kinds).armed := by
    refine mem_filter.mpr ⟨htimer, ?_⟩
    rw [hbatch, hkinds]
    rfl
  exact any_eq_true.mpr ⟨timer, hkept, hkind⟩

theorem timed_rearmed (kinds : TimerKind → Bool) (hkinds : kinds .candidateBatch = false) {timer : CallTimer}
    (h : s.Timed)
    (hbatch : t.outgoingCandidateBatch = s.outgoingCandidateBatch)
    (harmed : t.armed = s.armed.filter (fun other => !kinds other.kind) ++ [timer]) : t.Timed := by
  intro hne
  rw [hbatch] at hne
  have hkept : (s.armed.filter fun other => !kinds other.kind).any (·.kind == .candidateBatch) = true :=
    timed_cancel kinds hkinds h hne
  unfold batchTimed
  rw [harmed, any_append, hkept]
  rfl

theorem timed_queue (candidate : Option Candidate) (h : s.Timed) : (s.queueOutgoingCandidate candidate).Timed := by
  unfold queueOutgoingCandidate
  cases candidate with
  | none => exact h
  | some =>
    dsimp only
    split
    · exact h
    · intro _
      unfold batchTimed arm
      rw [any_append]
      exact Bool.or_true _

theorem timed_flush (htarget : s.outgoingCandidateBatch ≠ [] → s.targetUserId ≠ "") :
    s.flushOutgoingCandidates.1.Timed := by
  unfold flushOutgoingCandidates
  split
  · rename_i hnothing
    have hempty : s.outgoingCandidateBatch = [] := by
      by_contra hne
      exact hnothing.elim hne (htarget hne)
    exact timed_of_empty hempty
  · exact timed_of_empty rfl

/-! ## Setups -/

section Setup

variable {callId : Option ℕ} {kind : SetupKind} (h : s.Timed)
include h

theorem timed_finished : (s.finishSetup kind).Timed := by
  cases kind <;> exact h

theorem timed_active {next : Outcome} (hnext : next.1.Timed) : (s.whileActive callId kind next).1.Timed := by
  unfold whileActive
  split
  · exact hnext
  · exact timed_finished h

theorem timed_failed : (s.setupFailed callId kind).1.Timed := by
  unfold setupFailed
  split
  · cases kind <;> exact timed_of_empty rfl
  · exact timed_finished h

theorem timed_proceed (reply : Reply) {next : Outcome} (hnext : next.1.Timed) :
    (s.proceed reply callId kind next).1.Timed := by
  unfold proceed
  split
  · exact timed_failed h
  · exact timed_active h hnext

theorem timed_tracks (peer tracks : ℕ) : (s.addTracks callId kind peer tracks).1.Timed := by
  cases tracks with
  | succ => exact h
  | zero => cases kind <;> exact h

theorem timed_setup (stage : SetupStage) (reply : Reply) : (s.resumeSetup callId kind stage reply).1.Timed := by
  have hflushed : ∀ u : CallSessionManager, u.Timed → u.flushRemoteCandidates.1.Timed := by
    intro u hu
    unfold flushRemoteCandidates
    split <;> exact hu
  cases stage with
  | permissions =>
    refine timed_proceed h reply ?_
    split
    · exact h
    · cases kind <;> exact timed_of_empty rfl
  | renderers | iceServers => exact timed_active h h
  | session | routing | offer | offerDescription | answer => exact timed_proceed h reply h
  | media =>
    unfold resumeSetup mediaAcquired
    dsimp only
    split
    · split
      · exact h
      · exact timed_failed h
    · split
      · exact h
      · cases kind <;> exact h
  | peer tracks =>
    unfold resumeSetup peerCreated
    dsimp only
    split
    · exact timed_failed h
    · split
      · exact timed_tracks (s := { s with
          peers := s.peers + 1, openPeers := s.peers :: s.openPeers
          peerConnection := some s.peers }) h s.peers tracks
      · exact h
  | closing => exact timed_finished h
  | tracks peer left => exact timed_proceed h reply (timed_tracks h peer left)
  | remoteDescription => exact timed_proceed h reply (hflushed { s with remoteDescriptionSet := true } h)
  | candidates _ flush =>
    cases flush with
    | none => exact timed_active h h
    | some => exact h
  | answerDescription =>
    refine timed_proceed h reply ?_
    cases kind <;> exact h

end Setup

/-! ## The other methods -/

theorem timed_resume (h : s.Timed) (continuation : Continuation) (reply : Reply) :
    (s.resume continuation reply).1.Timed := by
  have hflushed : (flushRemoteCandidates { s with remoteDescriptionSet := true }).1.Timed := by
    unfold flushRemoteCandidates
    split <;> exact h
  unfold resume
  cases continuation.work with
  | setup _ stage => exact timed_setup h stage reply
  | iceRestart _ sdp =>
    unfold resumeIceRestart
    cases sdp with
    | none | some =>
      dsimp only
      split <;> exact h
  | answer _ stage =>
    unfold resumeAnswer
    cases stage with
    | remoteDescription =>
      dsimp only
      split
      · exact h
      · exact hflushed
    | candidates flush =>
      cases flush with
      | none => exact timed_cancel _ rfl h
      | some => exact h
  | renegotiation _ stage =>
    unfold resumeRenegotiation
    cases stage with
    | remoteDescription =>
      dsimp only
      split
      · exact h
      · exact hflushed
    | candidates flush => cases flush <;> exact h
    | answer | answerDescription =>
      dsimp only
      split <;> exact h
  | track stage =>
    have hplaced : ∀ remote kind known (u : CallSessionManager), u.Timed →
        (u.placeTrack continuation.callId remote kind known).Timed := by
      intro remote kind known u hu
      cases kind <;> cases known <;> exact hu
    unfold resumeTrack
    cases stage with
    | making =>
      dsimp only
      split
      · exact h
      · split
        · exact hplaced _ _ _ { s with
            streams := s.streams + 1, openContainers := s.streams :: s.openContainers
            remoteStream := some (.made s.streams) } h
        · exact h
    | volume =>
      dsimp only
      split <;> exact h
    | adding => exact h

theorem timed_accept (h : s.Timed) : s.acceptIncomingCall.Timed := by
  unfold acceptIncomingCall
  split
  · exact h
  · split
    · exact h
    · exact timed_cancel ringTimeout rfl h

theorem timed_takeOffer (sdp : String) (h : s.Timed) : (s.takeOffer sdp).Timed := by
  unfold takeOffer
  have haccepted : ∀ u : CallSessionManager, u.outgoingCandidateBatch = s.outgoingCandidateBatch →
    u.armed = s.armed →
      u.acceptIncomingCall.Timed := fun u hbatch harmed => timed_accept (timed_of_same h hbatch harmed)
  split_ifs
  all_goals first | exact haccepted _ rfl rfl | exact timed_rearmed ringTimeout rfl h rfl rfl

theorem timed_offer (fromUser chatId : String) (payload : OfferPayload) (h : s.Timed) :
    (s.handleIncomingOffer fromUser chatId payload).1.Timed := by
  unfold handleIncomingOffer
  split
  · split
    · exact h
    · exact h
    · exact timed_takeOffer _ h
  · split
    · unfold handleOfferRenegotiation
      split
      · split <;> exact h
      · exact h
    · exact h

theorem timed_candidates (payloads : List CandidatePayload) (h : s.Timed) :
    (s.handleRemoteCandidates payloads).1.Timed := by
  induction payloads generalizing s with
  | nil => exact h
  | cons _ _ ih =>
    refine ih ?_
    unfold handleRemoteCandidate
    split
    · exact h
    · split <;> exact h

theorem timed_signal (sender chatId : String) (signal : Signal) (h : s.Timed) :
    (s.onSignal sender chatId signal).1.Timed := by
  cases signal with
  | offer payload => exact timed_offer sender chatId payload h
  | ringing =>
    show s.handleRinging.Timed
    unfold handleRinging
    split <;> exact h
  | offline | busy => exact timed_rearmed ringTimeout rfl h rfl rfl
  | answer =>
    unfold onSignal
    dsimp only
    split
    · exact h
    · split
      · exact h
      · unfold handleAnswer
        split <;> exact h
  | candidate payload => exact timed_candidates [payload] h
  | candidates payloads => exact timed_candidates payloads h
  | cancel =>
    unfold onSignal
    dsimp only
    split
    · exact timed_of_empty rfl
    · exact h
  | hangup | rejected => exact timed_of_empty rfl
  | other => exact h

theorem timed_callback (peer : PeerCallbacks) (event : PeerEvent) (h : s.Timed) :
    (s.callback peer event).1.Timed := by
  unfold callback
  split
  · cases event with
    | connectionState state =>
      cases state with
      | connected =>
        have hquiet := timed_cancel (fun kind => kind == .reconnect || (!peer.accepting && ringTimeout kind))
          (by cases peer.accepting <;> rfl) h
        exact timed_rearmed (· == .call) rfl hquiet rfl rfl
      | failed => exact timed_of_empty rfl
      | disconnected =>
        unfold onConnectionState
        dsimp only
        split
        · have harmed : (arm .reconnect 25000 (s.cancel (· == .reconnect))).Timed :=
            timed_rearmed (· == .reconnect) rfl h rfl rfl
          unfold performIceRestart
          split
          · exact harmed
          · split <;> exact harmed
        · exact timed_of_empty rfl
      | other => exact h
    | iceConnectionState connected =>
      cases connected with
      | false => exact h
      | true => exact timed_cancel (· == .reconnect) rfl h
    | iceCandidate candidate => exact timed_queue candidate h
    | track _ kind known =>
      have hplaced : ∀ remote, (s.placeTrack peer.callId remote kind known).Timed := by
        intro remote
        cases kind <;> cases known <;> exact h
      dsimp only
      unfold onTrack
      split
      · exact hplaced _
      · exact hplaced _
      · exact h
  · exact h

theorem timed_fire {index : ℕ} {timer : CallTimer} (hget : s.armed[index]? = some timer) (h : s.Timed)
    (htarget : s.outgoingCandidateBatch ≠ [] → s.targetUserId ≠ "") :
    (fire timer { s with armed := s.armed.eraseIdx index }).1.Timed := by
  have hleft : timer.kind ≠ .candidateBatch → Timed { s with armed := s.armed.eraseIdx index } := by
    intro hother hne
    obtain ⟨batch, hmember, hkind⟩ := any_eq_true.mp (h hne)
    obtain ⟨place, hlt, hplace⟩ := mem_iff_getElem.mp hmember
    have hdifferent : place ≠ index := by
      rintro rfl
      rw [getElem?_eq_getElem hlt, hplace] at hget
      cases hget
      exact hother (beq_iff_eq.mp hkind)
    have hkept : batch ∈ s.armed.eraseIdx index :=
      mem_eraseIdx_iff_getElem.mpr ⟨place, hlt, hdifferent, hplace⟩
    exact any_eq_true.mpr ⟨batch, hkept, hkind⟩
  unfold fire
  cases hkind : timer.kind with
  | candidateBatch => exact timed_flush htarget
  | call =>
    have hbefore := hleft (by rw [hkind]; decide)
    intro hne
    have hany : (s.armed.eraseIdx index).any (·.kind == .candidateBatch) = true := hbefore hne
    unfold batchTimed
    rw [any_append, hany]
    rfl
  | outgoingRing | incomingRing | reconnect | offlineEnd =>
    dsimp only
    split
    · exact timed_of_empty rfl
    · exact hleft (by rw [hkind]; decide)
  | busyEnd => exact timed_of_empty rfl

theorem timed_step {a : CallAction} {r : Outcome} (h : s.Timed)
    (htarget : s.outgoingCandidateBatch ≠ [] → s.targetUserId ≠ "") (hstep : s.step a = some r) : r.1.Timed := by
  cases a with
  | startCall chatId chatTitle target isVideo =>
    cases hstep
    unfold startCall
    split
    · exact timed_rearmed ringTimeout rfl h rfl rfl
    · exact h
  | prepareIncomingCall chatId isVideo =>
    cases hstep
    unfold prepareIncomingCall
    split
    · exact timed_rearmed ringTimeout rfl h rfl rfl
    · exact h
  | acceptIncomingCall =>
    cases hstep
    exact timed_accept h
  | rejectIncomingCall | endCall =>
    cases hstep
    exact timed_of_empty rfl
  | callKitEnded =>
    cases hstep
    split
    · exact timed_of_empty rfl
    · split
      · exact timed_of_empty rfl
      · exact h
  | toggleCamera | elapse =>
    cases hstep
    exact h
  | signal sender chatId signal =>
    cases hstep
    exact timed_signal sender chatId signal h
  | callback _ event =>
    obtain ⟨peer, _, rfl⟩ := Option.map_eq_some_iff.mp hstep
    exact timed_callback peer event h
  | timer index =>
    unfold step at hstep
    dsimp only at hstep
    split at hstep
    · simp at hstep
    · rename_i timer hget
      split at hstep
      · cases hstep
        exact timed_fire hget h htarget
      · simp at hstep
  | resume index reply =>
    obtain ⟨continuation, _, rfl⟩ := Option.map_eq_some_iff.mp hstep
    exact timed_resume (s := { s with waiting := s.waiting.eraseIdx index }) h continuation reply

end LigamentApps.CallSession.CallSessionManager
