import LigamentApps.CallSession.CallSessionManager

/-!
# Signals of third parties

A `webrtc.signal` event of someone who is not the peer of the current call should leave the call alone. The
dispatch hands on the sender of an offer only, so that it does so exactly for the signals that the manager
would leave without effect whoever had sent them. -/

namespace LigamentApps.CallSession

variable {r : Outcome} (s : CallSessionManager)

/-- What a call is for the two who speak: its identifier, its status, its peer, what the peer has described,
the candidates of the peer that wait, its connection, and the timers that are about to end it. -/
structure CallView where
  callId : Option ℕ
  status : CallStatus
  peer : String
  remoteSdp : String
  remoteDescriptionSet : Bool
  pendingOfferSdp : String
  candidates : List Candidate
  connection : Option ℕ
  ends : List CallTimer

/-- Whether an event gives a connection something of the other side. -/
def CallEvent.isRemote : CallEvent → Bool
  | .remoteDescription _ _ | .addedCandidate _ _ => true
  | _ => false

namespace CallSessionManager

def view (s : CallSessionManager) : CallView where
  callId := s.currentCallId
  status := s.status
  peer := s.targetUserId
  remoteSdp := s.remoteSdp
  remoteDescriptionSet := s.remoteDescriptionSet
  pendingOfferSdp := s.pendingOfferSdp
  candidates := s.remoteIceCandidateQueue
  connection := s.peerConnection
  ends := s.armed.filter fun timer => !endsWithCall timer.kind

/-- There is a call with a peer, and the sender is someone else. A call that a push has prepared gets its peer
with its offer. -/
def Foreign (s : CallSessionManager) (sender : String) : Prop :=
  s.status ≠ .idle ∧ s.targetUserId ≠ "" ∧ sender ≠ s.targetUserId

instance (s : CallSessionManager) (sender : String) : Decidable (s.Foreign sender) :=
  inferInstanceAs (Decidable (_ ∧ _ ∧ _))

/-- The call is as it was, and its connection was given nothing of the other side. -/
def Undisturbed (s : CallSessionManager) (r : Outcome) : Prop :=
  r.1.view = s.view ∧ ∀ e ∈ r.2, e.isRemote = false

/-- A signal that the manager leaves without effect on the call, whoever it is from. -/
def Ineffective (s : CallSessionManager) : Signal → Prop
  | .offer payload =>
    s.status ≠ .incoming ∧ s.status ≠ .calling ∧
      (s.status = .connected → payload.iceRestart = true →
        s.peerConnection = none ∨ (payload.sdp.read "").getD "" = "")
  | .ringing => s.status ≠ .calling
  | .answer sdp => s.peerConnection = none ∨ (sdp.read "").getD "" = ""
  | .candidate payload => payload.read = none
  | .candidates payloads => ∀ payload ∈ payloads, payload.read = none
  | .cancel reason => reason.read "" = none
  | .offline | .busy | .hangup | .rejected => False
  | .other => True

/-! ## The view after the parts of a step -/

@[simp] theorem undisturbed_self : s.Undisturbed (s, []) :=
  ⟨rfl, fun _ he => nomatch he⟩

theorem undisturbed_sent (target chat : String) (signal : SentSignal) :
    s.Undisturbed (s, [.sent target chat signal]) := by
  refine ⟨rfl, fun e he => ?_⟩
  rw [List.mem_singleton.mp he]
  rfl

theorem not_undisturbed_of_remote {s : CallSessionManager} {e : CallEvent} (he : e ∈ r.2)
    (hremote : e.isRemote = true) : ¬s.Undisturbed r := by
  intro h
  have hquiet := h.2 e he
  rw [hremote] at hquiet
  cases hquiet

theorem not_undisturbed_of_status {s : CallSessionManager} (h : r.1.status ≠ s.status) : ¬s.Undisturbed r :=
  fun hsame => h (congrArg CallView.status hsame.1)

theorem not_undisturbed_of_peer {s : CallSessionManager} (h : r.1.targetUserId ≠ s.targetUserId) :
    ¬s.Undisturbed r :=
  fun hsame => h (congrArg CallView.peer hsame.1)

theorem not_undisturbed_of_end {s t : CallSessionManager} {es : List CallEvent} {timer : CallTimer}
    (hend : endsWithCall timer.kind = false)
    (harmed : t.armed = s.armed.filter (fun other => !ringTimeout other.kind) ++ [timer]) :
    ¬s.Undisturbed (t, es) := by
  intro h
  have hends : t.view.ends = s.view.ends := congrArg CallView.ends h.1
  have hring : ∀ other : CallTimer, (!endsWithCall other.kind && !ringTimeout other.kind) = !endsWithCall
    other.kind := by
    rintro ⟨kind, due, callId⟩
    cases kind <;> rfl
  have hlength := congrArg List.length hends
  simp [view, harmed, List.filter_append, List.filter_filter, hring, hend] at hlength

/-! ## One signal -/

theorem takeOffer_targetUserId (sdp : String) (s : CallSessionManager) :
    (s.takeOffer sdp).targetUserId = s.targetUserId := by
  unfold takeOffer acceptIncomingCall
  dsimp only
  split_ifs <;> rfl

theorem renegotiation_undisturbed_iff (payload : OfferPayload) (s : CallSessionManager) :
    s.Undisturbed (s.handleOfferRenegotiation payload) ↔
      s.peerConnection = none ∨ (payload.sdp.read "").getD "" = "" := by
  unfold handleOfferRenegotiation
  cases hsdp : payload.sdp.read "" with
  | none => simp
  | some sdp =>
    cases hpeer : s.peerConnection with
    | none => simp
    | some =>
      by_cases hempty : sdp = ""
      · simp [hempty]
      · simpa [hempty] using not_undisturbed_of_remote (List.mem_singleton_self _) rfl

theorem offer_undisturbed_iff {s : CallSessionManager} {sender : String} (hforeign : s.Foreign sender)
    (chatId : String) (payload : OfferPayload) :
    s.Undisturbed (s.handleIncomingOffer sender chatId payload) ↔ s.Ineffective (.offer payload) := by
  obtain ⟨hidle, -, hsender⟩ := hforeign
  unfold handleIncomingOffer Ineffective
  by_cases htaken : s.status = .incoming ∨ s.status = .calling
  · -- The sender becomes the peer, whatever the payload is.
    have hpeer : ∀ r : Outcome, r.1.targetUserId = sender → ¬s.Undisturbed r := fun r hr =>
      not_undisturbed_of_peer (hr ▸ hsender)
    rw [if_pos (Or.inr htaken)]
    refine iff_of_false (hpeer _ ?_) (fun h => htaken.elim h.1 h.2.1)
    cases payload.callerName.read "" with
    | none => rfl
    | some =>
      cases payload.sdp.read "" with
      | none => rfl
      | some sdp => exact takeOffer_targetUserId sdp _
  · have hother : ¬(s.status = .idle ∨ s.status = .incoming ∨ s.status = .calling) := fun h =>
      h.elim hidle htaken
    obtain ⟨hincoming, hcalling⟩ := not_or.mp htaken
    rw [if_neg hother]
    by_cases hrestart : s.status = .connected ∧ payload.iceRestart = true
    · rw [if_pos ⟨hrestart.1, .inr hrestart.2⟩, renegotiation_undisturbed_iff]
      simp [hrestart.1, hrestart.2]
    · have hbusy : ¬(s.status = .connected ∧ (s.targetUserId = sender ∨ payload.iceRestart = true)) := fun h =>
        hrestart ⟨h.1, h.2.resolve_left (fun hsame => hsender hsame.symm)⟩
      rw [if_neg hbusy]
      exact iff_of_true (undisturbed_sent s sender chatId .busy)
        ⟨hincoming, hcalling, fun hconnected hice => absurd ⟨hconnected, hice⟩ hrestart⟩

theorem ringing_undisturbed_iff : s.Undisturbed (s.handleRinging, []) ↔ s.Ineffective .ringing := by
  unfold handleRinging Ineffective
  by_cases hcalling : s.status = .calling
  · rw [if_pos hcalling]
    have hchanged : CallStatus.ringing ≠ s.status := by simp [hcalling]
    exact iff_of_false (not_undisturbed_of_status hchanged) (not_not_intro hcalling)
  · rw [if_neg hcalling]
    exact iff_of_true s.undisturbed_self hcalling

theorem handleAnswer_undisturbed_iff (sdp : String) (s : CallSessionManager) :
    s.Undisturbed (s.handleAnswer sdp) ↔ s.peerConnection = none := by
  unfold handleAnswer
  cases s.peerConnection with
  | none => exact iff_of_true s.undisturbed_self rfl
  | some => exact iff_of_false (not_undisturbed_of_remote (List.mem_singleton_self _) rfl) (by simp)

theorem answer_undisturbed_iff (sdp : Field String) (sender chatId : String) (s : CallSessionManager) :
    s.Undisturbed (s.onSignal sender chatId (.answer sdp)) ↔ s.Ineffective (.answer sdp) := by
  simp only [onSignal, Ineffective]
  cases sdp.read "" with
  | none => simp
  | some text =>
    by_cases hempty : text = ""
    · simp [hempty]
    · simp [hempty, handleAnswer_undisturbed_iff]

theorem handleRemoteCandidate_of_none {payload : CandidatePayload} (h : payload.read = none)
    (s : CallSessionManager) : s.handleRemoteCandidate payload = (s, []) := by
  rw [handleRemoteCandidate, h]

theorem handleRemoteCandidate_of_some {payload : CandidatePayload} {candidate : Candidate}
    (h : payload.read = some candidate) (s : CallSessionManager) :
    (∃ peer, s.handleRemoteCandidate payload = (s, [.addedCandidate peer candidate])) ∨
      s.handleRemoteCandidate payload =
        ({ s with remoteIceCandidateQueue := s.remoteIceCandidateQueue ++ [candidate] }, []) := by
  rw [handleRemoteCandidate, h]
  cases s.peerConnection with
  | none => exact Or.inr rfl
  | some peer =>
    cases s.remoteDescriptionSet with
    | false => exact Or.inr rfl
    | true => exact Or.inl ⟨peer, rfl⟩

/-- Whatever a list of candidates does, the queue does not get shorter, and where it is as long as before and
nothing is given to the connection, the list has no candidate. -/
theorem handleRemoteCandidates_effect (payloads : List CandidatePayload) (s : CallSessionManager) :
    s.remoteIceCandidateQueue.length ≤ (s.handleRemoteCandidates payloads).1.remoteIceCandidateQueue.length ∧
      ((s.handleRemoteCandidates payloads).1.remoteIceCandidateQueue.length =
        s.remoteIceCandidateQueue.length → (∀ e ∈ (s.handleRemoteCandidates payloads).2, e.isRemote = false) →
          ∀ payload ∈ payloads, payload.read = none) := by
  induction payloads generalizing s with
  | nil => exact ⟨le_refl _, fun _ _ _ h => nomatch h⟩
  | cons payload _ ih =>
    unfold handleRemoteCandidates
    dsimp only
    obtain ⟨hlength, hnone⟩ := ih (s.handleRemoteCandidate payload).1
    cases hread : payload.read with
    | none =>
      rw [handleRemoteCandidate_of_none hread] at hlength hnone ⊢
      refine ⟨hlength, fun hsame hquiet other hother => ?_⟩
      rcases List.mem_cons.mp hother with rfl | hrest
      · exact hread
      · exact hnone hsame hquiet other hrest
    | some candidate =>
      rcases handleRemoteCandidate_of_some hread s with ⟨peer, heq⟩ | heq
      · rw [heq] at hlength ⊢
        refine ⟨hlength, fun _ hquiet => ?_⟩
        have hfalse := hquiet (.addedCandidate peer candidate) (by simp)
        exact nomatch hfalse
      · rw [heq] at hlength ⊢
        rw [List.length_append, List.length_singleton] at hlength
        exact ⟨by omega, fun hsame => absurd hsame (by omega)⟩

theorem handleRemoteCandidates_of_none {payloads : List CandidatePayload}
    (h : ∀ payload ∈ payloads, payload.read = none) : s.handleRemoteCandidates payloads = (s, []) := by
  induction payloads with
  | nil => rfl
  | cons payload _ ih =>
    have hhead := handleRemoteCandidate_of_none (h payload (List.mem_cons_self ..)) s
    have hrest := ih fun other hother => h other (List.mem_cons_of_mem _ hother)
    rw [handleRemoteCandidates, hhead, hrest]
    rfl

theorem candidates_undisturbed_iff (payloads : List CandidatePayload) (s : CallSessionManager) :
    s.Undisturbed (s.handleRemoteCandidates payloads) ↔ ∀ payload ∈ payloads, payload.read = none := by
  constructor
  · intro h
    have hqueue := congrArg (fun v => v.candidates.length) h.1
    exact (s.handleRemoteCandidates_effect payloads).2 hqueue h.2
  · intro h
    rw [handleRemoteCandidates_of_none s h]
    exact s.undisturbed_self

theorem candidate_undisturbed_iff (payload : CandidatePayload) (s : CallSessionManager) :
    s.Undisturbed (s.handleRemoteCandidate payload) ↔ payload.read = none := by
  have hlist := s.candidates_undisturbed_iff [payload]
  simpa [handleRemoteCandidates] using hlist

theorem not_undisturbed_clear {s : CallSessionManager} (hidle : s.status ≠ .idle)
    (hstatus : r.1.status = .idle) : ¬s.Undisturbed r :=
  not_undisturbed_of_status (hstatus ▸ hidle.symm)

theorem onSignal_undisturbed_iff {s : CallSessionManager} {sender : String} (hforeign : s.Foreign sender)
    (chatId : String) (signal : Signal) :
    s.Undisturbed (s.onSignal sender chatId signal) ↔ s.Ineffective signal := by
  have hidle : s.status ≠ .idle := hforeign.1
  cases signal with
  | offer payload => exact offer_undisturbed_iff hforeign chatId payload
  | ringing => exact s.ringing_undisturbed_iff
  | offline | busy => exact iff_of_false (not_undisturbed_of_end rfl rfl) id
  | answer sdp => exact s.answer_undisturbed_iff sdp sender chatId
  | candidate payload => exact s.candidate_undisturbed_iff payload
  | candidates payloads => exact s.candidates_undisturbed_iff payloads
  | cancel reason =>
    simp only [onSignal, Ineffective]
    cases reason.read "" with
    | none => exact iff_of_true s.undisturbed_self rfl
    | some => exact iff_of_false (not_undisturbed_clear hidle rfl) (Option.some_ne_none _)
  | hangup | rejected => exact iff_of_false (not_undisturbed_clear hidle rfl) id
  | other => exact iff_of_true s.undisturbed_self trivial

/-- A signal of a third party leaves the call as it is. -/
def Isolated (s : CallSessionManager) : CallAction → Prop
  | .signal sender chatId signal =>
    s.Foreign sender → ∀ r, s.step (.signal sender chatId signal) = some r → s.Undisturbed r
  | _ => True

/-- The signals of third parties are without effect. -/
def Contained (s : CallSessionManager) : CallAction → Prop
  | .signal sender _ signal => s.Foreign sender → s.Ineffective signal
  | _ => True

theorem isolated_iff_contained (a : CallAction) : s.Isolated a ↔ s.Contained a := by
  cases a with
  | signal _ chatId signal =>
    refine forall_congr' fun hforeign => ?_
    have hsignal := onSignal_undisturbed_iff hforeign chatId signal
    simpa [step] using hsignal
  | _ => exact Iff.rfl

end CallSessionManager

/-- Third parties leave the calls of a run alone exactly when they send nothing but signals without effect. -/
theorem foreign_signals_contained (as : List CallAction) : callMachine.Every (fun s _ a => s.Isolated a)
      {} [] as ↔ callMachine.Every (fun s _ a => s.Contained a) {} [] as :=
  Machine.every_iff (fun _ _ => True) (fun _ _ _ _ _ _ _ _ => trivial)
    (fun s _ a _ => CallSessionManager.isolated_iff_contained s a) as _ [] trivial

/-- Mallory hangs up while Alice is called. -/
theorem foreign_hangup : ¬∀ as, callMachine.Every (fun s _ a => s.Isolated a) {} [] as := by
  intro h
  have hevery := h [.startCall "c" "Alice" "u-alice" false, .signal "u-mallory" "c" .hangup]
  have hisolated := (hevery.2 _ _ rfl).1
  have hundisturbed := hisolated (by decide +kernel) _ rfl
  have hstatus := congrArg CallView.status hundisturbed.1
  exact absurd hstatus (by decide +kernel)

end LigamentApps.CallSession
