import LigamentApps.CallSession.CallSessionManager

/-!
# One connection for one call

What the manager holds, and what it has made and not closed: a connection, a captured stream, and a stream
that it made for the tracks of the other side. `Holdings` are these alone, with the few things that can happen
to them; a step of the manager is one of those. Nothing that is open is lost exactly when nothing of its kind
is open where something is made or taken. -/

namespace LigamentApps.CallSession

open List Option

variable {a : CallAction} (chatId : String) (s : CallSessionManager)

/-- What is held, what is open, and how much was made. -/
structure Holdings where
  connection : Option ℕ
  localStream : Option ℕ
  remoteStream : Option RemoteStream
  openPeers : List ℕ
  openCaptures : List ℕ
  openContainers : List ℕ
  peers : ℕ
  streams : ℕ

/-- Something is made or taken, and held from then on. -/
inductive Making
  | connect
  | capture
  | contain
  | take (remote : RemoteStream)
  deriving DecidableEq

namespace Holdings

/-- Whatever is open is held. -/
structure Owned (h : Holdings) : Prop where
  peers : ∀ peer ∈ h.openPeers, h.connection = some peer
  captures : ∀ stream ∈ h.openCaptures, h.localStream = some stream
  containers : ∀ stream ∈ h.openContainers, h.remoteStream = some (.made stream)

/-- What is open was made before. -/
structure Numbered (h : Holdings) : Prop where
  peers : ∀ peer ∈ h.openPeers, peer < h.peers
  captures : ∀ stream ∈ h.openCaptures, stream < h.streams
  containers : ∀ stream ∈ h.openContainers, stream < h.streams

/-- Everything that is held is closed. -/
def release (h : Holdings) : Holdings :=
  { h with
    connection := none
    localStream := none
    remoteStream := none
    openPeers := h.openPeers.filter fun peer => h.connection ≠ some peer
    openCaptures := h.openCaptures.filter fun stream => h.localStream ≠ some stream
    openContainers := h.openContainers.filter fun stream => h.remoteStream ≠ some (.made stream) }

/-- A connection or a stream is made that is closed at once. -/
def discard (h : Holdings) (peers streams : ℕ) : Holdings :=
  { h with peers := h.peers + peers, streams := h.streams + streams }

end Holdings

/-- The holdings after something is made or taken. -/
def Making.after (h : Holdings) : Making → Holdings
  | .connect => { h with peers := h.peers + 1, openPeers := h.peers :: h.openPeers, connection := some h.peers }
  | .capture =>
    { h with streams := h.streams + 1, openCaptures := h.streams :: h.openCaptures, localStream := some h.streams }
  | .contain =>
    { h with
      streams := h.streams + 1
      openContainers := h.streams :: h.openContainers
      remoteStream := some (.made h.streams) }
  | .take remote => { h with remoteStream := some remote }

/-- Nothing else of its kind is open. -/
def Making.Spares (h : Holdings) : Making → Prop
  | .connect => h.openPeers = []
  | .capture => h.openCaptures = []
  | .contain => h.openContainers = []
  | .take remote => ∀ stream ∈ h.openContainers, remote = .made stream

namespace Holdings

variable {h : Holdings}

theorem Owned.release (ho : h.Owned) : h.release.Owned := by
  constructor
  · intro peer hpeer
    obtain ⟨hopen, hother⟩ := mem_filter.mp hpeer
    exact absurd (ho.peers peer hopen) (of_decide_eq_true hother)
  · intro stream hstream
    obtain ⟨hopen, hother⟩ := mem_filter.mp hstream
    exact absurd (ho.captures stream hopen) (of_decide_eq_true hother)
  · intro stream hstream
    obtain ⟨hopen, hother⟩ := mem_filter.mp hstream
    exact absurd (ho.containers stream hopen) (of_decide_eq_true hother)

theorem Numbered.release (hn : h.Numbered) : h.release.Numbered := by
  constructor
  · exact fun peer hpeer => hn.peers peer (mem_of_mem_filter hpeer)
  · exact fun stream hstream => hn.captures stream (mem_of_mem_filter hstream)
  · exact fun stream hstream => hn.containers stream (mem_of_mem_filter hstream)

theorem Owned.discard (ho : h.Owned) (peers streams : ℕ) : (h.discard peers streams).Owned :=
  ⟨ho.peers, ho.captures, ho.containers⟩

theorem Numbered.discard (hn : h.Numbered) (peers streams : ℕ) : (h.discard peers streams).Numbered := by
  constructor
  · exact fun peer hpeer => Nat.lt_add_right peers (hn.peers peer hpeer)
  · exact fun stream hstream => Nat.lt_add_right streams (hn.captures stream hstream)
  · exact fun stream hstream => Nat.lt_add_right streams (hn.containers stream hstream)

/-- Where a new number is put on a list of smaller ones and alone held, nothing open is lost exactly when the
list was empty. -/
theorem all_new_iff {l : List ℕ} {n : ℕ} (hl : ∀ i ∈ l, i < n) : (∀ i ∈ n :: l, n = i) ↔ l = [] := by
  constructor
  · intro hall
    cases l with
    | nil => rfl
    | cons i =>
      have hless : i < n := hl i (mem_cons_self ..)
      have heq : n = i := hall i (by simp)
      omega
  · rintro rfl i hi
    exact (mem_singleton.mp hi).symm

theorem owned_after_iff (ho : h.Owned) (hn : h.Numbered) (making : Making) :
    (making.after h).Owned ↔ making.Spares h := by
  cases making with
  | connect =>
    refine Iff.trans ?_ (all_new_iff hn.peers)
    constructor
    · exact fun hown peer hpeer => Option.some.inj (hown.peers peer hpeer)
    · exact fun hall => ⟨fun peer hpeer => congrArg some (hall peer hpeer), ho.captures, ho.containers⟩
  | capture =>
    refine Iff.trans ?_ (all_new_iff hn.captures)
    constructor
    · exact fun hown stream hstream => Option.some.inj (hown.captures stream hstream)
    · exact fun hall => ⟨ho.peers, fun stream hstream => congrArg some (hall stream hstream), ho.containers⟩
  | contain =>
    refine Iff.trans ?_ (all_new_iff hn.containers)
    constructor
    · exact fun hown stream hstream => RemoteStream.made.inj (Option.some.inj (hown.containers stream hstream))
    · exact fun hall =>
        ⟨ho.peers, ho.captures, fun stream hstream => congrArg (some ∘ RemoteStream.made) (hall stream hstream)⟩
  | take =>
    constructor
    · exact fun hown stream hstream => Option.some.inj (hown.containers stream hstream)
    · exact fun hall => ⟨ho.peers, ho.captures, fun stream hstream => congrArg some (hall stream hstream)⟩

theorem numbered_cons {l : List ℕ} {n : ℕ} (hl : ∀ i ∈ l, i < n) : ∀ i ∈ n :: l, i < n + 1 := by
  intro i hi
  rcases mem_cons.mp hi with rfl | hrest
  · omega
  · have hless := hl i hrest
    omega

theorem numbered_after (hn : h.Numbered) (making : Making) : (making.after h).Numbered := by
  have hcaptures : ∀ stream ∈ h.openCaptures, stream < h.streams + 1 := fun stream hstream =>
    Nat.lt_succ_of_lt (hn.captures stream hstream)
  have hcontainers : ∀ stream ∈ h.openContainers, stream < h.streams + 1 := fun stream hstream =>
    Nat.lt_succ_of_lt (hn.containers stream hstream)
  cases making with
  | connect => exact ⟨numbered_cons hn.peers, hn.captures, hn.containers⟩
  | capture => exact ⟨hn.peers, numbered_cons hn.captures, hcontainers⟩
  | contain => exact ⟨hn.peers, hcaptures, numbered_cons hn.containers⟩
  | take => exact ⟨hn.peers, hn.captures, hn.containers⟩

end Holdings

namespace CallSessionManager

def holdings (s : CallSessionManager) : Holdings where
  connection := s.peerConnection
  localStream := s.localStream
  remoteStream := s.remoteStream
  openPeers := s.openPeers
  openCaptures := s.openCaptures
  openContainers := s.openContainers
  peers := s.peers
  streams := s.streams

/-- At most one connection and at most one captured stream are open, and what was made is the current one or
closed. -/
structure OneConnection (s : CallSessionManager) : Prop where
  onePeer : ∀ peer ∈ s.openPeers, ∀ other ∈ s.openPeers, peer = other
  oneCapture : ∀ stream ∈ s.openCaptures, ∀ other ∈ s.openCaptures, stream = other
  peers : ∀ peer ∈ s.openPeers, s.peerConnection = some peer
  captures : ∀ stream ∈ s.openCaptures, s.localStream = some stream
  containers : ∀ stream ∈ s.openContainers, s.remoteStream = some (.made stream)

theorem oneConnection_iff : s.OneConnection ↔ s.holdings.Owned := by
  constructor
  · exact fun h => ⟨h.peers, h.captures, h.containers⟩
  · intro h
    refine ⟨fun peer hpeer other hother => ?_, fun stream hstream other hother => ?_, h.peers, h.captures,
      h.containers⟩
    · exact Option.some.inj ((h.peers peer hpeer).symm.trans (h.peers other hother))
    · exact Option.some.inj ((h.captures stream hstream).symm.trans (h.captures other hother))

/-- What the next step of a method makes or takes. -/
def workMakes (callId : Option ℕ) (reply : Reply) (s : CallSessionManager) : Work → Option Making
  | .setup _ (.media _) => if reply.failed = false ∧ s.isStillActive callId = true then some .capture else none
  | .setup _ (.peer _) => if reply.failed = false ∧ s.isStillActive callId = true then some .connect else none
  | .track (.making _) => if reply.failed then none else some .contain
  | .track (.volume remote) => if reply.answer then some (.take remote) else none
  | .track (.adding remote) => some (.take remote)
  | _ => none

def makes (s : CallSessionManager) : CallAction → Option Making
  | .resume index reply =>
    (s.waiting[index]?).bind fun continuation => s.workMakes continuation.callId reply continuation.work
  | .callback index (.track (some id) .video true) =>
    (s.callbacks[index]?).bind fun peer => if s.isStillActive peer.callId then some (.take (.given id)) else none
  | _ => none

theorem workMakes_waiting (callId : Option ℕ) (reply : Reply) (s : CallSessionManager) (left : List Continuation)
    (work : Work) : workMakes callId reply { s with waiting := left } work = s.workMakes callId reply work :=
  rfl

/-- Where a step makes or takes something, nothing else of its kind is open. -/
def Sparing (s : CallSessionManager) (a : CallAction) : Prop :=
  ∀ making, s.makes a = some making → making.Spares s.holdings

/-! ## The holdings after the parts of a step -/

/-- Nothing is made or taken, though everything may be closed. -/
def Plain (h : Holdings) (t : CallSessionManager) : Prop :=
  t.holdings = h ∨ t.holdings = h.release ∨ ∃ peers streams, t.holdings = h.discard peers streams

variable {s : CallSessionManager} {callId : Option ℕ}

theorem plain_self (s : CallSessionManager) : Plain s.holdings s := Or.inl rfl

theorem plain_clear (s : CallSessionManager) : Plain s.holdings s.clear := Or.inr (Or.inl rfl)

variable (kind : SetupKind)

theorem holdings_finishSetup (s : CallSessionManager) : (s.finishSetup kind).holdings = s.holdings := by
  cases kind <;> rfl

theorem plain_finishSetup {h : Holdings} {t : CallSessionManager} (ht : Plain h t) :
    Plain h (t.finishSetup kind) := by
  unfold Plain at ht ⊢
  rwa [holdings_finishSetup]

theorem plain_setupFailed (s : CallSessionManager) : Plain s.holdings (s.setupFailed callId kind).1 := by
  unfold setupFailed
  split
  · exact plain_finishSetup kind s.plain_clear
  · exact plain_finishSetup kind s.plain_self

theorem plain_whileActive {next : Outcome} (hnext : Plain s.holdings next.1) :
    Plain s.holdings (s.whileActive callId kind next).1 := by
  unfold whileActive
  split
  · exact hnext
  · exact plain_finishSetup kind s.plain_self

theorem plain_proceed (reply : Reply) (kind : SetupKind) {next : Outcome} (hnext : Plain s.holdings next.1) :
    Plain s.holdings (s.proceed reply callId kind next).1 := by
  unfold proceed
  split
  · exact s.plain_setupFailed kind
  · exact plain_whileActive kind hnext

theorem plain_permissionDenied (s : CallSessionManager) : Plain s.holdings (s.permissionDenied kind).1 := by
  cases kind with
  | outgoing | accepting => exact s.plain_clear

theorem holdings_addTracks (peer tracks : ℕ) (s : CallSessionManager) :
    (s.addTracks callId kind peer tracks).1.holdings = s.holdings := by
  cases tracks with
  | zero => cases kind <;> rfl
  | succ => rfl

theorem holdings_flushRemoteCandidates (s : CallSessionManager) :
    s.flushRemoteCandidates.1.holdings = s.holdings := by
  unfold flushRemoteCandidates
  split <;> rfl

theorem holdings_sendAnswer (sdp : String) (s : CallSessionManager) :
    (s.sendAnswer kind sdp).1.holdings = s.holdings :=
  holdings_finishSetup kind _

theorem resumeSetup_holdings (stage : SetupStage) (reply : Reply) (s : CallSessionManager) :
    (∀ making, s.workMakes callId reply (.setup kind stage) = some making →
        (s.resumeSetup callId kind stage reply).1.holdings = making.after s.holdings) ∧
      (s.workMakes callId reply (.setup kind stage) = none →
        Plain s.holdings (s.resumeSetup callId kind stage reply).1) := by
  have hawait : ∀ next : SetupStage, Plain s.holdings (s.awaitSetup callId kind next) := fun _ => Or.inl rfl
  cases stage with
  | media wantVideo =>
    simp only [workMakes, resumeSetup, mediaAcquired]
    cases reply.failed with
    | true =>
      refine ⟨nofun, fun _ => ?_⟩
      cases wantVideo with
      | true => exact Or.inl rfl
      | false => exact s.plain_setupFailed kind
    | false =>
      cases s.isStillActive callId with
      | true =>
        refine ⟨fun making hmaking => ?_, nofun⟩
        cases hmaking
        rfl
      | false => exact ⟨nofun, fun _ => plain_finishSetup kind (Or.inr (Or.inr ⟨0, 1, rfl⟩))⟩
  | peer tracks =>
    simp only [workMakes, resumeSetup, peerCreated]
    cases reply.failed with
    | true => exact ⟨nofun, fun _ => s.plain_setupFailed kind⟩
    | false =>
      cases s.isStillActive callId with
      | true =>
        refine ⟨fun making hmaking => ?_, nofun⟩
        cases hmaking
        exact holdings_addTracks kind s.peers tracks _
      | false => exact ⟨nofun, fun _ => Or.inr (Or.inr ⟨1, 0, rfl⟩)⟩
  | permissions =>
    refine ⟨nofun, fun _ => plain_proceed reply kind ?_⟩
    cases reply.answer with
    | true => exact hawait _
    | false => exact s.plain_permissionDenied kind
  | renderers | iceServers => exact ⟨nofun, fun _ => plain_whileActive kind (hawait _)⟩
  | closing => exact ⟨nofun, fun _ => plain_finishSetup kind s.plain_self⟩
  | tracks => exact ⟨nofun, fun _ => plain_proceed reply kind (Or.inl (holdings_addTracks ..))⟩
  | candidates _ flush =>
    refine ⟨nofun, fun _ => ?_⟩
    cases flush with
    | none => exact plain_whileActive kind (hawait _)
    | some => exact hawait _
  | remoteDescription =>
    exact ⟨nofun, fun _ => plain_proceed reply kind (.inl (holdings_flushRemoteCandidates _))⟩
  | answerDescription => exact ⟨nofun, fun _ => plain_proceed reply kind (Or.inl (holdings_sendAnswer ..))⟩
  | _ => exact ⟨nofun, fun _ => plain_proceed reply kind (Or.inl rfl)⟩

theorem holdings_resumeIceRestart (peer : ℕ) (sdp : Option String) (reply : Reply) (s : CallSessionManager) :
    (s.resumeIceRestart callId peer sdp reply).1.holdings = s.holdings := by
  cases sdp with
  | none | some =>
    simp only [resumeIceRestart]
    split <;> rfl

theorem holdings_resumeAnswer (peer : ℕ) (stage : AnswerStage) (reply : Reply) (s : CallSessionManager) :
    (s.resumeAnswer callId peer stage reply).1.holdings = s.holdings := by
  cases stage with
  | remoteDescription =>
    simp only [resumeAnswer]
    split
    · rfl
    · exact holdings_flushRemoteCandidates _
  | candidates flush => cases flush <;> rfl

theorem holdings_resumeRenegotiation (peer : ℕ) (stage : RenegotiationStage) (reply : Reply)
    (s : CallSessionManager) : (s.resumeRenegotiation callId peer stage reply).1.holdings = s.holdings := by
  cases stage with
  | remoteDescription =>
    simp only [resumeRenegotiation]
    split
    · rfl
    · exact holdings_flushRemoteCandidates _
  | candidates flush => cases flush <;> rfl
  | answer | answerDescription =>
    simp only [resumeRenegotiation]
    split <;> rfl

theorem resumeTrack_holdings (stage : TrackStage) (reply : Reply) (s : CallSessionManager) :
    (∀ making, s.workMakes callId reply (.track stage) = some making →
        (s.resumeTrack callId stage reply).holdings = making.after s.holdings) ∧
      (s.workMakes callId reply (.track stage) = none → Plain s.holdings (s.resumeTrack callId stage reply)) := by
  cases stage with
  | making kind =>
    simp only [workMakes, resumeTrack]
    cases reply.failed with
    | true => exact ⟨nofun, fun _ => s.plain_self⟩
    | false =>
      refine ⟨fun making hmaking => ?_, nofun⟩
      cases hmaking
      simp only [Bool.false_eq_true, if_false]
      split
      · cases kind <;> rfl
      · rfl
  | volume =>
    simp only [workMakes, resumeTrack]
    cases reply.answer with
    | true =>
      refine ⟨fun making hmaking => ?_, nofun⟩
      cases hmaking
      rfl
    | false => exact ⟨nofun, fun _ => s.plain_self⟩
  | adding =>
    refine ⟨fun making hmaking => ?_, nofun⟩
    cases hmaking
    rfl

theorem resume_holdings (continuation : Continuation) (reply : Reply) (s : CallSessionManager) :
    (∀ making, s.workMakes continuation.callId reply continuation.work = some making →
        (s.resume continuation reply).1.holdings = making.after s.holdings) ∧
      (s.workMakes continuation.callId reply continuation.work = none →
        Plain s.holdings (s.resume continuation reply).1) := by
  unfold resume
  cases continuation.work with
  | setup kind stage => exact s.resumeSetup_holdings kind stage reply
  | iceRestart peer sdp => exact ⟨nofun, fun _ => Or.inl (s.holdings_resumeIceRestart peer sdp reply)⟩
  | answer peer stage => exact ⟨nofun, fun _ => Or.inl (s.holdings_resumeAnswer peer stage reply)⟩
  | renegotiation peer stage => exact ⟨nofun, fun _ => Or.inl (s.holdings_resumeRenegotiation peer stage reply)⟩
  | track stage => exact s.resumeTrack_holdings stage reply

theorem holdings_performIceRestart (s : CallSessionManager) : s.performIceRestart.holdings = s.holdings := by
  unfold performIceRestart
  split
  · rfl
  · split <;> rfl

theorem plain_onConnectionState (peer : PeerCallbacks) (state : ConnectionState) (s : CallSessionManager) :
    Plain s.holdings (s.onConnectionState peer state).1 := by
  cases state with
  | connected => exact Or.inl rfl
  | failed => exact s.plain_clear
  | disconnected =>
    simp only [onConnectionState]
    split
    · exact .inl (holdings_performIceRestart _)
    · exact s.plain_clear
  | other => exact s.plain_self

theorem holdings_queueOutgoingCandidate (candidate : Option Candidate) (s : CallSessionManager) :
    (s.queueOutgoingCandidate candidate).holdings = s.holdings := by
  cases candidate with
  | none => rfl
  | some =>
    simp only [queueOutgoingCandidate]
    split <;> rfl

theorem onTrack_holdings (callId : Option ℕ) (stream : Option String) (kind : TrackKind) (known : Bool)
    (s : CallSessionManager) :
    (s.onTrack callId stream kind known).holdings =
      match stream, kind, known with
      | some id, .video, true => (Making.take (.given id)).after s.holdings
      | _, _, _ => s.holdings := by
  cases stream with
  | some => cases kind <;> cases known <;> rfl
  | none =>
    unfold onTrack
    cases hremote : s.remoteStream with
    | none => rfl
    | some =>
      cases kind <;> cases known <;> simp [placeTrack, holdings, await, hremote]

theorem holdings_startCall (chatTitle targetUserId : String) (isVideo : Bool) (s : CallSessionManager) :
    (s.startCall chatId chatTitle targetUserId isVideo).holdings = s.holdings := by
  unfold startCall
  split <;> rfl

theorem holdings_prepareIncomingCall (isVideo : Bool) (s : CallSessionManager) :
    (s.prepareIncomingCall chatId isVideo).holdings = s.holdings := by
  unfold prepareIncomingCall
  split <;> rfl

theorem holdings_acceptIncomingCall : s.acceptIncomingCall.holdings = s.holdings := by
  unfold acceptIncomingCall
  split_ifs <;> rfl

theorem holdings_takeOffer (sdp : String) (s : CallSessionManager) : (s.takeOffer sdp).holdings = s.holdings := by
  unfold takeOffer
  dsimp only
  split
  · rw [holdings_acceptIncomingCall]
    split <;> rfl
  · split <;> rfl

theorem holdings_handleOfferRenegotiation (payload : OfferPayload) (s : CallSessionManager) :
    (s.handleOfferRenegotiation payload).1.holdings = s.holdings := by
  unfold handleOfferRenegotiation
  split
  · split <;> rfl
  · rfl

theorem holdings_handleIncomingOffer (fromUser chatId : String) (payload : OfferPayload)
    (s : CallSessionManager) : (s.handleIncomingOffer fromUser chatId payload).1.holdings = s.holdings := by
  unfold handleIncomingOffer
  split
  · split
    · rfl
    · rfl
    · exact holdings_takeOffer _ _
  · split
    · exact s.holdings_handleOfferRenegotiation payload
    · rfl

theorem holdings_handleRemoteCandidate (payload : CandidatePayload) (s : CallSessionManager) :
    (s.handleRemoteCandidate payload).1.holdings = s.holdings := by
  unfold handleRemoteCandidate
  split
  · rfl
  · split <;> rfl

theorem holdings_handleRemoteCandidates (payloads : List CandidatePayload) (s : CallSessionManager) :
    (s.handleRemoteCandidates payloads).1.holdings = s.holdings := by
  induction payloads generalizing s with
  | nil => rfl
  | cons payload _ ih =>
    have hfirst := s.holdings_handleRemoteCandidate payload
    have hrest := ih (s.handleRemoteCandidate payload).1
    exact hrest.trans hfirst

theorem holdings_handleAnswer (sdp : String) (s : CallSessionManager) :
    (s.handleAnswer sdp).1.holdings = s.holdings := by
  unfold handleAnswer
  split <;> rfl

theorem plain_onSignal (sender chatId : String) (signal : Signal) (s : CallSessionManager) :
    Plain s.holdings (s.onSignal sender chatId signal).1 := by
  cases signal with
  | offer payload => exact Or.inl (s.holdings_handleIncomingOffer sender chatId payload)
  | ringing =>
    simp only [onSignal, handleRinging]
    split <;> exact .inl rfl
  | offline | busy => exact Or.inl rfl
  | answer =>
    simp only [onSignal]
    split
    · exact s.plain_self
    · split
      · exact s.plain_self
      · exact .inl (s.holdings_handleAnswer _)
  | candidate payload => exact Or.inl (s.holdings_handleRemoteCandidate payload)
  | candidates payloads => exact Or.inl (s.holdings_handleRemoteCandidates payloads)
  | cancel =>
    simp only [onSignal]
    split
    · exact s.plain_clear
    · exact s.plain_self
  | hangup | rejected => exact s.plain_clear
  | other => exact s.plain_self

theorem plain_fire (timer : CallTimer) (s : CallSessionManager) : Plain s.holdings (s.fire timer).1 := by
  unfold fire
  cases timer.kind with
  | outgoingRing | incomingRing | reconnect | offlineEnd =>
    dsimp only
    split
    · exact s.plain_clear
    · exact s.plain_self
  | call => exact Or.inl rfl
  | candidateBatch =>
    dsimp only [flushOutgoingCandidates]
    split <;> exact .inl rfl
  | busyEnd => exact s.plain_clear

theorem callback_holdings (peer : PeerCallbacks) (event : PeerEvent) (s : CallSessionManager) : match event with
    | .track (some id) .video true =>
      (s.callback peer event).1.holdings =
        if s.isStillActive peer.callId then (Making.take (.given id)).after s.holdings else s.holdings
    | _ => Plain s.holdings (s.callback peer event).1 := by
  unfold callback
  cases s.isStillActive peer.callId with
  | false =>
    split
    · rfl
    · exact s.plain_self
  | true =>
    cases event with
    | connectionState state => exact s.plain_onConnectionState peer state
    | iceConnectionState connected => cases connected <;> exact Or.inl rfl
    | iceCandidate candidate => exact Or.inl (s.holdings_queueOutgoingCandidate candidate)
    | track stream kind known =>
      have htrack := s.onTrack_holdings peer.callId stream kind known
      split
      · rename_i id heq
        cases heq
        exact htrack
      · rename_i hother
        refine .inl (htrack.trans ?_)
        split
        · exact absurd rfl (hother _)
        · rfl

/-- What a step does to the connections and streams that are held. -/
theorem step_holdings {s : CallSessionManager} {r : Outcome} (hs : s.step a = some r) :
    (∀ making, s.makes a = some making → r.1.holdings = making.after s.holdings) ∧
      (s.makes a = none → Plain s.holdings r.1) := by
  cases a with
  | startCall chatId chatTitle targetUserId isVideo =>
    cases hs
    exact ⟨nofun, fun _ => .inl (s.holdings_startCall chatId chatTitle targetUserId isVideo)⟩
  | prepareIncomingCall chatId isVideo =>
    cases hs
    exact ⟨nofun, fun _ => .inl (s.holdings_prepareIncomingCall chatId isVideo)⟩
  | acceptIncomingCall =>
    cases hs
    exact ⟨nofun, fun _ => .inl s.holdings_acceptIncomingCall⟩
  | rejectIncomingCall | endCall =>
    cases hs
    exact ⟨nofun, fun _ => s.plain_clear⟩
  | callKitEnded =>
    cases hs
    refine ⟨nofun, fun _ => ?_⟩
    split
    · exact s.plain_clear
    · split
      · exact s.plain_clear
      · exact s.plain_self
  | toggleCamera | elapse =>
    cases hs
    exact ⟨nofun, fun _ => .inl rfl⟩
  | signal sender chatId signal =>
    cases hs
    exact ⟨nofun, fun _ => s.plain_onSignal sender chatId signal⟩
  | callback index event =>
    simp only [step] at hs
    cases hget : s.callbacks[index]? with
    | none => simp [hget] at hs
    | some peer =>
      rw [hget] at hs
      cases hs
      have hcallback := s.callback_holdings peer event
      unfold makes
      split at hcallback
      · simp only [hget, bind_some]
        split at hcallback
        · rename_i hactive
          simp only [hactive, if_true]
          exact ⟨fun making hmaking => Option.some.inj hmaking ▸ hcallback, nofun⟩
        · rename_i hactive
          simp only [hactive]
          exact ⟨nofun, fun _ => .inl hcallback⟩
      · rename_i hother
        split
        · rename_i heq
          cases heq
        · rename_i heq
          obtain ⟨-, hevent⟩ := CallAction.callback.inj heq
          exact absurd hevent (hother _)
        · exact ⟨nofun, fun _ => hcallback⟩
  | timer =>
    simp only [step] at hs
    refine ⟨nofun, fun _ => ?_⟩
    split at hs
    · exact nomatch hs
    · split at hs
      · cases hs
        exact plain_fire _ _
      · exact nomatch hs
  | resume index reply =>
    simp only [step] at hs
    unfold makes
    cases hget : s.waiting[index]? with
    | none => simp [hget] at hs
    | some continuation =>
      rw [hget] at hs
      cases hs
      have hresume := resume_holdings continuation reply { s with waiting := s.waiting.eraseIdx index }
      rw [workMakes_waiting] at hresume
      simp only [hget, bind_some]
      exact hresume

theorem step_of_makes {s : CallSessionManager} {making : Making} (h : s.makes a = some making) :
    ∃ r, s.step a = some r := by
  unfold makes at h
  split at h
  · rename_i index reply
    cases hget : s.waiting[index]? with
    | none => simp [hget] at h
    | some => exact ⟨_, by rw [step, hget]; rfl⟩
  · rename_i index id
    cases hget : s.callbacks[index]? with
    | none => simp [hget] at h
    | some => exact ⟨_, by rw [step, hget]; rfl⟩
  · exact nomatch h

/-- The invariant of a run in which nothing that is open is lost. -/
def Kept (s : CallSessionManager) : Prop := s.holdings.Owned ∧ s.holdings.Numbered

theorem plain_kept {t : CallSessionManager} (hkept : s.Kept) (ht : Plain s.holdings t) : t.Kept := by
  obtain ⟨howned, hnumbered⟩ := hkept
  unfold Kept
  rcases ht with heq | heq | ⟨peers, streams, heq⟩
  · exact heq ▸ ⟨howned, hnumbered⟩
  · exact heq ▸ ⟨howned.release, hnumbered.release⟩
  · exact heq ▸ ⟨howned.discard peers streams, hnumbered.discard peers streams⟩

theorem oneConnection_step_iff (hkept : s.Kept) : (∀ r, s.step a = some r → r.1.OneConnection) ↔ s.Sparing a := by
  obtain ⟨howned, hnumbered⟩ := hkept
  constructor
  · intro h making hmakes
    obtain ⟨r, hs⟩ := step_of_makes hmakes
    have hafter := (step_holdings hs).1 making hmakes
    have howned' := (oneConnection_iff r.1).mp (h r hs)
    exact (Holdings.owned_after_iff howned hnumbered making).mp (hafter ▸ howned')
  · intro h r hs
    rw [oneConnection_iff]
    obtain ⟨hsome, hnone⟩ := step_holdings hs
    cases hmakes : s.makes a with
    | none => exact (plain_kept ⟨howned, hnumbered⟩ (hnone hmakes)).1
    | some making =>
      rw [hsome making hmakes]
      exact (Holdings.owned_after_iff howned hnumbered making).mpr (h making hmakes)

theorem kept_step {r : Outcome} (hkept : s.Kept) (hsparing : s.Sparing a) (hs : s.step a = some r) : r.1.Kept := by
  have howned := (oneConnection_iff r.1).mp ((oneConnection_step_iff hkept).mpr hsparing r hs)
  refine ⟨howned, ?_⟩
  obtain ⟨hsome, hnone⟩ := step_holdings hs
  cases hmakes : s.makes a with
  | none => exact (plain_kept hkept (hnone hmakes)).2
  | some making =>
    rw [hsome making hmakes]
    exact Holdings.numbered_after hkept.2 making

end CallSessionManager

/-- In a run there is at most one open connection and one captured stream, and whatever else was made is
closed, exactly when nothing is made or taken while another of its kind is open. -/
theorem one_connection (as : List CallAction) :
    callMachine.Every (fun s _ a => ∀ r, s.step a = some r → r.1.OneConnection) {} [] as ↔
      callMachine.Every (fun s _ a => s.Sparing a) {} [] as :=
  Machine.every_iff (fun s _ => s.Kept) (fun _ _ _ _ _ hkept hsparing hs =>
    CallSessionManager.kept_step hkept hsparing hs)
    (fun _ _ _ hkept => CallSessionManager.oneConnection_step_iff hkept) as _ []
    ⟨⟨nofun, nofun, nofun⟩, ⟨nofun, nofun, nofun⟩⟩

/-- Bob's call is accepted once more when the answer is sent and the connection is not up yet: the first
stream is captured still when the second is. -/
theorem accepted_twice :
    ¬∀ as, callMachine.Every (fun s _ a => ∀ r, s.step a = some r → r.1.OneConnection) {} [] as := by
  intro h
  let go : CallAction := .resume 0 { tracks := 1 }
  let granted : CallAction := .resume 0 { answer := true }
  let as : List CallAction := [.signal "u-bob" "c" (.offer { sdp := .given "v=0" }), .acceptIncomingCall,
    granted, go, go,
    go, go, go, go, go, go, go, go, .acceptIncomingCall, granted, go, go]
  have hcheck : (callMachine.exec (fun _ _ _ => true) {} [] as).any (fun r =>
      (r.1.step go).any fun t => t.1.openCaptures = [1, 0]) = true := by
    decide +kernel
  obtain ⟨s, es, hpath, hs⟩ := Machine.path_of_check hcheck
  obtain ⟨t, hstep, hopen⟩ := (Option.any_eq_true ..).mp hs
  have hone := (h (as ++ [go])).good hpath t hstep
  have hcaptures : t.1.openCaptures = [1, 0] := of_decide_eq_true hopen
  have hsame := hone.oneCapture 1 (by simp [hcaptures]) 0 (by simp [hcaptures])
  cases hsame

end LigamentApps.CallSession
