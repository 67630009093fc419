import Mathlib.Data.List.Perm.Basic
import LigamentApps.CallSession.CallIsolation
import LigamentApps.CallSession.OneConnection

/-!
# The way of a candidate through a manager

What a step of the manager can do to the candidates that it holds: those of its own connection that are still
to be sent, and those of the other side, which wait in the queue or are handed on by a method that awaits
`addCandidate`. -/

namespace LigamentApps.CallSession

open List Option Bool

variable {kind : SetupKind} {callId : Option ℕ} {work : Work}

/-- What a method still hands on. -/
def Work.flush : Work → Option Flush
  | .setup _ (.candidates _ flush) => flush
  | .answer _ (.candidates flush) => flush
  | .renegotiation _ (.candidates flush) => flush
  | _ => none

def Work.isSetup : Work → Bool
  | .setup _ _ => true
  | _ => false

/-- A setup has made its connection. -/
def Work.hasPeer : Work → Bool
  | .setup _ (.tracks _ _) | .setup _ (.offer _) | .setup _ (.offerDescription _) | .setup _ (.remoteDescription _)
  | .setup _ (.candidates _ _) | .setup _ (.answer _) | .setup _ (.answerDescription _) => true
  | _ => false

/-- What the surroundings of a manager have to do with candidates. -/
inductive CandidateEvent
  | adds (peer : ℕ) (candidate : Candidate)
  | sends (target : String) (candidates : List Candidate)
  /-- The first offer of a call is sent. -/
  | offers (target : String)

/-- What a signal has to do with candidates. -/
def SentSignal.candidateEvent (target : String) : SentSignal → Option CandidateEvent
  | .candidate c => some (.sends target [c])
  | .candidates cs => some (.sends target cs)
  | .offer _ _ false => some (.offers target)
  | _ => none

def CallEvent.candidateEvent : CallEvent → Option CandidateEvent
  | .addedCandidate peer candidate => some (.adds peer candidate)
  | .sent target _ signal => signal.candidateEvent target
  | _ => none

def candidateEvents (es : List CallEvent) : List CandidateEvent := es.filterMap CallEvent.candidateEvent

/-- What a manager has of candidates, and to whom it sends its own. -/
structure CandidateCore where
  queue : List Candidate
  batch : List Candidate
  connection : Option ℕ
  described : Bool
  target : String
  pendingOffer : String

namespace CallSessionManager

variable (s : CallSessionManager)

def core : CandidateCore where
  queue := s.remoteIceCandidateQueue
  batch := s.outgoingCandidateBatch
  connection := s.peerConnection
  described := s.remoteDescriptionSet
  target := s.targetUserId
  pendingOffer := s.pendingOfferSdp

def flushes : List Flush := s.waiting.filterMap (·.work.flush)

def setups : ℕ := s.waiting.countP (·.work.isSetup)

/-- A setup waits that has made its connection. -/
def peered : Bool := s.waiting.any (·.work.hasPeer)

/-- There is no call, and nothing is left of one. -/
def NoCall : Prop := s.toCallFields = { isVideo := s.isVideo, isCameraOff := s.isCameraOff }

/-- The candidate that a connection of the call calls back with. -/
def gathered : CallAction → Option Candidate
  | .callback index (.iceCandidate candidate) =>
    (s.callbacks[index]?).bind fun peer => if s.isStillActive peer.callId then candidate else none
  | _ => none

/-- The offer starts a call anew. -/
def TakesOffer : CallAction → Prop
  | .signal _ _ (.offer _) => s.status = .idle ∨ s.status = .incoming ∨ s.status = .calling
  | _ => False

end CallSessionManager

/-- The candidates that come with a signal. -/
def CallAction.received : CallAction → List Candidate
  | .signal _ _ (.candidate payload) => [payload].filterMap CandidatePayload.read
  | .signal _ _ (.candidates payloads) => payloads.filterMap CandidatePayload.read
  | _ => []

/-- Who has sent a signal. -/
def CallAction.sender : CallAction → Option String
  | .signal sender _ _ => some sender
  | _ => none

/-- The methods that wait after a step are the ones of before, or fewer, or have come further. -/
structure Onward (s t : CallSessionManager) : Prop where
  flushes : t.flushes.Perm s.flushes
  setups : t.setups ≤ s.setups
  peered : t.peered = true → s.peered = true
  called : t.callbacks ≠ [] → s.callbacks ≠ [] ∨ 0 < s.setups

/-- What a step can do. -/
inductive CandidateStep (s : CallSessionManager) (a : CallAction) (t : CallSessionManager) :
    List CandidateEvent → Prop
  | keeps (hgathered : s.gathered a = none) (hreceived : a.received = []) (hcore : t.core = s.core)
    (hon : Onward s t) : CandidateStep s a t []
  | clears (hnone : t.NoCall) (hgathered : s.gathered a = none) (hreceived : a.received = [])
    (hon : Onward s t) : CandidateStep s a t []
  | gathers (candidate : Candidate) (hgathered : s.gathered a = some candidate) (hreceived : a.received = [])
    (htarget : s.targetUserId ≠ "") (hcore : t.core = { s.core with batch := s.outgoingCandidateBatch ++ [candidate] })
    (hon : Onward s t) : CandidateStep s a t []
  | drops (hcalled : s.callbacks ≠ []) (htarget : s.targetUserId = "") (hreceived : a.received = [])
    (hcore : t.core = s.core) (hon : Onward s t) : CandidateStep s a t []
  | sends (hgathered : s.gathered a = none) (hreceived : a.received = [])
    (hcore : t.core = { s.core with batch := [] })
    (hon : Onward s t) : CandidateStep s a t [.sends s.targetUserId s.outgoingCandidateBatch]
  | queues (hgathered : s.gathered a = none) (hclosed : s.peerConnection = none ∨ s.remoteDescriptionSet = false)
    (hcore : t.core = { s.core with queue := s.remoteIceCandidateQueue ++ a.received }) (hon : Onward s t) :
    CandidateStep s a t []
  | adds (peer : ℕ) (hgathered : s.gathered a = none) (hpeer : s.peerConnection = some peer)
    (hdescribed : s.remoteDescriptionSet = true) (hcore : t.core = s.core) (hon : Onward s t) :
    CandidateStep s a t (a.received.map (.adds peer))
  /-- The remote description is set, and nothing waits for it. -/
  | describes (hgathered : s.gathered a = none) (hreceived : a.received = [])
    (hready : s.peerConnection ≠ none ∧ s.remoteIceCandidateQueue = [] ∨ s.peerConnection = none ∧ s.peered = true)
    (hcore : t.core = { s.core with described := true }) (hon : Onward s t) : CandidateStep s a t []
  /-- The remote description is set, and the first candidate of the queue is added. -/
  | starts (peer : ℕ) (candidate : Candidate) (left : List Candidate) (hgathered : s.gathered a = none)
    (hreceived : a.received = []) (hpeer : s.peerConnection = some peer)
    (hqueue : s.remoteIceCandidateQueue = candidate :: left)
    (hcore : t.core = { s.core with queue := [], described := true })
    (hflushes : t.flushes.Perm (⟨peer, left⟩ :: s.flushes)) (hsetups : t.setups ≤ s.setups)
    (hpeered : t.peered = true → s.peered = true) (hcalled : t.callbacks = s.callbacks) :
    CandidateStep s a t [.adds peer candidate]
  /-- The next candidate of a flush is added. -/
  | goesOn (peer : ℕ) (candidate : Candidate) (left : List Candidate) (rest : List Flush)
    (hgathered : s.gathered a = none) (hreceived : a.received = [])
    (hflush : s.flushes.Perm (⟨peer, candidate :: left⟩ :: rest)) (hpeer : s.peerConnection = some peer)
    (hcore : t.core = s.core) (hflushes : t.flushes.Perm (⟨peer, left⟩ :: rest)) (hsetups : t.setups ≤ s.setups)
    (hpeered : t.peered = true → s.peered = true) (hcalled : t.callbacks = s.callbacks) :
    CandidateStep s a t [.adds peer candidate]
  /-- A flush is at its end, or its connection is not the current one. -/
  | stops (flush : Flush) (rest : List Flush) (hgathered : s.gathered a = none) (hreceived : a.received = [])
    (hflush : s.flushes.Perm (flush :: rest)) (hend : flush.left = [] ∨ s.peerConnection ≠ some flush.peer)
    (hcore : t.core = s.core) (hflushes : t.flushes.Perm rest) (hsetups : t.setups ≤ s.setups)
    (hpeered : t.peered = true → s.peered = true) (hcalled : t.callbacks = s.callbacks) : CandidateStep s a t []
  | connects (hmakes : s.makes a = some .connect) (hgathered : s.gathered a = none) (hreceived : a.received = [])
    (hcore : t.core = { s.core with connection := some s.peers }) (hflushes : t.flushes.Perm s.flushes)
    (hsetups : t.setups ≤ s.setups) (hcalled : t.callbacks ≠ [] → s.callbacks ≠ [] ∨ 0 < s.setups) :
    CandidateStep s a t []
  | accepts (hgathered : s.gathered a = none) (hreceived : a.received = []) (hoffer : s.pendingOfferSdp ≠ "")
    (haccept : a = .acceptIncomingCall) (hcore : t.core = s.core) (hflushes : t.flushes.Perm s.flushes)
    (hpeered : t.peered = true → s.peered = true) (hcalled : t.callbacks = s.callbacks) : CandidateStep s a t []
  /-- An offer comes that cannot be read, or is taken. -/
  | names (sender : String) (hoffer : s.TakesOffer a) (hsender : a.sender = some sender)
    (hcore : t.core = { s.core with target := sender }) (hon : Onward s t) : CandidateStep s a t []
  | takes (sender sdp : String) (hoffer : s.TakesOffer a) (hsender : a.sender = some sender)
    (hcore : t.core = { s.core with queue := [], described := false, target := sender, pendingOffer := sdp })
    (hflushes : t.flushes.Perm s.flushes) (hpeered : t.peered = true → s.peered = true)
    (hcalled : t.callbacks = s.callbacks) : CandidateStep s a t []
  | offers (hgathered : s.gathered a = none) (hreceived : a.received = []) (hcore : t.core = s.core)
    (hflushes : t.flushes.Perm s.flushes) (hsetups : t.setups + 1 ≤ s.setups)
    (hpeered : t.peered = true → s.peered = true) (hcalled : t.callbacks = s.callbacks) :
    CandidateStep s a t [.offers s.targetUserId]

/-- The step has to do with no candidate that comes, and with none of the connection. -/
def Aside (s : CallSessionManager) (a : CallAction) : Prop := s.gathered a = none ∧ a.received = []

namespace CallSessionManager

variable {s t : CallSessionManager} {a : CallAction} {left : List Continuation} {continuation : Continuation}

/-! ## What waits -/

theorem onward_same (hwaiting : t.waiting = s.waiting) (hcallbacks : t.callbacks = s.callbacks) : Onward s t := by
  refine ⟨?_, ?_, ?_, ?_⟩
  · unfold flushes
    rw [hwaiting]
  · unfold setups
    rw [hwaiting]
  · unfold peered
    rw [hwaiting]
    exact id
  · rw [hcallbacks]
    exact .inl

theorem onward_awaits (hwaiting : t.waiting = s.waiting ++ [⟨callId, work⟩])
    (hcallbacks : t.callbacks = s.callbacks) (hflush : work.flush = none) (hsetup : work.isSetup = false)
    (hpeer : work.hasPeer = false) : Onward s t := by
  refine ⟨?_, ?_, ?_, ?_⟩
  · unfold flushes
    rw [hwaiting, filterMap_append]
    simp [hflush]
  · unfold setups
    rw [hwaiting, countP_append]
    simp [hsetup]
  · unfold peered
    rw [hwaiting, any_append]
    simp [hpeer]
  · rw [hcallbacks]
    exact .inl

section Replaced

variable (hperm : s.waiting.Perm (continuation :: left))
include hperm

theorem flushes_perm : s.flushes.Perm (continuation.work.flush.toList ++ left.filterMap (·.work.flush)) := by
  have hmapped := hperm.filterMap (·.work.flush)
  unfold flushes
  rw [filterMap_cons] at hmapped
  cases hflush : continuation.work.flush with
  | none | some => simpa [hflush] using hmapped

theorem setups_eq : s.setups = left.countP (·.work.isSetup) + if continuation.work.isSetup then 1 else 0 := by
  unfold setups
  rw [hperm.countP_eq, countP_cons]

theorem peered_iff : s.peered = true ↔ continuation.work.hasPeer = true ∨ left.any (·.work.hasPeer) = true := by
  unfold peered
  rw [hperm.any_eq, any_cons, or_eq_true]

theorem replaced_rest (hwaiting : t.waiting = left ++ [⟨callId, work⟩])
    (hsetup : work.isSetup = continuation.work.isSetup)
    (hpeer : work.hasPeer = true → continuation.work.hasPeer = true) :
    t.setups ≤ s.setups ∧ (t.peered = true → s.peered = true) := by
  constructor
  · rw [setups_eq hperm]
    unfold setups
    rw [hwaiting, countP_append]
    simp [countP_cons, hsetup]
  · intro hpeered
    rw [peered_iff hperm]
    unfold peered at hpeered
    rw [hwaiting, any_append, or_eq_true] at hpeered
    obtain hleft | hnew := hpeered
    · exact .inr hleft
    · exact .inl (hpeer (by simpa using hnew))

theorem onward_replaced (hwaiting : t.waiting = left ++ [⟨callId, work⟩])
    (hflush : work.flush = continuation.work.flush) (hsetup : work.isSetup = continuation.work.isSetup)
    (hpeer : work.hasPeer = true → continuation.work.hasPeer = true)
    (hcalled : t.callbacks ≠ [] → s.callbacks ≠ [] ∨ continuation.work.isSetup = true) : Onward s t := by
  obtain ⟨hsetups, hpeered⟩ := replaced_rest hperm hwaiting hsetup hpeer
  refine ⟨?_, hsetups, hpeered, ?_⟩
  · refine List.Perm.trans ?_ (flushes_perm hperm).symm
    unfold flushes
    rw [hwaiting, filterMap_append]
    cases hboth : continuation.work.flush with
    | none | some => simp [hflush.trans hboth]
  · intro hne
    obtain hbefore | hsetups := hcalled hne
    · exact .inl hbefore
    · right
      rw [setups_eq hperm, hsetups]
      simp

theorem onward_removed (hwaiting : t.waiting = left) (hflush : continuation.work.flush = none)
    (hcallbacks : t.callbacks = s.callbacks) : Onward s t := by
  refine ⟨?_, ?_, ?_, ?_⟩
  · refine List.Perm.trans ?_ (flushes_perm hperm).symm
    unfold flushes
    rw [hwaiting, hflush]
    exact List.Perm.refl _
  · rw [setups_eq hperm]
    unfold setups
    rw [hwaiting]
    omega
  · intro hpeered
    rw [peered_iff hperm]
    unfold peered at hpeered
    rw [hwaiting] at hpeered
    exact .inr hpeered
  · rw [hcallbacks]
    exact .inl

end Replaced

/-! ## The candidates of the queue -/

section Flush

variable {callId : Option ℕ} {work : Work} (hperm : s.waiting.Perm (⟨callId, work⟩ :: left))
  (haside : Aside s a) (next : Option Flush → Work)
  (hnext : ∀ flush, (next flush).flush = flush ∧ (next flush).isSetup = work.isSetup ∧
    ((next flush).hasPeer = true → work.hasPeer = true))
include hperm haside hnext

omit haside in
theorem awaits_flush (flush : Option Flush) (hwaiting : t.waiting = left ++ [⟨callId, next flush⟩]) :
    t.flushes.Perm (flush.toList ++ left.filterMap (·.work.flush)) ∧ t.setups ≤ s.setups ∧
      (t.peered = true → s.peered = true) := by
  obtain ⟨hflush, hsetup, hpeer⟩ := hnext flush
  refine ⟨?_, replaced_rest hperm hwaiting hsetup hpeer⟩
  unfold flushes
  rw [hwaiting, filterMap_append]
  cases flush with
  | none | some => simp [hflush]

theorem candidates_described (hflush : work.flush = none) (hready : s.peerConnection ≠ none ∨ work.hasPeer = true) :
    let flush := flushRemoteCandidates { s with waiting := left, remoteDescriptionSet := true }
    CandidateStep s a (flush.1.await callId (next flush.2.1)) (candidateEvents flush.2.2) := by
  have hbefore := flushes_perm hperm
  rw [hflush] at hbefore
  have hcalls : ∀ u : CallSessionManager, u.callbacks = s.callbacks → u.callbacks ≠ [] →
      s.callbacks ≠ [] ∨ 0 < s.setups := fun u hu hne => .inl (hu ▸ hne)
  have hon : ∀ u : CallSessionManager, u.waiting = left ++ [⟨callId, next none⟩] → u.callbacks = s.callbacks →
      Onward s u := by
    intro u hwaiting hcallbacks
    obtain ⟨hflushes, hsetups, hpeered⟩ := awaits_flush hperm next hnext _ hwaiting
    exact ⟨hflushes.trans hbefore.symm, hsetups, hpeered, hcalls u hcallbacks⟩
  unfold flushRemoteCandidates
  cases hpeer : s.peerConnection with
  | none =>
    have hpeered : s.peered = true := by
      rw [peered_iff hperm]
      exact .inl (hready.resolve_left fun hne => hne hpeer)
    have hcore : ∀ u : CallSessionManager, u.core = { s.core with described := true } → u.waiting =
        left ++ [⟨callId, next none⟩] → u.callbacks = s.callbacks → CandidateStep s a u [] :=
          fun u hu hwaiting hcallbacks =>
      .describes haside.1 haside.2 (.inr ⟨hpeer, hpeered⟩) hu (hon u hwaiting hcallbacks)
    exact hcore _ (by unfold core await; dsimp only; rw [hpeer]) rfl rfl
  | some peer =>
    cases hqueue : s.remoteIceCandidateQueue with
    | nil =>
      refine .describes haside.1 haside.2 (.inl ⟨?_, hqueue⟩) ?_ (hon _ rfl rfl)
      · rw [hpeer]
        exact some_ne_none peer
      · unfold core await
        rw [hpeer, hqueue]
    | cons candidate rest =>
      have hstarts : ∀ u : CallSessionManager, u.core = { s.core with queue := [], described := true } →
          u.waiting = left ++ [⟨callId, next (some ⟨peer, rest⟩)⟩] → u.callbacks = s.callbacks →
            CandidateStep s a u [.adds peer candidate] := by
        intro u hcore hwaiting hcallbacks
        obtain ⟨hflushes, hsetups, hpeered⟩ := awaits_flush hperm next hnext _ hwaiting
        exact .starts peer candidate rest haside.1 haside.2 hpeer hqueue hcore (hflushes.trans (hbefore.symm.cons _))
          hsetups hpeered hcallbacks
      unfold flushNext
      dsimp only
      rw [if_pos rfl]
      exact hstarts _ (by unfold core await; dsimp only; rw [hpeer]) rfl rfl

theorem candidates_flushed {flush : Flush} (hflush : work.flush = some flush) :
    CandidateStep s a (await callId (next (flushNext flush { s with waiting := left }).1) { s with waiting := left })
      (candidateEvents (flushNext flush { s with waiting := left }).2) := by
  have hbefore := flushes_perm hperm
  rw [hflush] at hbefore
  obtain ⟨peer, candidates⟩ := flush
  have hstops : ∀ u : CallSessionManager, u = await callId (next none) { s with waiting := left } →
      (candidates = [] ∨ s.peerConnection ≠ some peer) → CandidateStep s a u [] := by
    intro u hu hend
    subst hu
    obtain ⟨hflushes, hsetups, hpeered⟩ := awaits_flush hperm next hnext none
      (t := await callId (next none) { s with waiting := left }) rfl
    exact .stops ⟨peer, candidates⟩ _ haside.1 haside.2 hbefore hend rfl hflushes hsetups hpeered rfl
  unfold flushNext
  cases candidates with
  | nil => exact hstops _ rfl (.inl rfl)
  | cons candidate rest =>
    dsimp only
    split
    · rename_i hpeer
      obtain ⟨hflushes, hsetups, hpeered⟩ := awaits_flush hperm next hnext (some ⟨peer, rest⟩)
        (t := await callId (next (some ⟨peer, rest⟩)) { s with waiting := left }) rfl
      exact .goesOn peer candidate rest _ haside.1 haside.2 hbefore hpeer rfl hflushes hsetups hpeered rfl
    · rename_i hother
      exact hstops _ rfl (.inr hother)

end Flush

/-! ## A setup goes on -/

section Setup

variable {callId : Option ℕ} {kind : SetupKind} {stage : SetupStage} {reply : Reply}
  (hperm : s.waiting.Perm (⟨callId, .setup kind stage⟩ :: left)) (haside : Aside s a)
include hperm haside

theorem candidates_ended (hflush : Work.flush (.setup kind stage) = none) (hcore : t.core = s.core)
    (hwaiting : t.waiting = left) (hcallbacks : t.callbacks = s.callbacks) : CandidateStep s a t [] :=
  .keeps haside.1 haside.2 hcore (onward_removed hperm hwaiting hflush hcallbacks)

theorem candidates_awaits (next : SetupStage) (hcore : t.core = s.core)
    (hwaiting : t.waiting = left ++ [⟨callId, .setup kind next⟩])
    (hflush : Work.flush (.setup kind next) = Work.flush (.setup kind stage))
    (hpeer : Work.hasPeer (.setup kind next) = true → Work.hasPeer (.setup kind stage) = true) :
    CandidateStep s a t [] :=
  .keeps haside.1 haside.2 hcore (onward_replaced hperm hwaiting hflush rfl hpeer fun _ => .inr rfl)

theorem candidates_finished (hflush : Work.flush (.setup kind stage) = none) :
    CandidateStep s a (finishSetup kind { s with waiting := left }) [] := by
  refine candidates_ended hperm haside hflush ?_ ?_ ?_ <;> cases kind <;> rfl

theorem candidates_cleared {es : List CallEvent} (hflush : Work.flush (.setup kind stage) = none) (hnone : t.NoCall)
    (hwaiting : t.waiting = left) (hcallbacks : t.callbacks = s.callbacks) (hevents : candidateEvents es = []) :
    CandidateStep s a t (candidateEvents es) := by
  rw [hevents]
  exact .clears hnone haside.1 haside.2 (onward_removed hperm hwaiting hflush hcallbacks)

omit hperm haside in
theorem candidateEvents_endCall (notifyPeer : Bool) (s : CallSessionManager) :
    candidateEvents (endCall notifyPeer s).2 = [] := by
  unfold endCall
  split <;> rfl

theorem candidates_failed (hflush : Work.flush (.setup kind stage) = none) :
    CandidateStep s a (setupFailed callId kind { s with waiting := left }).1
      (candidateEvents (setupFailed callId kind { s with waiting := left }).2) := by
  unfold setupFailed
  split
  · refine candidates_cleared hperm haside hflush ?_ ?_ ?_ (candidateEvents_endCall ..) <;>
      cases kind <;> rfl
  · exact candidates_finished hperm haside hflush

theorem candidates_active (hflush : Work.flush (.setup kind stage) = none) {next : Outcome}
    (hnext : CandidateStep s a next.1 (candidateEvents next.2)) :
    CandidateStep s a (whileActive callId kind next { s with waiting := left }).1
      (candidateEvents (whileActive callId kind next { s with waiting := left }).2) := by
  unfold whileActive
  split
  · exact hnext
  · exact candidates_finished hperm haside hflush

theorem candidates_proceed (hflush : Work.flush (.setup kind stage) = none) {next : Outcome}
    (hnext : CandidateStep s a next.1 (candidateEvents next.2)) :
    CandidateStep s a (proceed reply callId kind next { s with waiting := left }).1
      (candidateEvents (proceed reply callId kind next { s with waiting := left }).2) := by
  unfold proceed
  split
  · exact candidates_failed hperm haside hflush
  · exact candidates_active hperm haside hflush hnext

theorem candidates_denied (hflush : Work.flush (.setup kind stage) = none) :
    CandidateStep s a (permissionDenied kind { s with waiting := left }).1
      (candidateEvents (permissionDenied kind { s with waiting := left }).2) := by
  have hrejected : ∀ u : CallSessionManager, candidateEvents u.rejectIncomingCall.2 = [] := by
    intro u
    unfold rejectIncomingCall
    split <;> rfl
  cases kind with
  | outgoing =>
    exact candidates_cleared hperm haside hflush rfl rfl rfl (candidateEvents_endCall ..)
  | accepting => exact candidates_cleared hperm haside hflush rfl rfl rfl (hrejected _)

theorem candidates_tracks (peer tracks : ℕ) (hpeer : Work.hasPeer (.setup kind stage) = true)
    (hflush : Work.flush (.setup kind stage) = none) :
    CandidateStep s a (addTracks callId kind peer tracks { s with waiting := left }).1
      (candidateEvents (addTracks callId kind peer tracks { s with waiting := left }).2) := by
  cases tracks with
  | succ => exact candidates_awaits hperm haside _ rfl rfl hflush.symm fun _ => hpeer
  | zero =>
    cases kind with
    | outgoing | accepting =>
      exact candidates_awaits hperm haside _ rfl rfl hflush.symm fun _ => hpeer

end Setup

/-! ## A method goes on -/

section Resume

variable {callId : Option ℕ} {reply : Reply} (haside : Aside s a)
include haside

theorem candidates_created {tracks : ℕ}
    (hperm : s.waiting.Perm (⟨callId, .setup kind (.peer tracks)⟩ :: left))
    (hmakes : reply.failed = false ∧ s.isStillActive callId = true → s.makes a = some .connect) :
    CandidateStep s a (peerCreated reply callId kind tracks { s with waiting := left }).1
      (candidateEvents (peerCreated reply callId kind tracks { s with waiting := left }).2) := by
  have hcalled : 0 < s.setups := by
    rw [setups_eq hperm]
    exact Nat.succ_pos _
  -- The connection is the current one from now on, whatever is done with it next.
  have hconnects : ∀ (u : CallSessionManager) (next : SetupStage), s.makes a = some .connect →
      u.core = { s.core with connection := some s.peers } → u.waiting = left ++ [⟨callId, .setup kind next⟩] →
        Work.flush (.setup kind next) = none → CandidateStep s a u [] := by
    intro u next hconnect hcore hwaiting hnone
    have hflushes : u.flushes.Perm s.flushes := by
      refine List.Perm.trans ?_ (flushes_perm hperm).symm
      unfold flushes
      have hbefore : Work.flush (.setup kind (.peer tracks)) = none := rfl
      rw [hwaiting, filterMap_append]
      simp [hnone, hbefore]
    have hsetups : u.setups ≤ s.setups := by
      rw [setups_eq hperm]
      unfold setups
      rw [hwaiting, countP_append]
      simp [Work.isSetup]
    exact .connects hconnect haside.1 haside.2 hcore hflushes hsetups fun _ => .inr hcalled
  unfold peerCreated
  cases hfailed : reply.failed with
  | true => exact candidates_failed hperm haside rfl
  | false =>
    rw [if_neg Bool.false_ne_true]
    split
    · rename_i hactive
      have hconnect := hmakes ⟨hfailed, hactive⟩
      cases tracks with
      | succ more => exact hconnects _ (.tracks s.peers more) hconnect rfl rfl rfl
      | zero =>
        cases kind with
        | outgoing => exact hconnects _ (.offer s.peers) hconnect rfl rfl rfl
        | accepting => exact hconnects _ (.remoteDescription s.peers) hconnect rfl rfl rfl
    · exact candidates_awaits hperm haside .closing rfl rfl rfl nofun

theorem candidates_offered {stage : SetupStage} (sdp : String)
    (hperm : s.waiting.Perm (⟨callId, .setup kind stage⟩ :: left))
    (hflush : Work.flush (.setup kind stage) = none) :
    CandidateStep s a (sendOffer sdp { s with waiting := left }).1
      (candidateEvents (sendOffer sdp { s with waiting := left }).2) := by
  have hsame := onward_removed (t := { s with waiting := left, localSdp := sdp }) hperm rfl hflush rfl
  have hsetups : ({ s with waiting := left, localSdp := sdp } : CallSessionManager).setups + 1 ≤ s.setups := by
    rw [setups_eq hperm]
    exact le_rfl
  exact .offers haside.1 haside.2 rfl hsame.flushes hsetups hsame.peered rfl

theorem candidates_answered {stage : SetupStage} (sdp : String)
    (hperm : s.waiting.Perm (⟨callId, .setup kind stage⟩ :: left))
    (hflush : Work.flush (.setup kind stage) = none) :
    CandidateStep s a (sendAnswer kind sdp { s with waiting := left }).1
      (candidateEvents (sendAnswer kind sdp { s with waiting := left }).2) := by
  refine candidates_ended hperm haside hflush ?_ ?_ ?_ <;> cases kind <;> rfl

theorem candidates_setup {kind : SetupKind} {stage : SetupStage}
    (hperm : s.waiting.Perm (⟨callId, .setup kind stage⟩ :: left))
    (hmakes : s.workMakes callId reply (.setup kind stage) = some .connect → s.makes a = some .connect) :
    CandidateStep s a (resumeSetup callId kind stage reply { s with waiting := left }).1
      (candidateEvents (resumeSetup callId kind stage reply { s with waiting := left }).2) := by
  cases stage with
  | permissions =>
    refine candidates_proceed hperm haside rfl ?_
    split
    · exact candidates_awaits hperm haside .renderers rfl rfl rfl nofun
    · exact candidates_denied hperm haside rfl
  | renderers =>
    exact candidates_active hperm haside rfl
      (candidates_awaits hperm haside .session rfl rfl rfl nofun)
  | session =>
    exact candidates_proceed hperm haside rfl
      (candidates_awaits hperm haside (.media _) rfl rfl rfl nofun)
  | media =>
    unfold resumeSetup mediaAcquired
    dsimp only
    split
    · split
      · exact candidates_awaits hperm haside (.media false) rfl rfl rfl nofun
      · exact candidates_failed hperm haside rfl
    · split
      · exact candidates_awaits hperm haside (.routing _) rfl rfl rfl nofun
      · refine candidates_ended hperm haside rfl ?_ ?_ ?_ <;> cases kind <;> rfl
  | routing tracks =>
    refine candidates_proceed hperm haside rfl ?_
    cases reply.answer with
    | true => exact candidates_awaits hperm haside (.iceServers tracks) rfl rfl rfl nofun
    | false => exact candidates_awaits hperm haside (.peer tracks) rfl rfl rfl nofun
  | iceServers tracks =>
    exact candidates_active hperm haside rfl
      (candidates_awaits hperm haside (.peer tracks) rfl rfl rfl nofun)
  | peer => exact candidates_created haside hperm fun hmade => hmakes (if_pos hmade)
  | closing => exact candidates_finished hperm haside rfl
  | tracks peer more =>
    exact candidates_proceed hperm haside rfl
      (candidates_tracks hperm haside peer more rfl rfl)
  | offer =>
    exact candidates_proceed hperm haside rfl
      (candidates_awaits hperm haside (.offerDescription _) rfl rfl rfl fun _ => rfl)
  | offerDescription sdp =>
    exact candidates_proceed hperm haside rfl (candidates_offered haside sdp hperm rfl)
  | remoteDescription peer =>
    exact candidates_proceed hperm haside rfl
      (candidates_described hperm haside (fun flush => .setup kind (.candidates peer flush))
        (fun _ => ⟨rfl, rfl, fun _ => rfl⟩) rfl (.inr rfl))
  | candidates peer flush =>
    cases flush with
    | some flush =>
      exact candidates_flushed hperm haside (fun flush => .setup kind (.candidates peer flush))
        (fun _ => ⟨rfl, rfl, fun _ => rfl⟩) rfl
    | none =>
      exact candidates_active hperm haside rfl
        (candidates_awaits hperm haside (.answer peer) rfl rfl rfl fun _ => rfl)
  | answer =>
    exact candidates_proceed hperm haside rfl
      (candidates_awaits hperm haside (.answerDescription _) rfl rfl rfl fun _ => rfl)
  | answerDescription sdp =>
    exact candidates_proceed hperm haside rfl (candidates_answered haside sdp hperm rfl)

theorem candidates_over (hperm : s.waiting.Perm (⟨callId, work⟩ :: left)) (hflush : work.flush = none)
    (hcore : t.core = s.core) (hwaiting : t.waiting = left) (hcallbacks : t.callbacks = s.callbacks) :
    CandidateStep s a t [] :=
  .keeps haside.1 haside.2 hcore (onward_removed hperm hwaiting hflush hcallbacks)

theorem candidates_waits (next : Work) (hperm : s.waiting.Perm (⟨callId, work⟩ :: left))
    (hcore : t.core = s.core) (hwaiting : t.waiting = left ++ [⟨callId, next⟩])
    (hcallbacks : t.callbacks = s.callbacks) (hflush : next.flush = work.flush)
    (hsetup : next.isSetup = work.isSetup) (hpeer : next.hasPeer = false) : CandidateStep s a t [] := by
  refine .keeps haside.1 haside.2 hcore (onward_replaced hperm hwaiting hflush hsetup ?_ ?_)
  · rw [hpeer]
    exact nofun
  · rw [hcallbacks]
    exact Or.inl

theorem candidates_iceRestart {peer : ℕ} {sdp : Option String}
    (hperm : s.waiting.Perm (⟨callId, .iceRestart peer sdp⟩ :: left)) :
    CandidateStep s a (resumeIceRestart callId peer sdp reply { s with waiting := left }).1
      (candidateEvents (resumeIceRestart callId peer sdp reply { s with waiting := left }).2) := by
  unfold resumeIceRestart
  cases sdp with
  | none =>
    dsimp only
    split
    · exact candidates_over haside hperm rfl rfl rfl rfl
    · exact candidates_waits haside (.iceRestart peer _) hperm rfl rfl rfl rfl rfl rfl
  | some sdp =>
    dsimp only
    split
    · exact candidates_over haside hperm rfl rfl rfl rfl
    · have hnone : candidateEvents (if s.targetUserId ≠ "" then
          [.sent s.targetUserId s.chatId (.offer sdp s.isVideo true)] else []) = [] := by
        split <;> rfl
      rw [hnone]
      exact candidates_over haside hperm rfl rfl rfl rfl

theorem candidates_answer {peer : ℕ} {stage : AnswerStage}
    (hperm : s.waiting.Perm (⟨callId, .answer peer stage⟩ :: left)) :
    CandidateStep s a (resumeAnswer callId peer stage reply { s with waiting := left }).1
      (candidateEvents (resumeAnswer callId peer stage reply { s with waiting := left }).2) := by
  cases stage with
  | remoteDescription =>
    unfold resumeAnswer
    dsimp only
    split
    · exact candidates_over haside hperm rfl rfl rfl rfl
    · rename_i hother
      have hpeer : s.peerConnection ≠ none := by
        intro hnone
        exact hother (.inr (by rw [hnone]; exact nofun))
      exact candidates_described hperm haside (fun flush => .answer peer (.candidates flush))
        (fun _ => ⟨rfl, rfl, nofun⟩) rfl (.inl hpeer)
  | candidates flush =>
    cases flush with
    | some flush =>
      exact candidates_flushed hperm haside (fun flush => .answer peer (.candidates flush))
        (fun _ => ⟨rfl, rfl, nofun⟩) rfl
    | none => exact candidates_over haside hperm rfl rfl rfl rfl

theorem candidates_renegotiation {peer : ℕ} {stage : RenegotiationStage}
    (hperm : s.waiting.Perm (⟨callId, .renegotiation peer stage⟩ :: left)) :
    CandidateStep s a (resumeRenegotiation callId peer stage reply { s with waiting := left }).1
      (candidateEvents (resumeRenegotiation callId peer stage reply { s with waiting := left }).2) := by
  cases stage with
  | remoteDescription =>
    unfold resumeRenegotiation
    dsimp only
    split
    · exact candidates_over haside hperm rfl rfl rfl rfl
    · rename_i hother
      have hpeer : s.peerConnection ≠ none := by
        intro hnone
        exact hother (.inr (by rw [hnone]; exact nofun))
      exact candidates_described hperm haside (fun flush => .renegotiation peer (.candidates flush))
        (fun _ => ⟨rfl, rfl, nofun⟩) rfl (.inl hpeer)
  | candidates flush =>
    cases flush with
    | some flush =>
      exact candidates_flushed hperm haside (fun flush => .renegotiation peer (.candidates flush))
        (fun _ => ⟨rfl, rfl, nofun⟩) rfl
    | none => exact candidates_waits haside (.renegotiation peer .answer) hperm rfl rfl rfl rfl rfl rfl
  | answer =>
    unfold resumeRenegotiation
    dsimp only
    split
    · exact candidates_over haside hperm rfl rfl rfl rfl
    · exact candidates_waits haside (.renegotiation peer (.answerDescription _)) hperm rfl rfl rfl rfl
        rfl rfl
  | answerDescription sdp =>
    unfold resumeRenegotiation
    dsimp only
    split
    · exact candidates_over haside hperm rfl rfl rfl rfl
    · have hnone : candidateEvents (if s.targetUserId ≠ "" then
          [.sent s.targetUserId s.chatId (.answer sdp true)] else []) = [] := by
        split <;> rfl
      rw [hnone]
      exact candidates_over haside hperm rfl rfl rfl rfl

theorem candidates_track {stage : TrackStage} (hperm : s.waiting.Perm (⟨callId, .track stage⟩ :: left)) :
    CandidateStep s a (resumeTrack callId stage reply { s with waiting := left }) [] := by
  unfold resumeTrack
  cases stage with
  | making kind =>
    dsimp only
    split
    · exact candidates_over haside hperm rfl rfl rfl rfl
    · split
      · cases kind with
        | video | audio => exact candidates_waits haside (.track _) hperm rfl rfl rfl rfl rfl rfl
        | other => exact candidates_over haside hperm rfl rfl rfl rfl
      · exact candidates_over haside hperm rfl rfl rfl rfl
  | volume =>
    dsimp only
    split
    · exact candidates_over haside hperm rfl rfl rfl rfl
    · exact candidates_waits haside (.track _) hperm rfl rfl rfl rfl rfl rfl
  | adding => exact candidates_over haside hperm rfl rfl rfl rfl

end Resume

theorem candidates_kept (haside : Aside s a) (hcore : t.core = s.core)
    (hwaiting : t.waiting = s.waiting) (hcallbacks : t.callbacks = s.callbacks) : CandidateStep s a t [] :=
  .keeps haside.1 haside.2 hcore (onward_same hwaiting hcallbacks)

theorem candidates_ends {r : Outcome} (haside : Aside s a)
    (hnone : r.1.NoCall)
    (hwaiting : r.1.waiting = s.waiting) (hcallbacks : r.1.callbacks = s.callbacks)
    (hevents : candidateEvents r.2 = []) : CandidateStep s a r.1 (candidateEvents r.2) := by
  rw [hevents]
  exact .clears hnone haside.1 haside.2 (onward_same hwaiting hcallbacks)

theorem candidates_endCall (haside : Aside s a) (notifyPeer : Bool)
    {u : CallSessionManager} (hwaiting : u.waiting = s.waiting) (hcallbacks : u.callbacks = s.callbacks) :
    CandidateStep s a (endCall notifyPeer u).1 (candidateEvents (endCall notifyPeer u).2) :=
  candidates_ends haside rfl hwaiting hcallbacks (candidateEvents_endCall ..)

theorem candidates_rejected (haside : Aside s a) {u : CallSessionManager}
    (hwaiting : u.waiting = s.waiting) (hcallbacks : u.callbacks = s.callbacks) :
    CandidateStep s a u.rejectIncomingCall.1 (candidateEvents u.rejectIncomingCall.2) := by
  refine candidates_ends haside rfl hwaiting hcallbacks ?_
  unfold rejectIncomingCall
  split <;> rfl

theorem begins_setup (hwaiting : t.waiting = s.waiting ++ [⟨callId, .setup kind .permissions⟩]) :
    t.flushes = s.flushes ∧ t.peered = s.peered := by
  constructor
  · unfold flushes
    rw [hwaiting, filterMap_append]
    exact append_nil _
  · unfold peered
    rw [hwaiting, any_append]
    exact Bool.or_false _

theorem candidates_accepted (s : CallSessionManager) :
    CandidateStep s .acceptIncomingCall s.acceptIncomingCall [] := by
  unfold acceptIncomingCall
  split
  · exact candidates_kept ⟨rfl, rfl⟩ rfl rfl rfl
  · split
    · exact candidates_kept ⟨rfl, rfl⟩ rfl rfl rfl
    · rename_i hoffer
      have hbegins : ∀ u : CallSessionManager, u.waiting = s.waiting ++ [⟨s.currentCallId,
        .setup .accepting .permissions⟩] →
          u.core = s.core → u.callbacks = s.callbacks → CandidateStep s .acceptIncomingCall u [] := by
        intro u hwaiting hcore hcallbacks
        obtain ⟨hflushes, hpeered⟩ := begins_setup hwaiting
        exact .accepts rfl rfl hoffer rfl hcore (hflushes ▸ List.Perm.refl _) (hpeered ▸ id) hcallbacks
      exact hbegins _ rfl rfl rfl

theorem candidates_takeOffer {sender chatId : String} {payload : OfferPayload} (sdp : String)
    (hoffer : s.TakesOffer (.signal sender chatId (.offer payload))) {u : CallSessionManager}
    (hcore : u.core = { s.core with target := sender }) (hwaiting : u.waiting = s.waiting)
    (hcallbacks : u.callbacks = s.callbacks) :
    CandidateStep s (.signal sender chatId (.offer payload)) (u.takeOffer sdp) [] := by
  obtain ⟨callId, hnext⟩ : ∃ callId, (u.takeOffer sdp).waiting = s.waiting ∨
      (u.takeOffer sdp).waiting = s.waiting ++ [⟨callId, .setup .accepting .permissions⟩] := by
    rw [← hwaiting]
    unfold takeOffer acceptIncomingCall
    dsimp only
    split_ifs
    all_goals first | exact ⟨none, .inl rfl⟩ | exact ⟨_, .inr rfl⟩
  have hcalls : (u.takeOffer sdp).callbacks = s.callbacks := by
    rw [← hcallbacks]
    unfold takeOffer acceptIncomingCall
    dsimp only
    split_ifs <;> rfl
  have htaken : (u.takeOffer sdp).core = { u.core with queue := [], described := false, pendingOffer := sdp } := by
    unfold takeOffer acceptIncomingCall
    dsimp only
    split_ifs <;> rfl
  rw [hcore] at htaken
  obtain hnext | hnext := hnext
  · have hsame := onward_same hnext hcalls
    exact .takes sender sdp hoffer rfl htaken hsame.flushes hsame.peered hcalls
  · obtain ⟨hflushes, hpeered⟩ := begins_setup hnext
    exact .takes sender sdp hoffer rfl htaken (hflushes ▸ List.Perm.refl _) (hpeered ▸ id) hcalls

theorem candidates_offer (sender chatId : String) (payload : OfferPayload) (s : CallSessionManager) :
    CandidateStep s (.signal sender chatId (.offer payload)) (s.handleIncomingOffer sender chatId payload).1
      (candidateEvents (s.handleIncomingOffer sender chatId payload).2) := by
  unfold handleIncomingOffer
  split
  · rename_i hstatus
    have hoffer : s.TakesOffer (.signal sender chatId (.offer payload)) := hstatus
    split
    · exact .names sender hoffer rfl rfl (onward_same rfl rfl)
    · exact .names sender hoffer rfl rfl (onward_same rfl rfl)
    · exact candidates_takeOffer _ hoffer rfl rfl rfl
  · split
    · unfold handleOfferRenegotiation
      split
      · split
        · exact candidates_kept ⟨rfl, rfl⟩ rfl rfl rfl
        · exact .keeps rfl rfl rfl (onward_awaits rfl rfl rfl rfl rfl)
      · exact candidates_kept ⟨rfl, rfl⟩ rfl rfl rfl
    · exact candidates_kept ⟨rfl, rfl⟩ rfl rfl rfl

theorem handleRemoteCandidates_open {peer : ℕ} (hpeer : s.peerConnection = some peer)
    (hdescribed : s.remoteDescriptionSet = true) (payloads : List CandidatePayload) :
    s.handleRemoteCandidates payloads = (s, (payloads.filterMap CandidatePayload.read).map (.addedCandidate peer)) := by
  induction payloads with
  | nil => rfl
  | cons payload _ ih =>
    unfold handleRemoteCandidates
    cases hread : payload.read with
    | none =>
      rw [handleRemoteCandidate_of_none hread, filterMap_cons_none hread]
      dsimp only
      rw [ih]
      rfl
    | some candidate =>
      have hadds : s.handleRemoteCandidate payload = (s, [.addedCandidate peer candidate]) := by
        unfold handleRemoteCandidate
        rw [hread, hpeer, hdescribed]
      rw [hadds, filterMap_cons_some hread]
      dsimp only
      rw [ih]
      rfl

theorem handleRemoteCandidates_closed (payloads : List CandidatePayload) (s : CallSessionManager)
    (hclosed : s.peerConnection = none ∨ s.remoteDescriptionSet = false) : s.handleRemoteCandidates payloads =
      ({ s with
        remoteIceCandidateQueue := s.remoteIceCandidateQueue ++ payloads.filterMap CandidatePayload.read }, []) := by
  induction payloads generalizing s with
  | nil =>
    unfold handleRemoteCandidates
    rw [filterMap_nil, append_nil]
  | cons payload _ ih =>
    unfold handleRemoteCandidates
    cases hread : payload.read with
    | none =>
      rw [handleRemoteCandidate_of_none hread, filterMap_cons_none hread]
      dsimp only
      rw [ih s hclosed]
      rfl
    | some candidate =>
      have hqueues : s.handleRemoteCandidate payload =
          ({ s with remoteIceCandidateQueue := s.remoteIceCandidateQueue ++ [candidate] }, []) := by
        unfold handleRemoteCandidate
        rw [hread]
        obtain hnone | hunset := hclosed
        · rw [hnone]
        · rw [hunset]
          cases s.peerConnection <;> rfl
      have hrest := ih { s with remoteIceCandidateQueue := s.remoteIceCandidateQueue ++ [candidate] } hclosed
      rw [hqueues, filterMap_cons_some hread]
      dsimp only
      rw [hrest, append_assoc]
      rfl

theorem candidates_received {payloads : List CandidatePayload} (hgathered : s.gathered a = none)
    (hreceived : a.received = payloads.filterMap CandidatePayload.read) :
    CandidateStep s a (s.handleRemoteCandidates payloads).1
      (candidateEvents (s.handleRemoteCandidates payloads).2) := by
  by_cases hopen : ∃ peer, s.peerConnection = some peer ∧ s.remoteDescriptionSet = true
  · obtain ⟨peer, hpeer, hdescribed⟩ := hopen
    have hevents : candidateEvents (a.received.map (.addedCandidate peer)) = a.received.map (.adds peer) := by
      unfold candidateEvents
      rw [filterMap_map]
      exact congrFun filterMap_eq_map _
    rw [handleRemoteCandidates_open hpeer hdescribed, ← hreceived, hevents]
    exact .adds peer hgathered hpeer hdescribed rfl (onward_same rfl rfl)
  · have hclosed : s.peerConnection = none ∨ s.remoteDescriptionSet = false := by
      cases hpeer : s.peerConnection with
      | none => exact .inl rfl
      | some peer => exact .inr (eq_false_iff.mpr fun hdescribed => hopen ⟨peer, hpeer, hdescribed⟩)
    rw [handleRemoteCandidates_closed payloads s hclosed, ← hreceived]
    exact .queues hgathered hclosed rfl (onward_same rfl rfl)

theorem candidates_signal (sender chatId : String) (signal : Signal) (s : CallSessionManager) :
    CandidateStep s (.signal sender chatId signal) (s.onSignal sender chatId signal).1
      (candidateEvents (s.onSignal sender chatId signal).2) := by
  cases signal with
  | offer payload => exact candidates_offer sender chatId payload s
  | ringing =>
    show CandidateStep s _ s.handleRinging []
    unfold handleRinging
    split
    · exact candidates_kept ⟨rfl, rfl⟩ rfl rfl rfl
    · exact candidates_kept ⟨rfl, rfl⟩ rfl rfl rfl
  | offline | busy | other => exact candidates_kept ⟨rfl, rfl⟩ rfl rfl rfl
  | answer =>
    unfold onSignal
    dsimp only
    split
    · exact candidates_kept ⟨rfl, rfl⟩ rfl rfl rfl
    · split
      · exact candidates_kept ⟨rfl, rfl⟩ rfl rfl rfl
      · unfold handleAnswer
        split
        · exact candidates_kept ⟨rfl, rfl⟩ rfl rfl rfl
        · exact .keeps rfl rfl rfl (onward_awaits rfl rfl rfl rfl rfl)
  | candidate payload =>
    have hone : s.handleRemoteCandidates [payload] =
        ((s.handleRemoteCandidate payload).1, (s.handleRemoteCandidate payload).2 ++ []) := rfl
    rw [append_nil] at hone
    have hread : (CallAction.signal sender chatId (.candidate payload)).received =
        [payload].filterMap CandidatePayload.read := rfl
    have hreceives := candidates_received (s := s) rfl hread
    rw [hone] at hreceives
    exact hreceives
  | candidates => exact candidates_received rfl rfl
  | cancel =>
    unfold onSignal
    dsimp only
    split
    · exact candidates_ends (r := (s.handleCancel, [])) ⟨rfl, rfl⟩ rfl rfl rfl rfl
    · exact candidates_kept ⟨rfl, rfl⟩ rfl rfl rfl
  | hangup | rejected => exact candidates_endCall ⟨rfl, rfl⟩ false rfl rfl

theorem candidates_restarts {u : CallSessionManager} (haside : Aside s a)
    (hcore : u.core = s.core) (hwaiting : u.waiting = s.waiting) (hcallbacks : u.callbacks = s.callbacks) :
    CandidateStep s a u.performIceRestart [] := by
  unfold performIceRestart
  split
  · exact candidates_kept haside hcore hwaiting hcallbacks
  · split
    · exact candidates_kept haside hcore hwaiting hcallbacks
    · rename_i peer _ _
      have hawaits : ∀ t : CallSessionManager, t.waiting = u.waiting ++ [⟨u.currentCallId, .iceRestart peer none⟩] →
          t.core = u.core → t.callbacks = u.callbacks → CandidateStep s a t [] := by
        intro t hnext hsame hcalls
        rw [hwaiting] at hnext
        exact .keeps haside.1 haside.2 (hsame.trans hcore)
          (onward_awaits hnext (hcalls.trans hcallbacks) rfl rfl rfl)
      exact hawaits _ rfl rfl rfl

theorem candidates_callback {index : ℕ} {peer : PeerCallbacks} (event : PeerEvent)
    (hpeer : s.callbacks[index]? = some peer) :
    CandidateStep s (.callback index event) (s.callback peer event).1 (candidateEvents (s.callback peer event).2) := by
  have hcalled : s.callbacks ≠ [] := by
    intro hnil
    rw [hnil] at hpeer
    simp at hpeer
  have hgathered : s.isStillActive peer.callId = false → s.gathered (.callback index event) = none := by
    intro hinactive
    unfold gathered
    cases event with
    | iceCandidate =>
      dsimp only
      rw [hpeer, bind_some, hinactive]
      rfl
    | _ => rfl
  unfold callback
  split
  · rename_i hactive
    cases event with
    | connectionState state =>
      cases state with
      | connected | other => exact candidates_kept ⟨rfl, rfl⟩ rfl rfl rfl
      | failed => exact candidates_endCall ⟨rfl, rfl⟩ true rfl rfl
      | disconnected =>
        unfold onConnectionState
        dsimp only
        split
        · exact candidates_restarts ⟨rfl, rfl⟩ rfl rfl rfl
        · exact candidates_endCall ⟨rfl, rfl⟩ true rfl rfl
    | iceConnectionState connected => cases connected <;> exact candidates_kept ⟨rfl, rfl⟩ rfl rfl rfl
    | iceCandidate candidate =>
      have hsame : s.gathered (.callback index (.iceCandidate candidate)) = candidate := by
        unfold gathered
        dsimp only
        rw [hpeer, bind_some, if_pos hactive]
      unfold queueOutgoingCandidate
      cases candidate with
      | none => exact candidates_kept ⟨hsame, rfl⟩ rfl rfl rfl
      | some candidate =>
        dsimp only
        split
        · rename_i hempty
          exact .drops hcalled hempty rfl rfl (onward_same rfl rfl)
        · rename_i htarget
          exact .gathers candidate hsame rfl htarget rfl (onward_same rfl rfl)
    | track stream kind known =>
      have hplaced : ∀ remote : RemoteStream,
          CandidateStep s (.callback index (.track stream kind known))
            (s.placeTrack peer.callId remote kind known) [] := by
        intro remote
        cases kind with
        | video =>
          cases known with
          | true => exact candidates_kept ⟨rfl, rfl⟩ rfl rfl rfl
          | false => exact .keeps rfl rfl rfl (onward_awaits rfl rfl rfl rfl rfl)
        | audio => exact .keeps rfl rfl rfl (onward_awaits rfl rfl rfl rfl rfl)
        | other => exact candidates_kept ⟨rfl, rfl⟩ rfl rfl rfl
      dsimp only
      unfold onTrack
      split
      · exact hplaced _
      · exact hplaced _
      · exact .keeps rfl rfl rfl (onward_awaits rfl rfl rfl rfl rfl)
  · rename_i hinactive
    exact candidates_kept ⟨hgathered (eq_false_iff.mpr hinactive), by cases event <;> rfl⟩ rfl rfl rfl

theorem candidates_fire {index : ℕ} {left : List CallTimer} (timer : CallTimer) :
    CandidateStep s (.timer index) (fire timer { s with armed := left }).1
      (candidateEvents (fire timer { s with armed := left }).2) := by
  unfold fire
  cases timer.kind with
  | outgoingRing | reconnect =>
    dsimp only
    split
    · exact candidates_endCall ⟨rfl, rfl⟩ true rfl rfl
    · exact candidates_kept ⟨rfl, rfl⟩ rfl rfl rfl
  | incomingRing =>
    dsimp only
    split
    · exact candidates_rejected ⟨rfl, rfl⟩ rfl rfl
    · exact candidates_kept ⟨rfl, rfl⟩ rfl rfl rfl
  | call => exact candidates_kept ⟨rfl, rfl⟩ rfl rfl rfl
  | candidateBatch =>
    dsimp only
    unfold flushOutgoingCandidates
    split
    · exact candidates_kept ⟨rfl, rfl⟩ rfl rfl rfl
    · have hevent : candidateEvents [.sent s.targetUserId s.chatId (batchSignal s.outgoingCandidateBatch)] =
          [.sends s.targetUserId s.outgoingCandidateBatch] := by
        unfold batchSignal
        split
        · rename_i candidate hone
          rw [hone]
          rfl
        · rfl
      rw [hevent]
      exact .sends rfl rfl rfl (onward_same rfl rfl)
  | offlineEnd =>
    dsimp only
    split
    · exact candidates_endCall ⟨rfl, rfl⟩ false rfl rfl
    · exact candidates_kept ⟨rfl, rfl⟩ rfl rfl rfl
  | busyEnd => exact candidates_endCall ⟨rfl, rfl⟩ false rfl rfl

/-- What one step does to the candidates. -/
theorem step_candidates {es : List CallEvent} (hstep : s.step a = some (t, es))
    (hstart : ∀ chatId chatTitle target isVideo, a ≠ .startCall chatId chatTitle target isVideo) :
    CandidateStep s a t (candidateEvents es) := by
  have hdone : ∀ r : Outcome, CandidateStep s a r.1 (candidateEvents r.2) → some r = some (t, es) →
      CandidateStep s a t (candidateEvents es) := by
    intro r hr heq
    cases heq
    exact hr
  cases a with
  | startCall chatId chatTitle target isVideo => exact absurd rfl (hstart chatId chatTitle target isVideo)
  | prepareIncomingCall =>
    refine hdone _ ?_ hstep
    unfold prepareIncomingCall
    split <;> exact candidates_kept ⟨rfl, rfl⟩ rfl rfl rfl
  | acceptIncomingCall => exact hdone _ (candidates_accepted s) hstep
  | rejectIncomingCall => exact hdone _ (candidates_rejected ⟨rfl, rfl⟩ rfl rfl) hstep
  | endCall notifyPeer => exact hdone _ (candidates_endCall ⟨rfl, rfl⟩ notifyPeer rfl rfl) hstep
  | callKitEnded =>
    refine hdone _ ?_ hstep
    split
    · exact candidates_rejected ⟨rfl, rfl⟩ rfl rfl
    · split
      · exact candidates_endCall ⟨rfl, rfl⟩ true rfl rfl
      · exact candidates_kept ⟨rfl, rfl⟩ rfl rfl rfl
  | toggleCamera =>
    exact hdone ({ s with isCameraOff := !s.isCameraOff }, []) (candidates_kept ⟨rfl, rfl⟩ rfl rfl rfl) hstep
  | signal sender chatId signal => exact hdone _ (candidates_signal sender chatId signal s) hstep
  | callback _ event =>
    obtain ⟨peer, hpeer, heq⟩ := map_eq_some_iff.mp hstep
    exact hdone _ (candidates_callback event hpeer) (congrArg some heq)
  | timer index =>
    unfold step at hstep
    dsimp only at hstep
    split at hstep
    · simp at hstep
    · rename_i timer hget
      split at hstep
      · exact hdone _ (candidates_fire timer) hstep
      · simp at hstep
  | resume index =>
    obtain ⟨continuation, hget, heq⟩ := map_eq_some_iff.mp hstep
    refine hdone _ ?_ (congrArg some heq)
    obtain ⟨callId, work⟩ := continuation
    have hlt := (List.getElem?_eq_some_iff.mp hget).1
    have hperm : s.waiting.Perm (⟨callId, work⟩ :: s.waiting.eraseIdx index) := by
      have hat := (List.getElem?_eq_some_iff.mp hget).2
      rw [← hat]
      exact (getElem_cons_eraseIdx_perm hlt).symm
    cases work with
    | setup =>
      refine candidates_setup ⟨rfl, rfl⟩ hperm fun hmade => ?_
      unfold makes
      dsimp only
      rw [hget]
      exact hmade
    | iceRestart => exact candidates_iceRestart ⟨rfl, rfl⟩ hperm
    | answer => exact candidates_answer ⟨rfl, rfl⟩ hperm
    | renegotiation => exact candidates_renegotiation ⟨rfl, rfl⟩ hperm
    | track => exact candidates_track ⟨rfl, rfl⟩ hperm
  | elapse ms => exact hdone ({ s with now := s.now + ms }, []) (candidates_kept ⟨rfl, rfl⟩ rfl rfl rfl) hstep

end CallSessionManager

end LigamentApps.CallSession
