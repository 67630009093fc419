import LigamentApps.CallSession.CandidateBatches
import LigamentApps.CallSession.CandidateDelivery

/-!
# A call between two managers

Two managers exchange their signals over two channels that keep the order. As long as the call lasts, every
candidate that one side gathers comes to the connection of the other side once, in every run in which an offer
that starts the call anew meets no candidate and no description, and no connection is made beside another.
Without that a candidate can be lost: one that a batch sends before the offer waits in the queue that the
offer empties. -/

namespace LigamentApps.CallSession

open List Option

inductive Side
  | left
  | right
  deriving DecidableEq

def Side.other : Side → Side
  | .left => .right
  | .right => .left

@[simp] theorem Side.other_other (x : Side) : x.other.other = x := by cases x <;> rfl

theorem Side.other_ne (x : Side) : x.other ≠ x := by cases x <;> decide

theorem Side.eq_or_other (x y : Side) : x = y ∨ x = y.other := by cases x <;> cases y <;> decide

/-- By what names the two sides go. -/
structure Parties where
  name : Side → String
  named : ∀ x, name x ≠ ""

/-! ## Signals on the way -/

/-- The map of a candidate that is sent: what is null is absent for the other side. -/
def Candidate.payload (candidate : Candidate) : CandidatePayload where
  candidate := .given candidate.candidate
  sdpMid := candidate.sdpMid.elim .absent .given
  sdpMLineIndex := candidate.sdpMLineIndex.elim .absent .given

/-- What the other side reads of a candidate: nothing if it has no text, which ends the candidates of a
connection. -/
def Candidate.arrived (candidate : Candidate) : Option Candidate := candidate.payload.read

/-- A payload as the other side gets it. The name of the caller, which is text, is left out. -/
def SentSignal.arrives : SentSignal → Signal
  | .offer sdp isVideo iceRestart => .offer { isVideo := isVideo, sdp := .given sdp, iceRestart := iceRestart }
  | .ringing => .ringing
  | .busy => .busy
  | .answer sdp _ => .answer (.given sdp)
  | .candidate c => .candidate c.payload
  | .candidates cs => .candidates (cs.map Candidate.payload)
  | .hangup => .hangup
  | .rejected => .rejected

/-- The candidates of a payload. -/
def SentSignal.carried : SentSignal → List Candidate
  | .candidate c => [c]
  | .candidates cs => cs
  | _ => []

/-- The signal that an event sends to someone, with its chat. -/
def CallEvent.toOther (other : String) : CallEvent → Option (String × SentSignal)
  | .sent target chatId signal => if target = other then some (chatId, signal) else none
  | _ => none

theorem arrived_received (sender chatId : String) (signal : SentSignal) :
    CallAction.received (.signal sender chatId signal.arrives) = signal.carried.filterMap Candidate.arrived := by
  cases signal with
  | candidate => rfl
  | candidates candidates =>
    show (candidates.map Candidate.payload).filterMap CandidatePayload.read = _
    rw [filterMap_map]
    rfl
  | _ => rfl

/-! ## The pair -/

/-- The two managers, and for each side what it has sent and what has not arrived. -/
structure CallPair where
  manager : Side → CallSessionManager := fun _ => {}
  wire : Side → List (String × SentSignal) := fun _ => []

inductive PairAction
  /-- Something happens at one side, other than a signal. -/
  | acts (x : Side) (a : CallAction)
  /-- The first signal that one side has sent arrives at the other. -/
  | delivers (x : Side)

inductive PairEvent
  /-- A connection of the call calls back with a candidate. -/
  | gathered (x : Side) (candidate : Candidate)
  /-- `addCandidate` of a connection. -/
  | added (x : Side) (peer : ℕ) (candidate : Candidate)

def PairEvent.gatheredBy (x : Side) : PairEvent → Option Candidate
  | .gathered y candidate => if y = x then some candidate else none
  | .added _ _ _ => none

def PairEvent.addedBy (x : Side) : PairEvent → Option (ℕ × Candidate)
  | .gathered _ _ => none
  | .added y peer candidate => if y = x then some (peer, candidate) else none

def gatheredBy (x : Side) (es : List PairEvent) : List Candidate := es.filterMap (·.gatheredBy x)

/-- The candidates that one side has added, with the connections. -/
def addedBy (x : Side) (es : List PairEvent) : List (ℕ × Candidate) := es.filterMap (·.addedBy x)

def CallEvent.pairEvent (x : Side) : CallEvent → Option PairEvent
  | .addedCandidate peer candidate => some (.added x peer candidate)
  | _ => none

namespace CallPair

variable (parties : Parties) (P : CallPair)

/-- Whose turn it is and what happens to them, with the pair after a signal is taken out of its channel. -/
def turn : PairAction → Option (Side × CallAction × CallPair)
  | .acts x a => if a.sender.isSome then none else some (x, a, P)
  | .delivers x =>
    match P.wire x with
    | [] => none
    | (chatId, signal) :: rest =>
      some (x.other, .signal (parties.name x) chatId signal.arrives,
        { P with wire := Function.update P.wire x rest })

def after (x : Side) (r : Outcome) : CallPair where
  manager := Function.update P.manager x r.1
  wire := Function.update P.wire x (P.wire x ++ r.2.filterMap (·.toOther (parties.name x.other)))

/-- What a step of one side does. -/
def events (x : Side) (a : CallAction) (r : Outcome) : List PairEvent :=
  ((P.manager x).gathered a).toList.map (.gathered x) ++ r.2.filterMap (·.pairEvent x)

variable (action : PairAction)

def step : Option (CallPair × List PairEvent) :=
  match P.turn parties action with
  | none => none
  | some (x, a, rest) => ((P.manager x).step a).map fun r => (rest.after parties x r, P.events x a r)

/-- The step is one of a single call: none is started beside it, and it does not end. -/
def OneCall : Prop :=
  ∀ turn ∈ P.turn parties action,
    (P.manager turn.1).StartsNone (parties.name turn.1.other) turn.2.1 ∧
      ∀ r ∈ (P.manager turn.1).step turn.2.1, (P.manager turn.1).Lasts r.1

/-- The step takes no candidate from where it waits: an offer that starts the call anew meets no candidate and
no description, and no connection is made beside another. -/
def Sparing : Prop :=
  ∀ turn ∈ P.turn parties action,
    (P.manager turn.1).OfferedInTime turn.2.1 ∧ (P.manager turn.1).ConnectsOnce turn.2.1

/-- The candidates of one side that are under way to the other. -/
def underWay (x : Side) : List Candidate :=
  (P.manager x.other).held ++
    ((P.wire x).flatMap (·.2.carried) ++ (P.manager x).outgoingCandidateBatch).filterMap Candidate.arrived

/-- Nothing of what one side has gathered is left to be sent, to be delivered or to be handed on, and the
other side has the description. -/
structure Settled (x : Side) : Prop where
  batch : (P.manager x).outgoingCandidateBatch = []
  wire : P.wire x = []
  described : (P.manager x.other).remoteDescriptionSet = true
  flushes : ∀ f ∈ (P.manager x.other).flushes, f.left = []

/-- No candidate is lost or doubled: what one side has gathered the other has added to its connection, or it
is under way, and all of it is added when the pair is settled. A batch has a timer that sends it, and no
candidate waits for a description that is set. -/
structure NoneLost (es : List PairEvent) : Prop where
  current : ∀ x, ∀ e ∈ addedBy x es, (P.manager x).peerConnection = some e.1
  conserved : ∀ x, ((addedBy x.other es).map Prod.snd ++ P.underWay x).Perm
    ((gatheredBy x es).filterMap Candidate.arrived)
  timed : ∀ x, (P.manager x).Timed
  queue : ∀ x, (P.manager x).remoteDescriptionSet = true → (P.manager x).remoteIceCandidateQueue = []
  settled : ∀ x, P.Settled x →
    ((addedBy x.other es).map Prod.snd).Perm ((gatheredBy x es).filterMap Candidate.arrived)

variable {parties : Parties} {P : CallPair}

/-! ## The events of a step -/

theorem carried_sent (other : String) (es : List CallEvent) :
    (es.filterMap (·.toOther other)).flatMap (·.2.carried) = (candidateEvents es).flatMap (·.sentTo other) := by
  induction es with
  | nil => rfl
  | cons e es ih =>
    have hone : (e.toOther other).toList.flatMap (·.2.carried) =
        e.candidateEvent.toList.flatMap (·.sentTo other) := by
      cases e with
      | sent target _ signal =>
        unfold CallEvent.toOther CallEvent.candidateEvent
        dsimp only
        by_cases htarget : target = other
        · rw [if_pos htarget]
          cases signal with
          | offer _ _ iceRestart => cases iceRestart <;> rfl
          | candidate | candidates =>
            simp [SentSignal.carried, SentSignal.candidateEvent, CandidateEvent.sentTo, htarget]
          | _ => rfl
        · rw [if_neg htarget]
          cases signal with
          | offer _ _ iceRestart => cases iceRestart <;> rfl
          | candidate | candidates => simp [SentSignal.candidateEvent, CandidateEvent.sentTo, htarget]
          | _ => rfl
      | _ => rfl
    have hsplit : ∀ {β γ : Type} (f : CallEvent → Option β) (g : β → List γ),
        ((e :: es).filterMap f).flatMap g = (f e).toList.flatMap g ++ (es.filterMap f).flatMap g := by
      intro β γ f g
      cases he : f e with
      | none => rw [filterMap_cons_none he, toList_none, flatMap_nil, nil_append]
      | some => rw [filterMap_cons_some he, toList_some, flatMap_cons, flatMap_cons,
          flatMap_nil, append_nil]
    unfold candidateEvents
    rw [hsplit, hsplit, hone, ih]
    rfl

theorem addedBy_events (x : Side) (es : List CallEvent) :
    addedBy x (es.filterMap (·.pairEvent x)) = (candidateEvents es).filterMap CandidateEvent.addition := by
  unfold addedBy candidateEvents
  rw [filterMap_filterMap, filterMap_filterMap]
  refine filterMap_congr fun e _ => ?_
  cases e with
  | addedCandidate => simp [CallEvent.pairEvent, PairEvent.addedBy, CallEvent.candidateEvent,
      CandidateEvent.addition]
  | sent _ _ signal =>
    cases signal with
    | offer _ _ iceRestart => cases iceRestart <;> rfl
    | _ => rfl
  | _ => rfl

variable {x : Side} {a : CallAction} {r : Outcome}

theorem addedBy_self : addedBy x (P.events x a r) = (candidateEvents r.2).filterMap CandidateEvent.addition := by
  rw [← addedBy_events x r.2]
  unfold addedBy events
  rw [filterMap_append, filterMap_map]
  have hnone : ((P.manager x).gathered a).toList.filterMap (PairEvent.addedBy x ∘ .gathered x) = [] :=
    filterMap_eq_nil_iff.mpr fun _ _ => rfl
  rw [hnone, nil_append]

theorem gatheredBy_self : gatheredBy x (P.events x a r) = ((P.manager x).gathered a).toList := by
  unfold gatheredBy events
  rw [filterMap_append, filterMap_map, filterMap_filterMap]
  have hnone : r.2.filterMap (fun e => (e.pairEvent x).bind (PairEvent.gatheredBy x)) = [] :=
    filterMap_eq_nil_iff.mpr fun e _ => by cases e <;> rfl
  have hall : ∀ candidates : List Candidate, candidates.filterMap
    (PairEvent.gatheredBy x ∘ .gathered x) = candidates := by
    intro candidates
    have hsome : PairEvent.gatheredBy x ∘ .gathered x = some := by
      funext candidate
      exact if_pos rfl
    rw [hsome, filterMap_some]
  rw [hnone, hall, append_nil]

theorem events_other : addedBy x.other (P.events x a r) = [] ∧ gatheredBy x.other (P.events x a r) = [] := by
  have hne : x ≠ x.other := (Side.other_ne x).symm
  unfold addedBy gatheredBy events
  rw [filterMap_append, filterMap_append, filterMap_map, filterMap_map, filterMap_filterMap,
    filterMap_filterMap]
  refine ⟨append_eq_nil_iff.mpr ⟨?_, ?_⟩, append_eq_nil_iff.mpr ⟨?_, ?_⟩⟩
  · exact filterMap_eq_nil_iff.mpr fun _ _ => rfl
  · refine filterMap_eq_nil_iff.mpr fun e _ => ?_
    cases e with
    | addedCandidate => exact if_neg hne
    | _ => rfl
  · exact filterMap_eq_nil_iff.mpr fun _ _ => if_neg hne
  · refine filterMap_eq_nil_iff.mpr fun e _ => ?_
    cases e <;> rfl

theorem turn_spec {action : PairAction} {rest : CallPair} (h : P.turn parties action = some (x, a, rest)) :
    rest.manager = P.manager ∧ (∀ sender, a.sender = some sender → sender = parties.name x.other) ∧
      rest.wire x = P.wire x ∧ ((P.wire x.other).flatMap (·.2.carried)).filterMap Candidate.arrived =
        a.received ++ ((rest.wire x.other).flatMap (·.2.carried)).filterMap Candidate.arrived := by
  unfold turn at h
  cases action with
  | acts y b =>
    dsimp only at h
    split at h
    · simp at h
    · rename_i hsignal
      obtain ⟨rfl, rfl, rfl⟩ : y = x ∧ b = a ∧ P = rest := by simpa using h
      have hnone : b.sender = none := by simpa using hsignal
      have hreceived : b.received = [] := by
        cases b with
        | signal sender => simp [CallAction.sender] at hnone
        | _ => rfl
      refine ⟨rfl, fun sender hsender => ?_, rfl, ?_⟩
      · cases hnone.symm.trans hsender
      · rw [hreceived, nil_append]
  | delivers y =>
    dsimp only at h
    split at h
    · simp at h
    · rename_i chatId signal left hwire
      obtain ⟨rfl, rfl, rfl⟩ : y.other = x ∧ .signal (parties.name y) chatId signal.arrives = a ∧
          { P with wire := Function.update P.wire y left } = rest := by simpa using h
      rw [Side.other_other]
      refine ⟨rfl, ?_, ?_, ?_⟩
      · intro sender hsender
        exact (Option.some.inj hsender).symm
      · exact Function.update_of_ne (Side.other_ne y) ..
      · dsimp only
        rw [Function.update_self, hwire, flatMap_cons, filterMap_append, arrived_received]

/-- The sides are attuned to each other, and whatever one has gathered is added at the other, or under way. -/
structure Kept (parties : Parties) (P : CallPair) (es : List PairEvent) : Prop where
  attuned : ∀ x, (P.manager x).Attuned (parties.name x.other) (addedBy x es)
  conserved : ∀ x, ((addedBy x.other es).map Prod.snd ++ P.underWay x).Perm
    ((gatheredBy x es).filterMap Candidate.arrived)
  timed : ∀ x, (P.manager x).Timed

theorem addedBy_append (x : Side) (es fs : List PairEvent) : addedBy x (es ++ fs) = addedBy x es ++ addedBy x fs :=
  filterMap_append

theorem gatheredBy_append (x : Side) (es fs : List PairEvent) :
    gatheredBy x (es ++ fs) = gatheredBy x es ++ gatheredBy x fs :=
  filterMap_append

theorem perm_handed {added new held received before wire batch : List Candidate}
    (h : (new ++ held).Perm (received ++ before)) :
    (added ++ new ++ (held ++ (wire ++ batch))).Perm (added ++ (before ++ (received ++ wire ++ batch))) := by
  have hmoved : (new ++ held).Perm (before ++ received) := h.trans perm_append_comm
  calc added ++ new ++ (held ++ (wire ++ batch))
    _ = added ++ ((new ++ held) ++ (wire ++ batch)) := by simp only [append_assoc]
    _ ~ added ++ ((before ++ received) ++ (wire ++ batch)) := (hmoved.append_right _).append_left _
    _ = added ++ (before ++ (received ++ wire ++ batch)) := by simp only [append_assoc]

/-- Every step of the pair keeps what each side knows of the other. -/
theorem kept_step {es fs : List PairEvent} {action : PairAction} {Q : CallPair} (hkept : Kept parties P es)
    (hcall : P.OneCall parties action) (hsparing : P.Sparing parties action)
    (hstep : P.step parties action = some (Q, fs)) : Kept parties Q (es ++ fs) := by
  unfold step at hstep
  cases hturn : P.turn parties action with
  | none =>
    rw [hturn] at hstep
    simp at hstep
  | some turn =>
    obtain ⟨x, a, rest⟩ := turn
    rw [hturn] at hstep
    have hone := hcall _ hturn
    have hspares := hsparing _ hturn
    obtain ⟨hsame, hsender, hmine, htheirs⟩ := turn_spec hturn
    obtain ⟨r, hr, hQ⟩ := map_eq_some_iff.mp hstep
    cases hQ
    obtain ⟨hattuned, hmoves⟩ := CallSessionManager.step_moves (hkept.attuned x) (parties.named _) hr hone.1
      (hone.2 r hr) hspares.1 hspares.2 hsender
    have hself : (rest.after parties x r).manager x = r.1 := Function.update_self ..
    have hother : (rest.after parties x r).manager x.other = P.manager x.other := by
      show Function.update rest.manager x r.1 x.other = _
      rw [Function.update_of_ne (Side.other_ne x), hsame]
    have hsent : (rest.after parties x r).wire x =
        P.wire x ++ r.2.filterMap (·.toOther (parties.name x.other)) := by
      show Function.update rest.wire x _ x = _
      rw [Function.update_self, hmine]
    have hleft : (rest.after parties x r).wire x.other = rest.wire x.other :=
      Function.update_of_ne (Side.other_ne x) ..
    obtain ⟨hnoneAdded, hnoneGathered⟩ := events_other
    have htarget : (P.manager x).outgoingCandidateBatch ≠ [] → (P.manager x).targetUserId ≠ "" := by
      intro hbatch hempty
      have hnamed := (hkept.attuned x).addressed (.inr (.inr (.inr hbatch)))
      exact parties.named x.other (hnamed.symm.trans hempty)
    refine ⟨fun y => ?_, fun y => ?_, fun y => ?_⟩
    · obtain rfl | rfl := Side.eq_or_other y x
      · rw [hself, addedBy_append, addedBy_self]
        exact hattuned
      · rw [hother, addedBy_append, hnoneAdded, append_nil]
        exact hkept.attuned x.other
    · obtain rfl | rfl := Side.eq_or_other y x
      · -- The side sends: its candidates go on to the channel.
        have hcarried : ((rest.after parties y r).wire y).flatMap (·.2.carried) ++ r.1.outgoingCandidateBatch =
            (P.wire y).flatMap (·.2.carried) ++ (P.manager y).outgoingCandidateBatch ++
              ((P.manager y).gathered a).toList := by
          rw [hsent, flatMap_append, carried_sent, append_assoc, hmoves.sends_on, append_assoc]
        have hbefore := (hkept.conserved y).append_right (((P.manager y).gathered a).toList.filterMap Candidate.arrived)
        rw [← filterMap_append] at hbefore
        unfold underWay at hbefore ⊢
        rw [append_assoc, append_assoc, ← filterMap_append] at hbefore
        rw [addedBy_append, hnoneAdded, append_nil, gatheredBy_append, gatheredBy_self, hother, hself, hcarried]
        exact hbefore
      · -- The side receives: its candidates are the ones that come out of the channel.
        have hhanded := hmoves.hands_on
        have hbefore := hkept.conserved x.other
        unfold underWay at hbefore ⊢
        rw [Side.other_other] at hbefore ⊢
        rw [addedBy_append, addedBy_self, gatheredBy_append, hnoneGathered, append_nil, hother, hself, hleft,
          map_append]
        rw [filterMap_append, htheirs] at hbefore
        rw [filterMap_append]
        exact (perm_handed hhanded).trans hbefore
    · obtain rfl | rfl := Side.eq_or_other y x
      · rw [hself]
        exact CallSessionManager.timed_step (hkept.timed y) htarget hr
      · rw [hother]
        exact hkept.timed x.other

theorem Kept.noneLost {es : List PairEvent} (h : Kept parties P es) : P.NoneLost es := by
  refine ⟨fun x e he => ((h.attuned x).added e he).1, h.conserved, h.timed,
    fun x hset => ((h.attuned x).described hset).2, fun x hsettled => ?_⟩
  have hqueue := ((h.attuned x.other).described hsettled.described).2
  have hflushes : (P.manager x.other).flushes.flatMap Flush.left = [] :=
    flatMap_eq_nil_iff.mpr hsettled.flushes
  have hnothing : P.underWay x = [] := by
    unfold underWay CallSessionManager.held
    rw [hqueue, hflushes, hsettled.wire, hsettled.batch]
    rfl
  have hconserved := h.conserved x
  rw [hnothing, append_nil] at hconserved
  exact hconserved

theorem kept_start : Kept parties {} [] where
  attuned x := by
    refine ⟨⟨nofun, nofun, nofun, nofun⟩, ?_⟩
    rintro (hne | hne | hne | hne)
    · exact absurd rfl hne
    · exact absurd hne (Nat.lt_irrefl 0)
    · exact absurd rfl hne
    · exact absurd rfl hne
  conserved x := List.Perm.refl []
  timed x := CallSessionManager.timed_of_empty rfl

end CallPair

def callPairMachine (parties : Parties) : Machine CallPair PairAction PairEvent where
  step := CallPair.step parties

instance (s : CallSessionManager) : Decidable s.NoCall := inferInstanceAs (Decidable (_ = _))

instance (s t : CallSessionManager) : Decidable (s.Lasts t) := inferInstanceAs (Decidable (_ → _))

instance (s : CallSessionManager) (other : String) (a : CallAction) : Decidable (s.StartsNone other a) :=
  match a with
  | .startCall _ _ _ _ => inferInstanceAs (Decidable (_ → _ ∧ _))
  | .prepareIncomingCall _ _ | .acceptIncomingCall | .rejectIncomingCall | .endCall _ | .callKitEnded | .toggleCamera
  | .signal _ _ _ | .callback _ _ | .timer _ | .resume _ _ | .elapse _ => inferInstanceAs (Decidable True)

instance (s : CallSessionManager) (a : CallAction) : Decidable (s.TakesOffer a) :=
  match a with
  | .signal _ _ (.offer _) => inferInstanceAs (Decidable (_ ∨ _ ∨ _))
  | .signal _ _ .ringing | .signal _ _ .offline | .signal _ _ .busy | .signal _ _ (.answer _)
  | .signal _ _ (.candidate _) | .signal _ _ (.candidates _) | .signal _ _ (.cancel _) | .signal _ _ .hangup
  | .signal _ _ .rejected | .signal _ _ .other => inferInstanceAs (Decidable False)
  | .startCall _ _ _ _ | .prepareIncomingCall _ _ | .acceptIncomingCall | .rejectIncomingCall | .endCall _
  | .callKitEnded | .toggleCamera | .callback _ _ | .timer _ | .resume _ _ | .elapse _ =>
    inferInstanceAs (Decidable False)

instance (s : CallSessionManager) (a : CallAction) : Decidable (s.OfferedInTime a) :=
  inferInstanceAs (Decidable (_ → _ ∧ _))

instance (s : CallSessionManager) (a : CallAction) : Decidable (s.ConnectsOnce a) :=
  inferInstanceAs (Decidable (_ → _))

instance (parties : Parties) (P : CallPair) (action : PairAction) : Decidable (P.OneCall parties action) :=
  inferInstanceAs (Decidable (∀ turn ∈ P.turn parties action, _ ∧ ∀ r ∈ (P.manager turn.1).step turn.2.1, _))

instance (parties : Parties) (P : CallPair) (action : PairAction) : Decidable (P.Sparing parties action) :=
  inferInstanceAs (Decidable (∀ turn ∈ P.turn parties action, _ ∧ _))

/-- In every run of a single call in which an offer that starts the call anew meets no candidate and no
description, and no connection is made beside another, no candidate is lost. -/
theorem no_candidate_lost (parties : Parties) {P : CallPair} {es : List PairEvent}
    (h : (callPairMachine parties).Reach (fun P _ action => P.OneCall parties action ∧ P.Sparing parties action)
      {} P es) :
    P.NoneLost es := by
  have hkept : CallPair.Kept parties P es := by
    refine h.invariant (CallPair.Kept parties) CallPair.kept_start ?_
    intro P es action Q fs hkept hgood hstep
    exact CallPair.kept_step hkept hgood.1 hgood.2 hstep
  exact hkept.noneLost

def annAndBob : Parties where
  name
    | .left => "u-ann"
    | .right => "u-bob"
  named x := by cases x <;> decide

/-- Ann calls Bob, and her connection has made the offer. -/
def annDials : List PairAction :=
  let goes (reply : Reply) : PairAction := .acts .left (.resume 0 reply)
  [.acts .left (.startCall "c" "Bob" "u-bob" false), goes { answer := true }, goes {}, goes {}, goes {},
    goes {}, goes {},
    goes { sdp := "v=0" }]

/-- A candidate is there, and is sent 60 ms later. -/
def annGathers : List PairAction :=
  [.acts .left (.callback 0 (.iceCandidate (some ⟨"candidate:1", some "0", some 0⟩))),
    .acts .left (.elapse 60), .acts .left (.timer 1)]

/-- What Ann has sent arrives, and Bob accepts the call: he has set her description. -/
def bobAccepts : List PairAction :=
  let goes (reply : Reply) : PairAction := .acts .right (.resume 0 reply)
  [.delivers .left, .delivers .left, .acts .right .acceptIncomingCall, goes { answer := true }, goes {},
    goes {}, goes {}, goes {}, goes {}, goes {}]

/-- Bob answers, Ann sets his description, and a candidate of his connection is sent to her. -/
def bobAnswers : List PairAction :=
  let goes (reply : Reply) : PairAction := .acts .right (.resume 0 reply)
  [goes {}, goes {}, goes { sdp := "v=0" }, goes {}, .delivers .right, .delivers .right, .acts .left (.resume 0 {}),
    .acts .left (.resume 0 {}), .acts .right (.callback 0 (.iceCandidate (some ⟨"candidate:2", some "0", some 0⟩))),
    .acts .right (.elapse 60), .acts .right (.timer 0), .delivers .right]

/-- The offer is sent before Ann's candidate, and the answer before Bob's: each then has added the other's. -/
theorem no_candidate_lost_in_time : ∃ (P : CallPair) (es : List PairEvent), P.NoneLost es ∧
    (addedBy .right es).map Prod.snd = [⟨"candidate:1", some "0", some 0⟩] ∧
    (addedBy .left es).map Prod.snd = [⟨"candidate:2", some "0", some 0⟩] := by
  let good (P : CallPair) (_ : List PairEvent) (action : PairAction) : Bool :=
    decide (P.OneCall annAndBob action ∧ P.Sparing annAndBob action)
  have hcheck : ((callPairMachine annAndBob).exec good {} []
      (annDials ++ .acts .left (.resume 0 {}) :: annGathers ++ bobAccepts ++ bobAnswers)).any (fun r =>
        (addedBy .right r.2).map Prod.snd = [⟨"candidate:1", some "0", some 0⟩] ∧
          (addedBy .left r.2).map Prod.snd = [⟨"candidate:2", some "0", some 0⟩]) = true := by
    decide +kernel
  obtain ⟨⟨P, es⟩, hexec, hadded⟩ := (Option.any_eq_true ..).mp hcheck
  have hreach := Machine.reach_of_exec (fun _ _ _ hgood => of_decide_eq_true hgood) hexec
  exact ⟨P, es, no_candidate_lost annAndBob hreach, of_decide_eq_true hadded⟩

/-- The candidate is sent while Ann's connection still sets her description: the offer that comes after it
empties the queue in which it waits. -/
theorem candidate_before_offer_lost : ¬∀ (parties : Parties) (P : CallPair) (es : List PairEvent),
      (callPairMachine parties).Reach (fun P _ action => P.OneCall parties action) {} P es → P.NoneLost es := by
  intro h
  let good (P : CallPair) (_ : List PairEvent) (action : PairAction) : Bool := decide (P.OneCall annAndBob action)
  have hcheck : ((callPairMachine annAndBob).exec good {} []
      (annDials ++ annGathers ++ .acts .left (.resume 0 {}) :: bobAccepts)).any (fun r =>
        (r.1.manager .left).outgoingCandidateBatch = [] && (r.1.wire .left).isEmpty &&
          (r.1.manager .right).remoteDescriptionSet && (r.1.manager .right).flushes = [] &&
            (addedBy .right r.2).isEmpty &&
              gatheredBy .left r.2 = [⟨"candidate:1", some "0", some 0⟩]) = true := by
    decide +kernel
  obtain ⟨⟨P, es⟩, hexec, hend⟩ := (Option.any_eq_true ..).mp hcheck
  have hreach := Machine.reach_of_exec (fun _ _ _ hgood => of_decide_eq_true hgood) hexec
  simp only [Bool.and_eq_true, decide_eq_true_eq, List.isEmpty_iff] at hend
  obtain ⟨⟨⟨⟨⟨hbatch, hwire⟩, hdescribed⟩, hflushes⟩, hadded⟩, hgathered⟩ := hend
  have hsettled : P.Settled .left := by
    refine ⟨hbatch, hwire, hdescribed, ?_⟩
    intro f hf
    rw [show (P.manager (Side.other .left)).flushes = [] from hflushes] at hf
    exact nomatch hf
  have hlost := (h annAndBob P es hreach).settled .left hsettled
  rw [show addedBy (Side.other .left) es = [] from hadded, hgathered] at hlost
  exact absurd hlost (by decide)

end LigamentApps.CallSession
