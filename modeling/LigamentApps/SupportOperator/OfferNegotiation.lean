import Mathlib.Algebra.Ring.Nat
import LigamentApps.Machine.Completion
import LigamentApps.Machine.Past

/-!
# The negotiation over the signaling socket

`_handleWsMessage` of `support_operator_screen.dart` for session descriptions and candidates, as a machine: a
message starts a handler, which goes on whenever the call that it waits for completes, and nothing keeps two
handlers apart. The peer connection is made once, after the socket was opened: that a double tap without a
stream makes a second one is left out.

A description or a candidate has the number of its message among the messages of its kind. A candidate belongs
to the last description before it, or to the first one if it comes before all of them.

`offers_negotiated` says what condition on the steps of a run is enough for every offer and every candidate of
it. -/

namespace LigamentApps.SupportOperator.Negotiation

open List Option

variable {j : ℕ}

/-! ## The handlers -/

/-- Where the handler of a description waits. -/
inductive SdpStage
  /-- `setRemoteDescription`; `applied`: the peer connection has the description. -/
  | settingRemote (applied : Bool)
  /-- `addCandidate`, in the loop over `_pendingCandidates`. -/
  | draining (candidate : ℕ)
  | creatingAnswer
  | settingLocal
  | finished
  deriving DecidableEq

variable {stage : SdpStage}

structure Sdp where
  isOffer : Bool
  stage : SdpStage

/-- Where the handler of a candidate waits. -/
inductive CandidateStage
  /-- `getRemoteDescription`. -/
  | asking
  /-- The call has completed, with a description or without. -/
  | read (described : Bool)
  /-- `addCandidate`. -/
  | adding
  | finished
  deriving DecidableEq

structure Candidate where
  /-- The description that the candidate belongs to. -/
  sdp : ℕ
  stage : CandidateStage

structure State where
  isCleanedUp : Bool := false
  /-- There is a `_peerConnection`. -/
  peerConnection : Bool := false
  /-- The description that the peer connection has. -/
  remoteDescription : Option ℕ := none
  pendingCandidates : List ℕ := []
  sdps : List Sdp := []
  candidates : List Candidate := []

inductive Event
  /-- The peer connection has a description. -/
  | applies (sdp : ℕ)
  /-- The answer to an offer is sent. -/
  | answers (sdp : ℕ)
  /-- `addCandidate` is called. -/
  | adds (candidate : ℕ)
  /-- `addCandidate` has failed. -/
  | addFails (candidate : ℕ)
  deriving DecidableEq

namespace State

def start : State := {}

def setSdp (s : State) (k : ℕ) (stage : SdpStage) : State :=
  { s with sdps := s.sdps.modify k fun d => { d with stage := stage } }

def setCandidate (s : State) (c : ℕ) (stage : CandidateStage) : State :=
  { s with candidates := s.candidates.modify c fun d => { d with stage := stage } }

/-- A description comes; without a peer connection it is dropped. -/
def onSdp (s : State) (isOffer : Bool) : State :=
  { s with sdps := s.sdps ++ [⟨isOffer, if s.peerConnection then .settingRemote false else .finished⟩] }

/-- A candidate comes; without a peer connection there is no description to read. -/
def onCandidate (s : State) : State :=
  { s with candidates := s.candidates ++ [⟨s.sdps.length - 1, if s.peerConnection then .asking else .read false⟩] }

/-- The head of the loop over `_pendingCandidates`, in the handler of a description. Without a peer connection
the candidates are thrown away one by one. -/
def loopHead (s : State) (k : ℕ) (d : Sdp) : State × List Event :=
  if s.peerConnection then
    match s.pendingCandidates with
    | c :: rest => ({ s.setSdp k (.draining c) with pendingCandidates := rest }, [.adds c])
    | [] => (s.setSdp k (if d.isOffer then .creatingAnswer else .finished), [])
  else ({ s.setSdp k .finished with pendingCandidates := [] }, [])

/-- The handler of a candidate goes on with what it has read. -/
def onRead (s : State) (c : ℕ) (described : Bool) : State × List Event :=
  if described then
    if s.peerConnection then (s.setCandidate c .adding, [.adds c]) else (s.setCandidate c .finished, [])
  else ({ s.setCandidate c .finished with pendingCandidates := s.pendingCandidates ++ [c] }, [])

end State

inductive Action
  | sdp (isOffer : Bool)
  | candidate
  /-- `_setupPeerConnection` has made the peer connection. -/
  | peerCreated
  /-- The peer connection takes a description. -/
  | applies (sdp : ℕ)
  | setRemoteFails (sdp : ℕ)
  /-- `setRemoteDescription` completes. -/
  | setRemoteDone (sdp : ℕ)
  /-- `addCandidate` completes in the loop. -/
  | drained (sdp : ℕ) (ok : Bool)
  | answerCreated (sdp : ℕ) (ok : Bool)
  /-- `setLocalDescription` completes; `hasChannel`: there is a `_wsChannel`. -/
  | localSet (sdp : ℕ) (ok hasChannel : Bool)
  /-- The remote description is read for a candidate. -/
  | reads (candidate : ℕ)
  | readFails (candidate : ℕ)
  /-- The handler of a candidate goes on. -/
  | goesOn (candidate : ℕ)
  | added (candidate : ℕ) (ok : Bool)
  /-- `_cleanupResources`. -/
  | cleanup

/-- The handlers, the peer connection and the messages. -/
def negotiation : Machine State Action Event where
  step s
    | .sdp isOffer => some (s.onSdp isOffer, [])
    | .candidate => some (s.onCandidate, [])
    | .peerCreated => if s.peerConnection then none else some ({ s with peerConnection := true }, [])
    | .applies k => s.sdps[k]?.bind fun d => match d.stage with
      | .settingRemote false =>
        some ({ s.setSdp k (.settingRemote true) with remoteDescription := some k }, [.applies k])
      | _ => none
    | .setRemoteFails k => s.sdps[k]?.bind fun d => match d.stage with
      | .settingRemote false => some (s.setSdp k .finished, [])
      | _ => none
    | .setRemoteDone k => s.sdps[k]?.bind fun d => match d.stage with
      | .settingRemote true => some (s.loopHead k d)
      | _ => none
    | .drained k ok => s.sdps[k]?.bind fun d => match d.stage with
      | .draining c =>
        let (t, es) := s.loopHead k d
        some (t, (if ok then [] else [.addFails c]) ++ es)
      | _ => none
    | .answerCreated k ok => s.sdps[k]?.bind fun d => match d.stage with
      | .creatingAnswer => some (s.setSdp k (if ok && s.peerConnection then .settingLocal else .finished), [])
      | _ => none
    | .localSet k ok hasChannel => s.sdps[k]?.bind fun d => match d.stage with
      | .settingLocal => some (s.setSdp k .finished, if ok && hasChannel then [.answers k] else [])
      | _ => none
    | .reads c => s.candidates[c]?.bind fun d => match d.stage with
      | .asking => some (s.setCandidate c (.read s.remoteDescription.isSome), [])
      | _ => none
    | .readFails c => s.candidates[c]?.bind fun d => match d.stage with
      | .asking => some (s.setCandidate c .finished, [])
      | _ => none
    | .goesOn c => s.candidates[c]?.bind fun d => match d.stage with
      | .read described => some (s.onRead c described)
      | _ => none
    | .added c ok => s.candidates[c]?.bind fun d => match d.stage with
      | .adding => some (s.setCandidate c .finished, if ok then [] else [.addFails c])
      | _ => none
    | .cleanup => some ({ s with isCleanedUp := true, peerConnection := false }, [])

/-! ## What a negotiation owes -/

variable {s t : State} {es fs : List Event} {a : Action} {k c : ℕ} {d : Sdp} {x : Candidate}

/-- All handlers have finished. -/
def State.Idle (s : State) : Prop :=
  (∀ (k : ℕ) (d : Sdp), s.sdps[k]? = some d → d.stage = .finished) ∧
    ∀ (c : ℕ) (x : Candidate), s.candidates[c]? = some x → x.stage = .finished

/-- A candidate is added only after a description is there. -/
def AddedAfter (c k : ℕ) (es : List Event) : Prop := EachAfter (fun es₁ e => e = .adds c → .applies k ∈ es₁) es

/-- What the messages have come to when all handlers have finished. -/
structure Negotiated (s : State) (es : List Event) : Prop where
  /-- An offer is applied and answered, unless a later one has come. -/
  offers : ∀ (k : ℕ) (d : Sdp), s.sdps[k]? = some d → d.isOffer = true →
    .applies k ∈ es ∧ .answers k ∈ es ∨
      ∃ (j : ℕ) (d' : Sdp), k < j ∧ s.sdps[j]? = some d' ∧ d'.isOffer = true
  /-- Once there is a description, every candidate is added exactly once. -/
  candidates : s.sdps ≠ [] → ∀ (c : ℕ) (x : Candidate), s.candidates[c]? = some x →
    es.count (.adds c) = 1 ∧ .addFails c ∉ es
  ordered : ∀ (c : ℕ) (x : Candidate), s.candidates[c]? = some x → AddedAfter c x.sdp es
  pending : s.sdps ≠ [] → s.pendingCandidates = []

/-- The handler still comes to the end of the loop over `_pendingCandidates`. -/
def SdpStage.drains : SdpStage → Bool
  | .settingRemote _ | .draining _ => true
  | .creatingAnswer | .settingLocal | .finished => false

/-- The description that a candidate belongs to is not being set. -/
def State.Described (s : State) (c : ℕ) : Prop :=
  ∀ (x : Candidate) (d : Sdp), s.candidates[c]? = some x → s.sdps[x.sdp]? = some d → d.stage ≠ .settingRemote false

/-- What keeps the negotiation in order: no description comes without a peer connection, no call fails, no
candidate is queued when the queue was emptied for the last time, and none is added while its description is
being set. -/
def Orderly (s : State) (_ : List Event) (a : Action) : Prop :=
  s.isCleanedUp = true ∨
    match a with
    | .sdp _ => s.peerConnection = true
    | .setRemoteFails _ | .readFails _ => False
    | .setRemoteDone _ => ∀ c, s.pendingCandidates.head? = some c → s.Described c
    | .drained _ ok => ok = true ∧ ∀ c, s.pendingCandidates.head? = some c → s.Described c
    | .answerCreated _ ok => ok = true
    | .localSet _ ok hasChannel => ok = true ∧ hasChannel = true
    | .goesOn c => ∀ x : Candidate, s.candidates[c]? = some x →
      (x.stage = .read false → s.sdps = [] ∨ ∃ (k : ℕ) (d : Sdp), s.sdps[k]? = some d ∧ d.stage.drains = true) ∧
        (x.stage = .read true → s.Described c)
    | .added _ ok => ok = true
    | .candidate | .peerCreated | .applies _ | .reads _ | .cleanup => True

/-- The handler has neither queued its candidate nor added it. -/
def CandidateStage.waits : CandidateStage → Bool
  | .asking | .read _ => true
  | .adding | .finished => false

/-- What holds while the screen is alive. -/
structure Kept (s : State) (es : List Event) : Prop where
  peer : s.sdps ≠ [] → s.peerConnection = true
  applied : ∀ (k : ℕ) (d : Sdp), s.sdps[k]? = some d → d.stage = .settingRemote false ∨ .applies k ∈ es
  answered : ∀ (k : ℕ) (d : Sdp), s.sdps[k]? = some d → d.isOffer = true → d.stage = .finished → .answers k ∈ es
  described : s.remoteDescription.isSome = true → s.sdps ≠ []
  read : ∀ (c : ℕ) (x : Candidate), s.candidates[c]? = some x → x.stage = .read true → s.sdps ≠ []
  belongs : ∀ (c : ℕ) (x : Candidate), s.candidates[c]? = some x → x.sdp ≤ s.sdps.length - 1
  place : ∀ (c : ℕ) (x : Candidate), s.candidates[c]? = some x →
    es.count (.adds c) + s.pendingCandidates.count c = if x.stage.waits then 0 else 1
  fresh : ∀ c, s.candidates[c]? = none → es.count (.adds c) + s.pendingCandidates.count c = 0
  added : ∀ c, .addFails c ∉ es
  ordered : ∀ (c : ℕ) (x : Candidate), s.candidates[c]? = some x → AddedAfter c x.sdp es
  drained : s.pendingCandidates ≠ [] → s.sdps = [] ∨ ∃ (k : ℕ)
    (d : Sdp), s.sdps[k]? = some d ∧ d.stage.drains = true

theorem kept_start : Kept .start [] := by
  refine ⟨nofun, nofun, nofun, nofun, nofun, nofun, nofun, fun _ _ => rfl, nofun, nofun, nofun⟩

theorem AddedAfter.quiet (h : AddedAfter c k es) (hquiet : .adds c ∉ fs) : AddedAfter c k (es ++ fs) := by
  refine eachAfter_append h fun fs₁ e fs₂ hsplit heq => ?_
  rw [hsplit, heq] at hquiet
  exact absurd (by simp) hquiet

theorem addedAfter_of_notMem (h : .adds c ∉ es) : AddedAfter c k es := by
  have hempty : AddedAfter c k [] := eachAfter_nil
  exact hempty.quiet h

theorem count_adds (c c' : ℕ) :
    (es ++ [Event.adds c]).count (Event.adds c') = es.count (Event.adds c') + if c = c' then 1 else 0 := by
  rw [count_append, count_singleton]
  by_cases hcc : c = c' <;> simp [hcc]

/-! ### A description -/

theorem sdp_of_setSdp {d' : Sdp} (h : (s.setSdp k stage).sdps[j]? = some d') :
    ∃ d, s.sdps[j]? = some d ∧ d' = if k = j then { d with stage := stage } else d := by
  rw [State.setSdp, getElem?_modify] at h
  obtain ⟨d, hd, rfl⟩ := map_eq_some_iff.mp h
  exact ⟨d, hd, rfl⟩

theorem setSdp_self (h : s.sdps[k]? = some d) : (s.setSdp k stage).sdps[k]? = some { d with stage := stage } := by
  rw [State.setSdp, getElem?_modify_eq, h]
  rfl

theorem setSdp_ne (hne : k ≠ j) : (s.setSdp k stage).sdps[j]? = s.sdps[j]? := by
  rw [State.setSdp, getElem?_modify_ne _ _ hne]

theorem length_setSdp : (s.setSdp k stage).sdps.length = s.sdps.length := by
  rw [State.setSdp, length_modify]

theorem setSdp_eq_nil : (s.setSdp k stage).sdps = [] ↔ s.sdps = [] := by
  rw [← length_eq_zero_iff, length_setSdp, length_eq_zero_iff]

theorem sdps_ne_nil (h : s.sdps[k]? = some d) : s.sdps ≠ [] := by
  rintro hnil
  simp [hnil] at h

theorem Kept.sdpMoves (h : Kept s es) (hk : s.sdps[k]? = some d) (remote : Option ℕ)
    (hquiet : ∀ c, .adds c ∉ fs ∧ .addFails c ∉ fs)
    (happlied : stage = .settingRemote false ∨ .applies k ∈ es ++ fs)
    (hanswered : d.isOffer = true → stage = .finished → .answers k ∈ es ++ fs)
    (hdrains : stage.drains = true ∨ d.stage.drains = false ∨ s.pendingCandidates = []) :
    Kept { s.setSdp k stage with remoteDescription := remote } (es ++ fs) := by
  have hne := sdps_ne_nil hk
  have hcount : ∀ c, (es ++ fs).count (.adds c) = es.count (.adds c) := by
    intro c
    rw [count_append, count_eq_zero_of_not_mem (hquiet c).1, Nat.add_zero]
  refine ⟨fun _ => h.peer hne, fun j d' hj => ?_, fun j d' hj hoffer hover => ?_, fun _ => ?_,
    fun c x hc hread => ?_,
    fun c x hc => ?_, fun c x hc => ?_, fun c hc => ?_, fun c => ?_, fun c x hc => ?_, fun hpending => ?_⟩
  · obtain ⟨d₀, hd₀, rfl⟩ := sdp_of_setSdp hj
    split_ifs with hkj
    · subst hkj
      exact happlied
    · exact (h.applied j d₀ hd₀).imp_right (mem_append_left fs)
  · obtain ⟨d₀, hd₀, rfl⟩ := sdp_of_setSdp hj
    split_ifs at hoffer hover with hkj
    · subst hkj
      cases hk.symm.trans hd₀
      exact hanswered hoffer hover
    · exact mem_append_left fs (h.answered j d₀ hd₀ hoffer hover)
  · exact fun hnil => hne (setSdp_eq_nil.mp hnil)
  · exact fun hnil => hne (setSdp_eq_nil.mp hnil)
  · change x.sdp ≤ (s.setSdp k stage).sdps.length - 1
    rw [length_setSdp]
    exact h.belongs c x hc
  · rw [hcount]
    exact h.place c x hc
  · rw [hcount]
    exact h.fresh c hc
  · rw [mem_append, not_or]
    exact ⟨h.added c, (hquiet c).2⟩
  · exact (h.ordered c x hc).quiet (hquiet c).1
  · refine .inr ?_
    rcases hdrains with hdrains | hbefore | hempty
    · exact ⟨k, _, setSdp_self hk, hdrains⟩
    · -- the loop that is still to come is that of another handler
      rcases h.drained hpending with hnil | ⟨j, d', hj, hd'⟩
      · exact absurd hnil hne
      · have hkj : k ≠ j := by
          rintro rfl
          cases hk.symm.trans hj
          cases hbefore.symm.trans hd'
        exact ⟨j, d', (setSdp_ne hkj).trans hj, hd'⟩
    · exact absurd hempty hpending

theorem Kept.applies_of_described (h : Kept s es) (hne : s.sdps ≠ []) (hx : s.candidates[c]? = some x)
    (hdescribed : s.Described c) : .applies x.sdp ∈ es := by
  have hlt : x.sdp < s.sdps.length := by
    have hbelongs := h.belongs c x hx
    have hpos : 0 < s.sdps.length := length_pos_iff.mpr hne
    omega
  have hd : s.sdps[x.sdp]? = some (s.sdps[x.sdp]) := getElem?_eq_getElem hlt
  exact (h.applied _ _ hd).resolve_left (hdescribed x _ hx hd)

theorem Kept.drains (h : Kept s es) (hk : s.sdps[k]? = some d) (happlied : .applies k ∈ es) {rest : List ℕ}
    (hpending : s.pendingCandidates = c :: rest) (hdescribed : s.Described c) :
    Kept { s.setSdp k (.draining c) with pendingCandidates := rest } (es ++ [.adds c]) := by
  have hne := sdps_ne_nil hk
  have hpos : 0 < s.pendingCandidates.count c := by
    rw [hpending]
    exact count_pos_iff.mpr mem_cons_self
  have hsum : ∀ c', (es ++ [Event.adds c]).count (Event.adds c') + rest.count c' =
      es.count (.adds c') + s.pendingCandidates.count c' := by
    intro c'
    rw [hpending, count_adds, count_cons]
    by_cases hcc : c = c'
    · simp only [hcc, beq_self_eq_true, if_true]
      omega
    · simp [hcc]
  refine ⟨fun _ => h.peer hne, fun j d' hj => ?_, fun j d' hj hoffer hover => ?_, fun _ => ?_,
    fun c x hc hread => ?_,
    fun c x hc => ?_, fun c x hc => ?_, fun c hc => ?_, fun c => ?_, fun c' x hc => ?_, fun _ => ?_⟩
  · obtain ⟨d₀, hd₀, rfl⟩ := sdp_of_setSdp hj
    split_ifs with hkj
    · subst hkj
      exact .inr (mem_append_left _ happlied)
    · exact (h.applied j d₀ hd₀).imp_right (mem_append_left _)
  · obtain ⟨d₀, hd₀, rfl⟩ := sdp_of_setSdp hj
    split_ifs at hoffer hover with hkj
    exact mem_append_left _ (h.answered j d₀ hd₀ hoffer hover)
  · exact fun hnil => hne (setSdp_eq_nil.mp hnil)
  · exact fun hnil => hne (setSdp_eq_nil.mp hnil)
  · change x.sdp ≤ (s.setSdp k (.draining _)).sdps.length - 1
    rw [length_setSdp]
    exact h.belongs c x hc
  · exact (hsum c).trans (h.place c x hc)
  · exact (hsum c).trans (h.fresh c hc)
  · simpa using h.added c
  · by_cases hcc : c = c'
    · subst hcc
      exact eachAfter_snoc (h.ordered c x hc) fun _ => h.applies_of_described hne hc hdescribed
    · exact (h.ordered c' x hc).quiet (by simpa using Ne.symm hcc)
  · exact .inr ⟨k, _, setSdp_self hk, rfl⟩

theorem Kept.loopHead (h : Kept s es) (hk : s.sdps[k]? = some d) (happlied : .applies k ∈ es)
    (hdescribed : ∀ c, s.pendingCandidates.head? = some c → s.Described c) :
    Kept (s.loopHead k d).1 (es ++ (s.loopHead k d).2) := by
  have hpeer := h.peer (sdps_ne_nil hk)
  unfold State.loopHead
  rw [if_pos hpeer]
  cases hpending : s.pendingCandidates with
  | nil =>
    refine h.sdpMoves hk s.remoteDescription (by simp) (.inr (mem_append_left _ happlied)) ?_
      (.inr (.inr hpending))
    intro hoffer hover
    simp [hoffer] at hover
  | cons c => exact h.drains hk happlied hpending (hdescribed c (by rw [hpending]; rfl))

/-! ### A candidate -/

theorem candidate_of_setCandidate {stage : CandidateStage} {y : Candidate}
    (h : (s.setCandidate c stage).candidates[j]? = some y) :
    ∃ x, s.candidates[j]? = some x ∧ y = if c = j then { x with stage := stage } else x := by
  rw [State.setCandidate, getElem?_modify] at h
  obtain ⟨x, hx, rfl⟩ := map_eq_some_iff.mp h
  exact ⟨x, hx, rfl⟩

theorem setCandidate_eq_none {stage : CandidateStage} :
    (s.setCandidate c stage).candidates[j]? = none ↔ s.candidates[j]? = none := by
  rw [State.setCandidate, getElem?_modify, Option.map_eq_map, map_eq_none_iff]

theorem Kept.candidateMoves (h : Kept s es) (hx : s.candidates[c]? = some x) {stage : CandidateStage}
    (pending : List ℕ) (hread : stage = .read true → s.sdps ≠ []) (hfails : ∀ c, .addFails c ∉ fs)
    (hself : (es ++ fs).count (.adds c) + pending.count c = if stage.waits then 0 else 1)
    (hother : ∀ j, c ≠ j → .adds j ∉ fs ∧ pending.count j = s.pendingCandidates.count j)
    (hordered : AddedAfter c x.sdp (es ++ fs))
    (hdrained : pending ≠ [] → s.sdps = [] ∨ ∃ (k : ℕ) (d : Sdp), s.sdps[k]? = some d ∧ d.stage.drains = true) :
    Kept { s.setCandidate c stage with pendingCandidates := pending } (es ++ fs) := by
  have hsum : ∀ j, c ≠ j → (es ++ fs).count (.adds j) + pending.count j =
      es.count (.adds j) + s.pendingCandidates.count j := by
    intro j hne
    rw [count_append, count_eq_zero_of_not_mem (hother j hne).1, Nat.add_zero, (hother j hne).2]
  refine ⟨h.peer, fun k d hk => (h.applied k d hk).imp_right (mem_append_left fs),
    fun k d hk hoffer hover => mem_append_left fs (h.answered k d hk hoffer hover), h.described,
    fun j y hy hyes => ?_, fun j y hy => ?_, fun j y hy => ?_, fun j hj => ?_, fun j => ?_,
      fun j y hy => ?_, hdrained⟩
  · obtain ⟨x₀, hx₀, rfl⟩ := candidate_of_setCandidate hy
    split_ifs at hyes with hcj
    · exact hread hyes
    · exact h.read j x₀ hx₀ hyes
  · obtain ⟨x₀, hx₀, rfl⟩ := candidate_of_setCandidate hy
    have hbelongs := h.belongs j x₀ hx₀
    split_ifs <;> exact hbelongs
  · obtain ⟨x₀, hx₀, rfl⟩ := candidate_of_setCandidate hy
    by_cases hcj : c = j
    · subst hcj
      rw [if_pos rfl]
      exact hself
    · rw [if_neg hcj, hsum j hcj]
      exact h.place j x₀ hx₀
  · have hnone := setCandidate_eq_none.mp hj
    have hcj : c ≠ j := by
      rintro rfl
      cases hx.symm.trans hnone
    rw [hsum j hcj]
    exact h.fresh j hnone
  · rw [mem_append, not_or]
    exact ⟨h.added j, hfails j⟩
  · obtain ⟨x₀, hx₀, rfl⟩ := candidate_of_setCandidate hy
    split_ifs with hcj
    · subst hcj
      cases hx.symm.trans hx₀
      exact hordered
    · exact (h.ordered j x₀ hx₀).quiet (hother j hcj).1

theorem Kept.candidateStays (h : Kept s es) (hx : s.candidates[c]? = some x) {stage : CandidateStage}
    (hwaits : stage.waits = x.stage.waits) (hread : stage = .read true → s.sdps ≠ []) :
    Kept (s.setCandidate c stage) (es ++ []) := by
  refine h.candidateMoves hx s.pendingCandidates hread (by simp) ?_ (by simp) ?_ h.drained
  · rw [append_nil, hwaits]
    exact h.place c x hx
  · rw [append_nil]
    exact h.ordered c x hx

theorem Kept.onRead (h : Kept s es) (hx : s.candidates[c]? = some x) {described : Bool}
    (hstage : x.stage = .read described)
    (hqueue : described = false → s.sdps = [] ∨ ∃ (k : ℕ) (d : Sdp), s.sdps[k]? = some d ∧ d.stage.drains = true)
    (hadd : described = true → s.Described c) : Kept (s.onRead c described).1 (es ++ (s.onRead c described).2) := by
  have hplace := h.place c x hx
  rw [hstage] at hplace
  have hzero : es.count (.adds c) = 0 ∧ s.pendingCandidates.count c = 0 := Nat.add_eq_zero_iff.mp hplace
  cases described with
  | true =>
    have hne := h.read c x hx hstage
    simp only [State.onRead, if_true, h.peer hne]
    refine h.candidateMoves hx s.pendingCandidates nofun (by simp) ?_ (fun j hcj => ?_) ?_ h.drained
    · rw [count_adds, hzero.1, hzero.2]
      simp [CandidateStage.waits]
    · exact ⟨by simpa using Ne.symm hcj, rfl⟩
    · exact eachAfter_snoc (h.ordered c x hx) fun _ => h.applies_of_described hne hx (hadd rfl)
  | false =>
    simp only [State.onRead, Bool.false_eq_true, if_false]
    refine h.candidateMoves hx (s.pendingCandidates ++ [c]) nofun (by simp) ?_ (fun j hcj => ?_) ?_
      fun _ => hqueue rfl
    · rw [append_nil, count_append, hzero.1, hzero.2]
      simp [CandidateStage.waits]
    · refine ⟨by simp, ?_⟩
      rw [count_append, count_singleton]
      simp [hcj]
    · rw [append_nil]
      exact h.ordered c x hx

/-! ### Messages -/

theorem of_getElem?_snoc {α : Type*} {l : List α} {y z : α} {i : ℕ} (h : (l ++ [y])[i]? = some z) :
    l[i]? = some z ∨ i = l.length ∧ z = y := by
  rw [getElem?_append] at h
  split_ifs at h with hlt
  · exact .inl h
  · rw [getElem?_singleton] at h
    split_ifs at h with hzero
    exact .inr ⟨by omega, (Option.some.inj h).symm⟩

theorem Kept.onSdp (h : Kept s es) (isOffer : Bool) (hpeer : s.peerConnection = true) :
    Kept (s.onSdp isOffer) es := by
  have hne : (s.onSdp isOffer).sdps ≠ [] := by simp [State.onSdp]
  have hlast : (s.onSdp isOffer).sdps[s.sdps.length]? = some ⟨isOffer, .settingRemote false⟩ := by
    simp [State.onSdp, hpeer]
  have hsdp : ∀ (k : ℕ) (d : Sdp), (s.onSdp isOffer).sdps[k]? = some d →
      s.sdps[k]? = some d ∨ d.stage = .settingRemote false := by
    intro k d hk
    refine (of_getElem?_snoc hk).imp_right fun hnew => ?_
    rw [hnew.2, if_pos hpeer]
  refine ⟨fun _ => hpeer, fun k d hk => ?_, fun k d hk hoffer hover => ?_, fun _ => hne, fun _ _ _ _ => hne,
    fun c x hc => ?_, h.place, h.fresh, h.added, h.ordered, fun _ => .inr ⟨_, _, hlast, rfl⟩⟩
  · rcases hsdp k d hk with hold | hnew
    · exact h.applied k d hold
    · exact .inl hnew
  · rcases hsdp k d hk with hold | hnew
    · exact h.answered k d hold hoffer hover
    · cases hnew.symm.trans hover
  · have hbelongs := h.belongs c x hc
    simp only [State.onSdp, length_append, length_singleton]
    omega

theorem Kept.onCandidate (h : Kept s es) : Kept s.onCandidate es := by
  have hlast : s.candidates[s.candidates.length]? = none := getElem?_eq_none (Nat.le_refl _)
  have hfresh := h.fresh _ hlast
  have hcandidate : ∀ (c : ℕ) (x : Candidate), s.onCandidate.candidates[c]? = some x → s.candidates[c]? = some x ∨
      c = s.candidates.length ∧ x.sdp = s.sdps.length - 1 ∧ x.stage.waits = true ∧ x.stage ≠ .read true := by
    intro c x hc
    refine (of_getElem?_snoc hc).imp_right fun ⟨hc, hx⟩ => ⟨hc, ?_⟩
    subst hx
    refine ⟨rfl, ?_, ?_⟩
    · split_ifs <;> rfl
    · split_ifs <;> simp
  refine ⟨h.peer, h.applied, h.answered, h.described, fun c x hc hread => ?_, fun c x hc => ?_,
    fun c x hc => ?_, fun c hc => ?_, h.added, fun c x hc => ?_, h.drained⟩
  · rcases hcandidate c x hc with hold | ⟨-, -, -, hno⟩
    · exact h.read c x hold hread
    · exact absurd hread hno
  · rcases hcandidate c x hc with hold | ⟨-, hsdp, -, -⟩
    · exact h.belongs c x hold
    · exact Nat.le_of_eq hsdp
  · rcases hcandidate c x hc with hold | ⟨rfl, -, hwaits, -⟩
    · exact h.place c x hold
    · rw [if_pos hwaits]
      exact hfresh
  · refine h.fresh c ?_
    rw [List.getElem?_eq_none_iff] at hc ⊢
    exact Nat.le_trans (by simp [State.onCandidate]) hc
  · rcases hcandidate c x hc with hold | ⟨rfl, -, -, -⟩
    · exact h.ordered c x hold
    · refine addedAfter_of_notMem fun hmem => ?_
      have hpos := count_pos_iff.mpr hmem
      omega

/-- Every orderly step keeps the negotiation. -/
theorem kept_step (h : Kept s es) (hlive : s.isCleanedUp = false) (horderly : Orderly s es a)
    (hstep : negotiation.step s a = some (t, fs)) (hlive' : t.isCleanedUp = false) : Kept t (es ++ fs) := by
  have hgood := horderly.resolve_left (by simp [hlive])
  cases a with
  | sdp isOffer =>
    cases hstep
    rw [append_nil]
    exact h.onSdp isOffer hgood
  | candidate =>
    cases hstep
    rw [append_nil]
    exact h.onCandidate
  | peerCreated =>
    simp only [negotiation] at hstep
    split_ifs at hstep
    cases hstep
    rw [append_nil]
    exact ⟨fun _ => rfl, h.applied, h.answered, h.described, h.read, h.belongs, h.place, h.fresh, h.added,
      h.ordered, h.drained⟩
  | applies k =>
    obtain ⟨d, hk, hrun⟩ := bind_eq_some_iff.mp hstep
    cases hstage : d.stage with
    | settingRemote applied =>
      cases applied with
      | false =>
        simp only [hstage, Option.some.injEq, Prod.mk.injEq] at hrun
        obtain ⟨rfl, rfl⟩ := hrun
        exact h.sdpMoves hk (some k) (by simp) (.inr (by simp)) (by simp) (.inl rfl)
      | true => simp [hstage] at hrun
    | draining | creatingAnswer | settingLocal | finished => simp [hstage] at hrun
  -- failures are not orderly
  | setRemoteFails | readFails => exact absurd hgood id
  | setRemoteDone k =>
    obtain ⟨d, hk, hrun⟩ := bind_eq_some_iff.mp hstep
    cases hstage : d.stage with
    | settingRemote applied =>
      cases applied with
      | false => simp [hstage] at hrun
      | true =>
        have happlied := (h.applied k d hk).resolve_left (by simp [hstage])
        have hkept := h.loopHead hk happlied hgood
        simp only [hstage, Option.some.injEq] at hrun
        rwa [hrun] at hkept
    | draining | creatingAnswer | settingLocal | finished => simp [hstage] at hrun
  | drained k =>
    obtain ⟨d, hk, hrun⟩ := bind_eq_some_iff.mp hstep
    cases hstage : d.stage with
    | draining =>
      obtain ⟨rfl, hdescribed⟩ := hgood
      have happlied := (h.applied k d hk).resolve_left (by simp [hstage])
      have hkept := h.loopHead hk happlied hdescribed
      simp only [hstage, if_true, nil_append, Option.some.injEq, Prod.mk.injEq] at hrun
      obtain ⟨rfl, rfl⟩ := hrun
      exact hkept
    | settingRemote | creatingAnswer | settingLocal | finished => simp [hstage] at hrun
  | answerCreated k ok =>
    obtain ⟨d, hk, hrun⟩ := bind_eq_some_iff.mp hstep
    cases hstage : d.stage with
    | creatingAnswer =>
      have hok : ok = true := hgood
      have happlied := (h.applied k d hk).resolve_left (by simp [hstage])
      have hpeer := h.peer (sdps_ne_nil hk)
      simp only [hstage, hok, hpeer, Bool.and_true, if_true, Option.some.injEq, Prod.mk.injEq] at hrun
      obtain ⟨rfl, rfl⟩ := hrun
      exact h.sdpMoves hk s.remoteDescription (by simp) (.inr (mem_append_left _ happlied)) (by simp)
        (.inr (.inl (by rw [hstage]; rfl)))
    | settingRemote | draining | settingLocal | finished => simp [hstage] at hrun
  | localSet k =>
    obtain ⟨d, hk, hrun⟩ := bind_eq_some_iff.mp hstep
    cases hstage : d.stage with
    | settingLocal =>
      obtain ⟨rfl, rfl⟩ := hgood
      have happlied := (h.applied k d hk).resolve_left (by simp [hstage])
      simp only [hstage, Bool.and_self, if_true, Option.some.injEq, Prod.mk.injEq] at hrun
      obtain ⟨rfl, rfl⟩ := hrun
      exact h.sdpMoves hk s.remoteDescription (by simp) (.inr (mem_append_left _ happlied)) (by simp)
        (.inr (.inl (by rw [hstage]; rfl)))
    | settingRemote | draining | creatingAnswer | finished => simp [hstage] at hrun
  | reads =>
    obtain ⟨x, hx, hrun⟩ := bind_eq_some_iff.mp hstep
    cases hstage : x.stage with
    | asking =>
      simp only [hstage, Option.some.injEq, Prod.mk.injEq] at hrun
      obtain ⟨rfl, rfl⟩ := hrun
      exact h.candidateStays hx (by rw [hstage]; rfl) fun hread => h.described (CandidateStage.read.inj hread)
    | read | adding | finished => simp [hstage] at hrun
  | goesOn =>
    obtain ⟨x, hx, hrun⟩ := bind_eq_some_iff.mp hstep
    cases hstage : x.stage with
    | read =>
      obtain ⟨hqueue, hadd⟩ := hgood x hx
      have hkept := h.onRead hx hstage (fun hno => hqueue (by rw [hstage, hno]))
        fun hyes => hadd (by rw [hstage, hyes])
      simp only [hstage, Option.some.injEq] at hrun
      rwa [hrun] at hkept
    | asking | adding | finished => simp [hstage] at hrun
  | added _ ok =>
    obtain ⟨x, hx, hrun⟩ := bind_eq_some_iff.mp hstep
    cases hstage : x.stage with
    | adding =>
      have hok : ok = true := hgood
      simp only [hstage, hok, if_true, Option.some.injEq, Prod.mk.injEq] at hrun
      obtain ⟨rfl, rfl⟩ := hrun
      exact h.candidateStays hx (by rw [hstage]; rfl) nofun
    | asking | read | finished => simp [hstage] at hrun
  | cleanup =>
    cases hstep
    simp at hlive'

theorem cleaned_step (hstep : negotiation.step s a = some (t, fs)) (hcleaned : s.isCleanedUp = true) :
    t.isCleanedUp = true := by
  have hloop : ∀ k d, (s.loopHead k d).1.isCleanedUp = true := by
    intro k d
    unfold State.loopHead
    split
    · split <;> exact hcleaned
    · exact hcleaned
  have hread : ∀ c described, (s.onRead c described).1.isCleanedUp = true := by
    intro c described
    unfold State.onRead
    split_ifs <;> exact hcleaned
  cases a with
  | sdp | candidate =>
    cases hstep
    exact hcleaned
  | cleanup =>
    cases hstep
    rfl
  | peerCreated =>
    simp only [negotiation] at hstep
    split_ifs at hstep
    cases hstep
    exact hcleaned
  | setRemoteDone k | drained k =>
    obtain ⟨d, -, hrun⟩ := bind_eq_some_iff.mp hstep
    split at hrun
    · obtain ⟨rfl, -⟩ := Prod.mk.inj (Option.some.inj hrun)
      exact hloop k d
    · simp at hrun
  | goesOn c =>
    obtain ⟨x, -, hrun⟩ := bind_eq_some_iff.mp hstep
    split at hrun
    · obtain ⟨rfl, -⟩ := Prod.mk.inj (Option.some.inj hrun)
      exact hread c _
    · simp at hrun
  | applies | setRemoteFails | answerCreated | localSet | reads | readFails | added =>
    obtain ⟨d, -, hrun⟩ := bind_eq_some_iff.mp hstep
    split at hrun
    · cases hrun
      exact hcleaned
    · simp at hrun

theorem Kept.negotiated (h : Kept s es) (hidle : s.Idle) : Negotiated s es := by
  obtain ⟨hsdps, hcandidates⟩ := hidle
  have hpending : s.sdps ≠ [] → s.pendingCandidates = [] := by
    intro hne
    by_contra hleft
    rcases h.drained hleft with hnil | ⟨k, d, hk, hdrains⟩
    · exact hne hnil
    · rw [hsdps k d hk] at hdrains
      cases hdrains
  refine ⟨fun k d hk hoffer => .inl ⟨?_, h.answered k d hk hoffer (hsdps k d hk)⟩,
    fun hne c x hc => ⟨?_, h.added c⟩, h.ordered, hpending⟩
  · exact (h.applied k d hk).resolve_left (by simp [hsdps k d hk])
  · have hplace := h.place c x hc
    rwa [hcandidates c x hc, hpending hne] at hplace

/-! ### The end of the handlers -/

def SdpStage.rank : SdpStage → ℕ
  | .settingRemote false => 5
  | .settingRemote true => 4
  | .draining _ => 3
  | .creatingAnswer => 2
  | .settingLocal => 1
  | .finished => 0

def CandidateStage.rank : CandidateStage → ℕ
  | .asking => 3
  | .read _ => 2
  | .adding => 1
  | .finished => 0

/-- What the handlers still have to do. -/
def State.rank (s : State) : ℕ :=
  (s.sdps.map (·.stage.rank)).sum + (s.candidates.map (·.stage.rank)).sum + s.pendingCandidates.length

theorem sum_modify {α : Type*} (r : α → ℕ) (f : α → α) :
    ∀ {l : List α} {i : ℕ} {x : α}, l[i]? = some x → ((l.modify i f).map r).sum + r x = (l.map r).sum + r (f x)
  | [], i, x, h => by simp at h
  | y :: l, 0, x, h => by
    cases h
    simp only [modify_zero_cons, map_cons, sum_cons]
    omega
  | y :: l, i + 1, x, h => by
    have hrest := sum_modify r f (i := i) h
    simp only [modify_succ_cons, map_cons, sum_cons]
    omega

theorem rank_setSdp (stage : SdpStage) (hk : s.sdps[k]? = some d) :
    (s.setSdp k stage).rank + d.stage.rank = s.rank + stage.rank := by
  have hsum := sum_modify (·.stage.rank) (fun d : Sdp => { d with stage := stage }) hk
  simp only [State.rank, State.setSdp] at hsum ⊢
  omega

theorem rank_setCandidate (stage : CandidateStage) (hx : s.candidates[c]? = some x) :
    (s.setCandidate c stage).rank + x.stage.rank = s.rank + stage.rank := by
  have hsum := sum_modify (·.stage.rank) (fun x : Candidate => { x with stage := stage }) hx
  simp only [State.rank, State.setCandidate] at hsum ⊢
  omega

theorem rank_pending (s : State) (pending : List ℕ) :
    { s with pendingCandidates := pending }.rank + s.pendingCandidates.length = s.rank + pending.length := by
  simp only [State.rank]
  omega

theorem rank_loopHead (hk : s.sdps[k]? = some d) (hstage : 3 ≤ d.stage.rank) :
    (s.loopHead k d).1.rank < s.rank := by
  have hover := rank_setSdp .finished hk
  have hzero : SdpStage.finished.rank = 0 := rfl
  by_cases hpeer : s.peerConnection = true
  · rw [State.loopHead, if_pos hpeer]
    cases hpending : s.pendingCandidates with
    | nil =>
      have hrank := rank_setSdp (if d.isOffer then .creatingAnswer else .finished) hk
      have hnext : (if d.isOffer then SdpStage.creatingAnswer else .finished).rank ≤ 2 := by
        split_ifs <;> simp [SdpStage.rank]
      dsimp only
      omega
    | cons c rest =>
      have hrank := rank_setSdp (.draining c) hk
      have hthree : (SdpStage.draining c).rank = 3 := rfl
      have hrest := rank_pending (s.setSdp k (.draining c)) rest
      have hlength : (s.setSdp k (.draining c)).pendingCandidates.length = rest.length + 1 := by
        simp [State.setSdp, hpending]
      dsimp only
      omega
  · rw [State.loopHead, if_neg hpeer]
    have hrest := rank_pending (s.setSdp k .finished) []
    have hnil : ([] : List ℕ).length = 0 := rfl
    dsimp only
    omega

theorem rank_onRead {described : Bool} (hx : s.candidates[c]? = some x) (hstage : x.stage = .read described) :
    (s.onRead c described).1.rank < s.rank := by
  have hover := rank_setCandidate .finished hx
  have hadding := rank_setCandidate .adding hx
  have hranks : x.stage.rank = 2 ∧ CandidateStage.finished.rank = 0 ∧ CandidateStage.adding.rank = 1 := by
    rw [hstage]
    exact ⟨rfl, rfl, rfl⟩
  unfold State.onRead
  split
  · split
    · dsimp only
      omega
    · dsimp only
      omega
  · have hrest := rank_pending (s.setCandidate c .finished) (s.pendingCandidates ++ [c])
    have hlength : (s.pendingCandidates ++ [c]).length =
        (s.setCandidate c .finished).pendingCandidates.length + 1 := by
      simp [State.setCandidate]
    dsimp only
    omega

def Action.isHandler : Action → Bool
  | .sdp _ | .candidate | .peerCreated | .cleanup => false
  | _ => true

/-- The handlers alone, without new messages. -/
def handlers : Machine State Action Event := negotiation.guarded fun _ a => a.isHandler

/-- Every step of a handler brings it nearer to its end. -/
theorem handlers_rank (hstep : handlers.step s a = some (t, fs)) : t.rank < s.rank := by
  simp only [handlers, Machine.guarded] at hstep
  split_ifs at hstep with hhandler
  have hsdp : ∀ {k : ℕ} {d : Sdp} {stage : SdpStage}, s.sdps[k]? = some d → stage.rank < d.stage.rank →
      (s.setSdp k stage).rank < s.rank := by
    intro k d stage hk hlt
    have hrank := rank_setSdp stage hk
    omega
  have hcandidate : ∀ {c : ℕ} {x : Candidate} {stage : CandidateStage}, s.candidates[c]? = some x →
      stage.rank < x.stage.rank → (s.setCandidate c stage).rank < s.rank := by
    intro c x stage hx hlt
    have hrank := rank_setCandidate stage hx
    omega
  cases a with
  | sdp | candidate | peerCreated | cleanup => cases hhandler
  | applies k | setRemoteFails k | localSet k ok hasChannel =>
    obtain ⟨d, hk, hrun⟩ := bind_eq_some_iff.mp hstep
    split at hrun
    · rename_i hstage
      cases hrun
      exact hsdp hk (by rw [hstage]; decide)
    · simp at hrun
  | setRemoteDone k =>
    obtain ⟨d, hk, hrun⟩ := bind_eq_some_iff.mp hstep
    split at hrun
    · rename_i hstage
      have hless := rank_loopHead hk (by rw [hstage]; decide)
      rwa [Option.some.inj hrun] at hless
    · simp at hrun
  | drained k ok =>
    obtain ⟨d, hk, hrun⟩ := bind_eq_some_iff.mp hstep
    split at hrun
    · rename_i c hstage
      cases hrun
      exact rank_loopHead hk (by rw [hstage]; exact Nat.le_refl 3)
    · simp at hrun
  | answerCreated k ok =>
    obtain ⟨d, hk, hrun⟩ := bind_eq_some_iff.mp hstep
    split at hrun
    · rename_i hstage
      cases hrun
      refine hsdp hk ?_
      rw [hstage]
      split_ifs <;> decide
    · simp at hrun
  | reads c =>
    obtain ⟨x, hx, hrun⟩ := bind_eq_some_iff.mp hstep
    split at hrun
    · rename_i hstage
      cases hrun
      exact hcandidate hx (by rw [hstage]; exact Nat.lt_succ_self 2)
    · simp at hrun
  | readFails c | added c ok =>
    obtain ⟨x, hx, hrun⟩ := bind_eq_some_iff.mp hstep
    split at hrun
    · rename_i hstage
      cases hrun
      exact hcandidate hx (by rw [hstage]; decide)
    · simp at hrun
  | goesOn c =>
    obtain ⟨x, hx, hrun⟩ := bind_eq_some_iff.mp hstep
    split at hrun
    · rename_i described hstage
      have hless := rank_onRead hx hstage
      rwa [Option.some.inj hrun] at hless
    · simp at hrun

theorem idle_of_stuck (hstuck : handlers.Stuck s) : s.Idle := by
  have hnone : ∀ a : Action, a.isHandler = true → negotiation.step s a = none := by
    intro a ha
    have hno := hstuck a
    simp only [handlers, Machine.guarded] at hno
    rwa [if_pos ha] at hno
  constructor
  · intro k d hk
    cases hstage : d.stage with
    | settingRemote applied =>
      cases applied with
      | false => exact absurd (hnone (.applies k) rfl) (by simp [negotiation, hk, hstage])
      | true => exact absurd (hnone (.setRemoteDone k) rfl) (by simp [negotiation, hk, hstage])
    | draining => exact absurd (hnone (.drained k true) rfl) (by simp [negotiation, hk, hstage])
    | creatingAnswer => exact absurd (hnone (.answerCreated k true) rfl) (by simp [negotiation, hk, hstage])
    | settingLocal => exact absurd (hnone (.localSet k true true) rfl) (by simp [negotiation, hk, hstage])
    | finished => rfl
  · intro c x hx
    cases hstage : x.stage with
    | asking => exact absurd (hnone (.reads c) rfl) (by simp [negotiation, hx, hstage])
    | read => exact absurd (hnone (.goesOn c) rfl) (by simp [negotiation, hx, hstage])
    | adding => exact absurd (hnone (.added c true) rfl) (by simp [negotiation, hx, hstage])
    | finished => rfl

theorem handlers_finish (s : State) (es : List Event) : handlers.Leads (fun t _ => t.Idle) s es := by
  refine Machine.Leads.of_rank (fun n s _ => s.rank = n) ?_ (fun _ s _ _ hstuck => idle_of_stuck hstuck) s.rank s es rfl
  rintro n s es a t fs rfl hstep
  exact ⟨t.rank, handlers_rank hstep, rfl⟩

/-- In every orderly run the negotiation is complete whenever all handlers have finished on a living screen;
and when no more messages come, they finish. -/
theorem offers_negotiated (h : negotiation.Reach Orderly .start s es) (hlive : s.isCleanedUp = false) :
    (s.Idle → Negotiated s es) ∧ handlers.Leads (fun t _ => t.Idle) s es := by
  refine ⟨fun hidle => ?_, handlers_finish s es⟩
  have hkept := h.invariant (fun s es => s.isCleanedUp = false → Kept s es) (fun _ => kept_start) ?_ hlive
  · exact hkept.negotiated hidle
  · intro s es a t fs hinv horderly hstep hlive'
    have hlive : s.isCleanedUp = false := by
      by_contra hcleaned
      exact absurd (cleaned_step hstep (by simpa using hcleaned)) (by simp [hlive'])
    exact kept_step (hinv hlive) hlive horderly hstep hlive'

/-- A candidate comes before its offer, and its handler queues it while the offer is being set. -/
theorem candidateFirst_negotiated :
    ∃ s es, s.sdps = [⟨true, .finished⟩] ∧ s.candidates = [⟨0, .finished⟩] ∧ Negotiated s es := by
  have h₁ : negotiation.Reach Orderly .start { peerConnection := true } [] :=
    .step (a := .peerCreated) .start (.inr trivial) rfl
  have h₂ := h₁.step (a := Action.candidate) (Or.inr trivial) rfl
  have h₃ := h₂.step (a := Action.sdp true) (Or.inr rfl) rfl
  have h₄ := h₃.step (a := Action.reads 0) (Or.inr trivial) rfl
  have h₅ := h₄.step (a := Action.goesOn 0) (Or.inr (by
    intro x hx
    cases hx
    exact ⟨fun _ => .inr ⟨0, _, rfl, rfl⟩, nofun⟩)) rfl
  have h₆ := h₅.step (a := Action.applies 0) (Or.inr trivial) rfl
  have h₇ := h₆.step (a := Action.setRemoteDone 0) (Or.inr (by
    intro c hc x d hx hd
    cases hc
    cases hx
    cases hd
    decide)) rfl
  have h₈ := h₇.step (a := Action.drained 0 true) (Or.inr ⟨rfl, nofun⟩) rfl
  have h₉ := h₈.step (a := Action.answerCreated 0 true) (Or.inr rfl) rfl
  have h := h₉.step (a := Action.localSet 0 true true) (Or.inr ⟨rfl, rfl⟩) rfl
  refine ⟨_, _, rfl, rfl, (offers_negotiated h rfl).1 ⟨fun k d hk => ?_, fun c x hx => ?_⟩⟩
  · cases k with
    | zero => exact Option.some.inj hk ▸ rfl
    | succ k =>
      change [(⟨true, .finished⟩ : Sdp)][k + 1]? = some d at hk
      simp at hk
  · cases c with
    | zero => exact Option.some.inj hx ▸ rfl
    | succ c =>
      change [(⟨0, .finished⟩ : Candidate)][c + 1]? = some x at hx
      simp at hx

/-- An offer comes before there is a peer connection. -/
theorem offerTooEarly_lost : ¬∀ s es, negotiation.Reach (fun _ _ _ => True) .start s es →
    s.isCleanedUp = false → s.Idle → Negotiated s es := by
  intro h
  have hreach : negotiation.Reach (fun _ _ _ => True) .start (State.start.onSdp true) [] :=
    .step (a := .sdp true) .start trivial rfl
  have hidle : (State.start.onSdp true).Idle := by
    refine ⟨fun k d hk => ?_, nofun⟩
    rcases of_getElem?_snoc hk with hold | ⟨-, rfl⟩
    · simp [State.start] at hold
    · rfl
  rcases (h _ _ hreach rfl hidle).offers 0 _ rfl rfl with ⟨hno, -⟩ | ⟨j, d, hlt, hj, -⟩
  · simp at hno
  · rcases of_getElem?_snoc hj with hold | ⟨hzero, -⟩
    · simp [State.start] at hold
    · rw [hzero] at hlt
      simp [State.start] at hlt

end LigamentApps.SupportOperator.Negotiation
