import LigamentApps.CallSession.CandidateFlow

/-!
# Two managers and the candidates between them

Two managers whose signals go from one to the other over a channel that keeps their order. The candidates that
one side gathers are those that the other side has added to its connection and those that are under way: in a
batch, in the channel, in the queue of the other side or in a loop that hands them on. -/

namespace LigamentApps.CallSession

open List Option

/-! ## The candidates of one side -/

/-- The candidates that an event sends to someone. -/
def CandidateEvent.sentTo (other : String) : CandidateEvent → List Candidate
  | .sends target candidates => if target = other then candidates else []
  | _ => []

/-- The connection and the candidate that is added to it. -/
def CandidateEvent.addition : CandidateEvent → Option (ℕ × Candidate)
  | .adds peer candidate => some (peer, candidate)
  | _ => none

namespace CallSessionManager

variable {s t : CallSessionManager} {a : CallAction} {events : List CandidateEvent} {other : String}
  {added : List (ℕ × Candidate)}

/-- The candidates of the other side that are not added yet. -/
def held (s : CallSessionManager) : List Candidate := s.remoteIceCandidateQueue ++ s.flushes.flatMap Flush.left

/-- After some additions: candidates are added to the connection of the call only, once its description is
set, and then none waits for it. -/
structure Described (s : CallSessionManager) (added : List (ℕ × Candidate)) : Prop where
  flushing : ∀ f ∈ s.flushes, s.peerConnection = some f.peer ∧ s.remoteDescriptionSet = true
  described : s.remoteDescriptionSet = true → s.peerConnection ≠ none ∧ s.remoteIceCandidateQueue = []
  peered : s.peered = true → s.peerConnection ≠ none
  added : ∀ e ∈ added, s.peerConnection = some e.1 ∧ s.remoteDescriptionSet = true

/-- In the call with someone: what the manager sends goes to the other side. -/
structure Attuned (s : CallSessionManager) (other : String) (added : List (ℕ × Candidate)) : Prop
    extends s.Described added where
  addressed : s.callbacks ≠ [] ∨ 0 < s.setups ∨ s.pendingOfferSdp ≠ "" ∨ s.outgoingCandidateBatch ≠ [] →
    s.targetUserId = other

/-- An offer that starts the call anew meets no candidate and no description. -/
def OfferedInTime (s : CallSessionManager) (a : CallAction) : Prop :=
  s.TakesOffer a → s.remoteIceCandidateQueue = [] ∧ s.remoteDescriptionSet = false

/-- A connection is made when there is none. -/
def ConnectsOnce (s : CallSessionManager) (a : CallAction) : Prop :=
  s.makes a = some .connect → s.peerConnection = none

/-- The step does not end a call. -/
def Lasts (s t : CallSessionManager) : Prop := t.NoCall → s.NoCall

theorem NoCall.queue (h : s.NoCall) : s.remoteIceCandidateQueue = [] :=
  congrArg CallFields.remoteIceCandidateQueue h

theorem NoCall.batch (h : s.NoCall) : s.outgoingCandidateBatch = [] := congrArg CallFields.outgoingCandidateBatch h

theorem NoCall.connection (h : s.NoCall) : s.peerConnection = none := congrArg CallFields.peerConnection h

theorem NoCall.described (h : s.NoCall) : s.remoteDescriptionSet = false :=
  congrArg CallFields.remoteDescriptionSet h

theorem NoCall.target (h : s.NoCall) : s.targetUserId = "" := congrArg CallFields.targetUserId h

theorem NoCall.pendingOffer (h : s.NoCall) : s.pendingOfferSdp = "" := congrArg CallFields.pendingOfferSdp h

theorem NoCall.core_eq (h : s.NoCall) : s.core = ⟨[], [], none, false, "", ""⟩ := by
  unfold core
  rw [h.queue, h.batch, h.connection, h.described, h.target, h.pendingOffer]

theorem takesOffer_received (h : s.TakesOffer a) : a.received = [] ∧ s.gathered a = none := by
  cases a with
  | signal _ _ signal =>
    cases signal with
    | offer => exact ⟨rfl, rfl⟩
    | _ => exact h.elim
  | _ => exact h.elim

theorem step_sends_on (h : CandidateStep s a t events) (hs : s.Attuned other added) (hother : other ≠ "")
    (hlasts : Lasts s t) :
    events.flatMap (·.sentTo other) ++ t.outgoingCandidateBatch =
      s.outgoingCandidateBatch ++ (s.gathered a).toList := by
  have hkept : ∀ {core : CandidateCore}, t.core = core → core.batch = s.outgoingCandidateBatch →
      s.gathered a = none → t.outgoingCandidateBatch = s.outgoingCandidateBatch ++ (s.gathered a).toList := by
    intro core hcore hbatch hgathered
    rw [hgathered, toList_none, append_nil, ← hbatch, ← hcore]
    rfl
  cases h with
  | keeps hgathered _ hcore | queues hgathered _ hcore
  | describes hgathered _ _ hcore
  | starts _ _ _ hgathered _ _ _ hcore
  | goesOn _ _ _ _ hgathered _ _ _ hcore
  | stops _ _ hgathered _ _ _ hcore | connects _ hgathered _ hcore
  | accepts hgathered _ _ _ hcore | offers hgathered _ hcore =>
    exact hkept hcore rfl hgathered
  | clears hnone hgathered =>
    have hbefore := hlasts hnone
    rw [hgathered, hbefore.batch, hnone.batch]
    rfl
  | gathers _ hgathered _ _ hcore =>
    rw [hgathered]
    exact congrArg CandidateCore.batch hcore
  | drops hcalled htarget =>
    have haddressed := hs.addressed (.inl hcalled)
    exact absurd (haddressed.symm.trans htarget) hother
  | sends hgathered _ hcore =>
    have hempty : t.outgoingCandidateBatch = [] := congrArg CandidateCore.batch hcore
    rw [hgathered, hempty]
    by_cases hbatch : s.outgoingCandidateBatch = []
    · rw [hbatch]
      simp [CandidateEvent.sentTo]
    · have haddressed := hs.addressed (.inr (.inr (.inr hbatch)))
      simp [CandidateEvent.sentTo, haddressed]
  | adds peer hgathered _ _ hcore =>
    have hnothing : (a.received.map (CandidateEvent.adds peer)).flatMap (·.sentTo other) = [] := by
      rw [flatMap_map]
      exact flatMap_eq_nil_iff.mpr fun _ _ => rfl
    rw [hnothing]
    exact hkept hcore rfl hgathered
  | names _ hoffer _ hcore | takes _ _ hoffer _ hcore =>
    exact hkept hcore rfl (takesOffer_received hoffer).2

theorem held_perm_of (hqueue : t.remoteIceCandidateQueue = s.remoteIceCandidateQueue)
    (hflushes : t.flushes.Perm s.flushes) :
    t.held.Perm s.held := by
  unfold held
  rw [hqueue]
  exact (hflushes.flatMap_right _).append_left _

theorem step_hands_on (h : CandidateStep s a t events) (hs : s.Attuned other added) (hlasts : Lasts s t)
    (htime : s.OfferedInTime a) :
    ((events.filterMap CandidateEvent.addition).map Prod.snd ++ t.held).Perm (a.received ++ s.held) := by
  have hkept : ∀ {core : CandidateCore}, t.core = core → core.queue = s.remoteIceCandidateQueue →
      a.received = [] → t.flushes.Perm s.flushes → t.held.Perm (a.received ++ s.held) := by
    intro core hcore hqueue hreceived hflushes
    rw [hreceived]
    exact held_perm_of ((congrArg CandidateCore.queue hcore).trans hqueue) hflushes
  cases h with
  | keeps _ hreceived hcore hon | gathers _ _ hreceived _ hcore hon
  | drops _ _ hreceived hcore hon | sends _ hreceived hcore hon
  | describes _ hreceived _ hcore hon => exact hkept hcore rfl hreceived hon.flushes
  | clears hnone _ hreceived hon =>
    have hbefore := hlasts hnone
    rw [hreceived]
    exact held_perm_of (hnone.queue.trans hbefore.queue.symm) hon.flushes
  | queues _ _ hcore hon =>
    have hqueue : t.remoteIceCandidateQueue = s.remoteIceCandidateQueue ++ a.received :=
      congrArg CandidateCore.queue hcore
    have hmoved : (s.remoteIceCandidateQueue ++ a.received ++ t.flushes.flatMap Flush.left).Perm
        (a.received ++ s.remoteIceCandidateQueue ++ s.flushes.flatMap Flush.left) :=
      perm_append_comm.append (hon.flushes.flatMap_right _)
    unfold held
    rw [hqueue, ← append_assoc a.received]
    exact hmoved
  | adds peer _ _ _ hcore hon =>
    have hadded : ((a.received.map (CandidateEvent.adds peer)).filterMap CandidateEvent.addition).map Prod.snd =
        a.received := by
      rw [filterMap_map, map_filterMap]
      exact filterMap_some
    rw [hadded]
    exact (held_perm_of (congrArg CandidateCore.queue hcore) hon.flushes).append_left _
  | starts _ candidate _ _ hreceived _ hqueue hcore hflushes =>
    have hempty : t.remoteIceCandidateQueue = [] := congrArg CandidateCore.queue hcore
    unfold held
    rw [hreceived, hempty, hqueue]
    exact (hflushes.flatMap_right _).cons candidate
  | goesOn _ candidate left rest _ hreceived hflush _ hcore hflushes =>
    have hqueue : t.remoteIceCandidateQueue = s.remoteIceCandidateQueue := congrArg CandidateCore.queue hcore
    have hafter : (t.flushes.flatMap Flush.left).Perm (left ++ rest.flatMap Flush.left) :=
      hflushes.flatMap_right _
    have hbefore : (s.flushes.flatMap Flush.left).Perm (candidate :: (left ++ rest.flatMap Flush.left)) :=
      hflush.flatMap_right _
    unfold held
    rw [hreceived, hqueue]
    calc candidate :: (s.remoteIceCandidateQueue ++ t.flushes.flatMap Flush.left)
      _ ~ candidate :: (s.remoteIceCandidateQueue ++ (left ++ rest.flatMap Flush.left)) :=
        (hafter.append_left _).cons _
      _ ~ s.remoteIceCandidateQueue ++ candidate :: (left ++ rest.flatMap Flush.left) := perm_middle.symm
      _ ~ s.remoteIceCandidateQueue ++ s.flushes.flatMap Flush.left := hbefore.symm.append_left _
  | stops flush rest _ hreceived hflush hend hcore hflushes =>
    have hqueue : t.remoteIceCandidateQueue = s.remoteIceCandidateQueue := congrArg CandidateCore.queue hcore
    have hmember : flush ∈ s.flushes := hflush.mem_iff.mpr (mem_cons_self ..)
    -- The flush is one for the current connection, so that it has nothing left.
    have hnothing : flush.left = [] := hend.resolve_right fun hne => hne (hs.flushing flush hmember).1
    have hbefore : (s.flushes.flatMap Flush.left).Perm (flush.left ++ rest.flatMap Flush.left) :=
      hflush.flatMap_right _
    rw [hnothing, nil_append] at hbefore
    unfold held
    rw [hreceived, hqueue]
    exact ((hflushes.flatMap_right _).trans hbefore.symm).append_left _
  | connects _ _ hreceived hcore hflushes | accepts _ hreceived _ _ hcore hflushes
  | offers _ hreceived hcore hflushes => exact hkept hcore rfl hreceived hflushes
  | names _ hoffer _ hcore hon => exact hkept hcore rfl (takesOffer_received hoffer).1 hon.flushes
  | takes _ _ hoffer _ hcore hflushes =>
    exact hkept hcore (htime hoffer).1.symm (takesOffer_received hoffer).1 hflushes

theorem step_addressed (h : CandidateStep s a t events) (hs : s.Attuned other added) (hlasts : Lasts s t)
    (hsender : ∀ sender, a.sender = some sender → sender = other) :
    t.callbacks ≠ [] ∨ 0 < t.setups ∨ t.pendingOfferSdp ≠ "" ∨ t.outgoingCandidateBatch ≠ [] →
      t.targetUserId = other := by
  have hkept : ∀ {core : CandidateCore}, t.core = core → core.target = s.targetUserId →
      core.pendingOffer = s.pendingOfferSdp → (core.batch ≠ [] → s.targetUserId = other) → t.setups ≤ s.setups →
        (t.callbacks ≠ [] → s.callbacks ≠ [] ∨ 0 < s.setups) → t.callbacks ≠ [] ∨ 0 < t.setups ∨
          t.pendingOfferSdp ≠ "" ∨ t.outgoingCandidateBatch ≠ [] → t.targetUserId = other := by
    intro core hcore htarget hpending hbatch hsetups hcalled
    have hsame : t.targetUserId = s.targetUserId := (congrArg CandidateCore.target hcore).trans htarget
    have hoffer : t.pendingOfferSdp = s.pendingOfferSdp :=
      (congrArg CandidateCore.pendingOffer hcore).trans hpending
    have hleft : t.outgoingCandidateBatch = core.batch := congrArg CandidateCore.batch hcore
    rw [hsame, hoffer, hleft]
    rintro (hne | hsetup | hne | hne)
    · obtain hbefore | hbefore := hcalled hne
      · exact hs.addressed (.inl hbefore)
      · exact hs.addressed (.inr (.inl hbefore))
    · exact hs.addressed (.inr (.inl (Nat.lt_of_lt_of_le hsetup hsetups)))
    · exact hs.addressed (.inr (.inr (.inl hne)))
    · exact hbatch hne
  have hbatch : s.outgoingCandidateBatch ≠ [] → s.targetUserId = other := fun hne =>
    hs.addressed (.inr (.inr (.inr hne)))
  cases h with
  | keeps _ _ hcore hon | drops _ _ _ hcore hon
  | queues _ _ hcore hon | adds _ _ _ _ hcore hon
  | describes _ _ _ hcore hon => exact hkept hcore rfl rfl hbatch hon.setups hon.called
  | clears hnone _ _ hon =>
    have hcore := hnone.core_eq.trans (hlasts hnone).core_eq.symm
    exact hkept hcore rfl rfl hbatch hon.setups hon.called
  | gathers _ hgathered _ _ hcore hon =>
    refine hkept hcore rfl rfl (fun _ => ?_) hon.setups hon.called
    have hcalled : s.callbacks ≠ [] := by
      intro hnil
      unfold gathered at hgathered
      rw [hnil] at hgathered
      split at hgathered
      · simp at hgathered
      · simp at hgathered
    exact hs.addressed (.inl hcalled)
  | sends _ _ hcore hon =>
    exact hkept hcore rfl rfl (fun hne => absurd rfl hne) hon.setups hon.called
  | starts _ _ _ _ _ _ _ hcore _ hsetups _ hcalled
  | goesOn _ _ _ _ _ _ _ _ hcore _ hsetups _ hcalled
  | stops _ _ _ _ _ _ hcore _ hsetups _ hcalled =>
    exact hkept hcore rfl rfl hbatch hsetups fun hne => .inl (hcalled ▸ hne)
  | connects _ _ _ hcore _ hsetups hcalled =>
    exact hkept hcore rfl rfl hbatch hsetups hcalled
  | accepts _ _ hoffer _ hcore =>
    have hsame : t.targetUserId = s.targetUserId := congrArg CandidateCore.target hcore
    have haddressed := hs.addressed (.inr (.inr (.inl hoffer)))
    exact fun _ => hsame.trans haddressed
  | names sender _ hfrom hcore | takes sender _ _ hfrom hcore =>
    have htarget : t.targetUserId = sender := congrArg CandidateCore.target hcore
    exact fun _ => htarget.trans (hsender sender hfrom)
  | offers _ _ hcore _ _ _ hcalled =>
    exact hkept hcore rfl rfl hbatch (by omega) fun hne => .inl (hcalled ▸ hne)

/-- A candidate is added only once the remote description is set. -/
theorem step_described (h : CandidateStep s a t events) (hs : s.Described added) (hlasts : Lasts s t)
    (htime : s.OfferedInTime a) (honce : s.ConnectsOnce a) :
    t.Described (added ++ events.filterMap CandidateEvent.addition) := by
  have hkept : ∀ {core : CandidateCore} (new : List (ℕ × Candidate)), t.core = core →
      core.connection = s.peerConnection → core.described = s.remoteDescriptionSet →
        (s.remoteDescriptionSet = true → core.queue = []) →
          (∀ f ∈ t.flushes, ∃ g ∈ s.flushes, g.peer = f.peer) → (t.peered = true → s.peered = true) →
            (∀ e ∈ new, s.peerConnection = some e.1 ∧ s.remoteDescriptionSet = true) →
              t.Described (added ++ new) := by
    intro core new hcore hconnection hdescribed hqueue hflushes hpeered hnew
    have hpeer : t.peerConnection = s.peerConnection := (congrArg CandidateCore.connection hcore).trans hconnection
    have hset : t.remoteDescriptionSet = s.remoteDescriptionSet :=
      (congrArg CandidateCore.described hcore).trans hdescribed
    have hwaits : t.remoteIceCandidateQueue = core.queue := congrArg CandidateCore.queue hcore
    refine ⟨?_, ?_, ?_, ?_⟩
    · intro f hf
      obtain ⟨g, hg, hsame⟩ := hflushes f hf
      rw [hpeer, hset, ← hsame]
      exact hs.flushing g hg
    · rw [hpeer, hset, hwaits]
      exact fun hdescribed => ⟨(hs.described hdescribed).1, hqueue hdescribed⟩
    · rw [hpeer]
      exact fun hp => hs.peered (hpeered hp)
    · rw [hpeer, hset]
      exact fun e he => (mem_append.mp he).elim (hs.added e) (hnew e)
  have hnone : ∀ e ∈ ([] : List (ℕ × Candidate)), s.peerConnection = some e.1 ∧
    s.remoteDescriptionSet = true := nofun
  have hwaits : s.remoteDescriptionSet = true → s.remoteIceCandidateQueue = [] := fun hset => (hs.described hset).2
  have hsame : t.flushes.Perm s.flushes → ∀ f ∈ t.flushes, ∃ g ∈ s.flushes, g.peer = f.peer := fun hperm f hf =>
    ⟨f, hperm.mem_iff.mp hf, rfl⟩
  -- The description is set with this step.
  have hset : ∀ {queue : List Candidate} (new : List (ℕ × Candidate)),
      t.core = { s.core with queue := queue, described := true } → queue = [] → s.peerConnection ≠ none →
        (∀ f ∈ t.flushes, s.peerConnection = some f.peer) → (∀ e ∈ new, s.peerConnection = some e.1) →
          t.Described (added ++ new) := by
    intro queue new hcore hqueue hne hflushes hnew
    have hpeer : t.peerConnection = s.peerConnection := congrArg CandidateCore.connection hcore
    have hdescribed : t.remoteDescriptionSet = true := congrArg CandidateCore.described hcore
    have hempty : t.remoteIceCandidateQueue = [] := (congrArg CandidateCore.queue hcore).trans hqueue
    refine ⟨?_, ?_, ?_, ?_⟩
    · exact fun f hf => ⟨hpeer.trans (hflushes f hf), hdescribed⟩
    · exact fun _ => ⟨hpeer ▸ hne, hempty⟩
    · exact fun _ => hpeer ▸ hne
    · intro e he
      rw [hpeer]
      exact ⟨(mem_append.mp he).elim (fun hold => (hs.added e hold).1) (hnew e), hdescribed⟩
  cases h with
  | keeps _ _ hcore hon | sends _ _ hcore hon | names _ _ _ hcore hon =>
    exact hkept [] hcore rfl rfl hwaits (hsame hon.flushes) hon.peered hnone
  | clears hends _ _ hon =>
    have hcore := hends.core_eq.trans (hlasts hends).core_eq.symm
    exact hkept [] hcore rfl rfl hwaits (hsame hon.flushes) hon.peered hnone
  | gathers _ _ _ _ hcore hon | drops _ _ _ hcore hon =>
    exact hkept [] hcore rfl rfl hwaits (hsame hon.flushes) hon.peered hnone
  | queues _ hclosed hcore hon =>
    refine hkept [] hcore rfl rfl (fun hset => ?_) (hsame hon.flushes) hon.peered hnone
    obtain hunconnected | hunset := hclosed
    · exact absurd hunconnected (hs.described hset).1
    · cases hset.symm.trans hunset
  | adds _ _ hpeer hdescribed hcore hon =>
    refine hkept _ hcore rfl rfl hwaits (hsame hon.flushes) hon.peered fun e he => ?_
    obtain ⟨event, hevent, haddition⟩ := mem_filterMap.mp he
    obtain ⟨candidate, hcandidate, rfl⟩ := List.mem_map.mp hevent
    cases haddition
    exact ⟨hpeer, hdescribed⟩
  | describes _ _ hready hcore hon =>
    obtain ⟨hne, hqueue⟩ | ⟨hunconnected, hpeered⟩ := hready
    · refine hset [] hcore hqueue hne (fun f hf => ?_) nofun
      exact (hs.flushing f (hon.flushes.mem_iff.mp hf)).1
    · exact absurd hunconnected (hs.peered hpeered)
  | starts peer candidate _ _ _ hpeer _ hcore hflushes =>
    have hne : s.peerConnection ≠ none := by
      rw [hpeer]
      exact some_ne_none peer
    refine hset [(peer, candidate)] hcore rfl hne (fun f hf => ?_) fun e he => ?_
    · obtain rfl | hbefore := mem_cons.mp (hflushes.mem_iff.mp hf)
      · exact hpeer
      · exact (hs.flushing f hbefore).1
    · rw [mem_singleton.mp he]
      exact hpeer
  | goesOn peer candidate left _ _ _ hflush _ hcore hflushes _ hpeered =>
    have hmember : ⟨peer, candidate :: left⟩ ∈ s.flushes := hflush.mem_iff.mpr (mem_cons_self ..)
    refine hkept [(peer, candidate)] hcore rfl rfl hwaits (fun f hf => ?_) hpeered fun e he => ?_
    · obtain rfl | hrest := mem_cons.mp (hflushes.mem_iff.mp hf)
      · exact ⟨_, hmember, rfl⟩
      · exact ⟨f, hflush.mem_iff.mpr (mem_cons_of_mem _ hrest), rfl⟩
    · rw [mem_singleton.mp he]
      exact hs.flushing _ hmember
  | stops _ _ _ _ hflush _ hcore hflushes _ hpeered =>
    refine hkept [] hcore rfl rfl hwaits (fun f hf => ?_) hpeered hnone
    exact ⟨f, hflush.mem_iff.mpr (mem_cons_of_mem _ (hflushes.mem_iff.mp hf)), rfl⟩
  | connects hmakes _ _ hcore hflushes =>
    have hunconnected := honce hmakes
    have hconnection : t.peerConnection = some s.peers := congrArg CandidateCore.connection hcore
    have hdescribed : t.remoteDescriptionSet = s.remoteDescriptionSet := congrArg CandidateCore.described hcore
    -- Without a connection nothing was added, and nothing was to be handed on.
    have hunset : s.remoteDescriptionSet = true → False := fun hset => (hs.described hset).1 hunconnected
    have hne : t.peerConnection ≠ none := by
      rw [hconnection]
      exact some_ne_none _
    refine ⟨?_, ?_, fun _ => hne, ?_⟩
    · exact fun f hf => (hunset (hs.flushing f (hflushes.mem_iff.mp hf)).2).elim
    · exact fun hset => (hunset (hdescribed ▸ hset)).elim
    · intro e he
      obtain hold | hnew := mem_append.mp he
      · exact (hunset (hs.added e hold).2).elim
      · simp at hnew
  | accepts _ _ _ _ hcore hflushes hpeered
  | offers _ _ hcore hflushes _ hpeered =>
    exact hkept [] hcore rfl rfl hwaits (hsame hflushes) hpeered hnone
  | takes _ _ hoffer _ hcore hflushes hpeered =>
    have hunset := (htime hoffer).2
    exact hkept [] hcore rfl hunset.symm (fun _ => rfl) (hsame hflushes) hpeered hnone

/-! ## A step of one side -/

/-- A call is started toward the other side, and only when there is none. -/
def StartsNone (s : CallSessionManager) (other : String) : CallAction → Prop
  | .startCall _ chatTitle target _ =>
    s.status = .idle ∨ s.status = .ended ∨ s.status = .offline →
      s.NoCall ∧ (if target ≠ "" then target else chatTitle) = other
  | _ => True

/-- What a step of one side does to the candidates. -/
structure Moves (s : CallSessionManager) (a : CallAction) (t : CallSessionManager) (other : String)
    (events : List CandidateEvent) : Prop where
  sends_on : events.flatMap (·.sentTo other) ++ t.outgoingCandidateBatch =
    s.outgoingCandidateBatch ++ (s.gathered a).toList
  hands_on : ((events.filterMap CandidateEvent.addition).map Prod.snd ++ t.held).Perm (a.received ++ s.held)

theorem starts_moves {chatId chatTitle target : String} {isVideo : Bool} (hs : s.Attuned other added)
    (hstarts : s.StartsNone other (.startCall chatId chatTitle target isVideo)) :
    let t := s.startCall chatId chatTitle target isVideo
    t.Attuned other added ∧ Moves s (.startCall chatId chatTitle target isVideo) t other [] := by
  unfold startCall
  split
  · rename_i hstatus
    obtain ⟨hnone, htarget⟩ := hstarts hstatus
    have hmoves : ∀ t : CallSessionManager,
        t.waiting = s.waiting ++ [⟨some s.nextCall, .setup (.outgoing isVideo) .permissions⟩] →
          t.core = { s.core with target := other } → t.Attuned other added ∧
            Moves s (.startCall chatId chatTitle target isVideo) t other [] := by
      intro t hwaiting hcore
      obtain ⟨hflushes, hpeered⟩ := begins_setup hwaiting
      have hpeer : t.peerConnection = s.peerConnection := congrArg CandidateCore.connection hcore
      have hset : t.remoteDescriptionSet = s.remoteDescriptionSet := congrArg CandidateCore.described hcore
      have hqueue : t.remoteIceCandidateQueue = s.remoteIceCandidateQueue := congrArg CandidateCore.queue hcore
      have hbatch : t.outgoingCandidateBatch = s.outgoingCandidateBatch := congrArg CandidateCore.batch hcore
      have hnamed : t.targetUserId = other := congrArg CandidateCore.target hcore
      refine ⟨⟨⟨?_, ?_, ?_, ?_⟩, fun _ => hnamed⟩, ?_, ?_⟩
      · rw [hflushes, hpeer, hset]
        exact hs.flushing
      · rw [hpeer, hset, hqueue]
        exact hs.described
      · rw [hpeered, hpeer]
        exact hs.peered
      · rw [hpeer, hset]
        exact hs.added
      · rw [hbatch]
        exact (append_nil _).symm
      · exact held_perm_of hqueue (hflushes ▸ List.Perm.refl _)
    refine hmoves _ rfl ?_
    rw [hnone.core_eq, ← htarget]
    have hbatch := hnone.batch
    have hpeer := hnone.connection
    have hpending := hnone.pendingOffer
    unfold core awaitSetup await arm cancel
    rw [hbatch, hpeer, hpending]
  · exact ⟨hs, (append_nil _).symm, List.Perm.refl _⟩

theorem step_moves {es : List CallEvent} (hs : s.Attuned other added) (hother : other ≠ "")
    (hstep : s.step a = some (t, es)) (hstarts : s.StartsNone other a) (hlasts : Lasts s t)
    (htime : s.OfferedInTime a)
    (honce : s.ConnectsOnce a) (hsender : ∀ sender, a.sender = some sender → sender = other) :
    t.Attuned other (added ++ (candidateEvents es).filterMap CandidateEvent.addition) ∧
      Moves s a t other (candidateEvents es) := by
  by_cases hstart : ∃ chatId chatTitle target isVideo, a = .startCall chatId chatTitle target isVideo
  · obtain ⟨chatId, chatTitle, target, isVideo, rfl⟩ := hstart
    cases hstep
    obtain ⟨hattuned, hmoves⟩ := starts_moves hs hstarts
    exact ⟨(append_nil added).symm ▸ hattuned, hmoves⟩
  · have h := step_candidates hstep fun chatId chatTitle target isVideo ha =>
      hstart ⟨chatId, chatTitle, target, isVideo, ha⟩
    refine ⟨⟨step_described h hs.toDescribed hlasts htime honce, step_addressed h hs hlasts hsender⟩, ?_, ?_⟩
    · exact step_sends_on h hs hother hlasts
    · exact step_hands_on h hs hlasts htime

end CallSessionManager

end LigamentApps.CallSession
