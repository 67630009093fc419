import LigamentApps.Machine.Laws
import Mathlib.Data.List.InsertIdx
import Mathlib.Data.List.Nodup

/-!
# The operator's own candidates in a Link session

`_sendWsSignal` for a candidate, `_flushLinkCandidates` and `_drainLinkCandidates` of
`support_operator_screen.dart`, with the attempts and the ends of the session around them. A loop of
`_drainLinkCandidates` is the request that it waits for; the requests of attempts that are over may complete
at any time.

`candidates_go_out` says in which runs every candidate goes out in order, once, and to its own session. -/

namespace LigamentApps.SupportOperator.Candidates

open List Option

variable {hasApi : Bool} {id i : ℕ}

/-! ## The screen -/

/-- A candidate, by its number among all that the peer connections of the screen have found. -/
structure Candidate where
  number : ℕ
  attempt : ℕ
  deriving DecidableEq

/-- A `sendLinkSessionSignal` that is not completed. -/
structure Post where
  attempt : ℕ
  session : ℕ
  candidate : Candidate

/-- How far the present attempt is. -/
inductive Phase
  /-- None has begun, or it has failed, or is to be started anew. -/
  | idle
  /-- `_startLinkConnection` is under way. -/
  | starting
  /-- The server has granted the session. -/
  | granted
  deriving DecidableEq

structure State where
  isCleanedUp : Bool := false
  sessionTerminatedHandled : Bool := false
  sessionEnding : Bool := false
  linkRestarting : Bool := false
  linkAttemptGeneration : ℕ := 0
  phase : Phase := .idle
  /-- The present attempt has its `_peerConnection`. -/
  peerConnection : Bool := false
  linkSessionId : Option ℕ := none
  /-- `_linkCandidateFlush` is there. -/
  linkCandidateFlush : Bool := false
  linkCandidateRejectedAttempt : Option ℕ := none
  linkQueuedCandidates : List Candidate := []
  posts : List Post := []
  /-- How many candidates there have been. -/
  count : ℕ := 0
  /-- The present attempt has sent a candidate. -/
  posted : Bool := false

/-- How a request ends. -/
inductive Result
  | ok
  /-- With an error; the status is that of an `ApiException`. -/
  | fails (status : Option ℕ)
  deriving DecidableEq

/-- The server does not take anything for the session any more. -/
def Result.isTerminal : Result → Bool
  | .ok => false
  | .fails status => [some 403, some 404, some 409, some 410].contains status

inductive Event
  /-- An attempt sends a candidate to a session. -/
  | posts (attempt : ℕ) (candidate : Candidate) (session : ℕ)
  | completes (attempt : ℕ) (result : Result)
  /-- The session is the attempt's own. -/
  | granted (attempt session : ℕ)
  /-- The session is ended. -/
  | ends
  deriving DecidableEq

namespace State

/-- `explicitSessionId`: the id that the screen was opened with. -/
def start (explicitSessionId : Option ℕ) : State := { linkSessionId := explicitSessionId }

def goesOn (s : State) : Bool := !s.isCleanedUp && !s.sessionTerminatedHandled && !s.sessionEnding

/-- The first candidate of the queue is sent. -/
def post (s : State) (id : ℕ) : State × List Event :=
  match s.linkQueuedCandidates with
  | [] => (s, [])
  | candidate :: rest =>
    ({ s with
        linkQueuedCandidates := rest
        posts := s.posts ++ [⟨s.linkAttemptGeneration, id, candidate⟩]
        posted := true
        linkCandidateFlush := true },
      [.posts s.linkAttemptGeneration candidate id])

/-- `_flushLinkCandidates`; `hasApi`: there is an API client. -/
def flushLinkCandidates (s : State) (hasApi : Bool) : State × List Event :=
  match s.linkSessionId with
  | none => (s, [])
  | some id =>
    if s.linkCandidateFlush || s.linkQueuedCandidates.isEmpty || !hasApi || !s.goesOn then (s, []) else s.post id

def enqueue (s : State) (candidate : Candidate) : State :=
  { s with count := s.count + 1, linkQueuedCandidates := s.linkQueuedCandidates ++ [candidate] }

/-- `onIceCandidate` of the present peer connection, and `_sendWsSignal`. -/
def onIceCandidate (s : State) (hasApi : Bool) : State × List Event :=
  if !s.goesOn || s.linkCandidateRejectedAttempt == some s.linkAttemptGeneration then
    ({ s with count := s.count + 1 }, [])
  else
    (s.enqueue ⟨s.count, s.linkAttemptGeneration⟩).flushLinkCandidates hasApi

/-- The loop of `_drainLinkCandidates` is over. -/
def drainOver (s : State) (attempt : ℕ) : State :=
  if attempt = s.linkAttemptGeneration then { s with linkCandidateFlush := false } else s

/-- The server has refused an attempt for good. -/
def rejected (s : State) (attempt : ℕ) : State :=
  if attempt = s.linkAttemptGeneration then
    { s with linkCandidateRejectedAttempt := some attempt, linkQueuedCandidates := [] }
  else s

/-- A request of `_drainLinkCandidates` completes. -/
def onCompleted (s : State) (post : Post) (result : Result) : State × List Event :=
  if result.isTerminal then
    ((s.rejected post.attempt).drainOver post.attempt, [.completes post.attempt result])
  else if s.goesOn && post.attempt == s.linkAttemptGeneration && s.linkSessionId == some post.session &&
      !s.linkQueuedCandidates.isEmpty then
    let (t, es) := s.post post.session
    (t, .completes post.attempt result :: es)
  else (s.drainOver post.attempt, [.completes post.attempt result])

/-- The beginning of `_restartLinkConnection`. -/
def restartLinkConnection (s : State) : State :=
  if s.linkRestarting || s.isCleanedUp || s.sessionTerminatedHandled then s
  else
    { s with
      linkRestarting := true
      linkAttemptGeneration := s.linkAttemptGeneration + 1
      phase := .idle
      peerConnection := false
      linkSessionId := none
      linkCandidateFlush := false
      linkQueuedCandidates := []
      posted := false }

/-- The beginning of `_startLinkConnection`. -/
def startLinkConnection (s : State) : State :=
  { s with
    linkAttemptGeneration := s.linkAttemptGeneration + 1
    phase := if s.isCleanedUp || s.sessionTerminatedHandled then .idle else .starting
    posted := false }

/-- The server has granted a session to the present attempt. -/
def onGranted (s : State) (id : ℕ) (hasApi : Bool) : State × List Event :=
  let granted := { s with phase := .granted, linkSessionId := some id }
  let (t, es) := granted.flushLinkCandidates hasApi
  (t, .granted s.linkAttemptGeneration id :: es)

/-- `_startLinkConnection` fails before the server has granted a session. -/
def onStartFailed (s : State) : State :=
  { s with phase := .idle, peerConnection := false, linkSessionId := none, linkQueuedCandidates := [] }

def cleanupResources (s : State) : State :=
  if s.isCleanedUp then s
  else
    { s with
      isCleanedUp := true
      linkAttemptGeneration := s.linkAttemptGeneration + 1
      phase := .idle
      peerConnection := false
      linkQueuedCandidates := []
      posted := false }

end State

inductive Action
  /-- The peer connection has found a candidate. -/
  | candidate (hasApi : Bool)
  | completed (post : ℕ) (result : Result)
  | startLinkConnection
  | peerCreated
  | granted (session : ℕ) (hasApi : Bool)
  | startFailed
  | restartLinkConnection
  | restartOver
  /-- `_endSession` begins to end the session. -/
  | endSession
  /-- `_onSessionTerminated`. -/
  | terminated
  | dispose

/-- The screen, its attempts and its requests. -/
def candidates : Machine State Action Event where
  step s
    | .candidate hasApi => if s.peerConnection && !s.isCleanedUp then some (s.onIceCandidate hasApi) else none
    | .completed k result => s.posts[k]?.map fun post => { s with posts := s.posts.eraseIdx k }.onCompleted post result
    | .startLinkConnection => if s.phase = .idle then some (s.startLinkConnection, []) else none
    | .peerCreated =>
      if s.phase = .starting ∧ s.isCleanedUp = false then some ({ s with peerConnection := true }, []) else none
    | .granted id hasApi =>
      if s.phase = .starting ∧ s.isCleanedUp = false then some (s.onGranted id hasApi) else none
    | .startFailed =>
      if s.phase = .starting ∧ s.isCleanedUp = false then some (s.onStartFailed, []) else none
    | .restartLinkConnection => some (s.restartLinkConnection, [])
    | .restartOver => some ({ s with linkRestarting := false }, [])
    | .endSession => some ({ s with sessionEnding := true }, [.ends])
    | .terminated =>
      if s.sessionTerminatedHandled then none
      else some ({ s with sessionTerminatedHandled := true }.cleanupResources, [.ends])
    | .dispose => some (s.cleanupResources, [.ends])

/-! ## The laws and the condition -/

variable {s t : State} {a : Action} {as : List Action} {es fs : List Event}

/-- What the server sees of the attempts. -/
structure Ledger where
  /-- The attempt waits for a request. -/
  waits : ℕ → Bool
  /-- The last candidate that the attempt has sent. -/
  last : ℕ → Option ℕ
  /-- The session that the attempt has sent to, or that is its own. -/
  session : ℕ → Option ℕ
  /-- The server has refused the attempt for good. -/
  rejected : ℕ → Bool
  ended : Bool

variable {k : Ledger}

/-- An attempt sends its own candidates, one at a time, in order and each once, to no session but its own, and
none after a terminal rejection or the end. -/
def candidateLaw : Monitor Ledger Event where
  start := ⟨fun _ => false, fun _ => none, fun _ => none, fun _ => false, false⟩
  next
    | k, .posts attempt candidate session =>
      { k with
        waits := Function.update k.waits attempt true
        last := Function.update k.last attempt (some candidate.number)
        session := Function.update k.session attempt (some session) }
    | k, .completes attempt result =>
      { k with
        waits := Function.update k.waits attempt false
        rejected := if result.isTerminal then Function.update k.rejected attempt true else k.rejected }
    | k, .granted attempt session => { k with session := Function.update k.session attempt (some session) }
    | k, .ends => { k with ended := true }
  Ok
    | k, .posts attempt candidate session =>
      candidate.attempt = attempt ∧ k.waits attempt = false ∧
        (∀ last, k.last attempt = some last → last < candidate.number) ∧
        (∀ own, k.session attempt = some own → session = own) ∧ k.rejected attempt = false ∧ k.ended = false
    | k, .granted attempt session => ∀ own, k.session attempt = some own → session = own
    | _, .completes .. | _, .ends => True

/-- While the session goes on, candidates do not stay in the queue without a request under way. -/
def State.Flows (s : State) : Prop :=
  s.goesOn = true → s.linkSessionId ≠ none → s.linkQueuedCandidates ≠ [] →
    ∃ post ∈ s.posts, post.attempt = s.linkAttemptGeneration

def StaysFlowing (s : State) (_ : List Event) (a : Action) : Prop := ∀ t fs,
    candidates.step s a = some (t, fs) → t.Flows

/-- A request of the present attempt fails, and not for good. -/
def FailsForNow (s : State) : Action → Option Post
  | .completed k (.fails status) => s.posts[k]?.filter fun post =>
    !(Result.fails status).isTerminal && post.attempt == s.linkAttemptGeneration && s.goesOn
  | _ => none

/-- A candidate whose request has failed is still in the queue, or sent again. -/
def Retries (s : State) (_ : List Event) (a : Action) : Prop :=
  ∀ t fs post, candidates.step s a = some (t, fs) → FailsForNow s a = some post →
    post.candidate ∈ t.linkQueuedCandidates ∨ .posts post.attempt post.candidate post.session ∈ fs

/-- What keeps the candidates in order: no request of the present attempt fails for now, the session that is
granted is the one that the attempt has used before if it has used any, there is an API client, and an attempt
starts only when no request of the one before holds the lock. -/
def Steady (s : State) (_ : List Event) (a : Action) : Prop :=
  FailsForNow s a = none ∧
    match a with
    | .candidate hasApi => s.linkSessionId ≠ none → hasApi = true
    | .granted id hasApi => hasApi = true ∧ (s.posted = true → s.linkSessionId = some id)
    | .startLinkConnection => s.linkCandidateFlush = false
    | _ => True

instance : Decidable (Steady s es a) :=
  match a with
  | .candidate hasApi => inferInstanceAs (Decidable (FailsForNow s (.candidate hasApi) = none ∧ (_ → _)))
  | .granted id hasApi => inferInstanceAs (Decidable (FailsForNow s (.granted id hasApi) = none ∧ _ ∧ (_ → _)))
  | .startLinkConnection => inferInstanceAs (Decidable (FailsForNow s .startLinkConnection = none ∧ _ = _))
  | .completed i result => inferInstanceAs (Decidable (FailsForNow s (.completed i result) = none ∧ True))
  | .peerCreated | .startFailed | .restartLinkConnection | .restartOver | .endSession | .terminated | .dispose =>
    inferInstanceAs (Decidable (_ = none ∧ True))

/-- The requests under way, at most one of an attempt. -/
structure Requests (posts : List Post) (attempt : ℕ) (waits : ℕ → Bool) : Prop where
  waits : ∀ attempt, waits attempt = true ↔ attempt ∈ posts.map (·.attempt)
  single : (posts.map (·.attempt)).Nodup
  old : ∀ post ∈ posts, post.attempt ≤ attempt

/-- The state and the ledger, but for the lock. -/
structure Base (s : State) (k : Ledger) : Prop where
  handled : s.sessionTerminatedHandled = true → s.isCleanedUp = true
  requests : Requests s.posts s.linkAttemptGeneration k.waits
  queue : ∀ c ∈ s.linkQueuedCandidates, c.attempt = s.linkAttemptGeneration ∧ c.number < s.count
  sorted : s.linkQueuedCandidates.Pairwise fun c c' => c.number < c'.number
  last : ∀ last, k.last s.linkAttemptGeneration = some last →
    last < s.count ∧ ∀ c ∈ s.linkQueuedCandidates, last < c.number
  future : ∀ attempt > s.linkAttemptGeneration,
    k.last attempt = none ∧ k.session attempt = none ∧ k.rejected attempt = false
  session : ∀ id, k.session s.linkAttemptGeneration = some id →
    (s.posted = true ∨ s.phase = .granted) ∧ (s.linkSessionId = some id ∨ s.linkSessionId = none ∧ s.phase = .idle)
  own : ∀ post ∈ s.posts, post.attempt = s.linkAttemptGeneration →
    k.session s.linkAttemptGeneration = some post.session
  rejected : k.rejected s.linkAttemptGeneration = true →
    s.linkCandidateRejectedAttempt = some s.linkAttemptGeneration ∧ s.linkQueuedCandidates = []
  idle : s.phase = .idle → s.linkQueuedCandidates = [] ∧ s.peerConnection = false
  ended : k.ended = true → s.goesOn = false

/-- The lock is held while the present attempt has a request under way. -/
def State.Locked (s : State) : Prop :=
  s.isCleanedUp = false → (s.linkCandidateFlush = true ↔ s.linkAttemptGeneration ∈ s.posts.map (·.attempt))

structure Inv (s : State) (k : Ledger) : Prop extends Base s k where
  lock : s.Locked
  flows : s.goesOn = true → s.linkSessionId ≠ none → s.linkQueuedCandidates ≠ [] → s.linkCandidateFlush = true

theorem requests_nil (attempt : ℕ) : Requests [] attempt fun _ => false where
  waits _ := iff_of_false Bool.false_ne_true not_mem_nil
  single := nodup_nil
  old := nofun

theorem inv_start (explicitSessionId : Option ℕ) : Inv (.start explicitSessionId) candidateLaw.start where
  handled := nofun
  requests := requests_nil 0
  queue := nofun
  sorted := List.Pairwise.nil
  last := nofun
  future _ _ := ⟨rfl, rfl, rfl⟩
  session := nofun
  own := nofun
  rejected := nofun
  idle _ := ⟨rfl, rfl⟩
  ended := nofun
  lock _ := iff_of_false Bool.false_ne_true not_mem_nil
  flows _ _ hne := absurd rfl hne

theorem goesOn_iff : s.goesOn = true ↔
    s.isCleanedUp = false ∧ s.sessionTerminatedHandled = false ∧ s.sessionEnding = false := by
  simp [State.goesOn, and_assoc]

theorem Inv.stays (h : Inv s k) : s.Flows := by
  intro hgoes hid hqueue
  have hlocked := (h.lock (goesOn_iff.mp hgoes).1).mp (h.flows hgoes hid hqueue)
  exact List.mem_map.mp hlocked

/-! ## Requests -/

section Requests

variable {posts : List Post} {attempt attempt' i : ℕ} {waits : ℕ → Bool} {post : Post}

theorem mem_eraseIdx_iff {l : List ℕ} (hnodup : l.Nodup) {k b : ℕ} (hb : l[k]? = some b) (a : ℕ) :
    a ∈ l.eraseIdx k ↔ a ≠ b ∧ a ∈ l := by
  rw [mem_eraseIdx_iff_getElem?]
  constructor
  · rintro ⟨i, hne, hi⟩
    refine ⟨?_, mem_of_getElem? hi⟩
    rintro rfl
    have hlt := (List.getElem?_eq_some_iff.mp hi).1
    exact hne ((getElem?_inj hlt hnodup).mp (hi.trans hb.symm))
  · rintro ⟨hne, hmem⟩
    obtain ⟨i, hi⟩ := mem_iff_getElem?.mp hmem
    refine ⟨i, ?_, hi⟩
    rintro rfl
    exact hne (Option.some.inj (hi.symm.trans hb))

theorem Requests.mem_eraseIdx (h : Requests posts attempt waits) (hpost : posts[i]? = some post) (attempt' : ℕ) :
    attempt' ∈ (posts.eraseIdx i).map (·.attempt) ↔ attempt' ≠ post.attempt ∧ attempt' ∈ posts.map (·.attempt) := by
  have hmap : (posts.map (·.attempt))[i]? = some post.attempt := by rw [getElem?_map, hpost, map_some]
  rw [← eraseIdx_map]
  exact mem_eraseIdx_iff h.single hmap attempt'

theorem Requests.send (h : Requests posts attempt waits) (hfree : attempt ∉ posts.map (·.attempt)) (id : ℕ)
    (candidate : Candidate) :
    Requests (posts ++ [⟨attempt, id, candidate⟩]) attempt (Function.update waits attempt true) where
  waits attempt' := by
    rw [map_append, mem_append, map_singleton, mem_singleton]
    by_cases heq : attempt' = attempt
    · rw [heq, Function.update_self]
      exact iff_of_true rfl (.inr rfl)
    · rw [Function.update_of_ne heq, h.waits attempt', or_iff_left heq]
  single := by
    rw [map_append, map_singleton]
    exact h.single.append (nodup_singleton _) (disjoint_singleton.mpr hfree)
  old post hpost := by
    rcases mem_append.mp hpost with hpost | hpost
    · exact h.old post hpost
    · obtain rfl := mem_singleton.mp hpost
      exact Nat.le_refl _

theorem Requests.complete (h : Requests posts attempt waits) (hpost : posts[i]? = some post) :
    Requests (posts.eraseIdx i) attempt (Function.update waits post.attempt false) where
  waits attempt' := by
    rw [h.mem_eraseIdx hpost]
    by_cases heq : attempt' = post.attempt
    · rw [heq, Function.update_self]
      exact iff_of_false Bool.false_ne_true fun hmem => hmem.1 rfl
    · rw [Function.update_of_ne heq, h.waits attempt', and_iff_right heq]
  single := by
    rw [← eraseIdx_map]
    exact h.single.eraseIdx i
  old post' hpost' := h.old post' (mem_of_mem_eraseIdx hpost')

theorem Requests.later (h : Requests posts attempt waits) (hle : attempt ≤ attempt') :
    Requests posts attempt' waits :=
  ⟨h.waits, h.single, fun post hpost => Nat.le_trans (h.old post hpost) hle⟩

end Requests

/-! ## What the operations keep -/

theorem next_posts (k : Ledger) (attempt : ℕ) (candidate : Candidate) (session : ℕ) :
    candidateLaw.next k (.posts attempt candidate session) =
      { k with
        waits := Function.update k.waits attempt true
        last := Function.update k.last attempt (some candidate.number)
        session := Function.update k.session attempt (some session) } := rfl

theorem Base.passes {candidate : Candidate} {rest : List Candidate} (h : Base s k)
    (hgoes : s.goesOn = true) (hid : s.linkSessionId = some id)
    (hfree : s.linkAttemptGeneration ∉ s.posts.map (·.attempt))
    (hcons : s.linkQueuedCandidates = candidate :: rest) :
    candidateLaw.Ok k (.posts s.linkAttemptGeneration candidate id) := by
  have hfirst : candidate ∈ s.linkQueuedCandidates := hcons ▸ mem_cons_self
  have hqueue : s.linkQueuedCandidates ≠ [] := ne_nil_of_mem hfirst
  refine ⟨(h.queue candidate hfirst).1, ?_, fun last hlast => (h.last last hlast).2 candidate hfirst,
    fun own hown => ?_,
    ?_, ?_⟩
  · rw [Bool.eq_false_iff]
    exact fun hwaits => hfree ((h.requests.waits _).mp hwaits)
  · rcases (h.session own hown).2 with hsame | ⟨hnone, -⟩
    · exact Option.some.inj (hid.symm.trans hsame)
    · exact absurd (hid.symm.trans hnone) (some_ne_none id)
  · rw [Bool.eq_false_iff]
    exact fun hrejected => hqueue (h.rejected hrejected).2
  · rw [Bool.eq_false_iff]
    exact fun hended => Bool.false_ne_true ((h.ended hended).symm.trans hgoes)

theorem Base.sends {candidate : Candidate} {rest : List Candidate} (h : Base s k)
    (hid : s.linkSessionId = some id) (hfree : s.linkAttemptGeneration ∉ s.posts.map (·.attempt))
    (hcons : s.linkQueuedCandidates = candidate :: rest) :
    Inv
      { s with
        linkQueuedCandidates := rest
        posts := s.posts ++ [⟨s.linkAttemptGeneration, id, candidate⟩]
        posted := true
        linkCandidateFlush := true }
      (candidateLaw.next k (.posts s.linkAttemptGeneration candidate id)) where
  handled := h.handled
  requests := h.requests.send hfree id candidate
  queue c hc := h.queue c (hcons ▸ mem_cons_of_mem _ hc)
  sorted := (hcons ▸ h.sorted).of_cons
  last last hlast := by
    simp only [next_posts, Function.update_self, Option.some.injEq] at hlast
    rw [← hlast]
    exact ⟨(h.queue candidate (hcons ▸ mem_cons_self)).2, (pairwise_cons.mp (hcons ▸ h.sorted)).1⟩
  future attempt hlt := by
    simp only [next_posts, Function.update_of_ne (Nat.ne_of_gt hlt)]
    exact h.future attempt hlt
  session own hown := by
    simp only [next_posts, Function.update_self] at hown
    exact ⟨.inl rfl, .inl (hid.trans hown)⟩
  own post hpost hattempt := by
    simp only [next_posts, Function.update_self]
    rcases mem_append.mp hpost with hpost | hpost
    · exact absurd (List.mem_map.mpr ⟨post, hpost, hattempt⟩) hfree
    · obtain rfl := mem_singleton.mp hpost
      rfl
  rejected hrejected := absurd (hcons.symm.trans (h.rejected hrejected).2) (cons_ne_nil _ _)
  idle hidle := absurd (hcons.symm.trans (h.idle hidle).1) (cons_ne_nil _ _)
  ended := h.ended
  lock _ := by
    refine iff_of_true rfl ?_
    rw [map_append, map_singleton]
    exact mem_append_right _ mem_cons_self
  flows _ _ _ := rfl

theorem post_ok (h : Base s k) (hgoes : s.goesOn = true) (hid : s.linkSessionId = some id)
    (hfree : s.linkAttemptGeneration ∉ s.posts.map (·.attempt)) (hqueue : s.linkQueuedCandidates ≠ []) :
    candidateLaw.AcceptsFrom k (s.post id).2 ∧ Inv (s.post id).1 ((s.post id).2.foldl candidateLaw.next k) := by
  obtain ⟨candidate, rest, hcons⟩ := exists_cons_of_ne_nil hqueue
  unfold State.post
  rw [hcons]
  exact ⟨⟨h.passes hgoes hid hfree hcons, trivial⟩, h.sends hid hfree hcons⟩

theorem flush_ok (h : Base s k) (hlock : s.Locked) (hapi : s.linkSessionId ≠ none → hasApi = true) :
    candidateLaw.AcceptsFrom k (s.flushLinkCandidates hasApi).2 ∧
      Inv (s.flushLinkCandidates hasApi).1 ((s.flushLinkCandidates hasApi).2.foldl candidateLaw.next k) := by
  unfold State.flushLinkCandidates
  cases hid : s.linkSessionId with
  | none => exact ⟨trivial, h, hlock, fun _ hne => absurd hid hne⟩
  | some id =>
    have hhas : hasApi = true := hapi (hid ▸ some_ne_none id)
    dsimp only
    split
    · rename_i hstop
      refine ⟨trivial, h, hlock, fun hgoes _ hqueue => ?_⟩
      simpa [hhas, hgoes, hqueue] using hstop
    · rename_i hgo
      simp only [Bool.or_eq_true, not_or, Bool.not_eq_true, isEmpty_eq_false_iff, Bool.not_eq_false'] at hgo
      obtain ⟨⟨⟨hflush, hqueue⟩, -⟩, hgoes⟩ := hgo
      have hlocked := hlock (goesOn_iff.mp hgoes).1
      refine post_ok h hgoes hid (fun hmem => ?_) hqueue
      exact Bool.false_ne_true (hflush.symm.trans (hlocked.mpr hmem))

theorem Base.counted (h : Base s k) : Base { s with count := s.count + 1 } k :=
  { h with
    queue c hc := ⟨(h.queue c hc).1, Nat.lt_succ_of_lt (h.queue c hc).2⟩
    last last hlast := ⟨Nat.lt_succ_of_lt (h.last last hlast).1, (h.last last hlast).2⟩ }

theorem Base.enqueue (h : Base s k) (hpeer : s.peerConnection = true)
    (hfree : s.linkCandidateRejectedAttempt ≠ some s.linkAttemptGeneration) :
    Base (s.enqueue ⟨s.count, s.linkAttemptGeneration⟩) k where
  handled := h.handled
  requests := h.requests
  queue c hc := by
    rcases mem_append.mp hc with hc | hc
    · exact h.counted.queue c hc
    · obtain rfl := mem_singleton.mp hc
      exact ⟨rfl, Nat.lt_succ_self _⟩
  sorted := by
    refine pairwise_append.mpr ⟨h.sorted, pairwise_singleton .., fun c hc c' hc' => ?_⟩
    obtain rfl := mem_singleton.mp hc'
    exact (h.queue c hc).2
  last last hlast := by
    refine ⟨(h.counted.last last hlast).1, fun c hc => ?_⟩
    rcases mem_append.mp hc with hc | hc
    · exact (h.last last hlast).2 c hc
    · obtain rfl := mem_singleton.mp hc
      exact (h.last last hlast).1
  future := h.future
  session := h.session
  own := h.own
  rejected hrejected := absurd (h.rejected hrejected).1 hfree
  idle hidle := absurd ((h.idle hidle).2.symm.trans hpeer) Bool.false_ne_true
  ended := h.ended

theorem onIceCandidate_ok (h : Inv s k) (hpeer : s.peerConnection = true)
    (hapi : s.linkSessionId ≠ none → hasApi = true) :
    candidateLaw.AcceptsFrom k (s.onIceCandidate hasApi).2 ∧
      Inv (s.onIceCandidate hasApi).1 ((s.onIceCandidate hasApi).2.foldl candidateLaw.next k) := by
  unfold State.onIceCandidate
  split
  · exact ⟨trivial, h.counted, h.lock, h.flows⟩
  · rename_i hfree
    simp only [Bool.or_eq_true, not_or, beq_iff_eq] at hfree
    exact flush_ok (h.enqueue hpeer hfree.2) h.lock hapi

theorem next_completes (k : Ledger) (attempt : ℕ)
      (result : Result) : candidateLaw.next k (.completes attempt result) = { k with
        waits := Function.update k.waits attempt false
        rejected := if result.isTerminal then Function.update k.rejected attempt true else k.rejected } := rfl

theorem Base.completes {post : Post} {result : Result} (h : Base s k) (hpost : s.posts[i]? = some post)
    (hresult : result.isTerminal = true → post.attempt ≠ s.linkAttemptGeneration) :
    Base { s with posts := s.posts.eraseIdx i } (candidateLaw.next k (.completes post.attempt result)) where
  handled := h.handled
  requests := h.requests.complete hpost
  queue := h.queue
  sorted := h.sorted
  last := h.last
  future attempt hlt := by
    obtain ⟨hlast, hsession, hrejected⟩ := h.future attempt hlt
    have hne : attempt ≠ post.attempt :=
      Nat.ne_of_gt (Nat.lt_of_le_of_lt (h.requests.old post (mem_of_getElem? hpost)) hlt)
    refine ⟨hlast, hsession, ?_⟩
    rw [next_completes]
    split
    · exact (Function.update_of_ne hne ..).trans hrejected
    · exact hrejected
  session := h.session
  own post' hpost' := h.own post' (mem_of_mem_eraseIdx hpost')
  rejected hrejected := by
    refine h.rejected ?_
    rw [next_completes] at hrejected
    split at hrejected
    · rename_i hterminal
      exact (Function.update_of_ne (Ne.symm (hresult hterminal)) ..).symm.trans hrejected
    · exact hrejected
  idle := h.idle
  ended := h.ended

theorem Base.refused {post : Post} {result : Result} (h : Base s k) (hpost : s.posts[i]? = some post)
    (hcurrent : post.attempt = s.linkAttemptGeneration) :
    Base
      { s with
        posts := s.posts.eraseIdx i
        linkCandidateRejectedAttempt := some s.linkAttemptGeneration
        linkQueuedCandidates := [] }
      (candidateLaw.next k (.completes post.attempt result)) where
  handled := h.handled
  requests := h.requests.complete hpost
  queue := nofun
  sorted := List.Pairwise.nil
  last last hlast := ⟨(h.last last hlast).1, nofun⟩
  future attempt hlt := by
    obtain ⟨hlast, hsession, hrejected⟩ := h.future attempt hlt
    refine ⟨hlast, hsession, ?_⟩
    rw [next_completes]
    split
    · exact (Function.update_of_ne (hcurrent ▸ Nat.ne_of_gt hlt) ..).trans hrejected
    · exact hrejected
  session := h.session
  own post' hpost' := h.own post' (mem_of_mem_eraseIdx hpost')
  rejected _ := ⟨rfl, rfl⟩
  idle hidle := ⟨rfl, (h.idle hidle).2⟩
  ended := h.ended

theorem Base.drained (h : Base s k) (hfree : s.linkAttemptGeneration ∉ s.posts.map (·.attempt))
    (hrest : s.goesOn = true → s.linkSessionId ≠ none → s.linkQueuedCandidates = []) :
    Inv { s with linkCandidateFlush := false } k where
  toBase := ⟨h.handled, h.requests, h.queue, h.sorted, h.last, h.future, h.session, h.own, h.rejected,
    h.idle, h.ended⟩
  lock _ := iff_of_false Bool.false_ne_true hfree
  flows hgoes hid hqueue := absurd (hrest hgoes hid) hqueue

theorem onCompleted_old {post : Post} (result : Result) (h : Inv s k) (hpost : s.posts[i]? = some post)
    (hold : post.attempt ≠ s.linkAttemptGeneration) :
    { s with posts := s.posts.eraseIdx i }.onCompleted post result =
        ({ s with posts := s.posts.eraseIdx i }, [.completes post.attempt result]) ∧
      Inv { s with posts := s.posts.eraseIdx i } (candidateLaw.next k (.completes post.attempt result)) := by
  constructor
  · unfold State.onCompleted State.rejected State.drainOver
    simp [hold]
  · refine ⟨h.completes hpost fun _ => hold, fun hclean => ?_, h.flows⟩
    rw [h.lock hclean, h.requests.mem_eraseIdx hpost, and_iff_right hold.symm]

theorem onCompleted_current {post : Post} (result : Result) (h : Inv s k)
    (hpost : s.posts[i]? = some post) (hcurrent : post.attempt = s.linkAttemptGeneration) :
    candidateLaw.AcceptsFrom k ({ s with posts := s.posts.eraseIdx i }.onCompleted post result).2 ∧
      Inv ({ s with posts := s.posts.eraseIdx i }.onCompleted post result).1
        (({ s with posts := s.posts.eraseIdx i }.onCompleted post result).2.foldl candidateLaw.next k) := by
  have hfree : s.linkAttemptGeneration ∉ (s.posts.eraseIdx i).map (·.attempt) := by
    rw [h.requests.mem_eraseIdx hpost, ← hcurrent]
    exact fun hmem => hmem.1 rfl
  unfold State.onCompleted State.rejected State.drainOver
  simp only [hcurrent, if_true]
  split
  · refine ⟨⟨trivial, trivial⟩, ?_⟩
    exact (hcurrent ▸ h.refused hpost hcurrent).drained hfree fun _ _ => rfl
  · rename_i hresult
    have hbase := h.completes hpost fun hterminal => absurd hterminal hresult
    rw [hcurrent] at hbase
    split
    · rename_i hgo
      simp only [Bool.and_eq_true, beq_iff_eq, Bool.not_eq_true', isEmpty_eq_false_iff] at hgo
      obtain ⟨⟨⟨hgoes, -⟩, hid⟩, hqueue⟩ := hgo
      obtain ⟨hok, hinv⟩ := post_ok hbase hgoes hid hfree hqueue
      exact ⟨⟨trivial, hok⟩, hinv⟩
    · rename_i hstop
      refine ⟨⟨trivial, trivial⟩, hbase.drained hfree fun hgoes hid => ?_⟩
      -- The session of the request is still the one of the screen, so only an empty queue has ended the loop.
      have hown := h.own post (mem_of_getElem? hpost) hcurrent
      have hsame : s.linkSessionId = some post.session := by
        rcases (h.session _ hown).2 with hsame | ⟨hnone, -⟩
        · exact hsame
        · exact absurd hnone hid
      by_contra hqueue
      refine hstop ?_
      simp only [Bool.and_eq_true, beq_iff_eq, Bool.not_eq_true', isEmpty_eq_false_iff]
      exact ⟨⟨⟨hgoes, trivial⟩, hsame⟩, hqueue⟩

/-- A new attempt begins with an empty queue and no last candidate. -/
theorem Base.next (h : Base s k) (hgeneration : t.linkAttemptGeneration = s.linkAttemptGeneration + 1)
    (hposts : t.posts = s.posts) (hqueue : t.linkQueuedCandidates = [])
    (hhandled : t.sessionTerminatedHandled = true → t.isCleanedUp = true)
    (hidle : t.phase = .idle → t.peerConnection = false)
    (hended : k.ended = true → t.goesOn = false) : Base t k := by
  obtain ⟨hlast, hsession, hrejected⟩ := h.future t.linkAttemptGeneration
    (by rw [hgeneration]; exact Nat.lt_succ_self _)
  exact {
    handled := hhandled
    requests := by
      rw [hposts]
      exact h.requests.later (by rw [hgeneration]; exact Nat.le_succ _)
    queue := fun c hc => absurd (hqueue ▸ hc) not_mem_nil
    sorted := hqueue ▸ List.Pairwise.nil
    last := fun last hlast' => absurd (hlast.symm.trans hlast') (some_ne_none last).symm
    future := fun attempt hlt => h.future attempt (by rw [hgeneration] at hlt; exact Nat.lt_of_succ_lt hlt)
    session := fun id hid => absurd (hsession.symm.trans hid) (some_ne_none id).symm
    own := fun post hpost hattempt => by
      have hle := h.requests.old post (hposts ▸ hpost)
      rw [hattempt, hgeneration] at hle
      exact absurd hle (Nat.not_succ_le_self _)
    rejected := fun hrejected' => absurd (hrejected.symm.trans hrejected') Bool.false_ne_true
    idle := fun hphase => ⟨hqueue, hidle hphase⟩
    ended := hended }

theorem startLinkConnection_inv (h : Inv s k) (hphase : s.phase = .idle)
    (hflush : s.linkCandidateFlush = false) : Inv s.startLinkConnection k := by
  obtain ⟨hqueue, hpeer⟩ := h.idle hphase
  refine ⟨h.next rfl rfl hqueue h.handled (fun _ => hpeer) h.ended, fun _ => ?_, fun _ _ hne => absurd hqueue hne⟩
  refine iff_of_false (fun hlocked => Bool.false_ne_true (hflush.symm.trans hlocked)) fun hmem => ?_
  obtain ⟨post, hpost, hattempt⟩ := List.mem_map.mp hmem
  have hle := h.requests.old post hpost
  rw [hattempt] at hle
  exact Nat.not_succ_le_self _ hle

theorem restartLinkConnection_inv (h : Inv s k) : Inv s.restartLinkConnection k := by
  unfold State.restartLinkConnection
  split
  · exact h
  · refine ⟨h.next rfl rfl rfl h.handled (fun _ => rfl) h.ended, fun _ => ?_, fun _ hne => absurd rfl hne⟩
    refine iff_of_false Bool.false_ne_true fun hmem => ?_
    obtain ⟨post, hpost, hattempt⟩ := List.mem_map.mp hmem
    have hle := h.requests.old post hpost
    rw [hattempt] at hle
    exact Nat.not_succ_le_self _ hle

theorem onStartFailed_inv (h : Inv s k) (hphase : s.phase = .starting) : Inv s.onStartFailed k :=
  { h with
    queue := nofun
    sorted := List.Pairwise.nil
    last last hlast := ⟨(h.last last hlast).1, nofun⟩
    session id hid := by
      rcases (h.session id hid).1 with hposted | hgranted
      · exact ⟨.inl hposted, .inr ⟨rfl, rfl⟩⟩
      · cases hphase.symm.trans hgranted
    rejected hrejected := ⟨(h.rejected hrejected).1, rfl⟩
    idle _ := ⟨rfl, rfl⟩
    flows _ hne := absurd rfl hne }

theorem onGranted_ok (h : Inv s k) (hphase : s.phase = .starting) (hapi : hasApi = true)
    (hsame : s.posted = true → s.linkSessionId = some id) :
    candidateLaw.AcceptsFrom k (s.onGranted id hasApi).2 ∧
      Inv (s.onGranted id hasApi).1 ((s.onGranted id hasApi).2.foldl candidateLaw.next k) := by
  have hid : ∀ own, k.session s.linkAttemptGeneration = some own → id = own := by
    intro own hown
    obtain ⟨hposted | hgranted, hsession⟩ := h.session own hown
    · rcases hsession with hsession | ⟨-, hidle⟩
      · exact Option.some.inj ((hsame hposted).symm.trans hsession)
      · cases hphase.symm.trans hidle
    · cases hphase.symm.trans hgranted
  have hbase : Base { s with phase := .granted, linkSessionId := some id }
      (candidateLaw.next k (.granted s.linkAttemptGeneration id)) := {
    handled := h.handled
    requests := h.requests
    queue := h.queue
    sorted := h.sorted
    last := h.last
    future := fun attempt hlt => by
      obtain ⟨hlast, hsession, hrejected⟩ := h.future attempt hlt
      exact ⟨hlast, (Function.update_of_ne (Nat.ne_of_gt hlt) ..).trans hsession, hrejected⟩
    session := fun own hown => ⟨.inr rfl, .inl ((Function.update_self (β := fun _ => Option ℕ) ..).symm.trans hown)⟩
    own := fun post hpost hattempt => by
      have hown := h.own post hpost hattempt
      rw [← hid _ hown]
      exact Function.update_self ..
    rejected := h.rejected
    idle := nofun
    ended := h.ended }
  obtain ⟨hok, hinv⟩ := flush_ok hbase h.lock fun _ => hapi
  exact ⟨⟨hid, hok⟩, hinv⟩

theorem endSession_inv (h : Inv s k) : Inv { s with sessionEnding := true } (candidateLaw.next k .ends) := by
  have hstop : { s with sessionEnding := true }.goesOn = false := Bool.and_false _
  exact {
    handled := h.handled
    requests := h.requests
    queue := h.queue
    sorted := h.sorted
    last := h.last
    future := h.future
    session := h.session
    own := h.own
    rejected := h.rejected
    idle := h.idle
    ended := fun _ => hstop
    lock := h.lock
    flows := fun hgoes => absurd (hstop.symm.trans hgoes) Bool.false_ne_true }

theorem cleanupResources_inv (h : Inv s k) (handled : Bool) :
    Inv { s with sessionTerminatedHandled := handled }.cleanupResources (candidateLaw.next k .ends) := by
  unfold State.cleanupResources
  split
  · rename_i hclean
    have hstop : { s with sessionTerminatedHandled := handled }.goesOn = false := by
      simp only at hclean
      simp [State.goesOn, hclean]
    exact {
      handled := fun _ => hclean
      requests := h.requests
      queue := h.queue
      sorted := h.sorted
      last := h.last
      future := h.future
      session := h.session
      own := h.own
      rejected := h.rejected
      idle := h.idle
      ended := fun _ => hstop
      lock := h.lock
      flows := fun hgoes => absurd (hstop.symm.trans hgoes) Bool.false_ne_true }
  · have hbase := h.next (t := { s with
      sessionTerminatedHandled := handled
      isCleanedUp := true
      linkAttemptGeneration := s.linkAttemptGeneration + 1
      phase := .idle
      peerConnection := false
      linkQueuedCandidates := []
      posted := false }) rfl rfl rfl (fun _ => rfl) (fun _ => rfl) fun _ => rfl
    exact {
      handled := hbase.handled
      requests := hbase.requests
      queue := hbase.queue
      sorted := hbase.sorted
      last := hbase.last
      future := hbase.future
      session := hbase.session
      own := hbase.own
      rejected := hbase.rejected
      idle := hbase.idle
      ended := fun _ => rfl
      lock := nofun
      flows := nofun }

theorem step_ok (h : Inv s k) (hgood : Steady s es a) (hs : candidates.step s a = some (t, fs)) :
    candidateLaw.AcceptsFrom k fs ∧ Inv t (fs.foldl candidateLaw.next k) := by
  obtain ⟨-, hgood⟩ := hgood
  cases a with
  | candidate hasApi =>
    obtain ⟨hguard, hs⟩ := ite_none_right_eq_some.mp hs
    rw [Bool.and_eq_true] at hguard
    exact rel_of_step (fun t fs => candidateLaw.AcceptsFrom k fs ∧ Inv t (fs.foldl candidateLaw.next k)) hs
      (onIceCandidate_ok h hguard.1 hgood)
  | completed i result =>
    obtain ⟨post, hpost, hs⟩ := map_eq_some_iff.mp hs
    by_cases hcurrent : post.attempt = s.linkAttemptGeneration
    · have hok := onCompleted_current result h hpost hcurrent
      rw [hs] at hok
      exact hok
    · obtain ⟨hsame, hinv⟩ := onCompleted_old result h hpost hcurrent
      obtain ⟨rfl, rfl⟩ := Prod.mk.inj (hsame.symm.trans hs)
      exact ⟨⟨trivial, trivial⟩, hinv⟩
  | startLinkConnection =>
    obtain ⟨hphase, hs⟩ := ite_none_right_eq_some.mp hs
    cases hs
    exact ⟨trivial, startLinkConnection_inv h hphase hgood⟩
  | peerCreated =>
    obtain ⟨⟨hphase, -⟩, hs⟩ := ite_none_right_eq_some.mp hs
    cases hs
    refine ⟨trivial, ⟨h.handled, h.requests, h.queue, h.sorted, h.last, h.future, h.session, h.own,
      h.rejected, ?_, h.ended⟩, h.lock, h.flows⟩
    exact fun hidle => absurd (hphase.symm.trans hidle) nofun
  | granted id hasApi =>
    obtain ⟨⟨hphase, -⟩, hs⟩ := ite_none_right_eq_some.mp hs
    exact rel_of_step (fun t fs => candidateLaw.AcceptsFrom k fs ∧ Inv t (fs.foldl candidateLaw.next k)) hs
      (onGranted_ok h hphase hgood.1 hgood.2)
  | startFailed =>
    obtain ⟨⟨hphase, -⟩, hs⟩ := ite_none_right_eq_some.mp hs
    cases hs
    exact ⟨trivial, onStartFailed_inv h hphase⟩
  | restartLinkConnection =>
    cases hs
    exact ⟨trivial, restartLinkConnection_inv h⟩
  | restartOver =>
    cases hs
    exact ⟨trivial, ⟨h.handled, h.requests, h.queue, h.sorted, h.last, h.future, h.session, h.own, h.rejected,
      h.idle, h.ended⟩, h.lock, h.flows⟩
  | endSession =>
    cases hs
    exact ⟨⟨trivial, trivial⟩, endSession_inv h⟩
  | terminated =>
    obtain ⟨-, hs⟩ := ite_none_left_eq_some.mp hs
    cases hs
    exact ⟨⟨trivial, trivial⟩, cleanupResources_inv h true⟩
  | dispose =>
    cases hs
    exact ⟨⟨trivial, trivial⟩, cleanupResources_inv h s.sessionTerminatedHandled⟩

/-- In a run whose steps are all steady every candidate goes out in order, once and to its own session, none
is left in the queue without a request, and none is lost with a request that fails. -/
theorem candidates_go_out {explicitSessionId : Option ℕ} (h : candidates.Path (.start explicitSessionId) as t es)
    (hsteady : candidates.Every Steady (.start explicitSessionId) [] as) :
    candidateLaw.Accepts es ∧ candidates.Every StaysFlowing (.start explicitSessionId) [] as ∧
      candidates.Every Retries (.start explicitSessionId) [] as := by
  have hstart : Inv (.start explicitSessionId) (candidateLaw.after []) := inv_start explicitSessionId
  have hkeep : ∀ s es a t fs, Inv s (candidateLaw.after es) → Steady s es a →
      candidates.step s a = some (t, fs) → Inv t (candidateLaw.after (es ++ fs)) := by
    intro s es a t fs hinv hgood hs
    rw [candidateLaw.after_append]
    exact (step_ok hinv hgood hs).2
  refine ⟨h.accepts_of_every candidateLaw Inv (fun s es a t fs hinv hgood hs => step_ok hinv hgood hs) [] hstart
    hsteady,
    Machine.Every.imp (fun s es => Inv s (candidateLaw.after es)) hkeep (fun s es a hinv hgood t fs hs => ?_) as hstart
      hsteady,
    Machine.Every.imp (fun s es => Inv s (candidateLaw.after es)) hkeep
      (fun s es a hinv hgood t fs post hs hfails => ?_)
      as hstart hsteady⟩
  · exact (step_ok hinv hgood hs).2.stays
  · exact absurd (hgood.1.symm.trans hfails) (some_ne_none post).symm

/-- Three candidates before and after the session is granted; the server takes two, and refuses the third for
good. -/
def refusedAtLast : List Action :=
  [.startLinkConnection, .peerCreated, .candidate true, .candidate true, .granted 7 true, .candidate true,
    .completed 0 .ok, .completed 0 .ok, .completed 0 (.fails (some 409)), .candidate true, .dispose]

theorem refusedAtLast_go_out : ∃ t es, candidates.Path (.start none) refusedAtLast t es ∧
    es = [.granted 1 7, .posts 1 ⟨0, 1⟩ 7, .completes 1 .ok, .posts 1 ⟨1, 1⟩ 7, .completes 1 .ok,
      .posts 1 ⟨2, 1⟩ 7, .completes 1 (.fails (some 409)), .ends] ∧
    candidateLaw.Accepts es ∧ candidates.Every StaysFlowing (.start none) [] refusedAtLast ∧
      candidates.Every Retries (.start none) [] refusedAtLast := by
  have hexec : ∃ t, candidates.exec (fun s es a => decide (Steady s es a)) (.start none) [] refusedAtLast =
      some (t, [.granted 1 7, .posts 1 ⟨0, 1⟩ 7, .completes 1 .ok, .posts 1 ⟨1, 1⟩ 7, .completes 1 .ok,
        .posts 1 ⟨2, 1⟩ 7,
        .completes 1 (.fails (some 409)), .ends]) := ⟨_, rfl⟩
  obtain ⟨t, hexec⟩ := hexec
  obtain ⟨es, hes, hpath⟩ := Machine.path_of_exec refusedAtLast hexec
  have hsteady := Machine.every_of_exec (fun _ _ _ hsteady => of_decide_eq_true hsteady) refusedAtLast hexec
  exact ⟨t, es, hpath, hes.symm, candidates_go_out hpath hsteady⟩

/-- The request for the only candidate fails, as it does when the network is away for a moment. -/
theorem failedOnce_lost : ¬∀ (explicitSessionId : Option ℕ) (as : List Action) (t : State) (es : List Event),
    candidates.Path (.start explicitSessionId) as t es →
      candidateLaw.Accepts es ∧ candidates.Every StaysFlowing (.start explicitSessionId) [] as ∧
        candidates.Every Retries (.start explicitSessionId) [] as := by
  intro h
  have hbefore : candidates.Path (.start none)
    [.startLinkConnection, .peerCreated, .granted 7 true, .candidate true] _ _ :=
    .cons rfl (.cons rfl (.cons rfl (.cons rfl (.nil _))))
  have hpath : candidates.Path (.start none)
      [.startLinkConnection, .peerCreated, .granted 7 true, .candidate true, .completed 0 (.fails none)] _ _ :=
    .cons rfl (.cons rfl (.cons rfl (.cons rfl (.cons rfl (.nil _)))))
  have hevery : candidates.Every Retries (.start none) []
      ([.startLinkConnection, .peerCreated, .granted 7 true,
        .candidate true] ++ .completed 0 (.fails none) :: []) :=
    (h none _ _ _ hpath).2.2
  have hretries := hevery.good hbefore
  rcases hretries _ _ ⟨1, 7, ⟨0, 1⟩⟩ rfl rfl with hqueued | hsent
  · exact absurd hqueued (by decide)
  · exact absurd hsent (by decide)

end LigamentApps.SupportOperator.Candidates
