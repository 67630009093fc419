import LigamentApps.SupportOperator.LinkCandidates
import LigamentApps.Text.Json
import Mathlib.Algebra.Order.Ring.Int

/-!
# The host's signals in a Link session

`_pollLinkSignals`, `_handleLinkSignal` and `_addLinkRemoteCandidate` of `support_operator_screen.dart`, with
the attempts and the ends of the session around them. A signal is told from others by its number at the
server, which the code does not read; a poll is known by its attempt.

`signals_handled` says in which runs every signal of a batch is handled once and in order, and every queued
candidate added after the answer. -/

namespace LigamentApps.SupportOperator.Signals

open List Option

open Candidates (Phase)

variable {attempt : ℕ}

/-! ## Messages -/

variable (data : Json)

/-- `data[name]?.toString()` is this word; no other value than a string has a word as its text. -/
def isWord (name word : String) : Bool := (data.get name).any (·.isStr word)

def mapAt (name : String) : Option Json := (data.get name).filter Json.isObj

/-- `(data[name] ?? payload[name])?.toString()` is this word. -/
def isWordOr (data payload : Json) (name word : String) : Bool :=
  ((data.getPresent name).or (payload.getPresent name)).any (·.isStr word)

def endTypes : List String :=
  ["session_ended", "support_ended", "console_end", "console_error", "session_closed", "session_terminated"]

def isSessionTerminatedMessage : Bool :=
  let payload := ((mapAt data "data").or (mapAt data "signal")).getD (.obj [])
  endTypes.any (isWord data "type") || endTypes.any (isWord payload "type") ||
    ["end", "close"].any (isWordOr data payload "action") ||
    ["ended", "closed"].any (isWordOr data payload "status") ||
    ["session_ended", "session_closed", "ended_by_server", "server_ended"].any (isWordOr data payload "reason")

def linkSignalType (event payload : Json) : Option String :=
  let outer := (event.get "type").bind Json.str?
  let inner := (payload.get "type").bind Json.str?
  if outer = some "signal" ∧ inner.getD "" ≠ "" then inner
  else if outer = some "signal" ∧ (mapAt payload "candidate").isSome then some "candidate"
  else outer.or inner

/-- The payload's text under this name is not empty. -/
def hasText (message : Json) (name : String) : Bool :=
  match message.getPresent name with
  | none => false
  | some (.str s) => s != ""
  | some _ => true

/-- `message['accepted'] == true`. -/
def isAccepted (message : Json) : Bool := (message.get "accepted").any Json.isTrue

def isTerminal (event : Json) : Bool :=
  (mapAt event "payload").any fun message =>
    linkSignalType event message == some "session_terminate" || isSessionTerminatedMessage message ||
      (linkSignalType event message == some "session_answer" && !isWord message "stage" "consent" && !isAccepted
        message)

/-- What the handler of a signal does up to its first await. -/
inductive Handling
  | nothing
  /-- `_onSessionTerminated`. -/
  | terminates
  /-- `_triggerIceRestart`. -/
  | restartsIce
  /-- `setRemoteDescription` is called. -/
  | describes
  /-- `addCandidate` is called. -/
  | adds
  /-- The candidate is queued. -/
  | queues
  /-- An exception leaves the handler. -/
  | throws
  deriving DecidableEq

/-- `_handleDataChannelMessage` for the messages that a signal may carry. -/
def handleDataChannelMessage : Handling :=
  if isSessionTerminatedMessage data then .terminates
  else if isWord data "type" "screen_list" then
    match data.getPresent "screens" with
    | none | some (.arr []) => .nothing
    -- the first screen gives the selection when the message has none
    | some (.arr (first :: _)) => if (data.getPresent "selected_id").isNone && !first.isObj then .throws else .nothing
    | some _ => .throws
  else .nothing

/-- What a handler sees of the peer connection and of the screen. -/
structure View where
  /-- `_pcGraceTimer != null || !_isConnected || _statusKey == 'disconnected'`. -/
  isReconnecting : Bool
  /-- The signaling state is stable. -/
  isStable : Bool

variable {view : View}

/-- `_handleLinkSignal` up to its first await. -/
def handling (hasPeer linkRemoteDescriptionSet : Bool) (pending : ℕ) (view : View) (event : Json) : Handling :=
  match mapAt event "payload" with
  | none => .nothing
  | some message =>
    let type := linkSignalType event message
    if type == some "session_terminate" || isSessionTerminatedMessage message then .terminates
    else if !hasPeer then .nothing
    else if type == some "session_answer" && (!linkRemoteDescriptionSet || view.isReconnecting) then
      if isWord message "stage" "consent" then .nothing
      else if !isAccepted message then .terminates
      else if view.isReconnecting && view.isStable then .restartsIce
      else if hasText message "sdp" then .describes
      else .nothing
    else if type == some "candidate" then
      if (mapAt message "candidate").isNone then .nothing
      else if linkRemoteDescriptionSet then .adds
      else if pending < 256 then .queues
      else .nothing
    else
      let inner := if type == some "input_control" then (mapAt message "data").getD message else message
      if ["screen_list", "screen_switched", "chat_message", "chat_sync"].any (isWord inner "type") then
        handleDataChannelMessage inner
      else .nothing

/-! ## The screen -/

structure Signal where
  number : ℤ
  event : Json

variable {rest : List Signal}

/-- An answer of `getLinkSessionSignals`, without signals where `signals` is no list. -/
structure Answer where
  nextCursor : Option ℤ
  signals : List Signal

/-- What a poll waits for. -/
inductive Stage
  /-- The answer. -/
  | asks
  /-- The end of the handler of a signal; the rest of the batch is still to be handled. -/
  | handled (rest : List Signal)
  /-- `setRemoteDescription`. -/
  | describes (rest : List Signal)
  /-- `addCandidate` for a queued candidate; these are left. -/
  | flushes (left : List ℤ) (rest : List Signal)
  /-- `addCandidate` for the candidate of the signal. -/
  | adds (rest : List Signal)

structure Poll where
  session : ℕ
  stage : Stage

structure State where
  /-- `_isCleanedUp`, as it is also when the session has been terminated. -/
  isCleanedUp : Bool := false
  linkRestarting : Bool := false
  linkAttemptGeneration : ℕ := 0
  phase : Phase := .idle
  /-- The present attempt has its `_peerConnection`. -/
  peerConnection : Bool := false
  linkSessionId : Option ℕ := none
  linkCursor : ℤ := 0
  linkPollingAttempt : Option ℕ := none
  linkRemoteDescriptionSet : Bool := false
  linkPendingRemoteCandidates : List ℤ := []
  /-- The polls under way, by their attempts. -/
  polls : ℕ → Option Poll := fun _ => none

inductive Event
  /-- The batch of an answer for the current session, and its terminal signal. -/
  | delivers (numbers : List ℤ) (terminal : Option ℤ)
  /-- `_handleLinkSignal` is called. -/
  | handles (number : ℤ)
  | queues (number : ℤ)
  /-- The answer is set. -/
  | applies
  /-- `addCandidate` is called. -/
  | adds (number : ℤ)
  /-- A poll of the current session is over. -/
  | pollOver
  /-- The attempt gets another session. -/
  | moves
  /-- An attempt has failed, or another begins. -/
  | begins
  /-- The connection is started anew. -/
  | restarts
  | ends

namespace State

/-- `explicitSessionId`: the id that the screen was opened with. -/
def start (explicitSessionId : Option ℕ) : State := { linkSessionId := explicitSessionId }

/-- The attempt and the session of a poll are the present ones, and the screen goes on. -/
def isCurrent (s : State) (attempt session : ℕ) : Bool :=
  !s.isCleanedUp && attempt == s.linkAttemptGeneration && s.linkSessionId == some session

/-- The peer connection of an attempt is the present one, and the screen goes on. -/
def hasPeer (s : State) (attempt : ℕ) : Bool :=
  !s.isCleanedUp && attempt == s.linkAttemptGeneration && s.peerConnection

def waits (s : State) (attempt session : ℕ) (stage : Stage) : State :=
  { s with polls := Function.update s.polls attempt (some ⟨session, stage⟩) }

/-- `_cleanupResources`, which `_onSessionTerminated` calls. -/
def cleanupResources (s : State) : State :=
  if s.isCleanedUp then s
  else
    { s with
      isCleanedUp := true
      linkAttemptGeneration := s.linkAttemptGeneration + 1
      phase := .idle
      peerConnection := false }

/-- The end of `_pollLinkSignals`. -/
def pollOver (s : State) (attempt session : ℕ) : State × List Event :=
  ({ s with
      polls := Function.update s.polls attempt none
      linkPollingAttempt := if s.linkPollingAttempt = some attempt then none else s.linkPollingAttempt },
    if s.isCurrent attempt session then [.pollOver] else [])

/-- `_handleLinkSignal` up to its first await. -/
def handleLinkSignal (s : State) (view : View) (attempt session : ℕ) (signal : Signal) (rest : List Signal) :
    State × List Event :=
  let handles := Event.handles signal.number
  match handling s.peerConnection s.linkRemoteDescriptionSet s.linkPendingRemoteCandidates.length view signal.event with
  | .nothing | .restartsIce => (s.waits attempt session (.handled rest), [handles])
  | .terminates => (s.cleanupResources.waits attempt session (.handled rest), [handles, .ends])
  | .describes => (s.waits attempt session (.describes rest), [handles])
  | .adds => (s.waits attempt session (.adds rest), [handles, .adds signal.number])
  | .queues =>
    ({ s with linkPendingRemoteCandidates := s.linkPendingRemoteCandidates ++ [signal.number] }.waits attempt session
      (.handled rest), [handles, .queues signal.number])
  | .throws =>
    let (t, es) := s.pollOver attempt session
    (t, handles :: es)

/-- The loop over the signals of a batch, up to the next await. -/
def handleBatch (s : State) (view : View) (attempt session : ℕ) : List Signal → State × List Event
  | [] => s.pollOver attempt session
  | signal :: rest =>
    if s.isCurrent attempt session then s.handleLinkSignal view attempt session signal rest
    else s.pollOver attempt session

end State

variable (answer : Answer)

def Answer.maps : List Signal := answer.signals.filter (·.event.isObj)

def Answer.terminal : Option Signal := answer.maps.find? fun signal => isTerminal signal.event

/-- The signals of the answer that are handled. -/
def Answer.batch : List Signal :=
  match answer.terminal with
  | some signal => [signal]
  | none => answer.maps

namespace State

/-- The answer of the server comes. -/
def onAnswer (s : State) (view : View) (attempt session : ℕ) (answer : Answer) : State × List Event :=
  if s.isCurrent attempt session then
    let (t, es) := { s with linkCursor := max s.linkCursor (answer.nextCursor.getD s.linkCursor) }.handleBatch
      view attempt
      session answer.batch
    (t, .delivers (answer.maps.map (·.number)) (answer.terminal.map (·.number)) :: es)
  else s.pollOver attempt session

/-- The loop over the queued candidates, up to the next await. -/
def flush (s : State) (attempt session : ℕ) (left : List ℤ) (rest : List Signal) : State × List Event :=
  if s.hasPeer attempt then
    match left with
    | [] => ({ s with linkPendingRemoteCandidates := [] }.waits attempt session (.handled rest), [])
    | number :: left => (s.waits attempt session (.flushes left rest), [.adds number])
  else (s.waits attempt session (.handled rest), [])

/-- `setRemoteDescription` completes. -/
def onDescribed (s : State) (ok : Bool) (attempt session : ℕ) (rest : List Signal) : State × List Event :=
  if ok && s.hasPeer attempt then
    let (t, es) := { s with linkRemoteDescriptionSet := true }.flush attempt session s.linkPendingRemoteCandidates rest
    (t, .applies :: es)
  else (s.waits attempt session (.handled rest), [])

/-- The beginning of `_restartLinkConnection`. -/
def restartLinkConnection (s : State) : State × List Event :=
  if s.linkRestarting || s.isCleanedUp then (s, [])
  else
    ({ s with
        linkRestarting := true
        linkAttemptGeneration := s.linkAttemptGeneration + 1
        phase := .idle
        peerConnection := false
        linkSessionId := none
        linkCursor := 0
        linkRemoteDescriptionSet := false
        linkPendingRemoteCandidates := [] },
      [.restarts])

/-- The beginning of `_startLinkConnection`. -/
def startLinkConnection (s : State) : State × List Event :=
  ({ s with
      linkAttemptGeneration := s.linkAttemptGeneration + 1
      phase := if s.isCleanedUp then .idle else .starting },
    [.begins])

/-- The server has granted a session to the present attempt. -/
def onGranted (s : State) (id : ℕ) : State × List Event :=
  ({ s with phase := .granted, linkSessionId := some id }, if s.linkSessionId = some id then [] else [.moves])

/-- `_startLinkConnection` fails before the server has granted a session. -/
def onStartFailed (s : State) : State × List Event :=
  ({ s with phase := .idle, peerConnection := false, linkSessionId := none, linkRemoteDescriptionSet := false },
    [.begins])

/-- `_pollLinkSignals` up to its first await. -/
def pollLinkSignals (s : State) : State :=
  if s.linkPollingAttempt = some s.linkAttemptGeneration then s
  else
    match s.linkSessionId with
    | none => s
    | some id =>
      { s with linkPollingAttempt := some s.linkAttemptGeneration }.waits s.linkAttemptGeneration id .asks

end State

inductive Action
  | poll
  | answered (attempt : ℕ) (answer : Answer) (view : View)
  /-- `getLinkSessionSignals` fails. -/
  | failed (attempt : ℕ)
  /-- The handler of a signal is over. -/
  | resumes (attempt : ℕ) (view : View)
  | described (attempt : ℕ) (ok : Bool)
  /-- `addCandidate` completes, in whatever way. -/
  | added (attempt : ℕ)
  /-- `_performLinkIceRestart` has set its offer. -/
  | iceRestart
  | startLinkConnection
  | peerCreated
  | granted (session : ℕ)
  | startFailed
  | restartLinkConnection
  | restartOver
  /-- `_onSessionTerminated` or `dispose`. -/
  | ends

/-- The screen, its attempts and its polls. A poll is begun by the timer of a granted session or by a callback
of the peer connection. -/
def signals : Machine State Action Event where
  step s
    | .poll => if s.peerConnection && !s.isCleanedUp then some (s.pollLinkSignals, []) else none
    | .answered attempt answer view =>
      match s.polls attempt with
      | some ⟨session, .asks⟩ => some (s.onAnswer view attempt session answer)
      | _ => none
    | .failed attempt =>
      match s.polls attempt with
      | some ⟨session, .asks⟩ => some (s.pollOver attempt session)
      | _ => none
    | .resumes attempt view =>
      match s.polls attempt with
      | some ⟨session, .handled rest⟩ => some (s.handleBatch view attempt session rest)
      | _ => none
    | .described attempt ok =>
      match s.polls attempt with
      | some ⟨session, .describes rest⟩ => some (s.onDescribed ok attempt session rest)
      | _ => none
    | .added attempt =>
      match s.polls attempt with
      | some ⟨session, .flushes left rest⟩ => some (s.flush attempt session left rest)
      | some ⟨session, .adds rest⟩ => some (s.waits attempt session (.handled rest), [])
      | _ => none
    | .iceRestart =>
      if s.peerConnection && !s.isCleanedUp then some ({ s with linkRemoteDescriptionSet := false }, []) else none
    | .startLinkConnection => if s.phase = .idle then some s.startLinkConnection else none
    | .peerCreated =>
      if s.phase = .starting ∧ s.isCleanedUp = false then some ({ s with peerConnection := true }, []) else none
    | .granted id => if s.phase = .starting ∧ s.isCleanedUp = false then some (s.onGranted id) else none
    | .startFailed => if s.phase = .starting ∧ s.isCleanedUp = false then some s.onStartFailed else none
    | .restartLinkConnection => some s.restartLinkConnection
    | .restartOver => some ({ s with linkRestarting := false }, [])
    | .ends => some (s.cleanupResources, [.ends])

/-! ## The law and the condition -/

variable {s t : State} {a : Action} {as : List Action} {es fs : List Event}

/-- What is due to the signals that have come since the connection was started anew. -/
structure Ledger where
  /-- The signals of all batches. -/
  delivered : List ℤ
  /-- The signals of the batch that are not handled. -/
  due : List ℤ
  /-- The signal that is being handled, until its candidate is queued or added. -/
  current : Option ℤ
  /-- The candidates that wait for an answer. -/
  queued : List ℤ
  /-- The candidates that are to be added since the answer is set. -/
  owed : List ℤ

variable {k k' : Ledger}

/-- The signals of every batch, or its terminal signal, are handled once and in order before the poll is over,
none comes again, and queued candidates are all added, once and in order, when the answer is set, before
another signal is handled. -/
def signalLaw : Monitor Ledger Event where
  start := ⟨[], [], none, [], []⟩
  next
    | k, .delivers numbers terminal =>
      { k with
        delivered := k.delivered ++ numbers
        due := match terminal with
          | some number => [number]
          | none => numbers }
    | k, .handles number => { k with due := k.due.tail, current := some number }
    | k, .queues number => { k with queued := k.queued ++ [number], current := none }
    | k, .applies => { k with owed := k.queued, queued := [], current := none }
    | k, .adds _ => { k with owed := k.owed.tail, current := none }
    | k, .pollOver => k
    | k, .moves => { k with due := [] }
    | k, .begins => { k with due := [], current := none, queued := [], owed := [] }
    | _, .restarts => ⟨[], [], none, [], []⟩
    | k, .ends => { k with due := [], owed := [] }
  Ok
    | k, .delivers numbers _ => k.due = [] ∧ k.owed = [] ∧ numbers.Nodup ∧ ∀ n ∈ numbers, n ∉ k.delivered
    | k, .handles number => k.due.head? = some number ∧ k.owed = []
    | k, .queues number => k.current = some number
    | k, .applies => k.owed = []
    | k, .adds number => k.owed.head? = some number ∨ k.owed = [] ∧ k.current = some number
    | k, .pollOver => k.due = [] ∧ k.owed = []
    | _, .moves | _, .begins | _, .restarts | _, .ends => True

/-- The signals of an answer are in the order of their numbers, behind the cursor, and the next cursor covers
them. -/
structure Answer.Fits (answer : Answer) (linkCursor : ℤ) : Prop where
  ordered : (answer.maps.map (·.number)).Pairwise (· < ·)
  after : ∀ n ∈ answer.maps.map (·.number), linkCursor < n
  covered : ∀ n ∈ answer.maps.map (·.number), n ≤ answer.nextCursor.getD linkCursor

/-- The handler of the first of these signals throws. -/
def State.throwsAt (s : State) (view : View) : List Signal → Bool
  | [] => false
  | signal :: _ =>
    handling s.peerConnection s.linkRemoteDescriptionSet s.linkPendingRemoteCandidates.length view
      signal.event = .throws

/-- The server keeps to its cursor, no handler throws while other signals of the batch wait, and an attempt
begins without candidates that a failed one has left. -/
def Calm (s : State) (_ : List Event) : Action → Prop
  | .answered attempt answer view => ∀ session, s.isCurrent attempt session = true →
      answer.Fits s.linkCursor ∧ (1 < answer.batch.length → s.throwsAt view answer.batch = false)
  | .resumes attempt view => ∀ session rest, s.polls attempt = some ⟨session, .handled rest⟩ →
      s.isCurrent attempt session = true → 1 < rest.length → s.throwsAt view rest = false
  | .startLinkConnection => s.linkPendingRemoteCandidates = []
  | _ => True

def dueOf (s : State) : Option Poll → List ℤ
  | none | some ⟨_, .asks⟩ => []
  | some ⟨session, .handled rest⟩ | some ⟨session, .describes rest⟩ | some ⟨session, .adds rest⟩
  | some ⟨session, .flushes _ rest⟩ => if s.linkSessionId = some session then rest.map (·.number) else []

/-- The candidates that are still to be added. -/
def owedOf (s : State) : Option Poll → List ℤ
  | some ⟨_, .flushes left _⟩ => if s.peerConnection then left else []
  | _ => []

/-- The candidates that wait for an answer. -/
def queuedOf (s : State) : Option Poll → List ℤ
  | some ⟨_, .flushes ..⟩ => []
  | _ => s.linkPendingRemoteCandidates

/-- The polls, the attempts and the cursor. -/
structure Base (s : State) (delivered : List ℤ) : Prop where
  old : ∀ attempt > s.linkAttemptGeneration, s.polls attempt = none
  lock : s.linkPollingAttempt = some s.linkAttemptGeneration ↔ s.polls s.linkAttemptGeneration ≠ none
  lockOld : ∀ attempt, s.linkPollingAttempt = some attempt → attempt ≤ s.linkAttemptGeneration
  peer : s.polls s.linkAttemptGeneration ≠ none →
    s.peerConnection = true ∨ s.phase = .idle ∧ s.linkSessionId = none
  early : s.phase = .starting → ∀ poll, s.polls s.linkAttemptGeneration = some poll →
    s.linkSessionId = some poll.session
  idle : s.phase = .idle → s.peerConnection = false
  cursor : ∀ n ∈ delivered, n ≤ s.linkCursor

/-- What the ledger says of the present attempt. -/
structure Present (s : State) (k : Ledger) (poll : Option Poll) : Prop where
  due : k.due = dueOf s poll
  owed : k.owed = owedOf s poll
  queued : s.phase ≠ .idle → k.queued = queuedOf s poll

structure Inv (s : State) (k : Ledger) : Prop where
  base : Base s k.delivered
  present : Present s k (s.polls s.linkAttemptGeneration)

theorem inv_start (explicitSessionId : Option ℕ) : Inv (.start explicitSessionId) signalLaw.start where
  base := {
    old := fun _ _ => rfl
    lock := iff_of_false nofun fun hne => hne rfl
    lockOld := nofun
    peer := fun hne => absurd rfl hne
    early := nofun
    idle := fun _ => rfl
    cursor := nofun }
  present := ⟨rfl, rfl, fun _ => rfl⟩

/-! ## What the operations keep -/

theorem isCurrent_iff {session : ℕ} : s.isCurrent attempt session = true ↔
    s.isCleanedUp = false ∧ attempt = s.linkAttemptGeneration ∧ s.linkSessionId = some session := by
  simp [State.isCurrent, and_assoc]

theorem hasPeer_iff : s.hasPeer attempt = true ↔
    s.isCleanedUp = false ∧ attempt = s.linkAttemptGeneration ∧ s.peerConnection = true := by
  simp [State.hasPeer, and_assoc]

section Operations

variable {delivered : List ℤ} {session : ℕ} {stage stage' : Stage}

theorem Base.waits (h : Base s delivered) (hpoll : s.polls s.linkAttemptGeneration = some ⟨session, stage⟩)
    (stage' : Stage) : Base (s.waits s.linkAttemptGeneration session stage') delivered where
  old attempt hlt := (Function.update_of_ne (Nat.ne_of_gt hlt) ..).trans (h.old attempt hlt)
  lock := by
    refine iff_of_true (h.lock.mpr (hpoll ▸ some_ne_none _)) ?_
    simp [State.waits]
  lockOld := h.lockOld
  peer _ := h.peer (hpoll ▸ some_ne_none _)
  early hphase poll hsome := by
    obtain rfl : (⟨session, stage'⟩ : Poll) = poll := by simpa [State.waits] using hsome
    have hearly := h.early hphase _ hpoll
    exact hearly
  idle := h.idle
  cursor := h.cursor

theorem Base.over (h : Base s delivered) (session : ℕ) :
    Base (s.pollOver s.linkAttemptGeneration session).1 delivered where
  old attempt hlt := (Function.update_of_ne (Nat.ne_of_gt hlt) ..).trans (h.old attempt hlt)
  lock := by
    simp only [State.pollOver, Function.update_self, ne_eq, not_true_eq_false, iff_false]
    split <;> simp_all
  lockOld attempt hlock := by
    simp only [State.pollOver] at hlock
    split at hlock
    · cases hlock
    · exact h.lockOld attempt hlock
  peer hne := absurd (Function.update_self ..) hne
  early _ poll hsome := absurd ((Function.update_self ..).symm.trans hsome) (some_ne_none poll).symm
  idle := h.idle
  cursor := h.cursor

theorem waits_polls (s : State) (attempt session : ℕ) (stage : Stage) :
    (s.waits attempt session stage).polls attempt = some ⟨session, stage⟩ := Function.update_self ..

theorem pollOver_ok (session : ℕ) (h : Base s k.delivered) (hdue : k.due = []) (howed : k.owed = [])
    (hqueued : s.phase ≠ .idle → k.queued = s.linkPendingRemoteCandidates) :
    signalLaw.AcceptsFrom k (s.pollOver s.linkAttemptGeneration session).2 ∧
      Inv (s.pollOver s.linkAttemptGeneration session).1
        ((s.pollOver s.linkAttemptGeneration session).2.foldl signalLaw.next k) := by
  have hnone : (s.pollOver s.linkAttemptGeneration session).1.polls s.linkAttemptGeneration = none :=
    Function.update_self ..
  have hinv : Inv (s.pollOver s.linkAttemptGeneration session).1 k := by
    refine ⟨h.over session, ?_⟩
    have hpresent : Present (s.pollOver s.linkAttemptGeneration session).1 k none := ⟨hdue, howed, hqueued⟩
    exact hnone ▸ hpresent
  unfold State.pollOver at hinv ⊢
  dsimp only at hinv ⊢
  split
  · exact ⟨⟨⟨hdue, howed⟩, trivial⟩, hinv⟩
  · exact ⟨trivial, hinv⟩

theorem waits_inv (h : Base s k.delivered) (hpoll : s.polls s.linkAttemptGeneration = some ⟨session, stage⟩)
    (hpresent : Present s k (some ⟨session, stage'⟩)) : Inv (s.waits s.linkAttemptGeneration session stage') k := by
  refine ⟨h.waits hpoll stage', ?_⟩
  have hsame : Present (s.waits s.linkAttemptGeneration session stage') k (some ⟨session, stage'⟩) :=
    ⟨hpresent.due, hpresent.owed, hpresent.queued⟩
  exact (waits_polls s s.linkAttemptGeneration session stage').symm ▸ hsame

theorem handleLinkSignal_ok {signal : Signal} (h : Base s k.delivered)
    (hpoll : s.polls s.linkAttemptGeneration = some ⟨session, stage⟩)
    (hcurrent : s.isCurrent s.linkAttemptGeneration session = true)
    (hdue : k.due = signal.number :: rest.map (·.number)) (howed : k.owed = [])
    (hqueued : s.phase ≠ .idle → k.queued = s.linkPendingRemoteCandidates)
    (hcalm : 1 < (signal :: rest).length → s.throwsAt view (signal :: rest) = false) :
    signalLaw.AcceptsFrom k (s.handleLinkSignal view s.linkAttemptGeneration session signal rest).2 ∧
      ((s.handleLinkSignal view s.linkAttemptGeneration session signal rest).1.isCleanedUp = false →
        Inv (s.handleLinkSignal view s.linkAttemptGeneration session signal rest).1
          ((s.handleLinkSignal view s.linkAttemptGeneration session signal rest).2.foldl signalLaw.next k)) := by
  obtain ⟨-, -, hid⟩ := isCurrent_iff.mp hcurrent
  have hok : signalLaw.Ok k (.handles signal.number) := ⟨by rw [hdue]; rfl, howed⟩
  have hdue' : (signalLaw.next k (.handles signal.number)).due = dueOf s (some ⟨session, .handled rest⟩) := by
    change k.due.tail = if s.linkSessionId = some session then rest.map (·.number) else []
    rw [hdue, if_pos hid, tail_cons]
  have hwaits : Inv (s.waits s.linkAttemptGeneration session (.handled rest))
    (signalLaw.next k (.handles signal.number)) :=
    waits_inv h hpoll ⟨hdue', howed, hqueued⟩
  unfold State.handleLinkSignal
  cases hhandling : handling s.peerConnection s.linkRemoteDescriptionSet s.linkPendingRemoteCandidates.length view
    signal.event with
  | nothing | restartsIce => exact ⟨⟨hok, trivial⟩, fun _ => hwaits⟩
  | terminates =>
    refine ⟨⟨hok, trivial, trivial⟩, fun hclean => ?_⟩
    have hcleaned : s.cleanupResources.isCleanedUp = true := by
      unfold State.cleanupResources
      split
      · assumption
      · rfl
    cases hclean.symm.trans hcleaned
  | describes => exact ⟨⟨hok, trivial⟩, fun _ => waits_inv h hpoll ⟨hdue', howed, hqueued⟩⟩
  | adds =>
    refine ⟨⟨hok, .inr ⟨howed, rfl⟩, trivial⟩, fun _ => waits_inv h hpoll ⟨hdue', ?_, hqueued⟩⟩
    change k.owed.tail = []
    rw [howed, tail_nil]
  | queues =>
    refine ⟨⟨hok, rfl, trivial⟩, fun _ => ?_⟩
    have hbase : Base { s with linkPendingRemoteCandidates := s.linkPendingRemoteCandidates ++ [signal.number] }
      k.delivered :=
      ⟨h.old, h.lock, h.lockOld, h.peer, h.early, h.idle, h.cursor⟩
    refine waits_inv hbase hpoll ⟨hdue', howed, fun hphase => ?_⟩
    exact congrArg (· ++ [signal.number]) (hqueued hphase)
  | throws =>
    -- only the last signal of a batch may throw
    have hlast : rest = [] := by
      by_contra hne
      have hlength : 1 < (signal :: rest).length := Nat.succ_lt_succ (length_pos_iff.mpr hne)
      have hno := hcalm hlength
      simp [State.throwsAt, hhandling] at hno
    have hnone : (signalLaw.next k (.handles signal.number)).due = [] := by
      change k.due.tail = []
      rw [hdue, hlast]
      rfl
    obtain ⟨haccepts, hinv⟩ := pollOver_ok session (k := signalLaw.next k (.handles signal.number)) h hnone
      howed hqueued
    exact ⟨⟨hok, haccepts⟩, fun _ => hinv⟩

theorem handleBatch_ok (view : View) (rest : List Signal) (h : Base s k.delivered)
    (hpoll : s.polls s.linkAttemptGeneration = some ⟨session, stage⟩)
    (hdue : k.due = if s.linkSessionId = some session then rest.map (·.number) else []) (howed : k.owed = [])
    (hqueued : s.phase ≠ .idle → k.queued = s.linkPendingRemoteCandidates) (hclean : s.isCleanedUp = false)
    (hcalm : s.isCurrent s.linkAttemptGeneration session = true → 1 < rest.length → s.throwsAt view rest = false) :
    signalLaw.AcceptsFrom k (s.handleBatch view s.linkAttemptGeneration session rest).2 ∧
      ((s.handleBatch view s.linkAttemptGeneration session rest).1.isCleanedUp = false →
        Inv (s.handleBatch view s.linkAttemptGeneration session rest).1
          ((s.handleBatch view s.linkAttemptGeneration session rest).2.foldl signalLaw.next k)) := by
  cases rest with
  | nil =>
    rw [map_nil, ite_self] at hdue
    obtain ⟨hok, hinv⟩ := pollOver_ok session h hdue howed hqueued
    exact ⟨hok, fun _ => hinv⟩
  | cons signal rest =>
    rw [State.handleBatch]
    split
    · rename_i hcurrent
      rw [if_pos (isCurrent_iff.mp hcurrent).2.2] at hdue
      exact handleLinkSignal_ok h hpoll hcurrent hdue howed hqueued (hcalm hcurrent)
    · rename_i hcurrent
      rw [if_neg fun hid => hcurrent (isCurrent_iff.mpr ⟨hclean, rfl, hid⟩)] at hdue
      obtain ⟨hok, hinv⟩ := pollOver_ok session h hdue howed hqueued
      exact ⟨hok, fun _ => hinv⟩

theorem onAnswer_ok {answer : Answer} (h : Base s k.delivered)
    (hpoll : s.polls s.linkAttemptGeneration = some ⟨session, .asks⟩)
    (hpresent : Present s k (some ⟨session, .asks⟩)) (hclean : s.isCleanedUp = false)
    (hcalm : s.isCurrent s.linkAttemptGeneration session = true →
      answer.Fits s.linkCursor ∧ (1 < answer.batch.length → s.throwsAt view answer.batch = false)) :
    signalLaw.AcceptsFrom k (s.onAnswer view s.linkAttemptGeneration session answer).2 ∧
      ((s.onAnswer view s.linkAttemptGeneration session answer).1.isCleanedUp = false →
        Inv (s.onAnswer view s.linkAttemptGeneration session answer).1
          ((s.onAnswer view s.linkAttemptGeneration session answer).2.foldl signalLaw.next k)) := by
  obtain ⟨hdue, howed, hqueued⟩ := hpresent
  unfold State.onAnswer
  split
  · rename_i hcurrent
    obtain ⟨⟨hordered, hafter, hcovered⟩, hthrows⟩ := hcalm hcurrent
    have hok : signalLaw.Ok k (.delivers (answer.maps.map (·.number)) (answer.terminal.map (·.number))) := by
      refine ⟨hdue, howed, hordered.imp ne_of_lt, fun n hn hdelivered => ?_⟩
      exact absurd (h.cursor n hdelivered) (not_le.mpr (hafter n hn))
    have hbase : Base { s with linkCursor := max s.linkCursor (answer.nextCursor.getD s.linkCursor) }
        (signalLaw.next k
          (.delivers (answer.maps.map (·.number)) (answer.terminal.map (·.number)))).delivered := by
      refine ⟨h.old, h.lock, h.lockOld, h.peer, h.early, h.idle, fun n hn => ?_⟩
      rcases mem_append.mp hn with hn | hn
      · exact (h.cursor n hn).trans (le_max_left ..)
      · exact (hcovered n hn).trans (le_max_right ..)
    have hbatch : (signalLaw.next k (.delivers (answer.maps.map (·.number)) (answer.terminal.map (·.number)))).due =
        answer.batch.map (·.number) := by
      unfold Answer.batch
      cases answer.terminal <;> rfl
    obtain ⟨haccepts, hinv⟩ := handleBatch_ok view answer.batch hbase hpoll
      (hbatch.trans (if_pos (isCurrent_iff.mp hcurrent).2.2).symm) howed hqueued hclean fun _ => hthrows
    exact ⟨⟨hok, haccepts⟩, hinv⟩
  · obtain ⟨hok, hinv⟩ := pollOver_ok session h hdue howed hqueued
    exact ⟨hok, fun _ => hinv⟩

theorem flush_ok {left : List ℤ} (h : Base s k.delivered)
    (hpoll : s.polls s.linkAttemptGeneration = some ⟨session, stage⟩) (hclean : s.isCleanedUp = false)
    (hdue : k.due = if s.linkSessionId = some session then rest.map (·.number) else [])
    (howed : k.owed = if s.peerConnection then left else []) (hqueued : s.phase ≠ .idle → k.queued = []) :
    signalLaw.AcceptsFrom k (s.flush s.linkAttemptGeneration session left rest).2 ∧
      Inv (s.flush s.linkAttemptGeneration session left rest).1
        ((s.flush s.linkAttemptGeneration session left rest).2.foldl signalLaw.next k) := by
  unfold State.flush
  split
  · rename_i hpeer
    rw [if_pos (hasPeer_iff.mp hpeer).2.2] at howed
    cases left with
    | nil =>
      have hbase : Base { s with linkPendingRemoteCandidates := [] } k.delivered :=
        ⟨h.old, h.lock, h.lockOld, h.peer, h.early, h.idle, h.cursor⟩
      exact ⟨trivial, waits_inv hbase hpoll ⟨hdue, howed, hqueued⟩⟩
    | cons _ left =>
      refine ⟨⟨.inl (by rw [howed]; rfl), trivial⟩, waits_inv h hpoll ⟨hdue, ?_, hqueued⟩⟩
      change k.owed.tail = if s.peerConnection then left else []
      rw [howed, if_pos (hasPeer_iff.mp hpeer).2.2, tail_cons]
  · rename_i hpeer
    have hno : s.peerConnection ≠ true := fun hyes => hpeer (hasPeer_iff.mpr ⟨hclean, rfl, hyes⟩)
    rw [if_neg hno] at howed
    refine ⟨trivial, waits_inv h hpoll ⟨hdue, howed, fun hphase => ?_⟩⟩
    -- without its peer connection the attempt has failed
    rcases h.peer (hpoll ▸ some_ne_none _) with hyes | ⟨hidle, -⟩
    · exact absurd hyes hno
    · exact absurd hidle hphase

theorem onDescribed_ok {ok : Bool} (h : Base s k.delivered)
    (hpoll : s.polls s.linkAttemptGeneration = some ⟨session, .describes rest⟩)
    (hpresent : Present s k (some ⟨session, .describes rest⟩)) (hclean : s.isCleanedUp = false) :
    signalLaw.AcceptsFrom k (s.onDescribed ok s.linkAttemptGeneration session rest).2 ∧
      Inv (s.onDescribed ok s.linkAttemptGeneration session rest).1
        ((s.onDescribed ok s.linkAttemptGeneration session rest).2.foldl signalLaw.next k) := by
  obtain ⟨hdue, howed, hqueued⟩ := hpresent
  unfold State.onDescribed
  split
  · rename_i hgo
    rw [Bool.and_eq_true] at hgo
    have hpeer := (hasPeer_iff.mp hgo.2).2.2
    have hphase : s.phase ≠ .idle := fun hidle => Bool.false_ne_true ((h.idle hidle).symm.trans hpeer)
    have hbase : Base { s with linkRemoteDescriptionSet := true } k.delivered :=
      ⟨h.old, h.lock, h.lockOld, h.peer, h.early, h.idle, h.cursor⟩
    obtain ⟨hok, hinv⟩ := flush_ok (s := { s with linkRemoteDescriptionSet := true })
      (k := signalLaw.next k .applies) hbase
      hpoll hclean hdue ((hqueued hphase).trans (if_pos hpeer).symm) fun _ => rfl
    exact ⟨⟨howed, hok⟩, hinv⟩
  · exact ⟨trivial, waits_inv h hpoll ⟨hdue, howed, hqueued⟩⟩

/-! ## Polls of attempts that are over -/

theorem Base.attempt_le {poll : Poll} (h : Base s delivered) (hpoll : s.polls attempt = some poll) :
    attempt ≤ s.linkAttemptGeneration := by
  by_contra hlt
  exact absurd ((h.old attempt (not_le.mp hlt)).symm.trans hpoll) (some_ne_none poll).symm

theorem Inv.old (h : Inv s k) (hlt : attempt < s.linkAttemptGeneration) (poll : Option Poll)
    {lock : Option ℕ}
    (hlock : lock = some s.linkAttemptGeneration ↔ s.linkPollingAttempt = some s.linkAttemptGeneration)
    (hsub : ∀ attempt, lock = some attempt → s.linkPollingAttempt = some attempt) :
    Inv { s with polls := Function.update s.polls attempt poll, linkPollingAttempt := lock } k := by
  have hsame : Function.update s.polls attempt poll s.linkAttemptGeneration = s.polls s.linkAttemptGeneration :=
    Function.update_of_ne (Nat.ne_of_gt hlt) ..
  refine ⟨⟨fun attempt' hgt => ?_, ?_, fun attempt' hold => h.base.lockOld attempt' (hsub attempt' hold), ?_,
    ?_, h.base.idle, h.base.cursor⟩, ?_⟩
  · exact (Function.update_of_ne (Nat.ne_of_gt (hlt.trans hgt)) ..).trans (h.base.old attempt' hgt)
  · refine hlock.trans (h.base.lock.trans ⟨fun hne hnone => hne (hsame.symm.trans hnone), fun hne hnone => ?_⟩)
    exact hne (hsame.trans hnone)
  · exact fun hne => h.base.peer fun hnone => hne (hsame.trans hnone)
  · exact fun hphase poll' hpoll => h.base.early hphase poll' (hsame.symm.trans hpoll)
  · exact ⟨h.present.due.trans (congrArg (dueOf s) hsame.symm),
      h.present.owed.trans (congrArg (owedOf s) hsame.symm),
      fun hphase => (h.present.queued hphase).trans (congrArg (queuedOf s) hsame.symm)⟩

theorem Inv.waits_old (h : Inv s k) (hlt : attempt < s.linkAttemptGeneration) (session : ℕ)
    (stage : Stage) : Inv (s.waits attempt session stage) k :=
  h.old hlt (some ⟨session, stage⟩) Iff.rfl fun _ => id

theorem not_isCurrent (hlt : attempt < s.linkAttemptGeneration) (session : ℕ) :
    ¬s.isCurrent attempt session = true := fun hcurrent => Nat.ne_of_lt hlt (isCurrent_iff.mp hcurrent).2.1

theorem not_hasPeer (hlt : attempt < s.linkAttemptGeneration) : ¬s.hasPeer attempt = true :=
  fun hpeer => Nat.ne_of_lt hlt (hasPeer_iff.mp hpeer).2.1

theorem pollOver_old (h : Inv s k) (hlt : attempt < s.linkAttemptGeneration) (session : ℕ) :
    signalLaw.AcceptsFrom k (s.pollOver attempt session).2 ∧
      Inv (s.pollOver attempt session).1 ((s.pollOver attempt session).2.foldl signalLaw.next k) := by
  unfold State.pollOver
  rw [if_neg (not_isCurrent hlt session)]
  refine ⟨trivial, h.old hlt none ?_ fun attempt' hsome => ?_⟩
  · split
    · rename_i hheld
      rw [hheld, Option.some.injEq]
      exact iff_of_false nofun (Nat.ne_of_lt hlt)
    · exact Iff.rfl
  · split at hsome
    · cases hsome
    · exact hsome

theorem handleBatch_old (hlt : attempt < s.linkAttemptGeneration) :
    s.handleBatch view attempt session rest = s.pollOver attempt session := by
  cases rest with
  | nil => rfl
  | cons => exact if_neg (not_isCurrent hlt session)

/-! ## The steps of the polls -/

def Keeps (k : Ledger) (t : State) (fs : List Event) : Prop :=
  signalLaw.AcceptsFrom k fs ∧ (t.isCleanedUp = false → Inv t (fs.foldl signalLaw.next k))

theorem keeps_of_inv (h : signalLaw.AcceptsFrom k fs ∧ Inv t (fs.foldl signalLaw.next k)) : Keeps k t fs :=
  ⟨h.1, fun _ => h.2⟩

theorem answered_keeps {answer : Answer} (h : Inv s k) (hclean : s.isCleanedUp = false)
    (hcalm : Calm s es (.answered attempt answer view)) (hpoll : s.polls attempt = some ⟨session, .asks⟩) :
    Keeps k (s.onAnswer view attempt session answer).1 (s.onAnswer view attempt session answer).2 := by
  rcases Nat.lt_or_eq_of_le (h.base.attempt_le hpoll) with hlt | rfl
  · unfold State.onAnswer
    rw [if_neg (not_isCurrent hlt session)]
    exact keeps_of_inv (pollOver_old h hlt session)
  · exact onAnswer_ok h.base hpoll (hpoll ▸ h.present) hclean (hcalm session)

theorem failed_keeps (h : Inv s k) (hpoll : s.polls attempt = some ⟨session, .asks⟩) :
    Keeps k (s.pollOver attempt session).1 (s.pollOver attempt session).2 := by
  rcases Nat.lt_or_eq_of_le (h.base.attempt_le hpoll) with hlt | rfl
  · exact keeps_of_inv (pollOver_old h hlt session)
  · obtain ⟨hdue, howed, hqueued⟩ : Present s k (some ⟨session, .asks⟩) := hpoll ▸ h.present
    exact keeps_of_inv (pollOver_ok session h.base hdue howed hqueued)

theorem resumes_keeps (h : Inv s k) (hclean : s.isCleanedUp = false)
    (hcalm : Calm s es (.resumes attempt view)) (hpoll : s.polls attempt = some ⟨session, .handled rest⟩) :
    Keeps k (s.handleBatch view attempt session rest).1 (s.handleBatch view attempt session rest).2 := by
  rcases Nat.lt_or_eq_of_le (h.base.attempt_le hpoll) with hlt | rfl
  · rw [handleBatch_old hlt]
    exact keeps_of_inv (pollOver_old h hlt session)
  · obtain ⟨hdue, howed, hqueued⟩ : Present s k (some ⟨session, .handled rest⟩) := hpoll ▸ h.present
    exact handleBatch_ok view rest h.base hpoll hdue howed hqueued hclean (hcalm session rest hpoll)

theorem described_keeps {ok : Bool} (h : Inv s k) (hclean : s.isCleanedUp = false)
    (hpoll : s.polls attempt = some ⟨session, .describes rest⟩) :
    Keeps k (s.onDescribed ok attempt session rest).1 (s.onDescribed ok attempt session rest).2 := by
  rcases Nat.lt_or_eq_of_le (h.base.attempt_le hpoll) with hlt | rfl
  · unfold State.onDescribed
    rw [Bool.eq_false_iff.mpr (not_hasPeer hlt), Bool.and_false]
    exact keeps_of_inv ⟨trivial, h.waits_old hlt session (.handled rest)⟩
  · exact keeps_of_inv (onDescribed_ok h.base hpoll (hpoll ▸ h.present) hclean)

theorem flushes_keeps {left : List ℤ} (h : Inv s k) (hclean : s.isCleanedUp = false)
    (hpoll : s.polls attempt = some ⟨session, .flushes left rest⟩) :
    Keeps k (s.flush attempt session left rest).1 (s.flush attempt session left rest).2 := by
  rcases Nat.lt_or_eq_of_le (h.base.attempt_le hpoll) with hlt | rfl
  · unfold State.flush
    rw [if_neg (not_hasPeer hlt)]
    exact keeps_of_inv ⟨trivial, h.waits_old hlt session (.handled rest)⟩
  · obtain ⟨hdue, howed, hqueued⟩ : Present s k (some ⟨session, .flushes left rest⟩) := hpoll ▸ h.present
    exact keeps_of_inv (flush_ok h.base hpoll hclean hdue howed hqueued)

theorem adds_keeps (h : Inv s k) (hpoll : s.polls attempt = some ⟨session, .adds rest⟩) :
    Keeps k (s.waits attempt session (.handled rest)) [] := by
  rcases Nat.lt_or_eq_of_le (h.base.attempt_le hpoll) with hlt | rfl
  · exact keeps_of_inv ⟨trivial, h.waits_old hlt session (.handled rest)⟩
  · obtain ⟨hdue, howed, hqueued⟩ : Present s k (some ⟨session, .adds rest⟩) := hpoll ▸ h.present
    exact keeps_of_inv ⟨trivial, waits_inv h.base hpoll ⟨hdue, howed, hqueued⟩⟩

end Operations

/-! ## The steps of the attempts -/

theorem asks_inv {id : ℕ} (h : Inv s k) (hpeer : s.peerConnection = true)
    (hfree : s.linkPollingAttempt ≠ some s.linkAttemptGeneration) (hid : s.linkSessionId = some id) :
    Inv ({ s with linkPollingAttempt := some s.linkAttemptGeneration }.waits s.linkAttemptGeneration id .asks) k := by
  have hnone : s.polls s.linkAttemptGeneration = none := by
    by_contra hbusy
    exact hfree (h.base.lock.mpr hbusy)
  obtain ⟨hdue, howed, hqueued⟩ : Present s k none := hnone ▸ h.present
  have hasks := waits_polls { s with linkPollingAttempt := some s.linkAttemptGeneration } s.linkAttemptGeneration
    id .asks
  refine ⟨⟨fun attempt hlt => ?_, ?_, fun attempt hlock => ?_, fun _ => .inl hpeer, fun _ poll hpoll => ?_,
    h.base.idle, h.base.cursor⟩, ?_⟩
  · exact (Function.update_of_ne (Nat.ne_of_gt hlt) ..).trans (h.base.old attempt hlt)
  · exact iff_of_true rfl fun hno => absurd (hasks.symm.trans hno) (some_ne_none _)
  · exact le_of_eq (Option.some.inj hlock).symm
  · rw [← Option.some.inj (hasks.symm.trans hpoll)]
    exact hid
  · have hpresent : Present
        ({ s with linkPollingAttempt := some s.linkAttemptGeneration }.waits s.linkAttemptGeneration id .asks) k
        (some ⟨id, .asks⟩) := ⟨hdue, howed, hqueued⟩
    exact hasks.symm ▸ hpresent

theorem pollLinkSignals_inv (h : Inv s k) (hpeer : s.peerConnection = true) : Inv s.pollLinkSignals k := by
  unfold State.pollLinkSignals
  split
  · exact h
  · rename_i hfree
    split
    · exact h
    · rename_i id hid
      exact asks_inv h hpeer hfree hid

theorem Inv.next (h : Inv s k) (hgeneration : t.linkAttemptGeneration = s.linkAttemptGeneration + 1)
    (hpolls : t.polls = s.polls) (hlock : t.linkPollingAttempt = s.linkPollingAttempt)
    (hidle : t.phase = .idle → t.peerConnection = false) (hcursor : ∀ n ∈ k'.delivered, n ≤ t.linkCursor)
    (hdue : k'.due = []) (howed : k'.owed = [])
    (hqueued : k'.queued = t.linkPendingRemoteCandidates) : Inv t k' := by
  have hnone : t.polls t.linkAttemptGeneration = none := by
    rw [hpolls, hgeneration]
    exact h.base.old _ (Nat.lt_succ_self _)
  refine ⟨⟨fun attempt hlt => ?_, ?_, fun attempt hheld => ?_, fun hne => absurd hnone hne, fun _ poll hpoll =>
    ?_, hidle,
    hcursor⟩, ?_⟩
  · rw [hpolls]
    exact h.base.old attempt (lt_of_le_of_lt (hgeneration ▸ Nat.le_succ _) hlt)
  · refine iff_of_false (fun hheld => ?_) fun hne => hne hnone
    rw [hlock, hgeneration] at hheld
    exact Nat.not_succ_le_self _ (h.base.lockOld _ hheld)
  · rw [hlock] at hheld
    exact (h.base.lockOld attempt hheld).trans (hgeneration ▸ Nat.le_succ _)
  · exact absurd (hnone.symm.trans hpoll) (some_ne_none poll).symm
  · rw [hnone]
    exact ⟨hdue, howed, fun _ => hqueued⟩

theorem startLinkConnection_keeps (h : Inv s k) (hclean : s.isCleanedUp = false)
    (hempty : s.linkPendingRemoteCandidates = []) : Keeps k s.startLinkConnection.1 s.startLinkConnection.2 := by
  refine ⟨⟨trivial, trivial⟩, fun _ => h.next rfl rfl rfl (fun hidle => ?_) h.base.cursor rfl rfl hempty.symm⟩
  simp [State.startLinkConnection, hclean] at hidle

theorem restartLinkConnection_keeps (h : Inv s k) :
    Keeps k s.restartLinkConnection.1 s.restartLinkConnection.2 := by
  unfold State.restartLinkConnection
  split
  · exact ⟨trivial, fun _ => h⟩
  · exact ⟨⟨trivial, trivial⟩, fun _ => h.next rfl rfl rfl (fun _ => rfl) nofun rfl rfl rfl⟩

theorem onGranted_keeps {id : ℕ} (h : Inv s k) (hphase : s.phase = .starting) :
    Keeps k (s.onGranted id).1 (s.onGranted id).2 := by
  have hstarted : s.phase ≠ .idle := fun hidle => absurd (hphase.symm.trans hidle) nofun
  have hbase : Base { s with phase := .granted, linkSessionId := some id } k.delivered := by
    refine ⟨h.base.old, h.base.lock, h.base.lockOld, fun hbusy => .inl ?_, nofun, nofun, h.base.cursor⟩
    rcases h.base.peer hbusy with hpeer | ⟨hidle, -⟩
    · exact hpeer
    · exact absurd hidle hstarted
  unfold State.onGranted
  split
  · rename_i hsame
    refine ⟨trivial, fun _ => ⟨hbase, ?_, h.present.owed, fun _ => h.present.queued hstarted⟩⟩
    refine h.present.due.trans ?_
    unfold dueOf
    rw [hsame]
  · rename_i hother
    refine ⟨⟨trivial, trivial⟩, fun _ => ⟨hbase, ?_, h.present.owed, fun _ => h.present.queued hstarted⟩⟩
    -- the poll under way is one of the other session
    have hno : ∀ poll, s.polls s.linkAttemptGeneration = some poll → ¬(some id : Option ℕ) = some poll.session :=
      fun poll hpoll hid => hother ((h.base.early hphase poll hpoll).trans hid.symm)
    change [] = dueOf { s with phase := .granted, linkSessionId := some id } (s.polls s.linkAttemptGeneration)
    cases hpoll : s.polls s.linkAttemptGeneration with
    | none => rfl
    | some poll =>
      obtain ⟨session, stage⟩ := poll
      cases stage with
      | asks => rfl
      | handled | describes | flushes | adds => exact (if_neg (hno _ hpoll)).symm

theorem onStartFailed_keeps (h : Inv s k) : Keeps k s.onStartFailed.1 s.onStartFailed.2 := by
  refine ⟨⟨trivial, trivial⟩, fun _ => ⟨⟨h.base.old, h.base.lock, h.base.lockOld, fun _ => .inr ⟨rfl, rfl⟩,
    nofun, fun _ => rfl, h.base.cursor⟩, ?_, ?_, fun hphase => absurd rfl hphase⟩⟩
  · change [] = dueOf s.onStartFailed.1 (s.polls s.linkAttemptGeneration)
    unfold dueOf
    split
    · rfl
    · rfl
    all_goals exact (if_neg nofun).symm
  · change [] = owedOf s.onStartFailed.1 (s.polls s.linkAttemptGeneration)
    unfold owedOf
    split
    · exact (if_neg nofun).symm
    · rfl

/-- A calm step delivers what is due, once and in order. -/
theorem step_keeps (h : Inv s k) (hclean : s.isCleanedUp = false) (hcalm : Calm s es a)
    (hs : signals.step s a = some (t, fs)) : Keeps k t fs := by
  cases a with
  | poll =>
    obtain ⟨hguard, hs⟩ := ite_none_right_eq_some.mp hs
    cases hs
    exact keeps_of_inv ⟨trivial, pollLinkSignals_inv h (Bool.and_eq_true_iff.mp hguard).1⟩
  | answered attempt answer view =>
    simp only [signals] at hs
    split at hs
    · rename_i session hpoll
      exact rel_of_step (Keeps k) hs (answered_keeps h hclean hcalm hpoll)
    · cases hs
  | failed attempt =>
    simp only [signals] at hs
    split at hs
    · rename_i session hpoll
      exact rel_of_step (Keeps k) hs (failed_keeps h hpoll)
    · cases hs
  | resumes attempt view =>
    simp only [signals] at hs
    split at hs
    · rename_i session rest hpoll
      exact rel_of_step (Keeps k) hs (resumes_keeps h hclean hcalm hpoll)
    · cases hs
  | described attempt ok =>
    simp only [signals] at hs
    split at hs
    · rename_i session rest hpoll
      exact rel_of_step (Keeps k) hs (described_keeps h hclean hpoll)
    · cases hs
  | added attempt =>
    simp only [signals] at hs
    split at hs
    · rename_i session left rest hpoll
      exact rel_of_step (Keeps k) hs (flushes_keeps h hclean hpoll)
    · rename_i session rest hpoll
      exact rel_of_step (Keeps k) hs (adds_keeps h hpoll)
    · cases hs
  | iceRestart =>
    obtain ⟨-, hs⟩ := ite_none_right_eq_some.mp hs
    cases hs
    exact keeps_of_inv ⟨trivial, ⟨h.base.old, h.base.lock, h.base.lockOld, h.base.peer, h.base.early,
      h.base.idle, h.base.cursor⟩, h.present.due, h.present.owed, h.present.queued⟩
  | startLinkConnection =>
    obtain ⟨-, hs⟩ := ite_none_right_eq_some.mp hs
    exact rel_of_step (Keeps k) hs (startLinkConnection_keeps h hclean hcalm)
  | peerCreated =>
    obtain ⟨⟨hphase, -⟩, hs⟩ := ite_none_right_eq_some.mp hs
    cases hs
    have hstarted : s.phase ≠ .idle := fun hidle => absurd (hphase.symm.trans hidle) nofun
    refine keeps_of_inv ⟨trivial, ⟨h.base.old, h.base.lock, h.base.lockOld, fun _ => .inl rfl, h.base.early,
      fun hidle => absurd hidle hstarted, h.base.cursor⟩, h.present.due, ?_, h.present.queued⟩
    -- an attempt that polls has its peer connection
    refine h.present.owed.trans ?_
    change owedOf s (s.polls s.linkAttemptGeneration) =
      owedOf { s with peerConnection := true } (s.polls s.linkAttemptGeneration)
    cases hpoll : s.polls s.linkAttemptGeneration with
    | none => rfl
    | some poll =>
      rcases h.base.peer (hpoll ▸ some_ne_none poll) with hpeer | ⟨hidle, -⟩
      · unfold owedOf
        rw [hpeer]
      · exact absurd hidle hstarted
  | granted =>
    obtain ⟨⟨hphase, -⟩, hs⟩ := ite_none_right_eq_some.mp hs
    exact rel_of_step (Keeps k) hs (onGranted_keeps h hphase)
  | startFailed =>
    obtain ⟨-, hs⟩ := ite_none_right_eq_some.mp hs
    exact rel_of_step (Keeps k) hs (onStartFailed_keeps h)
  | restartLinkConnection => exact rel_of_step (Keeps k) hs (restartLinkConnection_keeps h)
  | restartOver =>
    cases hs
    exact keeps_of_inv ⟨trivial, ⟨h.base.old, h.base.lock, h.base.lockOld, h.base.peer, h.base.early,
      h.base.idle, h.base.cursor⟩, h.present.due, h.present.owed, h.present.queued⟩
  | ends =>
    cases hs
    refine ⟨⟨trivial, trivial⟩, fun hno => absurd hno ?_⟩
    simp [State.cleanupResources, hclean]

/-- What a cleaned up screen does: it handles no signal, adds no candidate, and stays cleaned up. -/
def Quiet (t : State) (fs : List Event) : Prop := t.isCleanedUp = true ∧ ∀ k, signalLaw.AcceptsFrom k fs

theorem pollOver_quiet (h : s.isCleanedUp = true) (attempt session : ℕ) :
    Quiet (s.pollOver attempt session).1 (s.pollOver attempt session).2 := by
  have hno : ¬s.isCurrent attempt session = true := by simp [State.isCurrent, h]
  refine ⟨h, fun k => ?_⟩
  unfold State.pollOver
  rw [if_neg hno]
  trivial

theorem cleaned_step (h : s.isCleanedUp = true) (hs : signals.step s a = some (t, fs)) : Quiet t fs := by
  have hcurrent : ∀ attempt session, s.isCurrent attempt session = false := fun _ _ => by simp [State.isCurrent, h]
  have hpeer : ∀ attempt, s.hasPeer attempt = false := fun _ => by simp [State.hasPeer, h]
  cases a with
  | poll | iceRestart | peerCreated | granted | startFailed => simp [signals, h] at hs
  | answered attempt =>
    simp only [signals] at hs
    split at hs
    · refine rel_of_step Quiet hs ?_
      unfold State.onAnswer
      rw [hcurrent]
      exact pollOver_quiet h attempt _
    · cases hs
  | failed attempt =>
    simp only [signals] at hs
    split at hs
    · exact rel_of_step Quiet hs (pollOver_quiet h attempt _)
    · cases hs
  | resumes attempt view =>
    simp only [signals] at hs
    split at hs
    · rename_i session rest hpoll
      refine rel_of_step Quiet hs ?_
      cases rest with
      | nil => exact pollOver_quiet h attempt session
      | cons =>
        rw [State.handleBatch, hcurrent]
        exact pollOver_quiet h attempt session
    · cases hs
  | described =>
    simp only [signals] at hs
    split at hs
    · refine rel_of_step Quiet hs ?_
      unfold State.onDescribed
      rw [hpeer, Bool.and_false]
      exact ⟨h, fun _ => trivial⟩
    · cases hs
  | added =>
    simp only [signals] at hs
    split at hs
    · refine rel_of_step Quiet hs ?_
      unfold State.flush
      rw [hpeer]
      exact ⟨h, fun _ => trivial⟩
    · exact rel_of_step Quiet hs ⟨h, fun _ => trivial⟩
    · cases hs
  | startLinkConnection =>
    obtain ⟨-, hs⟩ := ite_none_right_eq_some.mp hs
    exact rel_of_step Quiet hs ⟨h, fun _ => ⟨trivial, trivial⟩⟩
  | restartLinkConnection =>
    refine rel_of_step Quiet hs ?_
    unfold State.restartLinkConnection
    rw [h, Bool.or_true]
    exact ⟨h, fun _ => trivial⟩
  | restartOver => exact rel_of_step Quiet hs ⟨h, fun _ => trivial⟩
  | ends =>
    refine rel_of_step Quiet hs ⟨?_, fun _ => ⟨trivial, trivial⟩⟩
    unfold State.cleanupResources
    rw [if_pos h]
    exact h

/-- In a run whose steps are all calm every signal that comes for the current session is handled once and in
order, and every queued candidate is added once after the answer. -/
theorem signals_handled {explicitSessionId : Option ℕ} (h : signals.Path (.start explicitSessionId) as t es)
    (hcalm : signals.Every Calm (.start explicitSessionId) [] as) : signalLaw.Accepts es := by
  refine h.accepts_of_every signalLaw (fun s k => s.isCleanedUp = false → Inv s k)
    (fun s es a t fs hinv hcalm hs => ?_) [] (fun _ => inv_start explicitSessionId) hcalm
  cases hclean : s.isCleanedUp with
  | false => exact step_keeps (hinv hclean) hclean hcalm hs
  | true =>
    obtain ⟨hcleaned, haccepts⟩ := cleaned_step hclean hs
    exact ⟨haccepts _, fun hno => absurd (hno.symm.trans hcleaned) Bool.false_ne_true⟩

def signalOf (number : ℤ) (type : String) (members : List (String × Json)) : Signal :=
  ⟨number, .obj [("type", .str type), ("payload", .obj members)]⟩

/-- A candidate, the host's answer, and a list of its screens. -/
def hostAnswer : Answer where
  nextCursor := some 3
  signals := [signalOf 1 "candidate" [("candidate", .obj [])],
    signalOf 2 "session_answer" [("accepted", .bool true), ("sdp", .str "v=0")],
    signalOf 3 "signal" [("type", .str "screen_list"), ("screens", .arr [])]]

/-- The candidate is queued, and added when the answer is set. -/
def answeredSession : List Action :=
  [.startLinkConnection, .peerCreated, .granted 7, .poll, .answered 1 hostAnswer ⟨true, false⟩,
    .resumes 1 ⟨true, false⟩,
    .described 1 true, .added 1, .resumes 1 ⟨true, false⟩, .resumes 1 ⟨true, false⟩, .ends]

theorem answeredSession_handled : ∃ t es, signals.Path (.start none) answeredSession t es ∧
    es = [.begins, .moves, .delivers [1, 2, 3] none, .handles 1, .queues 1, .handles 2, .applies, .adds 1,
      .handles 3, .pollOver, .ends] ∧ signalLaw.Accepts es := by
  have hexec : ∃ t, signals.exec (fun _ _ _ => true) (.start none) [] answeredSession =
      some (t, [.begins, .moves, .delivers [1, 2, 3] none, .handles 1, .queues 1, .handles 2, .applies,
        .adds 1, .handles 3, .pollOver, .ends]) := ⟨_, rfl⟩
  obtain ⟨t, hexec⟩ := hexec
  obtain ⟨es, hes, hpath⟩ := Machine.path_of_exec answeredSession hexec
  have hcalm : signals.Every Calm (.start none) [] answeredSession := by
    refine ⟨rfl, fun _ _ hs => ?_⟩
    cases hs
    refine ⟨trivial, fun _ _ hs => ?_⟩
    cases hs
    refine ⟨trivial, fun _ _ hs => ?_⟩
    cases hs
    refine ⟨trivial, fun _ _ hs => ?_⟩
    cases hs
    refine ⟨fun _ _ => ⟨⟨by decide, by decide, by decide⟩, fun _ => rfl⟩, fun _ _ hs => ?_⟩
    cases hs
    refine ⟨fun _ rest hpoll _ _ => ?_, fun _ _ hs => ?_⟩
    · cases hpoll
      rfl
    cases hs
    refine ⟨trivial, fun _ _ hs => ?_⟩
    cases hs
    refine ⟨trivial, fun _ _ hs => ?_⟩
    cases hs
    refine ⟨fun _ rest hpoll _ _ => ?_, fun _ _ hs => ?_⟩
    · cases hpoll
      rfl
    cases hs
    refine ⟨fun _ rest hpoll _ hlength => ?_, fun _ _ hs => ?_⟩
    · cases hpoll
      rfl
    cases hs
    exact ⟨trivial, fun _ _ _ => trivial⟩
  exact ⟨t, es, hpath, hes.symm, signals_handled hpath hcalm⟩

/-- A list of screens that is no list, and a candidate behind it. -/
def brokenScreens : Answer where
  nextCursor := some 2
  signals := [signalOf 1 "signal" [("type", .str "screen_list"), ("screens", .str "none")],
    signalOf 2 "candidate" [("candidate", .obj [])]]

/-- The candidate is lost with the exception, and the cursor is behind it. -/
theorem brokenScreens_lost : ¬∀ (explicitSessionId : Option ℕ) (as : List Action) (t : State)
    (es : List Event), signals.Path (.start explicitSessionId) as t es → signalLaw.Accepts es := by
  intro h
  have hexec : ∃ t, signals.exec (fun _ _ _ => true) (.start none) []
      [.startLinkConnection, .peerCreated, .granted 7, .poll, .answered 1 brokenScreens ⟨true, false⟩] =
      some (t, [.begins, .moves, .delivers [1, 2] none, .handles 1, .pollOver]) := ⟨_, rfl⟩
  obtain ⟨t, hexec⟩ := hexec
  obtain ⟨es, hes, hpath⟩ := Machine.path_of_exec _ hexec
  have haccepts := h none _ t es hpath
  rw [nil_append] at hes
  rw [← hes] at haccepts
  obtain ⟨-, -, -, -, ⟨hdue, -⟩, -⟩ := haccepts
  exact absurd hdue (cons_ne_nil _ _)

end LigamentApps.SupportOperator.Signals
