import LigamentApps.Machine.Trace

/-!
# The prompts of challenges

What `AuthState` of `auth_state.dart` does with the challenges of one session: the prompt of a sign-in, the
prompt of a browser sign-on with its Windows ticket, the challenges known to be resolved, and the list of
pending ones. A method that awaits something ends its step; what it does next is kept in `waiting`.

Left out: the alerts, the texts of a prompt, the history, and what ends a session. The fields marked as a
record are not in the code: they keep what the statements speak about and no definition of the code reads
them. -/

namespace LigamentApps.AuthState

/-! ## What the server sends -/

/-- A challenge as a message or an entry of the pending list has it, its texts left out. One that comes nested
in `challenge` stands unwrapped. -/
structure RawChallenge where
  id : Option String := none
  challengeId : Option String := none
  metaId : Option String := none
  purpose : Option String := none
  type : Option String := none
  metaPurpose : Option String := none
  attemptId : Option String := none
  metaAttemptId : Option String := none
  /-- `machineMatches` of the machine that the challenge claims and this computer's name. -/
  machineMatches : Bool := false
  autoAllowed : Bool := false
  /-- The time when it expires, unless that cannot be read. -/
  expiresAt : Option ℕ := none
  deriving DecidableEq

namespace RawChallenge

variable (raw : RawChallenge)

/-- `metadata.attempt_id`, or else `attempt_id`. -/
def attempt : Option String := raw.metaAttemptId.or raw.attemptId

/-- The test of `_surfacePrompt`. -/
def isBrowserSso : Bool :=
  raw.purpose.or raw.type = some "browser_sso" || raw.metaPurpose = some "browser_sso"

/-- The test of `loadPendingChallenges`. -/
def isPendingBrowserSso : Bool :=
  raw.type = some "browser_sso" || raw.purpose = some "browser_sso"

/-- The identifier that `normalizeBrowserSsoPrompt` finds. -/
def normalizedId : Option String := (raw.id.or raw.challengeId).or raw.metaId

end RawChallenge

structure Prompt where
  challengeId : Option String
  /-- The attempt that the prompt carries: one that comes from the pending list carries none. -/
  attemptId : Option String
  /-- A record: the attempt of its challenge. -/
  attempt : Option String
  /-- A record: the step in which the challenge became the active one. -/
  since : ℕ := 0
  deriving DecidableEq

/-- A prompt as `normalizeBrowserSsoPrompt` makes it, with an identifier. -/
structure BrowserSsoPrompt where
  id : String
  machineMatches : Bool
  autoAllowed : Bool
  /-- A record: the attempt of its challenge. -/
  attempt : Option String

/-- An entry of `pendingChallenges`. -/
structure PendingChallenge where
  id : String
  attemptId : Option String
  metaAttemptId : Option String

def PendingChallenge.attempt (challenge : PendingChallenge) : Option String :=
  challenge.metaAttemptId.or challenge.attemptId

/-- Whether a text that may be missing is there and not empty. -/
def isGiven (text : Option String) : Bool := text.any (· ≠ "")

/-- `submitDecision` of a challenge that waits for the user or the server, with the snapshot of its prompt. -/
structure Decision where
  challengeId : String
  promptSnapshot : Option Prompt
  own : ∀ prompt, promptSnapshot = some prompt → prompt.challengeId = some challengeId

/-- What `loadPendingChallenges` has still to do with an answer. -/
structure PendingAnswer where
  /-- A record: the step in which the list was asked for. -/
  requested : ℕ
  freshChallenges : List PendingChallenge
  /-- The object that `freshChallenges` is, by the step that made it. -/
  list : ℕ
  browserSso : List RawChallenge

/-- A method that waits. A surfacing that `loadPendingChallenges` awaits has its rest with it. -/
inductive Waiting
  /-- `loadPendingChallenges` waits for the server. -/
  | pending (requested : ℕ)
  | pendingGoesOn (answer : PendingAnswer)
  /-- `_surfaceBrowserSso` reads the ticket. -/
  | ticket (prompt : BrowserSsoPrompt) (caller : Option PendingAnswer)
  /-- `resolveBrowserSso` waits for the server. -/
  | browserSsoDecision (prompt : BrowserSsoPrompt) (caller : Option PendingAnswer)
  | decision (decision : Decision)

/-- A record of one surfacing: what it read and found. -/
structure SsoCheck where
  id : String
  ticket : Option String
  machineMatches : Bool
  deriving DecidableEq

/-- The fields of `AuthState`, with what runs beside it. -/
structure Prompts where
  now : ℕ := 0
  activePrompt : Option Prompt := none
  activeBrowserSsoPrompt : Option BrowserSsoPrompt := none
  browserSsoTicket : Option String := none
  browserSsoHasTicket : Bool := false
  browserSsoMachineOk : Bool := false
  browserSsoAutoApprove : Bool := false
  resolvedChallengeIds : List String := []
  pendingChallenges : List PendingChallenge := []
  /-- The object that `pendingChallenges` is. -/
  pendingList : ℕ := 0
  activeOutboundStepUpChallengeId : Option String := none
  waiting : List Waiting := []
  /-- A record: the number of steps so far. -/
  steps : ℕ := 0
  /-- Records: what the server has reported as resolved. -/
  reportedIds : List String := []
  reportedAttempts : List String := []
  /-- A record: the checks of the surfacings, the last one first. -/
  checks : List SsoCheck := []

/-- What an await gives: whether it throws, whether that is for good, and of the rest what the method
reads. -/
structure PromptReply where
  failed : Bool := false
  /-- The error closes the challenge: `number_match_mismatch`, `challenge_expired` or `challenge_closed`. -/
  terminal : Bool := false
  challenges : List RawChallenge := []
  ticket : Option String := none
  deriving DecidableEq

/-- What happens. -/
inductive PromptAction
  /-- A sign-in prompt comes by the WebSocket or by a push. -/
  | prompt (raw : RawChallenge)
  /-- A browser sign-on prompt comes by the WebSocket. -/
  | browserSso (raw : RawChallenge)
  | challengeResolved (challengeId attemptId : Option String)
  | dismissPrompt (challengeId : Option String)
  | submitDecision (challengeId : String)
  | resolveBrowserSso (approve : Bool)
  | setBrowserSsoAutoApprove (value : Bool)
  /-- The step-up that this device has asked another one for begins or ends. -/
  | outboundStepUp (challengeId : Option String)
  /-- The polling timer. -/
  | poll
  | resume (index : ℕ) (reply : PromptReply)
  | elapse (ms : ℕ)
  deriving DecidableEq

/-- The decision on a browser sign-on that is sent to the server. -/
structure SentDecision where
  challengeId : String
  approve : Bool
  ssoTicket : Option String

/-- The state after a part of a step, with what was sent. -/
abbrev PromptOutcome := Prompts × List SentDecision

namespace Prompts

/-! ## Waiting -/

/-- `pendingChallenges.removeWhere`, as an answer sees it whose `freshChallenges` may be the same object. -/
def removeFrom (list : ℕ) (gone : PendingChallenge → Bool) (answer : PendingAnswer) : PendingAnswer :=
  if answer.list = list then { answer with freshChallenges := answer.freshChallenges.filter (!gone ·) } else answer

def removeWaiting (list : ℕ) (gone : PendingChallenge → Bool) : Waiting → Waiting
  | .pendingGoesOn answer => .pendingGoesOn (removeFrom list gone answer)
  | .ticket prompt caller => .ticket prompt (caller.map (removeFrom list gone))
  | .browserSsoDecision prompt caller => .browserSsoDecision prompt (caller.map (removeFrom list gone))
  | waiting => waiting

def await (waiting : Waiting) (s : Prompts) : Prompts := { s with waiting := s.waiting ++ [waiting] }

variable (s : Prompts)

/-- `loadPendingChallenges` up to its request. -/
def loadPendingChallenges : Prompts := s.await (.pending s.steps)

/-- The caller of a surfacing goes on. -/
def goOn (caller : Option PendingAnswer) (s : Prompts) : Prompts :=
  match caller with
  | none => s
  | some answer => s.await (.pendingGoesOn answer)

/-- `_resolvedChallengeIds.add`. -/
def addResolved (id : String) (s : Prompts) : Prompts :=
  { s with resolvedChallengeIds := id :: s.resolvedChallengeIds }

/-! ## Browser sign-on -/

/-- The prompt that `_surfaceBrowserSso` goes on with, unless it returns before its await. -/
def toSurface (raw : RawChallenge) (s : Prompts) : Option BrowserSsoPrompt :=
  match raw.normalizedId with
  | none => none
  | some id =>
    if id = "" ∨ id ∈ s.resolvedChallengeIds ∨ raw.expiresAt.all (· < s.now) ∨
        s.activeBrowserSsoPrompt.any (·.id = id) then none
    else some ⟨id, raw.machineMatches, raw.autoAllowed, raw.attempt⟩

/-- `_surfaceBrowserSso` up to its await. -/
def surfaceBrowserSso (raw : RawChallenge) (s : Prompts) : Prompts :=
  match s.toSurface raw with
  | none => s
  | some prompt => s.await (.ticket prompt none)

/-- Whether an approval is sent as one. -/
def useApprove (approve : Bool) (s : Prompts) : Bool := approve && s.browserSsoHasTicket && s.browserSsoMachineOk

/-- `resolveBrowserSso` of a prompt up to its await. -/
def resolveBrowserSso (approve : Bool) (data : BrowserSsoPrompt) (caller : Option PendingAnswer)
    (s : Prompts) : PromptOutcome :=
  (s.await (.browserSsoDecision data caller),
    [⟨data.id, s.useApprove approve, if s.useApprove approve then s.browserSsoTicket else none⟩])

variable (prompt : BrowserSsoPrompt)

/-- What the ticket and the machine are found to be, kept in the fields. -/
def keepCheck (ticket : Option String) (s : Prompts) : Prompts :=
  { s with
    browserSsoTicket := ticket
    browserSsoHasTicket := isGiven ticket
    browserSsoMachineOk := prompt.machineMatches
    checks := ⟨prompt.id, ticket, prompt.machineMatches⟩ :: s.checks }

/-- Whether the challenge is approved without the user. -/
def approvesAlone (s : Prompts) : Bool :=
  prompt.autoAllowed && s.browserSsoAutoApprove && s.browserSsoHasTicket && s.browserSsoMachineOk

/-- `_surfaceBrowserSso` after its await. -/
def ticketRead (caller : Option PendingAnswer) (ticket : Option String) (s : Prompts) : PromptOutcome :=
  let checked := s.keepCheck prompt ticket
  if checked.approvesAlone prompt then checked.resolveBrowserSso true prompt caller
  else (goOn caller { checked with activeBrowserSsoPrompt := some prompt }, [])

/-- `resolveBrowserSso` after its await. -/
def browserSsoDecided (data : BrowserSsoPrompt) (caller : Option PendingAnswer) (failed : Bool)
    (s : Prompts) : Prompts :=
  if failed then
    if s.activeBrowserSsoPrompt = none then goOn caller { s with activeBrowserSsoPrompt := some data }
    else s.goOn caller
  else
    let resolved := s.addResolved data.id
    if s.activeBrowserSsoPrompt.any (·.id = data.id) then goOn caller { resolved with activeBrowserSsoPrompt := none }
    else resolved.goOn caller

/-! ## Sign-in prompts -/

variable (challengeId : Option String)

/-- Whether `_surfacePrompt` turns a prompt away. -/
def refuses (s : Prompts) : Bool :=
  challengeId.any fun id => id ≠ "" && (id ∈ s.resolvedChallengeIds || s.activeOutboundStepUpChallengeId = some id)

/-- Since when the challenge of a prompt has been the active one, once the prompt is. -/
def activeSince (s : Prompts) : ℕ :=
  match s.activePrompt with
  | none => s.steps
  | some active => if active.challengeId = challengeId then active.since else s.steps

/-- `_surfacePrompt` of a sign-in prompt. -/
def surfaceSignIn (prompt : Prompt) (s : Prompts) : Prompts :=
  if s.refuses prompt.challengeId then s
  else { s with activePrompt := some { prompt with since := s.activeSince prompt.challengeId } }

def surfacePrompt (raw : RawChallenge) (s : Prompts) : Prompts :=
  if raw.isBrowserSso then s.surfaceBrowserSso raw
  else surfaceSignIn { challengeId := raw.challengeId, attemptId := raw.attempt, attempt := raw.attempt } s

def dismissPrompt (s : Prompts) : Prompts :=
  let dismissed : Option String := if isGiven challengeId then challengeId else s.activePrompt.bind (·.challengeId)
  let noted := if isGiven dismissed then s.addResolved (dismissed.getD "") else s
  { noted with activePrompt := none }

/-- Whether a report closes the sign-in prompt for itself. -/
def resolves (challengeId attemptId : Option String) (prompt : Prompt) : Bool :=
  (prompt.challengeId.isSome && prompt.challengeId = challengeId) ||
    (isGiven attemptId && prompt.attemptId = attemptId)

/-- A report takes an entry off the pending list. -/
def isGone (challengeId attemptId : Option String) (challenge : PendingChallenge) : Bool :=
  (isGiven challengeId && challengeId = some challenge.id) ||
    (isGiven attemptId && (challenge.metaAttemptId = attemptId || challenge.attemptId = attemptId))

/-- `handleChallengeResolved`. A browser sign-on prompt carries no attempt. -/
def handleChallengeResolved (challengeId attemptId : Option String) (s : Prompts) : Prompts :=
  let noted : Prompts :=
    if isGiven challengeId then
      { s.addResolved (challengeId.getD "") with reportedIds := challengeId.getD "" :: s.reportedIds }
    else s
  let recorded : Prompts :=
    if isGiven attemptId then { noted with reportedAttempts := attemptId.getD "" :: s.reportedAttempts } else noted
  let closesSso := s.activeBrowserSsoPrompt.any fun prompt => challengeId = some prompt.id
  let shouldDismiss := s.activePrompt.any (resolves challengeId attemptId) || closesSso
  loadPendingChallenges
    { recorded with
      activeBrowserSsoPrompt := if closesSso then none else s.activeBrowserSsoPrompt
      activePrompt := if shouldDismiss then none else s.activePrompt
      pendingChallenges := s.pendingChallenges.filter (!isGone challengeId attemptId ·)
      waiting := s.waiting.map (removeWaiting s.pendingList (isGone challengeId attemptId)) }

/-- `submitDecision` up to its first await. Until the server has answered it touches nothing. -/
def submitDecision (challengeId : String) (s : Prompts) : Prompts :=
  s.await (.decision
    { challengeId := challengeId
      promptSnapshot := s.activePrompt.filter (·.challengeId = some challengeId)
      own := fun _ h => of_decide_eq_true (Option.filter_eq_some_iff.mp h).2 })

/-- Whether the active prompt is the one of a challenge. -/
def isActive (challengeId : String) (s : Prompts) : Bool := s.activePrompt.any (·.challengeId = some challengeId)

/-- The end of a challenge that the server has closed. -/
def close (challengeId : String) (s : Prompts) : Prompts :=
  let noted := if challengeId ≠ "" then s.addResolved challengeId else s
  if s.isActive challengeId then { noted with activePrompt := none } else noted

/-- The return of a prompt whose decision has failed for the time being. -/
def restored (decision : Decision) (s : Prompts) : Prompts :=
  let shown : Prompts :=
    if s.activePrompt = none ∨ s.isActive decision.challengeId = true then
      { s with activePrompt := decision.promptSnapshot }
    else s
  if decision.challengeId ≠ "" then
    { shown with resolvedChallengeIds := s.resolvedChallengeIds.filter (· ≠ decision.challengeId) }
  else shown

/-- `submitDecision` after the answer. -/
def decided (decision : Decision) (reply : PromptReply) (s : Prompts) : Prompts :=
  if reply.failed then
    if reply.terminal then s.close decision.challengeId else s.restored decision
  else (s.close decision.challengeId).loadPendingChallenges

/-! ## The pending list -/

/-- An entry of the list that is neither a browser sign-on nor resolved. -/
def freshChallenge (raw : RawChallenge) : Option PendingChallenge :=
  match raw.id with
  | none => none
  | some id =>
    if id ∈ s.resolvedChallengeIds ∨ raw.isPendingBrowserSso = true then none
    else some ⟨id, raw.attemptId, raw.metaAttemptId⟩

/-- The entries of the list that are a browser sign-on. -/
def isFreshBrowserSso (raw : RawChallenge) : Bool :=
  raw.id.any (· ∉ s.resolvedChallengeIds) && raw.isPendingBrowserSso

/-- The end of `loadPendingChallenges`. -/
def pendingEnds (answer : PendingAnswer) (s : Prompts) : Prompts :=
  match answer.freshChallenges with
  | [] => { s with activePrompt := none }
  | first :: _ =>
    if s.activePrompt.any (fun active => answer.freshChallenges.any (active.challengeId = some ·.id)) then s
    else
      surfaceSignIn { challengeId := some first.id, attemptId := none, attempt := first.attempt }
        { s with activePrompt := none }

/-- `loadPendingChallenges` from one browser sign-on on: while one is active the others are passed over. -/
def pendingGoesOn (answer : PendingAnswer) (s : Prompts) : Prompts :=
  match answer.browserSso, s.activeBrowserSsoPrompt with
  | [], _ => s.pendingEnds answer
  | _ :: _, some _ => s.pendingEnds answer
  | raw :: left, none =>
    match s.toSurface raw with
    | none => s.await (.pendingGoesOn { answer with browserSso := left })
    | some prompt => s.await (.ticket prompt (some { answer with browserSso := left }))

/-- `loadPendingChallenges` with the answer. -/
def pendingAnswered (requested : ℕ) (reply : PromptReply) (s : Prompts) : Prompts :=
  if reply.failed then s
  else
    let answer : PendingAnswer :=
      { requested := requested
        freshChallenges := reply.challenges.filterMap s.freshChallenge
        list := s.steps
        browserSso := reply.challenges.filter s.isFreshBrowserSso }
    pendingGoesOn answer { s with pendingChallenges := answer.freshChallenges, pendingList := s.steps }

/-- A method that waits goes on. -/
def resume (waiting : Waiting) (reply : PromptReply) (s : Prompts) : PromptOutcome :=
  match waiting with
  | .pending requested => (s.pendingAnswered requested reply, [])
  | .pendingGoesOn answer => (s.pendingGoesOn answer, [])
  | .ticket prompt caller => s.ticketRead prompt caller reply.ticket
  | .browserSsoDecision prompt caller => (s.browserSsoDecided prompt caller reply.failed, [])
  | .decision decision => (s.decided decision reply, [])

/-- What an action does. -/
def act (s : Prompts) : PromptAction → Option PromptOutcome
  | .prompt raw => some ((s.surfacePrompt raw).loadPendingChallenges, [])
  | .browserSso raw => some ((s.surfaceBrowserSso raw).loadPendingChallenges, [])
  | .challengeResolved challengeId attemptId => some (s.handleChallengeResolved challengeId attemptId, [])
  | .dismissPrompt challengeId => some (s.dismissPrompt challengeId, [])
  | .submitDecision challengeId => some (s.submitDecision challengeId, [])
  | .resolveBrowserSso approve =>
    some (match s.activeBrowserSsoPrompt with
      | none => (s, [])
      | some data => s.resolveBrowserSso approve data none)
  | .setBrowserSsoAutoApprove value => some ({ s with browserSsoAutoApprove := value }, [])
  | .outboundStepUp challengeId => some ({ s with activeOutboundStepUpChallengeId := challengeId }, [])
  | .poll => some (s.loadPendingChallenges, [])
  | .resume index reply =>
    (s.waiting[index]?).map fun waiting => resume waiting reply { s with waiting := s.waiting.eraseIdx index }
  | .elapse ms => some ({ s with now := s.now + ms }, [])

def step (a : PromptAction) : Option PromptOutcome := act { s with steps := s.steps + 1 } a

end Prompts

def promptMachine : Machine Prompts PromptAction SentDecision where
  step := Prompts.step

end LigamentApps.AuthState
