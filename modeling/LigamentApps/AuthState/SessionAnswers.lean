import LigamentApps.AuthState.ServerAnswers
import LigamentApps.AuthState.SupportSessions

/-!
# Answers that come too late

An answer is late when the session in which it was asked for is over. The loaders and the decisions compare
the client, the epoch and the token, and then do nothing. The other methods go on in the session that there is
now, and so do the callers that have awaited an answer. -/

namespace LigamentApps.AuthState

open List Option

open SupportService (CaptureAction)

variable {effect : AnswerEffect} {token : String} {attempt client : ℕ}

def ServerWait.isLogout : ServerWait → Bool
  | .logoutMarker | .logoutServer => true
  | _ => false

/-- What `loadPendingChallenges` has kept where it is the caller of what waits. -/
def ServerWait.caller : ServerWait → Option SessionMark
  | .prompts _ caller => some caller
  | _ => none

/-- What a method does next is to take an answer, or follows on one. -/
def Asked.isAnswer (w : Asked) : Bool := w.answered || w.wait.isCall

/-- The session in which a method has begun is over: there was a login since, or a logout or a rollback, which
a logout that waits may itself be. -/
def Asked.isLate (w : Asked) (s : AuthSession) : Bool :=
  w.mark.token.isSome &&
    (w.mark.logins ≠ s.logins || !w.wait.isLogout && (s.authEpoch ≠ w.mark.epoch || s.token ≠ w.mark.token))

namespace SupportPolls

/-- A session of the server changes nothing. -/
def passesOver (s : SupportPolls) (session : SupportSession) : Bool :=
  if session.isJoining then !s.putsQuestion session
  else if session.isRequested then !s.showsRequest session
  else !session.isTerminal || s.support.phase = .idle && s.activeSupportPrompt = none

/-- That there is no session changes nothing. -/
def passesOverNone (s : SupportPolls) : Bool :=
  s.support.phase ≠ .requested && s.support.phase ≠ .connecting &&
    !(s.support.phase = .authorizing && s.activeSupportPrompt = none)

instance (s : SupportPolls) (sessionId : String) (active : Bool) : Decidable (s.hosts sessionId active) :=
  inferInstanceAs (Decidable (_ ∧ _ ∧ _))

/-- A request is shown as it is, or has no session yet. -/
def shows (s : SupportPolls) (request : SosRequest) : Bool :=
  if request.isRequested then s.support.phase = .requested
  else request.isHosted && (request.sessionId = "" || s.hosts request.sessionId request.isActive)

/-- What a method has waited for changes nothing of the support: a poll finds what it tells, a session is
closed that is closed already, a request or a consent has failed. -/
def passes (s : SupportPolls) (reply : SupportReply) : SupportWaiting → Bool
  | .current _ =>
    reply.failed ||
      match reply.session with
      | some session => s.passesOver session
      | none => s.passesOverNone
  | .sosRequest requestId _ =>
    s.sosRequestId ≠ some requestId || if reply.failed then !reply.isGone else s.shows reply.request
  | .stopped _ (.closePrompt (some _)) => s.activeSupportPrompt = none
  | .stopped _ (.closePrompt none) => s.activeSupportPrompt = none && !s.isEndingSupport
  | .ownerStart _ _ => !reply.failed
  | .requestSupport | .confirmSupport _ => reply.failed
  | .stopped _ (.ownerScreen _) | .ownerActivation _ | .rejectSupport | .endSupport => false

variable {s : SupportPolls} {reply : SupportReply}

theorem command_of_support_eq {a : CaptureAction} (h : (s.command a).support = s.support) : s.command a = s :=
  calc s.command a = { s with support := (s.command a).support } := rfl
    _ = s := by rw [h]

theorem onSession_of_passesOver {requested : ℕ} {session : SupportSession} (h : s.passesOver session = true) :
    s.onSession requested session = (s, []) := by
  unfold passesOver at h
  unfold onSession
  split_ifs at h ⊢ with hjoining hputs hrequested hshows hterminal hphase
  · exact absurd hputs (by simpa using h)
  · rfl
  · exact absurd hshows (by simpa using h)
  · rfl
  · have hidle : s.support.phase = .idle := by
      have hboth : s.support.phase = .idle ∧ s.activeSupportPrompt = none := by simpa [hterminal] using h
      exact hboth.1
    exact absurd hidle hphase
  · have hnone : s.activeSupportPrompt = none := by
      have hboth : s.support.phase = .idle ∧ s.activeSupportPrompt = none := by simpa [hterminal] using h
      exact hboth.2
    rw [← hnone]
  · rfl

theorem onNoSession_of_passesOverNone {requested : ℕ} (h : s.passesOverNone = true) :
    s.onNoSession requested = (s, []) := by
  simp only [passesOverNone, Bool.and_eq_true, decide_eq_true_eq, Bool.not_eq_true', Bool.and_eq_false_iff,
    decide_eq_false_iff_not] at h
  obtain ⟨⟨hrequested, hconnecting⟩, hopen⟩ := h
  unfold onNoSession
  rw [if_neg (not_or.mpr ⟨hrequested, hconnecting⟩), if_neg (fun hboth => hopen.elim (· hboth.1) (· hboth.2))]

theorem onRequest_of_shows {requestId : String} {request : SosRequest} (h : s.shows request = true) :
    ∃ hosted, s.onRequest requestId request = ({ s with hosted }, []) := by
  unfold shows at h
  unfold onRequest
  split_ifs at h ⊢ with hrequested hphase hhosted hgiven
  · exact absurd (of_decide_eq_true h) hphase
  · exact ⟨_, rfl⟩
  · simp only [hhosted, Bool.true_and, Bool.or_eq_true, decide_eq_true_eq] at h
    have hhosts : s.hosts request.sessionId request.isActive := h.resolve_left hgiven
    have hsame := command_of_support_eq ((s.setLinkHostedSession_eq_self _ _).mpr hhosts)
    exact ⟨(requestId, request.sessionId) :: s.hosted, by rw [hsame]⟩
  · exact ⟨_, rfl⟩
  · simp [hhosted] at h

theorem resume_of_passes {w : SupportWaiting} (h : s.passes reply w = true) :
    ∃ hosted, s.resume reply w = ({ s with hosted }, []) := by
  cases w with
  | current =>
    refine ⟨s.hosted, ?_⟩
    simp only [resume, onCurrent]
    split_ifs with hfailed
    · rfl
    · simp only [passes, hfailed, Bool.false_or] at h
      cases hsession : reply.session with
      | none => exact onNoSession_of_passesOverNone (by simpa [hsession] using h)
      | some => exact onSession_of_passesOver (by simpa [hsession] using h)
  | sosRequest =>
    simp only [resume, onSosRequest]
    split_ifs with hother hfailed hgone
    · exact ⟨_, rfl⟩
    · simp [passes, hother, hfailed, hgone] at h
    · exact ⟨_, rfl⟩
    · have hshows : s.shows reply.request = true := by simpa [passes, hother, hfailed] using h
      exact onRequest_of_shows hshows
  | stopped own next =>
    cases next with
    | closePrompt info =>
      refine ⟨s.hosted, ?_⟩
      cases info with
      | none =>
        simp only [passes, Bool.and_eq_true, decide_eq_true_eq, Bool.not_eq_true'] at h
        simp only [resume, stopOver, ← h.1, ← h.2]
      | some =>
        have hnone : s.activeSupportPrompt = none := of_decide_eq_true h
        simp only [resume, stopOver, ← hnone]
    | ownerScreen => cases h
  | ownerStart =>
    have hstarted : reply.failed = false := by simpa [passes] using h
    exact ⟨s.hosted, by simp [resume, hstarted]⟩
  | requestSupport =>
    have hfailed : reply.failed = true := h
    exact ⟨s.hosted, by simp [resume, supportRequested, hfailed]⟩
  | confirmSupport =>
    have hfailed : reply.failed = true := h
    exact ⟨s.hosted, by simp [resume, hfailed]⟩
  | ownerActivation | rejectSupport | endSupport => cases h

end SupportPolls

namespace AuthSession

/-- A late answer changes no field, and starts and ends nothing. -/
def Separated (s : AuthSession) (a : AuthAction) : Prop :=
  ∀ index reply w, a = .answer index reply → s.waiting[index]? = some w → w.isAnswer = true →
    w.isLate s = true → ∀ out, s.step a = some out → out = (s.without index, [])

/-! ## Where nothing is done -/

/-- No registration of the machine is to be tried again. -/
def needsNoRetry (s : AuthSession) : Bool := !s.isLoggedIn || s.fields.hasMachine

/-- What callers still have to do is nothing: each method returns at once. -/
def idles (s : AuthSession) : List Call → Bool
  | [] => true
  | .method m :: rest => !s.opens m && s.idles rest
  | .here :: _ => false
  | .ifCurrent attempt _ client :: rest =>
    if s.isCurrentLogin attempt client then s.idles rest else s.committedLoginGeneration ≠ attempt
  | .setupServices :: rest => !s.hasClient && s.idles rest
  | .refreshAll :: rest => !s.isLoggedIn && s.idles rest
  | .refreshed number :: rest =>
    s.isRefreshing number || (s.fields.machineRetry || s.needsNoRetry) && s.idles rest
  | .retried :: rest => s.needsNoRetry && s.idles rest
  | .endPoll :: rest => !s.fields.isPollingInFlight && s.idles rest

/-- A late answer finds the fields such that it does nothing. A method that compares the session does nothing
anyway. -/
def ignoresReply (s : AuthSession) (mark : SessionMark) (reply : ServerReply) : ServerWait → Bool
  | .linkHosts => s.authEpoch ≠ mark.epoch
  | .registerMachine =>
    reply.failed || s.api.isNone && (!(reply.ok && reply.id.isSome) || s.fields.registeredMachineId = reply.id)
  | .registerInstance => reply.failed || !reply.ok
  | .appUpdate =>
    reply.failed || reply.update.all fun update => s.fields.appUpdate = if update.2 then some update.1 else none
  | .markRead id => reply.failed || s.fields.inbox.notifications.all (·.id ≠ some id)
  | .markAllRead => reply.failed || s.fields.inbox.notifications = []
  | .updateSettings =>
    reply.failed || s.fields.currentUser.all fun user =>
      reply.notificationSettings.all (user.notificationSettings = some ·)
  | .posture =>
    reply.failed || s.fields.isCompliant = reply.posture.isCompliant &&
      s.fields.currentPosture = some { reply.posture with
        identityMismatch := (reply.identityMatch.map (!·)).or reply.posture.identityMismatch }
  | .restoreProfile => reply.failed && reply.statusCode ≠ some 401
  | .beginStepUp =>
    reply.failed || !isGiven reply.id || s.fields.prompts.activeOutboundStepUpChallengeId = reply.id
  | .pollStepUp challengeId =>
    reply.failed || !reply.status.any (· ≠ "pending") ||
      s.fields.prompts.activeOutboundStepUpChallengeId ≠ some challengeId
  | .iceServers => reply.failed || reply.iceServers = [] || s.fields.iceServers = reply.iceServers
  | .connectToSupport => reply.failed || !s.opens .loadSupportQueue
  | .claimSOS => !s.opens .loadSupportQueue
  | .submitSsoTicket number =>
    reply.failed || s.fields.ssoTicketFlow.all fun flow =>
      flow.number ≠ number || reply.statusCode ≠ some 200 && reply.statusCode ≠ some 404 ||
        reply.statusCode = some 200 && flow.verifiedUntil = reply.expiresAt ||
          reply.statusCode = some 404 && flow.serverNotEnabled
  | .support w => s.fields.polls.passes (s.supportReply reply.support w) w
  | .ssoTicket | .logoutMarker | .logoutServer => false
  | _ => true

/-- A late answer does nothing, and neither do the callers. -/
def ignores (s : AuthSession) (w : Asked) (reply : ServerReply) : Bool :=
  s.ignoresReply w.mark reply w.wait && s.idles w.rest

/-- A login brings a token that no session had, and a late answer finds the fields such that it does
nothing. -/
def staysApart (s : AuthSession) : AuthAction → Bool
  | .restore token => token ∉ s.tokens
  | .login commit => commit.token ∉ s.tokens
  | .answer index reply =>
    s.waiting[index]?.all fun w =>
      !(w.isAnswer && w.isLate s && s.mayResume w.wait) || (s.without index).ignores w reply
  | _ => true

variable {s t : AuthSession} {mark : SessionMark} {reply : ServerReply} {w : Asked} {done : Bool}

/-! ## Callers that have nothing to do -/

theorem startRetry_of_needsNoRetry (h : s.needsNoRetry = true) : s.startRetry = (s, []) := by
  refine if_neg fun hneeds => ?_
  rw [Bool.and_eq_true, Bool.not_eq_true'] at hneeds
  simp [needsNoRetry, hneeds.1, hneeds.2] at h

theorem scheduleMachineRetry_of_idle (h : (s.fields.machineRetry || s.needsNoRetry) = true) :
    s.scheduleMachineRetryIfNeeded = (s, []) := by
  unfold scheduleMachineRetryIfNeeded
  split_ifs with hset
  · rfl
  · have hno : s.needsNoRetry = true := by simpa [hset] using h
    exact startRetry_of_needsNoRetry hno

theorem rollback_of_other (h : s.committedLoginGeneration ≠ attempt) :
    s.rollback attempt token client = s := if_pos h

theorem run_of_idles : ∀ calls : List Call, s.idles calls = true → s.run mark done calls = (s, [])
  | [], _ => rfl
  | .method m :: rest, h => by
    rw [idles, Bool.and_eq_true, Bool.not_eq_true'] at h
    have hrest := run_of_idles rest h.2
    simpa [run, h.1] using hrest
  | .here :: _, h => nomatch h
  | .ifCurrent attempt token client :: rest, h => by
    by_cases hcurrent : s.isCurrentLogin attempt client = true
    · rw [idles, if_pos hcurrent] at h
      rw [run, if_pos hcurrent]
      exact run_of_idles rest h
    · rw [idles, if_neg hcurrent, decide_eq_true_eq] at h
      rw [run, if_neg hcurrent, rollback_of_other h]
  | .setupServices :: rest, h => by
    rw [idles, Bool.and_eq_true, Bool.not_eq_true'] at h
    have hrest := run_of_idles rest h.2
    simp [run, h.1, hrest, after]
  | .refreshAll :: rest, h => by
    rw [idles, Bool.and_eq_true] at h
    rw [run, if_pos h.1]
    exact run_of_idles rest h.2
  | .refreshed number :: rest, h => by
    by_cases hrefreshing : s.isRefreshing number = true
    · rw [run, if_pos hrefreshing]
    · rw [idles, Bool.or_eq_true, Bool.and_eq_true] at h
      obtain ⟨hidle, hrest⟩ := h.resolve_left hrefreshing
      have hcalls := run_of_idles rest hrest
      rw [run, if_neg hrefreshing, scheduleMachineRetry_of_idle hidle]
      simp [hcalls, after]
  | .retried :: rest, h => by
    rw [idles, Bool.and_eq_true] at h
    have hcalls := run_of_idles rest h.2
    rw [run, startRetry_of_needsNoRetry h.1]
    simp [hcalls, after]
  | .endPoll :: rest, h => by
    rw [idles, Bool.and_eq_true, Bool.not_eq_true'] at h
    have hsame : { s with fields := { s.fields with isPollingInFlight := false } } = s := by
      rw [← h.1]
    rw [run, hsame]
    exact run_of_idles rest h.2

/-! ## Late answers -/

/-- Nothing is set or started, and with callers that idle nothing is done. -/
def Quiet (s : AuthSession) (effect : AnswerEffect) : Prop :=
  ∃ sequel, effect = (s.fields, [], sequel) ∧
    ∀ w : Asked, s.idles w.rest = true → s.follow w sequel = (s, [])

theorem quiet_nothing (s : AuthSession) : s.Quiet s.nothing :=
  ⟨.ends, rfl, fun w hidle => run_of_idles w.rest hidle⟩

theorem quiet_sets {fields : AuthFields} (h : fields = s.fields) : s.Quiet (sets fields) := by
  rw [h]
  exact s.quiet_nothing

theorem quiet_unlessFailed (h : reply.failed = false → s.Quiet effect) : s.Quiet (s.unlessFailed reply effect) := by
  unfold unlessFailed
  split_ifs with hfailed
  · exact s.quiet_nothing
  · exact h (by simpa using hfailed)

theorem quiet_guarded (h : s.isCurrentAuthClient mark = false) : s.Quiet (s.guarded mark effect) := by
  unfold guarded
  rw [h]
  exact s.quiet_nothing

theorem quiet_supportQueue (h : s.opens .loadSupportQueue = false) :
    s.Quiet (s.fields, [], .calls [.method .loadSupportQueue]) := by
  refine ⟨_, rfl, fun w hidle => ?_⟩
  have hcalls : s.idles (.method .loadSupportQueue :: w.rest) = true := by simp [idles, h, hidle]
  exact run_of_idles _ hcalls

theorem not_current_of_differs (h : s.authEpoch ≠ mark.epoch ∨ s.token ≠ mark.token) :
    s.isCurrentAuthClient mark = false := by
  rcases h with hepoch | htoken
  · simp [isCurrentAuthClient, hepoch]
  · simp [isCurrentAuthClient, htoken]

theorem not_promptGoesOn_of_differs (h : s.authEpoch ≠ mark.epoch ∨ s.token ≠ mark.token)
    (waiting : Waiting) : s.promptGoesOn mark waiting = false := by
  cases waiting with
  | ticket =>
    rcases h with hepoch | htoken
    · simp [promptGoesOn, hepoch]
    · simp [promptGoesOn, htoken]
  | _ => exact not_current_of_differs h

theorem markFirst_of_other {id : String} {now : ℕ} :
    ∀ notifications : List Notification, notifications.all (·.id ≠ some id) = true →
      Inbox.markFirst id now notifications = notifications
  | [], _ => rfl
  | n :: rest, h => by
    rw [all_cons, Bool.and_eq_true, decide_eq_true_eq] at h
    rw [Inbox.markFirst, if_neg h.1, markFirst_of_other rest h.2]

theorem inbox_ext {inbox inbox' : Inbox} (h : inbox'.notifications = inbox.notifications) : inbox' = inbox := by
  cases inbox
  cases inbox'
  simp_all

theorem setIceServers_of_same {iceServers : List String} (h : iceServers = [] ∨ s.fields.iceServers = iceServers) :
    s.fields.setIceServers iceServers = s.fields := by
  unfold AuthFields.setIceServers
  rcases h with hnone | hsame
  · rw [if_pos hnone]
  · rw [← hsame, ite_self]

theorem setNotificationSettings_of_same {settings : Option String}
    (h : s.fields.currentUser.all (fun user => settings.all (user.notificationSettings = some ·)) = true) :
    s.fields.setNotificationSettings settings = s.fields := by
  unfold AuthFields.setNotificationSettings
  split
  · rename_i user text huser
    have hsame : user.notificationSettings = some text := by simpa [huser] using h
    rw [← hsame, ← huser]
  · rfl

theorem ticketAnswered_of_same {number : ℕ} (hanswered : reply.failed = false)
    (h : s.ignoresReply mark reply (.submitSsoTicket number) = true) :
    s.fields.ticketAnswered number reply = s.fields := by
  unfold AuthFields.ticketAnswered
  cases hflow : s.fields.ssoTicketFlow with
  | none => rw [map_none, ← hflow]
  | some flow =>
    have hsame : (if flow.number ≠ number then flow
        else if reply.statusCode = some 200 then { flow with verifiedUntil := reply.expiresAt }
        else if reply.statusCode = some 404 then { flow with serverNotEnabled := true }
        else flow) = flow := by
      simp only [ignoresReply, hanswered, hflow, Bool.false_or, all_some, Bool.or_eq_true, Bool.and_eq_true,
        decide_eq_true_eq] at h
      split_ifs with hother hok hmissing
      · rfl
      · have hverified : flow.verifiedUntil = reply.expiresAt := by simpa [hother, hok] using h
        rw [← hverified]
      · have hset : flow.serverNotEnabled = true := by simpa [hother, hok, hmissing] using h
        rw [← hset]
      · rfl
    rw [map_some, hsame, ← hflow]

theorem quiet_supportAnswered {waiting : SupportWaiting} {reply : SupportReply}
    (h : s.fields.polls.passes (s.supportReply reply waiting) waiting = true) :
    s.Quiet (s.supportAnswered mark waiting reply) := by
  obtain ⟨hosted, hresume⟩ := SupportPolls.resume_of_passes h
  have hends : s.supportAnswered mark waiting reply = s.nothing := by
    unfold supportAnswered
    rw [hresume]
    rfl
  rw [hends]
  exact s.quiet_nothing

theorem quiet_machineRegistered (hanswered : reply.failed = false)
    (h : s.ignoresReply mark reply .registerMachine = true) : s.Quiet (s.machineRegistered reply) := by
  simp only [ignoresReply, hanswered, Bool.false_or, Bool.and_eq_true, isNone_iff_eq_none] at h
  obtain ⟨hnone, hknown⟩ := h
  have hsame : (if (reply.ok && reply.id.isSome) = true then reply.id else s.fields.registeredMachineId) =
      s.fields.registeredMachineId := by
    split_ifs with hgiven
    · have hid : s.fields.registeredMachineId = reply.id := by simpa [hgiven] using hknown
      exact hid.symm
    · rfl
  have hends : s.machineRegistered reply = s.nothing := by
    unfold machineRegistered
    rw [hsame, hnone]
    rfl
  rw [hends]
  exact s.quiet_nothing

/-- An answer that is ignored changes nothing. -/
theorem quiet_answered {wait : ServerWait}
    (hother : wait.isLogout = false → s.authEpoch ≠ mark.epoch ∨ s.token ≠ mark.token)
    (h : s.ignoresReply mark reply wait = true) : s.Quiet (s.answered mark reply wait) := by
  cases wait with
  -- The methods that compare the client, the epoch and the token.
  | refreshProfile | relayConfig | relayIceServers | supportQueue | allowedApps | history | notifications =>
    exact quiet_unlessFailed fun _ => quiet_guarded (not_current_of_differs (hother rfl))
  | relayPreferences | relaySaved | rdpTargets => exact quiet_guarded (not_current_of_differs (hother rfl))
  | prompts waiting caller =>
    have hstops := not_promptGoesOn_of_differs (hother rfl) waiting
    have hends : s.promptAnswered mark caller waiting reply.prompts = s.nothing := by
      unfold promptAnswered
      rw [hstops]
      rfl
    show s.Quiet (s.promptAnswered mark caller waiting reply.prompts)
    rw [hends]
    exact s.quiet_nothing
  -- The epoch alone.
  | linkHosts =>
    have hepoch : s.authEpoch ≠ mark.epoch := of_decide_eq_true h
    have hends : s.linkHostsAnswered mark reply = s.nothing := if_pos hepoch
    show s.Quiet (s.linkHostsAnswered mark reply)
    rw [hends]
    exact s.quiet_nothing
  -- Those that compare nothing.
  | registerMachine => exact quiet_unlessFailed fun hanswered => quiet_machineRegistered hanswered h
  | registerInstance =>
    refine quiet_unlessFailed fun hanswered => ?_
    have hrefused : reply.ok = false := by simpa [ignoresReply, hanswered] using h
    simpa [instanceRegistered, hrefused] using s.quiet_nothing
  | appUpdate =>
    refine quiet_unlessFailed fun hanswered => quiet_sets ?_
    simp only [ignoresReply, hanswered, Bool.false_or] at h
    cases hupdate : reply.update with
    | none => rfl
    | some update =>
      have hsame : s.fields.appUpdate = if update.2 then some update.1 else none := by simpa [hupdate] using h
      rw [AuthFields.setAppUpdate, ← hsame]
  | markRead id =>
    refine quiet_unlessFailed fun hanswered => quiet_sets ?_
    have hmissing : s.fields.inbox.notifications.all (·.id ≠ some id) = true := by
      simpa only [ignoresReply, hanswered, Bool.false_or] using h
    have hsame : s.fields.inbox.markRead id s.fields.now = s.fields.inbox :=
      inbox_ext (markFirst_of_other _ hmissing)
    rw [hsame]
  | markAllRead =>
    refine quiet_unlessFailed fun hanswered => quiet_sets ?_
    have hempty : s.fields.inbox.notifications = [] := by simpa [ignoresReply, hanswered] using h
    have hsame : s.fields.inbox.markAllRead s.fields.now = s.fields.inbox :=
      inbox_ext (by simp [Inbox.markAllRead, hempty])
    rw [hsame]
  | updateSettings =>
    refine quiet_unlessFailed fun hanswered => quiet_sets (setNotificationSettings_of_same ?_)
    simpa only [ignoresReply, hanswered, Bool.false_or] using h
  | posture =>
    refine quiet_unlessFailed fun hanswered => quiet_sets ?_
    simp only [ignoresReply, hanswered, Bool.false_or, Bool.and_eq_true, decide_eq_true_eq] at h
    rw [AuthFields.setPosture, ← h.1, ← h.2]
  | restoreProfile =>
    simp only [ignoresReply, Bool.and_eq_true, decide_eq_true_eq] at h
    have hends : s.profileRestored reply = s.nothing := by
      unfold profileRestored
      rw [if_pos h.1, if_neg h.2]
      rfl
    show s.Quiet (s.profileRestored reply)
    rw [hends]
    exact s.quiet_nothing
  | beginStepUp =>
    refine quiet_unlessFailed fun hanswered => ?_
    unfold stepUpBegun
    split_ifs with hgiven
    · have hsame : s.fields.prompts.activeOutboundStepUpChallengeId = reply.id := by
        simpa [ignoresReply, hanswered, hgiven] using h
      exact quiet_sets (by rw [← hsame])
    · exact s.quiet_nothing
  | pollStepUp challengeId =>
    refine quiet_unlessFailed fun hanswered => ?_
    have hpasses : (reply.status.any (· ≠ "pending") &&
        s.fields.prompts.activeOutboundStepUpChallengeId = some challengeId) = false := by
      simp only [ignoresReply, hanswered, Bool.false_or, Bool.or_eq_true, Bool.not_eq_true', decide_eq_true_eq] at h
      rcases h with hpending | hothers
      · rw [hpending, Bool.false_and]
      · rw [decide_eq_false hothers, Bool.and_false]
    unfold stepUpPolled
    rw [hpasses]
    exact s.quiet_nothing
  | iceServers =>
    refine quiet_unlessFailed fun hanswered => quiet_sets (setIceServers_of_same ?_)
    simpa [ignoresReply, hanswered] using h
  | connectToSupport =>
    refine quiet_unlessFailed fun hanswered => quiet_supportQueue ?_
    simpa [ignoresReply, hanswered] using h
  | claimSOS =>
    have hclosed : s.opens .loadSupportQueue = false := by simpa [ignoresReply] using h
    exact quiet_supportQueue hclosed
  | submitSsoTicket number =>
    exact quiet_unlessFailed fun hanswered => quiet_sets (ticketAnswered_of_same hanswered h)
  | support waiting => exact quiet_supportAnswered h
  | here | returned => exact s.quiet_nothing
  | ssoTicket | logoutMarker | logoutServer => exact nomatch h

theorem resume_of_ignores (hother : w.wait.isLogout = false → s.authEpoch ≠ w.mark.epoch ∨ s.token ≠ w.mark.token)
    (h : s.ignores w reply = true) : s.resume w reply = (s, []) := by
  rw [ignores, Bool.and_eq_true] at h
  obtain ⟨sequel, heffect, hfollow⟩ := quiet_answered hother h.1
  have hdone : s.follow w sequel = (s, []) := hfollow w h.2
  unfold resume
  rw [heffect]
  show after [] (s.follow w sequel) = (s, [])
  rw [hdone]
  rfl

/-! ## Whose token it is -/

/-- A token that was kept is of some login, and while it is the session's no other login came. -/
def Knows (s : AuthSession) (mark : SessionMark) : Prop :=
  ∀ token, mark.token = some token → token ∈ s.tokens ∧ (s.token = some token → mark.logins = s.logins)

/-- So are the tokens that a method has kept, and its caller. -/
def KnowsAsked (s : AuthSession) (w : Asked) : Prop :=
  s.Knows w.mark ∧ ∀ caller, w.wait.caller = some caller → s.Knows caller

/-- The session's token, and what waits, are known. -/
def Sound (s : AuthSession) : Prop := s.Knows s.mark ∧ ∀ w ∈ s.waiting, s.KnowsAsked w

/-- What a sequel keeps is known. -/
def KnowsSequel (s : AuthSession) : Sequel → Prop
  | .waits mark wait => s.Knows mark ∧ ∀ caller, wait.caller = some caller → s.Knows caller
  | _ => True

theorem sound_await (h : s.Sound) (hw : s.KnowsAsked w) : (s.await w).Sound := by
  refine ⟨h.1, fun w' hw' => ?_⟩
  rcases mem_append.mp hw' with hold | hnew
  · exact h.2 w' hold
  · obtain rfl := mem_singleton.mp hnew
    exact hw

theorem sound_without (h : s.Sound) (index : ℕ) : (s.without index).Sound :=
  ⟨h.1, fun w hw => h.2 w (mem_of_mem_eraseIdx hw)⟩

theorem knows_of_rollback (h : s.Knows mark) : (s.rollback attempt token client).Knows mark := by
  unfold rollback
  split_ifs
  · exact h
  · exact fun kept hkept => ⟨(h kept hkept).1, fun hnow => nomatch hnow⟩
  · exact h

theorem sound_rollback (h : s.Sound) : (s.rollback attempt token client).Sound := by
  have hknows : ∀ mark, s.Knows mark → (s.rollback attempt token client).Knows mark := fun _ => knows_of_rollback
  have hwaiting : (s.rollback attempt token client).waiting = s.waiting := by
    unfold rollback
    split_ifs <;> rfl
  refine ⟨?_, fun w hw => ?_⟩
  · unfold rollback
    split_ifs
    · exact h.1
    · exact fun kept hkept => nomatch hkept
    · exact h.1
  · rw [hwaiting] at hw
    have hold := h.2 w hw
    exact ⟨hknows _ hold.1, fun caller heq => hknows _ (hold.2 caller heq)⟩

theorem sound_begins (h : s.Sound) (m : AuthMethod) (rest : List Call) : (s.begins m rest).Sound := by
  refine sound_await h ⟨h.1, fun caller heq => ?_⟩
  have hmark : caller = s.mark := by
    cases m with
    | loadPendingChallenges => exact (Option.some.inj heq).symm
    | checkSupportSession =>
      simp only [firstWait] at heq
      split at heq <;> exact nomatch heq
    | _ => exact nomatch heq
  rw [hmark]
  exact h.1

/-- The session is sound, and a mark is known in it. -/
def SoundWith (mark : SessionMark) (s : AuthSession) : Prop := s.Sound ∧ s.Knows mark

theorem soundWith_beginMember (h : s.SoundWith mark) (rest : List Call) (m : AuthMethod) :
    (beginMember rest s m).SoundWith mark := by
  unfold beginMember
  split_ifs
  · exact ⟨sound_begins h.1 m rest, h.2⟩
  · exact h

theorem soundWith_beginRefresh (h : s.SoundWith mark) (rest : List Call) :
    (s.beginRefresh rest).SoundWith mark := by
  have hfold : ∀ (methods : List AuthMethod) (t : AuthSession), t.SoundWith mark →
      (methods.foldl (beginMember (.refreshed s.refreshes :: rest)) t).SoundWith mark := by
    intro methods
    induction methods with
    | nil => exact fun _ ht => ht
    | cons m _ ih => exact fun t ht => ih _ (soundWith_beginMember ht _ m)
  exact hfold s.refreshMethods _ h

theorem soundWith_startRetry (h : s.SoundWith mark) : s.startRetry.1.SoundWith mark := by
  unfold startRetry
  split_ifs
  · exact h
  · exact h

theorem soundWith_scheduleMachineRetry (h : s.SoundWith mark) :
    s.scheduleMachineRetryIfNeeded.1.SoundWith mark := by
  unfold scheduleMachineRetryIfNeeded
  split_ifs
  · exact h
  · exact soundWith_startRetry h

theorem sound_run : ∀ (calls : List Call) {s : AuthSession}, s.SoundWith mark → (s.run mark done calls).1.Sound
  | [], _, h => h.1
  | .method m :: rest, s, h => by
    rw [run]
    split_ifs
    · exact sound_begins h.1 m rest
    · exact sound_run rest h
  | .here :: rest, s, h => sound_await h.1 ⟨h.2, fun _ heq => nomatch heq⟩
  | .ifCurrent attempt token client :: rest, s, h => by
    rw [run]
    split_ifs
    · exact sound_run rest h
    · exact sound_rollback h.1
  | .setupServices :: rest, s, h => sound_run rest h
  | .refreshAll :: rest, s, h => by
    have hbegun := soundWith_beginRefresh h rest
    rw [run]
    dsimp only
    split_ifs
    · exact sound_run rest h
    · exact hbegun.1
    · exact sound_run rest (soundWith_scheduleMachineRetry hbegun)
  | .refreshed number :: rest, s, h => by
    rw [run]
    split_ifs
    · exact h.1
    · exact sound_run rest (soundWith_scheduleMachineRetry h)
  | .retried :: rest, s, h => sound_run rest (soundWith_startRetry h)
  | .endPoll :: rest, s, h => sound_run rest h

theorem knowsSequel_guarded (h : s.KnowsSequel effect.2.2) : s.KnowsSequel (s.guarded mark effect).2.2 := by
  unfold guarded
  split_ifs
  · exact h
  · trivial

theorem knowsSequel_unlessFailed (h : s.KnowsSequel effect.2.2) :
    s.KnowsSequel (s.unlessFailed reply effect).2.2 := by
  unfold unlessFailed
  split_ifs
  · trivial
  · exact h

theorem knowsSequel_prompts {waiting : Waiting} {caller : SessionMark} {reply : PromptReply} (h : s.Sound)
    (hmark : s.Knows mark) (hcaller : s.Knows caller) :
    s.KnowsSequel (s.promptAnswered mark caller waiting reply).2.2 := by
  have hsequel : ∀ ws, s.KnowsSequel (s.promptSequel mark caller ws) := by
    intro ws
    have hkept : ∀ w caller', (ServerWait.prompts w caller).caller = some caller' → s.Knows caller' :=
      fun _ _ heq => Option.some.inj heq ▸ hcaller
    unfold promptSequel
    split
    · trivial
    · exact ⟨hcaller, hkept _⟩
    · split_ifs
      · exact ⟨h.1, hkept _⟩
      · trivial
    · exact ⟨hmark, hkept _⟩
    · trivial
  rw [promptAnswered]
  by_cases hgoes : s.promptGoesOn mark waiting = true
  · rw [if_pos hgoes]
    exact hsequel _
  · rw [if_neg hgoes]
    trivial

theorem knowsSequel_support {waiting : SupportWaiting} {reply : SupportReply} (h : s.Sound)
    (hmark : s.Knows mark) : s.KnowsSequel (s.supportAnswered mark waiting reply).2.2 := by
  have hsequel : ∀ ws, s.KnowsSequel (s.supportSequel mark ws) := by
    intro ws
    cases ws with
    | nil => trivial
    | cons =>
      refine ⟨?_, fun _ heq => nomatch heq⟩
      split_ifs
      · exact h.1
      · exact hmark
  exact hsequel _

theorem knowsSequel_answered {wait : ServerWait} (h : s.Sound) (hmark : s.Knows mark)
    (hcaller : ∀ caller, wait.caller = some caller → s.Knows caller) :
    s.KnowsSequel (s.answered mark reply wait).2.2 := by
  have hfresh : ∀ wait' : ServerWait, wait'.caller = none → s.KnowsSequel (.waits s.mark wait') :=
    fun _ hplain => ⟨h.1, fun caller heq => nomatch hplain.symm.trans heq⟩
  have hgoesOn : ∀ wait' : ServerWait, wait'.caller = none → s.KnowsSequel (.waits mark wait') :=
    fun _ hplain => ⟨hmark, fun caller heq => nomatch hplain.symm.trans heq⟩
  cases wait with
  | refreshProfile | relayIceServers | supportQueue | allowedApps | history | notifications =>
    exact knowsSequel_unlessFailed (knowsSequel_guarded trivial)
  | relayConfig => exact knowsSequel_unlessFailed (knowsSequel_guarded (hgoesOn _ rfl))
  | relayPreferences | relaySaved => exact knowsSequel_guarded (hgoesOn _ rfl)
  | rdpTargets =>
    refine knowsSequel_guarded ?_
    unfold rdpTargetsAnswered
    split_ifs <;> trivial
  | linkHosts =>
    show s.KnowsSequel (s.linkHostsAnswered mark reply).2.2
    unfold linkHostsAnswered
    split_ifs <;> trivial
  | registerMachine =>
    refine knowsSequel_unlessFailed ?_
    unfold machineRegistered
    dsimp only
    split_ifs with hclient
    · exact hfresh _ rfl
    · trivial
  | registerInstance =>
    refine knowsSequel_unlessFailed ?_
    unfold instanceRegistered
    split_ifs <;> trivial
  | restoreProfile =>
    show s.KnowsSequel (s.profileRestored reply).2.2
    unfold profileRestored
    split_ifs <;> trivial
  | beginStepUp =>
    refine knowsSequel_unlessFailed ?_
    unfold stepUpBegun
    split_ifs <;> trivial
  | pollStepUp =>
    refine knowsSequel_unlessFailed ?_
    unfold stepUpPolled
    split_ifs <;> trivial
  | ssoTicket =>
    show s.KnowsSequel (s.ticketRead reply).2.2
    unfold ticketRead
    split
    · trivial
    · split_ifs
      · exact hfresh _ rfl
      · trivial
      · trivial
  | prompts _ caller => exact knowsSequel_prompts h hmark (hcaller caller rfl)
  | support => exact knowsSequel_support h hmark
  | logoutMarker => exact hgoesOn _ rfl
  | appUpdate | markRead | markAllRead | updateSettings | posture | iceServers | connectToSupport | submitSsoTicket =>
    exact knowsSequel_unlessFailed trivial
  | claimSOS | logoutServer | here | returned => trivial

theorem sound_logout (h : s.Sound) : s.logout.Sound := by
  have hbegun : Sound { s with
      authEpoch := s.authEpoch + 1, loginGeneration := s.loginGeneration + 1, committedLoginGeneration := 0 } := h
  exact sound_await hbegun ⟨h.1, fun _ heq => nomatch heq⟩

theorem sound_clear (h : s.Sound) : s.clear.Sound := by
  have hknows : ∀ mark, s.Knows mark → s.clear.Knows mark := fun mark hmark token htoken =>
    ⟨(hmark token htoken).1, fun hnow => nomatch hnow⟩
  refine ⟨fun _ htoken => absurd htoken nofun, fun w hw => ?_⟩
  have hold := h.2 w hw
  exact ⟨hknows _ hold.1, fun caller heq => hknows _ (hold.2 caller heq)⟩

theorem sound_follow {sequel : Sequel} (h : s.Sound) (hw : s.KnowsAsked w) (hsequel : s.KnowsSequel sequel) :
    (s.follow w sequel).1.Sound := by
  cases sequel with
  | ends => exact sound_run w.rest ⟨h, hw.1⟩
  | waits => exact sound_await h hsequel
  | calls calls => exact sound_run (calls ++ w.rest) ⟨h, hw.1⟩
  | logout => exact sound_logout h
  | clears => exact sound_clear h

theorem sound_resume (h : s.Sound) (hw : s.KnowsAsked w) : (s.resume w reply).1.Sound :=
  sound_follow h hw (knowsSequel_answered h hw.1 hw.2)

theorem sound_newToken (h : s.Sound) (hnew : token ∉ s.tokens) (htoken : t.token = some token)
    (htokens : t.tokens = token :: s.tokens) (hwaiting : t.waiting = s.waiting) : t.Sound := by
  have hknows : ∀ mark, s.Knows mark → t.Knows mark := by
    intro mark hmark kept hkept
    have hold := (hmark kept hkept).1
    refine ⟨htokens ▸ mem_cons_of_mem _ hold, fun hsame => ?_⟩
    cases htoken.symm.trans hsame
    exact absurd hold hnew
  refine ⟨fun kept hkept => ⟨?_, fun _ => rfl⟩, fun w hw => ?_⟩
  · cases htoken.symm.trans hkept
    exact htokens ▸ mem_cons_self
  · rw [hwaiting] at hw
    have hold := h.2 w hw
    exact ⟨hknows _ hold.1, fun caller heq => hknows _ (hold.2 caller heq)⟩

theorem sound_append {asked : List Asked} (h : s.Sound) (hasked : ∀ w ∈ asked, s.KnowsAsked w)
    (fields : AuthFields) : Sound { s with fields, waiting := s.waiting ++ asked } := by
  refine ⟨h.1, fun w hw => ?_⟩
  rcases mem_append.mp hw with hold | hnew
  · exact h.2 w hold
  · exact hasked w hnew

theorem sound_onSupport (h : s.Sound) (r : SupportOutcome) : (s.onSupport r).1.Sound := by
  refine sound_append h (fun w hw => ?_) _
  obtain ⟨waiting, -, rfl⟩ := List.mem_map.mp hw
  exact ⟨h.1, fun _ heq => nomatch heq⟩

theorem sound_onPrompts (h : s.Sound) (r : PromptOutcome) : (s.onPrompts r).1.Sound := by
  refine sound_append h (fun w hw => ?_) _
  obtain ⟨waiting, -, rfl⟩ := List.mem_map.mp hw
  exact ⟨h.1, fun caller heq => Option.some.inj heq ▸ h.1⟩

theorem sound_start : Sound {} := ⟨fun _ htoken => absurd htoken nofun, fun _ hw => absurd hw not_mem_nil⟩

theorem sound_step {a : AuthAction} {es : List AuthEvent} (h : s.Sound) (hapart : s.staysApart a = true)
    (hs : s.step a = some (t, es)) : t.Sound := by
  cases a with
  | restore token =>
    have hnew : token ∉ s.tokens := of_decide_eq_true hapart
    rw [step, ite_none_right_eq_some] at hs
    have hbegun := sound_newToken (t := { s with
      api := some s.clients, clients := s.clients + 1, token := some token, logins := s.logins + 1,
      tokens := token :: s.tokens }) h hnew rfl rfl rfl
    exact prop_of_step Sound hs.2 (sound_await hbegun ⟨hbegun.1, fun _ heq => nomatch heq⟩)
  | setServerUrl | cancelLoginAttempts => exact prop_of_step Sound hs h
  | login commit =>
    have hnew : commit.token ∉ s.tokens := of_decide_eq_true hapart
    obtain ⟨client, -, hlogin⟩ := map_eq_some_iff.mp hs
    refine prop_of_step Sound (congrArg some hlogin) ?_
    have hbegun := sound_newToken (t := { s with
      loginGeneration := s.loginGeneration + 1, committedLoginGeneration := s.loginGeneration + 1,
      token := some commit.token, logins := s.logins + 1, tokens := commit.token :: s.tokens,
      fields := { (s.fields.updatePerimeter commit.perimeter commit.clientIp).setProfile commit.user with
        currentPosture := commit.posture
        isCompliant := commit.posture.any Posture.isCompliant } }) h hnew rfl rfl rfl
    exact sound_run _ ⟨hbegun, hbegun.1⟩
  | logout => exact prop_of_step Sound hs (sound_logout h)
  | call | refreshAll => exact prop_of_step Sound hs (sound_run _ ⟨h, h.1⟩)
  | poll =>
    refine prop_of_step Sound hs ?_
    unfold poll
    split_ifs
    · exact h
    · exact sound_run _ ⟨h, h.1⟩
  | retryMachineRegistration =>
    rw [step, ite_none_right_eq_some] at hs
    exact prop_of_step Sound hs.2 (sound_run _ ⟨h, h.1⟩)
  | support =>
    obtain ⟨-, hmap⟩ := ite_none_right_eq_some.mp hs
    obtain ⟨r, -, heq⟩ := map_eq_some_iff.mp hmap
    exact prop_of_step Sound (congrArg some heq) (sound_onSupport h r)
  | prompts =>
    obtain ⟨-, hmap⟩ := ite_none_right_eq_some.mp hs
    obtain ⟨r, -, heq⟩ := map_eq_some_iff.mp hmap
    exact prop_of_step Sound (congrArg some heq) (sound_onPrompts h r)
  | answer index =>
    obtain ⟨w, hw, hs⟩ := bind_eq_some_iff.mp hs
    obtain ⟨-, -, hs⟩ := bind_eq_some_iff.mp hs
    have hknown : s.KnowsAsked w := h.2 w (mem_of_getElem? hw)
    exact prop_of_step Sound hs (sound_resume (sound_without h index) hknown)

theorem differs_of_late (hknown : s.Knows w.mark) (hlate : w.isLate s = true)
    (hplain : w.wait.isLogout = false) : s.authEpoch ≠ w.mark.epoch ∨ s.token ≠ w.mark.token := by
  simp only [Asked.isLate, hplain, Bool.not_false, Bool.true_and, Bool.and_eq_true, Bool.or_eq_true,
    decide_eq_true_eq] at hlate
  obtain ⟨hsome, hlogins | hother⟩ := hlate
  · right
    intro hsame
    obtain ⟨token, htoken⟩ := isSome_iff_exists.mp hsome
    have hours : w.mark.logins = s.logins := (hknown token htoken).2 (hsame.trans htoken)
    exact hlogins hours
  · exact hother

theorem separated_of_staysApart {a : AuthAction} (h : s.Sound) (hapart : s.staysApart a = true) :
    s.Separated a := by
  rintro index reply w rfl hw hanswer hlate out hs
  obtain ⟨w', hw', hs⟩ := bind_eq_some_iff.mp hs
  cases hw.symm.trans hw'
  obtain ⟨_, hmay, hs⟩ := bind_eq_some_iff.mp hs
  have hready : s.mayResume w.wait = true := by
    by_contra hnot
    simp [hnot] at hmay
  have hignores : (s.without index).ignores w reply = true := by
    simpa [staysApart, hw, hanswer, hlate, hready] using hapart
  have hknown : s.KnowsAsked w := h.2 w (mem_of_getElem? hw)
  have hdone : (s.without index).resume w reply = (s.without index, []) :=
    resume_of_ignores (differs_of_late hknown.1 hlate) hignores
  rw [← Option.some.inj hs]
  exact hdone

end AuthSession

/-- In a run whose logins bring new tokens, and whose late answers find the fields such that they do nothing,
no late answer changes a field, and none starts or ends anything. -/
theorem answers_stay_in_session (as : List AuthAction)
    (h : authSessions.Every (fun s _ a => s.staysApart a = true) {} [] as) :
    authSessions.Every (fun s _ a => s.Separated a) {} [] as :=
  Machine.Every.imp (fun s _ => s.Sound) (fun _ _ _ _ _ hsound hapart hs => AuthSession.sound_step hsound hapart hs)
    (fun _ _ _ hsound hapart => AuthSession.separated_of_staysApart hsound hapart) as AuthSession.sound_start h

/-- A user logs in, asks for something, logs out, and another one logs in. -/
def sampleSessions (m : AuthMethod) : List AuthAction :=
  [.setServerUrl, .login { token := "a" }, .call m, .logout, .answer 2 {}, .answer 2 {}, .setServerUrl,
    .login { token := "b", user := { username := "b" } }]

/-- The history of the first session comes too late, and that of the second one does not. -/
def sampleHistories : List AuthAction :=
  sampleSessions .loadHistory ++ [.call .loadHistory, .answer 1 { entries := ["a"] },
    .answer 2 { entries := ["b"] }]

theorem answers_stay_in_session_sample : authSessions.Every (fun s _ a => s.Separated a) {} [] sampleHistories := by
  have hcheck : (authSessions.exec (fun s _ a => s.staysApart a) {} [] sampleHistories).any
      (fun r => r.1.fields.history = ["b"] && r.1.logins = 2) = true := by
    decide +kernel
  obtain ⟨⟨t, es⟩, hexec, -⟩ := (Option.any_eq_true ..).mp hcheck
  exact answers_stay_in_session sampleHistories (Machine.every_of_exec (fun _ _ _ hapart => hapart) _ hexec)

/-- A user marks all notifications as read and logs out. Another one logs in, and has a notification that is
not read. The answer to the first one marks it. -/
theorem late_answer_marks_notifications : ¬∀ as, authSessions.Every (fun s _ a => s.Separated a) {} [] as := by
  intro h
  let as : List AuthAction := sampleSessions .markAllNotificationsRead ++
    [.call .loadNotifications, .answer 3 { notifications := [{ id := some "n" }] }]
  have hcheck : (authSessions.exec (fun _ _ _ => true) {} [] as).any (fun r =>
      r.1.waiting[1]?.any (fun w => w.isAnswer && w.isLate r.1) && r.1.fields.inbox.unreadCount = 1 &&
        (r.1.step (.answer 1 {})).any (·.1.fields.inbox.unreadCount = 0)) = true := by
    decide +kernel
  obtain ⟨s, es, hpath, hs⟩ := Machine.path_of_check hcheck
  simp only [Bool.and_eq_true, decide_eq_true_eq] at hs
  obtain ⟨⟨hwaits, hunread⟩, hmarks⟩ := hs
  obtain ⟨w, hw, hlate⟩ := (Option.any_eq_true ..).mp hwaits
  rw [Bool.and_eq_true] at hlate
  obtain ⟨out, hout, hread⟩ := (Option.any_eq_true ..).mp hmarks
  have hseparated : s.Separated (.answer 1 {}) := (h (as ++ [_])).good hpath
  have hsame : out = (s.without 1, []) := hseparated 1 {} w rfl hw hlate.1 hlate.2 out hout
  have hkept : out.1.fields.inbox.unreadCount = s.fields.inbox.unreadCount := by rw [hsame]; rfl
  rw [hunread, of_decide_eq_true hread] at hkept
  exact nomatch hkept

end LigamentApps.AuthState
