import LigamentApps.AuthState.SupportPolls
import LigamentApps.SupportService.StartEpoch

/-!
# Whose support session is stopped

Everything that a poll, a message or an owner screen tells is of some session, and an answer is of the time
when it was asked for. The code decides by the phase of the service alone, so what it is told of one session
can stop another. -/

namespace LigamentApps.AuthState

open SupportService (Capture CaptureAction SupportSessionState)

/-- What is learnt does not concern the session `r`, the `n`th that was announced: it is of another session,
or was asked for before that one was announced. -/
def SupportInfo.Foreign (hosted : List (String × String)) (r : String) (n : ℕ) : SupportInfo → Prop
  | .ended sessionId => ∃ x, sessionId = some x ∧ x ≠ r
  | .noSession requested => requested < n
  | .status sessionId terminal requested => requested < n ∨ terminal = true ∧ sessionId ≠ r
  | .request requestId sessionId terminal requested =>
    requested < n ∨ terminal = true ∧ r ≠ requestId ∧ r ≠ sessionId ∧ (requestId, r) ∉ hosted
  | .ownerScreen sessionId => sessionId ≠ r
  | .ownerFailed sessionId => sessionId ≠ r

def SupportAction.isStart : SupportAction → Bool
  | .supportPrompt _ | .autoshare _ => true
  | _ => false

/-- The session of a request is neither asked for nor hosted any more. -/
def SosRequest.isOver (request : SosRequest) : Bool := !request.isRequested && !request.isHosted

/-- What a method that goes on has learnt. -/
def SupportWaiting.info (reply : SupportReply) : SupportWaiting → Option SupportInfo
  | .current requested =>
    if reply.failed then none
    else
      match reply.session with
      | some session => some (.status session.sessionId session.isTerminal requested)
      | none => some (.noSession requested)
  | .sosRequest requestId requested =>
    if reply.failed then if reply.isGone then some (.request requestId "" true requested) else none
    else some (.request requestId reply.request.sessionId reply.request.isOver requested)
  | .stopped _ (.closePrompt info) => info
  | .ownerActivation sessionId | .ownerStart sessionId _ => if reply.failed then some (.ownerFailed sessionId) else none
  | _ => none

namespace SupportPolls

/-- What a step is told. -/
def info (s : SupportPolls) : SupportAction → Option SupportInfo
  | .supportPrompt push => if push.owner && push.targetsThisDevice then some (.ownerScreen push.sessionId) else none
  | .autoshare sessionId => some (.ownerScreen sessionId)
  | .supportEnded sessionId => some (.ended sessionId)
  | .resume index reply => s.waiting[index]?.bind (·.info reply)
  | _ => none

/-- The service and the question for a session are as before. -/
structure Untouched (r : String) (s t : SupportPolls) : Prop where
  support : t.support = s.support
  prompt : t.activeSupportPrompt = some r ↔ s.activeSupportPrompt = some r

/-- No stop is asked for, and everything of a session is as before. -/
def Spares (r : String) (s : SupportPolls) (out : SupportOutcome) : Prop :=
  SupportEvent.stopScreenSharing ∉ out.2 ∧ Untouched r s out.1

/-- What does not concern the running session does not stop it, and unless it has another one start leaves it,
its question and its state as they are. -/
def Guarded (s : SupportPolls) (a : SupportAction) : Prop :=
  ∀ r n info, s.support.activeSessionId = some r → s.support.current = some n → s.info a = some info →
    info.Foreign s.hosted r n → ∀ out, s.step a = some out →
      SupportEvent.stopScreenSharing ∉ out.2 ∧ (a.isStart = false → Untouched r s out.1)

/-! ## Where nothing is done -/

/-- The start of an owner screen stops what runs. -/
def displaces (s : SupportPolls) (sessionId : String) : Prop :=
  s.admitsOwnerScreen sessionId = true ∧ (s.support.phase = .connecting ∨ s.support.phase = .active)

/-- A session of the server changes nothing of the session `r`: no question is put and no request is shown,
and a session that is over finds the service idle and no question for `r`. -/
def ignoresSession (s : SupportPolls) (r : String) (session : SupportSession) : Prop :=
  if session.isJoining then s.putsQuestion session = false
  else if session.isRequested then s.showsRequest session = false
  else session.isTerminal = true → s.support.phase = .idle ∧ s.activeSupportPrompt ≠ some r

/-- That there is no session changes nothing: none is requested or connects, and one that waits for consent
has an open question. -/
def ignoresNoSession (s : SupportPolls) : Prop :=
  s.support.phase ≠ .requested ∧ s.support.phase ≠ .connecting ∧
    ¬(s.support.phase = .authorizing ∧ s.activeSupportPrompt = none)

/-- The session of a request is shown already. -/
def hosts (s : SupportPolls) (sessionId : String) (active : Bool) : Prop :=
  s.support.linkHosted = true ∧ s.support.activeSessionId = some sessionId ∧
    s.support.phase = if active then .active else .authorizing

/-- A request changes nothing: it is shown as it is, or has no session yet. -/
def ignoresRequest (s : SupportPolls) (request : SosRequest) : Prop :=
  if request.isRequested then s.support.phase = .requested
  else request.isHosted = true ∧ (request.sessionId ≠ "" → s.hosts request.sessionId request.isActive)

/-- What a method has learnt changes nothing of the session `r`. -/
def ignores (s : SupportPolls) (r : String) (reply : SupportReply) : SupportWaiting → Prop
  | .current _ =>
    match reply.session with
    | some session => s.ignoresSession r session
    | none => s.ignoresNoSession
  | .sosRequest requestId _ =>
    s.sosRequestId = some requestId → reply.failed = false ∧ s.ignoresRequest reply.request
  | .stopped _ _ => s.activeSupportPrompt ≠ some r
  | _ => False

/-- A step finds the fields such that it changes nothing of the session `r`. -/
def leaves (s : SupportPolls) (r : String) : SupportAction → Prop
  | .supportPrompt push => ¬s.displaces push.sessionId
  | .autoshare sessionId => ¬s.displaces sessionId
  | .resume index reply => ∀ w, s.waiting[index]? = some w → s.mayResume w = true → s.ignores r reply w
  | _ => False

/-- Whenever a step is told what does not concern the running session, it finds the fields such that it does
nothing. -/
def ForeignIgnored (s : SupportPolls) (a : SupportAction) : Prop :=
  ∀ r n info, s.support.activeSessionId = some r → s.support.current = some n → s.info a = some info →
    info.Foreign s.hosted r n → s.leaves r a

/-! ## Commands -/

variable {s : SupportPolls} {r : String}

theorem untouched_refl (s : SupportPolls) : Untouched r s s := ⟨rfl, Iff.rfl⟩

theorem spares_nothing (s : SupportPolls) : Spares r s (s, []) := ⟨List.not_mem_nil, untouched_refl s⟩

theorem not_spares_stop (t : SupportPolls) : ¬Spares r s (t, [.stopScreenSharing]) := fun h =>
    h.1 (List.mem_singleton_self _)

variable (sessionId : String)

@[simp] theorem phase_setRequested : (s.command (.setRequested sessionId)).support.phase = .requested := rfl

@[simp] theorem activeSessionId_setAuthorizing (owner : Bool) :
    (s.command (.setAuthorizing sessionId owner)).support.activeSessionId = some sessionId := rfl

@[simp] theorem prompt_command (a : CaptureAction) :
    (s.command a).activeSupportPrompt = s.activeSupportPrompt := rfl

theorem setLinkHostedSession_eq_self (active : Bool) :
    (s.command (.setLinkHostedSession sessionId active)).support = s.support ↔ s.hosts sessionId active := by
  have hcommand : (s.command (.setLinkHostedSession sessionId active)).support =
      s.support.setLinkHostedSession sessionId active := rfl
  rw [hcommand]
  by_cases hshown : s.hosts sessionId active
  · exact iff_of_true (if_pos hshown) hshown
  · refine iff_of_false (fun h => hshown ?_) hshown
    have hother : s.support.setLinkHostedSession sessionId active =
        { s.support.setSession sessionId (if active then .active else .authorizing) with
          ownerSession := false, linkHosted := true } := if_neg hshown
    rw [hother] at h
    have hlinked := congrArg Capture.linkHosted h
    have hactive := congrArg Capture.activeSessionId h
    have hphase := congrArg Capture.phase h
    exact ⟨hlinked.symm, hactive.symm, hphase.symm⟩

theorem startOwnerScreen_stops :
    SupportEvent.stopScreenSharing ∉ (s.startOwnerScreen sessionId).2 ↔ ¬s.displaces sessionId := by
  unfold startOwnerScreen displaces
  by_cases hadmits : s.admitsOwnerScreen sessionId = true
  · by_cases hlive : s.support.phase = .connecting ∨ s.support.phase = .active
    · simp [hadmits, hlive, stopAnd]
    · simp [hadmits, hlive]
  · simp [hadmits]

theorem spares_onSession (hrunning : s.support.activeSessionId = some r) (requested : ℕ)
    (session : SupportSession) : Spares r s (s.onSession requested session) ↔ s.ignoresSession r session := by
  unfold onSession ignoresSession
  split_ifs with hjoining hputs hrequested hshows hterminal hphase
  · -- The question is put: it is a new one for `r`, or the session is no more `r`.
    refine iff_of_false (fun h => ?_) (by simp [hputs])
    have hactive := congrArg Capture.activeSessionId h.2.support
    have hsame : session.sessionId = r := by
      simpa [hrunning] using hactive
    have hnone : s.activeSupportPrompt = none := by
      simp only [putsQuestion, Bool.and_eq_true, decide_eq_true_eq] at hputs
      exact hputs.1.1.1.2
    have hprompt := h.2.prompt
    simp [hsame, hnone] at hprompt
  · exact iff_of_true (spares_nothing s) (by simpa using hputs)
  · refine iff_of_false (fun h => ?_) (by simp [hshows])
    have hphase := congrArg Capture.phase h.2.support
    simp only [showsRequest, Bool.and_eq_true, decide_eq_true_eq] at hshows
    exact hshows.1.2 hphase.symm
  · exact iff_of_true (spares_nothing s) (by simpa using hshows)
  · exact iff_of_false (not_spares_stop _) fun h => hphase (h hterminal).1
  · have hidle : s.support.phase = .idle := not_not.mp hphase
    constructor
    · intro h _
      have hprompt := h.2.prompt
      exact ⟨hidle, fun heq => by simp [heq] at hprompt⟩
    · intro h
      have hother := (h hterminal).2
      exact ⟨List.not_mem_nil, rfl, by simp [hother]⟩
  · exact iff_of_true (spares_nothing s) fun h => absurd h hterminal

theorem spares_onNoSession (requested : ℕ) : Spares r s (s.onNoSession requested) ↔ s.ignoresNoSession := by
  unfold onNoSession ignoresNoSession
  split_ifs with hphase hopen
  · refine iff_of_false (not_spares_stop _) fun h => ?_
    exact hphase.elim h.1 h.2.1
  · exact iff_of_false (not_spares_stop _) fun h => h.2.2 hopen
  · obtain ⟨hrequested, hconnecting⟩ := not_or.mp hphase
    exact iff_of_true (spares_nothing s) ⟨hrequested, hconnecting, hopen⟩

theorem spares_onRequest (requestId : String) (request : SosRequest) :
    Spares r s (s.onRequest requestId request) ↔ s.ignoresRequest request := by
  unfold onRequest ignoresRequest
  split_ifs with hrequested hphase hhosted hgiven
  · refine iff_of_false (fun h => ?_) hphase
    have hnext := congrArg Capture.phase h.2.support
    exact hphase hnext.symm
  · exact iff_of_true (spares_nothing s) (not_not.mp hphase)
  · have hsame := s.setLinkHostedSession_eq_self request.sessionId request.isActive
    constructor
    · exact fun h => ⟨hhosted, fun _ => hsame.mp h.2.support⟩
    · exact fun h => ⟨List.not_mem_nil, hsame.mpr (h.2 hgiven), Iff.rfl⟩
  · exact iff_of_true (spares_nothing s) ⟨hhosted, fun h => absurd h hgiven⟩
  · exact iff_of_false (not_spares_stop _) fun h => hhosted h.1

theorem spares_onSosRequest {requestId : String} {reply : SupportReply}
    (htold : reply.failed = true → reply.isGone = true) :
    Spares r s (s.onSosRequest requestId reply) ↔
      (s.sosRequestId = some requestId → reply.failed = false ∧ s.ignoresRequest reply.request) := by
  unfold onSosRequest
  split_ifs with hother hfailed hgone
  · exact iff_of_true (spares_nothing s) fun h => absurd h hother
  · refine iff_of_false (not_spares_stop _) fun h => ?_
    have hanswered := (h (not_not.mp hother)).1
    simp [hanswered] at hfailed
  · exact absurd (htold hfailed) hgone
  · have hours : s.sosRequestId = some requestId := not_not.mp hother
    have hanswered : reply.failed = false := by simpa using hfailed
    rw [spares_onRequest requestId reply.request]
    simp [hours, hanswered]

theorem spares_closePrompt (info : Option SupportInfo) :
    Spares r s (s.stopOver (.closePrompt info), []) ↔ s.activeSupportPrompt ≠ some r := by
  have hclosed : (s.stopOver (.closePrompt info)).activeSupportPrompt = none := by cases info <;> rfl
  have hsupport : (s.stopOver (.closePrompt info)).support = s.support := by cases info <;> rfl
  constructor
  · intro h heq
    have hprompt := h.2.prompt
    simp [hclosed, heq] at hprompt
  · intro h
    exact ⟨List.not_mem_nil, hsupport, by simp [hclosed, h]⟩

theorem spares_resume (hrunning : s.support.activeSessionId = some r)
    {reply : SupportReply} {w : SupportWaiting} {info : SupportInfo} (hinfo : w.info reply = some info) :
    Spares r s (s.resume reply w) ↔ s.ignores r reply w := by
  cases w with
  | current requested =>
    have hanswered : reply.failed = false := by
      simp only [SupportWaiting.info] at hinfo
      by_contra hfailed
      simp [hfailed] at hinfo
    simp only [resume, onCurrent, hanswered, Bool.false_eq_true, if_false, ignores]
    cases reply.session with
    | none => exact s.spares_onNoSession requested
    | some session => exact spares_onSession hrunning requested session
  | sosRequest =>
    refine spares_onSosRequest fun hfailed => ?_
    by_contra hgone
    simp [SupportWaiting.info, hfailed, hgone] at hinfo
  | stopped own next =>
    cases next with
    | closePrompt told => exact s.spares_closePrompt told
    | ownerScreen => cases hinfo
  | ownerActivation sessionId =>
    have hfailed : reply.failed = true := by
      by_contra hanswered
      simp [SupportWaiting.info, hanswered] at hinfo
    have hstop : s.resume reply (.ownerActivation sessionId) = s.stop := by simp [resume, ownerActivated, hfailed]
    rw [hstop]
    exact iff_of_false (not_spares_stop _) id
  | ownerStart sessionId start =>
    have hfailed : reply.failed = true := by
      by_contra hanswered
      simp [SupportWaiting.info, hanswered] at hinfo
    have hstop : s.resume reply (.ownerStart sessionId start) = s.stop := by simp [resume, hfailed]
    rw [hstop]
    exact iff_of_false (not_spares_stop _) id
  | _ => cases hinfo

theorem guarded_of_startOwnerScreen {a : SupportAction} {sessionId : String} (hstart : a.isStart = true)
    (hstep : s.step a = some (s.startOwnerScreen sessionId))
    (hleaves : ∀ r, s.leaves r a ↔ ¬s.displaces sessionId) : s.Guarded a ↔ s.ForeignIgnored a := by
  refine forall_congr' fun r => forall_congr' fun n => forall_congr' fun info => forall_congr' fun _ =>
    forall_congr' fun _ => forall_congr' fun _ => forall_congr' fun _ => ?_
  rw [hstep, hleaves r, ← s.startOwnerScreen_stops sessionId]
  constructor
  · exact fun h => (h _ rfl).1
  · rintro h out hs
    cases hs
    exact ⟨h, fun hno => absurd hstart (by simp [hno])⟩

theorem guarded_iff_foreignIgnored (s : SupportPolls) (a : SupportAction) : s.Guarded a ↔ s.ForeignIgnored a := by
  cases a with
  | supportPrompt push =>
    by_cases hours : push.owner = true ∧ push.targetsThisDevice = true
    · have hstep : s.step (.supportPrompt push) = some (s.startOwnerScreen push.sessionId) := by
        simp [step, onSupportPrompt, hours.1, hours.2]
      exact guarded_of_startOwnerScreen rfl hstep fun _ => Iff.rfl
    · have hnothing : s.info (.supportPrompt push) = none := by simpa [info] using hours
      constructor <;> exact fun _ r n told _ _ htold => nomatch hnothing.symm.trans htold
  | autoshare => exact guarded_of_startOwnerScreen rfl rfl fun _ => Iff.rfl
  | supportEnded =>
    refine forall_congr' fun r => forall_congr' fun n => forall_congr' fun told => forall_congr' fun _ =>
      forall_congr' fun _ => forall_congr' fun _ => forall_congr' fun _ => ?_
    refine iff_of_false (fun h => ?_) id
    exact (h _ rfl).1 (List.mem_singleton_self _)
  | resume index reply =>
    refine forall_congr' fun r => forall_congr' fun n => forall_congr' fun told => forall_congr' fun hrunning =>
      forall_congr' fun _ => forall_congr' fun htold => forall_congr' fun _ => ?_
    obtain ⟨w, hw, hinfo⟩ := Option.bind_eq_some_iff.mp htold
    have hspares := spares_resume (s := { s with waiting := s.waiting.eraseIdx index }) hrunning hinfo
    by_cases hmay : s.mayResume w = true
    · have hstep : s.step (.resume index reply) =
          some ({ s with waiting := s.waiting.eraseIdx index }.resume reply w) := by
        simp [step, hw, hmay]
      rw [hstep]
      constructor
      · rintro h w' hw' -
        cases hw.symm.trans hw'
        have hkept := h _ rfl
        have huntouched := hkept.2 rfl
        exact hspares.mp ⟨hkept.1, huntouched.support, huntouched.prompt⟩
      · rintro h out hs
        cases hs
        have hkept := hspares.mpr (h w hw hmay)
        exact ⟨hkept.1, fun _ => ⟨hkept.2.support, hkept.2.prompt⟩⟩
    · refine iff_of_true (fun out hs => ?_) fun w' hw' hmay' => ?_
      · simp [step, hw, hmay] at hs
      · cases hw.symm.trans hw'
        exact absurd hmay' hmay
  | _ => constructor <;> exact fun _ r n told _ _ htold => nomatch htold

end SupportPolls

/-- In a run nothing that does not concern the running session stops or changes it exactly when every step
that is told of something else finds the fields such that it does nothing. -/
theorem support_session_kept (as : List SupportAction) : supportPolls.Every (fun s _ a => s.Guarded a)
      {} [] as ↔ supportPolls.Every (fun s _ a => s.ForeignIgnored a) {} [] as :=
  Machine.every_iff (fun _ _ => True) (fun _ _ _ _ _ _ _ _ => trivial)
    (fun s _ a _ => s.guarded_iff_foreignIgnored a) as _ [] trivial

/-- The user is asked about the session `b`, and a message says that `a` has ended: the service is stopped and
the question is closed. -/
theorem ended_by_other_session : ¬∀ as, supportPolls.Every (fun s _ a => s.Guarded a) {} [] as := by
  intro h
  let as : List SupportAction := [.supportPrompt ⟨"b", false, false⟩]
  have hcheck : (supportPolls.exec (fun _ _ _ => true) {} [] as).any (fun r =>
      r.1.support.activeSessionId = some "b" && r.1.support.current = some 1) = true := by
    decide +kernel
  obtain ⟨s, es, hpath, hs⟩ := Machine.path_of_check hcheck
  simp only [Bool.and_eq_true, decide_eq_true_eq] at hs
  have hguarded : s.Guarded (.supportEnded (some "a")) := (h (as ++ [_])).good hpath
  have hforeign : (SupportInfo.ended (some "a")).Foreign s.hosted "b" 1 := ⟨"a", rfl, by decide⟩
  have hkept := hguarded "b" 1 _ hs.1 hs.2 rfl hforeign _ rfl
  exact hkept.1 (List.mem_singleton_self _)

end LigamentApps.AuthState
