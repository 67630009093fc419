import LigamentApps.AuthState.Prompts

/-!
# Whose check a browser sign-on is approved by

The ticket and the result of the machine check are kept in fields that all browser sign-ons share: a surfacing
writes them, and an approval reads them. What an approval finds there is what the last surfacing has found,
which is that of the approved challenge itself only if no other challenge was surfaced after it. -/

namespace LigamentApps.AuthState

variable (data : BrowserSsoPrompt) (caller : Option PendingAnswer) (s : Prompts)

/-- What a check allows to send: the ticket, if it is there and the machine matches. -/
def SsoCheck.outcome (check : SsoCheck) : Option String :=
  if check.machineMatches && isGiven check.ticket then check.ticket else none

/-- What a decision sends: the ticket of an approval. -/
def SentDecision.outcome (decision : SentDecision) : Option String :=
  if decision.approve then decision.ssoTicket else none

/-- The last check of one challenge, in a record that has the last one first. -/
def ownCheck (checks : List SsoCheck) (id : String) : Option SsoCheck := checks.find? fun check => check.id = id

/-- A decision to approve is sent with what the check of the challenge itself has found, and is sent as an
approval only if its machine matches and its surfacing has read a ticket. -/
structure OwnChecked (checks : List SsoCheck) (decision : SentDecision) : Prop where
  approved : decision.approve = true →
    ∃ check, ownCheck checks decision.challengeId = some check ∧ check.machineMatches = true ∧
      isGiven check.ticket = true
  outcome : decision.outcome = (ownCheck checks decision.challengeId).bind (·.outcome)

/-- The fields that the surfacings share, with the record of the checks. -/
structure SsoFields where
  ticket : Option String
  hasTicket : Bool
  machineOk : Bool
  checks : List SsoCheck

namespace SsoFields

/-- What the fields allow to send. -/
def outcome (fields : SsoFields) : Option String :=
  if fields.hasTicket && fields.machineOk then fields.ticket else none

structure OfLast (fields : SsoFields) : Prop where
  hasTicket : fields.hasTicket = isGiven fields.ticket
  last : fields.outcome = fields.checks.head?.bind (·.outcome)

theorem ofLast_keep (check : SsoCheck) (checks : List SsoCheck) :
    OfLast ⟨check.ticket, isGiven check.ticket, check.machineMatches, check :: checks⟩ := by
  refine ⟨rfl, ?_⟩
  simp [outcome, SsoCheck.outcome, Bool.and_comm]

end SsoFields

namespace Prompts

def ssoFields (s : Prompts) : SsoFields :=
  ⟨s.browserSsoTicket, s.browserSsoHasTicket, s.browserSsoMachineOk, s.checks⟩

def lastCheck (s : Prompts) : Option SsoCheck := s.checks.head?

/-- Whatever is sent to approve is checked by its own check. -/
def Bound (s : Prompts) (a : PromptAction) : Prop :=
  a ≠ .resolveBrowserSso false → ∀ r, s.step a = some r → ∀ decision ∈ r.2, OwnChecked r.1.checks decision

/-- Where the user approves, the last check of all has found what the last check of the active challenge has
found. -/
def LastIsOwn (s : Prompts) (a : PromptAction) : Prop :=
  a = .resolveBrowserSso true → ∀ data, s.activeBrowserSsoPrompt = some data →
    s.lastCheck.bind (·.outcome) = (ownCheck s.checks data.id).bind (·.outcome)

/-! ## The fields after the parts of a step -/

theorem ssoFields_goOn : (s.goOn caller).ssoFields = s.ssoFields := by
  cases caller <;> rfl

theorem ssoFields_surfaceBrowserSso (raw : RawChallenge) (s : Prompts) :
    (s.surfaceBrowserSso raw).ssoFields = s.ssoFields := by
  unfold surfaceBrowserSso
  split <;> rfl

theorem ssoFields_surfaceSignIn (prompt : Prompt) (s : Prompts) :
    (s.surfaceSignIn prompt).ssoFields = s.ssoFields := by
  unfold surfaceSignIn
  split <;> rfl

theorem ssoFields_surfacePrompt (raw : RawChallenge) (s : Prompts) :
    (s.surfacePrompt raw).ssoFields = s.ssoFields := by
  unfold surfacePrompt
  split
  · exact ssoFields_surfaceBrowserSso raw s
  · exact ssoFields_surfaceSignIn _ s

theorem ssoFields_dismissPrompt (challengeId : Option String) (s : Prompts) :
    (s.dismissPrompt challengeId).ssoFields = s.ssoFields := by
  simp only [dismissPrompt, addResolved]
  split_ifs <;> rfl

theorem ssoFields_handleChallengeResolved (challengeId attemptId : Option String) (s : Prompts) :
    (s.handleChallengeResolved challengeId attemptId).ssoFields = s.ssoFields := by
  simp only [handleChallengeResolved, addResolved, loadPendingChallenges, await]
  by_cases hid : isGiven challengeId = true <;> by_cases hattempt : isGiven attemptId = true <;>
    simp only [hid, hattempt, if_true] <;> rfl

theorem ssoFields_close (challengeId : String) (s : Prompts) : (s.close challengeId).ssoFields = s.ssoFields := by
  simp only [close, addResolved]
  split_ifs <;> rfl

theorem ssoFields_restored (decision : Decision) (s : Prompts) : (s.restored decision).ssoFields = s.ssoFields := by
  simp only [restored]
  split_ifs <;> rfl

theorem ssoFields_decided (decision : Decision) (reply : PromptReply) (s : Prompts) :
    (s.decided decision reply).ssoFields = s.ssoFields := by
  unfold decided
  split
  · split
    · exact s.ssoFields_close decision.challengeId
    · exact s.ssoFields_restored decision
  · exact s.ssoFields_close decision.challengeId

theorem ssoFields_browserSsoDecided (failed : Bool) (s : Prompts) :
    (s.browserSsoDecided data caller failed).ssoFields = s.ssoFields := by
  simp only [browserSsoDecided]
  split_ifs <;> exact ssoFields_goOn caller _

theorem ssoFields_pendingEnds (answer : PendingAnswer) (s : Prompts) :
    (s.pendingEnds answer).ssoFields = s.ssoFields := by
  unfold pendingEnds
  split
  · rfl
  · split
    · rfl
    · exact ssoFields_surfaceSignIn _ _

theorem ssoFields_pendingGoesOn (answer : PendingAnswer) (s : Prompts) :
    (s.pendingGoesOn answer).ssoFields = s.ssoFields := by
  unfold pendingGoesOn
  split
  · exact s.ssoFields_pendingEnds answer
  · exact s.ssoFields_pendingEnds answer
  · split <;> rfl

theorem ssoFields_pendingAnswered (requested : ℕ) (reply : PromptReply) (s : Prompts) :
    (s.pendingAnswered requested reply).ssoFields = s.ssoFields := by
  unfold pendingAnswered
  split
  · rfl
  · exact ssoFields_pendingGoesOn _ _

/-! ## What is sent -/

theorem outcome_ssoFields : s.ssoFields.outcome = if s.useApprove true then s.browserSsoTicket else none := by
  unfold useApprove
  rw [Bool.true_and]
  rfl

theorem outcome_resolveBrowserSso : ∀ decision ∈ (s.resolveBrowserSso true data caller).2,
      decision.challengeId = data.id ∧ decision.outcome = s.ssoFields.outcome := by
  intro decision hdecision
  obtain rfl := List.mem_singleton.mp hdecision
  refine ⟨rfl, ?_⟩
  rw [outcome_ssoFields]
  unfold SentDecision.outcome
  split_ifs <;> rfl

theorem outcome_of_approve {data : BrowserSsoPrompt} {caller : Option PendingAnswer} {s : Prompts}
    (hlast : s.ssoFields.OfLast) :
    ∀ decision ∈ (s.resolveBrowserSso true data caller).2, decision.approve = true →
      ∃ ticket, decision.outcome = some ticket := by
  intro decision hdecision happrove
  obtain rfl := List.mem_singleton.mp hdecision
  have hticket : isGiven s.browserSsoTicket = true := by
    have hhas : s.browserSsoHasTicket = isGiven s.browserSsoTicket := hlast.hasTicket
    rw [← hhas]
    simp only [useApprove, Bool.true_and, Bool.and_eq_true] at happrove
    exact happrove.1
  obtain ⟨ticket, hsome, -⟩ := (Option.any_eq_true ..).mp hticket
  refine ⟨ticket, ?_⟩
  have huse : s.useApprove true = true := happrove
  simp [SentDecision.outcome, huse, hsome]

theorem passed_of_outcome {check : SsoCheck} {ticket : String} (h : check.outcome = some ticket) :
    check.machineMatches = true ∧ isGiven check.ticket = true := by
  unfold SsoCheck.outcome at h
  split at h
  · rename_i hboth
    rwa [Bool.and_eq_true] at hboth
  · exact nomatch h

theorem ownChecked_iff {s : Prompts} (hlast : s.ssoFields.OfLast) :
    (∀ decision ∈ (s.resolveBrowserSso true data caller).2, OwnChecked s.checks decision) ↔
      s.ssoFields.outcome = (ownCheck s.checks data.id).bind (·.outcome) := by
  constructor
  · intro h
    have hmem := List.mem_singleton_self
      (⟨data.id, s.useApprove true, if s.useApprove true then s.browserSsoTicket else none⟩ : SentDecision)
    obtain ⟨-, hsent⟩ := outcome_resolveBrowserSso data caller s _ hmem
    rw [← hsent]
    exact (h _ hmem).outcome
  · intro h decision hdecision
    obtain ⟨hid, hsent⟩ := outcome_resolveBrowserSso data caller s decision hdecision
    have houtcome : decision.outcome = (ownCheck s.checks decision.challengeId).bind (·.outcome) := by
      rw [hid, hsent, h]
    refine ⟨fun happrove => ?_, houtcome⟩
    obtain ⟨ticket, hticket⟩ := outcome_of_approve hlast decision hdecision happrove
    rw [hticket] at houtcome
    obtain ⟨check, hcheck, hallows⟩ := Option.bind_eq_some_iff.mp houtcome.symm
    exact ⟨check, hcheck, passed_of_outcome hallows⟩

theorem ticketRead_checked (prompt : BrowserSsoPrompt) (caller : Option PendingAnswer)
    (ticket : Option String) (s : Prompts) :
    (s.ticketRead prompt caller ticket).1.ssoFields.OfLast ∧
      ∀ decision ∈ (s.ticketRead prompt caller ticket).2,
        OwnChecked (s.ticketRead prompt caller ticket).1.checks decision := by
  have hlast : (s.keepCheck prompt ticket).ssoFields.OfLast :=
    SsoFields.ofLast_keep ⟨prompt.id, ticket, prompt.machineMatches⟩ s.checks
  unfold ticketRead
  dsimp only
  split
  · -- The check of this challenge is the last one.
    have hown : ownCheck (s.keepCheck prompt ticket).checks prompt.id =
        some ⟨prompt.id, ticket, prompt.machineMatches⟩ := by
      simp [ownCheck, keepCheck]
    refine ⟨hlast, (ownChecked_iff prompt caller hlast).mpr ?_⟩
    rw [hown]
    exact hlast.last
  · refine ⟨?_, nofun⟩
    rw [ssoFields_goOn]
    exact hlast

theorem ofLast_resume {waiting : Waiting} {reply : PromptReply} {s : Prompts} (hlast : s.ssoFields.OfLast) :
    (s.resume waiting reply).1.ssoFields.OfLast ∧
      ∀ decision ∈ (s.resume waiting reply).2, OwnChecked (s.resume waiting reply).1.checks decision := by
  cases waiting with
  | pending requested =>
    have hsame := s.ssoFields_pendingAnswered requested reply
    exact ⟨hsame ▸ hlast, nofun⟩
  | pendingGoesOn answer =>
    have hsame := s.ssoFields_pendingGoesOn answer
    exact ⟨hsame ▸ hlast, nofun⟩
  | ticket prompt caller => exact s.ticketRead_checked prompt caller reply.ticket
  | browserSsoDecision prompt caller =>
    have hsame := s.ssoFields_browserSsoDecided prompt caller reply.failed
    exact ⟨hsame ▸ hlast, nofun⟩
  | decision decision =>
    have hsame := s.ssoFields_decided decision reply
    exact ⟨hsame ▸ hlast, nofun⟩

theorem ofLast_step {s : Prompts} {a : PromptAction} {r : PromptOutcome} (hlast : s.ssoFields.OfLast)
    (hs : s.step a = some r) : r.1.ssoFields.OfLast := by
  unfold step at hs
  cases a with
  | prompt raw =>
    cases hs
    have hsame := ssoFields_surfacePrompt raw { s with steps := s.steps + 1 }
    exact hsame ▸ hlast
  | browserSso raw =>
    cases hs
    have hsame := ssoFields_surfaceBrowserSso raw { s with steps := s.steps + 1 }
    exact hsame ▸ hlast
  | challengeResolved challengeId attemptId =>
    cases hs
    have hsame := ssoFields_handleChallengeResolved challengeId attemptId { s with steps := s.steps + 1 }
    exact hsame ▸ hlast
  | dismissPrompt challengeId =>
    cases hs
    have hsame := ssoFields_dismissPrompt challengeId { s with steps := s.steps + 1 }
    exact hsame ▸ hlast
  | submitDecision | setBrowserSsoAutoApprove | outboundStepUp | poll | elapse =>
    cases hs
    exact hlast
  | resolveBrowserSso =>
    cases hs
    cases s.activeBrowserSsoPrompt <;> exact hlast
  | resume index =>
    simp only [act] at hs
    obtain ⟨waiting, -, rfl⟩ := Option.map_eq_some_iff.mp hs
    exact (ofLast_resume (s := { s with steps := s.steps + 1, waiting := s.waiting.eraseIdx index }) hlast).1

theorem bound_of_not_user {s : Prompts} {a : PromptAction} (hlast : s.ssoFields.OfLast)
    (huser : ∀ approve, a ≠ .resolveBrowserSso approve) : s.Bound a := by
  intro _ r hs
  unfold step at hs
  cases a with
  | resolveBrowserSso approve => exact absurd rfl (huser approve)
  | resume index =>
    simp only [act] at hs
    obtain ⟨waiting, -, rfl⟩ := Option.map_eq_some_iff.mp hs
    exact (ofLast_resume (s := { s with steps := s.steps + 1, waiting := s.waiting.eraseIdx index }) hlast).2
  | _ =>
    cases hs
    exact nofun

theorem bound_iff_lastIsOwn {s : Prompts} (hlast : s.ssoFields.OfLast) (a : PromptAction) :
    s.Bound a ↔ s.LastIsOwn a := by
  by_cases huser : ∃ approve, a = .resolveBrowserSso approve
  · obtain ⟨approve, rfl⟩ := huser
    cases approve with
    | false => exact iff_of_true (fun h => absurd rfl h) nofun
    | true =>
      have hfields : s.ssoFields.outcome = s.lastCheck.bind (·.outcome) := hlast.last
      unfold Bound LastIsOwn
      simp only [ne_eq, PromptAction.resolveBrowserSso.injEq, Bool.true_eq_false, not_false_eq_true,
        forall_const, step, act, Option.some.injEq, forall_eq']
      cases s.activeBrowserSsoPrompt with
      | none => simp
      | some data =>
        simp only [Option.some.injEq, forall_eq']
        rw [← hfields]
        exact ownChecked_iff data none hlast
  · have hother : ∀ approve, a ≠ .resolveBrowserSso approve := fun approve heq => huser ⟨approve, heq⟩
    exact iff_of_true (bound_of_not_user hlast hother) fun heq => absurd heq (hother true)

end Prompts

/-- In a run every approval of a browser sign-on is sent by the check of its own challenge exactly when the
last check before each approval of the user has found what the check of the approved challenge has. -/
theorem approvals_bound (as : List PromptAction) : promptMachine.Every (fun s _ a => s.Bound a) {} [] as ↔
      promptMachine.Every (fun s _ a => s.LastIsOwn a) {} [] as :=
  Machine.every_iff (fun s _ => s.ssoFields.OfLast) (fun _ _ _ _ _ hlast _ hs => Prompts.ofLast_step hlast hs)
    (fun _ _ a hlast => Prompts.bound_iff_lastIsOwn hlast a) as _ [] ⟨rfl, rfl⟩

/-- In every run the fields that the surfacings share are those of the last check. -/
theorem fields_of_last_check (as : List PromptAction) :
    promptMachine.Every (fun s _ _ => s.ssoFields.OfLast) {} [] as :=
  Machine.every_of_reach (fun hrun => hrun.invariant (fun s _ => s.ssoFields.OfLast) ⟨rfl, rfl⟩
    fun _ _ _ _ _ hlast _ hs => Prompts.ofLast_step hlast hs) as .start

/-- The sign-on `b` claims another machine. Its denial is on the way when `a`, of this machine, comes up and
is approved; then the denial fails, `b` is shown again, and an approval of it is sent with the ticket that was
read for `a`. -/
theorem approved_by_other_check : ¬∀ as, promptMachine.Every (fun s _ a => s.Bound a) {} [] as := by
  intro h
  let a : RawChallenge := { id := some "a", type := some "browser_sso", machineMatches := true, expiresAt := some 1 }
  let b : RawChallenge := { id := some "b", type := some "browser_sso", expiresAt := some 1 }
  let as : List PromptAction := [.browserSso b, .resume 0 { ticket := some "t" }, .resolveBrowserSso false,
    .browserSso a,
    .resume 2 { ticket := some "t" }, .resolveBrowserSso true, .resume 3 {}, .resume 1 { failed := true }]
  have hcheck : (promptMachine.exec (fun _ _ _ => true) {} [] as).any (fun r =>
      r.1.activeBrowserSsoPrompt.any (·.id = "b") &&
        r.1.checks = [⟨"a", some "t", true⟩, ⟨"b", some "t", false⟩] && r.1.browserSsoHasTicket &&
        r.1.browserSsoMachineOk && r.1.browserSsoTicket = some "t") = true := by
    decide +kernel
  obtain ⟨s, es, hpath, hs⟩ := Machine.path_of_check hcheck
  simp only [Bool.and_eq_true, decide_eq_true_eq] at hs
  obtain ⟨⟨⟨⟨hactive, hchecks⟩, hhas⟩, hmachine⟩, hticket⟩ := hs
  obtain ⟨data, hdata, hid⟩ := (Option.any_eq_true ..).mp hactive
  have hlast : s.ssoFields.OfLast := by
    constructor <;> simp [Prompts.ssoFields, SsoFields.outcome, SsoCheck.outcome, hchecks, hhas, hmachine,
      hticket, isGiven]
  have hbound : s.Bound (.resolveBrowserSso true) := (h (as ++ [_])).good hpath
  have hown := (Prompts.bound_iff_lastIsOwn hlast (.resolveBrowserSso true)).mp hbound rfl data hdata
  have hsent : s.lastCheck.bind (·.outcome) = some "t" := by
    simp [Prompts.lastCheck, hchecks, SsoCheck.outcome, isGiven]
  have hnothing : (ownCheck s.checks data.id).bind (·.outcome) = none := by
    have hname : data.id = "b" := of_decide_eq_true hid
    simp [ownCheck, hchecks, SsoCheck.outcome, hname]
  rw [hsent, hnothing] at hown
  exact nomatch hown

end LigamentApps.AuthState
