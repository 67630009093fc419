import LigamentApps.AuthState.Prompts

/-!
# Challenges that do not disturb each other

An event that concerns one challenge should leave the active prompts of the others alone, and a challenge that
the server has reported as resolved should not become the active one again. Both are statements about a slot
that may hold a prompt, before and after a step; the conditions say for each event what it must find for them
to hold. -/

namespace LigamentApps.AuthState

variable {t : Prompts} (challengeId : String) (decision : Decision) (s : Prompts)

/-! ## Slots -/

/-- What becomes of a slot: a prompt that the event is not about stays, by its key, and what comes into the
slot was not reported. -/
structure SlotKept {β : Type} (key : β → Option String) (about reported : β → Prop) (old new : Option β) :
    Prop where
  stays : ∀ held, old = some held → ¬about held → ∃ kept, new = some kept ∧ key kept = key held
  opens : ∀ opened, new = some opened → (∀ held, old = some held → key held ≠ key opened) → ¬reported opened

section Slot

variable {β : Type} {key : β → Option String} {about reported : β → Prop} {old : Option β}

theorem slotKept_self (old : Option β) : SlotKept key about reported old old :=
  ⟨fun held hheld _ => ⟨held, hheld, rfl⟩, fun opened hopened hother => absurd rfl (hother opened hopened)⟩

theorem slotKept_none_iff : SlotKept key about reported old none ↔ ∀ held, old = some held → about held := by
  constructor
  · intro h held hheld
    by_contra hother
    obtain ⟨kept, hkept, -⟩ := h.stays held hheld hother
    exact nomatch hkept
  · exact fun h => ⟨fun held hheld hother => absurd (h held hheld) hother, nofun⟩

theorem slotKept_fill_iff (prompt : β) : SlotKept key about reported none (some prompt) ↔ ¬reported prompt := by
  constructor
  · exact fun h => h.opens prompt rfl nofun
  · intro h
    refine ⟨nofun, fun opened hopened _ => ?_⟩
    rwa [← Option.some.inj hopened]

theorem slotKept_refill_iff (held prompt : β) : SlotKept key about reported (some held) (some prompt) ↔
      key held = key prompt ∨ about held ∧ ¬reported prompt := by
  constructor
  · intro h
    by_cases hkey : key held = key prompt
    · exact .inl hkey
    · have hfresh : ¬reported prompt := h.opens prompt rfl fun other hother => Option.some.inj hother ▸ hkey
      refine .inr ⟨?_, hfresh⟩
      by_contra hother
      obtain ⟨kept, hkept, hsame⟩ := h.stays held rfl hother
      rw [← Option.some.inj hkept] at hsame
      exact hkey hsame.symm
  · intro h
    constructor
    · intro other hother hnot
      cases hother
      exact ⟨prompt, rfl, (h.resolve_right fun hr => hnot hr.1).symm⟩
    · intro opened hopened hdiffers
      cases hopened
      exact (h.resolve_left (hdiffers held rfl)).2

end Slot

/-! ## What an event is about -/

/-- Whether what a method waits for is about a sign-in prompt: a list of the pending challenges is about those
that were active when it was asked for. -/
def Waiting.AboutPrompt (prompt : Prompt) : Waiting → Prop
  | .pending requested => prompt.since ≤ requested
  | .pendingGoesOn answer => prompt.since ≤ answer.requested
  | .decision made => prompt.challengeId = some made.challengeId
  | _ => False

/-- Whether what a method waits for is about a browser sign-on prompt. -/
def Waiting.AboutBrowserSso (prompt : BrowserSsoPrompt) : Waiting → Prop
  | .ticket other _ => other.id = prompt.id
  | .browserSsoDecision other _ => other.id = prompt.id
  | _ => False

namespace Prompts

/-- The server has reported the challenge as resolved, by its identifier or by its attempt. -/
def Reported (s : Prompts) (challengeId attempt : Option String) : Prop :=
  (∃ id ∈ s.reportedIds, challengeId = some id) ∨ ∃ id ∈ s.reportedAttempts, attempt = some id

/-- Whether a step is about a sign-in prompt. -/
def AboutPrompt (s : Prompts) (prompt : Prompt) : PromptAction → Prop
  | .prompt raw => raw.challengeId = prompt.challengeId
  | .challengeResolved challengeId attemptId =>
    resolves challengeId attemptId prompt = true ∨ isGiven attemptId = true ∧ prompt.attempt = attemptId
  | .dismissPrompt challengeId => isGiven challengeId = true → prompt.challengeId = challengeId
  | .resume index _ => ∀ waiting, s.waiting[index]? = some waiting → waiting.AboutPrompt prompt
  | _ => False

/-- Whether a step is about a browser sign-on prompt. -/
def AboutBrowserSso (s : Prompts) (prompt : BrowserSsoPrompt) : PromptAction → Prop
  | .challengeResolved challengeId attemptId =>
    challengeId = some prompt.id ∨ isGiven attemptId = true ∧ prompt.attempt = attemptId
  | .resume index _ => ∀ waiting, s.waiting[index]? = some waiting → waiting.AboutBrowserSso prompt
  | _ => False

structure Kept (about : Prompt → Prop) (aboutSso : BrowserSsoPrompt → Prop) (s t : Prompts) : Prop where
  prompt : SlotKept (·.challengeId) about (fun p => s.Reported p.challengeId p.attempt) s.activePrompt t.activePrompt
  browserSso :
    SlotKept (fun p => some p.id) aboutSso (fun p => s.Reported (some p.id) p.attempt) s.activeBrowserSsoPrompt
      t.activeBrowserSsoPrompt

/-- A sign-in prompt is turned away, or comes up where its own challenge is active, or where none is and it
was not reported. -/
def PromptSafe (s : Prompts) (prompt : Prompt) : Prop :=
  s.refuses prompt.challengeId = true ∨
    match s.activePrompt with
    | none => ¬s.Reported prompt.challengeId prompt.attempt
    | some active => active.challengeId = prompt.challengeId

/-- A report for the active browser sign-on finds no other sign-in prompt. -/
def ReportSafe (s : Prompts) (challengeId attemptId : Option String) : Prop :=
  ∀ active, s.activePrompt = some active → (∃ sso, s.activeBrowserSsoPrompt = some sso ∧
    challengeId = some sso.id) →
    resolves challengeId attemptId active = true ∨ isGiven attemptId = true ∧ active.attempt = attemptId

variable (answer : PendingAnswer)

/-- The active sign-in prompt is that of a challenge of the list. -/
def isListed (s : Prompts) : Bool :=
  s.activePrompt.any fun active => answer.freshChallenges.any (active.challengeId = some ·.id)

/-- A list has the active challenge, or was asked for after that became the active one, and has at its head no
challenge that was reported and would be shown. -/
def ListSafe (s : Prompts) : Prop :=
  s.isListed answer = true ∨
    (∀ active, s.activePrompt = some active → active.since ≤ answer.requested) ∧
      ∀ first, answer.freshChallenges.head? = some first →
        s.refuses (some first.id) = true ∨ ¬s.Reported (some first.id) first.attempt

/-- Where `loadPendingChallenges` comes to its end in this step, its list is safe. -/
def AnswerSafe (s : Prompts) : Prop :=
  answer.browserSso = [] ∨ s.activeBrowserSsoPrompt ≠ none → s.ListSafe answer

/-- The ticket comes when no other browser sign-on is active and the challenge was not reported meanwhile, or
the challenge is approved without the user. -/
def TicketSafe (s : Prompts) (prompt : BrowserSsoPrompt) (ticket : Option String) : Prop :=
  (s.keepCheck prompt ticket).approvesAlone prompt = true ∨
    match s.activeBrowserSsoPrompt with
    | none => ¬s.Reported (some prompt.id) prompt.attempt
    | some active => active.id = prompt.id

/-- The answer of the server to `loadPendingChallenges`, as the method takes it. -/
def readAnswer (requested : ℕ) (challenges : List RawChallenge) (s : Prompts) : PendingAnswer where
  requested := requested
  freshChallenges := challenges.filterMap s.freshChallenge
  list := s.steps
  browserSso := challenges.filter s.isFreshBrowserSso

/-- What a method finds when it goes on. -/
def WaitingSafe (s : Prompts) (reply : PromptReply) : Waiting → Prop
  | .pending requested => reply.failed = false → s.AnswerSafe (s.readAnswer requested reply.challenges)
  | .pendingGoesOn answer => s.AnswerSafe answer
  | .ticket prompt _ => s.TicketSafe prompt reply.ticket
  | .browserSsoDecision prompt _ =>
    reply.failed = true → s.activeBrowserSsoPrompt = none → ¬s.Reported (some prompt.id) prompt.attempt
  | .decision decision =>
    reply.failed = true → reply.terminal = false → s.activePrompt = none →
      ∀ prompt, decision.promptSnapshot = some prompt → ¬s.Reported prompt.challengeId prompt.attempt

/-- What a step finds. -/
def Safe (s : Prompts) : PromptAction → Prop
  | .prompt raw =>
    raw.isBrowserSso = true ∨
      s.PromptSafe { challengeId := raw.challengeId, attemptId := raw.attempt, attempt := raw.attempt }
  | .challengeResolved challengeId attemptId => s.ReportSafe challengeId attemptId
  | .dismissPrompt challengeId =>
    isGiven challengeId = true → ∀ active, s.activePrompt = some active → active.challengeId = challengeId
  | .resume index reply => ∀ waiting, s.waiting[index]? = some waiting → s.WaitingSafe reply waiting
  | _ => True

variable {s : Prompts} {about : Prompt → Prop} {aboutSso : BrowserSsoPrompt → Prop}

theorem kept_of_same {t : Prompts} (hprompt : t.activePrompt = s.activePrompt)
    (hsso : t.activeBrowserSsoPrompt = s.activeBrowserSsoPrompt) : Kept about aboutSso s t := by
  constructor
  · rw [hprompt]
    exact slotKept_self _
  · rw [hsso]
    exact slotKept_self _

theorem kept_iff_prompt (hsso : t.activeBrowserSsoPrompt = s.activeBrowserSsoPrompt) : Kept about aboutSso s t ↔
      SlotKept (·.challengeId) about (fun p => s.Reported p.challengeId p.attempt) s.activePrompt t.activePrompt := by
  constructor
  · exact fun h => h.prompt
  · intro h
    refine ⟨h, ?_⟩
    rw [hsso]
    exact slotKept_self _

theorem kept_iff_browserSso (hprompt : t.activePrompt = s.activePrompt) : Kept about aboutSso s t ↔
      SlotKept (fun p => some p.id) aboutSso (fun p => s.Reported (some p.id) p.attempt) s.activeBrowserSsoPrompt
        t.activeBrowserSsoPrompt := by
  constructor
  · exact fun h => h.browserSso
  · intro h
    refine ⟨?_, h⟩
    rw [hprompt]
    exact slotKept_self _

theorem activePrompt_surfaceBrowserSso (raw : RawChallenge) (s : Prompts) :
    (s.surfaceBrowserSso raw).activePrompt = s.activePrompt := by
  unfold surfaceBrowserSso
  split <;> rfl

theorem activeSso_surfaceBrowserSso (raw : RawChallenge) (s : Prompts) :
    (s.surfaceBrowserSso raw).activeBrowserSsoPrompt = s.activeBrowserSsoPrompt := by
  unfold surfaceBrowserSso
  split <;> rfl

theorem activeSso_surfaceSignIn (prompt : Prompt) (s : Prompts) :
    (s.surfaceSignIn prompt).activeBrowserSsoPrompt = s.activeBrowserSsoPrompt := by
  unfold surfaceSignIn
  split <;> rfl

theorem surfaceSignIn_kept_iff (prompt : Prompt) :
    Kept (fun active => prompt.challengeId = active.challengeId) aboutSso s (s.surfaceSignIn prompt) ↔
      s.PromptSafe prompt := by
  rw [kept_iff_prompt (activeSso_surfaceSignIn prompt s)]
  unfold surfaceSignIn PromptSafe
  cases hrefuses : s.refuses prompt.challengeId with
  | true => exact iff_of_true (slotKept_self _) (Or.inl rfl)
  | false =>
    simp only [Bool.false_eq_true, if_false, false_or]
    cases s.activePrompt with
    | none => exact slotKept_fill_iff _
    | some =>
      refine (slotKept_refill_iff _ _).trans ?_
      constructor
      · exact fun h => h.elim id fun hr => hr.1.symm
      · exact .inl

theorem challengeResolved_kept_iff (challengeId attemptId : Option String) :
    Kept (fun p => s.AboutPrompt p (.challengeResolved challengeId attemptId))
        (fun p => s.AboutBrowserSso p (.challengeResolved challengeId attemptId)) s
        (s.handleChallengeResolved challengeId attemptId) ↔
      s.ReportSafe challengeId attemptId := by
  have hsso : SlotKept (fun p : BrowserSsoPrompt => some p.id)
      (fun p => s.AboutBrowserSso p (.challengeResolved challengeId attemptId))
      (fun p => s.Reported (some p.id) p.attempt) s.activeBrowserSsoPrompt
      (s.handleChallengeResolved challengeId attemptId).activeBrowserSsoPrompt := by
    simp only [handleChallengeResolved, loadPendingChallenges, await]
    split
    · rename_i hcloses
      rw [slotKept_none_iff]
      intro held hheld
      rw [hheld] at hcloses
      exact .inl (of_decide_eq_true hcloses)
    · exact slotKept_self _
  have hslot : Kept (fun p => s.AboutPrompt p (.challengeResolved challengeId attemptId))
        (fun p => s.AboutBrowserSso p (.challengeResolved challengeId attemptId)) s
        (s.handleChallengeResolved challengeId attemptId) ↔
      SlotKept (·.challengeId) (fun p => s.AboutPrompt p (.challengeResolved challengeId attemptId))
        (fun p => s.Reported p.challengeId p.attempt) s.activePrompt
        (s.handleChallengeResolved challengeId attemptId).activePrompt :=
    ⟨fun h => h.prompt, fun h => ⟨h, hsso⟩⟩
  rw [hslot]
  simp only [handleChallengeResolved, loadPendingChallenges, await]
  split
  · rename_i hdismiss
    rw [slotKept_none_iff]
    rw [Bool.or_eq_true] at hdismiss
    constructor
    · exact fun h active hactive _ => h active hactive
    · intro h active hactive
      rcases hdismiss with hresolves | hcloses
      · -- The report closes the sign-in prompt for itself.
        rw [hactive] at hresolves
        exact .inl hresolves
      · obtain ⟨sso, hsso, hid⟩ := (Option.any_eq_true ..).mp hcloses
        exact h active hactive ⟨sso, hsso, of_decide_eq_true hid⟩
  · rename_i hstays
    refine iff_of_true (slotKept_self _) fun active _ hcloses => ?_
    obtain ⟨sso, hsso, hid⟩ := hcloses
    simp [hsso, hid] at hstays

theorem dismissPrompt_kept_iff (challengeId : Option String) :
    Kept (fun p => s.AboutPrompt p (.dismissPrompt challengeId)) aboutSso s (s.dismissPrompt challengeId) ↔
      s.Safe (.dismissPrompt challengeId) := by
  have hsso : (s.dismissPrompt challengeId).activeBrowserSsoPrompt = s.activeBrowserSsoPrompt := by
    simp only [dismissPrompt, addResolved]
    split_ifs <;> rfl
  rw [kept_iff_prompt hsso]
  refine slotKept_none_iff.trans ?_
  constructor
  · exact fun h hgiven active hactive => h active hactive hgiven
  · exact fun h active hactive hgiven => h hgiven active hactive

theorem activePrompt_close :
    (s.close challengeId).activePrompt = if s.isActive challengeId then none else s.activePrompt := by
  unfold close addResolved
  by_cases hempty : challengeId ≠ ""
  · simp only [if_pos hempty]
    split <;> rfl
  · simp only [if_neg hempty]
    split <;> rfl

theorem activeSso_close : (s.close challengeId).activeBrowserSsoPrompt = s.activeBrowserSsoPrompt := by
  unfold close addResolved
  by_cases hempty : challengeId ≠ ""
  · simp only [if_pos hempty]
    split <;> rfl
  · simp only [if_neg hempty]
    split <;> rfl

theorem close_kept : SlotKept (·.challengeId) (fun p : Prompt => p.challengeId = some challengeId)
      (fun p => s.Reported p.challengeId p.attempt) s.activePrompt (s.close challengeId).activePrompt := by
  rw [activePrompt_close]
  split
  · rename_i hactive
    rw [slotKept_none_iff]
    intro active hheld
    rw [isActive, hheld] at hactive
    exact of_decide_eq_true hactive
  · exact slotKept_self _

theorem activePrompt_restored : (s.restored decision).activePrompt =
      if s.activePrompt = none ∨ s.isActive decision.challengeId = true then decision.promptSnapshot
      else s.activePrompt := by
  simp only [restored]
  split_ifs <;> rfl

theorem activeSso_restored : (s.restored decision).activeBrowserSsoPrompt = s.activeBrowserSsoPrompt := by
  simp only [restored]
  split_ifs <;> rfl

theorem decided_kept_iff (reply : PromptReply) :
    Kept (fun p => p.challengeId = some decision.challengeId) aboutSso s (s.decided decision reply) ↔
      s.WaitingSafe reply (.decision decision) := by
  unfold decided WaitingSafe
  cases hfailed : reply.failed with
  | false =>
    refine iff_of_true ?_ nofun
    have hsso : ((s.close decision.challengeId).loadPendingChallenges).activeBrowserSsoPrompt =
        s.activeBrowserSsoPrompt :=
      s.activeSso_close decision.challengeId
    exact (kept_iff_prompt hsso).mpr (s.close_kept decision.challengeId)
  | true =>
    cases hterminal : reply.terminal with
    | true =>
      refine iff_of_true ?_ nofun
      exact (kept_iff_prompt (s.activeSso_close decision.challengeId)).mpr (s.close_kept decision.challengeId)
    | false =>
      simp only [if_true, Bool.false_eq_true, if_false]
      have hsso : (s.restored decision).activeBrowserSsoPrompt = s.activeBrowserSsoPrompt :=
        s.activeSso_restored decision
      refine (kept_iff_prompt hsso).trans ?_
      rw [activePrompt_restored]
      cases hactive : s.activePrompt with
      | none =>
        simp only [true_or, if_true, forall_const]
        cases decision.promptSnapshot with
        | none => exact iff_of_true (slotKept_self _) nofun
        | some snapshot =>
          refine (slotKept_fill_iff snapshot).trans ?_
          simp
      | some active =>
        refine iff_of_true ?_ nofun
        by_cases hsame : s.isActive decision.challengeId = true
        · have habout : active.challengeId = some decision.challengeId := by
            rw [isActive, hactive] at hsame
            exact of_decide_eq_true hsame
          rw [if_pos (Or.inr hsame)]
          cases hsnapshot : decision.promptSnapshot with
          | none =>
            rw [slotKept_none_iff]
            exact fun held hheld => Option.some.inj hheld ▸ habout
          | some snapshot =>
            -- The snapshot is a prompt of the same challenge.
            have hown := decision.own snapshot hsnapshot
            exact (slotKept_refill_iff active snapshot).mpr (.inl (habout.trans hown.symm))
        · rw [if_neg (by simp [hsame])]
          exact slotKept_self _

theorem kept_goOn_iff (caller : Option PendingAnswer) :
    Kept about aboutSso s (t.goOn caller) ↔ Kept about aboutSso s t := by
  cases caller with
  | none => exact Iff.rfl
  | some => exact ⟨fun h => ⟨h.1, h.2⟩, fun h => ⟨h.1, h.2⟩⟩

theorem ticketRead_kept_iff (prompt : BrowserSsoPrompt) (caller : Option PendingAnswer) (ticket : Option String) :
    Kept about (fun p => prompt.id = p.id) s (s.ticketRead prompt caller ticket).1 ↔
        s.TicketSafe prompt ticket := by
  unfold ticketRead TicketSafe
  dsimp only
  cases hfit : (s.keepCheck prompt ticket).approvesAlone prompt with
  | true => exact iff_of_true (kept_of_same rfl rfl) (Or.inl rfl)
  | false =>
    simp only [Bool.false_eq_true, if_false, false_or]
    refine (kept_goOn_iff caller).trans (Iff.trans (kept_iff_browserSso ?_) ?_)
    · rfl
    cases s.activeBrowserSsoPrompt with
    | none => exact slotKept_fill_iff prompt
    | some active =>
      refine (slotKept_refill_iff active prompt).trans ?_
      simp only [Option.some.injEq]
      constructor
      · exact fun h => h.elim id fun hr => hr.1.symm
      · exact .inl

theorem browserSsoDecided_kept_iff (prompt : BrowserSsoPrompt) (caller : Option PendingAnswer)
    (failed : Bool) : Kept about (fun p => prompt.id = p.id) s (s.browserSsoDecided prompt caller failed) ↔
      (failed = true → s.activeBrowserSsoPrompt = none → ¬s.Reported (some prompt.id) prompt.attempt) := by
  unfold browserSsoDecided
  cases failed with
  | true =>
    simp only [if_true, forall_const]
    cases hactive : s.activeBrowserSsoPrompt with
    | none =>
      simp only [if_true, forall_const]
      refine (kept_goOn_iff caller).trans (Iff.trans (kept_iff_browserSso ?_) ?_)
      · rfl
      · rw [hactive]
        exact slotKept_fill_iff prompt
    | some => exact iff_of_true ((kept_goOn_iff caller).mpr (kept_of_same rfl rfl)) nofun
  | false =>
    refine iff_of_true ?_ nofun
    simp only [Bool.false_eq_true, if_false]
    split
    · rename_i hsame
      refine (kept_goOn_iff caller).mpr ((kept_iff_browserSso ?_).mpr ?_)
      · rfl
      rw [slotKept_none_iff]
      intro active hactive
      rw [hactive] at hsame
      exact (of_decide_eq_true hsame).symm
    · exact (kept_goOn_iff caller).mpr (kept_of_same rfl rfl)

theorem pendingEnds_kept_iff :
    Kept (fun p => p.since ≤ answer.requested) aboutSso s (s.pendingEnds answer) ↔ s.ListSafe answer := by
  have hsso : (s.pendingEnds answer).activeBrowserSsoPrompt = s.activeBrowserSsoPrompt := by
    unfold pendingEnds
    split
    · rfl
    · split
      · rfl
      · exact activeSso_surfaceSignIn _ _
  rw [kept_iff_prompt hsso]
  unfold pendingEnds ListSafe isListed
  cases hfresh : answer.freshChallenges with
  | nil =>
    have hunlisted : (s.activePrompt.any fun active =>
      ([] : List PendingChallenge).any (active.challengeId = some ·.id)) = false := by
      cases s.activePrompt <;> rfl
    rw [slotKept_none_iff, hunlisted]
    simp
  | cons first rest =>
    cases hlisted : s.activePrompt.any fun active => (first :: rest).any (active.challengeId = some ·.id) with
    | true => exact iff_of_true (slotKept_self _) (Or.inl rfl)
    | false =>
      simp only [Bool.false_eq_true, if_false, false_or, List.head?_cons, Option.some.injEq, forall_eq']
      simp only [surfaceSignIn]
      have hrefuses : refuses (some first.id) { s with activePrompt := none } = s.refuses (some first.id) := rfl
      rw [hrefuses]
      cases s.refuses (some first.id) with
      | true =>
        simp only [if_true, true_or, and_true]
        exact slotKept_none_iff
      | false =>
        simp only [Bool.false_eq_true, if_false, false_or]
        cases hactive : s.activePrompt with
        | none =>
          refine (slotKept_fill_iff _).trans ?_
          simp
        | some active =>
          have hother : active.challengeId ≠ some first.id := by
            intro hsame
            simp [hactive, hsame] at hlisted
          refine (slotKept_refill_iff active _).trans ?_
          simp [hother]

theorem pendingGoesOn_kept_iff :
    Kept (fun p => p.since ≤ answer.requested) aboutSso s (s.pendingGoesOn answer) ↔ s.AnswerSafe answer := by
  unfold pendingGoesOn AnswerSafe
  cases hsso : answer.browserSso with
  | nil =>
    simp only [true_or, forall_const]
    exact pendingEnds_kept_iff answer
  | cons =>
    cases hactive : s.activeBrowserSsoPrompt with
    | some =>
      simp only [ne_eq, reduceCtorEq, not_false_eq_true, or_true, forall_const]
      exact pendingEnds_kept_iff answer
    | none =>
      refine iff_of_true ?_ (by simp)
      simp only
      split <;> exact kept_of_same rfl rfl

theorem kept_pending_iff {t : Prompts} (challenges : List PendingChallenge) (list : ℕ) :
    Kept about aboutSso { s with pendingChallenges := challenges, pendingList := list } t ↔
      Kept about aboutSso s t :=
  ⟨fun h => ⟨h.1, h.2⟩, fun h => ⟨h.1, h.2⟩⟩

theorem pendingAnswered_kept_iff (requested : ℕ) (reply : PromptReply) :
    Kept (fun p => p.since ≤ requested) aboutSso s (s.pendingAnswered requested reply) ↔
      s.WaitingSafe reply (.pending requested) := by
  unfold pendingAnswered WaitingSafe
  cases hfailed : reply.failed with
  | true => exact iff_of_true (kept_of_same rfl rfl) nofun
  | false =>
    simp only [Bool.false_eq_true, if_false, forall_const]
    rw [← kept_pending_iff (s.readAnswer requested reply.challenges).freshChallenges s.steps]
    exact pendingGoesOn_kept_iff (s.readAnswer requested reply.challenges)

theorem resume_kept_iff (waiting : Waiting) (reply : PromptReply) :
    Kept (fun p => waiting.AboutPrompt p) (fun p => waiting.AboutBrowserSso p) s (s.resume waiting reply).1 ↔
      s.WaitingSafe reply waiting := by
  cases waiting with
  | pending requested => exact pendingAnswered_kept_iff requested reply
  | pendingGoesOn answer => exact pendingGoesOn_kept_iff answer
  | ticket prompt caller => exact ticketRead_kept_iff prompt caller reply.ticket
  | browserSsoDecision prompt caller => exact browserSsoDecided_kept_iff prompt caller reply.failed
  | decision decision => exact decided_kept_iff decision reply

/-- An event leaves the prompts of other challenges alone, and opens none that was reported. -/
def Independent (s : Prompts) (a : PromptAction) : Prop :=
  ∀ r, s.step a = some r → Kept (fun p => s.AboutPrompt p a) (fun p => s.AboutBrowserSso p a) s r.1

theorem kept_steps_iff {t : Prompts} (steps : ℕ) (waiting : List Waiting) :
    Kept about aboutSso { s with steps := steps, waiting := waiting } t ↔ Kept about aboutSso s t :=
  ⟨fun h => ⟨h.1, h.2⟩, fun h => ⟨h.1, h.2⟩⟩

theorem kept_loadPendingChallenges_iff : Kept about aboutSso s t.loadPendingChallenges ↔ Kept about aboutSso s t :=
  ⟨fun h => ⟨h.1, h.2⟩, fun h => ⟨h.1, h.2⟩⟩

theorem independent_of_act {a : PromptAction} {r : PromptOutcome}
    (h : act { s with steps := s.steps + 1 } a = some r) :
    s.Independent a ↔ Kept (fun p => s.AboutPrompt p a) (fun p => s.AboutBrowserSso p a) s r.1 := by
  constructor
  · exact fun hall => hall r h
  · intro hkept other hother
    cases h.symm.trans hother
    exact hkept

theorem prompt_independent_iff (s : Prompts) (raw : RawChallenge) :
    s.Independent (.prompt raw) ↔ s.Safe (.prompt raw) := by
  refine (independent_of_act rfl).trans (kept_loadPendingChallenges_iff.trans ?_)
  rw [← kept_steps_iff (s.steps + 1) s.waiting]
  unfold surfacePrompt
  cases hbrowserSso : raw.isBrowserSso with
  | true =>
    rw [if_pos rfl]
    exact iff_of_true (kept_of_same (activePrompt_surfaceBrowserSso ..) (activeSso_surfaceBrowserSso ..))
      (.inl hbrowserSso)
  | false =>
    simp only [Bool.false_eq_true, if_false, Safe, hbrowserSso, false_or]
    exact surfaceSignIn_kept_iff
      { challengeId := raw.challengeId, attemptId := raw.attempt, attempt := raw.attempt }

theorem resume_independent_iff (s : Prompts) (index : ℕ) (reply : PromptReply) :
    s.Independent (.resume index reply) ↔ s.Safe (.resume index reply) := by
  cases hget : s.waiting[index]? with
  | none =>
    refine iff_of_true (fun r hr => ?_) (fun waiting hwaiting => ?_)
    · simp [step, act, hget] at hr
    · simp [hget] at hwaiting
  | some waiting =>
    have hact : act { s with steps := s.steps + 1 } (.resume index reply) =
        some (resume waiting reply { s with steps := s.steps + 1, waiting := s.waiting.eraseIdx index }) := by
      simp [act, hget]
    refine (independent_of_act hact).trans ?_
    have habout : (fun p => s.AboutPrompt p (.resume index reply)) = fun p => waiting.AboutPrompt p := by
      funext p
      simp [AboutPrompt, hget]
    have haboutSso : (fun p => s.AboutBrowserSso p (.resume index reply)) = fun p => waiting.AboutBrowserSso p := by
      funext p
      simp [AboutBrowserSso, hget]
    rw [habout, haboutSso, ← kept_steps_iff (s.steps + 1) (s.waiting.eraseIdx index), resume_kept_iff]
    simp only [Safe, hget, Option.some.injEq, forall_eq']
    exact Iff.rfl

theorem independent_iff_safe (s : Prompts) (a : PromptAction) : s.Independent a ↔ s.Safe a := by
  have hquiet : ∀ {b : PromptAction} {r : PromptOutcome}, act { s with steps := s.steps + 1 } b = some r →
      r.1.activePrompt = s.activePrompt → r.1.activeBrowserSsoPrompt = s.activeBrowserSsoPrompt → s.Independent b :=
    fun hact hprompt hsso => (independent_of_act hact).mpr (kept_of_same hprompt hsso)
  cases a with
  | prompt raw => exact s.prompt_independent_iff raw
  | browserSso raw =>
    have hprompt := activePrompt_surfaceBrowserSso raw { s with steps := s.steps + 1 }
    have hsso := activeSso_surfaceBrowserSso raw { s with steps := s.steps + 1 }
    exact iff_of_true (hquiet rfl hprompt hsso) trivial
  | challengeResolved challengeId attemptId =>
    refine (independent_of_act rfl).trans ?_
    rw [← kept_steps_iff (s.steps + 1) s.waiting]
    exact challengeResolved_kept_iff (s := { s with steps := s.steps + 1 }) challengeId attemptId
  | dismissPrompt challengeId =>
    refine (independent_of_act rfl).trans ?_
    rw [← kept_steps_iff (s.steps + 1) s.waiting]
    exact dismissPrompt_kept_iff (s := { s with steps := s.steps + 1 }) challengeId
  | submitDecision | setBrowserSsoAutoApprove | outboundStepUp | poll | elapse =>
    exact iff_of_true (hquiet rfl rfl rfl) trivial
  | resolveBrowserSso =>
    refine iff_of_true (hquiet rfl ?_ ?_) trivial
    · cases s.activeBrowserSsoPrompt <;> rfl
    · cases s.activeBrowserSsoPrompt <;> rfl
  | resume index reply => exact s.resume_independent_iff index reply

end Prompts

/-- In a run no event disturbs the prompt of another challenge, and no reported challenge becomes active
again, exactly when every event finds what it must. -/
theorem challenges_independent (as : List PromptAction) : promptMachine.Every (fun s _ a => s.Independent a)
      {} [] as ↔ promptMachine.Every (fun s _ a => s.Safe a) {} [] as :=
  Machine.every_iff (fun _ _ => True) (fun _ _ _ _ _ _ _ _ => trivial)
    (fun s _ a _ => Prompts.independent_iff_safe s a) as _ [] trivial

/-- The server reports the browser sign-on `a` as resolved: the prompt of the sign-in `b` goes with it. -/
theorem resolved_closes_other : ¬∀ as, promptMachine.Every (fun s _ a => s.Independent a) {} [] as := by
  intro h
  let as : List PromptAction := [.prompt { challengeId := some "b" },
    .browserSso { id := some "a", type := some "browser_sso", expiresAt := some 1 },
      .resume 1 { ticket := some "t" }]
  have hcheck : (promptMachine.exec (fun _ _ _ => true) {} [] as).any (fun r =>
      r.1.activePrompt = some { challengeId := some "b", attemptId := none, attempt := none, since := 1 } &&
        r.1.activeBrowserSsoPrompt.any (·.id = "a")) = true := by
    decide +kernel
  obtain ⟨s, es, hpath, hs⟩ := Machine.path_of_check hcheck
  rw [Bool.and_eq_true] at hs
  have hactive := of_decide_eq_true hs.1
  obtain ⟨sso, hsso, hid⟩ := (Option.any_eq_true ..).mp hs.2
  have hsafe : s.ReportSafe (some "a") none :=
    (Prompts.independent_iff_safe s (.challengeResolved (some "a") none)).mp ((h (as ++ [_])).good hpath)
  have habout := hsafe _ hactive ⟨sso, hsso, congrArg some (of_decide_eq_true hid).symm⟩
  exact absurd habout (by decide +kernel)

end LigamentApps.AuthState
