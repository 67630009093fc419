import LigamentApps.RdpConnector.AttemptCourse

/-!
# The order of the attempts

Only the newest attempt has the session, and a tunnel belongs to the session, as long as outdated attempts are
guarded: none fails without a check, and none comes to the end of its `_finish` with something to say, while
there is a newer one. -/

namespace LigamentApps.RdpConnector

open Option Bool

variable {stage : Stage} {t : RdpConnectorService} {view : ServiceView} {n : ℕ}

namespace RdpConnectorService

variable (s : RdpConnectorService)

/-- The attempt whose continuation an action is, if it is outdated. -/
def stale : RdpAction → Option ℕ
  | .resumes n _ => (s.attempts n).stage.bind fun stage => if s.outdated n stage then some n else none
  | .finishes n | .ttlFires n | .clientExits n | .transportEnds n _ => if s.session ≠ some n then some n else none
  | .connect | .connectBridge _ _ | .close | .setHandler _ => none

/-- An outdated attempt does not fail without a check when there is a newer one, and its `_finish` has nothing
to say. -/
def Guarded (a : RdpAction) : Prop :=
  ∀ n, s.stale a = some n → n + 1 < s.started →
    match a with
    | .resumes _ reply => ∀ stage ∈ (s.attempts n).stage, stage.failsUnchecked reply = false
    | .finishes _ => ∀ reason, (s.attempts n).finishing = some (.listener reason) → reason ≠ .expired ∧
      s.phase = .closed
    | _ => True

variable {s}

/-! ## The order of the attempts -/

/-- The attempts in the order of their generations: only the newest has the session, and only while the phase
keeps others from starting; a tunnel belongs to the session; an attempt that is not opened yet has no session
to lose. -/
structure Orderly (s : RdpConnectorService) : Prop where
  older : ∀ n m, n < m → m < s.started → (s.attempts n).generation < (s.attempts m).generation
  bounded : ∀ n, n < s.started → (s.attempts n).generation ≤ s.connectGeneration
  current : ∀ n, s.session = some n →
    n + 1 = s.started ∧ (s.attempts n).generation = s.connectGeneration ∧ engaged s.phase = true
  tunnel : ∀ n, s.tunnel n = true →
    s.session = some n ∧ (s.attempts n).stage = none ∧ (s.attempts n).fields .socket = true
  shown : s.phase ≠ .failed → s.lastError = none
  unstarted : ∀ n, s.started ≤ n → (s.attempts n).stage = none ∧ (s.attempts n).finishing = none ∧
    ∀ r, (s.attempts n).held r = false ∧ (s.attempts n).fields r = false
  waiting : ∀ n stage, (s.attempts n).stage = some stage → stage.opened = false →
    s.session ≠ some n ∧ (s.attempts n).finishing = none
  finishing : ∀ n, (s.attempts n).finishing ≠ none → s.session ≠ some n

theorem engaged_eq (s : RdpConnectorService) : engaged s.phase = (s.isBusy || s.isActive) := rfl

namespace Orderly

variable {n m : ℕ} {stage : Stage}

theorem lt_of_stage (h : s.Orderly) (hstage : (s.attempts n).stage = some stage) : n < s.started := by
  by_contra hge
  have hnone := (h.unstarted n (Nat.le_of_not_lt hge)).1
  rw [hstage] at hnone
  exact some_ne_none _ hnone

theorem newest (h : s.Orderly) (hlt : n < s.started)
    (hgeneration : (s.attempts n).generation = s.connectGeneration) : n + 1 = s.started := by
  by_contra hne
  have hnext : n + 1 < s.started := by omega
  have holder := h.older n (n + 1) (Nat.lt_succ_self n) hnext
  have hbounded := h.bounded (n + 1) hnext
  omega

theorem session_newest (h : s.Orderly) (hnewest : n + 1 = s.started) (hsession : s.session = some m) : m = n := by
  have hm := (h.current m hsession).1
  omega

theorem session_none (h : s.Orderly) (hfree : (s.isBusy || s.isActive) = false) : s.session = none := by
  cases hsession : s.session with
  | none => rfl
  | some n =>
    have hengaged := (h.current n hsession).2.2
    rw [engaged_eq, hfree] at hengaged
    cases hengaged

theorem current_of (h : s.outdated n stage = false) :
    (s.attempts n).generation = s.connectGeneration ∧ (stage.opened = true → s.session = some n) := by
  obtain ⟨hgeneration, hsession⟩ := or_eq_false_iff.mp h
  refine ⟨?_, fun hopened => ?_⟩
  · have heq : s.connectGeneration = (s.attempts n).generation := by simpa using hgeneration
    exact heq.symm
  · rw [hopened] at hsession
    simpa using hsession

theorem outdated_of (h : s.Orderly) (hstage : (s.attempts n).stage = some stage)
    (hsession : s.session = some m) (hne : m ≠ n) : s.outdated n stage = true ∧ n + 1 < s.started := by
  have hlt := h.lt_of_stage hstage
  obtain ⟨hm, hgeneration, _⟩ := h.current m hsession
  have hnewer : n + 1 < s.started := by omega
  refine ⟨?_, hnewer⟩
  cases houtdated : s.outdated n stage with
  | true => rfl
  | false =>
    have hnewest := h.newest hlt (current_of houtdated).1
    omega

end Orderly

theorem orderly_modify (h : s.Orderly) {f : Attempt → Attempt} (hlt : n < s.started)
    (hgeneration : ∀ a, (f a).generation = a.generation) (hstage : ∀ a, (f a).stage = a.stage)
    (hfinishing : (∀ a, (f a).finishing = a.finishing) ∨ (s.attempts n).finishing ≠ none)
    (hfields : ∀ a, (f a).fields = a.fields)
    (hsocket : ∀ a, (f a).held .socket = true → a.held .socket = true) : (s.modify n f).Orderly := by
  have hself := attempts_modify_self (s := s) n f
  have hother : ∀ m, m ≠ n → (s.modify n f).attempts m = s.attempts m := fun m hm => attempts_modify_ne hm f
  have hgen : ∀ m, ((s.modify n f).attempts m).generation = (s.attempts m).generation := by
    intro m
    by_cases hm : m = n
    · rw [hm, hself, hgeneration]
    · rw [hother m hm]
  have hst : ∀ m, ((s.modify n f).attempts m).stage = (s.attempts m).stage := by
    intro m
    by_cases hm : m = n
    · rw [hm, hself, hstage]
    · rw [hother m hm]
  refine ⟨?_, ?_, ?_, ?_, h.shown, ?_, ?_, ?_⟩
  · intro k m hk hm
    rw [hgen, hgen]
    exact h.older k m hk hm
  · intro m hm
    rw [hgen]
    exact h.bounded m hm
  · intro m hm
    rw [hgen]
    exact h.current m hm
  · intro m htunnel
    rw [hst]
    unfold tunnel at htunnel
    by_cases hm : m = n
    · rw [hm, hself] at htunnel
      rw [hm, hself, hfields]
      exact h.tunnel n (hsocket _ htunnel)
    · rw [hother m hm] at htunnel
      rw [hother m hm]
      exact h.tunnel m htunnel
  · intro m hm
    have hne : m ≠ n := fun heq => Nat.not_lt.mpr hm (heq ▸ hlt)
    rw [hother m hne]
    exact h.unstarted m hm
  · intro m stage hwaits hclosed
    rw [hst] at hwaits
    obtain ⟨hsession, hnone⟩ := h.waiting m stage hwaits hclosed
    refine ⟨hsession, ?_⟩
    by_cases hm : m = n
    · rw [hm] at hnone ⊢
      obtain hsame | hsome := hfinishing
      · rw [hself, hsame, hnone]
      · exact absurd hnone hsome
    · rw [hother m hm, hnone]
  · intro m hsome
    by_cases hm : m = n
    · rw [hm] at hsome ⊢
      obtain hsame | hbefore := hfinishing
      · rw [hself, hsame] at hsome
        exact h.finishing n hsome
      · exact h.finishing n hbefore
    · rw [hother m hm] at hsome
      exact h.finishing m hsome

theorem orderly_finish (h : s.Orderly) (n : ℕ) (reason : EndReason) : (s.finish n reason).Orderly := by
  unfold finish
  split
  · exact h
  · rename_i hsession
    have hsession : s.session = some n := not_not.mp hsession
    have hlt : n < s.started := by
      have hnewest := (h.current n hsession).1
      omega
    have hself := attempts_modify_self (s := { s with session := none }) n fun a =>
      { a.release (finished reason) with finishing := some (.ws reason) }
    have hother : ∀ m, m ≠ n → (modify n (fun a =>
        { a.release (finished reason) with finishing := some (.ws reason) }) { s with session := none }).attempts m =
          s.attempts m := fun m hm => attempts_modify_ne hm _
    refine ⟨?_, ?_, nofun, ?_, h.shown, ?_, ?_, fun _ _ => nofun⟩
    · intro k m hk hm
      have hgen := h.older k m hk hm
      by_cases hkn : k = n
      · subst hkn
        rw [hself, hother m (Nat.ne_of_gt hk)]
        exact hgen
      · rw [hother k hkn]
        by_cases hmn : m = n
        · subst hmn
          rw [hself]
          exact hgen
        · rw [hother m hmn]
          exact hgen
    · intro m hm
      by_cases hmn : m = n
      · subst hmn
        rw [hself]
        exact h.bounded m hm
      · rw [hother m hmn]
        exact h.bounded m hm
    · intro m htunnel
      unfold tunnel at htunnel
      -- The only tunnel there may have been is closed with the session.
      by_cases hmn : m = n
      · subst hmn
        rw [hself] at htunnel
        obtain ⟨hheld, hkept⟩ := and_eq_true_iff.mp htunnel
        have hfields := (h.tunnel m hheld).2.2
        rw [hfields] at hkept
        cases reason <;> cases hkept
      · rw [hother m hmn] at htunnel
        have hsame := (h.tunnel m htunnel).1
        rw [hsession] at hsame
        exact absurd (Option.some.inj hsame).symm hmn
    · intro m hm
      have hne : m ≠ n := fun heq => Nat.not_lt.mpr hm (heq ▸ hlt)
      rw [hother m hne]
      exact h.unstarted m hm
    · intro m stage hstage hclosed
      refine ⟨nofun, ?_⟩
      by_cases hmn : m = n
      · subst hmn
        rw [hself] at hstage
        exact absurd hsession (h.waiting m stage hstage hclosed).1
      · rw [hother m hmn] at hstage ⊢
        exact (h.waiting m stage hstage hclosed).2

theorem resumed_view (h : s.Orderly) {reply : Reply} (hstage : (s.attempts n).stage = some stage)
    (hguarded : s.Guarded (.resumes n reply)) :
    let t := resumeAttempt n stage reply (s.modify n fun a => { a with stage := none })
    Progress s n stage t.view ∧ (∀ m, m ≠ n → s.session = some m → t.view = s.view) := by
  intro t
  let u := s.modify n fun a => { a with stage := none }
  have hgeneration : (u.attempts n).generation = (s.attempts n).generation := by
    rw [attempts_modify_self]
  have hsame : u.outdated n stage = s.outdated n stage := by
    unfold outdated
    rw [hgeneration]
    rfl
  have hstart : ∀ view, Progress u n stage view → Progress s n stage view := by
    intro view hprogress
    cases hprogress with
    | quiet => exact .quiet
    | proceeds p hcurrent hopened hengaged => exact .proceeds p (hsame ▸ hcurrent) hopened hengaged
    | opens p hcurrent hclosed hengaged => exact .opens p (hsame ▸ hcurrent) hclosed hengaged
    | dismissed hcurrent hclosed => exact .dismissed (hsame ▸ hcurrent) hclosed
    | fails failure => exact .fails failure
  have hquiet : s.outdated n stage = true → n + 1 < s.started → t.view = s.view := by
    intro houtdated hnewer
    have hstale : s.stale (.resumes n reply) = some n := by
      show ((s.attempts n).stage.bind fun stage => if s.outdated n stage then some n else none) = some n
      rw [hstage, bind_some, houtdated]
      rfl
    have hchecked := hguarded n hstale hnewer stage hstage
    exact resumeAttempt_outdated (hsame.trans houtdated) hchecked
  refine ⟨?_, fun m hne hsession => ?_⟩
  · cases houtdated : s.outdated n stage with
    | false => exact hstart _ (resumeAttempt_progress (hsame.trans houtdated))
    | true =>
      cases hfails : stage.failsUnchecked reply with
      | true =>
        obtain ⟨failure, hview⟩ := resumeAttempt_unchecked hfails
        have hfailed : t.view = s.failedView failure := hview
        rw [hfailed]
        exact .fails failure
      | false =>
        have hview : t.view = s.view := resumeAttempt_outdated (hsame.trans houtdated) hfails
        rw [hview]
        exact .quiet
  · obtain ⟨houtdated, hnewer⟩ := h.outdated_of hstage hsession hne
    exact hquiet houtdated hnewer

/-- The session that the service has after an attempt has gone on is the one of before, the one of the
attempt, or none. -/
theorem Progress.session (h : Progress s n stage view) :
    view.session = s.session ∨ view.session = none ∨ view.session = some n ∧ stage.opened = false := by
  cases h with
  | quiet | proceeds | dismissed => exact .inl rfl
  | opens _ _ hclosed => exact .inr (.inr ⟨rfl, hclosed⟩)
  | fails => exact .inr (.inl rfl)

theorem Progress.generation_le (h : Progress s n stage view) : s.connectGeneration ≤ view.connectGeneration := by
  cases h with
  | fails => exact Nat.le_succ _
  | _ => exact Nat.le_refl _

theorem Progress.shown (h : Progress s n stage view) (hs : s.phase ≠ .failed → s.lastError = none) :
    view.phase ≠ .failed → view.lastError = none := by
  cases h with
  | quiet => exact hs
  | fails => exact fun hne => absurd rfl hne
  | _ => exact fun _ => rfl

theorem Progress.current {n : ℕ} {stage : Stage} {view : ServiceView} (h : Progress s n stage view)
    (hs : s.Orderly) (hstage : (s.attempts n).stage = some stage) (m : ℕ) (hsession : view.session = some m) :
    m + 1 = s.started ∧ (s.attempts m).generation = view.connectGeneration ∧ engaged view.phase = true := by
  cases h with
  | quiet => exact hs.current m hsession
  | proceeds _ _ _ hengaged =>
    obtain ⟨hnewest, hgeneration, _⟩ := hs.current m hsession
    exact ⟨hnewest, hgeneration, hengaged⟩
  | opens _ hcurrent _ hengaged =>
    cases hsession
    have hgeneration := (Orderly.current_of hcurrent).1
    exact ⟨hs.newest (hs.lt_of_stage hstage) hgeneration, hgeneration, hengaged⟩
  | dismissed hcurrent hclosed =>
    -- The attempt is the newest, and has no session yet.
    have hnewest := hs.newest (hs.lt_of_stage hstage) (Orderly.current_of hcurrent).1
    have hsame := hs.session_newest hnewest hsession
    rw [hsame] at hsession
    exact absurd hsession (hs.waiting n stage hstage hclosed).1
  | fails => cases hsession

/-- An attempt that runs its course keeps all attempts in order. -/
theorem orderly_of_course (h : s.Orderly) (hstage : (s.attempts n).stage = some stage)
    (hcourse : Course n s t) (hprogress : Progress s n stage t.view)
    (hothers : ∀ m, m ≠ n → s.session = some m → t.view = s.view)
    (htunnel : t.tunnel n = true → t.session = some n ∧ (t.attempts n).stage = none ∧
      (t.attempts n).fields .socket = true)
    (hwaits : ∀ next, (t.attempts n).stage = some next → next.opened = false →
      stage.opened = false ∧ t.view = s.view) :
    t.Orderly := by
  have hlt := h.lt_of_stage hstage
  have hsession := hprogress.session
  refine ⟨?_, ?_, ?_, ?_, hprogress.shown h.shown, ?_, ?_, ?_⟩
  · intro k m hk hm
    rw [hcourse.generation, hcourse.generation]
    exact h.older k m hk (hcourse.started ▸ hm)
  · intro m hm
    rw [hcourse.generation]
    exact Nat.le_trans (h.bounded m (hcourse.started ▸ hm)) hprogress.generation_le
  · intro m hm
    rw [hcourse.started, hcourse.generation]
    exact hprogress.current h hstage m hm
  · intro m hm
    by_cases hmn : m = n
    · rw [hmn] at hm ⊢
      exact htunnel hm
    · obtain ⟨hsame, hstopped, hfields⟩ := h.tunnel m (hcourse.held m .socket hmn hm)
      have hview := congrArg ServiceView.session (hothers m hmn hsame)
      exact ⟨hview.trans hsame, (hcourse.waits m hmn).trans hstopped,
        (congrFun (hcourse.fields m hmn) _).trans hfields⟩
  · intro m hm
    rw [hcourse.started] at hm
    have hmn : m ≠ n := fun heq => Nat.not_lt.mpr hm (heq ▸ hlt)
    obtain ⟨hstopped, hfinishing, hnothing⟩ := h.unstarted m hm
    refine ⟨(hcourse.waits m hmn).trans hstopped, (hcourse.finishing m).trans hfinishing, fun r => ⟨?_, ?_⟩⟩
    · refine eq_false_iff.mpr fun hheld => ?_
      have hbefore := hcourse.held m r hmn hheld
      rw [(hnothing r).1] at hbefore
      exact Bool.false_ne_true hbefore
    · exact (congrFun (hcourse.fields m hmn) r).trans (hnothing r).2
  · intro m next hnext hclosed
    by_cases hmn : m = n
    · rw [hmn] at hnext ⊢
      obtain ⟨hbefore, hview⟩ := hwaits next hnext hclosed
      obtain ⟨hnone, hfinishing⟩ := h.waiting n stage hstage hbefore
      have hsame : t.session = s.session := congrArg ServiceView.session hview
      rw [hsame, hcourse.finishing]
      exact ⟨hnone, hfinishing⟩
    · rw [hcourse.waits m hmn] at hnext
      obtain ⟨hnone, hfinishing⟩ := h.waiting m next hnext hclosed
      refine ⟨?_, (hcourse.finishing m).trans hfinishing⟩
      intro hm
      obtain hsame | hgone | ⟨hopens, _⟩ := hsession
      · exact hnone (hsame.symm.trans hm)
      · cases hgone.symm.trans hm
      · exact hmn (Option.some.inj (hopens.symm.trans hm)).symm
  · intro m hfinishing hm
    rw [hcourse.finishing] at hfinishing
    obtain hsame | hgone | ⟨hopens, hclosed⟩ := hsession
    · exact h.finishing m hfinishing (hsame.symm.trans hm)
    · cases hgone.symm.trans hm
    · have hmn : n = m := Option.some.inj (hopens.symm.trans hm)
      subst hmn
      exact hfinishing (h.waiting n stage hstage hclosed).2

theorem orderly_resumes (h : s.Orderly) {reply : Reply} (hstage : (s.attempts n).stage = some stage)
    (hguarded : s.Guarded (.resumes n reply)) :
    (resumeAttempt n stage reply (s.modify n fun a => { a with stage := none })).Orderly := by
  obtain ⟨hprogress, hothers⟩ := resumed_view h hstage hguarded
  have hstart : Course n s (s.modify n fun a => { a with stage := none }) :=
    course_modify (fun _ => rfl) fun _ => rfl
  have hself := attempts_modify_self (s := s) n fun a => { a with stage := none }
  have hstopped : ((s.modify n fun a => { a with stage := none }).attempts n).stage = none := by rw [hself]
  have hquiet : (s.modify n fun a => { a with stage := none }).tunnel n = true → False := by
    unfold tunnel
    rw [hself]
    intro hheld
    have hnone := (h.tunnel n hheld).2.1
    rw [hstage] at hnone
    exact some_ne_none _ hnone
  by_cases hfirst : stage = .localIps
  · subst hfirst
    have hmodified : Course n (s.modify n fun a => { a with stage := none })
        ((s.modify n fun a => { a with stage := none }).modify n (.await .grant)) :=
      course_modify (fun _ => rfl) fun _ => rfl
    refine orderly_of_course h hstage (hstart.trans hmodified) hprogress hothers (fun htunnel => ?_) fun _ _ _ =>
      ⟨rfl, rfl⟩
    unfold resumeAttempt tunnel at htunnel
    rw [attempts_modify_self] at htunnel
    exact (hquiet htunnel).elim
  · obtain htouches | ⟨hcurrent, hbegins⟩ :=
      resumeAttempt_touches hfirst reply
    · obtain ⟨hcourse, htunnel, hwaits⟩ := htouches.course
      refine orderly_of_course h hstage (hstart.trans hcourse) hprogress hothers (fun hbegun => ?_)
        fun next hnext hclosed => ?_
      · exact (hquiet (htunnel hbegun)).elim
      · obtain hbefore | hopened := hwaits next hnext
        · cases hstopped.symm.trans hbefore
        · cases hclosed.symm.trans hopened
    · have hmodified : Course n (s.modify n fun a => { a with stage := none })
          (tunnelBegins n (s.modify n fun a => { a with stage := none })) := by
        have hcourse := course_modify (s := s.modify n fun a => { a with stage := none }) (n := n)
          (f := fun a => (a.keep .socket).release [.grantTtl]) (fun _ => rfl) fun _ => rfl
        exact ⟨hcourse.started, hcourse.generation, hcourse.finishing, hcourse.held, hcourse.fields, hcourse.waits⟩
      have hsession : s.session = some n := by
        have hboth := or_eq_false_iff.mp hcurrent
        have hsame : decide (s.session ≠ some n) = false := hboth.2
        simpa using hsame
      have hbegun : (tunnelBegins n (s.modify n fun a => { a with stage := none })).attempts n =
          (Attempt.keep .socket { s.attempts n with stage := none }).release [.grantTtl] := by
        unfold tunnelBegins setPhase
        rw [attempts_modify_self, hself]
      rw [hbegins] at hprogress hothers ⊢
      refine orderly_of_course h hstage (hstart.trans hmodified) hprogress hothers (fun _ => ?_)
        fun next hnext _ => ?_
      · rw [hbegun]
        exact ⟨hsession, rfl, rfl⟩
      · rw [hbegun] at hnext
        cases hnext

theorem orderly_free (h : s.Orderly) (hattempts : t.attempts = s.attempts)
    (hstarted : t.started = s.started) (hbefore : s.session = none) (hafter : t.session = none)
    (hgeneration : s.connectGeneration ≤ t.connectGeneration)
    (hshown : t.phase ≠ .failed → t.lastError = none) : t.Orderly := by
  have hnobody : ∀ n, t.session = some n → False := fun n hn => nomatch hafter.symm.trans hn
  refine ⟨?_, ?_, fun n hn => (hnobody n hn).elim, ?_, hshown, ?_, ?_, fun n _ hn => hnobody n hn⟩
  · rw [hattempts, hstarted]
    exact h.older
  · rw [hattempts, hstarted]
    exact fun n hn => Nat.le_trans (h.bounded n hn) hgeneration
  · unfold tunnel
    rw [hattempts]
    intro n hn
    have hsession := (h.tunnel n hn).1
    rw [hbefore] at hsession
    cases hsession
  · rw [hattempts, hstarted]
    exact h.unstarted
  · rw [hattempts]
    exact fun n stage hstage hclosed => ⟨fun hn => hnobody n hn, (h.waiting n stage hstage hclosed).2⟩

theorem orderly_fail (h : s.Orderly) (hnone : s.session = none) (failure : Failure) : (s.fail failure).Orderly := by
  have hattempts : (s.fail failure).attempts = s.attempts := by
    unfold fail
    rw [hnone]
  have hgeneration : (s.fail failure).connectGeneration = s.connectGeneration + 1 :=
    congrArg ServiceView.connectGeneration (view_fail failure)
  refine orderly_free h hattempts (started_fail failure) hnone rfl ?_ fun hne => absurd rfl hne
  rw [hgeneration]
  exact Nat.le_succ _

theorem orderly_resumeFinish (h : s.Orderly) {finishing : Finishing}
    (hfinishing : (s.attempts n).finishing = some finishing) (hguarded : s.Guarded (.finishes n)) :
    (s.resumeFinish n finishing).Orderly := by
  have hsome : (s.attempts n).finishing ≠ none := by
    rw [hfinishing]
    exact some_ne_none _
  have hsession : s.session ≠ some n := h.finishing n hsome
  have hlt : n < s.started := by
    by_contra hge
    exact hsome (h.unstarted n (Nat.le_of_not_lt hge)).2.1
  -- Of a newest attempt nobody else has the session.
  have hnobody : ¬n + 1 < s.started → s.session = none := by
    intro hnewest
    cases hm : s.session with
    | none => rfl
    | some =>
      have hsame := h.session_newest (n := n) (by omega) hm
      rw [hsame] at hm
      exact absurd hm hsession
  have hstale : s.stale (.finishes n) = some n := if_pos hsession
  unfold resumeFinish
  cases finishing with
  | ws =>
    exact orderly_modify h hlt (fun _ => rfl) (fun _ => rfl) (.inr hsome) (fun _ => rfl) (mild_release _).socket
  | listener reason =>
    have hended : (s.modify n fun a => { a with finishing := none }).Orderly :=
      orderly_modify h hlt (fun _ => rfl) (fun _ => rfl) (.inr hsome) (fun _ => rfl) fun _ hheld => hheld
    have hclosed : (closeGrantQuietly n (s.modify n fun a => { a with finishing := none })).Orderly := by
      unfold closeGrantQuietly
      split
      · exact orderly_modify hended hlt (fun _ => rfl) (fun _ => rfl) (.inl fun _ => rfl) (fun _ => rfl)
          fun _ hheld => hheld
      · exact hended
    have hview : (closeGrantQuietly n (s.modify n fun a => { a with finishing := none })).view = s.view := by
      unfold closeGrantQuietly
      split <;> rfl
    have hsame : (closeGrantQuietly n (s.modify n fun a => { a with finishing := none })).session = s.session :=
      congrArg ServiceView.session hview
    dsimp only
    by_cases hnewer : n + 1 < s.started
    · obtain ⟨hreason, hphase⟩ := hguarded n hstale hnewer reason hfinishing
      have hshown := h.shown (by rw [hphase]; decide)
      rw [if_neg hreason]
      -- The phase is closed already, and stays so.
      have hstays : setPhase .closed (closeGrantQuietly n (s.modify n fun a => { a with finishing := none })) =
          closeGrantQuietly n (s.modify n fun a => { a with finishing := none }) := by
        have hp : (closeGrantQuietly n (s.modify n fun a => { a with finishing := none })).phase = .closed :=
          (congrArg ServiceView.phase hview).trans hphase
        have he : (closeGrantQuietly n (s.modify n fun a => { a with finishing := none })).lastError = none :=
          (congrArg ServiceView.lastError hview).trans hshown
        generalize closeGrantQuietly n (s.modify n fun a => { a with finishing := none }) = u at hp he
        obtain ⟨phase, lastError, session, generation, handler, started, attempts⟩ := u
        dsimp only at hp he
        rw [hp, he]
        rfl
      rw [hstays]
      exact hclosed
    · have hnone := hsame.trans (hnobody hnewer)
      split
      · exact orderly_fail hclosed hnone .expired
      · exact orderly_free hclosed rfl rfl hnone hnone (Nat.le_refl _) fun _ => rfl

theorem orderly_begin (h : s.Orderly) (hnone : s.session = none) (stage : Stage) (grantId : String) :
    (s.begin stage grantId).Orderly := by
  have hnobody : ∀ n, (s.begin stage grantId).session = some n → False := fun n hn => nomatch hnone.symm.trans hn
  have hself : (s.begin stage grantId).attempts s.started =
      { generation := s.connectGeneration + 1, grantId := grantId, stage := some stage } :=
    Function.update_self ..
  have hother : ∀ m, m ≠ s.started → (s.begin stage grantId).attempts m = s.attempts m := fun m hm =>
    Function.update_of_ne hm ..
  have hstarted : (s.begin stage grantId).started = s.started + 1 := rfl
  have hgeneration : (s.begin stage grantId).connectGeneration = s.connectGeneration + 1 := rfl
  refine ⟨?_, ?_, fun n hn => (hnobody n hn).elim, ?_, fun _ => rfl, ?_, ?_, fun n _ hn => hnobody n hn⟩
  · intro k m hk hm
    rw [hstarted] at hm
    have hkne : k ≠ s.started := by omega
    rw [hother k hkne]
    by_cases hnew : m = s.started
    · rw [hnew, hself]
      have hbounded := h.bounded k (by omega)
      exact Nat.lt_succ_of_le hbounded
    · rw [hother m hnew]
      exact h.older k m hk (by omega)
  · intro m hm
    rw [hstarted] at hm
    by_cases hnew : m = s.started
    · rw [hnew, hself]
      exact Nat.le_refl _
    · rw [hother m hnew, hgeneration]
      exact Nat.le_succ_of_le (h.bounded m (by omega))
  · intro m hm
    unfold tunnel at hm
    by_cases hnew : m = s.started
    · rw [hnew, hself] at hm
      cases hm
    · rw [hother m hnew] at hm
      have hsession := (h.tunnel m hm).1
      rw [hnone] at hsession
      cases hsession
  · intro m hm
    rw [hstarted] at hm
    rw [hother m (by omega)]
    exact h.unstarted m (by omega)
  · intro m next hnext hclosed
    refine ⟨fun hn => hnobody m hn, ?_⟩
    by_cases hnew : m = s.started
    · rw [hnew, hself]
    · rw [hother m hnew] at hnext ⊢
      exact (h.waiting m next hnext hclosed).2

variable {platform : Platform}

/-- Every guarded step keeps the attempts in order. -/
theorem orderly_step {a : RdpAction} (h : s.Orderly) (hguarded : s.Guarded a)
    (hstep : s.step platform a = some t) : t.Orderly := by
  have hheld : ∀ n r, (s.attempts n).held r = true → n < s.started := by
    intro n r hr
    by_contra hge
    rw [((h.unstarted n (Nat.le_of_not_lt hge)).2.2 r).1] at hr
    exact Bool.false_ne_true hr
  cases a with
  | connect =>
    cases hstep
    unfold connect
    split
    · exact h
    · rename_i hfree
      have hnone := h.session_none (eq_false_iff.mpr hfree)
      split
      · exact orderly_fail h hnone _
      · exact orderly_begin h hnone _ _
  | connectBridge grantId token =>
    cases hstep
    unfold connectBridge
    split
    · exact h
    · rename_i hfree
      have hnone := h.session_none (eq_false_iff.mpr hfree)
      split
      · exact orderly_fail h hnone _
      · split
        · exact orderly_fail h hnone _
        · exact orderly_begin h hnone _ _
  | close =>
    cases hstep
    unfold close
    cases hsession : s.session with
    | none => exact orderly_free h rfl rfl hsession rfl (Nat.le_succ _) fun _ => rfl
    | some n =>
      -- The generation is the next one already when the session ends.
      have hbefore := orderly_finish h n .user
      unfold finish at hbefore ⊢
      rw [if_neg (not_not.mpr hsession)] at hbefore
      dsimp only
      rw [if_neg (not_not.mpr rfl)]
      exact orderly_free hbefore rfl rfl rfl rfl (Nat.le_succ _) hbefore.shown
  | setHandler =>
    cases hstep
    exact ⟨h.older, h.bounded, h.current, h.tunnel, h.shown, h.unstarted, h.waiting, h.finishing⟩
  | resumes =>
    obtain ⟨stage, hstage, rfl⟩ := map_eq_some_iff.mp hstep
    exact orderly_resumes h hstage hguarded
  | finishes =>
    obtain ⟨finishing, hfinishing, rfl⟩ := map_eq_some_iff.mp hstep
    exact orderly_resumeFinish h hfinishing hguarded
  | ttlFires n =>
    unfold step at hstep
    dsimp only at hstep
    split at hstep
    · rename_i hr
      cases hstep
      have hfired : (s.modify n (.drop .grantTtl)).Orderly :=
        orderly_modify h (hheld n _ hr) (fun _ => rfl) (fun _ => rfl) (.inl fun _ => rfl) (fun _ => rfl)
          (mild_drop .grantTtl).socket
      unfold ttlFires
      split
      · exact orderly_finish hfired n .expired
      · exact hfired
    · cases hstep
  | clientExits n =>
    unfold step at hstep
    dsimp only at hstep
    split at hstep
    · rename_i hr
      cases hstep
      have hexited : (s.modify n (.drop .mstsc)).Orderly :=
        orderly_modify h (hheld n _ hr) (fun _ => rfl) (fun _ => rfl) (.inl fun _ => rfl) (fun _ => rfl)
          (mild_drop .mstsc).socket
      unfold clientExits
      split
      · exact orderly_finish hexited n .mstscExited
      · exact hexited
    · cases hstep
  | transportEnds n =>
    unfold step at hstep
    dsimp only at hstep
    split at hstep
    · cases hstep
      exact orderly_finish h n _
    · cases hstep

end RdpConnectorService

end LigamentApps.RdpConnector
