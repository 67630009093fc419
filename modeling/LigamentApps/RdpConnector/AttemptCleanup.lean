import LigamentApps.RdpConnector.AttemptAccounts

/-!
# What an attempt leaves behind

An attempt that is over should have closed what it has opened, and its grant. `_finish` does that for the
session that it ends, and an attempt that finds itself superseded for what it has opened since. `_fail` does
not: it forgets the session. So everything is closed in the runs in which `_fail` finds no session, a grant
comes to an attempt that still is the current one, and the grants have a handler. -/

namespace LigamentApps.RdpConnector

variable {stage : Stage} {n : ℕ}

/-- The grant comes to an attempt that can use it: it is the current one, and there is no session. -/
def Stage.getsGrant (s : RdpConnectorService) (n : ℕ) (reply : Reply) : Stage → Prop
  | .grant => ∀ grant ∈ reply.grant, reply.error = none → grant.grantId ≠ "" →
    s.connectGeneration = (s.attempts n).generation ∧ grant.token ≠ "" ∧ s.session = none
  | .bridgeInfo =>
    reply.error = none ∧ s.connectGeneration = (s.attempts n).generation ∧ reply.endpoint = true ∧ s.session = none
  | _ => True

/-- `_finish` finds a handler for the grant, and no session if it is to fail. -/
def Finishing.ends (s : RdpConnectorService) : Finishing → Prop
  | .ws _ => True
  | .listener reason => s.closeGrantHandler = true ∧ (reason = .expired → s.session = none)

namespace RdpConnectorService

/-- The step calls `_fail` only if there is no session, a grant that comes is one for the current attempt, and
the grant of a session that ends has a handler to close it. -/
def Tidy (platform : Platform) (s : RdpConnectorService) : RdpAction → Prop
  | .connect => (s.isBusy || s.isActive) = false → platform.canRunMstsc = false → s.session = none
  | .connectBridge grantId token =>
    (s.isBusy || s.isActive) = false → platform.canRunMstsc = false ∨ grantId = "" ∨ token = "" → s.session = none
  | .resumes n reply =>
    ∀ stage ∈ (s.attempts n).stage, (stage.fails s n reply = true → s.session = none) ∧ stage.getsGrant s n reply
  | .finishes n => ∀ finishing ∈ (s.attempts n).finishing, finishing.ends s
  | .close | .setHandler _ | .ttlFires _ | .clientExits _ | .transportEnds _ _ => True

instance (s : RdpConnectorService) (n : ℕ) (reply : Reply) : ∀ stage : Stage, Decidable (stage.getsGrant s n reply)
  | .grant => inferInstanceAs (Decidable (∀ grant ∈ reply.grant, _ → _ → _ ∧ _))
  | .bridgeInfo => inferInstanceAs (Decidable (_ ∧ _))
  | .localIps | .bind _ | .directTcp | .directClaim | .claimFailed _ | .claimLate | .websocket | .websocketFailed _
  | .launch | .accept | .bridgeTcp | .liveness | .bridgeBind | .bridgeLaunch | .bridgeAccept =>
    inferInstanceAs (Decidable True)

instance (s : RdpConnectorService) : ∀ finishing : Finishing, Decidable (finishing.ends s)
  | .ws _ => inferInstanceAs (Decidable True)
  | .listener _ => inferInstanceAs (Decidable (_ ∧ (_ → _)))

instance (platform : Platform) (s : RdpConnectorService) : ∀ a : RdpAction, Decidable (s.Tidy platform a)
  | .connect => inferInstanceAs (Decidable (_ → _ → _))
  | .connectBridge _ _ => inferInstanceAs (Decidable (_ → _ → _))
  | .resumes n reply =>
    inferInstanceAs (Decidable (∀ stage ∈ (s.attempts n).stage,
      (stage.fails s n reply = true → s.session = none) ∧ stage.getsGrant s n reply))
  | .finishes n => inferInstanceAs (Decidable (∀ finishing ∈ (s.attempts n).finishing, finishing.ends s))
  | .close | .setHandler _ | .ttlFires _ | .clientExits _ | .transportEnds _ _ => inferInstanceAs (Decidable True)

/-- The attempt is over: nothing of it is left to go on, and it has not the session. -/
structure Over (s : RdpConnectorService) (n : ℕ) : Prop where
  stage : (s.attempts n).stage = none
  finishing : (s.attempts n).finishing = none
  session : s.session ≠ some n

/-- What an attempt that is over had opened is closed, and so is its grant. -/
def CleanedUp (s : RdpConnectorService) : Prop :=
  ∀ n, s.Over n → (∀ r, (s.attempts n).held r = false) ∧
    ((s.attempts n).grantId ≠ "" → (s.attempts n).grantClosed = true)

variable {s t : RdpConnectorService} {platform : Platform}

/-! ## The accounts of the service -/

/-- Every attempt is accounted for. -/
structure Ledger (s : RdpConnectorService) : Prop where
  accounted : ∀ n, Accounted (s.attempts n) (s.session = some n)
  started : ∀ n, s.session = some n → n < s.started
  unstarted : ∀ n, s.started ≤ n → (s.attempts n).stage = none ∧ (s.attempts n).finishing = none ∧
    (s.attempts n).grantId = "" ∧ ∀ r, (s.attempts n).held r = false ∧ (s.attempts n).fields r = false

theorem Ledger.lt_of_stage (h : s.Ledger) (hstage : (s.attempts n).stage = some stage) : n < s.started := by
  by_contra hge
  have hnone := (h.unstarted n (Nat.le_of_not_lt hge)).1
  rw [hstage] at hnone
  exact Option.some_ne_none _ hnone

theorem ledger_of_one (h : s.Ledger) (hlt : n < s.started) (hstarted : t.started = s.started)
    (hothers : ∀ m, m ≠ n → t.attempts m = s.attempts m)
    (hsession : ∀ m, m ≠ n → (t.session = some m ↔ s.session = some m))
    (haccounted : Accounted (t.attempts n) (t.session = some n)) : t.Ledger := by
  refine ⟨fun m => ?_, fun m hm => ?_, fun m hm => ?_⟩
  · by_cases hmn : m = n
    · rw [hmn]
      exact haccounted
    · rw [hothers m hmn, hsession m hmn]
      exact h.accounted m
  · rw [hstarted]
    by_cases hmn : m = n
    · rw [hmn]
      exact hlt
    · exact h.started m ((hsession m hmn).mp hm)
  · rw [hstarted] at hm
    have hmn : m ≠ n := fun heq => Nat.not_lt.mpr hm (heq ▸ hlt)
    rw [hothers m hmn]
    exact h.unstarted m hm

theorem ledger_of_same (h : s.Ledger) (hattempts : t.attempts = s.attempts) (hstarted : t.started = s.started)
    (hsession : t.session = s.session) : t.Ledger := by
  refine ⟨?_, ?_, ?_⟩
  · rw [hattempts, hsession]
    exact h.accounted
  · rw [hsession, hstarted]
    exact h.started
  · rw [hattempts, hstarted]
    exact h.unstarted

theorem ledger_fail (h : s.Ledger) (hnone : s.session = none) (failure : Failure) : (s.fail failure).Ledger := by
  have hattempts : (s.fail failure).attempts = s.attempts := by
    unfold fail
    rw [hnone]
  exact ledger_of_same h hattempts (started_fail failure) hnone.symm

section Resume

variable {n : ℕ} {u : RdpConnectorService} {a : Attempt} {mine : Prop} (h : Accounted a mine)
include h

theorem nothing_held (hstage : a.stage = some stage) (hclosed : stage.opened = false) (r : Resource) :
    a.held r = false := by
  obtain ⟨hmine, hfinishing, -⟩ := h.waiting stage hstage hclosed
  refine Bool.eq_false_iff.mpr fun hr => ?_
  obtain ⟨-, hclaim⟩ | ⟨-, hyes | ⟨-, reason, hending⟩⟩ := h.held r hr
  · have hsame := Option.some.inj (hstage.symm.trans hclaim)
    rw [hsame] at hclosed
    cases hclosed
  · exact hmine hyes
  · rw [hfinishing] at hending
    cases hending

theorem accounted_claims (hstage : a.stage = some .directTcp) :
    Accounted ((Attempt.hold .remote { a with stage := none }).await .directClaim) mine := by
  refine ⟨fun r hr => ?_, fun hgrant => ?_, fun next hnext hclosed => ?_⟩
  · by_cases hremote : r = .remote
    · exact .inl ⟨hremote, rfl⟩
    · right
      have hbefore : a.held r = true := (Attempt.held_hold hr).resolve_right hremote
      obtain ⟨hsame, -⟩ | haccount := h.held r hbefore
      · exact absurd hsame hremote
      · exact haccount
  · obtain hdone | hmine | hfinishing | hinfo := h.grant hgrant
    · exact .inl hdone
    · exact .inr (.inl hmine)
    · exact .inr (.inr (.inl hfinishing))
    · cases hstage.symm.trans hinfo
  · cases hnext
    cases hclosed

theorem accounted_claimed {b : Attempt} (hstage : a.stage = some .directClaim)
    (hheld : ∀ r, b.held r = true → a.held r = true ∧ r ≠ .remote ∨ b.fields r = true ∧ mine)
    (hfields : ∀ r, a.fields r = true → b.fields r = true) (hfinishing : b.finishing = a.finishing)
    (hgrantId : b.grantId = a.grantId) (hgrantClosed : b.grantClosed = a.grantClosed)
    (hopened : ∀ next, b.stage = some next → next.opened = true) : Accounted b mine := by
  refine ⟨fun r hr => .inr ?_, fun hgrant => ?_, fun next hnext hclosed => ?_⟩
  · obtain ⟨hbefore, hother⟩ | hkept := hheld r hr
    · obtain ⟨hremote, -⟩ | ⟨hfield, haccount⟩ := h.held r hbefore
      · exact absurd hremote hother
      · rw [hfinishing]
        exact ⟨hfields r hfield, haccount⟩
    · exact ⟨hkept.1, .inl hkept.2⟩
  · rw [hgrantClosed, hfinishing]
    obtain hdone | hmine | hends | hinfo := h.grant (hgrantId ▸ hgrant)
    · exact .inl hdone
    · exact .inr (.inl hmine)
    · exact .inr (.inr (.inl hends))
    · cases hstage.symm.trans hinfo
  · cases hclosed.symm.trans (hopened next hnext)

end Resume

theorem accounted_bare {a : Attempt} {mine : Prop} (hheld : ∀ r, a.held r = false) (hgrant : a.grantId = "" ∨ mine)
    (hwaiting : ∀ stage, a.stage = some stage → stage.opened = false →
      ¬mine ∧ a.finishing = none ∧ a.grantId = "") :
    Accounted a mine := by
  refine ⟨fun r hr => ?_, fun hne => ?_, fun stage hstage hclosed => ?_⟩
  · rw [hheld r] at hr
    cases hr
  · exact .inr (.inl (hgrant.resolve_left hne))
  · obtain ⟨hmine, hfinishing, hnone⟩ := hwaiting stage hstage hclosed
    exact ⟨hmine, hfinishing, fun _ => hnone⟩

theorem accounted_directClaim {a : Attempt} (h : Accounted a (s.session = some n))
    (hstage : a.stage = some .directClaim) (hs : s.attempts n = { a with stage := none }) (reply : Reply) :
    let t := resumeAttempt n .directClaim reply s
    t.started = s.started ∧ t.session = s.session ∧ (∀ m, m ≠ n → t.attempts m = s.attempts m) ∧
      Accounted (t.attempts n) (s.session = some n) := by
  intro t
  have ht : t = resumeAttempt n .directClaim reply s := rfl
  clear_value t
  unfold resumeAttempt at ht
  dsimp only at ht
  split at ht
  · subst ht
    refine ⟨rfl, rfl, fun m hm => ?_, ?_⟩
    · unfold teardownListener
      rw [attempts_modify_ne hm, attempts_modify_ne hm, attempts_modify_ne hm]
    · unfold teardownListener
      rw [attempts_modify_self, attempts_modify_self, attempts_modify_self, hs]
      refine accounted_claimed h hstage (fun r hr => .inl ?_) (fun _ hr => hr) rfl rfl rfl fun next hnext => ?_
      · have hdropped := (Attempt.held_release hr).1
        exact Attempt.held_drop hdropped
      · cases hnext
        rfl
  · split at ht
    · subst ht
      refine ⟨rfl, rfl, fun m hm => ?_, ?_⟩
      · unfold quietTeardown
        rw [attempts_modify_ne hm, attempts_modify_ne hm, attempts_modify_ne hm, attempts_modify_ne hm]
      · unfold quietTeardown
        rw [attempts_modify_self, attempts_modify_self, attempts_modify_self, attempts_modify_self, hs]
        have hclaimed : ∀ claimed : Attempt, (∀ r, claimed.held r = true → a.held r = true ∨
            r = .heartbeatTimer ∧ claimed.fields r = true) → (∀ r, a.fields r = true → claimed.fields r = true) →
              claimed.finishing = a.finishing → claimed.grantId = a.grantId →
                claimed.grantClosed = a.grantClosed → Accounted ((((claimed.drop .remote).release
                  [.grantTtl, .heartbeatTimer, .tempRdpFile, .remote, .listener]).drop .ws).await .claimLate)
                    (s.session = some n) := by
          intro claimed hheld hfields hfinishing hgrantId hgrantClosed
          refine accounted_claimed h hstage (fun r hr => .inl ?_) hfields hfinishing hgrantId hgrantClosed
            fun next hnext => ?_
          · obtain ⟨hdropped, hkept⟩ := Attempt.held_release (Attempt.held_drop hr).1
            obtain ⟨hbefore, hremote⟩ := Attempt.held_drop hdropped
            obtain hold | ⟨hheartbeat, hfield⟩ := hheld r hbefore
            · exact ⟨hold, hremote⟩
            · -- The heartbeat of a late claim is stopped again.
              subst hheartbeat
              have hstopped : (claimed.drop .remote).fields .heartbeatTimer = true := hfield
              rw [hstopped] at hkept
              cases hkept
          · cases hnext
            rfl
        cases reply.sessionId with
        | false => exact hclaimed _ (fun _ hr => .inl hr) (fun _ hr => hr) rfl rfl rfl
        | true =>
          refine hclaimed _ (fun r hr => ?_) (fun r hr => Attempt.fields_keep (.inl hr)) rfl rfl rfl
          obtain hold | hheartbeat := Attempt.held_keep hr
          · exact .inl hold
          · exact .inr ⟨hheartbeat, Attempt.fields_keep (.inr hheartbeat)⟩
    · rename_i hcurrent
      have hmine := session_of_current hcurrent
      have hbeats : GoesOn n s (s.modify n fun a => if reply.sessionId then a.keep .heartbeatTimer else a) := by
        refine goesOn_modify ?_
        split
        · exact grows_keep hmine _
        · exact .refl _
      have hremote : GoesOn n s ((s.modify n fun a => if reply.sessionId then a.keep .heartbeatTimer else a).modify n
          (.keep .remote)) :=
        hbeats.trans (goesOn_modify (grows_keep hmine _))
      have hlaunched := goesOn_launchClient (s := (s.modify n fun a =>
        if reply.sessionId then a.keep .heartbeatTimer else a).modify n (.keep .remote)) hmine .launch reply.file
      have hfield : (t.attempts n).fields .remote = true := by
        rw [ht]
        refine hlaunched.grows.fields .remote ?_
        rw [attempts_modify_self]
        exact Attempt.fields_keep (.inr rfl)
      have hgoesOn : GoesOn n s t := ht ▸ hremote.trans hlaunched
      have hnext : (t.attempts n).stage = some .launch := by
        rw [ht]
        unfold launchClient
        rw [attempts_modify_self]
        rfl
      refine ⟨hgoesOn.started, hgoesOn.session, hgoesOn.others, ?_⟩
      have hgrows := hgoesOn.grows
      rw [hs] at hgrows
      have hclosed : (t.attempts n).grantClosed = a.grantClosed := by
        rw [ht]
        unfold launchClient setPhase
        rw [attempts_modify_self]
        rw [attempts_modify_self, attempts_modify_self, hs]
        cases reply.file <;> cases reply.sessionId <;> rfl
      refine accounted_claimed h hstage (fun r hr => ?_) hgrows.fields hgrows.finishing hgrows.grantId hclosed ?_
      · obtain hbefore | hkept := hgrows.held r hr
        · by_cases hr : r = .remote
          · rw [hr]
            exact .inr ⟨hfield, hmine⟩
          · exact .inl ⟨hbefore, hr⟩
        · exact .inr hkept
      · intro next hsome
        cases hnext.symm.trans hsome
        rfl

/-- The attempt is no longer waiting. -/
def awoken (n : ℕ) (s : RdpConnectorService) : RdpConnectorService := s.modify n fun a => { a with stage := none }

theorem fails_awoken (n : ℕ) (stage : Stage) (reply : Reply) :
    stage.fails (s.awoken n) n reply = stage.fails s n reply := by
  have hself : (s.awoken n).attempts n = { s.attempts n with stage := none } := attempts_modify_self ..
  have hgeneration : ((s.awoken n).attempts n).generation = (s.attempts n).generation := by rw [hself]
  have hsuperseded : (s.awoken n).superseded n = s.superseded n := by
    unfold superseded
    rw [hgeneration]
    rfl
  have hcurrent : (s.awoken n).connectGeneration = s.connectGeneration := rfl
  cases stage <;> simp only [Stage.fails, hsuperseded, hgeneration, hcurrent]

theorem opened_of_plain {next : Stage} (hlater : stage ≠ .localIps) {reply : Reply}
    (hidle : (s.attempts n).stage = none)
    (hnext : ((resumeAttempt n stage reply s).attempts n).stage = some next) : next.opened = true := by
  have hnone : ∀ stage, (s.attempts n).stage ≠ some stage := by
    intro stage h
    rw [hidle] at h
    cases h
  obtain htouches | ⟨-, hbegins⟩ := resumeAttempt_touches hlater reply
  · exact (htouches.course.2.2 next hnext).resolve_left (hnone next)
  · rw [hbegins] at hnext
    unfold tunnelBegins setPhase at hnext
    rw [attempts_modify_self] at hnext
    exact absurd hnext (hnone next)

section Resumes

variable {n : ℕ} {stage : Stage} {reply : Reply} (h : s.Ledger) (hstage : (s.attempts n).stage = some stage)
include h hstage

theorem ledger_goesOn (hother : stage ≠ .directClaim ∧ stage ≠ .bridgeInfo) (hgoes : GoesOn n (s.awoken n) t)
    (hopened : ∀ next, (t.attempts n).stage = some next → next.opened = true) : t.Ledger := by
  have hself : (s.awoken n).attempts n = { s.attempts n with stage := none } := attempts_modify_self ..
  refine ledger_of_one h (h.lt_of_stage hstage) hgoes.started (fun m hm => ?_) (fun m _ => ?_) ?_
  · rw [hgoes.others m hm]
    exact attempts_modify_ne hm _
  · rw [hgoes.session]
    rfl
  · rw [hgoes.session]
    have hgrows := hgoes.grows
    rw [hself] at hgrows
    exact accounted_of_grows (h.accounted n) hstage hother hgrows hopened

theorem ledger_bare {b : Attempt} (hclosed : stage.opened = false) (hstarted : t.started = s.started)
    (hothers : ∀ m, m ≠ n → t.attempts m = s.attempts m)
    (hsession : ∀ m, m ≠ n → (t.session = some m ↔ s.session = some m)) (hattempt : t.attempts n = b)
    (hheld : b.held = (s.attempts n).held) (hgrant : b.grantId = "" ∨ t.session = some n)
    (hwaiting : ∀ next, b.stage = some next → next.opened = false →
      t.session ≠ some n ∧ b.finishing = none ∧ b.grantId = "") : t.Ledger := by
  refine ledger_of_one h (h.lt_of_stage hstage) hstarted hothers hsession ?_
  rw [hattempt]
  refine accounted_bare (fun r => ?_) hgrant hwaiting
  rw [hheld]
  exact nothing_held (h.accounted n) hstage hclosed r

theorem ledger_grant (hgrant : stage = .grant) (hfails : stage.fails s n reply = true → s.session = none)
    (hgets : stage.getsGrant s n reply) : (resumeAttempt n .grant reply (s.awoken n)).Ledger := by
  subst hgrant
  have hself : (s.awoken n).attempts n = { s.attempts n with stage := none } := attempts_modify_self ..
  have hgeneration : ((s.awoken n).attempts n).generation = (s.attempts n).generation := by rw [hself]
  have hother : Stage.grant ≠ .directClaim ∧ Stage.grant ≠ .bridgeInfo := ⟨nofun, nofun⟩
  have hidle : ∀ next, ((s.awoken n).attempts n).stage = some next → next.opened = true := by
    intro next hnext
    rw [hself] at hnext
    cases hnext
  unfold Stage.fails at hfails
  unfold resumeAttempt
  dsimp only at hfails hgets ⊢
  split
  · rename_i error herror
    rw [herror] at hfails
    have hnone : (s.awoken n).session = none := hfails rfl
    refine ledger_goesOn h hstage hother (goesOn_fail n hnone _) fun next hnext => hidle next ?_
    rw [← hnext]
    unfold fail
    rw [hnone]
  · split
    · exact ledger_goesOn h hstage hother (goesOn_refl n) hidle
    · exact ledger_goesOn h hstage hother (goesOn_setPhase n _) hidle
  · rename_i grant herror hsome
    have hpresent := hgets grant hsome herror
    have hgranted : ((s.awoken n).modify n fun a => { a with grantId := grant.grantId }).attempts n =
        { s.attempts n with stage := none, grantId := grant.grantId } := by
      rw [attempts_modify_self, hself]
    have hothers : ∀ m, m ≠ n → ((s.awoken n).modify n fun a => { a with grantId := grant.grantId }).attempts m =
        s.attempts m := by
      intro m hm
      rw [attempts_modify_ne hm]
      exact attempts_modify_ne hm _
    have hlate : ∀ u : RdpConnectorService, u.started = s.started → u.session = s.session →
        u.attempts = ((s.awoken n).modify n fun a => { a with grantId := grant.grantId }).attempts →
          grant.grantId = "" → u.Ledger := by
      intro u hstarted hsession hattempts hempty
      refine ledger_bare h hstage rfl hstarted ?_ (fun m _ => by rw [hsession])
        ((congrFun hattempts n).trans hgranted)
        rfl (.inl hempty) fun _ hnext => absurd hnext nofun
      rw [hattempts]
      exact hothers
    split
    · rename_i houtdated
      rw [hgeneration] at houtdated
      refine hlate _ rfl rfl rfl ?_
      by_contra hne
      exact houtdated (hpresent hne).1
    · rename_i hcurrent
      rw [hgeneration] at hcurrent
      split
      · rename_i hmalformed
        have hempty : grant.grantId = "" := by
          by_contra hne
          simp only [Bool.or_eq_true, decide_eq_true_eq] at hmalformed
          exact hmalformed.elim hne (hpresent hne).2.1
        have hnone : s.session = none := by
          have hgeneration : s.connectGeneration = (s.attempts n).generation := not_not.mp hcurrent
          refine hfails ?_
          rw [hsome, decide_eq_true hgeneration, Bool.true_and]
          exact Bool.or_eq_true_iff.mpr (.inr hmalformed)
        refine hlate _ (started_fail _) hnone.symm ?_ hempty
        unfold fail
        have hgone : ((s.awoken n).modify n fun a => { a with grantId := grant.grantId }).session = none := hnone
        rw [hgone]
      · rename_i hwell
        have hne : grant.grantId ≠ "" := by
          intro hempty
          exact hwell (by simp [hempty])
        obtain ⟨-, -, hnone⟩ := hpresent hne
        refine ledger_bare h hstage rfl rfl (fun m hm => ?_) (fun m hm => ?_)
          ((attempts_modify_self ..).trans (congrArg (Attempt.await (.bind grant.direct)) hgranted)) rfl (.inr rfl)
            fun next hnext hclosed => ?_
        · rw [attempts_modify_ne hm]
          exact hothers m hm
        · rw [hnone]
          exact ⟨fun hsame => absurd (Option.some.inj hsame).symm hm, nofun⟩
        · cases hnext
          cases hclosed

theorem ledger_bridgeInfo (hinfo : stage = .bridgeInfo) (hgets : stage.getsGrant s n reply) :
    (resumeAttempt n .bridgeInfo reply (s.awoken n)).Ledger := by
  subst hinfo
  have hself : (s.awoken n).attempts n = { s.attempts n with stage := none } := attempts_modify_self ..
  have hgeneration : ((s.awoken n).attempts n).generation = (s.attempts n).generation := by rw [hself]
  obtain ⟨herror, hcurrent, hendpoint, hnone⟩ := hgets
  have hkept : ¬(s.awoken n).connectGeneration ≠ ((s.awoken n).attempts n).generation := by
    rw [hgeneration]
    exact not_not.mpr hcurrent
  unfold resumeAttempt
  rw [herror]
  dsimp only
  rw [if_neg hkept, hendpoint]
  have hopens : ((setPhase .tunnel { s.awoken n with session := some n }).modify n (.await .bridgeTcp)).Ledger := by
    refine ledger_bare h hstage rfl rfl (fun m hm => ?_) (fun m hm => ?_)
      ((attempts_modify_self ..).trans (congrArg (Attempt.await .bridgeTcp) hself)) rfl (.inr rfl)
        fun next hnext hclosed => ?_
    · rw [attempts_modify_ne hm]
      have hkept : (s.awoken n).attempts m = s.attempts m := attempts_modify_ne hm _
      exact hkept
    · have hmine : some n = some m ↔ s.session = some m := by
        rw [hnone]
        exact ⟨fun hsame => absurd (Option.some.inj hsame).symm hm, nofun⟩
      exact hmine
    · cases hnext
      cases hclosed
  exact hopens

theorem ledger_directTcp (hdirect : stage = .directTcp) :
    (resumeAttempt n .directTcp reply (s.awoken n)).Ledger := by
  subst hdirect
  have hself : (s.awoken n).attempts n = { s.attempts n with stage := none } := attempts_modify_self ..
  have hother : Stage.directTcp ≠ .directClaim ∧ Stage.directTcp ≠ .bridgeInfo := ⟨nofun, nofun⟩
  have hidle : ((s.awoken n).attempts n).stage = none := by rw [hself]
  have hopened : ∀ next, ((resumeAttempt n .directTcp reply (s.awoken n)).attempts n).stage = some next →
      next.opened = true := fun next hnext => opened_of_plain (show Stage.directTcp ≠ .localIps from nofun) hidle hnext
  unfold resumeAttempt at hopened ⊢
  dsimp only at hopened ⊢
  split at hopened
  · rename_i hsuperseded
    rw [if_pos hsuperseded]
    exact ledger_goesOn h hstage hother (goesOn_quietTeardown n) hopened
  · rename_i hcurrent
    rw [if_neg hcurrent]
    split
    · refine ledger_of_one h (h.lt_of_stage hstage) rfl (fun m hm => ?_) (fun _ _ => Iff.rfl) ?_
      · refine (attempts_modify_ne hm _).trans ?_
        exact attempts_modify_ne hm _
      · rw [attempts_modify_self, hself]
        exact accounted_claims (h.accounted n) hstage
    · rename_i herror
      rw [if_neg herror] at hopened
      exact ledger_goesOn h hstage hother (goesOn_openWebsocket n) hopened

theorem ledger_resumes (hfails : stage.fails s n reply = true → s.session = none)
    (hgets : stage.getsGrant s n reply) : (resumeAttempt n stage reply (s.awoken n)).Ledger := by
  have hself : (s.awoken n).attempts n = { s.attempts n with stage := none } := attempts_modify_self ..
  have hidle : ((s.awoken n).attempts n).stage = none := by rw [hself]
  by_cases hplain : plain stage = true
  · have hother : stage ≠ .directClaim ∧ stage ≠ .bridgeInfo := by
      constructor
      · rintro rfl
        cases hplain
      · rintro rfl
        cases hplain
    have hlater : stage ≠ .localIps := by
      rintro rfl
      cases hplain
    rw [← fails_awoken] at hfails
    exact ledger_goesOn h hstage hother (goesOn_resumeAttempt hplain hfails) fun next hnext =>
      opened_of_plain hlater hidle hnext
  · cases stage with
    | localIps =>
      obtain ⟨hmine, hfinishing, hgrantId⟩ := (h.accounted n).waiting .localIps hstage rfl
      have hasks : ((s.awoken n).modify n (.await .grant)).Ledger := by
        refine ledger_bare h hstage rfl rfl (fun m hm => ?_) (fun _ _ => Iff.rfl)
          ((attempts_modify_self ..).trans (congrArg (Attempt.await .grant) hself)) rfl (.inl (hgrantId nofun))
            fun _ _ _ => ⟨hmine, hfinishing, hgrantId nofun⟩
        rw [attempts_modify_ne hm]
        exact attempts_modify_ne hm _
      exact hasks
    | grant => exact ledger_grant h hstage rfl hfails hgets
    | bridgeInfo => exact ledger_bridgeInfo h hstage rfl hgets
    | directTcp => exact ledger_directTcp h hstage rfl
    | directClaim =>
      obtain ⟨hstarted, hsession, hothers, haccounted⟩ := accounted_directClaim (s := s.awoken n)
        (h.accounted n) hstage hself reply
      refine ledger_of_one h (h.lt_of_stage hstage) hstarted (fun m hm => ?_) (fun m _ => ?_) ?_
      · exact (hothers m hm).trans (attempts_modify_ne hm _)
      · rw [hsession]
        rfl
      · rw [hsession]
        exact haccounted
    | _ => exact absurd rfl hplain

end Resumes

theorem ledger_setPhase (h : s.Ledger) (p : RdpTunnelPhase) : (s.setPhase p).Ledger := ledger_of_same h rfl rfl rfl

theorem Ledger.lt_of_held (h : s.Ledger) {r : Resource} (hheld : (s.attempts n).held r = true) : n < s.started := by
  by_contra hge
  obtain ⟨-, -, -, hnothing⟩ := h.unstarted n (Nat.le_of_not_lt hge)
  cases hheld.symm.trans (hnothing r).1

theorem Ledger.lt_of_finishing (h : s.Ledger) {finishing : Finishing}
    (hfinishing : (s.attempts n).finishing = some finishing) : n < s.started := by
  by_contra hge
  obtain ⟨-, hnone, -⟩ := h.unstarted n (Nat.le_of_not_lt hge)
  cases hfinishing.symm.trans hnone

theorem ledger_finish (h : s.Ledger) {reason : EndReason}
    (hexited : reason = .mstscExited → (s.attempts n).held .mstsc = false) : (s.finish n reason).Ledger := by
  unfold finish
  split
  · exact h
  · rename_i hcurrent
    have hmine : s.session = some n := not_not.mp hcurrent
    refine ledger_of_one h (h.started n hmine) rfl (fun m hm => attempts_modify_ne hm _) (fun m hm => ?_) ?_
    · have hother : none = some m ↔ s.session = some m := by
        rw [hmine]
        exact ⟨nofun, fun hsame => absurd (Option.some.inj hsame).symm hm⟩
      exact hother
    · rw [attempts_modify_self]
      have hbefore := h.accounted n
      refine ⟨fun r hr => ?_, fun _ => .inr (.inr (.inl nofun)), fun stage hstage hclosed => ?_⟩
      · obtain ⟨hheld, hkept⟩ := Attempt.held_release hr
        obtain hclaims | ⟨hfields, -⟩ := hbefore.held r hheld
        · exact .inl hclaims
        · rw [hfields, Bool.and_true] at hkept
          have hlistener : r = .listener := by
            -- Only the listener is left, and a client that is gone already.
            unfold finished at hkept
            by_cases hreason : reason = .mstscExited
            · have hgone : r ≠ .mstsc := by
                rintro rfl
                cases hheld.symm.trans (hexited hreason)
              rw [if_pos hreason] at hkept
              cases r <;> first | rfl | exact absurd rfl hgone | cases hkept
            · rw [if_neg hreason] at hkept
              cases r <;> first | rfl | cases hkept
          exact .inr ⟨hfields, .inr ⟨hlistener, reason, rfl⟩⟩
      · exact absurd hmine (hbefore.waiting stage hstage hclosed).1

theorem ledger_resumeFinish (h : s.Ledger) {finishing : Finishing}
    (hfinishing : (s.attempts n).finishing = some finishing) (hends : finishing.ends s) :
    (s.resumeFinish n finishing).Ledger := by
  have hbefore := h.accounted n
  have hlt := h.lt_of_finishing hfinishing
  unfold resumeFinish
  cases finishing with
  | ws =>
    refine ledger_of_one h hlt rfl (fun m hm => attempts_modify_ne hm _) (fun _ _ => Iff.rfl) ?_
    rw [attempts_modify_self]
    refine ⟨fun r hr => ?_, fun _ => .inr (.inr (.inl nofun)), fun stage hstage hclosed => ?_⟩
    · obtain ⟨hheld, hkept⟩ := Attempt.held_release hr
      obtain hclaims | ⟨hfields, haccount⟩ := hbefore.held r hheld
      · exact .inl hclaims
      · refine .inr ⟨hfields, haccount.imp_right fun hlistener => ?_⟩
        rw [hlistener.1] at hkept hfields
        rw [hfields] at hkept
        cases hkept
    · obtain ⟨-, hnone, -⟩ := hbefore.waiting stage hstage hclosed
      cases hfinishing.symm.trans hnone
  | listener reason =>
    obtain ⟨hhandler, hexpired⟩ := hends
    have hclosed : (closeGrantQuietly n (s.modify n fun a => { a with finishing := none })).Ledger := by
      have hclosing : (s.modify n fun a => { a with finishing := none }).closeGrantHandler = true := hhandler
      unfold closeGrantQuietly
      rw [if_pos hclosing]
      refine ledger_of_one h hlt rfl (fun m hm => ?_) (fun _ _ => Iff.rfl) ?_
      · rw [attempts_modify_ne hm]
        exact attempts_modify_ne hm _
      · rw [attempts_modify_self, attempts_modify_self]
        refine ⟨fun r hr => ?_, fun _ => .inl rfl, fun next hnext hwaits => ?_⟩
        · obtain hclaims | ⟨hfields, hmine | ⟨-, other, hws⟩⟩ := hbefore.held r hr
          · exact .inl hclaims
          · exact .inr ⟨hfields, .inl hmine⟩
          · cases hfinishing.symm.trans hws
        · obtain ⟨-, hnone, -⟩ := hbefore.waiting next hnext hwaits
          cases hfinishing.symm.trans hnone
    have hsession : (closeGrantQuietly n (s.modify n fun a => { a with finishing := none })).session =
        s.session := by
      unfold closeGrantQuietly
      split
      · rfl
      · rfl
    dsimp only
    split
    · rename_i hreason
      exact ledger_fail hclosed (hsession.trans (hexpired hreason)) _
    · exact ledger_setPhase hclosed _

theorem ledger_drop (h : s.Ledger) (hlt : n < s.started) (r : Resource) : (s.modify n (.drop r)).Ledger := by
  refine ledger_of_one h hlt rfl (fun m hm => attempts_modify_ne hm _) (fun _ _ => Iff.rfl) ?_
  rw [attempts_modify_self]
  have hbefore := h.accounted n
  exact ⟨fun q hq => hbefore.held q (Attempt.held_drop hq).1, hbefore.grant, hbefore.waiting⟩

theorem ledger_begin (h : s.Ledger) {grantId : String} (hgrant : stage ≠ .bridgeInfo → grantId = "") :
    (s.begin stage grantId).Ledger := by
  have hself : (s.begin stage grantId).attempts s.started =
      { generation := s.connectGeneration + 1, grantId := grantId, stage := some stage } := Function.update_self ..
  have hother : ∀ m, m ≠ s.started → (s.begin stage grantId).attempts m = s.attempts m := fun m hm =>
    Function.update_of_ne hm ..
  have hsession : (s.begin stage grantId).session = s.session := rfl
  have hmine : s.session ≠ some s.started := fun hsame => Nat.lt_irrefl _ (h.started _ hsame)
  refine ⟨fun m => ?_, fun m hm => Nat.lt_succ_of_lt (h.started m hm), fun m hm => ?_⟩
  · by_cases hnew : m = s.started
    · rw [hnew, hself, hsession]
      refine ⟨fun r hr => absurd hr Bool.false_ne_true, fun hne => ?_, fun next hnext _ => ?_⟩
      · have hinfo : stage = .bridgeInfo := by
          by_contra hplain
          exact hne (hgrant hplain)
        exact .inr (.inr (.inr (congrArg some hinfo)))
      · cases hnext
        exact ⟨hmine, rfl, hgrant⟩
    · rw [hother m hnew, hsession]
      exact h.accounted m
  · have hle : s.started + 1 ≤ m := hm
    rw [hother m (by omega)]
    exact h.unstarted m (by omega)

/-- Every tidy step leaves what is held accounted for. -/
theorem ledger_step (h : s.Ledger) {action : RdpAction} (htidy : s.Tidy platform action)
    (hstep : s.step platform action = some t) : t.Ledger := by
  cases action with
  | connect =>
    cases hstep
    unfold connect
    split
    · exact h
    · rename_i hidle
      split
      · rename_i hcannot
        have hnone := htidy (Bool.eq_false_iff.mpr hidle) (Bool.not_eq_true' _ |>.mp hcannot)
        exact ledger_fail h hnone _
      · exact ledger_begin h fun _ => rfl
  | connectBridge grantId token =>
    cases hstep
    unfold connectBridge
    split
    · exact h
    · rename_i hidle
      have hnone := htidy (Bool.eq_false_iff.mpr hidle)
      split
      · rename_i hcannot
        exact ledger_fail h (hnone (.inl (Bool.not_eq_true' _ |>.mp hcannot))) _
      · split
        · rename_i hmalformed
          simp only [Bool.or_eq_true, decide_eq_true_eq] at hmalformed
          exact ledger_fail h (hnone (.inr hmalformed)) _
        · exact ledger_begin h fun hne => absurd rfl hne
  | close =>
    cases hstep
    have hnext : ({ s with connectGeneration := s.connectGeneration + 1 } : RdpConnectorService).Ledger :=
      ledger_of_same h rfl rfl rfl
    unfold close
    split
    · exact ledger_setPhase hnext _
    · exact ledger_finish hnext nofun
  | setHandler =>
    cases hstep
    exact ledger_of_same h rfl rfl rfl
  | resumes =>
    obtain ⟨stage, hstage, rfl⟩ := Option.map_eq_some_iff.mp hstep
    obtain ⟨hfails, hgets⟩ := htidy stage hstage
    exact ledger_resumes h hstage hfails hgets
  | finishes =>
    obtain ⟨finishing, hfinishing, rfl⟩ := Option.map_eq_some_iff.mp hstep
    exact ledger_resumeFinish h hfinishing (htidy finishing hfinishing)
  | ttlFires n =>
    unfold step at hstep
    dsimp only at hstep
    split at hstep
    · rename_i hheld
      cases hstep
      have hfired := ledger_drop h (h.lt_of_held hheld) .grantTtl
      unfold ttlFires
      split
      · exact ledger_finish hfired nofun
      · exact hfired
    · cases hstep
  | clientExits n =>
    unfold step at hstep
    dsimp only at hstep
    split at hstep
    · rename_i hheld
      cases hstep
      have hexited := ledger_drop h (h.lt_of_held hheld) .mstsc
      unfold clientExits
      split
      · refine ledger_finish hexited fun _ => ?_
        rw [attempts_modify_self]
        exact Attempt.held_drop_self
      · exact hexited
    · cases hstep
  | transportEnds _ transport =>
    unfold step at hstep
    dsimp only at hstep
    split at hstep
    · cases hstep
      refine ledger_finish h fun hreason => ?_
      cases transport <;> cases hreason
    · cases hstep

theorem ledger_initial : ({} : RdpConnectorService).Ledger :=
  ⟨fun _ => ⟨fun _ h => absurd h nofun, fun h => absurd rfl h, fun _ h => absurd h nofun⟩,
    fun _ h => absurd h nofun, fun _ _ => ⟨rfl, rfl, rfl, fun _ => ⟨rfl, rfl⟩⟩⟩

theorem Ledger.cleanedUp (h : s.Ledger) : s.CleanedUp := by
  intro n hover
  have haccounted := h.accounted n
  have hstage : ∀ stage, (s.attempts n).stage ≠ some stage := by
    intro stage hsome
    cases hover.stage.symm.trans hsome
  constructor
  · intro r
    refine Bool.eq_false_iff.mpr fun hheld => ?_
    obtain ⟨-, hclaims⟩ | ⟨-, hmine | ⟨-, reason, hends⟩⟩ := haccounted.held r hheld
    · exact hstage _ hclaims
    · exact hover.session hmine
    · cases hover.finishing.symm.trans hends
  · intro hgrant
    obtain hclosed | hmine | hends | hinfo := haccounted.grant hgrant
    · exact hclosed
    · exact absurd hmine hover.session
    · exact absurd hover.finishing hends
    · exact absurd hinfo (hstage _)

end RdpConnectorService

/-- In every run in which `_fail` finds no session, each grant comes to an attempt that can use it, and the
grants have a handler when `_finish` ends, every attempt that is over has closed what it had opened, and its
grant. -/
theorem attempts_cleaned_up (platform : Platform) {s : RdpConnectorService} {es : List Empty}
    (h : (rdpMachine platform).Reach (fun s _ a => s.Tidy platform a) {} s es) : s.CleanedUp := by
  have hledger : s.Ledger := by
    refine h.invariant (fun s _ => s.Ledger) RdpConnectorService.ledger_initial ?_
    intro s es a t fs hledger htidy hstep
    obtain ⟨u, hu, heq⟩ := Option.map_eq_some_iff.mp hstep
    cases heq
    exact RdpConnectorService.ledger_step hledger htidy hu
  exact hledger.cleanedUp

/-- The steps of an attempt up to the wait for its client. -/
def untilAccept : List RdpAction :=
  [.connect, .resumes 0 {}, .resumes 0 { grant := some { grantId := "g", token := "t" } }, .resumes 0 {},
    .resumes 0 { file := true }, .resumes 0 { client := .process }]

/-- A session whose bridge closes the connection. -/
theorem attempts_cleaned_up_remoteClosed :
    ∃ s es, (rdpMachine ⟨true, true⟩).Reach (fun s _ a => s.Tidy ⟨true, true⟩ a) {} s es ∧ s.Over 0 ∧
      (s.attempts 0).grantId = "g" ∧ s.CleanedUp := by
  let as := untilAccept ++ [.resumes 0 { loopback := true }, .transportEnds 0 .remoteClosed, .finishes 0,
    .finishes 0]
  have hcheck : ((rdpMachine ⟨true, true⟩).exec (fun s _ a => decide (s.Tidy ⟨true,
      true⟩ a)) {} [] as).any (fun r =>
      (r.1.attempts 0).stage = none && (r.1.attempts 0).finishing = none && r.1.session = none &&
        (r.1.attempts 0).grantId = "g") = true := by
    decide +kernel
  obtain ⟨⟨s, es⟩, hexec, hs⟩ := (Option.any_eq_true ..).mp hcheck
  simp only [Bool.and_eq_true, decide_eq_true_eq] at hs
  obtain ⟨⟨⟨hstage, hfinishing⟩, hsession⟩, hgrant⟩ := hs
  have hreach : (rdpMachine ⟨true, true⟩).Reach (fun s _ a => s.Tidy ⟨true, true⟩ a) {} s es :=
    Machine.reach_of_exec (fun _ _ _ h => of_decide_eq_true h) hexec
  have hover : s.Over 0 := by
    refine ⟨hstage, hfinishing, ?_⟩
    rw [hsession]
    exact nofun
  exact ⟨s, es, hreach, hover, hgrant, attempts_cleaned_up ⟨true, true⟩ hreach⟩

/-- The client does not connect in time. `_fail` forgets the session, and what tears it down then neither ends
the client nor closes the grant. -/
theorem accept_timeout_leaks_client :
    ¬∀ platform s es, (rdpMachine platform).Reach (fun _ _ _ => True) {} s es → s.CleanedUp := by
  intro h
  let as := untilAccept ++ [.resumes 0 { error := some "TimeoutException" }]
  have hcheck : ((rdpMachine ⟨true, true⟩).exec (fun _ _ _ => true) {} [] as).any (fun r =>
      (r.1.attempts 0).stage = none && (r.1.attempts 0).finishing = none && r.1.session = none &&
        (r.1.attempts 0).held .mstsc) = true := by
    decide +kernel
  obtain ⟨⟨s, es⟩, hexec, hs⟩ := (Option.any_eq_true ..).mp hcheck
  simp only [Bool.and_eq_true, decide_eq_true_eq] at hs
  obtain ⟨⟨⟨hstage, hfinishing⟩, hsession⟩, hrunning⟩ := hs
  have hreach : (rdpMachine ⟨true, true⟩).Reach (fun _ _ _ => True) {} s es :=
    Machine.reach_of_exec (fun _ _ _ _ => trivial) hexec
  have hover : s.Over 0 := by
    refine ⟨hstage, hfinishing, ?_⟩
    rw [hsession]
    exact nofun
  have hclosed := (h _ s es hreach 0 hover).1 .mstsc
  cases hrunning.symm.trans hclosed

end LigamentApps.RdpConnector
