import LigamentApps.RdpConnector.AttemptCourse

/-!
# Who closes what an attempt has opened

What an attempt opens is closed by whoever ends its session, by the `_finish` that runs, or by the attempt
itself. As long as an attempt that goes on opens only what its session refers to, while the session is its
own, this stays so. It does so at every await after the session was made, where the attempt does not go to
`_fail` with a session. -/

namespace LigamentApps.RdpConnector

/-- The attempt goes to `_fail`. -/
def Stage.fails (s : RdpConnectorService) (n : ℕ) (reply : Reply) : Stage → Bool
  | .grant =>
    reply.error.isSome || s.connectGeneration = (s.attempts n).generation &&
      reply.grant.any fun grant => grant.grantId = "" || grant.token = ""
  | .bind _ | .bridgeTcp | .bridgeBind => reply.error.isSome
  | .claimFailed _ => !s.superseded n
  | .websocketFailed _ => true
  | .launch => !s.superseded n && (reply.error.isSome || reply.client = .missing)
  | .accept | .bridgeAccept => !s.superseded n && (reply.error.isSome || !reply.loopback)
  | .bridgeInfo => reply.error.isSome || s.connectGeneration = (s.attempts n).generation && !reply.endpoint
  | .liveness => !s.superseded n && reply.rejected
  | .bridgeLaunch => reply.error.isSome || !s.superseded n && reply.client = .missing
  | .localIps | .directTcp | .directClaim | .claimLate | .websocket => false

/-! ## The accounts of an attempt -/

/-- Someone will close what an attempt has opened, and its grant: whoever ends the session, if it is the
attempt's; the `_finish` that runs; or the attempt itself, which holds the direct socket while it claims its
grant. -/
structure Accounted (a : Attempt) (mine : Prop) : Prop where
  held : ∀ r, a.held r = true → r = .remote ∧ a.stage = some .directClaim ∨ a.fields r = true ∧
    (mine ∨ r = .listener ∧ ∃ reason, a.finishing = some (.ws reason))
  grant : a.grantId ≠ "" → a.grantClosed = true ∨ mine ∨ a.finishing ≠ none ∨ a.stage = some .bridgeInfo
  waiting : ∀ stage, a.stage = some stage → stage.opened = false →
    ¬mine ∧ a.finishing = none ∧ (stage ≠ .bridgeInfo → a.grantId = "")

/-- What an attempt opens more, its session refers to, and the session is its own. -/
structure Grows (mine : Prop) (a b : Attempt) : Prop where
  held : ∀ r, b.held r = true → a.held r = true ∨ b.fields r = true ∧ mine
  fields : ∀ r, a.fields r = true → b.fields r = true
  finishing : b.finishing = a.finishing
  grantId : b.grantId = a.grantId
  grantClosed : a.grantClosed = true → b.grantClosed = true

section Grows

variable {mine : Prop} {a b c : Attempt}

theorem Grows.refl (a : Attempt) : Grows mine a a :=
  ⟨fun _ h => .inl h, fun _ h => h, rfl, rfl, id⟩

theorem Grows.trans (h : Grows mine a b) (h' : Grows mine b c) : Grows mine a c := by
  refine ⟨fun r hr => ?_, fun r hr => h'.fields r (h.fields r hr), h'.finishing.trans h.finishing,
    h'.grantId.trans h.grantId, fun hr => h'.grantClosed (h.grantClosed hr)⟩
  obtain hb | hc := h'.held r hr
  · obtain ha | ⟨hfields, hmine⟩ := h.held r hb
    · exact .inl ha
    · exact .inr ⟨h'.fields r hfields, hmine⟩
  · exact .inr hc

theorem grows_await (stage : Stage) : Grows mine a (a.await stage) :=
  ⟨fun _ h => .inl h, fun _ h => h, rfl, rfl, id⟩

theorem grows_keep (hmine : mine) (r : Resource) : Grows mine a (a.keep r) := by
  refine ⟨fun q hq => ?_, fun q hq => Attempt.fields_keep (.inl hq), rfl, rfl, id⟩
  obtain hheld | hnew := Attempt.held_keep hq
  · exact .inl hheld
  · exact .inr ⟨Attempt.fields_keep (.inr hnew), hmine⟩

theorem grows_release (rs : List Resource) : Grows mine a (a.release rs) :=
  ⟨fun _ h => .inl (Attempt.held_release h).1, fun _ h => h, rfl, rfl, id⟩

theorem grows_drop (r : Resource) : Grows mine a (a.drop r) :=
  ⟨fun _ h => .inl (Attempt.held_drop h).1, fun _ h => h, rfl, rfl, id⟩

theorem accounted_of_grows {stage : Stage} (h : Accounted a mine) (hstage : a.stage = some stage)
    (hother : stage ≠ .directClaim ∧ stage ≠ .bridgeInfo) (hgrows : Grows mine { a with stage := none } b)
    (hopened : ∀ next, b.stage = some next → next.opened = true) : Accounted b mine := by
  refine ⟨fun r hr => .inr ?_, fun hgrant => ?_, fun next hnext hclosed => ?_⟩
  · obtain hbefore | hnow := hgrows.held r hr
    · obtain ⟨_, hclaim⟩ | ⟨hfields, haccount⟩ := h.held r hbefore
      · exact absurd (Option.some.inj (hstage.symm.trans hclaim)) hother.1
      · rw [hgrows.finishing]
        exact ⟨hgrows.fields r hfields, haccount⟩
    · exact ⟨hnow.1, .inl hnow.2⟩
  · rw [hgrows.finishing]
    obtain hclosed | hmine | hfinishing | hinfo := h.grant (hgrows.grantId ▸ hgrant)
    · exact .inl (hgrows.grantClosed hclosed)
    · exact .inr (.inl hmine)
    · exact .inr (.inr (.inl hfinishing))
    · exact absurd (Option.some.inj (hstage.symm.trans hinfo)) hother.2
  · cases hclosed.symm.trans (hopened next hnext)

end Grows

namespace RdpConnectorService

variable {s t : RdpConnectorService} {platform : Platform}

/-- The service after an attempt has gone on without losing the session or making it its own. -/
structure GoesOn (n : ℕ) (s t : RdpConnectorService) : Prop where
  session : t.session = s.session
  started : t.started = s.started
  others : ∀ m, m ≠ n → t.attempts m = s.attempts m
  grows : Grows (s.session = some n) (s.attempts n) (t.attempts n)

variable (n : ℕ)

theorem goesOn_refl : GoesOn n s s := ⟨rfl, rfl, fun _ _ => rfl, .refl _⟩

theorem GoesOn.trans {n : ℕ} {u : RdpConnectorService} (h : GoesOn n s t) (h' : GoesOn n t u) : GoesOn n s u := by
  refine ⟨h'.session.trans h.session, h'.started.trans h.started, fun m hm =>
    (h'.others m hm).trans (h.others m hm), ?_⟩
  have hgrows := h'.grows
  rw [h.session] at hgrows
  exact h.grows.trans hgrows

theorem goesOn_modify {n : ℕ} {f : Attempt → Attempt}
    (hf : Grows (s.session = some n) (s.attempts n) (f (s.attempts n))) :
    GoesOn n s (s.modify n f) := by
  refine ⟨rfl, rfl, fun m hm => attempts_modify_ne hm f, ?_⟩
  rw [attempts_modify_self]
  exact hf

theorem goesOn_setPhase (p : RdpTunnelPhase) : GoesOn n s (s.setPhase p) := ⟨rfl, rfl, fun _ _ => rfl, .refl _⟩

theorem goesOn_fail (hnone : s.session = none) (failure : Failure) : GoesOn n s (s.fail failure) := by
  have hattempts : (s.fail failure).attempts = s.attempts := by
    unfold fail
    rw [hnone]
  refine ⟨hnone.symm, started_fail failure, fun m _ => by rw [hattempts], ?_⟩
  rw [hattempts]
  exact .refl _

theorem goesOn_teardownListener : GoesOn n s (s.teardownListener n) := goesOn_modify (grows_release _)

theorem goesOn_quietTeardown : GoesOn n s (s.quietTeardown n) :=
  goesOn_modify ((grows_release _).trans (grows_drop _))

theorem goesOn_quietTeardownBridge : GoesOn n s (s.quietTeardownBridge n) := goesOn_modify (grows_release _)

theorem goesOn_openWebsocket : GoesOn n s (s.openWebsocket n) :=
  (goesOn_setPhase n .tunnel).trans (goesOn_modify (grows_await _))

theorem goesOn_launchClient {n : ℕ} (hmine : s.session = some n) (stage : Stage) (file : Bool) :
    GoesOn n s (s.launchClient n stage file) := by
  refine (goesOn_setPhase n .launching).trans (goesOn_modify ?_)
  cases file with
  | true => exact (grows_keep hmine _).trans (grows_await _)
  | false => exact grows_await _

theorem goesOn_waitClient {n : ℕ} (hmine : s.session = some n) (stage : Stage) (client : Client) :
    GoesOn n s (s.waitClient n stage client) := by
  have hkept : GoesOn n s (s.modify n fun a => if client = .process then a.keep .mstsc else a) := by
    refine goesOn_modify ?_
    split
    · exact grows_keep hmine _
    · exact .refl _
  exact hkept.trans ((goesOn_setPhase n .waitingClient).trans (goesOn_modify (grows_await _)))

theorem session_of_current {n : ℕ} (h : ¬s.superseded n = true) : s.session = some n := by
  have hboth := Bool.or_eq_false_iff.mp (Bool.eq_false_iff.mpr h)
  simpa using hboth.2

theorem goesOn_accepted {n : ℕ} {teardown : ℕ → RdpConnectorService → RdpConnectorService}
    (hteardown : ∀ u : RdpConnectorService, GoesOn n u (teardown n u)) {reply : Reply}
    (hfails : (!s.superseded n && (reply.error.isSome || !reply.loopback)) = true → s.session = none) :
    GoesOn n s (s.accepted n teardown reply) := by
  unfold accepted
  cases hsuperseded : s.superseded n with
  | true =>
    split
    · exact goesOn_refl n
    · exact goesOn_refl n
  | false =>
    rw [hsuperseded] at hfails
    split
    · rename_i error herror
      rw [herror] at hfails
      exact (goesOn_fail n (hfails rfl) _).trans (hteardown _)
    · rename_i herror
      rw [herror] at hfails
      cases hloopback : reply.loopback with
      | false =>
        rw [hloopback] at hfails
        exact (goesOn_fail n (hfails rfl) _).trans (hteardown _)
      | true =>
        have hmine := session_of_current (by rw [hsuperseded]; exact Bool.false_ne_true)
        have hkept : GoesOn n s (s.modify n fun a => (a.keep .socket).release [.grantTtl]) :=
          goesOn_modify ((grows_keep hmine _).trans (grows_release _))
        exact hkept.trans (goesOn_setPhase n .active)

/-- The stages of an attempt that neither bring it its session nor hold the direct socket beside it. -/
def plain : Stage → Bool
  | .localIps | .grant | .bridgeInfo | .directTcp | .directClaim => false
  | _ => true

/-- A stage that holds nothing of its own lets nothing go unaccounted. -/
theorem goesOn_resumeAttempt {n : ℕ} {stage : Stage} (hplain : plain stage = true) {reply : Reply}
    (hfails : stage.fails s n reply = true → s.session = none) : GoesOn n s (resumeAttempt n stage reply s) := by
  have herror : ∀ error, reply.error = some error → reply.error.isSome = true := by
    intro error h
    rw [h]
    rfl
  unfold resumeAttempt
  unfold Stage.fails at hfails
  cases stage with
  -- the stages that open something are not plain
  | localIps | grant | bridgeInfo | directTcp | directClaim => cases hplain
  | bind direct =>
    dsimp only at hfails ⊢
    split
    · rename_i error h
      exact goesOn_fail n (hfails (herror error h)) _
    · split
      · exact goesOn_refl n
      · rename_i hcurrent
        have hmine := session_of_current hcurrent
        have hbound : GoesOn n s (s.modify n fun a => (a.keep .listener).keep .grantTtl) :=
          goesOn_modify ((grows_keep hmine _).trans (grows_keep hmine _))
        split
        · exact hbound.trans (goesOn_modify (grows_await _))
        · exact hbound.trans (goesOn_openWebsocket n)
  | claimFailed error =>
    dsimp only at hfails ⊢
    split
    · exact goesOn_refl n
    · rename_i hcurrent
      rw [Bool.eq_false_iff.mpr hcurrent] at hfails
      exact goesOn_fail n (hfails rfl) _
  | claimLate => exact goesOn_modify ⟨fun _ h => .inl h, fun _ h => h, rfl, rfl, fun _ => rfl⟩
  | websocket =>
    dsimp only
    split
    · exact (goesOn_teardownListener n).trans (goesOn_modify (grows_await _))
    · split
      · exact goesOn_quietTeardown n
      · rename_i hcurrent
        have hmine := session_of_current hcurrent
        have hkept : GoesOn n s (s.modify n (.keep .ws)) := goesOn_modify (grows_keep hmine _)
        exact hkept.trans (goesOn_launchClient (s := s.modify n (.keep .ws)) hmine _ _)
  | websocketFailed => exact goesOn_fail n (hfails rfl) _
  | launch =>
    dsimp only at hfails ⊢
    cases hsuperseded : s.superseded n with
    | true =>
      split
      · exact goesOn_quietTeardown n
      · exact goesOn_quietTeardown n
    | false =>
      rw [hsuperseded] at hfails
      split
      · rename_i error h
        rw [h] at hfails
        exact (goesOn_fail n (hfails rfl) _).trans (goesOn_quietTeardown n)
      · rename_i h
        rw [h] at hfails
        rw [if_neg Bool.false_ne_true]
        split
        · rename_i hmissing
          exact (goesOn_fail n (hfails (decide_eq_true hmissing)) _).trans (goesOn_quietTeardown n)
        · exact goesOn_waitClient (session_of_current (by rw [hsuperseded]; exact Bool.false_ne_true)) _ _
  | accept => exact goesOn_accepted (fun u => goesOn_quietTeardown n) hfails
  | bridgeTcp =>
    dsimp only at hfails ⊢
    split
    · rename_i error h
      exact goesOn_fail n (hfails (herror error h)) _
    · split
      · exact goesOn_refl n
      · rename_i hcurrent
        have hmine := session_of_current hcurrent
        exact goesOn_modify ((grows_keep hmine _).trans (grows_await _))
  | liveness =>
    dsimp only at hfails ⊢
    cases hsuperseded : s.superseded n with
    | true => exact goesOn_quietTeardownBridge n
    | false =>
      rw [hsuperseded] at hfails
      rw [if_neg Bool.false_ne_true]
      split
      · rename_i hrejected
        exact (goesOn_fail n (hfails hrejected) _).trans (goesOn_quietTeardownBridge n)
      · exact (goesOn_setPhase n .listener).trans (goesOn_modify (grows_await _))
  | bridgeBind =>
    dsimp only at hfails ⊢
    split
    · rename_i error h
      exact (goesOn_fail n (hfails (herror error h)) _).trans (goesOn_quietTeardownBridge n)
    · split
      · exact goesOn_refl n
      · rename_i hcurrent
        have hmine := session_of_current hcurrent
        have hkept : GoesOn n s (s.modify n (.keep .listener)) := goesOn_modify (grows_keep hmine _)
        exact hkept.trans (goesOn_launchClient (s := s.modify n (.keep .listener)) hmine _ _)
  | bridgeLaunch =>
    dsimp only at hfails ⊢
    split
    · rename_i error h
      rw [h] at hfails
      exact (goesOn_fail n (hfails rfl) _).trans (goesOn_quietTeardownBridge n)
    · rename_i h
      cases hsuperseded : s.superseded n with
      | true => exact goesOn_quietTeardownBridge n
      | false =>
        rw [h, hsuperseded] at hfails
        rw [if_neg Bool.false_ne_true]
        split
        · rename_i hmissing
          exact (goesOn_fail n (hfails (decide_eq_true hmissing)) _).trans (goesOn_quietTeardownBridge n)
        · exact goesOn_waitClient (session_of_current (by rw [hsuperseded]; exact Bool.false_ne_true)) _ _
  | bridgeAccept => exact goesOn_accepted (fun u => goesOn_quietTeardownBridge n) hfails

end RdpConnectorService

end LigamentApps.RdpConnector
