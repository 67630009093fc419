import LigamentApps.RdpConnector.RdpService

/-!
# How an attempt goes on

What a step of an attempt does to what the service shows, and what it leaves of the attempts beside it. An
attempt whose generation or session is not the current one is outdated: it leaves the service alone unless it
goes to `_fail` without a check. -/

namespace LigamentApps.RdpConnector

variable {u : RdpConnectorService} {stage : Stage} {reply : Reply} {n : ℕ}

/-- The attempt has its session already. -/
def Stage.opened : Stage → Bool
  | .localIps | .grant | .bridgeInfo => false
  | _ => true

/-- The attempt goes to `_fail` whether or not it is the current one. -/
def Stage.failsUnchecked : Stage → Reply → Bool
  | .grant, reply | .bind _, reply | .bridgeInfo, reply | .bridgeTcp, reply | .bridgeBind, reply
  | .bridgeLaunch, reply => reply.error.isSome
  | .websocketFailed _, _ => true
  | _, _ => false

/-- What a newer attempt has of the service. -/
structure ServiceView where
  phase : RdpTunnelPhase
  lastError : Option Failure
  connectGeneration : ℕ
  session : Option ℕ

namespace RdpConnectorService

variable (s : RdpConnectorService)

def view : ServiceView where
  phase := s.phase
  lastError := s.lastError
  connectGeneration := s.connectGeneration
  session := s.session

/-- The generation of the attempt, or its session if it has one, is not the current one. -/
def outdated (n : ℕ) (stage : Stage) : Bool :=
  s.connectGeneration ≠ (s.attempts n).generation || stage.opened && s.session ≠ some n

/-- The client of an attempt is connected. -/
def tunnel (n : ℕ) : Bool := (s.attempts n).held .socket

variable {s}

/-! ## What the parts of a step leave -/

@[simp] theorem view_quietTeardown (n : ℕ) : (s.quietTeardown n).view = s.view := rfl

@[simp] theorem view_quietTeardownBridge (n : ℕ) : (s.quietTeardownBridge n).view = s.view := rfl

@[simp] theorem attempts_modify_self (n : ℕ) (f : Attempt → Attempt) :
    (s.modify n f).attempts n = f (s.attempts n) :=
  Function.update_self ..

@[simp] theorem attempts_modify_ne {m : ℕ} (h : m ≠ n) (f : Attempt → Attempt) :
    (s.modify n f).attempts m = s.attempts m :=
  Function.update_of_ne h ..

variable (failure : Failure)

theorem view_fail : (s.fail failure).view = ⟨.failed, some failure, s.connectGeneration + 1, none⟩ := by
  cases s.session <;> rfl

theorem resumeAttempt_outdated (houtdated : s.outdated n stage = true)
    (hchecked : stage.failsUnchecked reply = false) : (resumeAttempt n stage reply s).view = s.view := by
  have hgeneration : stage.opened = false → s.connectGeneration ≠ (s.attempts n).generation := by
    intro hclosed
    unfold outdated at houtdated
    rw [hclosed] at houtdated
    simpa using houtdated
  have hsuperseded : stage.opened = true → s.superseded n = true := by
    intro hopened
    unfold outdated at houtdated
    rw [hopened] at houtdated
    simpa [superseded] using houtdated
  have hnone : stage.failsUnchecked reply = reply.error.isSome → reply.error = none := by
    intro h
    exact Option.not_isSome_iff_eq_none.mp (by rw [← h, hchecked]; exact Bool.false_ne_true)
  cases stage with
  | localIps | claimLate => rfl
  | grant =>
    unfold resumeAttempt
    rw [hnone rfl]
    dsimp only
    split
    · rename_i h
      simp at h
    · rw [if_pos (hgeneration rfl)]
    · rw [if_pos (hgeneration rfl)]
      rfl
  | bind | bridgeTcp | bridgeBind =>
    unfold resumeAttempt
    rw [hnone rfl]
    dsimp only
    rw [if_pos (hsuperseded rfl)]
  | directTcp | liveness =>
    unfold resumeAttempt
    dsimp only
    rw [if_pos (hsuperseded rfl)]
    rfl
  | directClaim | websocket =>
    unfold resumeAttempt
    dsimp only
    split
    · rfl
    · rw [if_pos (hsuperseded rfl)]
      rfl
  | claimFailed =>
    unfold resumeAttempt
    dsimp only
    rw [if_pos (hsuperseded rfl)]
  | websocketFailed => cases hchecked
  | launch =>
    unfold resumeAttempt
    dsimp only
    split
    · rw [if_pos (hsuperseded rfl)]
      rfl
    · rw [if_pos (hsuperseded rfl)]
      rfl
  | accept | bridgeAccept =>
    unfold resumeAttempt accepted
    dsimp only
    split
    · rw [if_pos (hsuperseded rfl)]
    · rw [if_pos (hsuperseded rfl)]
  | bridgeInfo =>
    unfold resumeAttempt
    rw [hnone rfl]
    dsimp only
    rw [if_pos (hgeneration rfl)]
  | bridgeLaunch =>
    unfold resumeAttempt
    rw [hnone rfl]
    dsimp only
    rw [if_pos (hsuperseded rfl)]
    rfl

def failedView (s : RdpConnectorService) (failure : Failure) : ServiceView :=
  ⟨.failed, some failure, s.connectGeneration + 1, none⟩

theorem resumeAttempt_unchecked (hfails : stage.failsUnchecked reply = true) :
    ∃ failure, (resumeAttempt n stage reply s).view = s.failedView failure := by
  have herror : stage.failsUnchecked reply = reply.error.isSome → ∃ error, reply.error = some error := by
    intro h
    exact Option.isSome_iff_exists.mp (h ▸ hfails)
  unfold resumeAttempt
  cases stage with
  | grant | bind | bridgeInfo | bridgeTcp | bridgeBind | bridgeLaunch =>
    obtain ⟨error, herror⟩ := herror rfl
    rw [herror]
    exact ⟨_, view_fail _⟩
  | websocketFailed => exact ⟨_, view_fail _⟩
  | _ => cases hfails

/-- A phase in which no other attempt begins. -/
def engaged (p : RdpTunnelPhase) : Bool :=
  p = .grant || p = .listener || p = .tunnel || p = .launching || p = .waitingClient || p = .active

/-- What an attempt that is not outdated makes of the service. -/
inductive Progress (s : RdpConnectorService) (n : ℕ) (stage : Stage) : ServiceView → Prop
  | quiet : Progress s n stage s.view
  | proceeds (p : RdpTunnelPhase) (hcurrent : s.outdated n stage = false) (hopened : stage.opened = true)
    (hengaged : engaged p = true) : Progress s n stage ⟨p, none, s.connectGeneration, s.session⟩
  | opens (p : RdpTunnelPhase) (hcurrent : s.outdated n stage = false) (hclosed : stage.opened = false)
    (hengaged : engaged p = true) : Progress s n stage ⟨p, none, s.connectGeneration, some n⟩
  | dismissed (hcurrent : s.outdated n stage = false) (hclosed : stage.opened = false) :
    Progress s n stage ⟨.idle, none, s.connectGeneration, s.session⟩
  | fails (failure : Failure) : Progress s n stage (s.failedView failure)

theorem accepted_progress (hopened : stage.opened = true)
    {teardown : ℕ → RdpConnectorService → RdpConnectorService}
    (hteardown : ∀ u, (teardown n u).view = u.view) (hcurrent : s.outdated n stage = false) :
    Progress s n stage (s.accepted n teardown reply).view := by
  have hsuperseded : s.superseded n = false := by
    unfold outdated at hcurrent
    rw [hopened] at hcurrent
    simpa [superseded] using hcurrent
  unfold accepted
  rw [hsuperseded]
  split
  · rw [if_neg Bool.false_ne_true, hteardown, view_fail]
    exact .fails _
  · rw [if_neg Bool.false_ne_true]
    split
    · rw [hteardown, view_fail]
      exact .fails _
    · exact .proceeds .active hcurrent hopened rfl

/-- An attempt that is not outdated goes on to a later stage, or ends. -/
theorem resumeAttempt_progress (hcurrent : s.outdated n stage = false) :
    Progress s n stage (resumeAttempt n stage reply s).view := by
  have hgeneration : ¬s.connectGeneration ≠ (s.attempts n).generation := by
    have hboth := (Bool.or_eq_false_iff.mp hcurrent).1
    simpa using hboth
  have hsuperseded : stage.opened = true → ¬s.superseded n = true := by
    intro hopened
    unfold outdated at hcurrent
    rw [hopened] at hcurrent
    simpa [superseded] using hcurrent
  unfold resumeAttempt
  cases stage with
  | localIps | claimLate => exact .quiet
  | grant =>
    dsimp only
    split
    · rw [view_fail]
      exact .fails _
    · rw [if_neg hgeneration]
      exact .dismissed hcurrent rfl
    · rw [if_neg hgeneration]
      split
      · rw [view_fail]
        exact .fails _
      · exact .opens .listener hcurrent rfl rfl
  | bind =>
    dsimp only
    split
    · rw [view_fail]
      exact .fails _
    · rw [if_neg (hsuperseded rfl)]
      split
      · exact .quiet
      · exact .proceeds .tunnel hcurrent rfl rfl
  | directTcp =>
    dsimp only
    rw [if_neg (hsuperseded rfl)]
    split
    · exact .quiet
    · exact .proceeds .tunnel hcurrent rfl rfl
  | directClaim | websocket =>
    dsimp only
    split
    · exact .quiet
    · rw [if_neg (hsuperseded rfl)]
      exact .proceeds .launching hcurrent rfl rfl
  | claimFailed =>
    dsimp only
    rw [if_neg (hsuperseded rfl), view_fail]
    exact .fails _
  | websocketFailed =>
    rw [view_fail]
    exact .fails _
  | launch =>
    dsimp only
    split
    · rw [if_neg (hsuperseded rfl), view_quietTeardown, view_fail]
      exact .fails _
    · rw [if_neg (hsuperseded rfl)]
      split
      · rw [view_quietTeardown, view_fail]
        exact .fails _
      · exact .proceeds .waitingClient hcurrent rfl rfl
  | accept | bridgeAccept => exact accepted_progress rfl (fun _ => rfl) hcurrent
  | bridgeInfo =>
    dsimp only
    split
    · rw [view_fail]
      exact .fails _
    · rw [if_neg hgeneration]
      split
      · rw [view_fail]
        exact .fails _
      · exact .opens .tunnel hcurrent rfl rfl
  | bridgeTcp =>
    dsimp only
    split
    · rw [view_fail]
      exact .fails _
    · rw [if_neg (hsuperseded rfl)]
      exact .quiet
  | liveness =>
    dsimp only
    rw [if_neg (hsuperseded rfl)]
    split
    · rw [view_quietTeardownBridge, view_fail]
      exact .fails _
    · exact .proceeds .listener hcurrent rfl rfl
  | bridgeBind =>
    dsimp only
    split
    · rw [view_quietTeardownBridge, view_fail]
      exact .fails _
    · rw [if_neg (hsuperseded rfl)]
      exact .proceeds .launching hcurrent rfl rfl
  | bridgeLaunch =>
    dsimp only
    split
    · rw [view_quietTeardownBridge, view_fail]
      exact .fails _
    · rw [if_neg (hsuperseded rfl)]
      split
      · rw [view_quietTeardownBridge, view_fail]
        exact .fails _
      · exact .proceeds .waitingClient hcurrent rfl rfl

/-! ## What becomes of the attempts -/

/-- A change of an attempt that leaves its generation and its end alone, and brings no tunnel. -/
structure Mild (f : Attempt → Attempt) : Prop where
  generation : ∀ a, (f a).generation = a.generation
  finishing : ∀ a, (f a).finishing = a.finishing
  socket : ∀ a, (f a).held .socket = true → a.held .socket = true
  stage : ∀ a stage, (f a).stage = some stage → a.stage = some stage ∨ stage.opened = true

theorem Mild.comp {f g : Attempt → Attempt} (hf : Mild f) (hg : Mild g) : Mild fun a => f (g a) where
  generation a := (hf.generation _).trans (hg.generation a)
  finishing a := (hf.finishing _).trans (hg.finishing a)
  socket a h := hg.socket a (hf.socket _ h)
  stage a stage h := (hf.stage _ stage h).elim (hg.stage a stage) .inr

theorem mild_id : Mild fun a => a := ⟨fun _ => rfl, fun _ => rfl, fun _ h => h, fun _ _ h => .inl h⟩

theorem mild_await (h : stage.opened = true) : Mild (.await stage) := by
  refine ⟨fun _ => rfl, fun _ => rfl, fun _ h => h, fun a other hother => .inr ?_⟩
  cases hother
  exact h

theorem mild_keep {r : Resource} (h : .socket ≠ r) : Mild (.keep r) :=
  ⟨fun _ => rfl, fun _ => rfl, fun _ hheld => (Attempt.held_keep hheld).resolve_right h, fun _ _ h => .inl h⟩

theorem mild_hold {r : Resource} (h : .socket ≠ r) : Mild (.hold r) :=
  ⟨fun _ => rfl, fun _ => rfl, fun _ hheld => (Attempt.held_hold hheld).resolve_right h, fun _ _ h => .inl h⟩

theorem mild_drop (r : Resource) : Mild (.drop r) :=
  ⟨fun _ => rfl, fun _ => rfl, fun _ hheld => (Attempt.held_drop hheld).1, fun _ _ h => .inl h⟩

theorem mild_release (rs : List Resource) : Mild (.release rs) :=
  ⟨fun _ => rfl, fun _ => rfl, fun _ hheld => (Attempt.held_release hheld).1, fun _ _ h => .inl h⟩

theorem mild_grantId (grantId : String) : Mild fun a => { a with grantId := grantId } :=
  ⟨fun _ => rfl, fun _ => rfl, fun _ h => h, fun _ _ h => .inl h⟩

theorem mild_grantClosed : Mild fun a => { a with grantClosed := true } :=
  ⟨fun _ => rfl, fun _ => rfl, fun _ h => h, fun _ _ h => .inl h⟩

theorem mild_ite {f g : Attempt → Attempt} (c : Prop) [Decidable c] (hf : Mild f) (hg : Mild g) :
    Mild fun a => if c then f a else g a := by
  by_cases h : c
  · simpa only [h, if_true] using hf
  · simpa only [h, if_false] using hg

/-- The service after an attempt has gone on, apart from a tunnel that begins. -/
inductive Touches (n : ℕ) (s : RdpConnectorService) : RdpConnectorService → Prop
  | refl : Touches n s s
  | modify {u : RdpConnectorService} {f : Attempt → Attempt} (hf : Mild f) (hu : Touches n s u) :
    Touches n s (u.modify n f)
  | setPhase {u : RdpConnectorService} (p : RdpTunnelPhase) (hu : Touches n s u) : Touches n s (u.setPhase p)
  | opens {u : RdpConnectorService} (hu : Touches n s u) : Touches n s { u with session := some n }
  | fail {u : RdpConnectorService} (failure : Failure) (hu : Touches n s u) : Touches n s (u.fail failure)

theorem touches_teardownListener (h : Touches n s u) : Touches n s (u.teardownListener n) :=
  .modify (mild_release _) h

theorem touches_quietTeardown (h : Touches n s u) : Touches n s (u.quietTeardown n) :=
  .modify (.comp (mild_drop _) (mild_release _)) h

theorem touches_quietTeardownBridge (h : Touches n s u) : Touches n s (u.quietTeardownBridge n) :=
  .modify (mild_release _) h

theorem touches_openWebsocket (h : Touches n s u) : Touches n s (u.openWebsocket n) :=
  .modify (mild_await rfl) (.setPhase _ h)

theorem touches_launchClient (hopened : stage.opened = true) (file : Bool) (h : Touches n s u) :
    Touches n s (u.launchClient n stage file) :=
  .modify (.comp (mild_await hopened) (mild_ite _ (mild_keep nofun) mild_id)) (.setPhase _ h)

theorem touches_waitClient (hopened : stage.opened = true) (client : Client) :
    Touches n s (s.waitClient n stage client) :=
  .modify (mild_await hopened) (.setPhase _ (.modify (mild_ite _ (mild_keep nofun) mild_id) .refl))

def tunnelBegins (n : ℕ) (s : RdpConnectorService) : RdpConnectorService :=
  setPhase .active (s.modify n fun a => (a.keep .socket).release [.grantTtl])

theorem accepted_touches {teardown : ℕ → RdpConnectorService → RdpConnectorService}
    (hteardown : ∀ u, Touches n s u → Touches n s (teardown n u)) (reply : Reply) :
    Touches n s (s.accepted n teardown reply) ∨
      s.superseded n = false ∧ s.accepted n teardown reply = s.tunnelBegins n := by
  unfold accepted
  split
  · left
    split
    · exact .refl
    · exact hteardown _ (.fail _ .refl)
  · split
    · exact .inl .refl
    · rename_i hcurrent
      split
      · exact .inl (hteardown _ (.fail _ .refl))
      · exact .inr ⟨Bool.eq_false_iff.mpr hcurrent, rfl⟩

/-- Of a continuation, only the attempt's own state changes, or its tunnel begins. -/
theorem resumeAttempt_touches (hlater : stage ≠ .localIps) (reply : Reply) :
    Touches n s (resumeAttempt n stage reply s) ∨
      s.superseded n = false ∧ resumeAttempt n stage reply s = s.tunnelBegins n := by
  unfold resumeAttempt
  cases stage with
  | localIps => exact absurd rfl hlater
  -- each stage: its failure, the attempt outdated, and its success
  | grant =>
    left
    dsimp only
    split
    · exact .fail _ .refl
    · split
      · exact .refl
      · exact .setPhase _ .refl
    · rename_i grant _ _
      have hgranted : Touches n s (s.modify n fun a => { a with grantId := grant.grantId }) :=
        .modify (mild_grantId _) .refl
      split
      · exact hgranted
      · split
        · exact .fail _ hgranted
        · exact .modify (mild_await rfl) (.setPhase _ (.opens hgranted))
  | bind =>
    left
    dsimp only
    split
    · exact .fail _ .refl
    · have hbound : Touches n s (s.modify n fun a => (a.keep .listener).keep .grantTtl) :=
        .modify (.comp (mild_keep nofun) (mild_keep nofun)) .refl
      split
      · exact .refl
      · split
        · exact .modify (mild_await rfl) hbound
        · exact touches_openWebsocket hbound
  | directTcp =>
    left
    dsimp only
    split
    · exact touches_quietTeardown .refl
    · split
      · exact .modify (.comp (mild_await rfl) (mild_hold nofun)) .refl
      · exact touches_openWebsocket .refl
  | directClaim =>
    left
    dsimp only
    split
    · exact .modify (mild_await rfl) (touches_teardownListener (.modify (mild_drop _) .refl))
    · have hclaimed : Touches n s (s.modify n fun a => if reply.sessionId then a.keep .heartbeatTimer else a) :=
        .modify (mild_ite _ (mild_keep nofun) mild_id) .refl
      split
      · exact .modify (mild_await rfl) (touches_quietTeardown (.modify (mild_drop _) hclaimed))
      · exact touches_launchClient rfl _ (.modify (mild_keep nofun) hclaimed)
  | claimFailed =>
    left
    dsimp only
    split
    · exact .refl
    · exact .fail _ .refl
  | claimLate => exact .inl (.modify mild_grantClosed .refl)
  | websocket =>
    left
    dsimp only
    split
    · exact .modify (mild_await rfl) (touches_teardownListener .refl)
    · split
      · exact touches_quietTeardown .refl
      · exact touches_launchClient rfl _ (.modify (mild_keep nofun) .refl)
  | websocketFailed => exact .inl (.fail _ .refl)
  | launch =>
    left
    dsimp only
    split
    · split
      · exact touches_quietTeardown .refl
      · exact touches_quietTeardown (.fail _ .refl)
    · split
      · exact touches_quietTeardown .refl
      · split
        · exact touches_quietTeardown (.fail _ .refl)
        · exact touches_waitClient rfl _
  | accept => exact accepted_touches (fun _ => touches_quietTeardown) reply
  | bridgeInfo =>
    left
    dsimp only
    split
    · exact .fail _ .refl
    · split
      · exact .refl
      · split
        · exact .fail _ .refl
        · exact .modify (mild_await rfl) (.setPhase _ (.opens .refl))
  | bridgeTcp =>
    left
    dsimp only
    split
    · exact .fail _ .refl
    · split
      · exact .refl
      · exact .modify (.comp (mild_await rfl) (mild_keep nofun)) .refl
  | liveness =>
    left
    dsimp only
    split
    · exact touches_quietTeardownBridge .refl
    · split
      · exact touches_quietTeardownBridge (.fail _ .refl)
      · exact .modify (mild_await rfl) (.setPhase _ .refl)
  | bridgeBind =>
    left
    dsimp only
    split
    · exact touches_quietTeardownBridge (.fail _ .refl)
    · split
      · exact .refl
      · exact touches_launchClient rfl _ (.modify (mild_keep nofun) .refl)
  | bridgeLaunch =>
    left
    dsimp only
    split
    · exact touches_quietTeardownBridge (.fail _ .refl)
    · split
      · exact touches_quietTeardownBridge .refl
      · split
        · exact touches_quietTeardownBridge (.fail _ .refl)
        · exact touches_waitClient rfl _
  | bridgeAccept => exact accepted_touches (fun _ => touches_quietTeardownBridge) reply

theorem attempts_fail (m : ℕ) : (s.fail failure).attempts m = s.attempts m ∨
      (s.fail failure).attempts m = (s.attempts m).release [.tempRdpFile] := by
  unfold fail
  cases s.session with
  | none => exact .inl rfl
  | some k =>
    by_cases h : m = k
    · subst h
      exact .inr (attempts_modify_self ..)
    · exact .inl (attempts_modify_ne h _)

theorem started_fail : (s.fail failure).started = s.started := by
  unfold fail
  cases s.session <;> rfl

/-- What is left of the other attempts, and of the past of the attempt that goes on. -/
structure Course (n : ℕ) (s t : RdpConnectorService) : Prop where
  started : t.started = s.started
  generation : ∀ m, (t.attempts m).generation = (s.attempts m).generation
  finishing : ∀ m, (t.attempts m).finishing = (s.attempts m).finishing
  held : ∀ m r, m ≠ n → (t.attempts m).held r = true → (s.attempts m).held r = true
  fields : ∀ m, m ≠ n → (t.attempts m).fields = (s.attempts m).fields
  waits : ∀ m, m ≠ n → (t.attempts m).stage = (s.attempts m).stage

theorem course_refl (n : ℕ) : Course n s s :=
  ⟨rfl, fun _ => rfl, fun _ => rfl, fun _ _ _ h => h, fun _ _ => rfl, fun _ _ => rfl⟩

theorem course_modify {f : Attempt → Attempt} (hgeneration : ∀ a, (f a).generation = a.generation)
    (hfinishing : ∀ a, (f a).finishing = a.finishing) : Course n s (s.modify n f) := by
  have hother : ∀ m, m ≠ n → (s.modify n f).attempts m = s.attempts m := fun m h => attempts_modify_ne h f
  refine ⟨rfl, fun m => ?_, fun m => ?_, fun m r h => ?_, fun m h => ?_, fun m h => ?_⟩
  · by_cases h : m = n
    · rw [h, attempts_modify_self, hgeneration]
    · rw [hother m h]
  · by_cases h : m = n
    · rw [h, attempts_modify_self, hfinishing]
    · rw [hother m h]
  · rw [hother m h]
    exact id
  · rw [hother m h]
  · rw [hother m h]

theorem Course.trans {n : ℕ} {t u : RdpConnectorService} (h : Course n s t) (h' : Course n t u) : Course n s u :=
  ⟨h'.started.trans h.started, fun m => (h'.generation m).trans (h.generation m),
    fun m => (h'.finishing m).trans (h.finishing m), fun m r hm hr => h.held m r hm (h'.held m r hm hr),
    fun m hm => (h'.fields m hm).trans (h.fields m hm), fun m hm => (h'.waits m hm).trans (h.waits m hm)⟩

theorem course_fail (n : ℕ) (failure : Failure) : Course n s (s.fail failure) := by
  refine ⟨started_fail failure, fun m => ?_, fun m => ?_, fun m r _ => ?_, fun m _ => ?_, fun m _ => ?_⟩
  · obtain h | h := attempts_fail failure m <;> rw [h]
    rfl
  · obtain h | h := attempts_fail failure m <;> rw [h]
    rfl
  · obtain h | h := attempts_fail failure m <;> rw [h]
    · exact id
    · exact fun hheld => (Bool.and_eq_true_iff.mp hheld).1
  · obtain h | h := attempts_fail failure m <;> rw [h]
    rfl
  · obtain h | h := attempts_fail failure m <;> rw [h]
    rfl

theorem Touches.course {t : RdpConnectorService} (h : Touches n s t) :
    Course n s t ∧ (t.tunnel n = true → s.tunnel n = true) ∧
      ∀ stage, (t.attempts n).stage = some stage → (s.attempts n).stage = some stage ∨ stage.opened = true := by
  induction h with
  | refl => exact ⟨course_refl n, id, fun _ => .inl⟩
  | modify hf hu ih =>
    obtain ⟨hcourse, htunnel, hstage⟩ := ih
    refine ⟨hcourse.trans (course_modify hf.generation hf.finishing), ?_, ?_⟩
    · unfold tunnel at htunnel ⊢
      rw [attempts_modify_self]
      exact fun h => htunnel (hf.socket _ h)
    · intro stage
      rw [attempts_modify_self]
      exact fun h => (hf.stage _ stage h).elim (hstage stage) .inr
  | setPhase _ _ ih | opens _ ih =>
    exact ⟨ih.1.trans ⟨rfl, fun _ => rfl, fun _ => rfl, fun _ _ _ h => h, fun _ _ => rfl, fun _ _ => rfl⟩, ih.2⟩
  | fail failure hu ih =>
    rename_i u
    obtain ⟨hcourse, htunnel, hstage⟩ := ih
    refine ⟨hcourse.trans (course_fail n failure), ?_, ?_⟩
    · unfold tunnel at htunnel ⊢
      obtain h | h := attempts_fail failure n <;> rw [h]
      · exact htunnel
      · exact fun hheld => htunnel (Bool.and_eq_true_iff.mp hheld).1
    · obtain h | h := attempts_fail failure n <;> rw [h]
      · exact hstage
      · exact hstage

end RdpConnectorService

end LigamentApps.RdpConnector
