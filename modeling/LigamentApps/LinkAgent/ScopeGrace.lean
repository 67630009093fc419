import LigamentApps.LinkAgent.AgentLoop

/-!
# The grace of the worker scope

When the scope in which the session workers run is cancelled: at the end of the agent's context, on the return
of `RunAgent` because the server has archived the identity, and by a grace timer. A timer expires only when
the control channel has been down for the grace period without interruption, and one that is stopped before
never cancels. -/

namespace LigamentApps.LinkAgent

open List Option

variable {t : AgentLoop} {scope : ℕ}

/-! ## What is known of the scope -/

/-- What the events so far say. -/
structure ScopeLog where
  /-- The agent's context has ended. -/
  ended : Bool := false
  archived : Bool := false
  /-- Since when the control channel has been down, where a connection was up before. -/
  downSince : Option ℕ := none
  /-- The scope that the last connection was taken up with, unless it was cancelled since. -/
  scope : Option ℕ := none
  /-- The scopes whose grace timer has expired. -/
  lapsed : List ℕ := []

/-- An event is noted. -/
def ScopeLog.next (k : ScopeLog) : AgentEvent → ScopeLog
  | .contextDone => { k with ended := true }
  | .connected _ scope => { k with downSince := none, scope := some scope }
  | .disconnected time => { k with downSince := some time }
  | .archived => { k with archived := true }
  | .expired _ scope => { k with lapsed := scope :: k.lapsed }
  | .cancelled _ scope => if k.scope = some scope then { k with scope := none } else k

/-- The control channel has been down for the grace period without interruption. -/
def ScopeLog.GraceOver (k : ScopeLog) (time : ℕ) : Prop :=
  ∃ since ∈ k.downSince, since + agentWorkerGracePeriod ≤ time

instance (k : ScopeLog) (time : ℕ) : Decidable (k.GraceOver time) :=
  inferInstanceAs (Decidable (∃ since ∈ k.downSince, since + agentWorkerGracePeriod ≤ time))

/-- A connection is taken up with the scope of the last one, unless that was cancelled. -/
def ScopeLog.KeepsScope (k : ScopeLog) (scope : ℕ) : Prop := k.ended = true ∨ ∀ last ∈ k.scope, scope = last

instance (k : ScopeLog) (scope : ℕ) : Decidable (k.KeepsScope scope) :=
  inferInstanceAs (Decidable (k.ended = true ∨ ∀ last ∈ k.scope, scope = last))

/-- A scope is cancelled only at the end of the agent's context or when the channel has been down for the
grace period, and a connection before that keeps it. -/
def outageMonitor : Monitor ScopeLog AgentEvent where
  start := {}
  next := ScopeLog.next
  Ok k
    | .cancelled time _ => k.ended = true ∨ k.GraceOver time
    | .connected _ scope => k.KeepsScope scope
    | _ => True

/-- A scope is cancelled only at the end of the agent's context, on the return for an archived identity, or by
its grace timer; that expires only when the channel has been down for the grace period; a connection before
keeps the scope. -/
def graceMonitor : Monitor ScopeLog AgentEvent where
  start := {}
  next := ScopeLog.next
  Ok k
    | .cancelled _ scope => k.ended = true ∨ k.archived = true ∨ scope ∈ k.lapsed
    | .expired time _ => k.GraceOver time
    | .connected _ scope => k.KeepsScope scope
    | _ => True

instance : ∀ k e, Decidable (outageMonitor.Ok k e)
  | k, .cancelled time _ => inferInstanceAs (Decidable (k.ended = true ∨ k.GraceOver time))
  | k, .connected _ scope => inferInstanceAs (Decidable (k.KeepsScope scope))
  | _, .contextDone => .isTrue trivial
  | _, .disconnected _ => .isTrue trivial
  | _, .archived => .isTrue trivial
  | _, .expired _ _ => .isTrue trivial

/-- How the loop stands to what is known. -/
structure AgentLoop.Tracks (s : AgentLoop) (k : ScopeLog) : Prop where
  ended : k.ended = s.ctxDone
  /-- The scope is the current one. -/
  scope : k.ended = false → ∀ scope ∈ k.scope, s.workerCtx = some scope ∧ scope ∉ s.cancelled
  /-- Where there is a scope and no connection, the channel is down. -/
  down : s.workerCtx.isSome = true → s.pc ≠ .serving → ∃ since, k.downSince = some since ∧ since ≤ s.now
  /-- There is a timer only without a connection, due when the channel has been down for the grace period. -/
  timer : ∀ timer ∈ s.graceTimer, s.pc ≠ .serving ∧ k.GraceOver timer.due
  callbacks : ∀ scope ∈ s.callbacks, scope ∈ k.lapsed

def AgentLoop.Knows (s : AgentLoop) (scope : ℕ) : Prop :=
  scope ∈ s.cancelled ∨ scope ∈ s.callbacks ∨ s.workerCtx = some scope ∨ ∃ timer ∈ s.graceTimer, timer.scope = scope

/-- The next scope is a new one. -/
def AgentLoop.Numbered (s : AgentLoop) : Prop := ∀ scope, s.Knows scope → scope < s.nextScope

/-- The events of an outcome are accepted, and the invariant holds after them. -/
def ScopeLog.Follows (k : ScopeLog) (r : AgentOutcome) : Prop :=
  graceMonitor.AcceptsFrom k r.2 ∧ r.1.Tracks (r.2.foldl graceMonitor.next k)

section Steps

variable {s : AgentLoop} {k : ScopeLog}

theorem graceOver_mono {time later : ℕ} (h : k.GraceOver time) (hle : time ≤ later) : k.GraceOver later := by
  obtain ⟨since, hdown, hover⟩ := h
  exact ⟨since, hdown, Nat.le_trans hover hle⟩

theorem follows_nil (h : t.Tracks k) : k.Follows (t, []) := ⟨trivial, h⟩

theorem next_cancelled (k : ScopeLog) (time scope : ℕ) :
    k.next (.cancelled time scope) = { k with scope := none } ∨ k.next (.cancelled time scope) = k := by
  unfold ScopeLog.next
  dsimp only
  split
  · exact .inl rfl
  · exact .inr rfl

theorem cancelScope_follows (h : s.Tracks k) (hcause : k.archived = true ∨ scope ∈ k.lapsed) :
    k.Follows (s.cancelScope scope) := by
  unfold AgentLoop.cancelScope
  split
  · exact follows_nil h
  · refine ⟨⟨.inr hcause, trivial⟩, ?_⟩
    have hkept : ∀ (j : ScopeLog), j.ended = k.ended → j.downSince = k.downSince → j.lapsed = k.lapsed →
        (∀ last ∈ j.scope, last ∈ k.scope ∧ last ≠ scope) →
        { s with cancelled := scope :: s.cancelled }.Tracks j := by
      intro j hended hdown hlapsed hscope
      refine ⟨hended.trans h.ended, fun hlive last hlast => ?_, ?_, fun timer htimer => ?_,
        fun callback hcallback => ?_⟩
      · obtain ⟨hmem, hne⟩ := hscope last hlast
        obtain ⟨hcurrent, hnot⟩ := h.scope (hended.symm.trans hlive) last hmem
        exact ⟨hcurrent, not_mem_cons_of_ne_of_not_mem hne hnot⟩
      · rw [hdown]
        exact h.down
      · unfold ScopeLog.GraceOver
        rw [hdown]
        exact h.timer timer htimer
      · rw [hlapsed]
        exact h.callbacks callback hcallback
    show AgentLoop.Tracks _ (ScopeLog.next k (.cancelled s.now scope))
    unfold ScopeLog.next
    dsimp only
    split
    · exact hkept _ rfl rfl rfl nofun
    · rename_i hother
      refine hkept k rfl rfl rfl fun last hlast => ⟨hlast, ?_⟩
      rintro rfl
      exact hother hlast

theorem finish_follows (h : s.Tracks k) (hcause : s.ctxDone = true ∨ k.archived = true)
    (hdown : s.workerCtx.isSome = true → ∃ since, k.downSince = some since ∧ since ≤ s.now) :
    k.Follows s.finish := by
  have hover : { s with graceTimer := none, pc := .returned }.Tracks k :=
    ⟨h.ended, h.scope, fun hsome _ => hdown hsome, nofun, h.callbacks⟩
  unfold AgentLoop.finish
  split
  · rename_i scope _
    obtain hdone | harchived := hcause
    · -- The end of the context has ended the scope already.
      have hnone : AgentLoop.cancelScope { s with graceTimer := none, pc := .returned } scope =
          ({ s with graceTimer := none, pc := .returned }, []) := by
        unfold AgentLoop.cancelScope AgentLoop.isOver
        rw [hdone, Bool.true_or, if_pos rfl]
      rw [hnone]
      exact follows_nil hover
    · exact cancelScope_follows hover (.inl harchived)
  · exact follows_nil hover

theorem backOff_tracks (h : s.Tracks k) (jitter : Option (Fin 4001))
    (hdown : s.workerCtx.isSome = true → ∃ since, k.downSince = some since ∧ since ≤ s.now) :
    (s.armGrace.backOff jitter).Tracks k := by
  unfold AgentLoop.armGrace
  split
  · rename_i scope hscope _
    refine ⟨h.ended, h.scope, fun hsome _ => hdown hsome, fun timer htimer => ⟨by simp [AgentLoop.backOff], ?_⟩,
      h.callbacks⟩
    cases htimer
    obtain ⟨since, hsince, hle⟩ := hdown (by rw [hscope]; rfl)
    exact ⟨since, hsince, Nat.add_le_add_right hle _⟩
  · exact ⟨h.ended, h.scope, fun hsome _ => hdown hsome,
      fun timer htimer => ⟨by simp [AgentLoop.backOff], (h.timer timer htimer).2⟩, h.callbacks⟩

theorem afterAttempt_follows (h : s.Tracks k)
    (hdown : s.workerCtx.isSome = true → ∃ since, k.downSince = some since ∧ since ≤ s.now) (err : ServeError)
    (jitter : Option (Fin 4001)) : k.Follows (s.afterAttempt err jitter) := by
  unfold AgentLoop.afterAttempt
  split
  · rename_i hdone
    exact finish_follows h (.inl hdone) hdown
  · cases err with
    | unbound =>
      have harchived : s.Tracks { k with archived := true } := ⟨h.ended, h.scope, h.down, h.timer, h.callbacks⟩
      obtain ⟨hok, htracks⟩ := finish_follows harchived (.inr rfl) hdown
      exact ⟨⟨trivial, hok⟩, htracks⟩
    | other => exact follows_nil (backOff_tracks h jitter hdown)

theorem connected_follows (hnumbered : s.Numbered) (h : s.Tracks k) :
    k.Follows ({ s.ensureWorkerScope.1 with pc := .serving }, [.connected s.now s.ensureWorkerScope.2]) := by
  have hserving : ∀ (t : AgentLoop) (scope : ℕ), t.ctxDone = s.ctxDone → t.workerCtx = some scope →
      t.cancelled = s.cancelled → t.callbacks = s.callbacks → t.graceTimer = none →
      (s.ctxDone = false → scope ∉ s.cancelled) → k.KeepsScope scope →
      k.Follows ({ t with pc := .serving }, [.connected s.now scope]) := by
    intro t scope hctx hworker hcancelled hcallbacks htimer hlive hkeeps
    refine ⟨⟨hkeeps, trivial⟩, h.ended.trans hctx.symm, fun hended last hlast => ?_,
      fun _ hpc => absurd rfl hpc, fun timer ht => ?_, fun callback hcallback => ?_⟩
    · cases hlast
      refine ⟨hworker, ?_⟩
      rw [hcancelled]
      exact hlive (h.ended.symm.trans hended)
    · cases htimer.symm.trans ht
    · exact h.callbacks callback (hcallbacks ▸ hcallback)
  have hfresh : s.nextScope ∉ s.cancelled := fun hmem => absurd (hnumbered _ (.inl hmem)) (Nat.lt_irrefl _)
  unfold AgentLoop.ensureWorkerScope
  split
  · rename_i scope hscope
    split
    · rename_i hover
      refine hserving _ _ rfl rfl rfl rfl rfl (fun _ => hfresh) ?_
      -- The scope is over: the context has ended, or it was cancelled and is not the last one any more.
      cases hended : k.ended with
      | true => exact .inl hended
      | false =>
        refine .inr fun last hlast => ?_
        obtain ⟨hcurrent, hnot⟩ := h.scope hended last hlast
        cases hscope.symm.trans hcurrent
        unfold AgentLoop.isOver at hover
        rw [← h.ended, hended, Bool.false_or] at hover
        exact absurd (contains_iff_mem.mp hover) hnot
    · rename_i hgoes
      have hlive : s.ctxDone = false ∧ s.cancelled.contains scope = false := by
        have hboth := Bool.eq_false_iff.mpr hgoes
        exact Bool.or_eq_false_iff.mp hboth
      refine hserving _ _ rfl hscope rfl rfl rfl (fun _ hmem => ?_) ?_
      · cases hlive.2.symm.trans (contains_iff_mem.mpr hmem)
      · refine .inr fun last hlast => ?_
        obtain ⟨hcurrent, -⟩ := h.scope (h.ended.trans hlive.1) last hlast
        exact Option.some.inj (hscope.symm.trans hcurrent)
  · rename_i hnone
    refine hserving _ _ rfl rfl rfl rfl rfl (fun _ => hfresh) ?_
    cases hended : k.ended with
    | true => exact .inl hended
    | false => exact .inr fun last hlast => absurd (hnone.symm.trans (h.scope hended last hlast).1) (by simp)

/-! ## Numbers of scopes -/

theorem numbered_of_parts (h : s.Numbered) (hle : s.nextScope ≤ t.nextScope)
    (hcancelled : ∀ scope ∈ t.cancelled, s.Knows scope)
    (hcallbacks : ∀ scope ∈ t.callbacks, s.Knows scope)
    (hworker : ∀ scope, t.workerCtx = some scope → s.Knows scope ∨ scope < t.nextScope)
    (htimer : ∀ timer, t.graceTimer = some timer → s.Knows timer.scope) : t.Numbered := by
  have hold : ∀ scope, s.Knows scope → scope < t.nextScope := fun scope hknown =>
    Nat.lt_of_lt_of_le (h scope hknown) hle
  rintro scope (hmem | hmem | hcurrent | ⟨timer, hsome, rfl⟩)
  · exact hold scope (hcancelled scope hmem)
  · exact hold scope (hcallbacks scope hmem)
  · exact (hworker scope hcurrent).elim (hold scope) id
  · exact hold _ (htimer timer hsome)

theorem knows_cancelled (h : scope ∈ s.cancelled) : s.Knows scope := .inl h

theorem knows_callback (h : scope ∈ s.callbacks) : s.Knows scope := .inr (.inl h)

theorem knows_worker (h : s.workerCtx = some scope) : s.Knows scope := .inr (.inr (.inl h))

theorem knows_timer {timer : GraceTimer} (h : s.graceTimer = some timer) : s.Knows timer.scope :=
  .inr (.inr (.inr ⟨timer, h, rfl⟩))

theorem numbered_stopped (h : s.Numbered) : { s with graceTimer := none }.Numbered :=
  numbered_of_parts h le_rfl (fun _ hmem => knows_cancelled hmem) (fun _ hmem => knows_callback hmem)
    (fun _ hworker => .inl (knows_worker hworker)) nofun

theorem numbered_newScope (h : s.Numbered) : s.newScope.1.Numbered := by
  refine numbered_of_parts h (Nat.le_succ _) (fun _ hmem => knows_cancelled hmem)
    (fun _ hmem => knows_callback hmem) (fun scope hworker => .inr ?_) fun _ htimer => knows_timer htimer
  have hscope : s.nextScope = scope := Option.some.inj hworker
  rw [← hscope]
  exact Nat.lt_succ_self _

theorem numbered_cancelScope (h : s.Numbered) (hlt : scope < s.nextScope) : (s.cancelScope scope).1.Numbered := by
  unfold AgentLoop.cancelScope
  split
  · exact h
  · rintro other (hmem | hrest)
    · obtain rfl | hold := mem_cons.mp hmem
      · exact hlt
      · exact h other (.inl hold)
    · exact h other (.inr hrest)

theorem numbered_finish (h : s.Numbered) : s.finish.1.Numbered := by
  have hover : { s with graceTimer := none, pc := .returned }.Numbered := numbered_stopped h
  unfold AgentLoop.finish
  split
  · rename_i scope hscope
    exact numbered_cancelScope hover (h scope (knows_worker hscope))
  · exact hover

theorem numbered_armGrace (h : s.Numbered) : s.armGrace.Numbered := by
  unfold AgentLoop.armGrace
  split
  · rename_i scope hscope _
    refine numbered_of_parts h le_rfl (fun _ hmem => knows_cancelled hmem) (fun _ hmem => knows_callback hmem)
      (fun _ hworker => .inl (knows_worker hworker)) fun timer htimer => ?_
    cases htimer
    exact knows_worker hscope
  · exact h

theorem numbered_afterAttempt (h : s.Numbered) (err : ServeError) (jitter : Option (Fin 4001)) :
    (s.afterAttempt err jitter).1.Numbered := by
  unfold AgentLoop.afterAttempt
  split
  · exact numbered_finish h
  · cases err with
    | unbound => exact numbered_finish h
    | other => exact numbered_armGrace h

theorem numbered_ensureWorkerScope (h : s.Numbered) : s.ensureWorkerScope.1.Numbered := by
  have hstopped := numbered_stopped h
  unfold AgentLoop.ensureWorkerScope
  split
  · split
    · exact numbered_newScope hstopped
    · exact hstopped
  · exact numbered_newScope hstopped

theorem numbered_of_step {a : AgentAction} {fs : List AgentEvent} (h : s.Numbered)
    (hstep : s.step a = some (t, fs)) : t.Numbered := by
  cases a with
  | elapse => exact prop_of_step AgentLoop.Numbered hstep h
  | cancelContext =>
    obtain ⟨-, hr⟩ := ite_none_left_eq_some.mp hstep
    exact prop_of_step AgentLoop.Numbered hr h
  | dial =>
    obtain ⟨-, hr⟩ := ite_none_right_eq_some.mp hstep
    refine prop_of_step AgentLoop.Numbered hr ?_
    split
    · exact numbered_finish h
    · exact h
  | connected =>
    obtain ⟨-, hr⟩ := ite_none_right_eq_some.mp hstep
    exact prop_of_step AgentLoop.Numbered hr (numbered_ensureWorkerScope h)
  | connectFailed | served =>
    obtain ⟨-, hr⟩ := ite_none_right_eq_some.mp hstep
    exact prop_of_step AgentLoop.Numbered hr (numbered_afterAttempt h _ _)
  | delayOver =>
    unfold AgentLoop.step at hstep
    dsimp only at hstep
    split at hstep
    · obtain ⟨-, hr⟩ := ite_none_right_eq_some.mp hstep
      exact prop_of_step AgentLoop.Numbered hr h
    · simp at hstep
  | stopWaiting =>
    unfold AgentLoop.step at hstep
    dsimp only at hstep
    split at hstep
    · obtain ⟨-, hr⟩ := ite_none_right_eq_some.mp hstep
      exact prop_of_step AgentLoop.Numbered hr (numbered_finish h)
    · simp at hstep
  | graceExpires =>
    obtain ⟨timer, htimer, hrest⟩ := bind_eq_some_iff.mp hstep
    obtain ⟨-, -, hr⟩ := bind_eq_some_iff.mp hrest
    refine prop_of_step AgentLoop.Numbered hr ?_
    refine numbered_of_parts h le_rfl (fun _ hmem => knows_cancelled hmem) (fun scope hcallback => ?_)
      (fun _ hworker => .inl (knows_worker hworker)) fun fired hfired => ?_
    · obtain hold | hnew := mem_append.mp hcallback
      · exact knows_callback hold
      · rw [mem_singleton.mp hnew]
        exact knows_timer htimer
    · cases hfired
      exact .inr (.inr (.inr ⟨timer, htimer, rfl⟩))
  | callback index =>
    obtain ⟨scope, hscope, hr⟩ := bind_eq_some_iff.mp hstep
    have hlt : scope < s.nextScope := h scope (knows_callback (mem_of_getElem? hscope))
    have hrest : ({ s with callbacks := s.callbacks.eraseIdx index } : AgentLoop).Numbered :=
      numbered_of_parts h le_rfl (fun _ hmem => knows_cancelled hmem)
        (fun _ hmem => knows_callback (mem_of_mem_eraseIdx hmem)) (fun _ hworker => .inl (knows_worker hworker))
        fun _ htimer => knows_timer htimer
    exact prop_of_step AgentLoop.Numbered hr (numbered_cancelScope hrest hlt)

/-- The agent does what the timer of its scope tells, step by step. -/
theorem follows_of_step {a : AgentAction} {fs : List AgentEvent} (hnumbered : s.Numbered) (h : s.Tracks k)
    (hstep : s.step a = some (t, fs)) : k.Follows (t, fs) := by
  have hdown : s.pc ≠ .serving → s.workerCtx.isSome = true → ∃ since, k.downSince = some since ∧ since ≤ s.now :=
    fun hpc hsome => h.down hsome hpc
  cases a with
  | elapse =>
    refine rel_of_step (fun t fs => k.Follows (t, fs)) hstep (follows_nil ?_)
    refine ⟨h.ended, h.scope, fun hsome hpc => ?_, h.timer, h.callbacks⟩
    obtain ⟨since, hsince, hle⟩ := h.down hsome hpc
    exact ⟨since, hsince, Nat.le_trans hle (Nat.le_add_right _ _)⟩
  | cancelContext =>
    obtain ⟨-, hr⟩ := ite_none_left_eq_some.mp hstep
    refine rel_of_step (fun t fs => k.Follows (t, fs)) hr ?_
    have hended : ∀ j : ScopeLog, j.ended = true → j.downSince = k.downSince → j.lapsed = k.lapsed →
        { s with ctxDone := true }.Tracks j := by
      intro j hdone hsince hlapsed
      refine ⟨hdone, fun hlive => ?_, ?_, fun timer htimer => ?_, fun scope hscope => ?_⟩
      · cases hdone.symm.trans hlive
      · rw [hsince]
        exact h.down
      · unfold ScopeLog.GraceOver
        rw [hsince]
        exact h.timer timer htimer
      · rw [hlapsed]
        exact h.callbacks scope hscope
    unfold AgentLoop.cancelContext
    split
    · rename_i scope _
      split
      · exact ⟨⟨trivial, trivial⟩, hended _ rfl rfl rfl⟩
      · refine ⟨⟨trivial, .inl rfl, trivial⟩, ?_⟩
        show AgentLoop.Tracks _ ((k.next .contextDone).next (.cancelled s.now scope))
        obtain hnone | hsame := next_cancelled (k.next .contextDone) s.now scope
        · rw [hnone]
          exact hended _ rfl rfl rfl
        · rw [hsame]
          exact hended _ rfl rfl rfl
    · exact ⟨⟨trivial, trivial⟩, hended _ rfl rfl rfl⟩
  | dial =>
    obtain ⟨hpc, hr⟩ := ite_none_right_eq_some.mp hstep
    refine rel_of_step (fun t fs => k.Follows (t, fs)) hr ?_
    split
    · rename_i hdone
      exact finish_follows h (.inl hdone) (hdown (by simp [hpc]))
    · exact follows_nil ⟨h.ended, h.scope, fun hsome _ => hdown (by simp [hpc]) hsome,
        fun timer htimer => ⟨by simp, (h.timer timer htimer).2⟩, h.callbacks⟩
  | connected =>
    obtain ⟨-, hr⟩ := ite_none_right_eq_some.mp hstep
    exact rel_of_step (fun t fs => k.Follows (t, fs)) hr (connected_follows hnumbered h)
  | connectFailed =>
    obtain ⟨hpc, hr⟩ := ite_none_right_eq_some.mp hstep
    exact rel_of_step (fun t fs => k.Follows (t, fs)) hr (afterAttempt_follows h (hdown (by simp [hpc])) _ _)
  | served err jitter =>
    obtain ⟨hpc, hr⟩ := ite_none_right_eq_some.mp hstep
    refine rel_of_step (fun t fs => k.Follows (t, fs)) hr ?_
    -- The outage begins, and no timer is armed yet.
    have hlost : s.Tracks { k with downSince := some s.now } := by
      refine ⟨h.ended, h.scope, fun _ hnot => absurd hpc hnot, fun timer htimer => ?_, h.callbacks⟩
      exact absurd hpc (h.timer timer htimer).1
    obtain ⟨hok, htracks⟩ := afterAttempt_follows hlost (fun _ => ⟨s.now, rfl, le_rfl⟩) err jitter
    exact ⟨⟨trivial, hok⟩, htracks⟩
  | delayOver =>
    unfold AgentLoop.step at hstep
    dsimp only at hstep
    split at hstep
    · rename_i due hpc
      obtain ⟨-, hr⟩ := ite_none_right_eq_some.mp hstep
      refine rel_of_step (fun t fs => k.Follows (t, fs)) hr (follows_nil ?_)
      exact ⟨h.ended, h.scope, fun hsome _ => hdown (by simp [hpc]) hsome,
        fun timer htimer => ⟨by simp, (h.timer timer htimer).2⟩, h.callbacks⟩
    · simp at hstep
  | stopWaiting =>
    unfold AgentLoop.step at hstep
    dsimp only at hstep
    split at hstep
    · rename_i due hpc
      obtain ⟨hdone, hr⟩ := ite_none_right_eq_some.mp hstep
      exact rel_of_step (fun t fs => k.Follows (t, fs)) hr (finish_follows h (.inl hdone) (hdown (by simp [hpc])))
    · simp at hstep
  | graceExpires =>
    obtain ⟨timer, htimer, hrest⟩ := bind_eq_some_iff.mp hstep
    obtain ⟨_, hguard, hr⟩ := bind_eq_some_iff.mp hrest
    obtain ⟨-, hdue⟩ := (guard_eq_some' _).mp hguard
    refine rel_of_step (fun t fs => k.Follows (t, fs)) hr ⟨⟨graceOver_mono (h.timer timer htimer).2 hdue,
      trivial⟩, ?_⟩
    refine ⟨h.ended, h.scope, h.down, fun fired hfired => ?_, fun scope hscope => ?_⟩
    · cases hfired
      exact h.timer timer htimer
    · obtain hold | hnew := mem_append.mp hscope
      · exact mem_cons_of_mem _ (h.callbacks scope hold)
      · rw [mem_singleton.mp hnew]
        exact mem_cons_self
  | callback index =>
    obtain ⟨scope, hscope, hr⟩ := bind_eq_some_iff.mp hstep
    have hlapsed : scope ∈ k.lapsed := h.callbacks scope (mem_of_getElem? hscope)
    have hrest : ({ s with callbacks := s.callbacks.eraseIdx index } : AgentLoop).Tracks k :=
      ⟨h.ended, h.scope, h.down, h.timer, fun other hother => h.callbacks other (mem_of_mem_eraseIdx hother)⟩
    exact rel_of_step (fun t fs => k.Follows (t, fs)) hr (cancelScope_follows hrest (.inr hlapsed))

end Steps

/-- In every run the scope of the session workers is cancelled only at the end of the agent's context, on the
return for an archived identity, or by its grace timer; a timer expires only when the control channel has been
down for the grace period without interruption, and a connection that is taken up before keeps the scope. -/
theorem scope_grace {as : List AgentAction} {t : AgentLoop} {es : List AgentEvent}
    (h : agentLoop.Path {} as t es) : graceMonitor.Accepts es := by
  have hrun : ∀ (s : AgentLoop) (k : ScopeLog), s.Numbered → s.Tracks k →
      ∀ {as t es}, agentLoop.Path s as t es → graceMonitor.AcceptsFrom k es := by
    intro s k hnumbered htracks as t es hpath
    induction hpath generalizing k with
    | nil => exact trivial
    | cons hstep _ ih =>
      obtain ⟨hok, hnext⟩ := follows_of_step hnumbered htracks hstep
      exact (graceMonitor.acceptsFrom_append k _ _).mpr ⟨hok, ih _ (numbered_of_step hnumbered hstep) hnext⟩
  refine hrun {} {} ?_ ?_ h
  · rintro scope (hmem | hmem | hnone | ⟨timer, hnone, -⟩)
    · simp at hmem
    · simp at hmem
    · simp at hnone
    · simp at hnone
  · exact ⟨rfl, nofun, nofun,
      nofun, nofun⟩

/-- A connection is lost, and the grace period goes by before the next one. -/
def lapsedScope : List AgentAction :=
  [.dial, .connected, .served .other none, .elapse agentReconnectMin, .delayOver, .dial,
    .elapse agentWorkerGracePeriod, .graceExpires, .callback 0, .connected]

def lapsedTrace : List AgentEvent :=
  [.connected 0 0, .disconnected 0, .expired 61000000000 0, .cancelled 61000000000 0, .connected 61000000000 1]

theorem scope_grace_lapsed : graceMonitor.Accepts lapsedTrace := by
  have hrun : (agentLoop.exec (fun _ _ _ => true) {} [] lapsedScope).any
      (fun r => decide (r.2 = lapsedTrace)) = true := by decide +kernel
  obtain ⟨t, es, hpath, htrace⟩ := Machine.path_of_check hrun
  have heq : es = lapsedTrace := of_decide_eq_true htrace
  rw [← heq]
  exact scope_grace hpath

/-- The server archives the identity while the connection is up. -/
def archivedWhileUp : List AgentAction := [.dial, .connected, .served .unbound none]

/-- The grace timer expires, and its function runs only after the next connection is taken up. -/
def lateCallback : List AgentAction :=
  [.dial, .connected, .served .other none, .elapse agentReconnectMin, .delayOver, .dial,
    .elapse agentWorkerGracePeriod, .graceExpires, .connected, .callback 0]

/-- Both runs cancel the scope before the agent's context has ended and without an outage of the grace
period. -/
theorem scope_cancelled_early : (∃ t es, agentLoop.Path {} archivedWhileUp t es ∧ ¬outageMonitor.Accepts es) ∧
    ∃ t es, agentLoop.Path {} lateCallback t es ∧ ¬outageMonitor.Accepts es := by
  have harchived : (agentLoop.exec (fun _ _ _ => true) {} [] archivedWhileUp).any
      (fun r => decide (¬outageMonitor.Accepts r.2)) = true := by decide +kernel
  have hlate : (agentLoop.exec (fun _ _ _ => true) {} [] lateCallback).any
      (fun r => decide (¬outageMonitor.Accepts r.2)) = true := by decide +kernel
  obtain ⟨t, es, hpath, hviolated⟩ := Machine.path_of_check harchived
  obtain ⟨t', es', hpath', hviolated'⟩ := Machine.path_of_check hlate
  exact ⟨⟨t, es, hpath, of_decide_eq_true hviolated⟩, t', es', hpath', of_decide_eq_true hviolated'⟩

end LigamentApps.LinkAgent
