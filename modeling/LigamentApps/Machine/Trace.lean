import Mathlib.Data.List.Basic
import Mathlib.Data.Option.Basic

/-!
# Machines that emit events, their runs, and monitors of the trace

A `Machine` takes an action in a state, or refuses it, and emits a list of events. A run is read
off in two ways: `Machine.Path` follows the actions one by one between two states, and
`Machine.Reach` collects the trace of a run from a start state whose every step satisfies a
condition `Good` on the state, the trace so far, and the action. A safety property of a run is a
`Monitor` of its trace: a state that every event updates, and a check that every event must pass.

The rules the developments use are `Reach.invariant`, the induction over a run with the trace in
the invariant, and `Reach.monitor_accepts`, which turns a step lemma about the machine's state
together with the monitor's state into acceptance of the whole trace. `exec` runs a list of
actions, so that a concrete run is checked by evaluation (`reach_of_exec`). -/

namespace LigamentApps

variable {σ : Type u} {ε : Type w}

universe u v w x

theorem guarded_eq_some {α β : Type} {o : Option α} {p : α → Prop} [∀ a, Decidable (p a)] {f : α → β} {b : β}
    (h : (do let a ← o; guard (p a); return f a) = some b) : ∃ a, o = some a ∧ p a ∧ f a = b := by
  obtain ⟨a, ha, hrest⟩ := Option.bind_eq_some_iff.mp h
  obtain ⟨_, hguard, hf⟩ := Option.bind_eq_some_iff.mp hrest
  exact ⟨a, ha, by simpa [guard, failure] using hguard, Option.some.inj hf⟩

theorem prop_of_step (p : σ → Prop) {r : σ × List ε} {t : σ} {es : List ε} (h : some r = some (t, es))
    (hr : p r.1) : p t := by
  cases h
  exact hr

theorem rel_of_step {σ : Type u} {ε : Type w} (p : σ → List ε → Prop) {r : σ × List ε} {t : σ}
    {es : List ε} (h : some r = some (t, es)) (hr : p r.1 r.2) : p t es := by
  cases h
  exact hr

/-- A machine with states `σ`, actions `α` and events `ε`. -/
structure Machine (σ : Type u) (α : Type v) (ε : Type w) where
  /-- The state after an action with the events it emits, or `none` when the action is not
  possible in the state. -/
  step : σ → α → Option (σ × List ε)

namespace Machine

variable {σ : Type u} {α : Type v} {ε : Type w} (M : Machine σ α ε)

/-- `M.Path s as t es`: the actions `as` lead from `s` to `t` and emit `es`. -/
inductive Path (M : Machine σ α ε) : σ → List α → σ → List ε → Prop
  /-- No action, no change. -/
  | nil (s : σ) : Path M s [] s []
  /-- One action, then the rest of the path. -/
  | cons {s s' t : σ} {a : α} {as : List α} {es fs : List ε} :
      M.step s a = some (s', es) → Path M s' as t fs → Path M s (a :: as) t (es ++ fs)

/-- `M.Reach Good s₀ t es`: a run from `s₀` to `t` with the trace `es`, in which every step
satisfies `Good` of the state it starts in, the trace before it, and its action. -/
inductive Reach (M : Machine σ α ε) (Good : σ → List ε → α → Prop) (s₀ : σ) :
    σ → List ε → Prop
  /-- The run without steps. -/
  | start : Reach M Good s₀ s₀ []
  /-- A run and one more step. -/
  | step {s t : σ} {a : α} {es fs : List ε} :
      Reach M Good s₀ s es → Good s es a → M.step s a = some (t, fs) →
      Reach M Good s₀ t (es ++ fs)

/-- The execution of a list of actions from a state and a trace, with a check before each step. -/
def exec (good : σ → List ε → α → Bool) : σ → List ε → List α → Option (σ × List ε)
  | s, es, [] => some (s, es)
  | s, es, a :: as =>
    if good s es a then
      match M.step s a with
      | none => none
      | some (t, fs) => exec good t (es ++ fs) as
    else none

/-- Every step of the run that a list of actions makes from a state and a trace, as far as its
actions are possible, satisfies `Good`. -/
def Every (Good : σ → List ε → α → Prop) : σ → List ε → List α → Prop
  | _, _, [] => True
  | s, es, a :: as =>
    Good s es a ∧ ∀ t fs, M.step s a = some (t, fs) → Every Good t (es ++ fs) as

variable {M} {Good : σ → List ε → α → Prop} {s₀ : σ}

/-- The induction over a run: what holds at the start and is preserved by every good step holds
of every state reached with its trace. -/
theorem Reach.invariant (Inv : σ → List ε → Prop) (hstart : Inv s₀ [])
    (hstep : ∀ s es a t fs, Inv s es → Good s es a → M.step s a = some (t, fs) →
      Inv t (es ++ fs)) {t : σ} {es : List ε} (h : M.Reach Good s₀ t es) : Inv t es := by
  induction h with
  | start => exact hstart
  | step _ hgood hs ih => exact hstep _ _ _ _ _ ih hgood hs

theorem Reach.mono {Good' : σ → List ε → α → Prop} (hsub : ∀ s es a, Good s es a → Good' s es a)
    {t : σ} {es : List ε} (h : M.Reach Good s₀ t es) : M.Reach Good' s₀ t es := by
  induction h with
  | start => exact .start
  | step _ hgood hs ih => exact ih.step (hsub _ _ _ hgood) hs

theorem reach_of_exec_from {good : σ → List ε → α → Bool}
    (hgood : ∀ s es a, good s es a = true → Good s es a) :
    ∀ (as : List α) {s t : σ} {es fs : List ε}, M.Reach Good s₀ s es →
      M.exec good s es as = some (t, fs) → M.Reach Good s₀ t fs
  | [], s, t, es, fs, hreach, h => by
    simp only [exec, Option.some.injEq, Prod.mk.injEq] at h
    obtain ⟨rfl, rfl⟩ := h
    exact hreach
  | a :: as, s, t, es, fs, hreach, h => by
    rw [exec] at h
    split at h
    · rename_i hg
      cases hs : M.step s a with
      | none => simp [hs] at h
      | some =>
        rw [hs] at h
        exact reach_of_exec_from hgood as (hreach.step (hgood _ _ _ hg) hs) h
    · simp at h

theorem path_of_exec {good : σ → List ε → α → Bool} :
    ∀ (as : List α) {s t : σ} {es fs : List ε}, M.exec good s es as = some (t, fs) →
      ∃ gs, fs = es ++ gs ∧ M.Path s as t gs
  | [], s, t, es, fs, h => by
    simp only [exec, Option.some.injEq, Prod.mk.injEq] at h
    obtain ⟨rfl, rfl⟩ := h
    exact ⟨[], (List.append_nil es).symm, .nil s⟩
  | a :: as, s, t, es, fs, h => by
    rw [exec] at h
    split at h
    · cases hs : M.step s a with
      | none => simp [hs] at h
      | some r =>
        rw [hs] at h
        obtain ⟨gs, rfl, hpath⟩ := path_of_exec as h
        exact ⟨r.2 ++ gs, List.append_assoc .., .cons hs hpath⟩
    · simp at h

theorem path_of_check {as : List α} {s : σ} {p : σ × List ε → Bool}
    (h : (M.exec (fun _ _ _ => true) s [] as).any p = true) : ∃ t es, M.Path s as t es ∧ p (t, es) = true := by
  obtain ⟨⟨t, es⟩, hexec, hcheck⟩ := (Option.any_eq_true ..).mp h
  obtain ⟨fs, hes, hpath⟩ := path_of_exec as hexec
  rw [List.nil_append] at hes
  exact ⟨t, es, hes ▸ hpath, hcheck⟩

theorem every_of_exec {good : σ → List ε → α → Bool} (hgood : ∀ s es a, good s es a = true → Good s es a) :
    ∀ (as : List α) {s t : σ} {es fs : List ε}, M.exec good s es as = some (t, fs) → M.Every Good s es as
  | [], _, _, _, _, _ => trivial
  | a :: as, s, t, es, fs, h => by
    rw [exec] at h
    split at h
    · rename_i hg
      refine ⟨hgood _ _ _ hg, fun t' gs hs => ?_⟩
      rw [hs] at h
      exact every_of_exec hgood as h
    · simp at h

/-- Two conditions that agree wherever an invariant holds, which the steps keep that meet the second, hold of
the same runs. -/
theorem every_iff {Good' : σ → List ε → α → Prop} (Inv : σ → List ε → Prop)
    (hstep : ∀ s es a t fs, Inv s es → Good' s es a → M.step s a = some (t, fs) → Inv t (es ++ fs))
    (hiff : ∀ s es a, Inv s es → (Good s es a ↔ Good' s es a)) :
    ∀ (as : List α) (s : σ) (es : List ε), Inv s es → (M.Every Good s es as ↔ M.Every Good' s es as)
  | [], _, _, _ => Iff.rfl
  | a :: as, s, es, hinv => by
    unfold Every
    rw [hiff s es a hinv]
    have hrest : ∀ t fs, Good' s es a → M.step s a = some (t, fs) →
        (M.Every Good t (es ++ fs) as ↔ M.Every Good' t (es ++ fs) as) := fun t fs hgood hs =>
      every_iff Inv hstep hiff as t (es ++ fs) (hstep s es a t fs hinv hgood hs)
    constructor
    · exact fun h => ⟨h.1, fun t fs hs => (hrest t fs h.1 hs).mp (h.2 t fs hs)⟩
    · exact fun h => ⟨h.1, fun t fs hs => (hrest t fs h.1 hs).mpr (h.2 t fs hs)⟩

/-- Where an invariant holds, which the steps keep that meet one condition, and that gives another of them, a
run whose steps all meet the one meets the other. -/
theorem Every.imp {Good' : σ → List ε → α → Prop} (Inv : σ → List ε → Prop)
    (hstep : ∀ s es a t fs, Inv s es → Good s es a → M.step s a = some (t, fs) → Inv t (es ++ fs))
    (himp : ∀ s es a, Inv s es → Good s es a → Good' s es a) :
    ∀ (as : List α) {s : σ} {es : List ε}, Inv s es → M.Every Good s es as → M.Every Good' s es as
  | [], _, _, _, _ => trivial
  | a :: as, s, es, hinv, hevery => by
    refine ⟨himp s es a hinv hevery.1, fun t fs hs => ?_⟩
    have hnext := hstep s es a t fs hinv hevery.1 hs
    exact .imp Inv hstep himp as hnext (hevery.2 t fs hs)

/-- What holds of every state reached holds before every step of a run. -/
theorem every_of_reach {P : σ → List ε → Prop} (h : ∀ {t es}, M.Reach (fun _ _ _ => True) s₀ t es → P t es) :
    ∀ (as : List α) {s : σ} {es : List ε}, M.Reach (fun _ _ _ => True) s₀ s es →
      M.Every (fun s es _ => P s es) s es as
  | [], _, _, _ => trivial
  | _ :: as, _, _, hrun => ⟨h hrun, fun _ _ hs => every_of_reach h as (hrun.step trivial hs)⟩

theorem Every.good {as bs : List α} {a : α} {s t : σ} {es fs : List ε} (hpath : M.Path s as t fs)
    (h : M.Every Good s es (as ++ a :: bs)) : Good t (es ++ fs) a := by
  induction hpath generalizing es with
  | nil =>
    rw [List.append_nil]
    exact h.1
  | cons hs _ ih =>
    rw [← List.append_assoc]
    exact ih (h.2 _ _ hs)

theorem reach_of_exec {good : σ → List ε → α → Bool}
    (hgood : ∀ s es a, good s es a = true → Good s es a) {as : List α} {t : σ} {es : List ε}
    (h : M.exec good s₀ [] as = some (t, es)) : M.Reach Good s₀ t es :=
  reach_of_exec_from hgood as .start h

end Machine

/-- A monitor of traces: a state, its value before any event, its update by an event, and the
check an event must pass in the state it meets. -/
structure Monitor (μ : Type x) (ε : Type w) where
  /-- The state before any event. -/
  start : μ
  /-- The state after an event. -/
  next : μ → ε → μ
  /-- What an event must satisfy in the state before it. -/
  Ok : μ → ε → Prop

namespace Monitor

variable {ε : Type w} {μ : Type x} (m : Monitor μ ε)

/-- The monitor's state after a trace. -/
def after (es : List ε) : μ := es.foldl m.next m.start

/-- Every event of a trace passes its check, from a given state of the monitor on. -/
def AcceptsFrom : μ → List ε → Prop
  | _, [] => True
  | k, e :: es => m.Ok k e ∧ AcceptsFrom (m.next k e) es

/-- Every event of a trace passes its check. -/
def Accepts (es : List ε) : Prop := m.AcceptsFrom m.start es

instance decidableAcceptsFrom [∀ k e, Decidable (m.Ok k e)] :
    ∀ (k : μ) (es : List ε), Decidable (m.AcceptsFrom k es)
  | _, [] => .isTrue trivial
  | k, e :: es =>
    have := decidableAcceptsFrom (m.next k e) es
    inferInstanceAs (Decidable (m.Ok k e ∧ m.AcceptsFrom (m.next k e) es))

instance decidableAccepts [∀ k e, Decidable (m.Ok k e)] (es : List ε) :
    Decidable (m.Accepts es) :=
  inferInstanceAs (Decidable (m.AcceptsFrom m.start es))

@[simp] theorem after_nil : m.after [] = m.start := rfl

@[simp] theorem after_append (es fs : List ε) : m.after (es ++ fs) = fs.foldl m.next (m.after es) := by
  simp [after, List.foldl_append]

theorem acceptsFrom_append (k : μ) (es fs : List ε) :
    m.AcceptsFrom k (es ++ fs) ↔ m.AcceptsFrom k es ∧ m.AcceptsFrom (es.foldl m.next k) fs := by
  induction es generalizing k with
  | nil => simp [AcceptsFrom]
  | cons _ _ ih => simp [AcceptsFrom, ih, and_assoc]

theorem accepts_append (es fs : List ε) : m.Accepts (es ++ fs) ↔ m.Accepts es ∧ m.AcceptsFrom (m.after es) fs :=
  m.acceptsFrom_append m.start es fs

end Monitor

/-- A run is accepted by a monitor when an invariant of the machine's state, the trace and the
monitor's state holds at the start, is preserved, and makes the events of every good step pass. -/
theorem Machine.Reach.monitor_accepts {α : Type v} {μ : Type x} {M : Machine σ α ε}
    {Good : σ → List ε → α → Prop} {s₀ : σ} (m : Monitor μ ε) (Inv : σ → List ε → μ → Prop)
    (hstart : Inv s₀ [] m.start)
    (hstep : ∀ s es a t fs, Inv s es (m.after es) → Good s es a → M.step s a = some (t, fs) →
      m.AcceptsFrom (m.after es) fs ∧ Inv t (es ++ fs) (fs.foldl m.next (m.after es)))
    {t : σ} {es : List ε} (h : M.Reach Good s₀ t es) : m.Accepts es ∧ Inv t es (m.after es) := by
  refine h.invariant (fun s es => m.Accepts es ∧ Inv s es (m.after es)) ⟨trivial, hstart⟩ ?_
  rintro s es a t fs ⟨hacc, hinv⟩ hgood hs
  obtain ⟨hok, hinv'⟩ := hstep s es a t fs hinv hgood hs
  exact ⟨(m.accepts_append es fs).mpr ⟨hacc, hok⟩, by rwa [m.after_append]⟩

/-- The trace of a path is accepted exactly when every step of it is good, where the events of a step
pass exactly when the step is good. -/
theorem Machine.Path.accepts_iff {α : Type v} {μ : Type x} {M : Machine σ α ε}
    {Good : σ → List ε → α → Prop} (m : Monitor μ ε) (Inv : μ → List ε → Prop)
    (hstep : ∀ s es a t fs, Inv (m.after es) es → M.step s a = some (t, fs) → Inv (m.after (es ++ fs))
      (es ++ fs) ∧ (m.AcceptsFrom (m.after es) fs ↔ Good s es a))
    {s t : σ} {as : List α} {fs : List ε} (h : M.Path s as t fs) :
    ∀ es, Inv (m.after es) es → (m.AcceptsFrom (m.after es) fs ↔ M.Every Good s es as) := by
  induction h with
  | nil => exact fun _ _ => Iff.rfl
  | @cons s s' t a as fs gs hs _ ih =>
    intro es hinv
    obtain ⟨hinv', hgood⟩ := hstep s es a s' fs hinv hs
    have hrest := ih (es ++ fs) hinv'
    rw [m.after_append] at hrest
    rw [m.acceptsFrom_append, hgood, hrest]
    constructor
    · rintro ⟨hfst, hlater⟩
      refine ⟨hfst, fun t' fs' hs' => ?_⟩
      obtain ⟨rfl, rfl⟩ := Prod.mk.inj (Option.some.inj (hs.symm.trans hs'))
      exact hlater
    · rintro ⟨hfst, hlater⟩
      exact ⟨hfst, hlater _ _ hs⟩

end LigamentApps
