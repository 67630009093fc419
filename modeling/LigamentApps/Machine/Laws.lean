import LigamentApps.Machine.Trace

/-!
# Laws of a trace and conditions on the steps

A `Monitor` states a law of the whole trace. `Path.accepts_iff_every` turns it into a condition on the steps
of the run: it is enough to show, in every state that an invariant relates to the monitor's state, when the
events of one step pass. -/

namespace LigamentApps.Machine

universe u v w x

variable {σ : Type u} {α : Type v} {ε : Type w} {μ : Type x} {M : Machine σ α ε}

/-- The trace of a path is accepted exactly when every step of it is good, where in the states of an
invariant, which good steps keep, the events of a step pass exactly when the step is good. -/
theorem Path.accepts_iff_every {Good : σ → List ε → α → Prop} (m : Monitor μ ε) (Inv : σ → μ → Prop)
    (hstep : ∀ s es a t fs, Inv s (m.after es) → M.step s a = some (t, fs) →
      (m.AcceptsFrom (m.after es) fs ↔ Good s es a) ∧ (Good s es a → Inv t (fs.foldl m.next (m.after es))))
    {s t : σ} {as : List α} {fs : List ε} (h : M.Path s as t fs) :
    ∀ es, Inv s (m.after es) → (m.AcceptsFrom (m.after es) fs ↔ M.Every Good s es as) := by
  induction h with
  | nil => exact fun _ _ => Iff.rfl
  | @cons s s' t a as fs gs hs _ ih =>
    intro es hinv
    obtain ⟨hgood, hkeep⟩ := hstep s es a s' fs hinv hs
    rw [m.acceptsFrom_append]
    constructor
    · rintro ⟨hfirst, hlater⟩
      have hstepGood := hgood.mp hfirst
      have hrest := ih (es ++ fs) (by rw [m.after_append]; exact hkeep hstepGood)
      refine ⟨hstepGood, fun t' fs' hs' => ?_⟩
      obtain ⟨rfl, rfl⟩ := Prod.mk.inj (Option.some.inj (hs.symm.trans hs'))
      rw [m.after_append] at hrest
      exact hrest.mp hlater
    · rintro ⟨hstepGood, hlater⟩
      have hrest := ih (es ++ fs) (by rw [m.after_append]; exact hkeep hstepGood)
      rw [m.after_append] at hrest
      exact ⟨hgood.mpr hstepGood, hrest.mpr (hlater s' fs hs)⟩

/-- The trace of a path is accepted when every step of it is good, where good steps keep an invariant between
the state and the monitor's state, and their events pass. -/
theorem Path.accepts_of_every {Good : σ → List ε → α → Prop} (m : Monitor μ ε) (Inv : σ → μ → Prop)
    (hstep : ∀ s es a t fs, Inv s (m.after es) → Good s es a → M.step s a = some (t, fs) →
      m.AcceptsFrom (m.after es) fs ∧ Inv t (fs.foldl m.next (m.after es)))
    {s t : σ} {as : List α} {fs : List ε} (h : M.Path s as t fs) :
    ∀ es, Inv s (m.after es) → M.Every Good s es as → m.AcceptsFrom (m.after es) fs := by
  induction h with
  | nil => exact fun _ _ _ => trivial
  | @cons s s' t a as fs gs hs _ ih =>
    rintro es hinv ⟨hgood, hrest⟩
    obtain ⟨hok, hkeep⟩ := hstep s es a s' fs hinv hgood hs
    have hlater := ih (es ++ fs) (by rw [m.after_append]; exact hkeep) (hrest s' fs hs)
    rw [m.after_append] at hlater
    exact (m.acceptsFrom_append _ fs gs).mpr ⟨hok, hlater⟩

end LigamentApps.Machine
