import LigamentApps.Machine.Trace

/-!
# Events and their past

A property of a trace that every event has by itself and the events before it. -/

namespace LigamentApps

variable {ε : Type*} {P : List ε → ε → Prop} {es fs : List ε}

/-- Every event of a trace has a property together with the events before it. -/
def EachAfter (P : List ε → ε → Prop) (es : List ε) : Prop := ∀ es₁ e es₂, es = es₁ ++ e :: es₂ → P es₁ e

theorem eachAfter_nil : EachAfter P [] := fun es₁ _ _ h => absurd h.symm (by simp)

theorem eachAfter_append (h : EachAfter P es) (hf : EachAfter (fun fs₁ e => P (es ++ fs₁) e) fs) :
    EachAfter P (es ++ fs) := by
  intro es₁ e es₂ hsplit
  rcases List.append_eq_append_iff.mp hsplit with ⟨mid, rfl, hrest⟩ | ⟨mid, hes, hrest⟩
  · exact hf mid e es₂ hrest
  · cases mid with
    | nil =>
      rw [List.append_nil] at hes
      have hfs : P (es ++ []) e := hf [] e es₂ (by simpa using hrest.symm)
      rwa [List.append_nil, hes] at hfs
    | cons _ mid =>
      obtain ⟨rfl, -⟩ := List.cons_eq_cons.mp hrest
      exact h es₁ e mid hes

theorem eachAfter_snoc {e : ε} (h : EachAfter P es) (he : P es e) : EachAfter P (es ++ [e]) := by
  refine eachAfter_append h fun es₁ e' es₂ hsplit => ?_
  obtain ⟨rfl, rfl, rfl⟩ : es₁ = [] ∧ e' = e ∧ es₂ = [] := by
    cases es₁ with
    | nil => exact ⟨rfl, by simpa using hsplit.symm⟩
    | cons => simp at hsplit
  rw [List.append_nil]
  exact he

theorem eachAfter_append_iff :
    EachAfter P (es ++ fs) ↔ EachAfter P es ∧ EachAfter (fun fs₁ e => P (es ++ fs₁) e) fs := by
  constructor
  · intro h
    refine ⟨fun es₁ e es₂ hsplit => h es₁ e (es₂ ++ fs) ?_, fun fs₁ e fs₂ hsplit => h (es ++ fs₁) e fs₂ ?_⟩
    · rw [hsplit, List.append_assoc, List.cons_append]
    · rw [hsplit, List.append_assoc]
  · rintro ⟨hes, hfs⟩
    exact eachAfter_append hes hfs

theorem eachAfter_singleton {e : ε} : EachAfter P [e] ↔ P [] e := by
  constructor
  · exact fun h => h [] e [] rfl
  · exact fun h => eachAfter_snoc eachAfter_nil h

/-- The trace of a path has a property in every event exactly when every step of the path is good, where the
events of a step have it exactly when the step is good. -/
theorem Machine.Path.eachAfter_iff {σ α : Type*} {M : Machine σ α ε} {Good : σ → List ε → α → Prop}
    (Inv : σ → List ε → Prop)
    (hstep : ∀ s es a t fs, Inv s es → M.step s a = some (t, fs) →
      Inv t (es ++ fs) ∧ (EachAfter (fun fs₁ e => P (es ++ fs₁) e) fs ↔ Good s es a))
    {s t : σ} {as : List α} {fs : List ε} (h : M.Path s as t fs) :
    ∀ es, Inv s es → (EachAfter (fun fs₁ e => P (es ++ fs₁) e) fs ↔ M.Every Good s es as) := by
  induction h with
  | nil => exact fun es _ => iff_of_true eachAfter_nil trivial
  | @cons s s' t a as fs gs hs _ ih =>
    intro es hinv
    obtain ⟨hinv', hgood⟩ := hstep s es a s' fs hinv hs
    have hrest := ih (es ++ fs) hinv'
    simp only [List.append_assoc] at hrest
    rw [eachAfter_append_iff, hgood, hrest]
    constructor
    · rintro ⟨hfst, hlater⟩
      refine ⟨hfst, fun t' fs' hs' => ?_⟩
      obtain ⟨rfl, rfl⟩ := Prod.mk.inj (Option.some.inj (hs.symm.trans hs'))
      exact hlater
    · rintro ⟨hfst, hlater⟩
      exact ⟨hfst, hlater _ _ hs⟩

end LigamentApps
