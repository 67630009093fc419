import LigamentApps.Machine.Trace

/-!
# Runs that come to their end

`Machine.Leads` says of a state that no run from it goes on forever, and that a goal is reached wherever a run
can go no further. It is shown with a rank that every step lowers, and refuted by a path to an end without the
goal. -/

namespace LigamentApps.Machine

universe u v w

/-- The machine that does only the steps that meet a condition. -/
def guarded {σ : Type u} {α : Type v} {ε : Type w} (M : Machine σ α ε) (good : σ → α → Bool) : Machine σ α ε :=
  ⟨fun s a => if good s a then M.step s a else none⟩

variable {σ : Type u} {α : Type v} {ε : Type w} {M : Machine σ α ε} {Goal : σ → List ε → Prop} {s t : σ}
  {es fs : List ε} {as : List α}

/-- No action is possible. -/
def Stuck (M : Machine σ α ε) (s : σ) : Prop := ∀ a, M.step s a = none

/-- Every run from the state, after the trace, is finite, and where it can go no further the goal is
reached. -/
inductive Leads (M : Machine σ α ε) (Goal : σ → List ε → Prop) : σ → List ε → Prop
  | intro {s : σ} {es : List ε} (hstep : ∀ a t fs, M.step s a = some (t, fs) → Leads M Goal t (es ++ fs))
      (hend : M.Stuck s → Goal s es) : Leads M Goal s es

theorem Leads.of_rank (Inv : ℕ → σ → List ε → Prop)
    (hstep : ∀ n s es a t fs, Inv n s es → M.step s a = some (t, fs) → ∃ m < n, Inv m t (es ++ fs))
    (hend : ∀ n s es, Inv n s es → M.Stuck s → Goal s es) (n : ℕ) : ∀ s es, Inv n s es → M.Leads Goal s es := by
  induction n using Nat.strongRecOn with
  | ind n ih =>
    intro s es hinv
    refine .intro (fun a t fs hs => ?_) (hend n s es hinv)
    obtain ⟨m, hlt, hnext⟩ := hstep n s es a t fs hinv hs
    exact ih m hlt t (es ++ fs) hnext

theorem Leads.of_path (hpath : M.Path s as t fs) (h : M.Leads Goal s es) : M.Leads Goal t (es ++ fs) := by
  induction hpath generalizing es with
  | nil => rwa [List.append_nil]
  | cons hs _ ih =>
    obtain ⟨hstep, -⟩ := h
    rw [← List.append_assoc]
    exact ih (hstep _ _ _ hs)

theorem Leads.goal (hpath : M.Path s as t fs) (hstuck : M.Stuck t) (h : M.Leads Goal s []) : Goal t fs := by
  obtain ⟨-, hend⟩ := h.of_path hpath
  exact hend hstuck

end LigamentApps.Machine
