import LigamentApps.LinkAgent.UpdateManager

/-!
# The calls of the update manager

What a call does in a step, and that at most one of them stages at a time. -/

namespace LigamentApps.LinkAgent

open List Option

theorem getElem?_set_cases {α : Type} {l : List α} {i j : ℕ} {x y : α} (h : (l.set i x)[j]? = some y) :
    (j = i ∧ y = x) ∨ (j ≠ i ∧ l[j]? = some y) := by
  rw [getElem?_set] at h
  split at h
  · rename_i hij
    split at h
    · exact .inl ⟨hij.symm, (Option.some.inj h).symm⟩
    · simp at h
  · rename_i hij
    exact .inr ⟨fun hji => hij hji.symm, h⟩

theorem getElem?_snoc_cases {α : Type} {l : List α} {j : ℕ} {x y : α} (h : (l ++ [x])[j]? = some y) :
    y = x ∨ l[j]? = some y := by
  rw [getElem?_append] at h
  split at h
  · exact .inr h
  · have hmem : y ∈ [x] := mem_of_getElem? h
    exact .inl (mem_singleton.mp hmem)

variable {F : Type} [DecidableEq F] {env : UpdateEnv F} {s t : UpdateManager F} {es fs : List (UpdateEvent F)}

/-! ## What a call does -/

/-- A step of a call, in the state `s`: the state after it, and its events. -/
inductive CallStep (env : UpdateEnv F) (s : UpdateManager F) (i : ℕ) (c : UpdateCall) :
    UpdateManager F → List (UpdateEvent F) → Prop
  | looked (pc : UpdatePc) (hpc : c.pc = .looking)
      (hnext : pc = .entering ∨ (pc = .marking ∧ s.files (env.targetPath c.command.version) ≠ none)) :
      CallStep env s i c (s.withCall i { c with pc }) []
  | refused (hpc : c.pc = .entering) (hbusy : s.status = .staging ∨ s.status = .applying) :
      CallStep env s i c (s.withCall i { c with pc := .over }) [.refused i]
  | entered (hpc : c.pc = .entering) (hfree : ¬(s.status = .staging ∨ s.status = .applying)) :
      CallStep env s i c { s.withCall i { c with pc := .requesting } with status := .staging }
        [.moved s.status .staging c.command.version 0 ""]
  | opened (hpc : c.pc = .requesting) : CallStep env s i c (s.opened env i c) []
  | failed (pc : UpdatePc) (err : StageError) (hpc : (c.pc = .requesting ∧ pc = .over) ∨
      ((c.pc = .downloading ∨ c.pc = .renaming) ∧ pc = .cleaning false)) :
      CallStep env s i c { s.withCall i { c with pc } with status := .failed }
        [.moved s.status .failed c.command.version 0 err.text]
  | received (bytes : List UInt8) (hpc : c.pc = .downloading) : CallStep env s i c (s.received env i c bytes) []
  | unchecked (hpc : c.pc = .downloading) (hnone : c.command.expectedSHA = "") :
      CallStep env s i c (s.withCall i { c with pc := .renaming }) []
  | compared (hpc : c.pc = .downloading) (hsome : c.command.expectedSHA ≠ "")
      (hequal : equalFold (env.sha256 c.hashed) c.command.expectedSHA = true) :
      CallStep env s i c (s.withCall i { c with pc := .renaming })
        [.compared i c.command.version c.command.expectedSHA]
  | renamed (file : CachedFile) (hpc : c.pc = .renaming)
      (hfile : s.files (env.tempPath c.command.version) = some file) :
      CallStep env s i c (((s.withFile (env.targetPath c.command.version) (some file)).withFile
        (env.tempPath c.command.version) none).withCall i { c with pc := .finishing }) []
  | finished (hpc : c.pc = .finishing) :
      CallStep env s i c { s.withCall i { c with pc := .cleaning true } with status := .staged }
        [.moved s.status .staged c.command.version 100 "", .staged (env.targetPath c.command.version)]
  | cleaned (ok removed : Bool) (hpc : c.pc = .cleaning ok) : CallStep env s i c (s.clean env i c ok removed) []
  | marked (hpc : c.pc = .marking) :
      CallStep env s i c { s.withCall i { c with pc := .launching } with status := .applying }
        [.moved s.status .applying c.command.version 100 ""]
  | launched (outcome : LaunchOutcome) (hpc : c.pc = .launching) :
      CallStep env s i c (s.launch env i c outcome).1 (s.launch env i c outcome).2

omit [DecidableEq F] in
theorem launch_spec (s : UpdateManager F) (i : ℕ) (c : UpdateCall) (outcome : LaunchOutcome) :
    (s.launch env i c outcome).1.calls = s.calls.set i { c with pc := .over } ∧
      (s.launch env i c outcome).1.status = s.status ∧ (s.launch env i c outcome).1.files = s.files := by
  cases outcome with
  | started | notStarted | notWritten => exact ⟨rfl, rfl, rfl⟩

/-- What one step of a call can do. -/
theorem callStep_of_run {i : ℕ} {c : UpdateCall} {input : UpdateInput} {r : UpdateOutcome F}
    (h : s.runCall env i c input = some r) : CallStep env s i c r.1 r.2 := by
  unfold UpdateManager.runCall at h
  cases input with
  | stat readable =>
    obtain ⟨hpc, heq⟩ := ite_none_right_eq_some.mp h
    cases heq
    refine .looked _ hpc ?_
    split
    · rename_i hfound
      have hthere := ((Bool.and_eq_true ..).mp hfound).2
      exact .inr ⟨rfl, isSome_iff_ne_none.mp hthere⟩
    · exact .inl rfl
  | enter =>
    obtain ⟨hpc, heq⟩ := ite_none_right_eq_some.mp h
    cases heq
    unfold UpdateManager.enter
    split
    · rename_i hbusy
      exact .refused hpc hbusy
    · rename_i hfree
      exact .entered hpc hfree
  | opened =>
    obtain ⟨hpc, heq⟩ := ite_none_right_eq_some.mp h
    cases heq
    exact .opened hpc
  | notOpened err =>
    obtain ⟨hpc, heq⟩ := ite_none_right_eq_some.mp h
    cases heq
    exact .failed .over err (.inl ⟨hpc, rfl⟩)
  | received bytes =>
    obtain ⟨hpc, heq⟩ := ite_none_right_eq_some.mp h
    cases heq
    exact .received bytes hpc
  | broken err =>
    obtain ⟨hpc, heq⟩ := ite_none_right_eq_some.mp h
    cases heq
    exact .failed _ err (.inr ⟨.inl hpc, rfl⟩)
  | eof =>
    obtain ⟨hpc, heq⟩ := ite_none_right_eq_some.mp h
    cases heq
    unfold UpdateManager.compare
    dsimp only
    split
    · rename_i hnone
      exact .unchecked hpc hnone
    · rename_i hsome
      split
      · rename_i hequal
        exact .compared hpc hsome hequal
      · exact .failed _ _ (.inr ⟨.inl hpc, rfl⟩)
  | rename err =>
    obtain ⟨hpc, heq⟩ := ite_none_right_eq_some.mp h
    cases heq
    unfold UpdateManager.rename
    dsimp only
    split
    · exact .failed _ _ (.inr ⟨.inr hpc, rfl⟩)
    · exact .failed _ _ (.inr ⟨.inr hpc, rfl⟩)
    · rename_i file hfile
      exact .renamed file hpc hfile
  | finish =>
    obtain ⟨hpc, heq⟩ := ite_none_right_eq_some.mp h
    cases heq
    exact .finished hpc
  | clean removed =>
    dsimp only at h
    split at h
    · rename_i ok hpc
      cases h
      exact .cleaned ok removed hpc
    · simp at h
  | mark =>
    obtain ⟨hpc, heq⟩ := ite_none_right_eq_some.mp h
    cases heq
    exact .marked hpc
  | launch outcome =>
    obtain ⟨hpc, heq⟩ := ite_none_right_eq_some.mp h
    cases heq
    exact .launched outcome hpc

/-- What a script does: it opens the package, or ends. -/
def ScriptStep (env : UpdateEnv F) (s : UpdateManager F) (a : UpdateAction) (fs : List (UpdateEvent F)) : Prop :=
  (∃ script i c, a = .install script ∧ s.scripts[script]? = some .waiting ∧ s.upgradeScript = some i ∧
    s.calls[i]? = some c ∧ fs = [.executed i (env.targetPath c.command.version)]) ∨
  ∃ script, a = .scriptEnds script ∧ s.scripts[script]? = some .installing ∧ fs = []

theorem step_cases {a : UpdateAction} (h : s.step env a = some (t, fs)) : (∃ command, a = .call command ∧ fs = [] ∧
      t = { s with calls := s.calls ++ [⟨command, if command.isApply then .looking else .entering, []⟩] }) ∨
    (∃ i input c, a = .run i input ∧ s.calls[i]? = some c ∧ CallStep env s i c t fs) ∨
    ∃ script pc, t = s.withScript script pc ∧ ScriptStep env s a fs := by
  cases a with
  | call command =>
    cases h
    exact .inl ⟨command, rfl, rfl, rfl⟩
  | run i input =>
    obtain ⟨c, hc, hrun⟩ := bind_eq_some_iff.mp h
    exact .inr (.inl ⟨i, input, c, rfl, hc, callStep_of_run hrun⟩)
  | install script =>
    obtain ⟨hwaits, hinstall⟩ := ite_none_right_eq_some.mp h
    obtain ⟨i, hi, hcall⟩ := bind_eq_some_iff.mp hinstall
    obtain ⟨c, hc, heq⟩ := bind_eq_some_iff.mp hcall
    cases heq
    exact .inr (.inr ⟨script, .installing, rfl, .inl ⟨script, i, c, rfl, hwaits, hi, hc, rfl⟩⟩)
  | scriptEnds script =>
    obtain ⟨hruns, heq⟩ := ite_none_right_eq_some.mp h
    cases heq
    exact .inr (.inr ⟨script, .ended, rfl, .inr ⟨script, rfl, hruns, rfl⟩⟩)

/-! ## Stagings exclude each other -/

/-- The call is between the two sections with the lock of `StageUpdate`. -/
def UpdatePc.isStaging : UpdatePc → Bool
  | .requesting | .downloading | .renaming | .finishing => true
  | _ => false

/-- At most one call stages, and meanwhile the status has `StageUpdate` refuse. -/
structure UpdateManager.Exclusive (s : UpdateManager F) : Prop where
  one : ∀ (i j : ℕ) (c d : UpdateCall), s.calls[i]? = some c → s.calls[j]? = some d → c.pc.isStaging = true →
    d.pc.isStaging = true → i = j
  busy : ∀ (i : ℕ) (c : UpdateCall), s.calls[i]? = some c → c.pc.isStaging = true →
    s.status = .staging ∨ s.status = .applying

theorem CallStep.turns {i : ℕ} {c : UpdateCall} (h : CallStep env s i c t fs) : ∃ d,
      t.calls = s.calls.set i d ∧ ((¬(s.status = .staging ∨ s.status = .applying) ∧ t.status = .staging) ∨
        (c.pc.isStaging = true ∧ d.pc.isStaging = false) ∨
        (d.pc.isStaging = c.pc.isStaging ∧ (t.status = s.status ∨ t.status = .applying))) := by
  cases h with
  | looked _ hpc hnext =>
    refine ⟨_, rfl, .inr (.inr ⟨?_, .inl rfl⟩)⟩
    rw [hpc]
    obtain rfl | ⟨rfl, -⟩ := hnext
    · rfl
    · rfl
  | refused hpc | opened hpc | unchecked hpc | compared hpc | renamed _ hpc =>
    refine ⟨_, rfl, .inr (.inr ⟨?_, .inl rfl⟩)⟩
    rw [hpc]
    rfl
  | launched outcome hpc =>
    obtain ⟨hcalls, hstatus, -⟩ := launch_spec s i c outcome
    refine ⟨_, hcalls, .inr (.inr ⟨?_, .inl hstatus⟩)⟩
    rw [hpc]
    rfl
  | entered _ hfree => exact ⟨_, rfl, .inl ⟨hfree, rfl⟩⟩
  | failed _ _ hpc =>
    refine ⟨_, rfl, .inr (.inl ?_)⟩
    obtain ⟨hpc, rfl⟩ | ⟨hpc | hpc, rfl⟩ := hpc
    · rw [hpc]
      exact ⟨rfl, rfl⟩
    · rw [hpc]
      exact ⟨rfl, rfl⟩
    · rw [hpc]
      exact ⟨rfl, rfl⟩
  | received => exact ⟨_, rfl, .inr (.inr ⟨rfl, .inl rfl⟩)⟩
  | finished hpc =>
    refine ⟨_, rfl, .inr (.inl ⟨?_, rfl⟩)⟩
    rw [hpc]
    rfl
  | cleaned ok removed hpc =>
    refine ⟨{ c with pc := if ok && c.command.isApply then .marking else .over }, ?_, .inr (.inr ⟨?_, .inl ?_⟩)⟩
    · cases removed with
      | true | false => rfl
    · rw [hpc]
      split
      · rfl
      · rfl
    · cases removed with
      | true | false => rfl
  | marked hpc =>
    refine ⟨_, rfl, .inr (.inr ⟨?_, .inr rfl⟩)⟩
    rw [hpc]
    rfl

/-- The lock of the staging is held by one call at most. -/
theorem exclusive_of_step {a : UpdateAction} (h : s.Exclusive) (hstep : s.step env a = some (t, fs)) :
    t.Exclusive := by
  obtain ⟨command, -, -, rfl⟩ | ⟨i, input, c, -, hc, hcall⟩ | ⟨script, pc, rfl, -⟩ := step_cases hstep
  · have hnew : (UpdateCall.mk command (if command.isApply then .looking else .entering) []).pc.isStaging = false := by
      split
      · rfl
      · rfl
    have hold : ∀ (j : ℕ) (d : UpdateCall),
        (s.calls ++ [⟨command, if command.isApply then .looking else .entering, []⟩])[j]? = some d →
        d.pc.isStaging = true → s.calls[j]? = some d := by
      intro j d hd hstaging
      obtain rfl | hbefore := getElem?_snoc_cases hd
      · cases hnew.symm.trans hstaging
      · exact hbefore
    constructor
    · intro j k d e hd he hd' he'
      exact h.one j k d e (hold j d hd hd') (hold k e he he') hd' he'
    · intro j d hd hstaging
      exact h.busy j d (hold j d hd hstaging) hstaging
  · obtain ⟨d, hcalls, hturn⟩ := hcall.turns
    -- The others that stage did so before, and then nothing begins.
    have hold : ∀ j e, t.calls[j]? = some e → e.pc.isStaging = true → j ≠ i → s.calls[j]? = some e := by
      intro j e he hstaging hji
      obtain ⟨rfl, -⟩ | ⟨-, hbefore⟩ := getElem?_set_cases (hcalls ▸ he)
      · exact absurd rfl hji
      · exact hbefore
    have hown : ∀ e, t.calls[i]? = some e → e = d := by
      intro e he
      obtain ⟨-, heq⟩ | ⟨hne, -⟩ := getElem?_set_cases (hcalls ▸ he)
      · exact heq
      · exact absurd rfl hne
    have halone : ∀ e, t.calls[i]? = some e → e.pc.isStaging = true →
        ∀ j f, s.calls[j]? = some f → f.pc.isStaging = true → j = i := by
      intro e he hstaging j f hf hf'
      obtain rfl := hown e he
      obtain ⟨hfree, -⟩ | ⟨-, hstops⟩ | ⟨hsame, -⟩ := hturn
      · exact absurd (h.busy j f hf hf') hfree
      · cases hstops.symm.trans hstaging
      · exact h.one j i f c hf hc hf' (hsame.symm.trans hstaging)
    constructor
    · intro j k e f he hf he' hf'
      by_cases hj : j = i
      · obtain rfl := hj
        by_cases hk : k = j
        · exact hk.symm
        · exact (halone e he he' k f (hold k f hf hf' hk) hf').symm
      · by_cases hk : k = i
        · obtain rfl := hk
          exact halone f hf hf' j e (hold j e he he' hj) he'
        · exact h.one j k e f (hold j e he he' hj) (hold k f hf hf' hk) he' hf'
    · intro j e he hstaging
      obtain ⟨hfree, hnow⟩ | ⟨hstages, hstops⟩ | ⟨hsame, hkept⟩ := hturn
      · exact .inl hnow
      · by_cases hj : j = i
        · obtain rfl := hj
          obtain rfl := hown e he
          cases hstops.symm.trans hstaging
        · exact absurd (h.one j i e c (hold j e he hstaging hj) hc hstaging hstages) hj
      · have hbusy : s.status = .staging ∨ s.status = .applying := by
          by_cases hj : j = i
          · obtain rfl := hj
            obtain rfl := hown e he
            exact h.busy j c hc (hsame.symm.trans hstaging)
          · exact h.busy j e (hold j e he hstaging hj) hstaging
        obtain hstatus | happlying := hkept
        · rw [hstatus]
          exact hbusy
        · exact .inr happlying
  · exact ⟨h.one, h.busy⟩

end LigamentApps.LinkAgent
