import LigamentApps.LinkAgent.OneUpdate

/-!
# Verified installers

Which packages the installers of `ApplyUpdate` execute, and which of them `StageUpdate` has compared with the
hash of the server. A package counts as it is when `msiexec` opens it. -/

namespace LigamentApps.LinkAgent

open List Option

variable {F : Type} [DecidableEq F] {env : UpdateEnv F} {s t : UpdateManager F} {es fs : List (UpdateEvent F)}

/-- The file that is executed for a call was compared with a hash that the server gave for the call's version:
the staging that has written it had one, its content is what was hashed, and the hashes were equal. -/
def OnlyVerified (env : UpdateEnv F) (s : UpdateManager F) (es : List (UpdateEvent F)) (a : UpdateAction) : Prop :=
  ∀ t fs, s.step env a = some (t, fs) → ∀ i file, .executed i file ∈ fs →
    ∀ c f, s.calls[i]? = some c → s.files file = some f →
      ∃ w expectedSHA, f.writer = some w ∧ expectedSHA ≠ "" ∧ .compared w c.command.version expectedSHA ∈ es ∧
        equalFold (env.sha256 f.content) expectedSHA = true

/-- Where a script comes to `msiexec`, the package that is there was put there by a `StageUpdate` of its
version with a hash. -/
def UpdateManager.ExecutesStaged (env : UpdateEnv F) (s : UpdateManager F) : UpdateAction → Prop
  | .install script => s.scripts[script]? = some .waiting → ∀ i c f, s.upgradeScript = some i →
    s.calls[i]? = some c → s.files (env.targetPath c.command.version) = some f →
      ∃ w expectedSHA, f.writer = some w ∧ expectedSHA ≠ "" ∧
        s.calls[w]?.map (·.command) = some (.stage c.command.version expectedSHA)
  | _ => True

/-! ## Who has written a file -/

/-- The staging of the call has come to its end: it hashes no more. -/
def UpdatePc.isDone : UpdatePc → Bool
  | .looking | .entering | .requesting | .downloading | .renaming => false
  | _ => true

/-- Where the call was given a hash, what it has hashed was compared with it. -/
def Checked (env : UpdateEnv F) (es : List (UpdateEvent F)) (i : ℕ) (c : UpdateCall) : Prop :=
  c.command.expectedSHA ≠ "" → .compared i c.command.version c.command.expectedSHA ∈ es ∧
    equalFold (env.sha256 c.hashed) c.command.expectedSHA = true

/-- The invariant: what a call has written is what it has hashed, to its temporary file and then to the
package. -/
structure Provenance (env : UpdateEnv F) (s : UpdateManager F) (es : List (UpdateEvent F)) : Prop where
  exclusive : s.Exclusive
  temp : ∀ (i : ℕ) (c : UpdateCall), s.calls[i]? = some c → c.pc = .downloading ∨ c.pc = .renaming →
    ∀ f, s.files (env.tempPath c.command.version) = some f → f = ⟨c.hashed, some i⟩
  checked : ∀ (i : ℕ) (c : UpdateCall), s.calls[i]? = some c → c.pc = .renaming → Checked env es i c
  target : ∀ version f w, s.files (env.targetPath version) = some f → f.writer = some w →
    ∃ c, s.calls[w]? = some c ∧ f.content = c.hashed ∧ c.pc.isDone = true ∧ Checked env es w c
  told : ∀ w version expectedSHA, .compared w version expectedSHA ∈ es →
    ∃ c, s.calls[w]? = some c ∧ c.command.version = version ∧ c.command.expectedSHA = expectedSHA

section Provenance

variable {i : ℕ} {c d : UpdateCall}

omit [DecidableEq F] in
theorem Checked.more {w : ℕ} (h : Checked env es w c) : Checked env (es ++ fs) w c :=
  fun hsome => ⟨mem_append_left _ (h hsome).1, (h hsome).2⟩

omit [DecidableEq F] in
theorem Provenance.after (h : Provenance env s es) (hexclusive : t.Exclusive) (hc : s.calls[i]? = some c)
    (hcalls : t.calls = s.calls.set i d) (hcommand : d.command = c.command)
    (hown : d.pc = .downloading ∨ d.pc = .renaming →
      ∀ f, t.files (env.tempPath d.command.version) = some f → f = ⟨d.hashed, some i⟩)
    (hothers : c.pc.isStaging = true ∨
      ∀ version f, t.files (env.tempPath version) = some f → s.files (env.tempPath version) = some f)
    (hchecked : d.pc = .renaming → Checked env (es ++ fs) i d)
    (htarget : ∀ version f, t.files (env.targetPath version) = some f →
      s.files (env.targetPath version) = some f ∨
        (f = ⟨d.hashed, some i⟩ ∧ d.pc.isDone = true ∧ Checked env (es ++ fs) i d))
    (hdone : c.pc.isDone = true → d.pc.isDone = true ∧ d.hashed = c.hashed)
    (htold : ∀ w version expectedSHA, .compared w version expectedSHA ∈ fs →
      w = i ∧ version = c.command.version ∧ expectedSHA = c.command.expectedSHA) : Provenance env t (es ++ fs) := by
  have hlt : i < s.calls.length := (List.getElem?_eq_some_iff.mp hc).1
  have hself : t.calls[i]? = some d := by
    rw [hcalls]
    exact getElem?_set_self hlt
  have hkept : ∀ (j : ℕ) (e : UpdateCall), j ≠ i → s.calls[j]? = some e → t.calls[j]? = some e := by
    intro j e hji he
    rw [hcalls, getElem?_set_ne (Ne.symm hji)]
    exact he
  refine ⟨hexclusive, fun j e he hpc f hf => ?_, fun j e he hpc => ?_, fun version f w hf hw => ?_,
    fun w version expectedSHA hmem => ?_⟩
  · obtain ⟨rfl, rfl⟩ | ⟨hji, he⟩ := getElem?_set_cases (hcalls ▸ he)
    · exact hown hpc f hf
    · have hstaging : e.pc.isStaging = true := by
        obtain hpc | hpc := hpc
        · rw [hpc]
          rfl
        · rw [hpc]
          rfl
      obtain hstages | hsame := hothers
      · exact absurd (h.exclusive.one j i e c he hc hstaging hstages) hji
      · exact h.temp j e he hpc f (hsame _ f hf)
  · obtain ⟨rfl, rfl⟩ | ⟨-, he⟩ := getElem?_set_cases (hcalls ▸ he)
    · exact hchecked hpc
    · exact (h.checked j e he hpc).more
  · obtain hbefore | ⟨rfl, hpc, hchecks⟩ := htarget version f hf
    · obtain ⟨e, he, hcontent, hpc, hchecks⟩ := h.target version f w hbefore hw
      by_cases hwi : w = i
      · obtain rfl := hwi
        cases hc.symm.trans he
        obtain ⟨hpc', hhashed⟩ := hdone hpc
        refine ⟨d, hself, hcontent.trans hhashed.symm, hpc', ?_⟩
        unfold Checked
        rw [hcommand, hhashed]
        exact hchecks.more
      · exact ⟨e, hkept w e hwi he, hcontent, hpc, hchecks.more⟩
    · cases hw
      exact ⟨d, hself, rfl, hpc, hchecks⟩
  · obtain hold | hnew := mem_append.mp hmem
    · obtain ⟨e, he, hversion, hsha⟩ := h.told w version expectedSHA hold
      by_cases hwi : w = i
      · obtain rfl := hwi
        cases hc.symm.trans he
        exact ⟨d, hself, hcommand ▸ hversion, hcommand ▸ hsha⟩
      · exact ⟨e, hkept w e hwi he, hversion, hsha⟩
    · obtain ⟨rfl, rfl, rfl⟩ := htold w version expectedSHA hnew
      exact ⟨d, hself, by rw [hcommand], by rw [hcommand]⟩

omit [DecidableEq F] in
theorem Provenance.goesOn (h : Provenance env s es) (hexclusive : t.Exclusive) (hc : s.calls[i]? = some c)
    (hcalls : t.calls = s.calls.set i d) (hcommand : d.command = c.command) (hhashed : d.hashed = c.hashed)
    (hpc : d.pc ≠ .downloading ∧ d.pc ≠ .renaming) (hfiles : t.files = s.files)
    (hdone : c.pc.isDone = true → d.pc.isDone = true)
    (htold : ∀ w version expectedSHA, .compared w version expectedSHA ∉ fs) : Provenance env t (es ++ fs) := by
  refine h.after hexclusive hc hcalls hcommand (fun hat => ?_) (.inr fun version f hf => hfiles ▸ hf)
    (fun hat => absurd hat hpc.2) (fun version f hf => .inl (hfiles ▸ hf)) (fun hat => ⟨hdone hat, hhashed⟩)
    fun w version expectedSHA hmem => absurd hmem (htold w version expectedSHA)
  obtain hat | hat := hat
  · exact absurd hat hpc.1
  · exact absurd hat hpc.2

/-- A step of one call keeps every file with the call that wrote it, and every target with its check. -/
theorem provenance_of_callStep (h : Provenance env s es) (hc : s.calls[i]? = some c)
    (hexclusive : t.Exclusive) (hcall : CallStep env s i c t fs) : Provenance env t (es ++ fs) := by
  have hnil : ∀ w version expectedSHA,
      .compared w version expectedSHA ∉ ([] : List (UpdateEvent F)) := by simp
  cases hcall with
  | looked _ hpc hnext =>
    refine h.goesOn hexclusive hc rfl rfl rfl ?_ rfl (by simp [hpc, UpdatePc.isDone]) hnil
    obtain rfl | ⟨rfl, -⟩ := hnext
    · simp
    · simp
  | refused hpc | entered hpc =>
    exact h.goesOn hexclusive hc rfl rfl rfl (by simp) rfl (by simp [hpc, UpdatePc.isDone]) (by simp)
  -- the temporary file is empty and this call's own
  | opened hpc =>
    refine h.after hexclusive hc rfl rfl (fun _ f hf => ?_)
      (.inl (by rw [hpc]; rfl)) nofun (fun version f hf => .inl ?_)
      (fun hdone => absurd hdone (by simp [hpc, UpdatePc.isDone])) (fun w version expectedSHA hmem => ?_)
    · have hcreated : (s.opened env i c).files (env.tempPath c.command.version) = some ⟨[], some i⟩ :=
        Function.update_self ..
      exact Option.some.inj (hf.symm.trans hcreated)
    · rw [← targetPath_ne_tempPath env s.files version c.command.version (some ⟨[], some i⟩)]
      exact hf
    · exact absurd hmem (hnil w version expectedSHA)
  | failed _ _ hpc =>
    refine h.goesOn hexclusive hc rfl rfl rfl ?_ rfl (fun hdone => ?_) (by simp)
    · obtain ⟨-, rfl⟩ | ⟨-, rfl⟩ := hpc
      · simp
      · simp
    · obtain ⟨-, rfl⟩ | ⟨-, rfl⟩ := hpc
      · rfl
      · rfl
  | received bytes hpc =>
    refine h.after hexclusive hc rfl rfl (fun _ f hf => ?_)
      (.inl (by rw [hpc]; rfl)) (fun hat => absurd hat (by simp [hpc])) (fun version f hf => .inl ?_)
      (fun hdone => absurd hdone (by simp [hpc, UpdatePc.isDone])) (fun w version expectedSHA hmem => ?_)
    · -- What there was in the temporary file is what was hashed, and the bytes are added to both.
      have hadded : (s.received env i c bytes).files (env.tempPath c.command.version) =
          (s.files (env.tempPath c.command.version)).map fun f => { f with content := f.content ++ bytes } :=
        Function.update_self ..
      obtain ⟨f', hf', rfl⟩ := map_eq_some_iff.mp (hadded.symm.trans hf)
      rw [h.temp i c hc (.inl hpc) f' hf']
    · rw [← targetPath_ne_tempPath env s.files version c.command.version]
      exact hf
    · exact absurd hmem (hnil w version expectedSHA)
  | unchecked hpc hnone =>
    refine h.after hexclusive hc rfl rfl (fun _ f hf => ?_)
      (.inl (by rw [hpc]; rfl)) (fun _ hsome => absurd hnone hsome) (fun version f hf => .inl hf)
      (fun hdone => absurd hdone (by simp [hpc, UpdatePc.isDone])) (fun w version expectedSHA hmem => ?_)
    · exact h.temp i c hc (.inl hpc) f hf
    · exact absurd hmem (hnil w version expectedSHA)
  | compared hpc _ hequal =>
    refine h.after hexclusive hc rfl rfl (fun _ f hf => ?_)
      (.inl (by rw [hpc]; rfl)) (fun _ _ => ⟨?_, hequal⟩) (fun version f hf => .inl hf)
      (fun hdone => absurd hdone (by simp [hpc, UpdatePc.isDone])) (fun w version expectedSHA hmem => ?_)
    · exact h.temp i c hc (.inl hpc) f hf
    · exact mem_append_right _ (mem_singleton_self _)
    · obtain ⟨rfl, rfl, rfl⟩ := UpdateEvent.compared.inj (mem_singleton.mp hmem)
      exact ⟨rfl, rfl, rfl⟩
  -- the hashed file becomes the target; only the call that holds the lock renames
  | renamed file hpc hfile =>
    refine h.after hexclusive hc rfl rfl nofun
      (.inl (by rw [hpc]; rfl)) nofun (fun version f hf => ?_)
      (fun hdone => absurd hdone (by simp [hpc, UpdatePc.isDone])) (fun w version expectedSHA hmem => ?_)
    · have hmoved : Function.update (Function.update s.files (env.targetPath c.command.version) (some file))
          (env.tempPath c.command.version) none (env.targetPath version) = some f := hf
      rw [targetPath_ne_tempPath, Function.update_apply] at hmoved
      split at hmoved
      · cases hmoved
        exact .inr ⟨h.temp i c hc (.inr hpc) file hfile, rfl, (h.checked i c hc hpc).more⟩
      · exact .inl hmoved
    · exact absurd hmem (hnil w version expectedSHA)
  | finished | marked => exact h.goesOn hexclusive hc rfl rfl rfl (by simp) rfl (fun _ => rfl) (by simp)
  | cleaned ok removed hpc =>
    have hnext : ∀ pc : UpdatePc, pc = (if ok && c.command.isApply then .marking else .over) →
        pc ≠ .downloading ∧ pc ≠ .renaming ∧ pc.isDone = true := by
      intro pc hpc
      split at hpc
      · rw [hpc]
        exact ⟨by simp, by simp, rfl⟩
      · rw [hpc]
        exact ⟨by simp, by simp, rfl⟩
    refine h.after (d := { c with pc := if ok && c.command.isApply then .marking else .over }) hexclusive hc ?_ rfl
      (fun hat => ?_) (.inr fun version f hf => ?_) (fun hat => absurd hat (hnext _ rfl).2.1)
      (fun version f hf => .inl ?_) (fun _ => ⟨(hnext _ rfl).2.2, rfl⟩) (fun w version expectedSHA hmem => ?_)
    · cases removed with
      | true | false => rfl
    · obtain hat | hat := hat
      · exact absurd hat (hnext _ rfl).1
      · exact absurd hat (hnext _ rfl).2.1
    · cases removed with
      | true =>
        have hremoved : Function.update s.files (env.tempPath c.command.version) none (env.tempPath version) = some f :=
          hf
        rw [Function.update_apply] at hremoved
        split at hremoved
        · simp at hremoved
        · exact hremoved
      | false => exact hf
    · cases removed with
      | true =>
        rw [← targetPath_ne_tempPath env s.files version c.command.version none]
        exact hf
      | false => exact hf
    · exact absurd hmem (hnil w version expectedSHA)
  | launched outcome =>
    obtain ⟨hcalls, -, hfiles⟩ := launch_spec s i c outcome
    refine h.goesOn hexclusive hc hcalls rfl rfl (by simp) hfiles (fun _ => rfl) ?_
    cases outcome with
    | started | notStarted | notWritten => simp [UpdateManager.launch]

theorem provenance_of_step {a : UpdateAction} (h : Provenance env s es)
    (hstep : s.step env a = some (t, fs)) : Provenance env t (es ++ fs) := by
  have hexclusive := exclusive_of_step h.exclusive hstep
  obtain ⟨command, -, rfl, rfl⟩ | ⟨i, input, c, -, hc, hcall⟩ | ⟨script, pc, rfl, hscript⟩ := step_cases hstep
  · have hstart : ∀ pc : UpdatePc, pc = (if command.isApply then .looking else .entering) →
        pc ≠ .downloading ∧ pc ≠ .renaming := by
      intro pc hpc
      split at hpc
      · simp [hpc]
      · simp [hpc]
    have hkept : ∀ (j : ℕ) (e : UpdateCall), s.calls[j]? = some e →
        (s.calls ++ [⟨command, if command.isApply then .looking else .entering, []⟩])[j]? = some e := by
      intro j e he
      exact (getElem?_append_left (List.getElem?_eq_some_iff.mp he).1).trans he
    rw [append_nil]
    refine ⟨hexclusive, fun j e he hpc f hf => ?_, fun j e he hpc => ?_, fun version f w hf hw => ?_,
      fun w version expectedSHA hmem => ?_⟩
    · obtain rfl | he := getElem?_snoc_cases he
      · obtain hpc | hpc := hpc
        · exact absurd hpc (hstart _ rfl).1
        · exact absurd hpc (hstart _ rfl).2
      · exact h.temp j e he hpc f hf
    · obtain rfl | he := getElem?_snoc_cases he
      · exact absurd hpc (hstart _ rfl).2
      · exact h.checked j e he hpc
    · obtain ⟨c, hc, hcontent, hpc, hchecks⟩ := h.target version f w hf hw
      exact ⟨c, hkept w c hc, hcontent, hpc, hchecks⟩
    · obtain ⟨c, hc, hversion, hsha⟩ := h.told w version expectedSHA hmem
      exact ⟨c, hkept w c hc, hversion, hsha⟩
  · exact provenance_of_callStep h hc hexclusive hcall
  · refine ⟨hexclusive, h.temp, fun j e he hpc => (h.checked j e he hpc).more, fun version f w hf hw => ?_,
      fun w version expectedSHA hmem => ?_⟩
    · obtain ⟨c, hc, hcontent, hpc, hchecks⟩ := h.target version f w hf hw
      exact ⟨c, hc, hcontent, hpc, hchecks.more⟩
    · refine (mem_append.mp hmem).elim (h.told w version expectedSHA) fun hnew => ?_
      obtain ⟨_, _, _, -, -, -, -, rfl⟩ | ⟨_, -, -, rfl⟩ := hscript
      · simp at hnew
      · cases hnew

/-! ## The executions -/

theorem install_of_mem {a : UpdateAction} {file : F} (hstep : s.step env a = some (t, fs))
    (hmem : .executed i file ∈ fs) : ∃ script c, a = .install script ∧ s.scripts[script]? = some .waiting ∧
      s.upgradeScript = some i ∧ s.calls[i]? = some c ∧ file = env.targetPath c.command.version := by
  obtain ⟨command, -, rfl, -⟩ | ⟨j, input, c, -, -, hcall⟩ | ⟨_, _, -, hscript⟩ := step_cases hstep
  · cases hmem
  · cases hcall with
    | launched outcome =>
      cases outcome with
      | started | notStarted | notWritten => simp [UpdateManager.launch] at hmem
    | _ => simp at hmem
  · obtain ⟨script, j, c, rfl, hwaits, hj, hc, rfl⟩ | ⟨_, -, -, rfl⟩ := hscript
    · obtain ⟨rfl, rfl⟩ := UpdateEvent.executed.inj (mem_singleton.mp hmem)
      exact ⟨script, c, rfl, hwaits, hj, hc, rfl⟩
    · cases hmem

theorem onlyVerified_iff (h : Provenance env s es) (a : UpdateAction) :
    OnlyVerified env s es a ↔ s.ExecutesStaged env a := by
  constructor
  · intro hverified
    cases a with
    | call | run | scriptEnds => trivial
    | install script =>
      intro hwaits i c f hi hc hf
      have hstep : s.step env (.install script) =
          some (s.withScript script .installing, [.executed i (env.targetPath c.command.version)]) := by
        simp [UpdateManager.step, UpdateManager.install, hwaits, hi, hc]
      obtain ⟨w, expectedSHA, hw, hsome, hmem, -⟩ := hverified _ _ hstep i _ (mem_singleton_self _) c f hc hf
      obtain ⟨d, hd, hversion, hsha⟩ := h.told w _ _ hmem
      refine ⟨w, expectedSHA, hw, hsome, ?_⟩
      rw [hd]
      cases hcommand : d.command with
      | stage version sha =>
        rw [hcommand] at hversion hsha
        show some d.command = _
        rw [hcommand, show version = _ from hversion, show sha = _ from hsha]
      | apply =>
        rw [hcommand] at hsha
        exact absurd hsha.symm hsome
  · intro hstaged t fs hstep i file hmem c f hc hf
    obtain ⟨script, c', rfl, hwaits, hi, hc', rfl⟩ := install_of_mem hstep hmem
    cases hc.symm.trans hc'
    obtain ⟨w, expectedSHA, hw, hsome, hcommand⟩ := hstaged hwaits i c f hi hc hf
    obtain ⟨d, hd, hcontent, -, hchecks⟩ := h.target _ f w hf hw
    have hstage : d.command = .stage c.command.version expectedSHA := by
      rw [hd] at hcommand
      exact Option.some.inj hcommand
    unfold Checked at hchecks
    rw [hstage] at hchecks
    obtain ⟨hcompared, hequal⟩ := hchecks hsome
    rw [← hcontent] at hequal
    exact ⟨w, expectedSHA, hw, hsome, hcompared, hequal⟩

theorem provenance_start (cached : F → Option (List UInt8)) : Provenance env (newUpdateManager cached) [] := by
  have hnone : ∀ (j : ℕ) (e : UpdateCall), (newUpdateManager cached).calls[j]? ≠ some e := by
    intro j e he
    simp [newUpdateManager] at he
  have hstart : Orderly env cached (newUpdateManager cached) [] := orderly_start
  refine ⟨hstart.exclusive, fun i c hc => absurd hc (hnone i c), fun i c hc => absurd hc (hnone i c),
    fun version f w hf hw => ?_, fun _ _ _ hmem => absurd hmem not_mem_nil⟩
  obtain ⟨content, -, rfl⟩ := map_eq_some_iff.mp hf
  simp at hw

end Provenance

/-- In every run one call stages at a time, and a package that one has left is what it hashed, and compared
where it was given a hash. -/
theorem packages_as_hashed (env : UpdateEnv F) (cached : F → Option (List UInt8)) (as : List UpdateAction) :
    (updateManager env).Every (fun s es _ => Provenance env s es) (newUpdateManager cached) [] as :=
  Machine.every_of_reach (fun hrun => hrun.invariant (Provenance env) (provenance_start cached)
    fun _ _ _ _ _ h _ hstep => provenance_of_step h hstep) as .start

/-- A package is applied that is not there: it is downloaded without a hash. -/
def appliedUnstaged : List UpdateAction :=
  [.call (.apply "1.2.0" 900), .run 0 (.stat true), .run 0 .enter, .run 0 .opened, .run 0 (.received [2]),
    .run 0 .eof,
    .run 0 (.rename none), .run 0 .finish, .run 0 (.clean true), .run 0 .mark, .run 0 (.launch .started)]

end LigamentApps.LinkAgent
