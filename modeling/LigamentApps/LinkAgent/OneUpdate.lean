import LigamentApps.LinkAgent.UpdateCalls

/-!
# One update at a time

What the calls of `StageUpdate` and `ApplyUpdate` do to each other, in any order of their steps. -/

namespace LigamentApps.LinkAgent

open List Option Bool

variable {F : Type} [DecidableEq F] {env : UpdateEnv F} {s t : UpdateManager F} {es fs : List (UpdateEvent F)}

/-! ## One update at a time -/

def UpdateStatus.Moves : UpdateStatus → UpdateStatus → Prop
  | .idle, .staging | .staging, .staged | .staging, .failed | .staged, .applying => True
  | _, _ => False

/-- Where the event sets the status, it is one of the moves. -/
def UpdateEvent.IsMove : UpdateEvent F → Prop
  | .moved before after _ _ _ => before.Moves after
  | _ => True

/-- How often the package was launched, and how often it was staged. -/
def launchesOf (file : F) (es : List (UpdateEvent F)) : ℕ :=
  es.countP fun e => match e with
    | .launched _ launched _ => launched = file
    | _ => false

def stagingsOf (file : F) (es : List (UpdateEvent F)) : ℕ := es.count (.staged file)

/-- A package that was there at the start counts as staged once. -/
def stagedBefore (cached : F → Option (List UInt8)) (file : F) : ℕ := if cached file = none then 0 else 1

/-- The call stages or applies. -/
def UpdatePc.inProgress (pc : UpdatePc) : Bool := pc.isStaging || pc == .launching

/-- The manager when it is made, with what is in its cache directory. -/
def newUpdateManager (cached : F → Option (List UInt8)) : UpdateManager F :=
  { files := fun file => (cached file).map (⟨·, none⟩) }

/-- What a step leads to, after the events `es`: at most one call stages or applies, the status moves as it
may, a staging that completes does not overwrite `applying`, and no package is launched more often than it was
staged. -/
def OneUpdate (env : UpdateEnv F) (cached : F → Option (List UInt8)) (s : UpdateManager F)
    (es : List (UpdateEvent F)) (a : UpdateAction) : Prop :=
  ∀ t fs, s.step env a = some (t, fs) →
    (∀ (i j : ℕ) (c d : UpdateCall), t.calls[i]? = some c → t.calls[j]? = some d → c.pc.inProgress = true →
      d.pc.inProgress = true → i = j) ∧
    (∀ e ∈ fs, e.IsMove) ∧ (∀ file, .staged file ∈ fs → s.status ≠ .applying) ∧
    ∀ file, launchesOf file (es ++ fs) ≤ stagingsOf file (es ++ fs) + stagedBefore cached file

/-- `StageUpdate` does not begin where an update was staged or has failed, and `ApplyUpdate` sets `applying`
only where one is staged. -/
def UpdateManager.MeetsGuards (s : UpdateManager F) : UpdateAction → Prop
  | .run i .enter => ∀ c, s.calls[i]? = some c → c.pc = .entering → s.status ≠ .staged ∧ s.status ≠ .failed
  | .run i .mark => ∀ c, s.calls[i]? = some c → c.pc = .marking → s.status = .staged
  | _ => True

/-- The package of the call must be there. -/
def UpdatePc.hasPackage : UpdatePc → Bool
  | .finishing | .cleaning true | .marking => true
  | _ => false

/-- The invariant of the runs that meet the guards. -/
structure Orderly (env : UpdateEnv F) (cached : F → Option (List UInt8)) (s : UpdateManager F)
    (es : List (UpdateEvent F)) : Prop where
  exclusive : s.Exclusive
  staging : ∀ (i : ℕ) (c : UpdateCall), s.calls[i]? = some c → c.pc.isStaging = true → s.status = .staging
  applying : ∀ (i : ℕ) (c : UpdateCall), s.calls[i]? = some c → c.pc = .launching → s.status = .applying ∧
    (∀ file, launchesOf file es = 0) ∧
    0 < stagingsOf (env.targetPath c.command.version) es + stagedBefore cached (env.targetPath c.command.version)
  oneApplies : ∀ (i j : ℕ) (c d : UpdateCall), s.calls[i]? = some c → s.calls[j]? = some d →
    c.pc = .launching → d.pc = .launching → i = j
  launched : ∀ file, launchesOf file es ≠ 0 → s.status = .applying
  once : ∀ file, launchesOf file es ≤ stagingsOf file es + stagedBefore cached file
  package : ∀ (i : ℕ) (c : UpdateCall), s.calls[i]? = some c → c.pc.hasPackage = true →
    s.files (env.targetPath c.command.version) ≠ none
  there : ∀ version, s.files (env.targetPath version) ≠ none →
    0 < stagingsOf (env.targetPath version) es + stagedBefore cached (env.targetPath version) ∨
    ∃ (i : ℕ) (c : UpdateCall), s.calls[i]? = some c ∧ c.pc = .finishing ∧
      env.targetPath c.command.version = env.targetPath version

section Orderly

variable {cached : F → Option (List UInt8)} {i : ℕ} {c d : UpdateCall}

@[simp] theorem launchesOf_append (file : F) (es fs : List (UpdateEvent F)) :
    launchesOf file (es ++ fs) = launchesOf file es + launchesOf file fs := countP_append

@[simp] theorem stagingsOf_append (file : F) (es fs : List (UpdateEvent F)) :
    stagingsOf file (es ++ fs) = stagingsOf file es + stagingsOf file fs := count_append

/-- No package is launched or staged. -/
def Uneventful (fs : List (UpdateEvent F)) : Prop := ∀ file, launchesOf file fs = 0 ∧ stagingsOf file fs = 0

theorem uneventful_nil : Uneventful ([] : List (UpdateEvent F)) := fun _ => ⟨rfl, rfl⟩

theorem uneventful_moved (before after : UpdateStatus) (version error : String) (progress : ℕ) :
    Uneventful ([.moved before after version progress error] : List (UpdateEvent F)) := by
  intro file
  refine ⟨rfl, ?_⟩
  unfold stagingsOf
  rw [count_eq_zero]
  exact fun hmem => UpdateEvent.noConfusion rfl (heq_of_eq (mem_singleton.mp hmem))

theorem Orderly.after (h : Orderly env cached s es) (hexclusive : t.Exclusive) (hquiet : Uneventful fs)
    (hstaging : ∀ (j : ℕ) (e : UpdateCall), t.calls[j]? = some e → e.pc.isStaging = true → t.status = .staging)
    (happlying : ∀ (j : ℕ) (e : UpdateCall), t.calls[j]? = some e → e.pc = .launching →
      t.status = .applying ∧ ∃ e', s.calls[j]? = some e' ∧ e'.pc = .launching ∧ e'.command = e.command)
    (hlaunched : s.status = .applying → t.status = .applying)
    (hpackage : ∀ (j : ℕ) (e : UpdateCall), t.calls[j]? = some e → e.pc.hasPackage = true →
      t.files (env.targetPath e.command.version) ≠ none)
    (hthere : ∀ version, t.files (env.targetPath version) ≠ none → s.files (env.targetPath version) ≠ none ∨
      ∃ (j : ℕ) (e : UpdateCall), t.calls[j]? = some e ∧ e.pc = .finishing ∧
        env.targetPath e.command.version = env.targetPath version)
    (hfinishing : ∀ (j : ℕ) (e : UpdateCall), s.calls[j]? = some e → e.pc = .finishing → t.calls[j]? = some e) :
    Orderly env cached t (es ++ fs) := by
  have hlaunches : ∀ file, launchesOf file (es ++ fs) = launchesOf file es := by
    intro file
    rw [launchesOf_append, (hquiet file).1, Nat.add_zero]
  have hstagings : ∀ file, stagingsOf file (es ++ fs) = stagingsOf file es := by
    intro file
    rw [stagingsOf_append, (hquiet file).2, Nat.add_zero]
  refine ⟨hexclusive, hstaging, fun j e he hpc => ?_, fun j k e f he hf hpc hpc' => ?_, fun file hne => ?_,
    fun file => ?_, hpackage, fun version hfile => ?_⟩
  · obtain ⟨hstatus, e', he', hpc', hcommand⟩ := happlying j e he hpc
    obtain ⟨-, hnone, hstaged⟩ := h.applying j e' he' hpc'
    refine ⟨hstatus, fun file => (hlaunches file).trans (hnone file), ?_⟩
    rw [hstagings, ← hcommand]
    exact hstaged
  · obtain ⟨-, e', he', hpc₁, -⟩ := happlying j e he hpc
    obtain ⟨-, f', hf', hpc₂, -⟩ := happlying k f hf hpc'
    exact h.oneApplies j k e' f' he' hf' hpc₁ hpc₂
  · rw [hlaunches] at hne
    exact hlaunched (h.launched file hne)
  · rw [hlaunches, hstagings]
    exact h.once file
  · rw [hstagings]
    obtain hbefore | hnow := hthere version hfile
    · obtain hstaged | ⟨j, e, he, hpc, hsame⟩ := h.there version hbefore
      · exact .inl hstaged
      · exact .inr ⟨j, e, hfinishing j e he hpc, hpc, hsame⟩
    · exact .inr hnow

omit [DecidableEq F] in
theorem finishing_stays (hc : s.calls[i]? = some c) (hpc : c.pc ≠ .finishing)
    (hcalls : t.calls = s.calls.set i d) (j : ℕ)
    (e : UpdateCall) (he : s.calls[j]? = some e) (hfinishing : e.pc = .finishing) : t.calls[j]? = some e := by
  have hother : j ≠ i := by
    rintro rfl
    cases hc.symm.trans he
    exact hpc hfinishing
  rw [hcalls, getElem?_set_ne hother.symm]
  exact he

theorem Orderly.package_stays (h : Orderly env cached s es) (hcalls : t.calls = s.calls.set i d)
    (hfiles : t.files = s.files)
    (hd : d.pc.hasPackage = false) (j : ℕ) (e : UpdateCall) (he : t.calls[j]? = some e)
    (hpc : e.pc.hasPackage = true) :
    t.files (env.targetPath e.command.version) ≠ none := by
  rw [hfiles]
  obtain ⟨-, rfl⟩ | ⟨-, he⟩ := getElem?_set_cases (hcalls ▸ he)
  · cases hd.symm.trans hpc
  · exact h.package j e he hpc

/-- Where no package is on its way, each that is there was staged. -/
theorem Orderly.staged (h : Orderly env cached s es)
    (hidle : ∀ (j : ℕ) (e : UpdateCall), s.calls[j]? = some e → e.pc.isStaging = false) {version : String}
    (hfile : s.files (env.targetPath version) ≠ none) :
    0 < stagingsOf (env.targetPath version) es + stagedBefore cached (env.targetPath version) := by
  obtain hstaged | ⟨j, e, he, hpc, -⟩ := h.there version hfile
  · exact hstaged
  · have hno := hidle j e he
    rw [hpc] at hno
    cases hno

theorem Orderly.goesOn (h : Orderly env cached s es) (hexclusive : t.Exclusive) (hc : s.calls[i]? = some c)
    (hcalls : t.calls = s.calls.set i d) (hstatus : t.status = s.status) (hquiet : Uneventful fs)
    (hstages : d.pc.isStaging = c.pc.isStaging) (hlaunching : d.pc ≠ .launching) (hfinishing : c.pc ≠ .finishing)
    (hpackage : d.pc.hasPackage = true → s.files (env.targetPath d.command.version) ≠ none)
    (hfiles : ∀ version, t.files (env.targetPath version) = none ↔ s.files (env.targetPath version) = none) :
    Orderly env cached t (es ++ fs) := by
  refine h.after hexclusive hquiet (fun j e he hpc => ?_) (fun j e he hpc => ?_) hstatus.trans
    (fun j e he hpc => ?_) (fun version hfile => ?_) (finishing_stays hc hfinishing hcalls)
  · rw [hstatus]
    obtain ⟨-, rfl⟩ | ⟨-, he⟩ := getElem?_set_cases (hcalls ▸ he)
    · exact h.staging i c hc (hstages.symm.trans hpc)
    · exact h.staging j e he hpc
  · obtain ⟨-, rfl⟩ | ⟨-, he⟩ := getElem?_set_cases (hcalls ▸ he)
    · exact absurd hpc hlaunching
    · exact ⟨hstatus.trans (h.applying j e he hpc).1, e, he, hpc, rfl⟩
  · refine fun hnone => ?_
    obtain ⟨-, rfl⟩ | ⟨-, he⟩ := getElem?_set_cases (hcalls ▸ he)
    · exact hpackage hpc ((hfiles _).mp hnone)
    · exact h.package j e he hpc ((hfiles _).mp hnone)
  · exact .inl fun hnone => hfile ((hfiles version).mpr hnone)

theorem targetPath_ne_tempPath (env : UpdateEnv F) (files : F → Option CachedFile) (version other : String)
    (file : Option CachedFile) :
    Function.update files (env.tempPath other) file (env.targetPath version) = files (env.targetPath version) :=
  Function.update_of_ne (env.distinct version other) _ _

theorem Orderly.idle (h : Orderly env cached s es) (hstaging : s.status ≠ .staging) (j : ℕ) (e : UpdateCall)
    (he : s.calls[j]? = some e) : e.pc.isStaging = false := by
  by_contra hpc
  exact hstaging (h.staging j e he ((not_eq_false _).mp hpc))

theorem Orderly.unlaunched (h : Orderly env cached s es) (happlying : s.status ≠ .applying) (file : F) :
    launchesOf file es = 0 := by
  by_contra hne
  exact happlying (h.launched file hne)

theorem orderly_entered (h : Orderly env cached s es) (hc : s.calls[i]? = some c) (hpc : c.pc = .entering)
    (hfree : ¬(s.status = .staging ∨ s.status = .applying)) (hexclusive : t.Exclusive)
    (hcalls : t.calls = s.calls.set i { c with pc := .requesting }) (hstatus : t.status = .staging)
    (hfiles : t.files = s.files) (hquiet : Uneventful fs) : Orderly env cached t (es ++ fs) := by
  have happlying : s.status ≠ .applying := fun hs => hfree (.inr hs)
  refine h.after hexclusive hquiet (fun _ _ _ _ => hstatus) (fun j e he hpc' => ?_) (fun hs => absurd hs happlying)
    (h.package_stays hcalls hfiles rfl) (fun version hfile => .inl (hfiles ▸ hfile))
    (finishing_stays hc (by simp [hpc]) hcalls)
  obtain ⟨-, rfl⟩ | ⟨-, he⟩ := getElem?_set_cases (hcalls ▸ he)
  · simp at hpc'
  · exact absurd (h.applying j e he hpc').1 happlying

theorem orderly_failed {pc : UpdatePc} (h : Orderly env cached s es) (hc : s.calls[i]? = some c)
    (hpc : c.pc.isStaging = true) (hother : c.pc ≠ .finishing) (hnext : pc = .over ∨ pc = .cleaning false)
    (hexclusive : t.Exclusive) (hcalls : t.calls = s.calls.set i { c with pc }) (hfiles : t.files = s.files)
    (hquiet : Uneventful fs) : Orderly env cached t (es ++ fs) := by
  have hstatus : s.status = .staging := h.staging i c hc hpc
  have hplain : pc.isStaging = false ∧ pc ≠ .launching ∧ pc.hasPackage = false := by
    obtain rfl | rfl := hnext
    · exact ⟨rfl, by simp, rfl⟩
    · exact ⟨rfl, by simp, rfl⟩
  refine h.after hexclusive hquiet (fun j e he hpc' => ?_) (fun j e he hpc' => ?_)
    (fun hs => absurd (hstatus.symm.trans hs) (by simp)) (h.package_stays hcalls hfiles hplain.2.2)
    (fun version hfile => .inl (hfiles ▸ hfile)) (finishing_stays hc hother hcalls)
  · obtain ⟨-, rfl⟩ | ⟨hne, he⟩ := getElem?_set_cases (hcalls ▸ he)
    · cases hplain.1.symm.trans hpc'
    · exact absurd (h.exclusive.one j i e c he hc hpc' hpc) hne
  · obtain ⟨-, rfl⟩ | ⟨-, he⟩ := getElem?_set_cases (hcalls ▸ he)
    · exact absurd hpc' hplain.2.1
    · cases hstatus.symm.trans (h.applying j e he hpc').1

theorem orderly_renamed (file : CachedFile) (h : Orderly env cached s es) (hc : s.calls[i]? = some c)
    (hpc : c.pc = .renaming) (hexclusive : t.Exclusive)
    (hcalls : t.calls = s.calls.set i { c with pc := .finishing }) (hstatus : t.status = s.status)
    (hfiles : ∀ version, t.files (env.targetPath version) =
      if env.targetPath version = env.targetPath c.command.version then some file
      else s.files (env.targetPath version)) (hquiet : Uneventful fs) : Orderly env cached t (es ++ fs) := by
  have hlt : i < s.calls.length := (List.getElem?_eq_some_iff.mp hc).1
  refine h.after hexclusive hquiet (fun j e he hpc' => ?_) (fun j e he hpc' => ?_) hstatus.trans
    (fun j e he hpc' => ?_) (fun version hfile => ?_) (finishing_stays hc (by simp [hpc]) hcalls)
  · rw [hstatus]
    obtain ⟨-, rfl⟩ | ⟨-, he⟩ := getElem?_set_cases (hcalls ▸ he)
    · exact h.staging i c hc (by rw [hpc]; rfl)
    · exact h.staging j e he hpc'
  · obtain ⟨-, rfl⟩ | ⟨-, he⟩ := getElem?_set_cases (hcalls ▸ he)
    · simp at hpc'
    · exact ⟨hstatus.trans (h.applying j e he hpc').1, e, he, hpc', rfl⟩
  · rw [hfiles]
    obtain ⟨-, rfl⟩ | ⟨-, he⟩ := getElem?_set_cases (hcalls ▸ he)
    · rw [if_pos rfl]
      simp
    · split
      · simp
      · exact h.package j e he hpc'
  · rw [hfiles] at hfile
    split at hfile
    · rename_i hsame
      refine .inr ⟨i, { c with pc := .finishing }, ?_, rfl, hsame.symm⟩
      rw [hcalls]
      exact getElem?_set_self hlt
    · exact .inl hfile

theorem orderly_finished (h : Orderly env cached s es) (hc : s.calls[i]? = some c) (hpc : c.pc = .finishing)
    (hexclusive : t.Exclusive) (hcalls : t.calls = s.calls.set i { c with pc := .cleaning true })
    (hfiles : t.files = s.files) (hlaunches : ∀ file, launchesOf file fs = 0)
    (hstagings : 0 < stagingsOf (env.targetPath c.command.version) fs) : Orderly env cached t (es ++ fs) := by
  have hstaging : c.pc.isStaging = true := by
    rw [hpc]
    rfl
  have hstatus : s.status = .staging := h.staging i c hc hstaging
  have happlying : s.status ≠ .applying := by
    rw [hstatus]
    simp
  have hnone : ∀ file, launchesOf file (es ++ fs) = 0 := by
    intro file
    rw [launchesOf_append, hlaunches, h.unlaunched happlying]
  refine ⟨hexclusive, fun j e he hpc' => ?_, fun j e he hpc' => ?_, fun j k e f he hf hpc' _ => ?_,
    fun file hne => absurd (hnone file) hne, fun file => ?_, fun j e he hpc' => ?_, fun version hfile => ?_⟩
  · obtain ⟨-, rfl⟩ | ⟨hne, he⟩ := getElem?_set_cases (hcalls ▸ he)
    · cases hpc'
    · exact absurd (h.exclusive.one j i e c he hc hpc' hstaging) hne
  · obtain ⟨-, rfl⟩ | ⟨-, he⟩ := getElem?_set_cases (hcalls ▸ he)
    · simp at hpc'
    · exact absurd (h.applying j e he hpc').1 happlying
  · obtain ⟨-, rfl⟩ | ⟨-, he⟩ := getElem?_set_cases (hcalls ▸ he)
    · simp at hpc'
    · exact absurd (h.applying j e he hpc').1 happlying
  · rw [hnone]
    exact Nat.zero_le _
  · rw [hfiles]
    obtain ⟨-, rfl⟩ | ⟨-, he⟩ := getElem?_set_cases (hcalls ▸ he)
    · exact h.package i c hc (by rw [hpc]; rfl)
    · exact h.package j e he hpc'
  · rw [hfiles] at hfile
    rw [stagingsOf_append]
    obtain hstaged | ⟨j, e, he, hpc', hsame⟩ := h.there version hfile
    · exact .inl (by omega)
    · by_cases hj : j = i
      · -- It is this package whose staging has come to its end.
        obtain rfl := hj
        cases hc.symm.trans he
        rw [← hsame]
        exact .inl (by omega)
      · refine .inr ⟨j, e, ?_, hpc', hsame⟩
        rw [hcalls, getElem?_set_ne (Ne.symm hj)]
        exact he

theorem orderly_marked (h : Orderly env cached s es) (hc : s.calls[i]? = some c) (hpc : c.pc = .marking)
    (hstaged : s.status = .staged) (hexclusive : t.Exclusive)
    (hcalls : t.calls = s.calls.set i { c with pc := .launching }) (hstatus : t.status = .applying)
    (hfiles : t.files = s.files) (hquiet : Uneventful fs) : Orderly env cached t (es ++ fs) := by
  have happlying : s.status ≠ .applying := by
    rw [hstaged]
    simp
  have hidle : ∀ (j : ℕ) (e : UpdateCall), s.calls[j]? = some e → e.pc.isStaging = false :=
    h.idle (by rw [hstaged]; simp)
  have hnone : ∀ file, launchesOf file (es ++ fs) = 0 := by
    intro file
    rw [launchesOf_append, (hquiet file).1, h.unlaunched happlying]
  have hstagings : ∀ file, stagingsOf file (es ++ fs) = stagingsOf file es := by
    intro file
    rw [stagingsOf_append, (hquiet file).2, Nat.add_zero]
  refine ⟨hexclusive, fun j e he hpc' => ?_, fun j e he hpc' => ?_, fun j k e f he hf hpc' hpc'' => ?_,
    fun file hne => absurd (hnone file) hne, fun file => ?_, h.package_stays hcalls hfiles rfl,
      fun version hfile => ?_⟩
  · obtain ⟨-, rfl⟩ | ⟨-, he⟩ := getElem?_set_cases (hcalls ▸ he)
    · cases hpc'
    · cases (hidle j e he).symm.trans hpc'
  · refine ⟨hstatus, hnone, ?_⟩
    rw [hstagings]
    obtain ⟨-, rfl⟩ | ⟨-, he⟩ := getElem?_set_cases (hcalls ▸ he)
    · exact h.staged hidle (h.package i c hc (by rw [hpc]; rfl))
    · exact absurd (h.applying j e he hpc').1 happlying
  · obtain ⟨rfl, -⟩ | ⟨-, he⟩ := getElem?_set_cases (hcalls ▸ he)
    · obtain ⟨rfl, -⟩ | ⟨-, hf⟩ := getElem?_set_cases (hcalls ▸ hf)
      · rfl
      · exact absurd (h.applying k f hf hpc'').1 happlying
    · exact absurd (h.applying j e he hpc').1 happlying
  · rw [hnone]
    exact Nat.zero_le _
  · rw [hfiles] at hfile
    rw [hstagings]
    exact .inl (h.staged hidle hfile)

theorem orderly_launched (h : Orderly env cached s es) (hc : s.calls[i]? = some c) (hpc : c.pc = .launching)
    (hexclusive : t.Exclusive) (hcalls : t.calls = s.calls.set i { c with pc := .over })
    (hstatus : t.status = s.status) (hfiles : t.files = s.files)
    (hlaunches : ∀ file, launchesOf file fs ≤ if file = env.targetPath c.command.version then 1 else 0)
    (hstagings : ∀ file, stagingsOf file fs = 0) : Orderly env cached t (es ++ fs) := by
  obtain ⟨happlying, hnone, hstaged⟩ := h.applying i c hc hpc
  have hidle : ∀ (j : ℕ) (e : UpdateCall), s.calls[j]? = some e → e.pc.isStaging = false :=
    h.idle (by rw [happlying]; simp)
  have hcount : ∀ file, stagingsOf file (es ++ fs) = stagingsOf file es := by
    intro file
    rw [stagingsOf_append, hstagings, Nat.add_zero]
  have halone : ∀ (j : ℕ) (e : UpdateCall), t.calls[j]? = some e → e.pc ≠ .launching := by
    intro j e he hpc'
    obtain ⟨-, rfl⟩ | ⟨hne, he⟩ := getElem?_set_cases (hcalls ▸ he)
    · simp at hpc'
    · exact hne (h.oneApplies j i e c he hc hpc' hpc)
  refine ⟨hexclusive, fun j e he hpc' => ?_, fun j e he hpc' => absurd hpc' (halone j e he),
    fun j k e f he _ hpc' _ => absurd hpc' (halone j e he), fun file _ => hstatus.trans happlying, fun file => ?_,
    h.package_stays hcalls hfiles rfl, fun version hfile => ?_⟩
  · obtain ⟨-, rfl⟩ | ⟨-, he⟩ := getElem?_set_cases (hcalls ▸ he)
    · cases hpc'
    · cases (hidle j e he).symm.trans hpc'
  · rw [launchesOf_append, hnone, Nat.zero_add, hcount]
    have hle := hlaunches file
    split at hle
    · rename_i hfile
      rw [hfile] at hle ⊢
      omega
    · omega
  · rw [hfiles] at hfile
    rw [hcount]
    exact .inl (h.staged hidle hfile)

theorem orderly_called (h : Orderly env cached s es) (command : UpdateCommand)
    (hcalls : t.calls = s.calls ++ [⟨command, if command.isApply then .looking else .entering, []⟩])
    (hstatus : t.status = s.status) (hfiles : t.files = s.files) (hexclusive : t.Exclusive) :
    Orderly env cached t (es ++ []) := by
  have hstart : ∀ pc : UpdatePc, pc = (if command.isApply then .looking else .entering) →
      pc.isStaging = false ∧ pc ≠ .launching ∧ pc.hasPackage = false := by
    intro pc hpc
    split at hpc
    · rw [hpc]
      exact ⟨rfl, by simp, rfl⟩
    · rw [hpc]
      exact ⟨rfl, by simp, rfl⟩
  refine h.after hexclusive uneventful_nil (fun j e he hpc => ?_) (fun j e he hpc => ?_)
    hstatus.trans (fun j e he hpc => ?_) (fun version hfile => .inl (hfiles ▸ hfile))
    fun j e he _ => ?_
  · rw [hstatus]
    obtain rfl | he := getElem?_snoc_cases (hcalls ▸ he)
    · cases (hstart _ rfl).1.symm.trans hpc
    · exact h.staging j e he hpc
  · obtain rfl | he := getElem?_snoc_cases (hcalls ▸ he)
    · exact absurd hpc (hstart _ rfl).2.1
    · exact ⟨hstatus.trans (h.applying j e he hpc).1, e, he, hpc, rfl⟩
  · rw [hfiles]
    obtain rfl | he := getElem?_snoc_cases (hcalls ▸ he)
    · cases (hstart _ rfl).2.2.symm.trans hpc
    · exact h.package j e he hpc
  · rw [hcalls]
    exact (getElem?_append_left (List.getElem?_eq_some_iff.mp he).1).trans he

/-- A step of one call keeps at most one update in progress. -/
theorem orderly_of_callStep (h : Orderly env cached s es) (hc : s.calls[i]? = some c) (hexclusive : t.Exclusive)
    (hmarks : c.pc = .marking → s.status = .staged) (hcall : CallStep env s i c t fs) :
    Orderly env cached t (es ++ fs) := by
  cases hcall with
  | looked _ hpc hnext =>
    obtain rfl | ⟨rfl, hfile⟩ := hnext
    · refine h.goesOn hexclusive hc rfl rfl uneventful_nil (by rw [hpc]; rfl) (by simp) (by simp [hpc]) ?_
        fun _ => Iff.rfl
      exact nofun
    · refine h.goesOn hexclusive hc rfl rfl uneventful_nil (by rw [hpc]; rfl) (by simp) (by simp [hpc]) ?_
        fun _ => Iff.rfl
      exact fun _ => hfile
  | refused hpc | compared hpc =>
    refine h.goesOn hexclusive hc rfl rfl (fun file => ⟨rfl, ?_⟩) (by rw [hpc]; rfl) (by simp) (by simp [hpc])
      (nofun) fun _ => Iff.rfl
    simp [stagingsOf]
  | entered hpc hfree =>
    exact orderly_entered h hc hpc hfree hexclusive rfl rfl rfl (uneventful_moved _ _ _ _ _)
  | opened hpc =>
    refine h.goesOn hexclusive hc rfl rfl uneventful_nil (by rw [hpc]; rfl) (by simp) (by simp [hpc])
      (nofun) fun version => ?_
    rw [← targetPath_ne_tempPath env s.files version c.command.version (some ⟨[], some i⟩)]
    rfl
  -- a failure before the lock, and one that holds it
  | failed _ _ hpc =>
    obtain ⟨hat, rfl⟩ | ⟨hat, rfl⟩ := hpc
    · exact orderly_failed h hc (by rw [hat]; rfl) (by simp [hat]) (.inl rfl) hexclusive rfl rfl
        (uneventful_moved _ _ _ _ _)
    · refine orderly_failed h hc ?_ ?_ (.inr rfl) hexclusive rfl rfl (uneventful_moved _ _ _ _ _)
      · obtain hat | hat := hat
        · rw [hat]
          rfl
        · rw [hat]
          rfl
      · obtain hat | hat := hat
        · simp [hat]
        · simp [hat]
  | received _ hpc =>
    refine h.goesOn hexclusive hc rfl rfl uneventful_nil rfl (by simp [hpc]) (by simp [hpc])
      (fun hpackage => ?_) fun version => ?_
    · simp [hpc, UpdatePc.hasPackage] at hpackage
    · rw [← targetPath_ne_tempPath env s.files version c.command.version]
      rfl
  | unchecked hpc =>
    exact h.goesOn hexclusive hc rfl rfl uneventful_nil (by rw [hpc]; rfl) (by simp) (by simp [hpc])
      (nofun) fun _ => Iff.rfl
  | renamed file hpc =>
    refine orderly_renamed file h hc hpc hexclusive rfl rfl (fun version => ?_) uneventful_nil
    show Function.update (Function.update s.files _ _) _ _ _ = _
    rw [targetPath_ne_tempPath, Function.update_apply]
  | finished hpc =>
    refine orderly_finished h hc hpc hexclusive rfl rfl (fun file => rfl) ?_
    simp [stagingsOf]
  | cleaned ok removed hpc =>
    refine h.goesOn (d := { c with pc := if ok && c.command.isApply then .marking else .over }) hexclusive hc ?_ ?_
      uneventful_nil ?_ ?_ (by simp [hpc]) (fun hpackage => ?_) fun version => ?_
    · cases removed with
      | true | false => rfl
    · cases removed with
      | true | false => rfl
    · rw [hpc]
      split
      · rfl
      · rfl
    · split
      · simp
      · simp
    · -- `ApplyUpdate` goes on where its staging has succeeded, and so has its package.
      split at hpackage
      · rename_i hok
        refine h.package i c hc ?_
        rw [hpc, ((and_eq_true ..).mp hok).1]
        rfl
      · cases hpackage
    · cases removed with
      | true =>
        rw [← targetPath_ne_tempPath env s.files version c.command.version none]
        rfl
      | false => exact Iff.rfl
  | marked hpc =>
    exact orderly_marked h hc hpc (hmarks hpc) hexclusive rfl rfl rfl (uneventful_moved _ _ _ _ _)
  | launched outcome hpc =>
    obtain ⟨hcalls, hstatus, hfiles⟩ := launch_spec s i c outcome
    refine orderly_launched h hc hpc hexclusive hcalls hstatus hfiles (fun file => ?_) fun file => ?_
    · cases outcome with
      | started =>
        show List.countP _ [_] ≤ _
        rw [countP_singleton]
        simp only [decide_eq_true_eq]
        split
        · rename_i hsame
          rw [if_pos hsame.symm]
        · exact Nat.zero_le _
      | notStarted | notWritten => exact Nat.zero_le _
    · cases outcome with
      | started => simp [stagingsOf, UpdateManager.launch]
      | notStarted | notWritten => rfl

theorem uneventful_script {a : UpdateAction} (h : ScriptStep env s a fs) : Uneventful fs := by
  obtain ⟨_, _, _, -, -, -, -, rfl⟩ | ⟨_, -, -, rfl⟩ := h
  · exact fun file => ⟨rfl, by simp [stagingsOf]⟩
  · exact uneventful_nil

theorem orderly_of_step {a : UpdateAction} (h : Orderly env cached s es) (hmeets : s.MeetsGuards a)
    (hstep : s.step env a = some (t, fs)) : Orderly env cached t (es ++ fs) := by
  have hexclusive := exclusive_of_step h.exclusive hstep
  obtain ⟨command, -, rfl, rfl⟩ | ⟨i, input, c, rfl, hc, hcall⟩ | ⟨script, pc, rfl, hscript⟩ := step_cases hstep
  · exact orderly_called h command rfl rfl rfl hexclusive
  · refine orderly_of_callStep h hc hexclusive (fun hpc => ?_) hcall
    have hrun : s.runCall env i c input = some (t, fs) := by
      obtain ⟨c', hc', hrun⟩ := bind_eq_some_iff.mp hstep
      cases hc.symm.trans hc'
      exact hrun
    cases input with
    | mark => exact hmeets c hc hpc
    | _ => simp [UpdateManager.runCall, hpc] at hrun
  · refine h.after hexclusive (uneventful_script hscript) h.staging (fun j e he hpc => ?_) id h.package
      (fun _ => .inl) fun _ _ he _ => he
    exact ⟨(h.applying j e he hpc).1, e, he, hpc, rfl⟩

theorem moves_of_meets {a : UpdateAction} (h : Orderly env cached s es) (hmeets : s.MeetsGuards a)
    (hstep : s.step env a = some (t, fs)) : ∀ e ∈ fs, e.IsMove := by
  obtain ⟨command, -, rfl, -⟩ | ⟨i, input, c, rfl, hc, hcall⟩ | ⟨_, _, -, hscript⟩ := step_cases hstep
  · exact fun e he => absurd he not_mem_nil
  rotate_left
  · intro e he
    obtain ⟨_, _, _, -, -, -, -, rfl⟩ | ⟨_, -, -, rfl⟩ := hscript
    · obtain rfl := mem_singleton.mp he
      trivial
    · cases he
  have hrun : s.runCall env i c input = some (t, fs) := by
    obtain ⟨c', hc', hrun⟩ := bind_eq_some_iff.mp hstep
    cases hc.symm.trans hc'
    exact hrun
  have hstages : c.pc.isStaging = true → s.status = .staging := h.staging i c hc
  intro e he
  cases hcall with
  | refused | compared =>
    obtain rfl := mem_singleton.mp he
    trivial
  | entered hpc hfree =>
    obtain rfl := mem_singleton.mp he
    have hidle : s.status = .idle := by
      have hguard : s.status ≠ .staged ∧ s.status ≠ .failed := by
        cases input with
        | enter => exact hmeets c hc hpc
        | _ => simp [UpdateManager.runCall, hpc] at hrun
      cases hs : s.status with
      | idle => rfl
      | staging => exact absurd (.inl hs) hfree
      | staged => exact absurd hs hguard.1
      | failed => exact absurd hs hguard.2
      | applying => exact absurd (.inr hs) hfree
    rw [hidle]
    trivial
  | failed pc _ hpc =>
    obtain rfl := mem_singleton.mp he
    have hstaging : c.pc.isStaging = true := by
      obtain ⟨hat, -⟩ | ⟨hat | hat, -⟩ := hpc
      · rw [hat]
        rfl
      · rw [hat]
        rfl
      · rw [hat]
        rfl
    rw [hstages hstaging]
    trivial
  | finished hpc =>
    obtain rfl | he := mem_cons.mp he
    · rw [hstages (by rw [hpc]; rfl)]
      trivial
    · obtain rfl := mem_singleton.mp he
      trivial
  | marked hpc =>
    obtain rfl := mem_singleton.mp he
    have hstaged : s.status = .staged := by
      cases input with
      | mark => exact hmeets c hc hpc
      | _ => simp [UpdateManager.runCall, hpc] at hrun
    rw [hstaged]
    trivial
  | launched outcome =>
    cases outcome with
    | started =>
      obtain rfl := mem_singleton.mp he
      trivial
    | notStarted | notWritten => cases he
  | _ => cases he

theorem isStaging_of_staged {a : UpdateAction} {file : F} (hstep : s.step env a = some (t, fs))
    (hmem : .staged file ∈ fs) :
    ∃ (i : ℕ) (c : UpdateCall), s.calls[i]? = some c ∧ c.pc.isStaging = true := by
  obtain ⟨command, -, rfl, -⟩ | ⟨i, input, c, -, hc, hcall⟩ | ⟨_, _, -, hscript⟩ := step_cases hstep
  · cases hmem
  rotate_left
  · obtain ⟨_, _, _, -, -, -, -, rfl⟩ | ⟨_, -, -, rfl⟩ := hscript
    · simp at hmem
    · cases hmem
  refine ⟨i, c, hc, ?_⟩
  cases hcall with
  | finished hpc =>
    rw [hpc]
    rfl
  | launched outcome =>
    cases outcome with
    | started | notStarted | notWritten => simp [UpdateManager.launch] at hmem
  | _ => simp at hmem

theorem oneUpdate_iff (h : Orderly env cached s es) (a : UpdateAction) :
    OneUpdate env cached s es a ↔ s.MeetsGuards a := by
  constructor
  · intro hone
    cases a with
    | call | install | scriptEnds => trivial
    | run i input =>
      cases input with
      | enter =>
        intro c hc hpc
        by_cases hbusy : s.status = .staging ∨ s.status = .applying
        · obtain hs | hs := hbusy
          · simp [hs]
          · simp [hs]
        · have hstep : s.step env (.run i .enter) = some (s.enter i c) := by
            simp [UpdateManager.step, hc, UpdateManager.runCall, hpc]
          unfold UpdateManager.enter at hstep
          rw [if_neg hbusy] at hstep
          have hmove : s.status.Moves .staging := (hone _ _ hstep).2.1 _ (mem_singleton_self _)
          constructor
          · intro hs
            simp [hs, UpdateStatus.Moves] at hmove
          · intro hs
            simp [hs, UpdateStatus.Moves] at hmove
      | mark =>
        intro c hc hpc
        have hstep : s.step env (.run i .mark) = some (s.mark i c) := by
          simp [UpdateManager.step, hc, UpdateManager.runCall, hpc]
        have hmove : s.status.Moves .applying := (hone _ _ hstep).2.1 _ (mem_singleton_self _)
        cases hs : s.status with
        | staged => rfl
        | _ => simp [hs, UpdateStatus.Moves] at hmove
      | _ => trivial
  · intro hmeets t fs hstep
    have hafter := orderly_of_step h hmeets hstep
    refine ⟨fun i j c d hc hd hpc hpc' => ?_, moves_of_meets h hmeets hstep, fun file hmem hs => ?_, hafter.once⟩
    · -- One stages with the status `staging`, and one applies with `applying`.
      obtain hstages | happlies := (or_eq_true ..).mp hpc
      · obtain hstages' | happlies' := (or_eq_true ..).mp hpc'
        · exact hafter.exclusive.one i j c d hc hd hstages hstages'
        · have hs := hafter.staging i c hc hstages
          have hs' := (hafter.applying j d hd (beq_iff_eq.mp happlies')).1
          cases hs.symm.trans hs'
      · obtain hstages' | happlies' := (or_eq_true ..).mp hpc'
        · have hs := (hafter.applying i c hc (beq_iff_eq.mp happlies)).1
          have hs' := hafter.staging j d hd hstages'
          cases hs.symm.trans hs'
        · exact hafter.oneApplies i j c d hc hd (beq_iff_eq.mp happlies) (beq_iff_eq.mp happlies')
    · obtain ⟨i, c, hc, hpc⟩ := isStaging_of_staged hstep hmem
      cases (h.staging i c hc hpc).symm.trans hs

theorem orderly_start : Orderly env cached (newUpdateManager cached) [] := by
  have hnone : ∀ (j : ℕ) (e : UpdateCall), (newUpdateManager cached).calls[j]? ≠ some e := by
    intro j e he
    simp [newUpdateManager] at he
  refine ⟨⟨fun i _ c _ hc => absurd hc (hnone i c), fun i c hc => absurd hc (hnone i c)⟩,
    fun i c hc => absurd hc (hnone i c), fun i c hc => absurd hc (hnone i c),
      fun i _ c _ hc => absurd hc (hnone i c),
    fun file hne => absurd rfl hne, fun file => Nat.zero_le _, fun i c hc => absurd hc (hnone i c),
    fun version hfile => .inl ?_⟩
  have hcached : cached (env.targetPath version) ≠ none := by
    intro hno
    exact hfile (by simp [newUpdateManager, hno])
  unfold stagedBefore
  rw [if_neg hcached]
  exact Nat.succ_pos _

end Orderly

/-- In a run of the manager one update runs at a time if and only if `StageUpdate` never begins where an
update was staged or has failed, and `ApplyUpdate` sets `applying` only where one is staged. -/
theorem one_update_iff (env : UpdateEnv F) (cached : F → Option (List UInt8)) (as : List UpdateAction) :
    (updateManager env).Every (OneUpdate env cached) (newUpdateManager cached) [] as ↔
      (updateManager env).Every (fun s _ a => s.MeetsGuards a) (newUpdateManager cached) [] as :=
  Machine.every_iff (Orderly env cached) (fun _ _ _ _ _ h hmeets hstep => orderly_of_step h hmeets hstep)
    (fun _ _ a h => oneUpdate_iff h a) as _ [] orderly_start

/-- A cache directory with a file for every name. -/
def sampleUpdates : UpdateEnv String where
  targetPath version := "ligament_" ++ version ++ ".msi"
  tempPath version := "ligament_" ++ version ++ ".msi.tmp"
  distinct version other h := by
    have hlast := congrArg (fun name : String => name.toList.reverse.head?) h
    simp at hlast
  sha256 content := if content = [1] then "ab" else "cd"

/-- While a package is downloaded, another one is applied that was there before. -/
def appliedMeanwhile : List UpdateAction :=
  [.call (.stage "1.3.0" "ab"), .run 0 .enter, .run 0 .opened, .run 0 (.received [1]),
    .call (.apply "1.2.0" 900), .run 1 (.stat true), .run 1 .mark, .run 0 .eof, .run 0 (.rename none)]

/-- The staging that completes overwrites `applying`. -/
theorem applying_overwritten : ¬∀ (env : UpdateEnv String) (cached : String → Option (List UInt8))
    (as : List UpdateAction), (updateManager env).Every (OneUpdate env cached) (newUpdateManager cached) [] as := by
  intro hclaim
  have hrun : ((updateManager sampleUpdates).exec (fun _ _ _ => true)
      (newUpdateManager fun file => if file = "ligament_1.2.0.msi" then some [2] else none) [] appliedMeanwhile).any
      (fun r => decide (r.1.status = .applying ∧ r.1.calls[0]?.map (·.pc) = some .finishing)) = true := by
    decide +kernel
  obtain ⟨⟨s, es⟩, hexec, hshape⟩ := (Option.any_eq_true ..).mp hrun
  obtain ⟨happlying, hpc⟩ := of_decide_eq_true hshape
  obtain ⟨_, rfl, hpath⟩ := Machine.path_of_exec _ hexec
  obtain ⟨c, hc, hpc⟩ := map_eq_some_iff.mp hpc
  have hone := Machine.Every.good hpath (hclaim sampleUpdates _ (appliedMeanwhile ++ [.run 0 .finish]))
  have hstep : s.step sampleUpdates (.run 0 .finish) = some (s.finish sampleUpdates 0 c) := by
    simp [UpdateManager.step, hc, UpdateManager.runCall, hpc]
  refine (hone _ _ hstep).2.2.1 (sampleUpdates.targetPath c.command.version) ?_ happlying
  exact mem_append_right _ (mem_singleton_self _)

end LigamentApps.LinkAgent
