import LigamentApps.LinkAgent.OneUpdate

/-!
# A failed update

When the update manager takes a further `StageUpdate`. An installer is in progress from its start until its
script has ended: where it ends without an end of the agent, `applying` is the status still. -/

namespace LigamentApps.LinkAgent

variable {F : Type} {env : UpdateEnv F} {s t : UpdateManager F} {fs : List (UpdateEvent F)}

namespace UpdateManager

/-- A further call of `StageUpdate` is not refused. -/
def Accepts (s : UpdateManager F) : Prop := ∀ i c, .refused i ∉ (s.enter i c).2

/-- A call other than those with these indices stages or applies. -/
def InProgress (s : UpdateManager F) (except : ℕ → Prop) : Prop :=
  ∃ (j : ℕ) (c : UpdateCall), ¬except j ∧ s.calls[j]? = some c ∧ c.pc.inProgress = true

/-- A script other than those with these indices runs. -/
def Installing (s : UpdateManager F) (except : ℕ → Prop) : Prop :=
  ∃ (k : ℕ) (pc : ScriptPc), ¬except k ∧ s.scripts[k]? = some pc ∧ pc ≠ .ended

/-- A further `StageUpdate` is taken, or an update is in progress: a call, or an installer. -/
def Open (s : UpdateManager F) : Prop :=
  s.Accepts ∨ s.InProgress (fun _ => False) ∨ s.Installing fun _ => False

/-- Where a launch starts no installer, and where an installer ends, the status has already left `applying`,
or another call or another installer is in progress. -/
def EndsSafely (s : UpdateManager F) : UpdateAction → Prop
  | .run i (.launch outcome) => outcome ≠ .started → ∀ c, s.calls[i]? = some c → c.pc = .launching →
    (s.status ≠ .staging ∧ s.status ≠ .applying) ∨ s.InProgress (· = i) ∨ s.Installing fun _ => False
  | .scriptEnds k => s.scripts[k]? = some .installing →
    (s.status ≠ .staging ∧ s.status ≠ .applying) ∨ s.InProgress (fun _ => False) ∨ s.Installing (· = k)
  | _ => True

theorem accepts_iff : s.Accepts ↔ s.status ≠ .staging ∧ s.status ≠ .applying := by
  unfold Accepts enter
  rw [← not_or]
  constructor
  · intro haccepts hbusy
    have hnone := haccepts 0 ⟨.stage "" "", .entering, []⟩
    rw [if_pos hbusy] at hnone
    exact hnone (List.mem_singleton_self _)
  · intro hfree i c
    rw [if_neg hfree]
    unfold move
    simp

theorem Accepts.of_status (h : s.Accepts) (hstatus : t.status = s.status) : t.Accepts := by
  rw [accepts_iff, hstatus]
  exact accepts_iff.mp h

theorem InProgress.of_set {i : ℕ} {d : UpdateCall} (hcalls : t.calls = s.calls.set i d)
    (h : s.InProgress (· = i)) : t.InProgress fun _ => False := by
  obtain ⟨j, e, hne, he, hprogress⟩ := h
  refine ⟨j, e, not_false, ?_, hprogress⟩
  rw [hcalls, List.getElem?_set_ne (Ne.symm hne)]
  exact he

theorem Installing.of_append {more : List ScriptPc} (hscripts : t.scripts = s.scripts ++ more)
    (h : s.Installing fun _ => False) : t.Installing fun _ => False := by
  obtain ⟨k, pc, -, hpc, hne⟩ := h
  refine ⟨k, pc, not_false, ?_, hne⟩
  rw [hscripts, List.getElem?_append_left (List.getElem?_eq_some_iff.mp hpc).1]
  exact hpc

theorem Open.of_call (h : s.Open) (d : UpdateCall) :
    ({ s with calls := s.calls ++ [d] } : UpdateManager F).Open := by
  obtain haccepts | ⟨j, e, -, he, hprogress⟩ | hinstalling := h
  · exact .inl (haccepts.of_status rfl)
  · refine .inr (.inl ⟨j, e, not_false, ?_, hprogress⟩)
    rw [List.getElem?_append_left (List.getElem?_eq_some_iff.mp he).1]
    exact he
  · exact .inr (.inr hinstalling)

end UpdateManager

variable [DecidableEq F]

theorem CallStep.scripts_append {i : ℕ} {c : UpdateCall} (h : CallStep env s i c t fs) :
    ∃ more, t.scripts = s.scripts ++ more := by
  cases h with
  | cleaned ok removed =>
    cases removed with
    | true | false => exact ⟨[], (List.append_nil _).symm⟩
  | launched outcome =>
    cases outcome with
    | started => exact ⟨[.waiting], rfl⟩
    | notStarted | notWritten => exact ⟨[], (List.append_nil _).symm⟩
  | _ => exact ⟨[], (List.append_nil _).symm⟩

/-- A step of a call frees the status, leaves the call in progress, or keeps the status and was not of a call
in progress; or it is the start of the installer. -/
theorem CallStep.opens {i : ℕ} {c : UpdateCall} (h : CallStep env s i c t fs) :
    ∃ d, t.calls = s.calls.set i d ∧ (t.Accepts ∨ d.pc.inProgress = true ∨
      (c.pc.inProgress = false ∧ t.status = s.status) ∨ (c.pc = .launching ∧ t.status = s.status)) := by
  cases h with
  | looked _ hpc | refused hpc =>
    refine ⟨_, rfl, .inr (.inr (.inl ⟨?_, rfl⟩))⟩
    rw [hpc]
    rfl
  | entered | opened | unchecked | compared | renamed | marked => exact ⟨_, rfl, .inr (.inl rfl)⟩
  | received bytes hpc =>
    refine ⟨_, rfl, .inr (.inl ?_)⟩
    rw [hpc]
    rfl
  | failed | finished => exact ⟨_, rfl, .inl (UpdateManager.accepts_iff.mpr ⟨by simp, by simp⟩)⟩
  | cleaned ok removed hpc =>
    refine ⟨{ c with pc := if ok && c.command.isApply then .marking else .over }, ?_, .inr (.inr (.inl ⟨?_, ?_⟩))⟩
    · cases removed with
      | true | false => rfl
    · rw [hpc]
      rfl
    · cases removed with
      | true | false => rfl
  | launched outcome hpc =>
    obtain ⟨hcalls, hstatus, -⟩ := launch_spec s i c outcome
    exact ⟨_, hcalls, .inr (.inr (.inr ⟨hpc, hstatus⟩))⟩

theorem open_of_callStep {i : ℕ} {c : UpdateCall} (h : s.Open) (hc : s.calls[i]? = some c)
    (hcall : CallStep env s i c t fs)
    (hlaunch : c.pc = .launching → s.Accepts ∨ s.InProgress (· = i) ∨ t.Installing fun _ => False) : t.Open := by
  obtain ⟨d, hcalls, hmoves⟩ := hcall.opens
  obtain ⟨more, hscripts⟩ := hcall.scripts_append
  obtain hfree | hprogress | ⟨hnot, hstatus⟩ | ⟨hpc, hstatus⟩ := hmoves
  · exact .inl hfree
  · refine .inr (.inl ⟨i, d, not_false, ?_, hprogress⟩)
    rw [hcalls, List.getElem?_set_self (List.getElem?_eq_some_iff.mp hc).1]
  · obtain haccepts | ⟨j, e, -, he, hprogress⟩ | hinstalling := h
    · exact .inl (haccepts.of_status hstatus)
    · have hother : j ≠ i := by
        intro heq
        rw [heq, hc] at he
        cases he
        cases hnot.symm.trans hprogress
      exact .inr (.inl (UpdateManager.InProgress.of_set hcalls ⟨j, e, hother, he, hprogress⟩))
    · exact .inr (.inr (hinstalling.of_append hscripts))
  · exact (hlaunch hpc).imp (·.of_status hstatus) fun hother => hother.imp_left (·.of_set hcalls)

omit [DecidableEq F] in
theorem launch_open_iff (s : UpdateManager F) (i : ℕ) (c : UpdateCall) {outcome : LaunchOutcome}
    (hfails : outcome ≠ .started) : (s.launch env i c outcome).1.Open ↔
      (s.status ≠ .staging ∧ s.status ≠ .applying) ∨ s.InProgress (· = i) ∨ s.Installing fun _ => False := by
  obtain ⟨hcalls, hstatus, -⟩ := launch_spec s i c outcome
  have hscripts : (s.launch env i c outcome).1.scripts = s.scripts := by
    cases outcome with
    | started => exact absurd rfl hfails
    | notStarted | notWritten => rfl
  unfold UpdateManager.Open UpdateManager.Installing
  rw [UpdateManager.accepts_iff, hstatus, hscripts]
  refine or_congr_right (or_congr_left ⟨fun ⟨j, e, _, he, hprogress⟩ => ?_, fun h => h.of_set hcalls⟩)
  obtain ⟨-, rfl⟩ | ⟨hne, hbefore⟩ := getElem?_set_cases (hcalls ▸ he)
  · cases hprogress
  · exact ⟨j, e, hne, hbefore, hprogress⟩

omit [DecidableEq F] in
theorem ended_open_iff (k : ℕ) : (s.withScript k .ended).Open ↔
    (s.status ≠ .staging ∧ s.status ≠ .applying) ∨ s.InProgress (fun _ => False) ∨ s.Installing (· = k) := by
  unfold UpdateManager.Open
  rw [UpdateManager.accepts_iff]
  refine or_congr_right (or_congr_right ⟨fun ⟨j, pc, _, hpc, hne⟩ => ?_, fun ⟨j, pc, hother, hpc, hne⟩ => ?_⟩)
  · obtain ⟨-, rfl⟩ | ⟨hother, hbefore⟩ := getElem?_set_cases hpc
    · exact absurd rfl hne
    · exact ⟨j, pc, hother, hbefore, hne⟩
  · exact ⟨j, pc, not_false, (List.getElem?_set_ne (Ne.symm hother)).trans hpc, hne⟩

theorem open_iff (h : s.Open) (a : UpdateAction) :
    (∀ t fs, s.step env a = some (t, fs) → t.Open) ↔ s.EndsSafely a := by
  constructor
  · intro hopen
    cases a with
    | call | install => trivial
    | run i input =>
      cases input with
      | launch outcome =>
        intro hfails c hc hpc
        have hstep : s.step env (.run i (.launch outcome)) = some (s.launch env i c outcome) := by
          simp [UpdateManager.step, hc, UpdateManager.runCall, hpc]
        exact (launch_open_iff s i c hfails).mp (hopen _ _ hstep)
      | _ => trivial
    | scriptEnds k => exact fun hruns => (ended_open_iff k).mp (hopen _ [] (by simp [UpdateManager.step, hruns]))
  · intro hsafe t fs hstep
    obtain ⟨command, -, rfl, rfl⟩ | ⟨i, input, c, rfl, hc, hcall⟩ | ⟨_, _, -, hscript⟩ := step_cases hstep
    · exact h.of_call _
    · refine open_of_callStep h hc hcall fun hpc => ?_
      cases input with
      | launch outcome =>
        have heq : s.step env (.run i (.launch outcome)) = some (s.launch env i c outcome) := by
          simp [UpdateManager.step, hc, UpdateManager.runCall, hpc]
        obtain ⟨rfl, rfl⟩ : _ = t ∧ _ = fs := Prod.mk.inj (Option.some.inj (heq.symm.trans hstep))
        by_cases hstarts : outcome = .started
        · subst hstarts
          have hlast : (s.scripts ++ [ScriptPc.waiting])[s.scripts.length]? = some .waiting := by simp
          exact .inr (.inr ⟨_, _, not_false, hlast, by simp⟩)
        · obtain ⟨more, hscripts⟩ := hcall.scripts_append
          exact (hsafe hstarts c hc hpc).imp UpdateManager.accepts_iff.mpr fun hother =>
            hother.imp_right (·.of_append hscripts)
      | _ =>
        simp [UpdateManager.step, hc, UpdateManager.runCall, hpc] at hstep
    · obtain ⟨k, i, c, rfl, hwaits, hi, hc, -⟩ | ⟨k, rfl, hruns, -⟩ := hscript
      · have heq : s.step env (.install k) =
            some (s.withScript k .installing, [.executed i (env.targetPath c.command.version)]) := by
          simp [UpdateManager.step, UpdateManager.install, hwaits, hi, hc]
        cases heq.symm.trans hstep
        have hnow : (s.scripts.set k .installing)[k]? = some .installing :=
          List.getElem?_set_self (List.getElem?_eq_some_iff.mp hwaits).1
        exact .inr (.inr ⟨k, _, not_false, hnow, by simp⟩)
      · have heq : s.step env (.scriptEnds k) = some (s.withScript k .ended, []) := by
          simp [UpdateManager.step, hruns]
        cases heq.symm.trans hstep
        exact (ended_open_iff k).mpr (hsafe hruns)

/-- In a run, every state takes a further `StageUpdate` or has an update in progress if and only if, while the
status is `applying` and nothing else is in progress, no launch is without an installer, and no installer
ends. -/
theorem stays_open_iff (env : UpdateEnv F) (cached : F → Option (List UInt8)) (as : List UpdateAction) :
    (updateManager env).Every (fun s _ a => ∀ t fs, s.step env a = some (t, fs) → t.Open)
        (newUpdateManager cached) [] as ↔
      (updateManager env).Every (fun s _ a => s.EndsSafely a) (newUpdateManager cached) [] as :=
  Machine.every_iff (fun s _ => s.Open) (fun _ _ a _ _ h hsafe hstep => (open_iff h a).mpr hsafe _ _ hstep)
    (fun _ _ a h => open_iff h a) as _ [] (.inl (UpdateManager.accepts_iff.mpr ⟨by simp [newUpdateManager],
      by simp [newUpdateManager]⟩))

/-- The package is there, and its installer is about to be started. -/
def launchDue : List UpdateAction := [.call (.apply "1.2.0" 900), .run 0 (.stat true), .run 0 .mark]

/-- The installer cannot be started: every further `StageUpdate` is refused, while nothing is in progress. -/
theorem closed_after_launch : ¬∀ (env : UpdateEnv String) (cached : String → Option (List UInt8))
    (as : List UpdateAction), (updateManager env).Every
      (fun s _ a => ∀ t fs, s.step env a = some (t, fs) → t.Open) (newUpdateManager cached) [] as := by
  intro hclaim
  have hrun : ((updateManager sampleUpdates).exec (fun _ _ _ => true)
      (newUpdateManager fun file => if file = "ligament_1.2.0.msi" then some [2] else none) [] launchDue).any
      (fun r => decide (r.1.status = .applying ∧ r.1.scripts = [] ∧
        r.1.calls = [⟨.apply "1.2.0" 900, .launching, []⟩])) = true := by
    decide +kernel
  obtain ⟨⟨s, es⟩, hexec, hshape⟩ := (Option.any_eq_true ..).mp hrun
  obtain ⟨hstatus, hscripts, hcalls⟩ := of_decide_eq_true hshape
  obtain ⟨_, rfl, hpath⟩ := Machine.path_of_exec _ hexec
  have hopen := Machine.Every.good hpath (hclaim sampleUpdates _ (launchDue ++ [.run 0 (.launch .notStarted)]))
  have hsafe := (open_iff (.inr (.inl ⟨0, _, not_false, by rw [hcalls]; rfl, rfl⟩)) _).mp hopen
  obtain ⟨-, hnot⟩ | ⟨j, c, hne, hc, -⟩ | ⟨k, pc, -, hpc, -⟩ := hsafe (by simp) _ (by rw [hcalls]; rfl) rfl
  · exact hnot hstatus
  · rw [hcalls] at hc
    cases j with
    | zero => exact hne rfl
    | succ j => cases hc
  · rw [hscripts] at hpc
    cases hpc

end LigamentApps.LinkAgent
