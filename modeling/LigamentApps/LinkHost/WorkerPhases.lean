import LigamentApps.LinkHost.LinkHostWorker

/-!
# The phases of the worker's window

`LinkHostWorkerState` by itself, with its operations in any order: what completes a consent, and what is
notified. The consents are numbered in the order in which they are made; the one of `_consent` is the last. -/

namespace LigamentApps.LinkHost

variable (ui : LinkHostWorkerState)

def LinkHostWorkerState.markClosed : LinkHostWorkerState :=
  { ui.completeConsent false with confirmationCode := "", phase := .closed }

/-- The state, with the number of consents that were made. -/
structure WorkerWindow where
  ui : LinkHostWorkerState := {}
  made : ℕ := 0

inductive WindowAction
  | showSession (attended : Bool) (digits : ℤ)
  | awaitConsent
  /-- The time for a consent is over. -/
  | timeout (index : ℕ)
  | approveConsent (code : String)
  | denyConsent
  | markConsentUiUnavailable
  | markActive
  | requestDisconnect
  | markClosed

inductive WindowEvent
  /-- A consent is completed. -/
  | completed (index : ℕ) (granted : Bool)
  /-- `notifyListeners`, in a phase. -/
  | notified (phase : LinkHostWorkerPhase)

namespace WorkerWindow

variable (s : WorkerWindow)

/-- The completion of a consent that is pending. -/
def completes (granted : Bool) : List WindowEvent :=
  if s.ui.consent = some none then [.completed (s.made - 1) granted] else []

/-- `denyConsent`, with its events. -/
def denies : WorkerWindow × List WindowEvent :=
  ({ s with ui := s.ui.denyConsent }, if s.ui.asking then [.completed (s.made - 1) false,
    .notified .closing] else [])

/-- `awaitConsent`, which makes a consent where there is none. -/
def awaits : WorkerWindow × List WindowEvent :=
  let (ui, answer) := s.ui.awaitConsent
  if answer = none ∧ s.ui.consent = none then (⟨ui, s.made + 1⟩, [.notified ui.phase]) else ({ s with ui }, [])

/-- `approveConsent`, with its events. -/
def approves (code : String) : WorkerWindow × List WindowEvent :=
  ({ s with ui := s.ui.approveConsent code },
    if s.ui.takesCode code then [.completed (s.made - 1) true, .notified .connecting] else [])

/-- `requestDisconnect`, with its events. -/
def disconnects : WorkerWindow × List WindowEvent :=
  ({ s with ui := s.ui.requestDisconnect }, if s.ui.disconnected then [] else s.completes false ++ [.notified .closing])

/-- One operation. -/
def step : WindowAction → Option (WorkerWindow × List WindowEvent)
  | .showSession attended digits =>
    let ui := s.ui.showSession attended digits
    some ({ s with ui }, s.completes false ++ [.notified ui.phase])
  | .awaitConsent => some s.awaits
  | .timeout index => some (if s.ui.consent.isSome ∧ index + 1 = s.made then s.denies else (s, []))
  | .approveConsent code => some (s.approves code)
  | .denyConsent => some s.denies
  | .markConsentUiUnavailable =>
    some ({ s with ui := s.ui.markConsentUiUnavailable },
      s.completes false ++ (if s.ui.phase = .awaitingConsent then [.closing] else []).map .notified)
  | .markActive =>
    some ({ s with ui := s.ui.markActive },
      if s.ui.phase = .connecting || s.ui.phase = .awaitingConsent then [.notified .active] else [])
  | .requestDisconnect => some s.disconnects
  | .markClosed => some ({ s with ui := s.ui.markClosed }, s.completes false ++ [.notified .closed])

end WorkerWindow

/-- The state as a machine. -/
def workerWindow : Machine WorkerWindow WindowAction WindowEvent := ⟨WorkerWindow.step⟩

/-! ## The phases -/

/-- How often a consent was completed. -/
def completionsOf (index : ℕ) (es : List WindowEvent) : ℕ :=
  es.countP fun
    | .completed i _ => i = index
    | .notified _ => false

/-- What an operation does, after the events `es`: no consent is completed twice, one is granted only where it
is pending and the right digits are entered, and the phase `closed` stays, and no other one is notified in
it. -/
def Proper (s : WorkerWindow) (es : List WindowEvent) (a : WindowAction) : Prop :=
  ∀ t fs, s.step a = some (t, fs) →
    (∀ index, completionsOf index (es ++ fs) ≤ 1) ∧
    (∀ index, .completed index true ∈ fs → ∃ code, a = .approveConsent code ∧ s.ui.takesCode code = true) ∧
    (s.ui.phase = .closed → t.ui.phase = .closed ∧ ∀ phase, .notified phase ∈ fs → phase = .closed)

/-- In the phase `closed` no session is shown, and the user does not ask to disconnect for the first time. -/
def WorkerWindow.KeepsClosed (s : WorkerWindow) : WindowAction → Prop
  | .showSession _ _ => s.ui.phase ≠ .closed
  | .requestDisconnect => s.ui.phase = .closed → s.ui.disconnected = true
  | _ => True

variable {s t : WorkerWindow} {es fs : List WindowEvent} {a : WindowAction}

theorem completionsOf_append (index : ℕ) (es fs : List WindowEvent) :
    completionsOf index (es ++ fs) = completionsOf index es + completionsOf index fs := List.countP_append

/-- How an operation leaves the consents: it completes none, and the one that is pending was so before or is
new; or it completes the one that was. -/
inductive ConsentMoves (s : WorkerWindow) (a : WindowAction) (t : WorkerWindow) (fs : List WindowEvent) : Prop
  | keeps (hmade : s.made ≤ t.made) (hnone : ∀ index granted, .completed index granted ∉ fs)
      (hpending : t.ui.consent = some none → s.ui.consent = some none ∧ t.made = s.made ∨ t.made = s.made + 1)
  | completes (granted : Bool) (rest : List WindowEvent) (hmade : t.made = s.made)
      (hfs : fs = .completed (s.made - 1) granted :: rest)
      (hnone : ∀ index granted, .completed index granted ∉ rest)
      (hbefore : s.ui.consent = some none) (hafter : t.ui.consent ≠ some none)
      (hgranted : granted = true → ∃ code, a = .approveConsent code ∧ s.ui.takesCode code = true)

theorem completeConsent_ne (granted : Bool) : (ui.completeConsent granted).consent ≠ some none := by
  unfold LinkHostWorkerState.completeConsent
  split
  · simp
  · rename_i hother
    exact hother

theorem completeConsent_phase (granted : Bool) : (ui.completeConsent granted).phase = ui.phase := by
  unfold LinkHostWorkerState.completeConsent
  split
  · rfl
  · rfl

theorem moves_completes (phases : List LinkHostWorkerPhase) (hmade : t.made = s.made)
    (hafter : t.ui.consent ≠ some none) : ConsentMoves s a t (s.completes false ++ phases.map .notified) := by
  unfold WorkerWindow.completes
  by_cases hpending : s.ui.consent = some none
  · rw [if_pos hpending]
    exact .completes false _ hmade rfl (by simp) hpending hafter nofun
  · rw [if_neg hpending]
    exact .keeps hmade.ge (by simp) fun hnew => absurd hnew hafter

theorem moves_nothing : ConsentMoves s a s [] :=
  .keeps le_rfl (by simp) fun hpending => .inl ⟨hpending, rfl⟩

theorem consent_of_asking (h : s.ui.asking = true) : s.ui.phase = .awaitingConsent ∧ s.ui.consent = some none := by
  unfold LinkHostWorkerState.asking at h
  rwa [Bool.and_eq_true, decide_eq_true_eq, decide_eq_true_eq] at h

theorem asking_of_takesCode {code : String} (h : s.ui.takesCode code = true) : s.ui.asking = true := by
  unfold LinkHostWorkerState.takesCode at h
  rw [Bool.and_eq_true, Bool.and_eq_true] at h
  exact h.1.1

theorem moves_denies : ConsentMoves s a s.denies.1 s.denies.2 := by
  unfold WorkerWindow.denies LinkHostWorkerState.denyConsent
  split
  · rename_i hasking
    exact .completes false _ rfl rfl (by simp) (consent_of_asking hasking).2 (by simp) nofun
  · exact moves_nothing

theorem moves_approves (code : String) :
    ConsentMoves s (.approveConsent code) (s.approves code).1 (s.approves code).2 := by
  unfold WorkerWindow.approves LinkHostWorkerState.approveConsent
  split
  · rename_i htakes
    exact .completes true _ rfl rfl (by simp) (consent_of_asking (asking_of_takesCode htakes)).2 (by simp)
      fun _ => ⟨code, rfl, htakes⟩
  · exact moves_nothing

theorem awaits_eq (s : WorkerWindow) : s.awaits = (s, []) ∨ s.ui.phase ≠ .closed ∧
    s.awaits = (⟨{ s.ui with consent := some none, phase := .awaitingConsent }, s.made + 1⟩,
      [.notified .awaitingConsent]) := by
  unfold WorkerWindow.awaits LinkHostWorkerState.awaitConsent
  by_cases hstop : (s.ui.disconnected || decide (s.ui.phase = .closing) || decide (s.ui.phase = .closed) ||
      !s.ui.consentUiAvailable) = true
  · rw [if_pos hstop]
    exact .inl (if_neg nofun)
  · rw [if_neg hstop]
    cases hconsent : s.ui.consent with
    | none => exact .inr ⟨fun hclosed => hstop (by simp [hclosed]), rfl⟩
    | some answer => exact .inl (if_neg nofun)

theorem consentMoves_of_step (h : s.step a = some (t, fs)) : ConsentMoves s a t fs := by
  cases a with
  | showSession attended digits =>
    cases h
    exact moves_completes [_] rfl nofun
  | awaitConsent =>
    have heq : s.awaits = (t, fs) := Option.some.inj h
    obtain hsame | ⟨-, hnew⟩ := awaits_eq s
    · cases hsame.symm.trans heq
      exact moves_nothing
    · cases hnew.symm.trans heq
      exact .keeps (Nat.le_succ _) (by simp) fun _ => .inr rfl
  | timeout index =>
    unfold WorkerWindow.step at h
    dsimp only at h
    split at h
    · cases h
      exact moves_denies
    · cases h
      exact moves_nothing
  | approveConsent code =>
    cases h
    exact moves_approves code
  | denyConsent =>
    cases h
    exact moves_denies
  | markConsentUiUnavailable =>
    cases h
    refine moves_completes _ rfl ?_
    unfold LinkHostWorkerState.markConsentUiUnavailable
    dsimp only
    split
    · exact completeConsent_ne _ _
    · exact completeConsent_ne _ _
  | markActive =>
    cases h
    refine .keeps le_rfl (by split <;> simp) fun hpending => .inl ⟨?_, rfl⟩
    unfold LinkHostWorkerState.markActive at hpending
    split at hpending
    · exact hpending
    · exact hpending
  | requestDisconnect =>
    cases h
    unfold LinkHostWorkerState.requestDisconnect
    cases s.ui.disconnected with
    | true => exact moves_nothing
    | false => exact moves_completes [_] rfl (completeConsent_ne _ _)
  | markClosed =>
    cases h
    exact moves_completes [_] rfl (completeConsent_ne _ _)

/-- No consent was completed twice, and none that is pending or is still to be made was completed. -/
structure Numbered (s : WorkerWindow) (es : List WindowEvent) : Prop where
  once : ∀ index, completionsOf index es ≤ 1
  later : ∀ index, s.made ≤ index → completionsOf index es = 0
  pending : s.ui.consent = some none → 0 < s.made ∧ completionsOf (s.made - 1) es = 0

theorem completionsOf_eq_zero (h : ∀ index granted, .completed index granted ∉ fs) (index : ℕ) :
    completionsOf index fs = 0 := by
  refine List.countP_eq_zero.mpr fun e he => ?_
  cases e with
  | completed i granted => exact absurd he (h i granted)
  | notified => simp

theorem numbered_of_moves (h : Numbered s es) (hmoves : ConsentMoves s a t fs) : Numbered t (es ++ fs) := by
  cases hmoves with
  | keeps hmade hnone hpending =>
    have hsame : ∀ index, completionsOf index (es ++ fs) = completionsOf index es := by
      intro index
      rw [completionsOf_append, completionsOf_eq_zero hnone, Nat.add_zero]
    refine ⟨fun index => ?_, fun index hindex => ?_, fun hnow => ?_⟩
    · rw [hsame]
      exact h.once index
    · rw [hsame]
      exact h.later index (hmade.trans hindex)
    · rw [hsame]
      obtain ⟨hbefore, heq⟩ | heq := hpending hnow
      · rw [heq]
        exact h.pending hbefore
      · rw [heq]
        exact ⟨Nat.succ_pos _, h.later _ le_rfl⟩
  | completes granted rest hmade hfs hnone hbefore hafter =>
    obtain ⟨hpos, hzero⟩ := h.pending hbefore
    have hcount : ∀ index, completionsOf index (es ++ fs) =
        completionsOf index es + if s.made - 1 = index then 1 else 0 := by
      intro index
      have hrest := completionsOf_eq_zero hnone index
      unfold completionsOf at hrest
      rw [completionsOf_append, hfs]
      unfold completionsOf
      rw [List.countP_cons, hrest]
      simp
    refine ⟨fun index => ?_, fun index hindex => ?_, fun hnow => absurd hnow hafter⟩
    · have honce := h.once index
      rw [hcount]
      split
      · rename_i heq
        rw [← heq, hzero]
      · exact honce
    · rw [hcount, h.later index (hmade ▸ hindex), if_neg (by omega)]

/-! ## The phase `closed` -/

theorem not_notified_completes {phase : LinkHostWorkerPhase} {granted : Bool} :
    .notified phase ∉ s.completes granted := by
  unfold WorkerWindow.completes
  split
  · simp
  · simp

/-- A closed session stays closed exactly where no late event reopens it. -/
theorem closed_stays_iff (hclosed : s.ui.phase = .closed) (hstep : s.step a = some (t, fs)) :
    (t.ui.phase = .closed ∧ ∀ phase, .notified phase ∈ fs → phase = .closed) ↔ s.KeepsClosed a := by
  have hasking : s.ui.asking = false := by
    unfold LinkHostWorkerState.asking
    rw [hclosed]
    rfl
  have hdenies : s.denies = (s, []) := by
    unfold WorkerWindow.denies LinkHostWorkerState.denyConsent
    rw [hasking]
    rfl
  cases a with
  | showSession attended digits =>
    cases hstep
    refine iff_of_false (fun hstays => ?_) (fun hkeeps => hkeeps hclosed)
    cases attended with
    | true | false => cases hstays.1
  | requestDisconnect =>
    cases hstep
    unfold LinkHostWorkerState.requestDisconnect
    cases hdisconnected : s.ui.disconnected with
    | true => exact iff_of_true ⟨hclosed, nofun⟩ fun _ => hdisconnected
    | false =>
      refine iff_of_false (fun hstays => ?_) (fun hkeeps => ?_)
      · cases hstays.1
      · cases hdisconnected.symm.trans (hkeeps hclosed)
  | awaitConsent =>
    have hawaits : s.awaits = (s, []) := (awaits_eq s).resolve_right fun hnew => hnew.1 hclosed
    cases hawaits.symm.trans (Option.some.inj hstep)
    exact iff_of_true ⟨hclosed, nofun⟩ trivial
  | timeout index =>
    unfold WorkerWindow.step at hstep
    dsimp only at hstep
    rw [hdenies, ite_self] at hstep
    cases hstep
    exact iff_of_true ⟨hclosed, nofun⟩ trivial
  | approveConsent code =>
    cases hstep
    have htakes : s.ui.takesCode code = false := by
      unfold LinkHostWorkerState.takesCode
      rw [hasking]
      rfl
    unfold LinkHostWorkerState.approveConsent
    rw [htakes]
    exact iff_of_true ⟨hclosed, nofun⟩ trivial
  | denyConsent =>
    cases hdenies.symm.trans (Option.some.inj hstep)
    exact iff_of_true ⟨hclosed, nofun⟩ trivial
  | markConsentUiUnavailable =>
    cases hstep
    refine iff_of_true ⟨?_, fun phase hmem => ?_⟩ trivial
    · have hphase : (({ s.ui with consentUiAvailable := false } : LinkHostWorkerState).completeConsent false).phase =
          .closed := (completeConsent_phase _ _).trans hclosed
      unfold LinkHostWorkerState.markConsentUiUnavailable
      dsimp only
      rw [if_neg (by rw [hphase]; nofun)]
      exact hphase
    · rw [hclosed, if_neg nofun, List.map_nil, List.append_nil] at hmem
      exact absurd hmem not_notified_completes
  | markActive =>
    cases hstep
    unfold LinkHostWorkerState.markActive
    rw [hclosed]
    exact iff_of_true ⟨hclosed, nofun⟩ trivial
  | markClosed =>
    cases hstep
    refine iff_of_true ⟨rfl, fun phase hmem => ?_⟩ trivial
    obtain hmem | hmem := List.mem_append.mp hmem
    · exact absurd hmem not_notified_completes
    · simpa using hmem

theorem granted_of_moves (hmoves : ConsentMoves s a t fs) {index : ℕ} (hmem : .completed index true ∈ fs) :
    ∃ code, a = .approveConsent code ∧ s.ui.takesCode code = true := by
  cases hmoves with
  | keeps _ hnone => exact absurd hmem (hnone index true)
  | completes granted rest _ hfs hnone _ _ hgranted =>
    rw [hfs] at hmem
    obtain heq | hrest := List.mem_cons.mp hmem
    · cases heq
      exact hgranted rfl
    · exact absurd hrest (hnone index true)

theorem proper_iff (h : Numbered s es) (a : WindowAction) : Proper s es a ↔ s.KeepsClosed a := by
  constructor
  · intro hproper
    by_cases hclosed : s.ui.phase = .closed
    · obtain ⟨⟨t, fs⟩, hstep⟩ : ∃ r, s.step a = some r := by
        cases a with
        | _ => exact ⟨_, rfl⟩
      exact (closed_stays_iff hclosed hstep).mp ((hproper t fs hstep).2.2 hclosed)
    · cases a with
      | showSession => exact hclosed
      | requestDisconnect => exact fun hnow => absurd hnow hclosed
      | _ => trivial
  · intro hkeeps t fs hstep
    have hmoves := consentMoves_of_step hstep
    exact ⟨(numbered_of_moves h hmoves).once, fun _ hmem => granted_of_moves hmoves hmem,
      fun hclosed => (closed_stays_iff hclosed hstep).mpr hkeeps⟩

/-- In every order of the operations, each consent is completed at most once, and granted only by the right
digits while it is pending; and the phase `closed` is the last one if and only if in it no session is shown,
and no disconnect is asked for that was not asked for before. -/
theorem phases_proper_iff (as : List WindowAction) :
    workerWindow.Every Proper {} [] as ↔ workerWindow.Every (fun s _ a => s.KeepsClosed a) {} [] as :=
  Machine.every_iff Numbered (fun _ _ _ _ _ h _ hstep => numbered_of_moves h (consentMoves_of_step hstep))
    (fun _ _ a h => proper_iff h a) as _ [] ⟨fun _ => Nat.zero_le _, fun _ _ => rfl, nofun⟩

/-- In every run each consent is completed once at most. -/
theorem consents_complete_once (as : List WindowAction) :
    workerWindow.Every (fun s es _ => Numbered s es) {} [] as := by
  refine Machine.every_of_reach (fun hrun => hrun.invariant Numbered ?_
    fun _ _ _ _ _ h _ hstep => numbered_of_moves h (consentMoves_of_step hstep)) as .start
  exact ⟨fun _ => Nat.zero_le _, fun _ _ => rfl, nofun⟩

/-- Where the worker is closed, the user's window can still be closed. -/
theorem closing_after_closed : ¬∀ as : List WindowAction, workerWindow.Every Proper {} [] as := by
  intro hclaim
  have hproper := (hclaim [.markClosed, .requestDisconnect]).2 _ _ rfl
  cases ((hproper.1 _ _ rfl).2.2 rfl).1

end LigamentApps.LinkHost
