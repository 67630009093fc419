import LigamentApps.LinkAgent.RDSRegistration

/-!
# The ends of recordings

Every recording has one `Complete` and one `rdp_session_end` to its account: as long as it is in the map both
are still to come, a logoff that takes it off the map owes them, and afterwards both have been done once. The
account is kept where recordings end by a logoff only. -/

namespace LigamentApps.LinkAgent

open List

variable {f : RDSRecording → RDSRecording} {r : ℕ}

namespace RDSSupervisor

variable {s t : RDSSupervisor} {k : ℕ} {c c' : SupervisorCall}

/-- One, if a recording is the map's entry of its session. -/
def entry (s : RDSSupervisor) (r : ℕ) (rec : RDSRecording) : ℕ :=
  if s.sessions.lookup rec.wtsSessionID = some r then 1 else 0

/-- What holds of the recording of a number. -/
structure Account (s : RDSSupervisor) (r : ℕ) (rec : RDSRecording) : Prop where
  completions : rec.completions.length + s.due (·.completes r) + s.entry r rec = 1
  ends : rec.ends.length + s.due (·.announces r) + s.entry r rec = 1
  /-- The run of a recording of the map goes on. -/
  running : s.sessions.lookup rec.wtsSessionID = some r → rec.returned = false

/-- The accounts of all recordings. -/
structure Balanced (s : RDSSupervisor) : Prop extends Registered s where
  account : ∀ r rec, s.recordings[r]? = some rec → s.Account r rec
  /-- No call has a duty towards a recording that does not exist. -/
  fresh : ∀ r, s.recordings.length ≤ r → s.due (·.completes r) = 0 ∧ s.due (·.announces r) = 0

/-- The condition of a step: a recording ends by a logoff. The run of a recording of the map does not return,
`StopAll` finds no recording, and a policy enters a session that the map does not have. -/
def EndsByLogoff (s : RDSSupervisor) : SupervisorAction → Prop
  | .returns r => ∀ rec, s.recordings[r]? = some rec → s.sessions.lookup rec.wtsSessionID ≠ some r
  | .stopAll _ _ => s.active = []
  | a => s.RegistersAbsent a

theorem Account.of_eq {r : ℕ} {rec : RDSRecording} (h : s.Account r rec)
    (hentry : t.sessions.lookup rec.wtsSessionID = some r ↔ s.sessions.lookup rec.wtsSessionID = some r)
    (hcompletes : t.due (·.completes r) = s.due (·.completes r))
    (hannounces : t.due (·.announces r) = s.due (·.announces r)) : t.Account r rec := by
  have hsame : t.entry r rec = s.entry r rec := by
    exact if_congr hentry rfl rfl
  refine ⟨?_, ?_, fun hlookup => h.running (hentry.mp hlookup)⟩
  · rw [hcompletes, hsame]
    exact h.completions
  · rw [hannounces, hsame]
    exact h.ends

theorem account_start {rec : RDSRecording} (hcompletes : s.due (·.completes r) = 0)
    (hannounces : s.due (·.announces r) = 0) (hentry : s.sessions.lookup rec.wtsSessionID = some r)
    (hcompletions : rec.completions = []) (hends : rec.ends = []) (hrunning : rec.returned = false) :
    s.Account r rec := by
  have hin : s.entry r rec = 1 := if_pos hentry
  refine ⟨?_, ?_, fun _ => hrunning⟩
  · rw [hcompletes, hin, hcompletions, length_nil]
  · rw [hannounces, hin, hends, length_nil]

theorem Balanced.of_same (h : s.Balanced) (hsame : SameBooks s t) : t.Balanced where
  toRegistered := h.toRegistered.of_same hsame
  account := fun r rec hrec => by
    rw [hsame.recordings] at hrec
    exact (h.account r rec hrec).of_eq (by rw [hsame.sessions]) (hsame.completes r) (hsame.announces r)
  fresh := fun r hr => by
    rw [hsame.recordings] at hr
    exact ⟨(hsame.completes r).trans (h.fresh r hr).1, (hsame.announces r).trans (h.fresh r hr).2⟩

theorem due_taken (f : SupervisorCall → ℕ) (sessionID : UInt32) (r : ℕ) (reason : String) :
    due { s with sessions := s.sessions.erase sessionID, calls := s.calls ++ [.logoff r reason .cancel] } f =
      s.due f + f (.logoff r reason .cancel) := due_append f _

theorem Balanced.taken (h : s.Balanced) {sessionID : UInt32} (hr : s.sessions.lookup sessionID = some r)
    (reason : String) : Balanced
      { s with sessions := s.sessions.erase sessionID, calls := s.calls ++ [.logoff r reason .cancel] } := by
  let u : RDSSupervisor :=
    { s with sessions := s.sessions.erase sessionID, calls := s.calls ++ [.logoff r reason .cancel] }
  have hdue : ∀ f : SupervisorCall → ℕ, u.due f = s.due f + f (.logoff r reason .cancel) :=
    fun f => due_taken f sessionID r reason
  obtain ⟨rec₀, hrec₀, hwts₀⟩ := h.entries sessionID r hr
  have hlt : r < s.recordings.length := (List.getElem?_eq_some_iff.mp hrec₀).1
  have haccount : ∀ r' rec, s.recordings[r']? = some rec → u.Account r' rec := by
    intro r' rec hrec
    have hbefore := h.account r' rec hrec
    by_cases hsame : r = r'
    · subst hsame
      cases hrec₀.symm.trans hrec
      have hin : s.entry r rec₀ = 1 := if_pos (by rw [hwts₀]; exact hr)
      have hout : u.sessions.lookup rec₀.wtsSessionID ≠ some r := by
        intro hsome
        have herased : u.sessions.lookup rec₀.wtsSessionID = none := by
          rw [hwts₀]
          exact AList.lookup_erase _ s.sessions
        rw [herased] at hsome
        simp at hsome
      have hnow : u.entry r rec₀ = 0 := if_neg hout
      have hduty : SupervisorCall.completes r (.logoff r reason .cancel) = 1 := if_pos rfl
      have hduty' : SupervisorCall.announces r (.logoff r reason .cancel) = 1 := if_pos rfl
      have hcompletions := hbefore.completions
      have hends := hbefore.ends
      refine ⟨?_, ?_, fun hlookup => absurd hlookup hout⟩
      · rw [hdue, hnow, hduty]
        omega
      · rw [hdue, hnow, hduty']
        omega
    · have hduty : SupervisorCall.completes r' (.logoff r reason .cancel) = 0 := if_neg hsame
      have hduty' : SupervisorCall.announces r' (.logoff r reason .cancel) = 0 := if_neg hsame
      refine hbefore.of_eq ?_ ?_ ?_
      · by_cases hid : rec.wtsSessionID = sessionID
        · have herased : u.sessions.lookup rec.wtsSessionID = none := by
            rw [hid]
            exact AList.lookup_erase _ s.sessions
          rw [herased, hid, hr]
          constructor
          · exact nofun
          · exact fun hother => absurd (Option.some.inj hother) hsame
        · have hkept : u.sessions.lookup rec.wtsSessionID = s.sessions.lookup rec.wtsSessionID :=
            AList.lookup_erase_ne hid
          rw [hkept]
      · rw [hdue, hduty, Nat.add_zero]
      · rw [hdue, hduty', Nat.add_zero]
  refine ⟨h.toRegistered.taken hr reason, haccount, fun r' hr' => ?_⟩
  have hother : r ≠ r' := fun hsame => absurd hlt (by rw [hsame]; exact Nat.not_lt.mpr hr')
  have hduty : SupervisorCall.completes r' (.logoff r reason .cancel) = 0 := if_neg hother
  have hduty' : SupervisorCall.announces r' (.logoff r reason .cancel) = 0 := if_neg hother
  rw [due_taken, due_taken, hduty, hduty', Nat.add_zero, Nat.add_zero]
  exact h.fresh r' hr'

theorem Balanced.stopNone (h : s.Balanced) (hnone : s.active = []) (reason : String) :
    Balanced { s with sessions := ∅, calls := s.calls ++ [.stopping [] reason false] } := by
  have hempty : s.sessions.entries = [] := map_eq_nil_iff.mp hnone
  have hlookup : ∀ id r, s.sessions.lookup id ≠ some r := fun id r hsome => by
    have hmem := AList.mem_lookup_iff.mp hsome
    rw [hempty] at hmem
    exact not_mem_nil hmem
  have hdue : ∀ f : SupervisorCall → ℕ, f (.stopping [] reason false) = 0 →
      due { s with sessions := ∅, calls := s.calls ++ [.stopping [] reason false] } f = s.due f := fun f hf => by
    rw [due_append, hf, Nat.add_zero]
  have horder : ([] : List ℕ).Perm s.active := by rw [hnone]
  refine ⟨h.toRegistered.stopAll horder reason, fun r rec hrec => ?_, fun r hr => ?_⟩
  · refine (h.account r rec hrec).of_eq ?_ (hdue _ rfl) (hdue _ rfl)
    constructor
    · exact nofun
    · exact fun hin => absurd hin (hlookup _ _)
  · rw [hdue _ rfl, hdue _ rfl]
    exact h.fresh r hr

theorem Balanced.register (h : s.Balanced) {p : RDSSessionStartPolicy} (hk : s.calls[k]? = some (.policyChecked p))
    (habsent : s.sessions.lookup p.wtsSessionID = none) (client : RecorderClient) : Balanced
      { s.setCall k .over with
        recordings :=
          s.recordings ++ [{ wtsSessionID := p.wtsSessionID, coreSessionID := p.sessionID, recorder := client }]
        sessions := s.sessions.insert p.wtsSessionID s.recordings.length } := by
  have hsame : SameBooks s (s.setCall k .over) := sameBooks_setCall hk (idle_policyChecked p) idle_over
  refine ⟨h.toRegistered.register hk habsent client, fun r rec hrec => ?_, fun r hr => ?_⟩
  · by_cases hr : r < s.recordings.length
    · have hold : s.recordings[r]? = some rec := (getElem?_append_left hr).symm.trans hrec
      refine (h.account r rec hold).of_eq ?_ (hsame.completes r) (hsame.announces r)
      by_cases hid : rec.wtsSessionID = p.wtsSessionID
      · rw [hid, AList.lookup_insert, habsent]
        constructor
        · intro hnew
          have hlength := Option.some.inj hnew
          omega
        · exact nofun
      · rw [AList.lookup_insert_ne hid]
    · have hlength := (List.getElem?_eq_some_iff.mp hrec).1
      rw [length_append, length_singleton] at hlength
      obtain rfl : r = s.recordings.length := by omega
      rw [getElem?_concat_length] at hrec
      cases hrec
      obtain ⟨hcompletes, hannounces⟩ := h.fresh s.recordings.length le_rfl
      have hcompletes' := (hsame.completes s.recordings.length).trans hcompletes
      have hannounces' := (hsame.announces s.recordings.length).trans hannounces
      have hentry : (s.sessions.insert p.wtsSessionID s.recordings.length).lookup p.wtsSessionID =
          some s.recordings.length := AList.lookup_insert _
      exact account_start hcompletes' hannounces' hentry rfl rfl rfl
  · rw [length_append, length_singleton] at hr
    have hold := h.fresh r (by omega)
    exact ⟨(hsame.completes r).trans hold.1, (hsame.announces r).trans hold.2⟩

theorem Progress.balance (h : Progress c c' r f) (rec : RDSRecording) :
    (f rec).completions.length + c'.completes r = rec.completions.length + c.completes r ∧
      (f rec).ends.length + c'.announces r = rec.ends.length + c.announces r := by
  cases h with
  | cancel | cancelNext => exact ⟨rfl, rfl⟩
  | complete _ reason =>
    have hbefore : SupervisorCall.completes r (.logoff r reason .complete) = 1 := if_pos rfl
    have hafter : SupervisorCall.completes r (.logoff r reason .announce) = 0 := rfl
    refine ⟨?_, rfl⟩
    rw [hbefore, hafter, length_append, length_singleton]
  | announce _ reason =>
    have hbefore : SupervisorCall.announces r (.logoff r reason .announce) = 1 := if_pos rfl
    have hafter : SupervisorCall.announces r .over = 0 := rfl
    refine ⟨rfl, ?_⟩
    rw [hbefore, hafter, length_append, length_singleton]
  | completeNext _ rs reason =>
    have hbefore : SupervisorCall.completes r (.stopping (r :: rs) reason true) = rs.count r + 1 := count_cons_self
    have hafter : SupervisorCall.completes r (.stopping rs reason false) = rs.count r := rfl
    refine ⟨?_, rfl⟩
    rw [hbefore, hafter, length_append, length_singleton]
    omega

theorem Progress.others (h : Progress c c' r f) {r' : ℕ} (hr : r ≠ r') :
    c'.completes r' = c.completes r' ∧ c'.announces r' = c.announces r' := by
  cases h with
  | cancel | cancelNext => exact ⟨rfl, rfl⟩
  | complete => exact ⟨(if_neg hr).symm, rfl⟩
  | announce => exact ⟨rfl, (if_neg hr).symm⟩
  | completeNext => exact ⟨(count_cons_of_ne hr).symm, rfl⟩

theorem Progress.fewer (h : Progress c c' r f) (r' : ℕ) :
    c'.completes r' ≤ c.completes r' ∧ c'.announces r' ≤ c.announces r' := by
  cases h with
  | cancel | cancelNext => exact ⟨le_rfl, le_rfl⟩
  | complete => exact ⟨Nat.zero_le _, le_rfl⟩
  | announce => exact ⟨Nat.zero_le _, Nat.zero_le _⟩
  | completeNext => exact ⟨count_le_count_cons, le_rfl⟩

theorem Balanced.progress (h : s.Balanced) (hk : s.calls[k]? = some c) (hduty : Progress c c' r f) :
    ((s.setCall k c').onRecording r f).Balanced := by
  have hcompletes : ∀ r', (s.setCall k c').due (·.completes r') + c.completes r' =
      s.due (·.completes r') + c'.completes r' := fun r' => due_setCall hk (·.completes r')
  have hannounces : ∀ r', (s.setCall k c').due (·.announces r') + c.announces r' =
      s.due (·.announces r') + c'.announces r' := fun r' => due_setCall hk (·.announces r')
  refine ⟨h.toRegistered.progress hk hduty, fun r' rec' hrec' => ?_, fun r' hr' => ?_⟩
  · obtain ⟨rec, hrec, hchanged⟩ := getElem?_onRecording hrec'
    have hbefore := h.account r' rec hrec
    have hcompletions := hbefore.completions
    have hends := hbefore.ends
    have hcompletes' := hcompletes r'
    have hannounces' := hannounces r'
    by_cases hr : r = r'
    · subst hr
      rw [if_pos rfl] at hchanged
      subst hchanged
      obtain ⟨hwts, hreturned, -⟩ := hduty.keeps rec
      obtain ⟨hdone, hdone'⟩ := hduty.balance rec
      have hentry : ((s.setCall k c').onRecording r f).entry r (f rec) = s.entry r rec := by
        unfold entry
        rw [hwts]
        rfl
      refine ⟨?_, ?_, ?_⟩
      · rw [hentry]
        change (f rec).completions.length + (s.setCall k c').due (·.completes r) + s.entry r rec = 1
        omega
      · rw [hentry]
        change (f rec).ends.length + (s.setCall k c').due (·.announces r) + s.entry r rec = 1
        omega
      · rw [hwts, hreturned]
        exact hbefore.running
    · rw [if_neg hr] at hchanged
      subst hchanged
      obtain ⟨hsame, hsame'⟩ := hduty.others hr
      exact hbefore.of_eq Iff.rfl (by change (s.setCall k c').due _ = _; omega)
        (by change (s.setCall k c').due _ = _; omega)
  · have hlength : ((s.setCall k c').onRecording r f).recordings.length = s.recordings.length :=
      length_modify f s.recordings r
    rw [hlength] at hr'
    obtain ⟨hzero, hzero'⟩ := h.fresh r' hr'
    obtain ⟨hfewer, hfewer'⟩ := hduty.fewer r'
    have hcompletes' := hcompletes r'
    have hannounces' := hannounces r'
    constructor
    · change (s.setCall k c').due (·.completes r') = 0
      omega
    · change (s.setCall k c').due (·.announces r') = 0
      omega

theorem Balanced.returns (h : s.Balanced) {rec : RDSRecording} (hr : s.recordings[r]? = some rec)
    (hout : s.sessions.lookup rec.wtsSessionID ≠ some r) : (s.returns r rec).Balanced := by
  have hlt : r < s.recordings.length := (List.getElem?_eq_some_iff.mp hr).1
  have hsessions : (s.returns r rec).sessions = s.sessions := if_neg hout
  refine ⟨h.toRegistered.returns hr, fun r' rec' hrec' => ?_, fun r' hr' => ?_⟩
  · by_cases hsame : r = r'
    · subst hsame
      have hset : (s.returns r rec).recordings[r]? = some { rec with returned := true } := getElem?_set_self hlt
      rw [hset] at hrec'
      cases hrec'
      have hbefore := h.account r rec hr
      have hentry : (s.returns r rec).entry r { rec with returned := true } = s.entry r rec := by
        unfold entry
        rw [hsessions]
      refine ⟨?_, ?_, fun hlookup => ?_⟩
      · rw [hentry]
        exact hbefore.completions
      · rw [hentry]
        exact hbefore.ends
      · rw [hsessions] at hlookup
        exact absurd hlookup hout
    · have hold : s.recordings[r']? = some rec' := (getElem?_set_ne hsame).symm.trans hrec'
      exact (h.account r' rec' hold).of_eq (by rw [hsessions]) rfl rfl
  · have hlength : (s.returns r rec).recordings.length = s.recordings.length := length_set
    rw [hlength] at hr'
    exact h.fresh r' hr'

theorem Balanced.step (h : s.Balanced) {a : SupervisorAction} (hgood : s.EndsByLogoff a)
    (hmoves : Moves s a t) : t.Balanced := by
  cases hmoves with
  | same hsame => exact h.of_same hsame
  | taken hsame _ reason _ hr => exact (h.of_same hsame).taken hr reason
  | stopAll reason _ ha horder =>
    subst ha
    have hnone : s.active = [] := hgood
    rw [hnone] at horder
    obtain rfl := horder.eq_nil
    exact h.stopNone hnone reason
  | registered _ _ p client ha hk hclient =>
    subst ha
    exact h.register hk (hgood p hk (sessionID_ne_of_newRecorderClient hclient)) client
  | progress _ hk hduty => exact h.progress hk hduty
  | returns _ rec ha hr =>
    subst ha
    exact h.returns hr (hgood rec hr)

theorem balanced_start : Balanced {} where
  toRegistered := registered_start
  account := fun _ _ hrec => absurd hrec (by simp)
  fresh := fun _ _ => ⟨rfl, rfl⟩

/-- A recording is completed and its end is sent at most once; neither has been done while the recording is in
the map, where its run goes on; both have been done when it is not and no call in flight is at work on it. -/
def ClosedOnce (s : RDSSupervisor) : Prop :=
  ∀ r rec, s.recordings[r]? = some rec →
    rec.completions.length ≤ 1 ∧ rec.ends.length ≤ 1 ∧
      (s.sessions.lookup rec.wtsSessionID = some r → rec.returned = false ∧ rec.completions = [] ∧ rec.ends = []) ∧
      (s.sessions.lookup rec.wtsSessionID ≠ some r → s.due (·.completes r) = 0 → s.due (·.announces r) = 0 →
        rec.completions.length = 1 ∧ rec.ends.length = 1)

theorem Balanced.closedOnce (h : s.Balanced) : s.ClosedOnce := by
  intro r rec hrec
  have haccount := h.account r rec hrec
  have hcompletions := haccount.completions
  have hends := haccount.ends
  refine ⟨by omega, by omega, fun hin => ?_, fun hout hcompletes hannounces => ?_⟩
  · have hentry : s.entry r rec = 1 := if_pos hin
    exact ⟨haccount.running hin, eq_nil_of_length_eq_zero (by omega), eq_nil_of_length_eq_zero (by omega)⟩
  · have hentry : s.entry r rec = 0 := if_neg hout
    exact ⟨by omega, by omega⟩

end RDSSupervisor

open RDSSupervisor

/-- In a run in which recordings end by a logoff only, every recording is completed exactly once and its end
is sent exactly once. -/
theorem recordings_closed_once {s : RDSSupervisor} {ms : List CoreMessage}
    (h : rdsSupervisor.Reach (fun s _ a => s.EndsByLogoff a) {} s ms) : s.ClosedOnce := by
  have hbalanced : s.Balanced := h.invariant (fun s _ => s.Balanced) balanced_start
    fun _ _ _ _ _ hs hgood hstep => hs.step hgood (moves_of_step hstep)
  exact hbalanced.closedOnce

/-- The pipe of a recording closes: it leaves the map without `Complete` and without its end. -/
theorem pipe_exit_leaves_recording_open :
    ¬ ∀ (s : RDSSupervisor) (ms : List CoreMessage), rdsSupervisor.Reach (fun _ _ _ => True) {} s ms →
      s.ClosedOnce := by
  intro hclaim
  have hexits : ∃ e ∈ rdsSupervisor.exec (fun _ _ _ => true) {} []
      [.applyPolicy samplePolicy, .resume 0 0, .returns 0],
      (e.1.recordings[0]?.any fun rec => rec.completions.isEmpty) = true ∧ e.1.sessions.entries.length = 0 ∧
        e.1.due (·.completes 0) = 0 ∧ e.1.due (·.announces 0) = 0 := by decide +kernel
  obtain ⟨⟨s, ms⟩, hexec, hfirst, hempty, hcompletes, hannounces⟩ := hexits
  obtain ⟨rec, hrec, hopen⟩ := (Option.any_eq_true _ _).mp hfirst
  have hout : s.sessions.lookup rec.wtsSessionID ≠ some 0 := fun hin => by
    have hmem := AList.mem_lookup_iff.mp hin
    rw [eq_nil_of_length_eq_zero hempty] at hmem
    exact not_mem_nil hmem
  have hclosed := (hclaim s ms (Machine.reach_of_exec (fun _ _ _ _ => trivial) hexec) 0 rec hrec).2.2.2 hout
    hcompletes hannounces
  rw [List.isEmpty_iff.mp hopen] at hclosed
  cases hclosed.1

/-- `EndsByLogoff`, evaluated. -/
def RDSSupervisor.endsByLogoff (s : RDSSupervisor) : SupervisorAction → Bool
  | .returns r => s.recordings[r]?.all fun rec => s.sessions.lookup rec.wtsSessionID ≠ some r
  | .stopAll _ _ => s.active.isEmpty
  | a => s.registersAbsent a

theorem RDSSupervisor.endsByLogoff_of {s : RDSSupervisor} {a : SupervisorAction} (h : s.endsByLogoff a = true) :
    s.EndsByLogoff a := by
  cases a with
  | returns =>
    intro rec hrec
    unfold RDSSupervisor.endsByLogoff at h
    dsimp only at h
    rw [hrec, Option.all_some, decide_eq_true_eq] at h
    exact h
  | stopAll => exact List.isEmpty_iff.mp h
  | resume k now => exact registersAbsent_of (a := .resume k now) h
  | _ => trivial

/-- A session is recorded until its user logs off. -/
theorem recordings_closed_once_sample :
    ∃ s : RDSSupervisor, (s.recordings[0]?.any fun rec => rec.returned && rec.ends == ["logoff"]) = true ∧
      s.ClosedOnce := by
  have hlogoff : ∃ e ∈ rdsSupervisor.exec (fun s _ a => s.endsByLogoff a) {} []
      [.applyPolicy samplePolicy, .resume 0 0, .logoff 2 "logoff", .resume 1 0, .returns 0, .resume 1 0,
        .resume 1 0],
      (e.1.recordings[0]?.any fun rec => rec.returned && rec.ends == ["logoff"]) = true := by decide +kernel
  obtain ⟨⟨s, ms⟩, hexec, hended⟩ := hlogoff
  have hrun : rdsSupervisor.Reach (fun s _ a => s.EndsByLogoff a) {} s ms :=
    Machine.reach_of_exec (fun _ _ _ => endsByLogoff_of) hexec
  exact ⟨s, hended, recordings_closed_once hrun⟩

end LigamentApps.LinkAgent
