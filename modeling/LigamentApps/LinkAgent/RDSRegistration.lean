import Mathlib.Algebra.BigOperators.Group.List.Basic
import LigamentApps.LinkAgent.RDSSupervisor

/-!
# Recordings and the supervisor's map

What one step of the supervisor does to the recordings, the map and the duties of the calls in flight; and
that a recording which nobody stops is the one of the map, where a policy registers only a session that the
map does not have. -/

namespace LigamentApps.LinkAgent

open List Option Bool

variable {f : RDSRecording → RDSRecording} {a : SupervisorAction} {r : ℕ}

/-! ## The duties of the calls in flight -/

namespace SupervisorCall

/-- How often a call is going to cancel a recording. -/
def cancels (r : ℕ) : SupervisorCall → ℕ
  | .logoff r' _ .cancel => if r' = r then 1 else 0
  | .stopping rs _ firstCancelled => (if firstCancelled then rs.tail else rs).count r
  | _ => 0

/-- How often a call is going to complete a recording. -/
def completes (r : ℕ) : SupervisorCall → ℕ
  | .logoff _ _ .announce => 0
  | .logoff r' _ _ => if r' = r then 1 else 0
  | .stopping rs _ _ => rs.count r
  | _ => 0

/-- How often a call is going to send the end of a recording. -/
def announces (r : ℕ) : SupervisorCall → ℕ
  | .logoff r' _ _ => if r' = r then 1 else 0
  | _ => 0

end SupervisorCall

theorem sum_map_set {α : Type} (f : α → ℕ) {l : List α} {k : ℕ} {c c' : α} (hk : l[k]? = some c) :
    ((l.set k c').map f).sum + f c = (l.map f).sum + f c' := by
  induction l generalizing k with
  | nil => simp at hk
  | cons _ _ ih =>
    cases k with
    | zero =>
      cases hk
      rw [set_cons_zero, map_cons, map_cons, sum_cons, sum_cons]
      omega
    | succ k =>
      have hrest := ih hk
      rw [set_cons_succ, map_cons, map_cons, sum_cons, sum_cons]
      omega

namespace RDSSupervisor

/-- How often the calls in flight are going to do something. -/
def due (s : RDSSupervisor) (f : SupervisorCall → ℕ) : ℕ := (s.calls.map f).sum

/-- Neither the recordings nor the map nor the duties of the calls differ. -/
structure SameBooks (s t : RDSSupervisor) : Prop where
  recordings : t.recordings = s.recordings
  sessions : t.sessions = s.sessions
  cancels : ∀ r, t.due (·.cancels r) = s.due (·.cancels r)
  completes : ∀ r, t.due (·.completes r) = s.due (·.completes r)
  announces : ∀ r, t.due (·.announces r) = s.due (·.announces r)

variable {s t : RDSSupervisor} {k : ℕ} {c c' : SupervisorCall}

theorem due_setCall (hk : s.calls[k]? = some c) (f : SupervisorCall → ℕ) :
    (s.setCall k c').due f + f c = s.due f + f c' := sum_map_set f hk

theorem due_append (f : SupervisorCall → ℕ) (m : AList fun _ : UInt32 => ℕ) :
    due { s with sessions := m, calls := s.calls ++ [c] } f = s.due f + f c := by
  unfold due
  rw [map_append, sum_append, map_singleton, sum_singleton]

theorem SameBooks.refl (s : RDSSupervisor) : SameBooks s s := ⟨rfl, rfl, fun _ => rfl, fun _ => rfl, fun _ => rfl⟩

/-- A call has no duty towards the recordings. -/
def Idle (c : SupervisorCall) : Prop := ∀ r, c.cancels r = 0 ∧ c.completes r = 0 ∧ c.announces r = 0

theorem idle_policyChecked (p : RDSSessionStartPolicy) : Idle (.policyChecked p) := fun _ => ⟨rfl, rfl, rfl⟩
theorem idle_syncing (rest : List WTSSession) (activeIDs : List UInt32) : Idle (.syncing rest activeIDs) :=
  fun _ => ⟨rfl, rfl, rfl⟩
theorem idle_stale (ids : List UInt32) : Idle (.stale ids) := fun _ => ⟨rfl, rfl, rfl⟩
theorem idle_over : Idle .over := fun _ => ⟨rfl, rfl, rfl⟩
theorem idle_stopping_nil (reason : String) (firstCancelled : Bool) : Idle (.stopping [] reason firstCancelled) :=
  fun r => ⟨by cases firstCancelled <;> rfl, rfl, rfl⟩

theorem sameBooks_append (hc : Idle c) : SameBooks s { s with calls := s.calls ++ [c] } := by
  refine ⟨rfl, rfl, fun r => ?_, fun r => ?_, fun r => ?_⟩
  · exact (due_append (·.cancels r) s.sessions).trans (by rw [(hc r).1, Nat.add_zero])
  · exact (due_append (·.completes r) s.sessions).trans (by rw [(hc r).2.1, Nat.add_zero])
  · exact (due_append (·.announces r) s.sessions).trans (by rw [(hc r).2.2, Nat.add_zero])

theorem sameBooks_setCall (hk : s.calls[k]? = some c) (hc : Idle c) (hc' : Idle c') :
    SameBooks s (s.setCall k c') := by
  refine ⟨rfl, rfl, fun r => ?_, fun r => ?_, fun r => ?_⟩
  · have hdue : (s.setCall k c').due (·.cancels r) + c.cancels r = s.due (·.cancels r) + c'.cancels r :=
      due_setCall hk (·.cancels r)
    rw [(hc r).1, (hc' r).1] at hdue
    exact hdue
  · have hdue : (s.setCall k c').due (·.completes r) + c.completes r = s.due (·.completes r) + c'.completes r :=
      due_setCall hk (·.completes r)
    rw [(hc r).2.1, (hc' r).2.1] at hdue
    exact hdue
  · have hdue : (s.setCall k c').due (·.announces r) + c.announces r = s.due (·.announces r) + c'.announces r :=
      due_setCall hk (·.announces r)
    rw [(hc r).2.2, (hc' r).2.2] at hdue
    exact hdue

/-! ## What a step does -/

/-- A call that ends recordings does its next duty, `f`, on the recording `r`. -/
inductive Progress : SupervisorCall → SupervisorCall → ℕ → (RDSRecording → RDSRecording) → Prop
  | cancel (r : ℕ) (reason : String) :
    Progress (.logoff r reason .cancel) (.logoff r reason .complete) r fun rec => { rec with cancelled := true }
  | complete (r : ℕ) (reason : String) :
    Progress (.logoff r reason .complete) (.logoff r reason .announce) r fun rec =>
      { rec with completions := rec.completions ++ [reason] }
  | announce (r : ℕ) (reason : String) :
    Progress (.logoff r reason .announce) .over r fun rec => { rec with ends := rec.ends ++ [reason] }
  | cancelNext (r : ℕ) (rs : List ℕ) (reason : String) :
    Progress (.stopping (r :: rs) reason false) (.stopping (r :: rs) reason true) r fun rec =>
      { rec with cancelled := true }
  | completeNext (r : ℕ) (rs : List ℕ) (reason : String) :
    Progress (.stopping (r :: rs) reason true) (.stopping rs reason false) r fun rec =>
      { rec with completions := rec.completions ++ [reason] }

/-- What a step does to the books. -/
inductive Moves (s : RDSSupervisor) (a : SupervisorAction) : RDSSupervisor → Prop
  | same {t : RDSSupervisor} (hsame : SameBooks s t) : Moves s a t
  /-- A recording is taken off the map by a logoff. -/
  | taken {u : RDSSupervisor} (hsame : SameBooks s u) (sessionID : UInt32) (reason : String) (r : ℕ)
      (hr : u.sessions.lookup sessionID = some r) :
    Moves s a { u with sessions := u.sessions.erase sessionID, calls := u.calls ++ [.logoff r reason .cancel] }
  | stopAll (reason : String) (order : List ℕ) (ha : a = .stopAll reason order) (horder : order.Perm s.active) :
    Moves s a { s with sessions := ∅, calls := s.calls ++ [.stopping order reason false] }
  | registered (k : ℕ) (now : ℤ) (p : RDSSessionStartPolicy) (client : RecorderClient) (ha : a = .resume k now)
      (hk : s.calls[k]? = some (.policyChecked p))
      (hclient : newRecorderClient (recorderConfig p) now = .ok client) :
    Moves s a
      { s.setCall k .over with
        recordings :=
          s.recordings ++ [{ wtsSessionID := p.wtsSessionID, coreSessionID := p.sessionID, recorder := client }]
        sessions := s.sessions.insert p.wtsSessionID s.recordings.length }
  | progress (k : ℕ) {c c' : SupervisorCall} {r : ℕ} {f : RDSRecording → RDSRecording}
      (hk : s.calls[k]? = some c) (hduty : Progress c c' r f) : Moves s a ((s.setCall k c').onRecording r f)
  | returns (r : ℕ) (rec : RDSRecording) (ha : a = .returns r) (hr : s.recordings[r]? = some rec)
      (hrunning : rec.returned = false) : Moves s a (s.returns r rec)

theorem moves_handleSessionLogoff {u : RDSSupervisor} (hsame : SameBooks s u) (sessionID : UInt32)
    (reason : String) : Moves s a (u.handleSessionLogoff sessionID reason) := by
  unfold handleSessionLogoff
  split
  · exact .same hsame
  · rename_i r hr
    exact .taken hsame sessionID reason r hr

theorem moves_resume {now : ℤ} {ms : List CoreMessage} (hk : s.calls[k]? = some c)
    (h : s.resume k now c = some (t, ms)) : Moves s (.resume k now) t := by
  unfold resume at h
  split at h
  · rename_i p
    cases h
    unfold register
    split
    · exact .same (sameBooks_setCall hk (idle_policyChecked p) idle_over)
    · rename_i client hclient
      exact .registered k now p client rfl hk hclient
  · split at h
    · cases h
      exact .same (sameBooks_setCall hk (idle_syncing _ _) (idle_syncing _ _))
    · cases h
      exact .same (sameBooks_setCall hk (idle_syncing _ _) (idle_syncing _ _))
  · simp at h
  · rename_i id ids
    cases h
    exact moves_handleSessionLogoff (sameBooks_setCall hk (idle_stale _) (idle_stale _)) id _
  · cases h
    exact .same (sameBooks_setCall hk (idle_stale _) idle_over)
  · rename_i r reason
    cases h
    exact .progress k hk (.cancel r reason)
  · rename_i r reason
    cases h
    exact .progress k hk (.complete r reason)
  · rename_i r reason
    cases h
    exact .progress k hk (.announce r reason)
  · rename_i r rs reason
    cases h
    exact .progress k hk (.cancelNext r rs reason)
  · rename_i r rs reason
    cases h
    exact .progress k hk (.completeNext r rs reason)
  · cases h
    exact .same (sameBooks_setCall hk (idle_stopping_nil _ _) idle_over)
  · simp at h

theorem moves_of_step {ms : List CoreMessage} (h : rdsSupervisor.step s a = some (t, ms)) : Moves s a t := by
  cases a with
  | logon =>
    cases h
    exact .same (.refl s)
  | sync =>
    cases h
    exact .same (sameBooks_append (idle_syncing _ _))
  | collectStale k ids =>
    dsimp only [rdsSupervisor] at h
    split at h
    · rename_i activeIDs hk
      split at h
      · cases h
        exact .same (sameBooks_setCall hk (idle_syncing _ _) (idle_stale _))
      · simp at h
    · simp at h
  | logoff sessionID reason =>
    cases h
    exact moves_handleSessionLogoff (.refl s) sessionID reason
  | applyPolicy p =>
    cases h
    unfold applySessionPolicy
    split
    · exact .same (.refl s)
    · split
      · exact .same (.refl s)
      · exact .same (sameBooks_append (idle_policyChecked p))
  | stopAll reason order =>
    dsimp only [rdsSupervisor] at h
    split at h
    · rename_i horder
      cases h
      exact .stopAll reason order rfl horder
    · simp at h
  | returns r =>
    dsimp only [rdsSupervisor] at h
    split at h
    · rename_i rec hr
      split at h
      · simp at h
      · rename_i hrunning
        cases h
        exact .returns r rec rfl hr (eq_false_iff.mpr hrunning)
    · simp at h
  | resume =>
    obtain ⟨c, hk, hresume⟩ := bind_eq_some_iff.mp h
    exact moves_resume hk hresume

/-! ## The map and the recordings -/

/-- A recording exists: its run has not returned, its context is not cancelled, and no logoff or `StopAll` in
flight is going to cancel it. -/
structure Live (s : RDSSupervisor) (r : ℕ) (rec : RDSRecording) : Prop where
  started : s.recordings[r]? = some rec
  running : rec.returned = false
  uncancelled : rec.cancelled = false
  unclaimed : s.due (·.cancels r) = 0

/-- The map and the recordings fit together. -/
structure Registered (s : RDSSupervisor) : Prop where
  entries : ∀ sessionID r, s.sessions.lookup sessionID = some r →
    ∃ rec, s.recordings[r]? = some rec ∧ rec.wtsSessionID = sessionID
  live : ∀ r rec, s.Live r rec → s.sessions.lookup rec.wtsSessionID = some r

/-- The condition of a step: a policy enters a session that the map does not have. -/
def RegistersAbsent (s : RDSSupervisor) : SupervisorAction → Prop
  | .resume k _ => ∀ p, s.calls[k]? = some (.policyChecked p) → p.sessionID ≠ "" →
    s.sessions.lookup p.wtsSessionID = none
  | _ => True

theorem SameBooks.live (h : SameBooks s t) {rec : RDSRecording} (hlive : t.Live r rec) : s.Live r rec :=
  ⟨h.recordings ▸ hlive.started, hlive.running, hlive.uncancelled, (h.cancels r).symm.trans hlive.unclaimed⟩

theorem Registered.of_same (h : s.Registered) (hsame : SameBooks s t) : t.Registered where
  entries := by
    rw [hsame.sessions, hsame.recordings]
    exact h.entries
  live := fun r rec hlive => by
    rw [hsame.sessions]
    exact h.live r rec (hsame.live hlive)

theorem Registered.taken (h : s.Registered) {sessionID : UInt32}
    (hr : s.sessions.lookup sessionID = some r) (reason : String) : Registered
      { s with sessions := s.sessions.erase sessionID, calls := s.calls ++ [.logoff r reason .cancel] } := by
  constructor
  · intro id r' hlookup
    by_cases hid : id = sessionID
    · rw [hid, AList.lookup_erase] at hlookup
      simp at hlookup
    · rw [AList.lookup_erase_ne hid] at hlookup
      exact h.entries id r' hlookup
  · intro r' rec hlive
    have hdue := hlive.unclaimed
    rw [due_append] at hdue
    have hclaim : SupervisorCall.cancels r' (.logoff r reason .cancel) = 0 := by omega
    have hother : r ≠ r' := fun hsame => by
      rw [hsame] at hclaim
      simp [SupervisorCall.cancels] at hclaim
    have hbefore := h.live r' rec ⟨hlive.started, hlive.running, hlive.uncancelled, by omega⟩
    have hid : rec.wtsSessionID ≠ sessionID := fun hsame => by
      rw [hsame, hr] at hbefore
      exact hother (Option.some.inj hbefore)
    exact (AList.lookup_erase_ne hid).trans hbefore

theorem Registered.stopAll (h : s.Registered) {order : List ℕ} (horder : order.Perm s.active) (reason : String) :
    Registered { s with sessions := ∅, calls := s.calls ++ [.stopping order reason false] } := by
  constructor
  · intro id r hlookup
    simp at hlookup
  · intro r rec hlive
    have hdue := hlive.unclaimed
    rw [due_append] at hdue
    have hclaim : SupervisorCall.cancels r (.stopping order reason false) = 0 := by omega
    have hbefore := h.live r rec ⟨hlive.started, hlive.running, hlive.uncancelled, by omega⟩
    have hactive : r ∈ s.active := List.mem_map.mpr ⟨_, AList.mem_lookup_iff.mp hbefore, rfl⟩
    exact absurd (horder.mem_iff.mpr hactive) (count_eq_zero.mp hclaim)

theorem Registered.register (h : s.Registered) {p : RDSSessionStartPolicy} (hk : s.calls[k]? = some (.policyChecked p))
    (habsent : s.sessions.lookup p.wtsSessionID = none) (client : RecorderClient) : Registered
      { s.setCall k .over with
        recordings :=
          s.recordings ++ [{ wtsSessionID := p.wtsSessionID, coreSessionID := p.sessionID, recorder := client }]
        sessions := s.sessions.insert p.wtsSessionID s.recordings.length } := by
  constructor
  · intro id r hlookup
    by_cases hid : id = p.wtsSessionID
    · rw [hid, AList.lookup_insert] at hlookup
      cases hlookup
      exact ⟨_, getElem?_concat_length, hid.symm⟩
    · rw [AList.lookup_insert_ne hid] at hlookup
      obtain ⟨rec, hrec, hwts⟩ := h.entries id r hlookup
      exact ⟨rec, (getElem?_append_left (List.getElem?_eq_some_iff.mp hrec).1).trans hrec, hwts⟩
  · intro r rec hlive
    have hstarted := hlive.started
    have hsame : SameBooks s (s.setCall k .over) := sameBooks_setCall hk (idle_policyChecked p) idle_over
    have hdue := hsame.cancels r
    by_cases hr : r < s.recordings.length
    · have hold : s.recordings[r]? = some rec := (getElem?_append_left hr).symm.trans hstarted
      have hbefore := h.live r rec ⟨hold, hlive.running, hlive.uncancelled, hdue.symm.trans hlive.unclaimed⟩
      have hid : rec.wtsSessionID ≠ p.wtsSessionID := fun hsame => by
        rw [hsame, habsent] at hbefore
        simp at hbefore
      exact (AList.lookup_insert_ne hid).trans hbefore
    · have hlength := (List.getElem?_eq_some_iff.mp hstarted).1
      rw [length_append, length_singleton] at hlength
      obtain rfl : r = s.recordings.length := by omega
      rw [getElem?_concat_length] at hstarted
      cases hstarted
      exact AList.lookup_insert _

theorem Progress.keeps (h : Progress c c' r f) (rec : RDSRecording) :
    (f rec).wtsSessionID = rec.wtsSessionID ∧ (f rec).returned = rec.returned ∧
      ((f rec).cancelled = false → rec.cancelled = false) := by
  cases h with
  | cancel | cancelNext => exact ⟨rfl, rfl, nofun⟩
  | complete | announce | completeNext => exact ⟨rfl, rfl, id⟩

theorem Progress.cancels (h : Progress c c' r f) (r' : ℕ) :
    c.cancels r' = c'.cancels r' ∨ (r' = r ∧ ∀ rec, (f rec).cancelled = true) := by
  cases h with
  | cancel =>
    by_cases hr : r' = r
    · exact .inr ⟨hr, fun _ => rfl⟩
    · exact .inl (if_neg fun hsame => hr hsame.symm)
  | complete | announce | completeNext => exact .inl rfl
  | cancelNext =>
    by_cases hr : r' = r
    · exact .inr ⟨hr, fun _ => rfl⟩
    · exact .inl (count_cons_of_ne fun hsame => hr hsame.symm)

theorem getElem?_onRecording {r' : ℕ} {rec' : RDSRecording}
    (h : (s.onRecording r f).recordings[r']? = some rec') :
    ∃ rec, s.recordings[r']? = some rec ∧ rec' = if r = r' then f rec else rec := by
  unfold onRecording at h
  rw [getElem?_modify] at h
  obtain ⟨rec, hrec, hpair⟩ := map_eq_some_iff.mp h
  refine ⟨rec, hrec, hpair.symm.trans ?_⟩
  split
  · rfl
  · rfl

theorem Registered.progress (h : s.Registered) (hk : s.calls[k]? = some c) (hduty : Progress c c' r f) :
    ((s.setCall k c').onRecording r f).Registered := by
  constructor
  · intro id r' hlookup
    obtain ⟨rec, hrec, hwts⟩ := h.entries id r' hlookup
    have hafter : ((s.setCall k c').onRecording r f).recordings[r']? = some (if r = r' then f rec else rec) := by
      change (s.recordings.modify r f)[r']? = _
      rw [getElem?_modify, hrec]
      rfl
    refine ⟨_, hafter, ?_⟩
    split
    · exact (hduty.keeps rec).1.trans hwts
    · exact hwts
  · intro r' rec' hlive
    obtain ⟨rec, hrec, hchanged⟩ := getElem?_onRecording hlive.started
    have hsame : rec'.wtsSessionID = rec.wtsSessionID ∧ rec'.returned = rec.returned ∧
        (rec'.cancelled = false → rec.cancelled = false) := by
      rw [hchanged]
      split
      · exact hduty.keeps rec
      · exact ⟨rfl, rfl, id⟩
    have hdue : (s.setCall k c').due (·.cancels r') + c.cancels r' = s.due (·.cancels r') + c'.cancels r' :=
      due_setCall hk (·.cancels r')
    have hunclaimed : (s.setCall k c').due (·.cancels r') = 0 := hlive.unclaimed
    rcases hduty.cancels r' with hkept | ⟨rfl, hcancelled⟩
    · have hbefore := h.live r' rec
        ⟨hrec, hsame.2.1.symm.trans hlive.running, hsame.2.2 hlive.uncancelled, by omega⟩
      rw [← hsame.1] at hbefore
      exact hbefore
    · have huncancelled := hlive.uncancelled
      rw [hchanged, if_pos rfl, hcancelled rec] at huncancelled
      simp at huncancelled

theorem Registered.returns (h : s.Registered) {rec : RDSRecording} (hr : s.recordings[r]? = some rec) :
    (s.returns r rec).Registered := by
  have hlt : r < s.recordings.length := (List.getElem?_eq_some_iff.mp hr).1
  constructor
  · intro id r' hlookup
    have hbefore : s.sessions.lookup id = some r' := by
      unfold RDSSupervisor.returns at hlookup
      split at hlookup
      · by_cases hid : id = rec.wtsSessionID
        · rw [hid, AList.lookup_erase] at hlookup
          simp at hlookup
        · rw [AList.lookup_erase_ne hid] at hlookup
          exact hlookup
      · exact hlookup
    obtain ⟨rec', hrec', hwts⟩ := h.entries id r' hbefore
    by_cases hsame : r = r'
    · subst hsame
      cases hr.symm.trans hrec'
      exact ⟨_, getElem?_set_self hlt, hwts⟩
    · exact ⟨rec', (getElem?_set_ne hsame).trans hrec', hwts⟩
  · intro r' rec' hlive
    have hother : r ≠ r' := fun hsame => by
      have hstarted := hlive.started
      subst hsame
      have hset : (s.returns r rec).recordings[r]? = some { rec with returned := true } := getElem?_set_self hlt
      rw [hset] at hstarted
      have hrunning := hlive.running
      rw [← Option.some.inj hstarted] at hrunning
      simp at hrunning
    have hstarted : s.recordings[r']? = some rec' := (getElem?_set_ne hother).symm.trans hlive.started
    have hbefore := h.live r' rec' ⟨hstarted, hlive.running, hlive.uncancelled, hlive.unclaimed⟩
    unfold RDSSupervisor.returns
    split
    · rename_i hcurrent
      have hid : rec'.wtsSessionID ≠ rec.wtsSessionID := fun hsame => by
        rw [hsame, hcurrent] at hbefore
        exact hother (Option.some.inj hbefore)
      exact (AList.lookup_erase_ne hid).trans hbefore
    · exact hbefore

theorem sessionID_ne_of_newRecorderClient {p : RDSSessionStartPolicy} {now : ℤ} {client : RecorderClient}
    (h : newRecorderClient (recorderConfig p) now = .ok client) : p.sessionID ≠ "" := by
  intro hempty
  unfold newRecorderClient at h
  rw [if_pos (show (recorderConfig p).sessionID = "" from hempty)] at h
  simp at h

theorem Registered.step (h : s.Registered) {a : SupervisorAction} (hgood : s.RegistersAbsent a)
    (hmoves : Moves s a t) : t.Registered := by
  cases hmoves with
  | same hsame => exact h.of_same hsame
  | taken hsame _ reason _ hr => exact (h.of_same hsame).taken hr reason
  | stopAll reason _ _ horder => exact h.stopAll horder reason
  | registered _ _ p client ha hk hclient =>
    subst ha
    exact h.register hk (hgood p hk (sessionID_ne_of_newRecorderClient hclient)) client
  | progress _ hk hduty => exact h.progress hk hduty
  | returns _ _ _ hr => exact h.returns hr

theorem registered_start : Registered {} := by
  constructor
  · intro id r hlookup
    simp at hlookup
  · intro r rec hlive
    exact absurd hlive.started (by simp)

end RDSSupervisor

open RDSSupervisor in
/-- In a run whose policies enter only sessions that the map does not have, a recording that exists is the one
of the map, so that there is at most one for a session, a logoff of its session leaves none, and `StopAll`
leaves none at all. -/
theorem one_recording_per_session {s : RDSSupervisor} {ms : List CoreMessage}
    (h : rdsSupervisor.Reach (fun s _ a => s.RegistersAbsent a) {} s ms) :
    (∀ r rec, s.Live r rec → s.sessions.lookup rec.wtsSessionID = some r) ∧
      (∀ r r' rec rec', s.Live r rec → s.Live r' rec' → rec.wtsSessionID = rec'.wtsSessionID → r = r') ∧
      (∀ sessionID reason t ns, rdsSupervisor.step s (.logoff sessionID reason) = some (t, ns) →
        ∀ r rec, t.Live r rec → rec.wtsSessionID ≠ sessionID) ∧
      ∀ reason order t ns, rdsSupervisor.step s (.stopAll reason order) = some (t, ns) →
        ∀ r rec, ¬ t.Live r rec := by
  have hreg : s.Registered := h.invariant (fun s _ => s.Registered) registered_start
    fun _ _ _ _ _ hs hgood hstep => hs.step hgood (moves_of_step hstep)
  refine ⟨hreg.live, ?_, ?_, ?_⟩
  · intro r r' rec rec' hlive hlive' hsame
    have hr := hreg.live r rec hlive
    rw [hsame, hreg.live r' rec' hlive'] at hr
    exact (Option.some.inj hr).symm
  · intro sessionID reason t ns hstep r rec hlive hsame
    have ht : t.Registered := hreg.step (a := .logoff sessionID reason) trivial (moves_of_step hstep)
    have hlookup := ht.live r rec hlive
    cases hstep
    unfold handleSessionLogoff at hlookup
    split at hlookup
    · rename_i hnone
      rw [hsame, hnone] at hlookup
      simp at hlookup
    · rw [hsame, AList.lookup_erase] at hlookup
      simp at hlookup
  · intro reason order t ns hstep r rec hlive
    have ht : t.Registered := hreg.step (a := .stopAll reason order) trivial (moves_of_step hstep)
    have hlookup := ht.live r rec hlive
    dsimp only [rdsSupervisor] at hstep
    split at hstep
    · cases hstep
      simp at hlookup
    · simp at hstep

open RDSSupervisor

def samplePolicy : RDSSessionStartPolicy where
  wtsSessionID := 2
  sessionID := "s"
  record := true
  recorderURL := "https://recorder/batch"
  ingestToken := "t"
  failurePolicy := ""

/-- A recording with this number is running for a session. -/
def RDSSupervisor.runs (s : RDSSupervisor) (r : ℕ) (sessionID : UInt32) : Bool :=
  (s.recordings[r]?.any fun rec => rec.wtsSessionID = sessionID && !rec.returned && !rec.cancelled) &&
    s.due (·.cancels r) = 0

theorem RDSSupervisor.live_of_runs {s : RDSSupervisor} {sessionID : UInt32}
    (h : s.runs r sessionID = true) : ∃ rec, s.Live r rec ∧ rec.wtsSessionID = sessionID := by
  unfold RDSSupervisor.runs at h
  rw [and_eq_true, Option.any_eq_true, decide_eq_true_eq] at h
  obtain ⟨⟨rec, hstarted, hrec⟩, hdue⟩ := h
  simp only [and_eq_true, decide_eq_true_eq, not_eq_true'] at hrec
  exact ⟨rec, ⟨hstarted, hrec.1.2, hrec.2, hdue⟩, hrec.1.1⟩

/-- Two deliveries of a policy have both found no recording when they enter theirs: the first recording is not
in the map. -/
theorem policies_start_two_recordings :
    ¬ ∀ (s : RDSSupervisor) (ms : List CoreMessage), rdsSupervisor.Reach (fun _ _ _ => True) {} s ms →
      (∀ r rec, s.Live r rec → s.sessions.lookup rec.wtsSessionID = some r) ∧
        ∀ r r' rec rec', s.Live r rec → s.Live r' rec' → rec.wtsSessionID = rec'.wtsSessionID → r = r' := by
  intro hclaim
  have hoverlap : ∃ e ∈ rdsSupervisor.exec (fun _ _ _ => true) {} []
      [.applyPolicy samplePolicy, .applyPolicy samplePolicy, .resume 0 0, .resume 1 0],
      e.1.runs 0 2 = true ∧ e.1.runs 1 2 = true := by decide +kernel
  obtain ⟨⟨s, ms⟩, hexec, hfirst, hsecond⟩ := hoverlap
  obtain ⟨rec, hlive, hsession⟩ := live_of_runs hfirst
  obtain ⟨rec', hlive', hsession'⟩ := live_of_runs hsecond
  have hone := (hclaim s ms (Machine.reach_of_exec (fun _ _ _ _ => trivial) hexec)).2
  cases hone 0 1 rec rec' hlive hlive' (hsession.trans hsession'.symm)

/-- `RegistersAbsent`, evaluated. -/
def RDSSupervisor.registersAbsent (s : RDSSupervisor) : SupervisorAction → Bool
  | .resume k _ =>
    match s.calls[k]? with
    | some (.policyChecked p) => (s.sessions.lookup p.wtsSessionID).isNone
    | _ => true
  | _ => true

theorem RDSSupervisor.registersAbsent_of {s : RDSSupervisor} (h : s.registersAbsent a = true) :
    s.RegistersAbsent a := by
  cases a with
  | resume =>
    intro p hk _
    unfold RDSSupervisor.registersAbsent at h
    dsimp only at h
    rw [hk] at h
    exact isNone_iff_eq_none.mp h
  | _ => trivial

/-- A session is recorded, ends at a logoff, and is recorded again. -/
theorem one_recording_per_session_sample : ∃ s : RDSSupervisor, s.recordings.length = 2 ∧ s.runs 1 2 = true ∧
      ∀ r rec, s.Live r rec → s.sessions.lookup rec.wtsSessionID = some r := by
  have hagain : ∃ e ∈ rdsSupervisor.exec (fun s _ a => s.registersAbsent a) {} []
      [.applyPolicy samplePolicy, .resume 0 0, .logoff 2 "logoff", .applyPolicy samplePolicy, .resume 1 0,
        .resume 2 0],
      e.1.recordings.length = 2 ∧ e.1.runs 1 2 = true := by decide +kernel
  obtain ⟨⟨s, ms⟩, hexec, hlength, hruns⟩ := hagain
  have hrun : rdsSupervisor.Reach (fun s _ a => s.RegistersAbsent a) {} s ms :=
    Machine.reach_of_exec (fun _ _ _ => registersAbsent_of) hexec
  exact ⟨s, hlength, hruns, (one_recording_per_session hrun).1⟩

end LigamentApps.LinkAgent
