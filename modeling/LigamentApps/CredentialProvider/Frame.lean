import LigamentApps.CredentialProvider.Step

/-!
# What the steps of the tile leave alone

The frame facts that the proofs about runs share. Most parts of a call are `Quiet`: they keep the
name, the password and the configuration, and leave nothing to be stored. A step of the worker
changes only what the two threads share (`workerStep_frame`). A call is taken only between two
calls (`step_call`). -/

namespace LigamentApps.CredentialProvider

/-- The value that the LogonUI thread stores at the end of the call it is in. -/
def UiPc.pendingStore : UiPc → Store
  | .stop (.reset store) => store
  | .join (.reset store) => store
  | _ => .nothing

/-- A part of a call that leaves the tile's name, password and configuration as they are, and
after which nothing is to be stored. -/
structure Quiet (s t : State) : Prop where
  /-- The user is kept. -/
  username : t.username = s.username
  /-- The domain is kept. -/
  domain : t.domain = s.domain
  /-- The password is kept. -/
  password : t.password = s.password
  /-- The configuration is kept. -/
  config : t.config = s.config
  /-- Nothing is to be stored. -/
  store : t.pc.pendingStore = .nothing

section Quiet

variable (s : State)

theorem giveUp_quiet (result : SerializationResult) : Quiet s (s.giveUp result).1 :=
  ⟨rfl, rfl, rfl, rfl, rfl⟩

theorem packAndFinish_quiet (branch : Branch) (ok : Bool) : Quiet s (s.packAndFinish branch ok).1 :=
  ⟨rfl, rfl, rfl, rfl, rfl⟩

variable (caller : StartCaller)

theorem afterStart_quiet (started : Bool) : Quiet s (s.afterStart caller started).1 := by
  cases caller <;> exact ⟨rfl, rfl, rfl, rfl, rfl⟩

theorem triggerFIDO2Auth_quiet : Quiet s (s.triggerFIDO2Auth caller).1 := by
  unfold State.triggerFIDO2Auth
  split
  · exact afterStart_quiet s caller true
  · exact ⟨rfl, rfl, rfl, rfl, rfl⟩

theorem getSerialization_quiet (packOk : Bool) : Quiet s (s.getSerialization packOk).1 := by
  unfold State.getSerialization
  split
  · exact giveUp_quiet s _
  split
  · exact packAndFinish_quiet s _ _
  split
  · exact ⟨rfl, rfl, rfl, rfl, rfl⟩
  split
  · split
    · exact giveUp_quiet s _
    · split <;> exact ⟨rfl, rfl, rfl, rfl, rfl⟩
  · split <;> exact ⟨rfl, rfl, rfl, rfl, rfl⟩
  · split
    · exact triggerFIDO2Auth_quiet s _
    · exact ⟨rfl, rfl, rfl, rfl, rfl⟩

theorem decidePoll_quiet (declined : WString → SerializationResult) :
    Quiet s (s.applyBegin.decidePoll declined).1 := by
  have happly : s.applyBegin.username = s.username ∧ s.applyBegin.domain = s.domain ∧
      s.applyBegin.password = s.password ∧ s.applyBegin.config = s.config := by
    unfold State.applyBegin
    split <;> exact ⟨rfl, rfl, rfl, rfl⟩
  obtain ⟨hu, hd, hp, hc⟩ := happly
  unfold State.decidePoll
  split
  · exact ⟨hu, hd, hp, hc, rfl⟩
  split <;> exact ⟨hu, hd, hp, hc, rfl⟩

theorem readWorker_quiet (P : Platform) : Quiet s (s.readWorker P).1 := by
  unfold State.readWorker
  split
  · unfold State.readOtp
    split
    · exact giveUp_quiet s _
    split
    · exact ⟨rfl, rfl, rfl, rfl, rfl⟩
    split <;> exact ⟨rfl, rfl, rfl, rfl, rfl⟩
  · unfold State.readPush
    split
    · split <;> exact ⟨rfl, rfl, rfl, rfl, rfl⟩
    · exact decidePoll_quiet s _
  · unfold State.readFido2
    split
    · exact ⟨rfl, rfl, rfl, rfl, rfl⟩
    · exact decidePoll_quiet s _

theorem switchToMode_quiet (hpc : s.pc = .idle) (mode : AuthFactorMode) : Quiet s (s.switchToMode mode).1 := by
  unfold State.switchToMode
  split
  · exact ⟨rfl, rfl, rfl, rfl, by rw [hpc]; rfl⟩
  split
  · exact ⟨rfl, rfl, rfl, rfl, by rw [hpc]; rfl⟩
  · exact ⟨rfl, rfl, rfl, rfl, rfl⟩

theorem createThread_quiet (ok : Bool) : Quiet s (s.createThread caller ok).1 := by
  unfold State.createThread
  split <;> cases caller <;> exact ⟨rfl, rfl, rfl, rfl, rfl⟩

theorem afterJoin_quiet (ok : Bool) (after : AfterJoin) (h : ∀ store, after ≠ .reset store) :
    Quiet s (s.afterJoin ok after).1 := by
  cases after with
  | reset store => exact absurd rfl (h store)
  | switchToMode mode =>
    unfold State.afterJoin State.enterMode
    dsimp only
    split
    · obtain ⟨hu, hd, hp, hc, hs⟩ := triggerFIDO2Auth_quiet
        { s with currentMode := mode, numberMatch := [] } .switchToMode
      exact ⟨hu, hd, hp, hc, hs⟩
    · exact ⟨rfl, rfl, rfl, rfl, rfl⟩
  | startJob | pack | refuse => exact ⟨rfl, rfl, rfl, rfl, rfl⟩

end Quiet

/-- `t` differs from `s` only in what the two threads share and in the worker's place. -/
def SharedOnly (s t : State) : Prop :=
  t = { s with worker := t.worker, job := t.job, numberMatch := t.numberMatch,
               authenticated := t.authenticated, thread := t.thread }

theorem workerStep_frame {P : Platform} {s t : State} {env : WorkerEnv} {es : List Event}
    (h : s.workerStep P env = some (t, es)) : SharedOnly s t := by
  unfold State.workerStep at h
  split at h
  · cases h
  · cases h
  all_goals refine prop_of_step (SharedOnly s) h ?_
  · rfl
  · rfl
  · unfold State.checkGate
    split <;> rfl
  · unfold State.writeGate
    split <;> rfl
  · unfold State.beginJob
    split <;> rfl
  · unfold State.writeBegin
    split
    · rfl
    split
    · rfl
    split <;> rfl
  · unfold State.pollHead
    split
    · split <;> rfl
    · rfl
  · unfold State.pollOnce
    split
    · split <;> rfl
    · rfl
  · unfold State.writePoll
    split <;> rfl
  · unfold State.writeTimeout
    split <;> rfl

theorem pc_eq_idle_of_callable {s : State} (h : s.callable = true) : s.pc = .idle := by
  simpa using (Bool.and_eq_true_iff.mp h).2

theorem step_call {s : State} {r : State × List Event} {t : State} {es : List Event}
    (h : (if s.callable then some r else none) = some (t, es)) :
    s.pc = .idle ∧ r = (t, es) := by
  split at h
  · rename_i hcall
    exact ⟨pc_eq_idle_of_callable hcall, Option.some.inj h⟩
  · cases h

end LigamentApps.CredentialProvider
