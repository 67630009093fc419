import LigamentApps.LinkWorkerDarwin.IPCClient

/-!
# Waiting for the socket

When a frame to send waits for one that is read, and that two frames are never mixed. -/

namespace LigamentApps.LinkWorkerDarwin

open ByteStream List Option

variable {a : IPCAction} {as : List IPCAction} (index : ℕ)

/-! ## What is asked of the client -/

/-- The next job of the task is a call of the socket. -/
def SocketTask.needsSocket (task : SocketTask) : Bool :=
  match task.jobs with
  | .send _ :: _ | .answer _ _ :: _ | .close :: _ => true
  | _ => false

def IPCAction.fromAgent : IPCAction → Bool
  | .arrives _ | .agentCloses => true
  | _ => false

/-- The bytes that the task is still to write. -/
def IPCState.writing (s : IPCState) (k : ℕ) : Option (List UInt8) := s.tasks[k]?.bind (·.writing)

/-- The call of the socket that a task makes can return without the agent. -/
def IPCState.CanReturn (isTerminate : List UInt8 → Bool) (s : IPCState) (k : ℕ) (task : SocketTask) : Prop :=
  ∃ as t fs, (∀ a ∈ as, a.fromAgent = false) ∧ (ipcClient isTerminate).Path s as t fs ∧
    ∃ task', t.tasks[k]? = some task' ∧ task.returned < task'.returned

/-- A task has a frame to send, or a close, and no other one writes. -/
structure IPCState.Pends (s : IPCState) (k : ℕ) (task : SocketTask) : Prop where
  runs : s.exited = false
  here : s.tasks[k]? = some task
  needs : task.needsSocket = true
  alone : ∀ j, j ≠ k → s.writing j = none

/-- A frame to send, or a close, can be completed without another byte of the agent. -/
def IPCState.NeverWaits (isTerminate : List UInt8 → Bool) (s : IPCState) : Prop :=
  ∀ k task, s.Pends k task → s.CanReturn isTerminate k task

def IPCEvent.bytes : IPCEvent → List UInt8
  | .begins data => frameBytes data

/-- The bytes of the frames that were begun, in their order. -/
def begunBytes (es : List IPCEvent) : List UInt8 := (es.map IPCEvent.bytes).flatten

/-- What was written is the frames in the order in which they were begun, as far as it goes. -/
def IPCState.NotInterleaved (s : IPCState) (es : List IPCEvent) : Prop := s.written <+: begunBytes es

/-- With these bytes `readFrame` returns, or throws. -/
def isWhole (bytes : List UInt8) : Bool :=
  4 ≤ bytes.length && (!isFrameLength (headerLength bytes) || 4 + headerLength bytes ≤ bytes.length)

/-- `readFrame` has the lock, and waits for bytes that have not come. -/
def IPCState.AwaitsAgent (s : IPCState) : Prop :=
  ∃ got, s.reader = .reading got ∧ isWhole (got ++ s.inbox) = false ∧ s.agentClosed = false

/-- While `readFrame` waits for the agent, no task has a frame to send, or a close. -/
def IPCState.NoneHeldBack (s : IPCState) : Prop :=
  s.AwaitsAgent → ∀ k task, ¬s.Pends k task

/-! ## The lock -/

/-- The invariant: the lock is of the one who reads or writes, and who reads or writes has not all bytes
yet. -/
structure IPCState.Locked (s : IPCState) : Prop where
  reader : s.lock = some .reader ↔ ∃ got, s.reader = .reading got
  task : ∀ k, s.lock = some (.task k) ↔ s.writing k ≠ none
  short : ∀ got, s.reader = .reading got → isWhole got = false
  left : ∀ k, s.writing k ≠ some []

variable {isTerminate : List UInt8 → Bool} {s t : IPCState} {es fs : List IPCEvent} {k : ℕ} {task : SocketTask}

@[simp] theorem writing_spawn (jobs : List Job) (k : ℕ) : (s.spawn jobs).writing k = s.writing k := by
  unfold IPCState.writing IPCState.spawn
  rw [getElem?_append]
  split
  · rfl
  · rename_i hlt
    rw [getElem?_eq_none (Nat.le_of_not_lt hlt)]
    cases hk : ([{ jobs }] : List SocketTask)[k - s.tasks.length]? with
    | none => rfl
    | some =>
      obtain rfl := mem_singleton.mp (mem_of_getElem? hk)
      rfl

theorem writing_withTask (task : SocketTask) (k : ℕ) :
    (s.withTask index task).writing k = if k = index ∧
      index < s.tasks.length then task.writing else s.writing k := by
  unfold IPCState.writing IPCState.withTask
  rw [getElem?_set]
  by_cases hk : index = k
  · obtain rfl := hk
    rw [if_pos rfl]
    split
    · rename_i hlt
      rw [if_pos ⟨rfl, hlt⟩]
      rfl
    · rename_i hlt
      rw [if_neg (fun h => hlt h.2), getElem?_eq_none (Nat.le_of_not_lt hlt)]
  · rw [if_neg hk, if_neg (fun h => hk h.1.symm)]

theorem isWhole_of_append {got more : List UInt8} (h : isWhole (got ++ more) = false) : isWhole got = false := by
  by_contra hwhole
  obtain ⟨hheader, hrest⟩ := (Bool.and_eq_true ..).mp ((Bool.not_eq_false _).mp hwhole)
  have hgot : 4 ≤ got.length := of_decide_eq_true hheader
  unfold isWhole at h
  rw [headerLength_append hgot, length_append] at h
  have hfour : decide (4 ≤ got.length + more.length) = true := decide_eq_true (by omega)
  rw [hfour, Bool.true_and] at h
  obtain ⟨hvalid, hlong⟩ := (Bool.or_eq_false_iff ..).mp h
  rw [hvalid, Bool.false_or] at hrest
  have hlong' := of_decide_eq_false hlong
  have hrest' := of_decide_eq_true hrest
  omega

theorem readerGot_cases (s : IPCState) (got : List UInt8) :
    (isWhole got = false ∧ s.readerGot got = { s with reader := .reading got }) ∨
    (isWhole got = true ∧ (s.readerGot got = s.readerThrows ∨
      s.readerGot got = { s with lock := none, reader := .handling (got.drop 4) })) := by
  unfold IPCState.readerGot isWhole
  split
  · rw [decide_eq_false (by omega)]
    exact .inl ⟨rfl, rfl⟩
  · rw [decide_eq_true (by omega), Bool.true_and]
    split
    · rename_i hvalid
      rw [hvalid]
      exact .inr ⟨rfl, .inl rfl⟩
    · rename_i hvalid
      rw [Bool.eq_false_iff.mpr hvalid, Bool.false_or]
      split
      · exact .inl ⟨decide_eq_false (by omega), rfl⟩
      · exact .inr ⟨decide_eq_true (by omega), .inr rfl⟩

theorem IPCState.Locked.reads (h : s.Locked) (hwriting : ∀ k, t.writing k = s.writing k)
    (htask : ∀ k, t.lock = some (.task k) ↔ s.lock = some (.task k))
    (hreader : t.lock = some .reader ↔ ∃ got, t.reader = .reading got)
    (hshort : ∀ got, t.reader = .reading got → isWhole got = false) : t.Locked := by
  refine ⟨hreader, fun k => ?_, hshort, fun k => ?_⟩
  · rw [htask, hwriting]
    exact h.task k
  · rw [hwriting]
    exact h.left k

theorem IPCState.Locked.same (h : s.Locked) (hwriting : ∀ k, t.writing k = s.writing k)
    (hlock : t.lock = s.lock) (hreader : t.reader = s.reader) : t.Locked := by
  refine h.reads hwriting (fun k => by rw [hlock]) ?_ fun got hgot => ?_
  · rw [hlock, hreader]
    exact h.reader
  · exact h.short got (hreader ▸ hgot)

theorem IPCState.Locked.readerReleases (h : s.Locked) (hlock : s.lock = some .reader ∨ s.lock = none)
    (hwriting : ∀ k, t.writing k = s.writing k) (hfree : t.lock = none)
    (hreader : ∀ got, t.reader ≠ .reading got) : t.Locked := by
  refine h.reads hwriting (fun k => ?_) ?_ fun got hgot => absurd hgot (hreader got)
  · rw [hfree]
    obtain hlock | hlock := hlock
    · simp [hlock]
    · simp [hlock]
  · rw [hfree]
    exact iff_of_false (by simp) fun ⟨got, hgot⟩ => hreader got hgot

theorem IPCState.Locked.idle (h : s.Locked) (hlock : ∀ k, s.lock ≠ some (.task k)) (k : ℕ) :
    s.writing k = none := by
  by_contra hne
  exact hlock k ((h.task k).mpr hne)

theorem IPCState.Locked.taskReturns (h : s.Locked) (hlock : s.lock = some (.task index) ∨ s.lock = none)
    (hwriting : ∀ k, k ≠ index → t.writing k = s.writing k) (hown : t.writing index = none)
    (hfree : t.lock = none) (hreader : t.reader = s.reader) : t.Locked := by
  have hothers : ∀ k, t.writing k = none := by
    intro k
    by_cases hk : k = index
    · rw [hk]
      exact hown
    · rw [hwriting k hk]
      by_contra hne
      have hholds := (h.task k).mpr hne
      obtain hlock | hlock := hlock
      · rw [hlock] at hholds
        exact hk (LockHolder.task.inj (Option.some.inj hholds)).symm
      · rw [hlock] at hholds
        simp at hholds
  have hnotReading : ¬∃ got, s.reader = .reading got := by
    intro hreading
    have hholds := h.reader.mpr hreading
    obtain hlock | hlock := hlock
    · rw [hlock] at hholds
      simp at hholds
    · rw [hlock] at hholds
      simp at hholds
  refine ⟨?_, fun k => ?_, fun got hgot => absurd ⟨got, hreader ▸ hgot⟩ hnotReading, fun k => ?_⟩
  · rw [hfree, hreader]
    exact iff_of_false (by simp) hnotReading
  · rw [hfree, hothers]
    exact iff_of_false (by simp) (by simp)
  · rw [hothers]
    simp

theorem IPCState.Locked.taskWrites (bytes : List UInt8) (h : s.Locked)
    (hlock : s.lock = some (.task index) ∨ s.lock = none)
    (hwriting : ∀ k, k ≠ index → t.writing k = s.writing k) (hown : t.writing index = some bytes)
    (hleft : bytes ≠ []) (hheld : t.lock = some (.task index)) (hreader : t.reader = s.reader) :
    t.Locked := by
  have hothers : ∀ k, k ≠ index → t.writing k = none := by
    intro k hk
    rw [hwriting k hk]
    by_contra hne
    have hholds := (h.task k).mpr hne
    obtain hlock | hlock := hlock
    · rw [hlock] at hholds
      exact hk (LockHolder.task.inj (Option.some.inj hholds)).symm
    · rw [hlock] at hholds
      simp at hholds
  have hnotReading : ¬∃ got, s.reader = .reading got := by
    intro hreading
    have hholds := h.reader.mpr hreading
    obtain hlock | hlock := hlock
    · rw [hlock] at hholds
      simp at hholds
    · rw [hlock] at hholds
      simp at hholds
  refine ⟨?_, fun k => ?_, fun got hgot => absurd ⟨got, hreader ▸ hgot⟩ hnotReading, fun k => ?_⟩
  · rw [hheld, hreader]
    exact iff_of_false (by simp) hnotReading
  · rw [hheld]
    by_cases hk : k = index
    · rw [hk, hown]
      exact iff_of_true rfl (by simp)
    · rw [hothers k hk]
      refine iff_of_false (fun heq => hk ?_) (by simp)
      exact (LockHolder.task.inj (Option.some.inj heq)).symm
  · by_cases hk : k = index
    · rw [hk, hown]
      exact fun heq => hleft (Option.some.inj heq)
    · rw [hothers k hk]
      simp

theorem taskLocks_cases {index : ℕ} {r : IPCOutcome} (h : s.taskLocks index task = some r) :
    (∃ fdOpen threw, r = ({ s with fdOpen }.taskReturns index task threw, [])) ∨
    ∃ data, r = ({ s with lock := some (.task index) }.withTask index { task with writing := some (frameBytes data) },
      [.begins data]) := by
  have hsend : ∀ data, some (s.sendFrame index task data) = some r →
      (∃ fdOpen threw, r = ({ s with fdOpen }.taskReturns index task threw, [])) ∨
      ∃ data, r = ({ s with lock := some (.task index) }.withTask index
        { task with writing := some (frameBytes data) }, [.begins data]) := by
    intro data heq
    rw [← Option.some.inj heq]
    unfold IPCState.sendFrame
    split
    · exact .inl ⟨s.fdOpen, true, rfl⟩
    · exact .inr ⟨data, rfl⟩
  unfold IPCState.taskLocks at h
  split at h
  · exact hsend _ h
  · exact hsend _ h
  · exact .inl ⟨false, false, (Option.some.inj h).symm⟩
  · simp at h

theorem taskGoesOn_cases {index : ℕ} (h : s.taskGoesOn index task = some t) :
    ∃ exited jobs, t = { s with exited }.withTask index { task with jobs } ∧ task.needsSocket = false := by
  unfold IPCState.taskGoesOn at h
  split at h
  · rename_i rest hjobs
    refine ⟨s.exited, rest, (Option.some.inj h).symm, ?_⟩
    unfold SocketTask.needsSocket
    rw [hjobs]
  · rename_i rest hjobs
    refine ⟨true, rest, (Option.some.inj h).symm, ?_⟩
    unfold SocketTask.needsSocket
    rw [hjobs]
  · simp at h

/-- What the lock is for and what a step does, for all steps: the cases that the invariants need. -/
inductive IPCStep (isTerminate : List UInt8 → Bool) (s : IPCState) : IPCAction → IPCState → List IPCEvent → Prop
  | arrives (bytes : List UInt8) (hopen : s.agentClosed = false) :
      IPCStep isTerminate s (.arrives bytes) { s with inbox := s.inbox ++ bytes } []
  | agentCloses : IPCStep isTerminate s .agentCloses { s with agentClosed := true } []
  | spawns {a : IPCAction} (run : Option ℕ) (jobs : List Job) (ha : a.fromAgent = false) :
      IPCStep isTerminate s a ({ s with run }.spawn jobs) []
  | readLoopStarts (hreader : s.reader = .notStarted) :
      IPCStep isTerminate s .readLoopStarts { s with reader := .waiting } []
  | readerLocks (hreader : s.reader = .waiting) (hfree : s.lock = none) :
      IPCStep isTerminate s .readerLocks { s with lock := some .reader, reader := .reading [] } []
  | readerFindsClosed (hreader : s.reader = .waiting) (hfree : s.lock = none) :
      IPCStep isTerminate s .readerLocks s.readerThrows []
  | readerReads (got : List UInt8) (count : ℕ) (hreader : s.reader = .reading got) (hcount : 0 < count)
      (hinbox : count ≤ s.inbox.length) : IPCStep isTerminate s (.readerReads count)
        ({ s with inbox := s.inbox.drop count }.readerGot (got ++ s.inbox.take count)) []
  | readerEnds (got : List UInt8) (hreader : s.reader = .reading got) (hclosed : s.agentClosed = true) :
      IPCStep isTerminate s .readerEnds s.readerThrows []
  | handles (frame : List UInt8) (hreader : s.reader = .handling frame) :
      IPCStep isTerminate s .readerHandles { s with reader := .waiting } []
  | terminates (frame : List UInt8) (hreader : s.reader = .handling frame) :
      IPCStep isTerminate s .readerHandles ({ s with reader := .ended }.spawn IPCState.shutdownJobs) []
  | taskLocks (index : ℕ) (task : SocketTask) (r : IPCOutcome) (htask : s.tasks[index]? = some task)
      (hfree : s.lock = none) (hr : s.taskLocks index task = some r) :
      IPCStep isTerminate s (.taskLocks index) r.1 r.2
  | taskFails (index count : ℕ) (task : SocketTask) (bytes : List UInt8) (htask : s.tasks[index]? = some task)
      (hwriting : task.writing = some bytes) (hclosed : s.agentClosed = true) :
      IPCStep isTerminate s (.taskWrites index count) (s.taskReturns index task true) []
  | taskWrites (index count : ℕ) (task : SocketTask) (bytes : List UInt8) (htask : s.tasks[index]? = some task)
      (hwriting : task.writing = some bytes) (hopen : s.agentClosed = false) (hcount : 0 < count) :
      IPCStep isTerminate s (.taskWrites index count) (s.taskWrote index task bytes count) []
  | taskGoesOn (index : ℕ) (task : SocketTask) (exited : Bool) (jobs : List Job)
      (htask : s.tasks[index]? = some task) (hneeds : task.needsSocket = false) :
      IPCStep isTerminate s (.taskGoesOn index) ({ s with exited }.withTask index { task with jobs }) []

/-- What one step of the transport can do. -/
theorem ipcStep_of_step {r : IPCOutcome} (h : s.step isTerminate a = some r) :
    s.exited = false ∧ IPCStep isTerminate s a r.1 r.2 := by
  obtain ⟨hexited, h⟩ := ite_none_left_eq_some.mp h
  refine ⟨Bool.eq_false_iff.mpr hexited, ?_⟩
  cases a with
  | arrives bytes =>
    obtain ⟨hopen, heq⟩ := ite_none_left_eq_some.mp h
    cases heq
    exact .arrives bytes (Bool.eq_false_iff.mpr hopen)
  | agentCloses =>
    cases h
    exact .agentCloses
  | answers | rejects =>
    obtain ⟨-, heq⟩ := ite_none_right_eq_some.mp h
    cases heq
    exact .spawns _ _ rfl
  | readLoopStarts =>
    obtain ⟨⟨hreader, -⟩, heq⟩ := ite_none_right_eq_some.mp h
    cases heq
    exact .readLoopStarts hreader
  | candidate | terminates =>
    cases h
    exact .spawns s.run _ rfl
  | readerLocks =>
    obtain ⟨⟨hreader, hfree⟩, heq⟩ := ite_none_right_eq_some.mp h
    cases heq
    split
    · exact .readerLocks hreader hfree
    · exact .readerFindsClosed hreader hfree
  | readerReads count =>
    dsimp only at h
    split at h
    · rename_i got hreader
      obtain ⟨⟨hcount, -, hinbox⟩, heq⟩ := ite_none_right_eq_some.mp h
      cases heq
      exact .readerReads got count hreader hcount hinbox
    · simp at h
  | readerEnds =>
    dsimp only at h
    split at h
    · rename_i got hreader
      obtain ⟨⟨-, hclosed⟩, heq⟩ := ite_none_right_eq_some.mp h
      cases heq
      exact .readerEnds got hreader hclosed
    · simp at h
  | readerHandles =>
    dsimp only at h
    split at h
    · rename_i frame hreader
      cases h
      split
      · exact .terminates frame hreader
      · exact .handles frame hreader
    · simp at h
  | taskLocks index =>
    obtain ⟨task, htask, h⟩ := bind_eq_some_iff.mp h
    obtain ⟨hfree, hr⟩ := ite_none_right_eq_some.mp h
    exact .taskLocks index task r htask hfree hr
  | taskWrites index count =>
    obtain ⟨task, htask, h⟩ := bind_eq_some_iff.mp h
    obtain ⟨bytes, hwriting, h⟩ := bind_eq_some_iff.mp h
    split at h
    · rename_i hclosed
      cases h
      exact .taskFails index count task bytes htask hwriting hclosed
    · rename_i hopen
      obtain ⟨⟨hcount, -⟩, heq⟩ := ite_none_right_eq_some.mp h
      cases heq
      exact .taskWrites index count task bytes htask hwriting (Bool.eq_false_iff.mpr hopen) hcount
  | taskGoesOn index =>
    obtain ⟨task, htask, h⟩ := bind_eq_some_iff.mp h
    obtain ⟨t, ht, heq⟩ := bind_eq_some_iff.mp h
    cases heq
    obtain ⟨exited, jobs, rfl, hneeds⟩ := taskGoesOn_cases ht
    exact .taskGoesOn index task exited jobs htask hneeds

theorem writing_of_task (htask : s.tasks[k]? = some task) : s.writing k = task.writing := by
  unfold IPCState.writing
  rw [htask]
  rfl

theorem lt_of_task (htask : s.tasks[k]? = some task) : k < s.tasks.length := (List.getElem?_eq_some_iff.mp htask).1

theorem writing_taskReturns (htask : s.tasks[k]? = some task) (threw : Bool) (j : ℕ) :
    (s.taskReturns k task threw).writing j = if j = k then none else s.writing j := by
  unfold IPCState.taskReturns
  rw [writing_withTask]
  by_cases hj : j = k
  · rw [if_pos hj, if_pos ⟨hj, lt_of_task htask⟩]
  · rw [if_neg hj, if_neg fun h => hj h.1]
    rfl

/-- The lock is held by whoever writes. -/
theorem locked_of_step (h : s.Locked) (hstep : s.step isTerminate a = some (t, fs)) : t.Locked := by
  obtain ⟨-, hcase⟩ := ipcStep_of_step hstep
  dsimp only at hcase
  cases hcase with
  | arrives | agentCloses => exact h.same (fun _ => rfl) rfl rfl
  | spawns _ jobs => exact h.same (fun k => writing_spawn jobs k) rfl rfl
  | readLoopStarts hreader | handles _ hreader =>
    refine h.reads (fun _ => rfl) (fun _ => Iff.rfl) ?_ nofun
    refine iff_of_false (fun hlock => ?_) (by simp)
    obtain ⟨got, hgot⟩ := h.reader.mp hlock
    cases hreader.symm.trans hgot
  | readerLocks _ hfree =>
    refine h.reads (fun _ => rfl) (fun k => ?_) (iff_of_true rfl ⟨[], rfl⟩) fun got hgot => ?_
    · rw [hfree]
      exact iff_of_false (by simp) (by simp)
    · cases hgot
      rfl
  | readerFindsClosed _ hfree =>
    exact h.readerReleases (.inr hfree) (fun k => writing_spawn _ k) rfl fun got hgot => absurd hgot (by
      simp [IPCState.readerThrows, IPCState.spawn])
  | readerReads got count hreader =>
    have hlock : s.lock = some .reader := h.reader.mpr ⟨got, hreader⟩
    obtain ⟨hshort, heq⟩ | ⟨-, heq | heq⟩ := readerGot_cases { s with inbox := s.inbox.drop count }
      (got ++ s.inbox.take count)
    · rw [heq]
      refine h.reads (fun _ => rfl) (fun _ => Iff.rfl) (iff_of_true hlock ⟨_, rfl⟩) fun got' hgot => ?_
      cases hgot
      exact hshort
    · rw [heq]
      exact h.readerReleases (.inl hlock) (fun k => writing_spawn _ k) rfl fun got hgot => absurd hgot (by
        simp [IPCState.readerThrows, IPCState.spawn])
    · rw [heq]
      exact h.readerReleases (.inl hlock) (fun _ => rfl) rfl nofun
  | readerEnds got hreader =>
    exact h.readerReleases (.inl (h.reader.mpr ⟨got, hreader⟩)) (fun k => writing_spawn _ k) rfl
      fun got hgot => absurd hgot (by simp [IPCState.readerThrows, IPCState.spawn])
  | terminates _ hreader =>
    refine h.reads (fun k => writing_spawn _ k) (fun _ => Iff.rfl) ?_ fun got hgot => absurd hgot (by
      simp [IPCState.spawn])
    refine iff_of_false (fun hlock => ?_) (by simp [IPCState.spawn])
    obtain ⟨got, hgot⟩ := h.reader.mp hlock
    cases hreader.symm.trans hgot
  | taskLocks index _ _ htask hfree hr =>
    obtain ⟨fdOpen, threw, heq⟩ | ⟨data, heq⟩ := taskLocks_cases hr
    · rw [heq]
      have hwriting := writing_taskReturns htask threw
      refine h.taskReturns index (.inr hfree) (fun k hk => ?_) ?_ rfl rfl
      · exact (hwriting k).trans (if_neg hk)
      · exact (hwriting index).trans (if_pos rfl)
    · rw [heq]
      refine h.taskWrites index (frameBytes data) (.inr hfree) (fun k hk => ?_) ?_ ?_ rfl rfl
      · exact (writing_withTask index _ k).trans (if_neg fun hboth => hk hboth.1)
      · exact (writing_withTask index _ index).trans (if_pos ⟨rfl, lt_of_task htask⟩)
      · exact frameBytes_ne_nil data
  | taskFails index _ task _ htask hwriting =>
    have hlock : s.lock = some (.task index) := (h.task index).mpr (by rw [writing_of_task htask, hwriting]; simp)
    have hafter := writing_taskReturns htask true
    refine h.taskReturns index (.inl hlock) (fun k hk => ?_) ?_ rfl rfl
    · exact (hafter k).trans (if_neg hk)
    · exact (hafter index).trans (if_pos rfl)
  | taskWrites index count task bytes htask hwriting hopen hcount =>
    have hlock : s.lock = some (.task index) := (h.task index).mpr (by rw [writing_of_task htask, hwriting]; simp)
    unfold IPCState.taskWrote
    split
    · have hafter := writing_taskReturns htask false
      refine h.taskReturns index (.inl hlock) (fun k hk => ?_) ?_ rfl rfl
      · exact (hafter k).trans (if_neg hk)
      · exact (hafter index).trans (if_pos rfl)
    · refine h.taskWrites index (bytes.drop count) (.inl hlock) (fun k hk => ?_) ?_ ?_ hlock rfl
      · exact (writing_withTask index _ k).trans (if_neg fun hboth => hk hboth.1)
      · exact (writing_withTask index _ index).trans (if_pos ⟨rfl, lt_of_task htask⟩)
      · intro hnil
        have hlength := congrArg List.length hnil
        rw [length_drop, length_nil] at hlength
        omega
  | taskGoesOn index task exited jobs htask hneeds =>
    refine h.same (fun k => ?_) rfl rfl
    rw [writing_withTask]
    split
    · rename_i hboth
      rw [hboth.1]
      exact (writing_of_task htask).symm
    · rfl

/-! ## Frames are not mixed -/

/-- The bytes that the holder of the lock is still to write. -/
def IPCState.current (s : IPCState) : List UInt8 :=
  match s.lock with
  | some (.task k) => (s.writing k).getD []
  | _ => []

/-- The invariant: as long as the agent reads, what was begun is what was written and what is left. -/
structure IPCState.Wrote (s : IPCState) (es : List IPCEvent) : Prop where
  whole : s.agentClosed = false → begunBytes es = s.written ++ s.current
  part : s.written <+: begunBytes es

theorem begunBytes_append (es fs : List IPCEvent) : begunBytes (es ++ fs) = begunBytes es ++ begunBytes fs := by
  unfold begunBytes
  rw [map_append, flatten_append]

theorem IPCState.Wrote.same (h : s.Wrote es) (hclosed : t.agentClosed = false → s.agentClosed = false)
    (hwritten : t.written = s.written) (hcurrent : t.current = s.current) : t.Wrote (es ++ []) := by
  rw [append_nil]
  refine ⟨fun hopen => ?_, ?_⟩
  · rw [hwritten, hcurrent]
    exact h.whole (hclosed hopen)
  · rw [hwritten]
    exact h.part

theorem current_eq_nil (hlock : ∀ k, s.lock ≠ some (.task k)) : s.current = [] := by
  unfold IPCState.current
  split
  · rename_i k hk
    exact absurd hk (hlock k)
  · rfl

theorem current_of_writing {bytes : List UInt8} (h : s.Locked) (hwriting : s.writing k = some bytes) :
    s.current = bytes := by
  have hlock : s.lock = some (.task k) := (h.task k).mpr (by rw [hwriting]; simp)
  unfold IPCState.current
  rw [hlock]
  dsimp only
  rw [hwriting]
  rfl

theorem current_eq (hlock : t.lock = s.lock) (hwriting : ∀ k, t.writing k = s.writing k) :
    t.current = s.current := by
  unfold IPCState.current
  rw [hlock]
  split
  · rw [hwriting]
  · rfl

/-- What was written is a whole number of frames, but for the one under way. -/
theorem wrote_of_step (h : s.Wrote es) (hlocked : s.Locked) (hstep : s.step isTerminate a = some (t, fs)) :
    t.Wrote (es ++ fs) := by
  have hafter : t.Locked := locked_of_step hlocked hstep
  have hfree : s.lock = none → ∀ u : IPCState, u.lock = none → u.current = s.current := by
    intro hnone u hu
    rw [current_eq_nil (by simp [hu]), current_eq_nil (by simp [hnone])]
  have hreading : ∀ got, s.reader = .reading got → ∀ u : IPCState, u.lock = none ∨ u.lock = some .reader →
      u.current = s.current := by
    intro got hgot u hu
    have hlock : s.lock = some .reader := hlocked.reader.mpr ⟨got, hgot⟩
    rw [current_eq_nil (s := s) (by simp [hlock])]
    refine current_eq_nil fun k hk => ?_
    obtain hu | hu := hu
    · cases hu.symm.trans hk
    · cases hu.symm.trans hk
  obtain ⟨-, hcase⟩ := ipcStep_of_step hstep
  dsimp only at hcase
  cases hcase with
  | arrives | readLoopStarts | handles => exact h.same id rfl rfl
  | agentCloses => exact h.same nofun rfl rfl
  | spawns _ jobs => exact h.same id rfl (current_eq rfl fun k => writing_spawn jobs k)
  | readerLocks _ hnone =>
    refine h.same id rfl ?_
    rw [current_eq_nil (s := s) (by simp [hnone])]
    exact current_eq_nil (by simp)
  | readerFindsClosed _ hnone => exact h.same id rfl (hfree hnone _ rfl)
  | readerReads got count hreader =>
    have hlock : s.lock = some .reader := hlocked.reader.mpr ⟨got, hreader⟩
    obtain ⟨-, heq⟩ | ⟨-, heq | heq⟩ := readerGot_cases { s with inbox := s.inbox.drop count }
      (got ++ s.inbox.take count)
    · rw [heq]
      exact h.same id rfl (hreading got hreader _ (.inr hlock))
    · rw [heq]
      exact h.same id rfl (hreading got hreader _ (.inl rfl))
    · rw [heq]
      exact h.same id rfl (hreading got hreader _ (.inl rfl))
  | readerEnds got hreader => exact h.same id rfl (hreading got hreader _ (.inl rfl))
  | terminates => exact h.same id rfl (current_eq rfl fun k => writing_spawn _ k)
  | taskLocks index task _ htask hnone hr =>
    obtain ⟨fdOpen, threw, heq⟩ | ⟨data, heq⟩ := taskLocks_cases hr
    · rw [heq]
      exact h.same id rfl (hfree hnone _ rfl)
    · rw [heq] at hafter ⊢
      have hbegun : begunBytes (es ++ [.begins data]) = begunBytes es ++ frameBytes data := by
        rw [begunBytes_append]
        exact congrArg (begunBytes es ++ ·) (append_nil _)
      refine ⟨fun hopen => hbegun.trans ?_, ?_⟩
      · have hown : (IPCState.withTask { s with lock := some (.task index) } index
            { task with writing := some (frameBytes data) }).current = frameBytes data :=
          current_of_writing hafter ((writing_withTask index _ index).trans (if_pos ⟨rfl, lt_of_task htask⟩))
        have hbefore := h.whole hopen
        rw [current_eq_nil (by simp [hnone]), append_nil] at hbefore
        rw [hbefore, hown]
        rfl
      · rw [hbegun]
        exact h.part.trans (prefix_append _ _)
  | taskFails _ _ _ _ _ _ hclosed =>
    rw [append_nil]
    exact ⟨fun hopen => absurd (hclosed.symm.trans hopen) (by simp), h.part⟩
  | taskWrites index count task bytes htask hwriting hopen hcount =>
    have hbefore := h.whole hopen
    rw [current_of_writing hlocked (writing_of_task htask ▸ hwriting)] at hbefore
    rw [append_nil]
    -- What was taken is written, and the rest is left.
    unfold IPCState.taskWrote at hafter ⊢
    have hwhole : begunBytes es = (s.written ++ bytes.take count) ++ bytes.drop count := by
      rw [hbefore, append_assoc, take_append_drop]
    split at hafter
    · rename_i hall
      rw [if_pos hall]
      refine ⟨fun _ => ?_, ?_⟩
      · rw [current_eq_nil (by simp [IPCState.taskReturns, IPCState.withTask]),
          hwhole, drop_eq_nil_of_le hall]
        rfl
      · rw [hwhole]
        exact prefix_append _ _
    · rename_i hmore
      rw [if_neg hmore]
      refine ⟨fun _ => ?_, ?_⟩
      · rw [current_of_writing hafter ((writing_withTask index _ index).trans (if_pos ⟨rfl, lt_of_task htask⟩)),
          hwhole]
        rfl
      · rw [hwhole]
        exact prefix_append _ _
  | taskGoesOn index task exited jobs htask hneeds =>
    refine h.same id rfl (current_eq rfl fun k => ?_)
    rw [writing_withTask]
    split
    · rename_i hboth
      rw [hboth.1]
      exact (writing_of_task htask).symm
    · rfl

/-! ## What can be completed -/

theorem path_step {u : IPCState} (hstep : s.step isTerminate a = some (t, []))
    (hpath : (ipcClient isTerminate).Path t as u fs) : (ipcClient isTerminate).Path s (a :: as) u fs := by
  have hcons : (ipcClient isTerminate).Path s (a :: as) u ([] ++ fs) := .cons hstep hpath
  exact hcons

theorem step_taskLocks (isTerminate : List UInt8 → Bool) (hruns : s.exited = false)
    (htask : s.tasks[k]? = some task) (hfree : s.lock = none) :
    s.step isTerminate (.taskLocks k) = s.taskLocks k task := by
  unfold IPCState.step
  rw [hruns, if_neg Bool.false_ne_true]
  show (s.tasks[k]? >>= fun task => if s.lock = none then s.taskLocks k task else none) = _
  rw [htask]
  exact if_pos hfree

theorem returned_taskReturns (htask : s.tasks[k]? = some task) (u : IPCState) (htasks : u.tasks = s.tasks)
    (now : SocketTask) (hnow : now.returned = task.returned) (threw : Bool) :
    ∃ task', (u.taskReturns k now threw).tasks[k]? = some task' ∧ task.returned < task'.returned := by
  refine ⟨⟨if threw then IPCState.jobsAfterError now.jobs else now.jobs.tail, none, now.returned + 1⟩, ?_, ?_⟩
  · show (u.tasks.set k _)[k]? = _
    rw [htasks, getElem?_set_self (lt_of_task htask)]
  · show task.returned < now.returned + 1
    omega

theorem returns_of_writing (isTerminate : List UInt8 → Bool) (hruns : s.exited = false)
    (htask : s.tasks[k]? = some task) {bytes : List UInt8}
    (hwriting : task.writing = some bytes) (hleft : bytes ≠ []) :
    ∃ t, s.step isTerminate (.taskWrites k bytes.length) = some (t, []) ∧
      ∃ task', t.tasks[k]? = some task' ∧ task.returned < task'.returned := by
  have hpos : 0 < bytes.length := length_pos_iff.mpr hleft
  have hstep : s.step isTerminate (.taskWrites k bytes.length) =
      if s.agentClosed = true then some (s.taskReturns k task true, [])
      else if 0 < bytes.length ∧ bytes.length ≤ bytes.length then some (s.taskWrote k task bytes bytes.length, [])
      else none := by
    unfold IPCState.step
    rw [hruns, if_neg Bool.false_ne_true]
    simp only [htask, hwriting, bind_eq_bind, bind_some]
  cases hclosed : s.agentClosed with
  | true =>
    rw [hclosed, if_pos rfl] at hstep
    exact ⟨_, hstep, returned_taskReturns htask s rfl task rfl true⟩
  | false =>
    rw [hclosed, if_neg Bool.false_ne_true, if_pos ⟨hpos, le_rfl⟩] at hstep
    unfold IPCState.taskWrote at hstep
    rw [if_pos le_rfl] at hstep
    exact ⟨_, hstep, returned_taskReturns htask _ rfl task rfl false⟩

theorem canReturn_of_free (hruns : s.exited = false) (htask : s.tasks[k]? = some task)
    (hneeds : task.needsSocket = true) (hfree : s.lock = none) : s.CanReturn isTerminate k task := by
  have hsend : ∀ data, s.taskLocks k task = some (s.sendFrame k task data) → s.CanReturn isTerminate k task := by
    intro data hlocks
    have hstep := (step_taskLocks isTerminate hruns htask hfree).trans hlocks
    unfold IPCState.sendFrame at hstep
    split at hstep
    · refine ⟨[.taskLocks k], _, [], by simp [IPCAction.fromAgent], path_step hstep (.nil _), ?_⟩
      exact returned_taskReturns htask s rfl task rfl true
    · have hnow : (IPCState.withTask { s with lock := some (.task k) } k
          { task with writing := some (frameBytes data) }).tasks[k]? =
          some { task with writing := some (frameBytes data) } := getElem?_set_self (lt_of_task htask)
      have hwriting : ({ task with writing := some (frameBytes data) } : SocketTask).writing =
        some (frameBytes data) :=
        rfl
      have hleft : frameBytes data ≠ [] := frameBytes_ne_nil data
      obtain ⟨u, hwrites, task', htask', hmore⟩ := returns_of_writing isTerminate
        (show (IPCState.withTask { s with lock := some (.task k) } k
          { task with writing := some (frameBytes data) }).exited = false from hruns) hnow hwriting hleft
      refine ⟨[.taskLocks k, .taskWrites k (frameBytes data).length], u, _, by simp [IPCAction.fromAgent],
        .cons hstep (.cons hwrites (.nil _)), task', htask', hmore⟩
  unfold SocketTask.needsSocket at hneeds
  split at hneeds
  · rename_i data rest hjobs
    refine hsend data ?_
    unfold IPCState.taskLocks
    rw [hjobs]
  · rename_i data rejected rest hjobs
    refine hsend data ?_
    unfold IPCState.taskLocks
    rw [hjobs]
  · rename_i rest hjobs
    have hlocks : s.taskLocks k task = some ({ s with fdOpen := false }.taskReturns k task false, []) := by
      unfold IPCState.taskLocks
      rw [hjobs]
    have hstep := (step_taskLocks isTerminate hruns htask hfree).trans hlocks
    refine ⟨[.taskLocks k], _, [], by simp [IPCAction.fromAgent], path_step hstep (.nil _), ?_⟩
    exact returned_taskReturns htask _ rfl task rfl false
  · cases hneeds

theorem readerThrows_kept (htask : s.tasks[k]? = some task) : s.readerThrows.lock = none ∧
    s.readerThrows.exited = s.exited ∧ s.readerThrows.tasks[k]? = some task := by
  refine ⟨rfl, rfl, ?_⟩
  show (s.tasks ++ [_])[k]? = some task
  rw [getElem?_append_left (lt_of_task htask)]
  exact htask

theorem reader_releases (isTerminate : List UInt8 → Bool) : ∀ (n : ℕ) (s : IPCState) (got : List UInt8),
    s.inbox.length = n → s.Locked →
    s.exited = false → s.reader = .reading got → (isWhole (got ++ s.inbox) = true ∨ s.agentClosed = true) →
    s.tasks[k]? = some task → ∃ as t, (∀ a ∈ as, a.fromAgent = false) ∧
      (ipcClient isTerminate).Path s as t [] ∧ t.lock = none ∧ t.exited = false ∧ t.tasks[k]? = some task
  | 0, s, got, hn, hlocked, hruns, hreader, hwhole, htask => by
    have hempty : s.inbox = [] := length_eq_zero_iff.mp hn
    have hclosed : s.agentClosed = true := by
      rw [hempty, append_nil, hlocked.short got hreader] at hwhole
      exact hwhole.resolve_left Bool.false_ne_true
    have hstep : s.step isTerminate .readerEnds = some (s.readerThrows, []) := by
      unfold IPCState.step
      simp [hruns, hreader, hempty, hclosed]
    obtain ⟨hfree, hexited, hkept⟩ := readerThrows_kept htask
    exact ⟨[.readerEnds], _, by simp [IPCAction.fromAgent], path_step hstep (.nil _), hfree,
      hexited.trans hruns, hkept⟩
  | n + 1, s, got, hn, hlocked, hruns, hreader, hwhole, htask => by
    -- One byte is read; then the frame is whole, or as many bytes less are there.
    have hwanted : 1 ≤ IPCState.wanted got := by
      have hshort := hlocked.short got hreader
      unfold isWhole at hshort
      unfold IPCState.wanted
      split
      · omega
      · rw [decide_eq_true (by omega : 4 ≤ got.length), Bool.true_and] at hshort
        have hmore := of_decide_eq_false ((Bool.or_eq_false_iff ..).mp hshort).2
        omega
    have hstep : s.step isTerminate (.readerReads 1) =
        some ({ s with inbox := s.inbox.drop 1 }.readerGot (got ++ s.inbox.take 1), []) := by
      unfold IPCState.step
      rw [hruns, if_neg Bool.false_ne_true]
      simp only [hreader]
      rw [if_pos ⟨Nat.one_pos, hwanted, by omega⟩]
    have hafter := locked_of_step hlocked hstep
    obtain ⟨-, heq⟩ | ⟨-, heq | heq⟩ := readerGot_cases { s with inbox := s.inbox.drop 1 } (got ++ s.inbox.take 1)
    · rw [heq] at hstep hafter
      obtain ⟨as, t, hagent, hpath, hrest⟩ := reader_releases isTerminate n
        { s with inbox := s.inbox.drop 1, reader := .reading (got ++ s.inbox.take 1) } (got ++ s.inbox.take 1)
        (by simp [hn]) hafter hruns rfl (by
          rw [append_assoc, take_append_drop]
          exact hwhole) htask
      refine ⟨.readerReads 1 :: as, t, fun a ha => ?_, path_step hstep hpath, hrest⟩
      obtain rfl | ha := mem_cons.mp ha
      · rfl
      · exact hagent a ha
    · rw [heq] at hstep
      obtain ⟨hfree, hexited, hkept⟩ := readerThrows_kept htask
      exact ⟨[.readerReads 1], _, by simp [IPCAction.fromAgent], path_step hstep (.nil _), hfree,
        hexited.trans hruns, hkept⟩
    · rw [heq] at hstep
      exact ⟨[.readerReads 1], _, by simp [IPCAction.fromAgent], path_step hstep (.nil _), rfl, hruns, htask⟩

theorem canReturn_of_path (hagent : ∀ a ∈ as, a.fromAgent = false)
    (hpath : (ipcClient isTerminate).Path s as t []) (h : t.CanReturn isTerminate k task) :
    s.CanReturn isTerminate k task := by
  obtain ⟨bs, u, fs, hagent', hrest, hreturns⟩ := h
  refine ⟨as ++ bs, u, fs, fun a ha => ?_, ?_, hreturns⟩
  · obtain ha | ha := mem_append.mp ha
    · exact hagent a ha
    · exact hagent' a ha
  · clear hagent
    generalize hes : ([] : List IPCEvent) = es at hpath
    induction hpath with
    | nil => exact hrest
    | cons hstep _ ih =>
      obtain ⟨rfl, rfl⟩ := append_eq_nil_iff.mp hes.symm
      exact path_step hstep (ih hrest rfl)

theorem canReturn_of_pends (h : s.Locked) (hheld : ¬s.AwaitsAgent) (hpends : s.Pends k task) :
    s.CanReturn isTerminate k task := by
  cases hlock : s.lock with
  | none => exact canReturn_of_free hpends.runs hpends.here hpends.needs hlock
  | some holder =>
    cases holder with
    | reader =>
      obtain ⟨got, hreader⟩ := h.reader.mp hlock
      have hwhole : isWhole (got ++ s.inbox) = true ∨ s.agentClosed = true := by
        by_contra hnot
        obtain ⟨hshort, hopen⟩ := not_or.mp hnot
        exact hheld ⟨got, hreader, Bool.eq_false_iff.mpr hshort, Bool.eq_false_iff.mpr hopen⟩
      obtain ⟨as, t, hagent, hpath, hfree, hruns, htask⟩ :=
        reader_releases isTerminate _ s got rfl h hpends.runs hreader hwhole hpends.here
      exact canReturn_of_path hagent hpath (canReturn_of_free hruns htask hpends.needs hfree)
    | task j =>
      obtain ⟨bytes, hwriting⟩ := ne_none_iff_exists'.mp ((h.task j).mp hlock)
      have hj : j = k := by
        by_contra hne
        exact absurd (hpends.alone j hne) (by simp [hwriting])
      obtain rfl := hj
      have hbytes : task.writing = some bytes := (writing_of_task hpends.here).symm.trans hwriting
      obtain ⟨u, hstep, hreturns⟩ := returns_of_writing isTerminate hpends.runs hpends.here hbytes
        fun hnil => h.left j (hwriting.trans (congrArg some hnil))
      exact ⟨[.taskWrites j bytes.length], u, [], by simp [IPCAction.fromAgent], path_step hstep (.nil _), hreturns⟩

/-! ## What is held back -/

/-- `readFrame` waits for the agent, and the task has its call of the socket before it. -/
structure IPCState.Stuck (s : IPCState) (k : ℕ) (task : SocketTask) : Prop where
  locked : s.Locked
  awaits : s.AwaitsAgent
  here : s.tasks[k]? = some task

theorem stuck_of_step (h : s.Stuck k task) (hneeds : task.needsSocket = true) (ha : a.fromAgent = false)
    (hstep : s.step isTerminate a = some (t, fs)) : t.Stuck k task := by
  have hafter := locked_of_step h.locked hstep
  obtain ⟨got, hreader, hshort, hopen⟩ := h.awaits
  have hlock : s.lock = some .reader := h.locked.reader.mpr ⟨got, hreader⟩
  have hwriting : ∀ j, s.writing j = none := h.locked.idle fun j hj => absurd (hlock.symm.trans hj) (by simp)
  obtain ⟨-, hcase⟩ := ipcStep_of_step hstep
  dsimp only at hcase
  cases hcase with
  | arrives | agentCloses => simp [IPCAction.fromAgent] at ha
  | spawns =>
    refine ⟨hafter, ⟨got, hreader, hshort, hopen⟩, ?_⟩
    show (s.tasks ++ [_])[k]? = some task
    rw [getElem?_append_left (lt_of_task h.here)]
    exact h.here
  | readLoopStarts hnot | handles _ hnot | terminates _ hnot => cases hreader.symm.trans hnot
  | readerLocks _ hfree | readerFindsClosed _ hfree | taskLocks _ _ _ _ hfree =>
    cases hlock.symm.trans hfree
  | readerReads _ count hreader' =>
    obtain rfl := ReaderPc.reading.inj (hreader.symm.trans hreader')
    have hall : isWhole (got ++ s.inbox.take count ++ s.inbox.drop count) = false := by
      rw [append_assoc, take_append_drop]
      exact hshort
    obtain ⟨-, heq⟩ | ⟨hwhole, -⟩ := readerGot_cases { s with inbox := s.inbox.drop count }
      (got ++ s.inbox.take count)
    · rw [heq] at hafter ⊢
      exact ⟨hafter, ⟨_, rfl, hall, hopen⟩, h.here⟩
    · cases (isWhole_of_append hall).symm.trans hwhole
  | readerEnds _ _ hclosed => cases hopen.symm.trans hclosed
  | taskFails index _ _ _ htask hbytes
  | taskWrites index _ _ _ htask hbytes =>
    exact absurd ((writing_of_task htask).symm.trans (hwriting index)) (by simp [hbytes])
  | taskGoesOn index _ _ _ htask hno =>
    have hne : index ≠ k := by
      rintro rfl
      cases h.here.symm.trans htask
      cases hneeds.symm.trans hno
    refine ⟨hafter, ⟨got, hreader, hshort, hopen⟩, ?_⟩
    show (s.tasks.set index _)[k]? = some task
    rw [getElem?_set_ne hne]
    exact h.here

theorem stuck_of_path (hpath : (ipcClient isTerminate).Path s as t fs) (h : s.Stuck k task)
    (hneeds : task.needsSocket = true) (hagent : ∀ a ∈ as, a.fromAgent = false) : t.Stuck k task := by
  induction hpath with
  | nil => exact h
  | cons hstep _ ih =>
    have hnext := stuck_of_step h hneeds (hagent _ mem_cons_self) hstep
    exact ih hnext fun a ha => hagent a (mem_cons_of_mem _ ha)

theorem neverWaits_iff (isTerminate : List UInt8 → Bool) (h : s.Locked) : s.NeverWaits isTerminate ↔
    s.NoneHeldBack := by
  constructor
  · intro hnever hawaits k task hpends
    obtain ⟨as, t, fs, hagent, hpath, task', htask', hmore⟩ := hnever k task hpends
    have hstuck := stuck_of_path hpath ⟨h, hawaits, hpends.here⟩ hpends.needs hagent
    cases hstuck.here.symm.trans htask'
    exact absurd hmore (Nat.lt_irrefl _)
  · intro hnone k task hpends
    exact canReturn_of_pends h (fun hawaits => hnone hawaits k task hpends) hpends

theorem locked_start : IPCState.Locked {} := by
  have hnone : ∀ k, IPCState.writing {} k = none := fun _ => rfl
  refine ⟨iff_of_false (by simp) (by simp), fun k => iff_of_false (by simp) (by simp [hnone]), fun got hgot => ?_,
    fun k => ?_⟩
  · simp at hgot
  · rw [hnone]
    simp

/-- In every state of a run frames are not mixed, and what is to be sent or closed can be completed without
the agent, if and only if `readFrame` holds none of it back. -/
theorem outbound_never_waits_iff (isTerminate : List UInt8 → Bool) (as : List IPCAction) :
    (ipcClient isTerminate).Every (fun s es _ => s.NeverWaits isTerminate ∧ s.NotInterleaved es) {} [] as ↔
      (ipcClient isTerminate).Every (fun s _ _ => s.NoneHeldBack) {} [] as := by
  refine Machine.every_iff (fun (s : IPCState) es => s.Locked ∧ s.Wrote es) ?_ ?_ as {} []
    ⟨locked_start, fun _ => rfl, prefix_refl _⟩
  · intro s es a t fs h _ hstep
    exact ⟨locked_of_step h.1 hstep, wrote_of_step h.2 h.1 hstep⟩
  · intro s es _ h
    rw [← neverWaits_iff isTerminate h.1]
    exact ⟨fun hboth => hboth.1, fun hnever => ⟨hnever, h.2.part⟩⟩

/-- In every run the lock is of the one who reads or writes, and frames are not mixed. -/
theorem frames_unmixed (isTerminate : List UInt8 → Bool) (as : List IPCAction) :
    (ipcClient isTerminate).Every (fun s es _ => s.Locked ∧ s.Wrote es) {} [] as :=
  Machine.every_of_reach (fun hrun => hrun.invariant (fun (s : IPCState) es => s.Locked ∧ s.Wrote es)
    ⟨locked_start, fun _ => rfl, prefix_refl _⟩ fun _ _ _ _ _ h _ hstep =>
      ⟨locked_of_step h.1 hstep, wrote_of_step h.2 h.1 hstep⟩) as .start

/-- The answer is sent, the read loop calls `readFrame`, and a candidate is generated. -/
def candidateWhileReading : List IPCAction :=
  [.answers [1] [2], .taskLocks 0, .taskWrites 0 5, .readLoopStarts, .readerLocks, .candidate [3]]

/-- The candidate waits for a frame of the agent. -/
theorem candidate_held_back : ¬∀ (isTerminate : List UInt8 → Bool) (as : List IPCAction),
    (ipcClient isTerminate).Every (fun s es _ => s.NeverWaits isTerminate ∧ s.NotInterleaved es) {} [] as := by
  intro hclaim
  have hrun : ((ipcClient fun _ => false).exec (fun _ _ _ => true) {} [] candidateWhileReading).any
      (fun r => decide (r.1.reader = .reading [] ∧ r.1.inbox = [] ∧ r.1.agentClosed = false ∧ r.1.exited = false ∧
        r.1.tasks = [{ jobs := [], returned := 1 }, { jobs := [.send [3]] }])) = true := by decide +kernel
  obtain ⟨⟨s, es⟩, hexec, hshape⟩ := (Option.any_eq_true ..).mp hrun
  obtain ⟨hreader, hinbox, hopen, hruns, htasks⟩ := of_decide_eq_true hshape
  have hlocked : s.Locked := by
    have hreach : (ipcClient fun _ => false).Reach (fun _ _ _ => True) {} s es :=
      Machine.reach_of_exec (fun _ _ _ _ => trivial) hexec
    exact hreach.invariant (fun s _ => s.Locked) locked_start fun _ _ _ _ _ h _ hs => locked_of_step h hs
  have hawaits : s.AwaitsAgent := ⟨[], hreader, by rw [hinbox]; rfl, hopen⟩
  have hpends : s.Pends 1 { jobs := [.send [3]] } := by
    refine ⟨hruns, by rw [htasks]; rfl, rfl, fun j _ => ?_⟩
    exact hlocked.idle (fun j hj => absurd ((hlocked.reader.mpr ⟨[], hreader⟩).symm.trans hj) (by simp)) j
  obtain ⟨_, rfl, hpath⟩ := Machine.path_of_exec _ hexec
  have hgood := Machine.Every.good hpath (hclaim (fun _ => false) (candidateWhileReading ++ [.readLoopStarts]))
  exact (neverWaits_iff _ hlocked).mp hgood.1 hawaits 1 _ hpends

end LigamentApps.LinkWorkerDarwin
