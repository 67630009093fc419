import LigamentApps.LinkHostRecorder.SpillFailure

/-!
# Recorders one after another

The directory of a session outlives the processes that record it: its `.spool` files, each sealed with the
key of the process that wrote it, and `.session.key`, which a later process reads its key from. A process
may end at any point, also while it writes its key file. -/

namespace LigamentApps.LinkHostRecorder

open LinkHost List

variable {answer : Option (Batch × BatchAck)} {name : String} {c : Cycle}

/-! ## The files of a step -/

/-- What a step does to the `.spool` files. -/
inductive FileOp
  | keep
  | put (file : SpoolFile)
  | remove (name : String)

/-- The directory after a file operation. -/
def FileOp.run (op : FileOp) (d : SpoolDir) : SpoolDir :=
  match op with
  | .keep => d
  | .put file => d.put file
  | .remove name => d.remove name

/-- The file operation of a step. -/
def fileOp (u : Setup) (s : Recorder) (a : Action) : FileOp :=
  match a, s.spill, s.flush with
  | .spillWritten true, .writing index b, _ =>
    .put { name := spoolName index, content := some b, length := LinkSpoolStorage.sealedLength u.doubleText b }
  | .chunkRemoved true, _, .removing _ name _ => .remove name
  | _, _, _ => .keep

namespace SpoolDir

variable {d e : SpoolDir} {name : String}

theorem ext_files (h : d.files = e.files) : d = e := by
  cases d
  cases e
  obtain rfl : _ = _ := h
  rfl

theorem remove_of_find?_eq_none (h : d.find? name = none) : d.remove name = d := by
  refine ext_files (filter_eq_self.mpr fun g hg => ?_)
  have hne := find?_eq_none.mp h g hg
  simpa using hne

/-- The directory, as a process with a key reads it. -/
def openedWith (d : SpoolDir) (sealedWith : String → List UInt8) (key : List UInt8) : SpoolDir where
  files := d.files.map fun g => { g with content := if sealedWith g.name = key then g.content else none }
  nodup := by
    rw [map_map]
    exact d.nodup

variable {sealedWith : String → List UInt8} {key : List UInt8}

theorem mem_openedWith {g : SpoolFile} (hg : g ∈ d.files) (hkey : sealedWith g.name = key) :
    g ∈ (d.openedWith sealedWith key).files := by
  refine mem_map.mpr ⟨g, hg, ?_⟩
  rw [if_pos hkey]

theorem remove_openedWith : (d.openedWith sealedWith key).remove name =
    (d.remove name).openedWith sealedWith key := by
  refine ext_files ?_
  show (d.files.map _).filter _ = (d.files.filter _).map _
  rw [filter_map]
  rfl

theorem put_openedWith (file : SpoolFile) : (d.openedWith sealedWith key).put file =
    (d.put file).openedWith (Function.update sealedWith file.name key) key := by
  refine ext_files ?_
  have hold : ∀ g ∈ (d.remove file.name).files,
      Function.update sealedWith file.name key g.name = sealedWith g.name := by
    intro g hg
    exact Function.update_of_ne (mem_remove.mp hg).2 _ _
  have hnew : Function.update sealedWith file.name key file.name = key := Function.update_self ..
  show ((d.openedWith sealedWith key).remove file.name).files ++ [file] =
    ((d.remove file.name).files ++ [file]).map _
  rw [remove_openedWith, map_append]
  refine congrArg₂ _ (map_congr_left fun g hg => ?_) ?_
  · rw [hold g hg]
  · rw [map_singleton, if_pos hnew]

end SpoolDir

namespace Recorder

variable (u : Setup) (s : Recorder)

@[simp] theorem spool_spillToSpool : (s.spillToSpool u).spool = s.spool := by
  unfold spillToSpool
  split
  · split
    · rfl
    split <;> rfl
  · rfl

@[simp] theorem spool_triggerMandatoryStop (reason : Violation) :
    (s.triggerMandatoryStop u reason).spool = s.spool := by
  unfold triggerMandatoryStop
  split
  · rfl
  split
  · exact s.spool_spillToSpool u
  · rfl

@[simp] theorem spool_selectLive (c : Cycle) : (s.selectLive u c).spool = s.spool := by
  unfold selectLive sendLive checkLeaseAndLag
  dsimp only
  split
  · split
    · exact spool_triggerMandatoryStop u _ _
    · rfl
  · rfl

end Recorder

section Files

variable {u : Setup} {s t : Recorder} {a : Action} {v w : Evidence} {drops beside : Prop}

theorem Calm.spool (hmove : Calm u drops beside v w) : w.spool = v.spool := by
  cases hmove with
  | refuse isFrame => cases isFrame <;> rfl
  | round _ _ _ _ _ hturn => cases hturn <;> rfl
  | _ => rfl

theorem Calmly.spool (h : Calmly u drops beside v w) : w.spool = v.spool := by
  induction h with
  | refl => rfl
  | tail _ hmove ih => exact hmove.spool.trans ih

theorem Head.dir (h : Head u s a w) (hwrites : a ≠ .spillWritten true)
    (hremoves : ∀ ok, a ≠ .chunkRemoved ok) : w.spool.dir = s.spool.dir := by
  cases h with
  | spillEnsured seen => exact s.spool.ensureInitialized_dir seen
  | spillWritten => exact absurd rfl hwrites
  | chunkRemoved ok => exact absurd rfl (hremoves ok)
  | flushContinued _ _ hturn => cases hturn <;> rfl
  | _ => rfl

theorem step_dir (hstep : step u s a = some t) : t.spool.dir = (fileOp u s a).run s.spool.dir := by
  by_cases hwrites : a = .spillWritten true
  · subst hwrites
    cases stepsTo hstep with
    | spillWritten _ hspill =>
      unfold fileOp Recorder.spillWritten Recorder.spillNext
      rw [hspill, if_pos rfl]
      split <;> rfl
  by_cases hremoves : ∃ ok, a = .chunkRemoved ok
  · obtain ⟨ok, rfl⟩ := hremoves
    cases stepsTo hstep with
    | @chunkRemoved _ c name answer hflush =>
      have hspool : (s.chunkRemoved u c name answer ok).spool = s.spool.removeBatch name ok := by
        unfold Recorder.chunkRemoved
        split
        · rw [Recorder.spool_selectLive]
          rfl
        · exact Recorder.spool_selectLive u _ c
      rw [hspool]
      unfold fileOp LinkSpoolStorage.removeBatch
      rw [hflush]
      cases ok with
      | false => split <;> rfl
      | true =>
        split
        · rfl
        · rename_i hnone
          exact (SpoolDir.remove_of_find?_eq_none hnone).symm
  · obtain ⟨w, hhead, hcalmly⟩ := step_moves hstep
    have hkeeps : fileOp u s a = .keep := by
      unfold fileOp
      split
      · exact absurd rfl hwrites
      · exact absurd ⟨_, rfl⟩ hremoves
      · rfl
    rw [hkeeps, hcalmly.spool]
    exact hhead.dir hwrites fun ok ha => hremoves ⟨ok, ha⟩

theorem Calm.removing (hmove : Calm u drops beside v w) (h : w.flush = .removing c name answer) :
    v.flush = .removing c name answer := by
  cases hmove with
  | refuse isFrame => cases isFrame <;> exact h
  | round _ _ _ _ _ hturn => cases hturn <;> simp at h
  | awaitSpill | insecure | settle | send | returned => simp at h
  | _ => exact h

theorem step_removing (hstep : step u s a = some t) (h : t.flush = .removing c name answer) :
    s.flush = .removing c name answer ∨
      (∃ ok, a = .chunkRead ok ∧ s.flush = .reading c name ∧ s.spool.readBatch name ok = none) ∨
      ∃ b ack, a = .chunkAnswered (.ok ack) ∧ s.flush = .sendingChunk c name b ∧ 0 < ack.ackHighWatermarkSeq := by
  obtain ⟨w, hhead, hcalmly⟩ := step_moves hstep
  have hw : w.flush = .removing c name answer := by
    clear hhead
    induction hcalmly using Relation.ReflTransGen.head_induction_on with
    | refl => exact h
    | head hmove _ ih => exact hmove.removing ih
  cases hhead with
  | chunkUnreadable hflush hread =>
    cases hw
    exact .inr (.inl ⟨_, rfl, hflush, hread⟩)
  | chunkAcked ack hflush hacks =>
    cases hw
    exact .inr (.inr ⟨_, ack, rfl, hflush, hacks⟩)
  | flushContinued _ _ hturn => cases hturn <;> simp at hw
  | chunkListed | nothingListed | chunkRead | chunkUnacked | chunkRemoved | flushSettled =>
    simp at hw
  | _ => exact .inl hw

end Files

/-! ## The processes -/

/-- `_resolveInitialKey`: the content of `.session.key` where it can be read and has 32 bytes, and otherwise a
generated key. -/
def resolveInitialKey (readable : Bool) (keyFile : Option (List UInt8)) (generated : List UInt8) : List UInt8 :=
  match keyFile with
  | some bytes => if readable && bytes.length = 32 then bytes else generated
  | none => generated

/-- The directory of a session, and the process that records it now. `disk` is what the files hold,
`sealedWith` the keys that they are sealed with; `unacked` is kept for the proofs only: the chunks that were
written and not yet acknowledged, by all processes so far. -/
structure SpoolHost where
  setup : Setup
  recorder : Recorder
  /-- `_sessionKey`. -/
  key : List UInt8
  /-- `.session.key`. -/
  keyFile : Option (List UInt8) := none
  disk : SpoolDir := .empty
  sealedWith : String → List UInt8 := fun _ => []
  unacked : List (String × Batch) := []

/-- What happens to the directory. -/
inductive HostAction
  | recorder (a : Action)
  /-- `_ensureInitialized` writes the key file; so many bytes of it reach the disk. -/
  | keyWritten (length : ℕ)
  /-- The process ends, wherever it is, and another one begins. -/
  | restart (u : Setup) (clock : ℤ) (readable : Bool) (generated : List UInt8)

namespace SpoolHost

/-- The chunks that are not acknowledged, after a step of the process. -/
def unackedAfter (h : SpoolHost) (a : Action) : List (String × Batch) :=
  match a, h.recorder.spill, h.recorder.flush with
  | .spillWritten true, .writing index b, _ => h.unacked ++ [(spoolName index, b)]
  | .chunkAnswered (.ok ack), _, .sendingChunk _ name _ =>
    if 0 < ack.ackHighWatermarkSeq then h.unacked.filter (·.1 ≠ name) else h.unacked
  | _, _, _ => h.unacked

/-- The keys of the files, after a file operation of the process. -/
def sealedAfter (h : SpoolHost) : FileOp → String → List UInt8
  | .put file => Function.update h.sealedWith file.name h.key
  | _ => h.sealedWith

/-- The process takes a step. -/
def recorderStep (h : SpoolHost) (a : Action) (t : Recorder) : SpoolHost :=
  { h with
    recorder := t
    disk := (fileOp h.setup h.recorder a).run h.disk
    sealedWith := h.sealedAfter (fileOp h.setup h.recorder a)
    unacked := h.unackedAfter a }

/-- Another process begins. -/
def restarted (h : SpoolHost) (u : Setup) (clock : ℤ) (readable : Bool) (generated : List UInt8) : SpoolHost :=
  { h with
    setup := u
    recorder := .create clock
      { dir := h.disk.openedWith h.sealedWith (resolveInitialKey readable h.keyFile generated) }
    key := resolveInitialKey readable h.keyFile generated }

/-- One step of a process, or from one to the next. -/
def step (h : SpoolHost) : HostAction → Option SpoolHost
  | .recorder a => (LinkHostRecorder.step h.setup h.recorder a).map (h.recorderStep a)
  | .keyWritten length =>
    match h.recorder.spill, h.keyFile with
    | .ensuring _ _, none =>
      if h.recorder.spool.initialized then none else some { h with keyFile := some (h.key.take length) }
    | _, _ => none
  | .restart u clock readable generated => some (h.restarted u clock readable generated)

/-- The first process of a session. -/
def create (u : Setup) (clock : ℤ) (key : List UInt8) : SpoolHost where
  setup := u
  recorder := .create clock { dir := .empty }
  key := key

end SpoolHost

/-- The processes of a session, as a machine. -/
def spoolHost : Machine SpoolHost HostAction Empty := ⟨fun h a => (h.step a).map fun r => (r, [])⟩

/-- No chunk has taken the place of one that is not acknowledged, and every such chunk can be read. -/
structure ChunksSafe (h : SpoolHost) : Prop where
  distinct : (h.unacked.map (·.1)).Nodup
  readable : ∀ e ∈ h.unacked, ∃ g ∈ h.recorder.spool.dir.files, g.name = e.1 ∧ g.content = some e.2

/-- The file that the flush cycle sends or deletes. -/
def FlushPhase.inHand : FlushPhase → Option String
  | .sendingChunk _ name _ | .removing _ name _ => some name
  | _ => none

/-- What keeps the chunks in a step. A chunk is written to a name under which no unacknowledged one is on disk
and which the flush cycle does not work on; an unacknowledged chunk that is read can be read; and a new
process finds the key of every unacknowledged chunk. -/
structure KeepsChunks (h : SpoolHost) (a : HostAction) : Prop where
  writes : ∀ index b, a = .recorder (.spillWritten true) → h.recorder.spill = .writing index b →
    (∀ e ∈ h.unacked, e.1 ≠ spoolName index) ∧ h.recorder.flush.inHand ≠ some (spoolName index)
  reads : ∀ ok c name, a = .recorder (.chunkRead ok) → h.recorder.flush = .reading c name →
    (∃ e ∈ h.unacked, e.1 = name) → ok = true
  restarts : ∀ u clock readable generated, a = .restart u clock readable generated →
    ∀ e ∈ h.unacked, h.sealedWith e.1 = resolveInitialKey readable h.keyFile generated

/-- What is true of the chunks in every run whose steps keep them. -/
structure ChunksKept (h : SpoolHost) : Prop where
  dir : h.recorder.spool.dir = h.disk.openedWith h.sealedWith h.key
  onDisk : ∀ e ∈ h.unacked, ∃ g ∈ h.disk.files, g.name = e.1 ∧ g.content = some e.2
  sealed : ∀ e ∈ h.unacked, h.sealedWith e.1 = h.key
  distinct : (h.unacked.map (·.1)).Nodup
  removing : ∀ c name answer, h.recorder.flush = .removing c name answer → ∀ e ∈ h.unacked, e.1 ≠ name

section Host

variable {h : SpoolHost} {t : Recorder} {a : Action}

theorem ChunksKept.safe (h' : ChunksKept h) : ChunksSafe h where
  distinct := h'.distinct
  readable := by
    intro e he
    obtain ⟨g, hg, hname, hcontent⟩ := h'.onDisk e he
    have hkey : h.sealedWith g.name = h.key := by
      rw [hname]
      exact h'.sealed e he
    refine ⟨g, ?_, hname, hcontent⟩
    rw [h'.dir]
    exact SpoolDir.mem_openedWith hg hkey

theorem ChunksKept.dir_step (h' : ChunksKept h) (hstep : step h.setup h.recorder a = some t) :
    t.spool.dir = ((fileOp h.setup h.recorder a).run h.disk).openedWith
      (h.sealedAfter (fileOp h.setup h.recorder a)) h.key := by
  rw [step_dir hstep, h'.dir]
  cases fileOp h.setup h.recorder a with
  | keep => rfl
  | put file => exact SpoolDir.put_openedWith file
  | remove => exact SpoolDir.remove_openedWith

theorem mem_unackedAfter {e : String × Batch} (he : e ∈ h.unackedAfter a) :
    e ∈ h.unacked ∨ ∃ index b, a = .spillWritten true ∧ h.recorder.spill = .writing index b ∧
      e = (spoolName index, b) := by
  unfold SpoolHost.unackedAfter at he
  split at he
  · rename_i index b hspill
    rcases mem_append.mp he with hold | hnew
    · exact .inl hold
    · exact .inr ⟨index, b, rfl, hspill, mem_singleton.mp hnew⟩
  · split at he
    · exact .inl (mem_of_mem_filter he)
    · exact .inl he
  · exact .inl he

theorem ChunksKept.stays (h' : ChunksKept h) (hkeeps : KeepsChunks h (.recorder a)) {e : String × Batch}
    (he : e ∈ h.unacked) : (∃ g ∈ ((fileOp h.setup h.recorder a).run h.disk).files, g.name = e.1 ∧
      g.content = some e.2) ∧ h.sealedAfter (fileOp h.setup h.recorder a) e.1 = h.sealedWith e.1 := by
  obtain ⟨g, hg, hname, hcontent⟩ := h'.onDisk e he
  unfold fileOp
  split
  · rename_i index b hspill
    have hne := (hkeeps.writes index b rfl hspill).1 e he
    refine ⟨⟨g, SpoolDir.mem_put.mpr (.inl ⟨hg, ?_⟩), hname, hcontent⟩, Function.update_of_ne hne _ _⟩
    rw [hname]
    exact hne
  · rename_i c name answer hflush
    refine ⟨⟨g, SpoolDir.mem_remove.mpr ⟨hg, ?_⟩, hname, hcontent⟩, rfl⟩
    rw [hname]
    exact h'.removing c name answer hflush e he
  · exact ⟨⟨g, hg, hname, hcontent⟩, rfl⟩

theorem written_onDisk {index : ℕ} {b : Batch} (hspill : h.recorder.spill = .writing index b) :
    (∃ g ∈ ((fileOp h.setup h.recorder (.spillWritten true)).run h.disk).files, g.name = spoolName index ∧
      g.content = some b) ∧
      h.sealedAfter (fileOp h.setup h.recorder (.spillWritten true)) (spoolName index) = h.key := by
  unfold fileOp
  rw [hspill]
  exact ⟨⟨_, SpoolDir.mem_put.mpr (.inr rfl), rfl, rfl⟩, Function.update_self ..⟩

theorem ChunksKept.distinct_step (h' : ChunksKept h) (hkeeps : KeepsChunks h (.recorder a)) :
    ((h.unackedAfter a).map (·.1)).Nodup := by
  unfold SpoolHost.unackedAfter
  split
  · rename_i index b hspill
    obtain ⟨hfresh, -⟩ := hkeeps.writes index b rfl hspill
    rw [map_append]
    refine List.Nodup.append h'.distinct (nodup_singleton _) fun name hold hnew => ?_
    obtain ⟨e, he, rfl⟩ := mem_map.mp hold
    exact hfresh e he (mem_singleton.mp hnew)
  · split
    · exact h'.distinct.sublist (filter_sublist.map _)
    · exact h'.distinct
  · exact h'.distinct

theorem ChunksKept.removing_step (h' : ChunksKept h) (hkeeps : KeepsChunks h (.recorder a))
    (hstep : step h.setup h.recorder a = some t) (hflush : t.flush = .removing c name answer) :
    ∀ e ∈ h.unackedAfter a, e.1 ≠ name := by
  intro e he
  rcases step_removing hstep hflush with hbefore | ⟨ok, rfl, hreading, hunreadable⟩ | ⟨b, ack, rfl, hsending, hacks⟩
  · rcases mem_unackedAfter he with hold | ⟨index, b, rfl, hspill, rfl⟩
    · exact h'.removing c name answer hbefore e hold
    · intro hname
      refine (hkeeps.writes index b rfl hspill).2 ?_
      rw [hbefore]
      exact congrArg some hname.symm
  · rintro rfl
    rcases mem_unackedAfter he with hold | ⟨_, _, ha, _⟩
    · -- The chunk is there, its key is that of the process, and it can be read.
      obtain rfl := hkeeps.reads ok c e.1 rfl hreading ⟨e, hold, rfl⟩
      obtain ⟨g, hg, hname, hcontent⟩ := h'.safe.readable e hold
      have hfind := SpoolDir.find?_eq_some.mpr ⟨hg, hname⟩
      simp only [LinkSpoolStorage.readBatch, if_true, hfind, Option.bind_some, hcontent] at hunreadable
      simp at hunreadable
    · simp at ha
  · have hfilter : h.unackedAfter (.chunkAnswered (.ok ack)) = h.unacked.filter (·.1 ≠ name) := by
      unfold SpoolHost.unackedAfter
      rw [hsending]
      exact if_pos hacks
    rw [hfilter] at he
    simpa using (mem_filter.mp he).2

theorem ChunksKept.recorderStep (h' : ChunksKept h) (hkeeps : KeepsChunks h (.recorder a))
    (hstep : step h.setup h.recorder a = some t) : ChunksKept (h.recorderStep a t) := by
  constructor
  case dir => exact h'.dir_step hstep
  case onDisk =>
    intro e he
    rcases mem_unackedAfter he with hold | ⟨index, b, rfl, hspill, rfl⟩
    · exact (h'.stays hkeeps hold).1
    · exact (written_onDisk hspill).1
  case sealed =>
    intro e he
    rcases mem_unackedAfter he with hold | ⟨index, b, rfl, hspill, rfl⟩
    · exact (h'.stays hkeeps hold).2.trans (h'.sealed e hold)
    · exact (written_onDisk hspill).2
  case distinct => exact h'.distinct_step hkeeps
  case removing => exact fun c name answer hflush => h'.removing_step hkeeps hstep hflush

theorem ChunksKept.step {a : HostAction} {r : SpoolHost} (h' : ChunksKept h) (hkeeps : KeepsChunks h a)
    (hstep : h.step a = some r) : ChunksKept r := by
  cases a with
  | recorder =>
    obtain ⟨t, ht, rfl⟩ := Option.map_eq_some_iff.mp hstep
    exact h'.recorderStep hkeeps ht
  | keyWritten =>
    simp only [SpoolHost.step] at hstep
    split at hstep
    · split at hstep
      · simp at hstep
      · cases hstep
        exact ⟨h'.dir, h'.onDisk, h'.sealed, h'.distinct, h'.removing⟩
    · simp at hstep
  | restart u clock readable generated =>
    cases hstep
    exact ⟨rfl, h'.onDisk, hkeeps.restarts u clock readable generated rfl, h'.distinct, by
      simp [SpoolHost.restarted, Recorder.create]⟩

theorem run_chunksKept {u : Setup} {clock : ℤ} {key : List UInt8} {es : List Empty}
    (hrun : spoolHost.Reach (fun h _ a => KeepsChunks h a) (.create u clock key) h es) : ChunksKept h := by
  refine hrun.invariant (fun h _ => ChunksKept h) ?_ ?_
  · exact ⟨rfl, by simp [SpoolHost.create], by simp [SpoolHost.create], by simp [SpoolHost.create],
      by simp [SpoolHost.create, Recorder.create]⟩
  · intro h _ a r _ hkept hkeeps hstep
    obtain ⟨r', hr, hpair⟩ := Option.map_eq_some_iff.mp hstep
    cases hpair
    exact hkept.step hkeeps hr

end Host

/-- The first process of the examples. -/
def sampleHost : SpoolHost := .create (sampleSetup "resilient") 0 (List.replicate 32 1)

/-- A process spills its first chunk; `keyActions` is what happens to its key file. -/
def spillingOne (byte : UInt8) (keyActions : List HostAction) : List HostAction :=
  [.recorder .start, .recorder (.enqueueFrame (sampleFrame byte)),
    .recorder (.observeControlInput sampleMessage false)] ++ keyActions ++
    [.recorder (.spillEnsured true [spoolName 1]), .recorder (.spillChecked none), .recorder (.spillWritten true)]

/-- After a first process has written a chunk, a second one begins and finds the key. -/
def restarting : List HostAction :=
  spillingOne 1 [.keyWritten 32] ++ [.restart (sampleSetup "resilient") 0 true (List.replicate 32 2)]

theorem restarting_replaces : ∃ r ∈ spoolHost.exec (fun _ _ _ => true) sampleHost [] (restarting ++ spillingOne 2 []),
      r.1.unacked.map (·.1) = [spoolName 1, spoolName 1] ∧ r.1.disk.files.length = 1 := by
  decide +kernel

/-- A chunk of an earlier process is replaced before it is acknowledged. -/
theorem restart_replaces_chunk : ¬ ∀ (h : SpoolHost) (es : List Empty),
      spoolHost.Reach (fun _ _ _ => True) sampleHost h es → ChunksSafe h := by
  intro hclaim
  obtain ⟨⟨h, es⟩, hexec, hnames, -⟩ := restarting_replaces
  have hsafe := hclaim h es (Machine.reach_of_exec (fun _ _ _ _ => trivial) hexec)
  have hdistinct := hsafe.distinct
  rw [hnames] at hdistinct
  simp at hdistinct

/-- In every sequence of processes whose steps keep the chunks, no chunk takes the place of one that is not
acknowledged, and every such chunk can be read. -/
theorem chunks_survive_restarts {u : Setup} {clock : ℤ} {key : List UInt8} {h : SpoolHost} {es : List Empty}
    (hrun : spoolHost.Reach (fun h _ a => KeepsChunks h a) (.create u clock key) h es) : ChunksSafe h :=
  (run_chunksKept hrun).safe

/-- `KeepsChunks`, evaluated. -/
def keepsChunks (h : SpoolHost) (a : HostAction) : Bool :=
  match a, h.recorder.spill, h.recorder.flush with
  | .recorder (.spillWritten true), .writing index _, p =>
    (h.unacked.all fun e => e.1 ≠ spoolName index) && p.inHand ≠ some (spoolName index)
  | .recorder (.chunkRead ok), _, _ => ok
  | .restart _ _ readable generated, _, _ =>
    h.unacked.all fun e => h.sealedWith e.1 = resolveInitialKey readable h.keyFile generated
  | _, _, _ => true

theorem keepsChunks_of {h : SpoolHost} {a : HostAction} (hkeeps : keepsChunks h a = true) : KeepsChunks h a := by
  constructor
  case writes =>
    rintro index b rfl hspill
    simp only [keepsChunks, hspill, Bool.and_eq_true, all_eq_true, decide_eq_true_eq] at hkeeps
    exact hkeeps
  case reads =>
    rintro ok c name rfl hflush -
    simpa [keepsChunks] using hkeeps
  case restarts =>
    rintro u clock readable generated rfl e he
    simp only [keepsChunks, all_eq_true, decide_eq_true_eq] at hkeeps
    exact hkeeps e he

/-- The second process reads the chunk of the first. -/
theorem chunks_survive_restarts_sample :
    ∃ h : SpoolHost, h.unacked.map (·.1) = [spoolName 1] ∧ h.recorder.spool.initialized = false ∧ ChunksSafe h := by
  have hrestarted : ∃ r ∈ spoolHost.exec (fun h _ a => keepsChunks h a) sampleHost [] restarting,
      r.1.unacked.map (·.1) = [spoolName 1] ∧ r.1.recorder.spool.initialized = false := by decide +kernel
  obtain ⟨⟨h, es⟩, hexec, hnames, hfresh⟩ := hrestarted
  have hrun : spoolHost.Reach (fun h _ a => KeepsChunks h a) sampleHost h es :=
    Machine.reach_of_exec (fun _ _ _ => keepsChunks_of) hexec
  exact ⟨h, hnames, hfresh, chunks_survive_restarts hrun⟩

end LigamentApps.LinkHostRecorder
