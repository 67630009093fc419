import LigamentApps.LinkHostRecorder.Custody
import LigamentApps.LinkHostRecorder.Reports

/-!
# What a flushed tail means

`stop` returns true when nothing is pending, no loss is unpublished, and the spool's counter is zero.
The counter covers the directory once the directory was listed, and it is listed only when the first
chunk is written. -/

namespace LigamentApps.LinkHostRecorder

open LinkHost List Option Bool

variable {s t : Recorder} {a : Action}

/-- The flush cycle works on the chunks. -/
def FlushPhase.drains : FlushPhase → Bool
  | .listing _ | .reading _ _ | .sendingChunk _ _ _ | .removing _ _ _ => true
  | _ => false

def SpillPhase.opened : SpillPhase → Bool
  | .checking _ _ | .writing _ _ => true
  | _ => false

/-- The spool's counter covers the files, unless the directory is what it was at the start. -/
structure Tally (u : Setup) (dir : SpoolDir) (v : Evidence) : Prop where
  counts : v.spool.initialized = true → v.spool.Counts
  spools : v.spool.initialized = true ∨ v.spill.batch.isSome = true → u.spool = true
  unopened : v.spool.initialized = false →
    v.spool.pendingCount = 0 ∧ v.spool.dir = dir ∧ v.spill.opened = false ∧ v.flush.drains = false

/-- The first listing of the directory reaches every file. -/
def ListsAll (s : Recorder) : Action → Prop
  | .spillEnsured _ seen => s.spool.initialized = false → ∀ g ∈ s.spool.dir.files, g.name ∈ seen
  | _ => True

namespace Tally

variable {u : Setup} {dir : SpoolDir} {v w : Evidence}

theorem initialized_of_pending (h : Tally u dir v) (hchunks : v.spool.hasPendingChunks = true) :
    v.spool.initialized = true := by
  by_contra hnot
  have hzero := (h.unopened (by simpa using hnot)).1
  have hpos : 0 < v.spool.pendingCount := by simpa [LinkSpoolStorage.hasPendingChunks] using hchunks
  omega

theorem congr (h : Tally u dir v) (hspool : w.spool = v.spool)
    (hbatch : w.spill.batch.isSome = true → v.spill.batch.isSome = true ∨ u.spool = true)
    (hopened : w.spill.opened = true → v.spill.opened = true)
    (hdrains : w.flush.drains = true → v.flush.drains = true ∨ v.spool.initialized = true) :
    Tally u dir w := by
  constructor
  case counts =>
    rw [hspool]
    exact h.counts
  case spools =>
    rw [hspool]
    rintro (hinit | hheld)
    · exact h.spools (.inl hinit)
    · rcases hbatch hheld with hold | hon
      · exact h.spools (.inr hold)
      · exact hon
  case unopened =>
    rw [hspool]
    intro hnot
    obtain ⟨hzero, hdir, hclosed, hidle⟩ := h.unopened hnot
    refine ⟨hzero, hdir, ?_, ?_⟩
    · by_contra hopen
      have hbefore := hopened (by simpa using hopen)
      rw [hclosed] at hbefore
      simp at hbefore
    · by_contra hdrain
      rcases hdrains (by simpa using hdrain) with hbefore | hinit
      · rw [hidle] at hbefore
        simp at hbefore
      · rw [hnot] at hinit
        simp at hinit

theorem turn (h : Tally u dir v) {c : Cycle} (hturn : Turn u v c w) : Tally u dir w := by
  cases hturn with
  | listing hknows =>
    have hchunks : v.spool.hasPendingChunks = true := by
      simp only [Evidence.knowsChunks, and_eq_true] at hknows
      exact hknows.2
    exact h.congr rfl .inl id fun _ => .inr (h.initialized_of_pending hchunks)
  | selecting => exact h.congr rfl .inl id (by simp [FlushPhase.drains])

theorem calm (h : Tally u dir v) {drops beside : Prop} (hmove : Calm u drops beside v w) : Tally u dir w := by
  cases hmove with
  | merge =>
    refine h.congr rfl (fun hheld => ?_) (fun hopen => ?_) .inl
    · change (v.spill.setMetadata _).batch.isSome = true at hheld
      cases hspill : v.spill <;> simp_all [SpillPhase.setMetadata, SpillPhase.batch]
    · change (v.spill.setMetadata _).opened = true at hopen
      cases hspill : v.spill <;> simp_all [SpillPhase.setMetadata, SpillPhase.opened]
  | take _ _ hspool =>
    refine h.congr rfl (fun _ => .inr ?_) (by simp [Evidence.takeChunk, SpillPhase.opened]) .inl
    rcases hspool with hon | hchunks
    · exact hon.1
    · exact h.spools (.inl (h.initialized_of_pending hchunks))
  | refuse isFrame => cases isFrame <;> exact h.congr rfl .inl id .inl
  | spillNothing =>
    exact h.congr rfl (by simp [SpillPhase.batch]) (by simp [SpillPhase.opened]) .inl
  | round _ _ _ _ _ hturn => exact h.turn hturn
  | awaitSpill | insecure | settle | send | returned =>
    exact h.congr rfl .inl id (by simp [FlushPhase.drains])
  | _ => exact h.congr rfl .inl id .inl

theorem of_opened (hcounts : w.spool.Counts) (hinit : w.spool.initialized = true)
    (hon : u.spool = true) : Tally u dir w where
  counts := fun _ => hcounts
  spools := fun _ => hon
  unopened := fun hnot => absurd (hinit.symm.trans hnot) (by simp)

theorem head (h : Tally u dir s.toEvidence) (hlists : ListsAll s a) (hmove : Head u s a w) : Tally u dir w := by
  -- What works on a chunk works on an opened spool.
  have hopened : s.spill.opened = true ∨ s.flush.drains = true → s.spool.initialized = true := by
    intro hworks
    by_contra hnot
    obtain ⟨-, -, hclosed, hidle⟩ := h.unopened (by simpa using hnot)
    rw [hclosed, hidle] at hworks
    simp at hworks
  cases hmove with
  | none => exact h
  | spillEnsured _ hspill =>
    have hon : u.spool = true := h.spools (.inr (by rw [hspill]; rfl))
    exact of_opened (.ensureInitialized h.counts hlists) (by simp) hon
  | spillChecked _ hspill =>
    exact h.congr rfl (fun _ => .inl (by rw [hspill]; rfl)) (fun _ => by rw [hspill]; rfl) .inl
  | spillWritten hspill =>
    have hinit := hopened (.inl (by rw [hspill]; rfl))
    exact of_opened ((h.counts hinit).write _ _ _) hinit (h.spools (.inl hinit))
  | chunkRemoved ok hflush =>
    have hinit := hopened (.inr (by rw [hflush]; rfl))
    refine of_opened ((h.counts hinit).removeBatch _ ok) ?_ (h.spools (.inl hinit))
    unfold LinkSpoolStorage.removeBatch
    split
    · split <;> exact hinit
    · exact hinit
  | flushContinued _ _ hturn => exact h.turn hturn
  | spillFailed | spillSettled =>
    exact h.congr rfl (by simp [SpillPhase.batch]) (by simp [SpillPhase.opened]) .inl
  | liveUnsettled | liveSettled => exact h.congr rfl .inl id .inl
  | chunkListed hflush | chunkRead hflush | chunkUnreadable hflush | chunkAcked _ hflush =>
    exact h.congr rfl .inl id fun _ => .inl (by rw [hflush]; rfl)
  | _ => exact h.congr rfl .inl id (by simp [FlushPhase.drains])

theorem create (clock : ℤ) : Tally u dir (Recorder.create clock { dir }).toEvidence where
  counts := by simp [Recorder.create]
  spools := by simp [Recorder.create, SpillPhase.batch]
  unopened := by simp [Recorder.create, SpillPhase.opened, FlushPhase.drains]

end Tally

/-! ## The step in which `stop` returns -/

/-- In a step `stop` returns true. -/
def ReturnsTrue (s t : Recorder) : Prop := ∃ rs, t.log = s.log ++ (rs ++ [.stopReturned true])

section Returns

variable {u : Setup}

theorem tailFlushed_of_returnsTrue (hstep : step u s a = some t) (hon : u.config.enabled = true)
    (hreturns : ReturnsTrue s t) : TailFlushed u t.toEvidence := by
  obtain ⟨w, hhead, hcalmly⟩ := step_moves hstep
  obtain ⟨rs, hw, hnot⟩ := hhead.reports
  obtain ⟨rs', ht, hlast⟩ := hcalmly.reports
  obtain ⟨before, hbefore⟩ := hreturns
  rw [ht, hw, append_assoc] at hbefore
  have hall := append_cancel_left hbefore
  have hend : (rs ++ rs').getLast? = some (.stopReturned true) := by
    rw [hall, getLast?_concat]
  rw [getLast?_append] at hend
  refine hlast ?_ hon
  cases hrs' : rs'.getLast? with
  | none =>
    rw [hrs'] at hend
    exact absurd hend hnot
  | some =>
    rw [hrs'] at hend
    exact hend

/-- `ReturnsTrue`, evaluated. -/
def returnsTrue (s t : Recorder) : Bool :=
  s.log.length < t.log.length &&
    match t.log.getLast? with
    | some (.stopReturned result) => result
    | _ => false

theorem returnsTrue_of_step (hstep : step u s a = some t) (h : returnsTrue s t = true) : ReturnsTrue s t := by
  simp only [returnsTrue, and_eq_true, decide_eq_true_eq] at h
  obtain ⟨hlonger, hlast⟩ := h
  obtain ⟨rs, hrs⟩ := log_step hstep
  rcases eq_nil_or_concat rs with rfl | ⟨most, r, rfl⟩
  · rw [hrs, append_nil] at hlonger
    omega
  · rw [concat_eq_append] at hrs
    rw [hrs, ← append_assoc, getLast?_concat] at hlast
    refine ⟨most, ?_⟩
    rw [hrs]
    split at hlast
    · rename_i result hr
      rw [Option.some.inj hr, hlast]
    · simp at hlast

end Returns

/-! ## A recorder that records nothing -/

/-- Nothing has happened. -/
structure Off (spool : LinkSpoolStorage) (s : Recorder) : Prop where
  spill : s.spill = .idle
  flush : s.flush = .idle
  stop : s.stop = .idle
  spool : s.spool = spool
  accepted : ∀ j, ¬ Accepted s.toEvidence j

theorem run_off {u : Setup} (hoff : u.config.enabled = false) {clock : ℤ} {spool : LinkSpoolStorage}
    {Good : Recorder → List Empty → Action → Prop} {es : List Empty}
    (hrun : (recorder u).Reach Good (.create clock spool) t es) : Off spool t := by
  refine hrun.invariant (fun s _ => Off spool s) ⟨rfl, rfl, rfl, rfl, by simp [Accepted, Recorder.create]⟩ ?_
  intro s es a t fs hs _ hstep
  obtain ⟨t', ht', hpair⟩ := map_eq_some_iff.mp hstep
  cases hpair
  obtain ⟨hspill, hflush, hstop, hspool, haccepted⟩ := hs
  cases a with
  | tick =>
    cases ht'
    exact ⟨hspill, hflush, hstop, hspool, haccepted⟩
  | stop =>
    simp only [step, hstop, Recorder.beginStop, hoff, Option.some.injEq, false_eq_true, if_false] at ht'
    subst ht'
    exact ⟨hspill, hflush, rfl, hspool, fun j hj => haccepted j (by simpa [Accepted] using hj)⟩
  | notifyDesktopChanged =>
    simp only [step, Option.some.injEq] at ht'
    subst ht'
    unfold Recorder.notifyDesktopChanged
    split
    · split <;> exact ⟨hspill, hflush, hstop, hspool, haccepted⟩
    · exact ⟨hspill, hflush, hstop, hspool, haccepted⟩
  | timerFired =>
    simp only [step, Recorder.timerFired, Recorder.flushAndVerifyHealth, hoff, Bool.not_false,
      Bool.true_or, if_true, ite_none_right_eq_some, Option.some.injEq] at ht'
    obtain ⟨-, rfl⟩ := ht'
    exact ⟨hspill, hflush, hstop, hspool, haccepted⟩
  | _ =>
    simp [step, Recorder.start, Recorder.enqueueFrame, Recorder.observeControlInput,
      Recorder.flushAndVerifyHealth, hoff, hspill, hflush, hstop] at ht'
    try
      subst ht'
      exact ⟨hspill, hflush, hstop, hspool, haccepted⟩

/-! ## What is delivered -/

/-- The loss of an item is counted by a gap marker that has arrived. -/
def LossDelivered (v : Evidence) (j : Item) : Prop :=
  ∃ m : Event, m.isGapMarker = true ∧ Arrived v (.event m) ∧ 0 < m.lossOf (lossCounter j)

/-- Everything accepted has arrived, and nothing is left on disk. -/
structure AllDelivered (v : Evidence) : Prop where
  delivered : ∀ j, Accepted v j → Delivered v j ∨ LossDelivered v j
  nothingOnDisk : v.spool.dir.files = []

/-- The session begins and ends, and everything that is pending is acknowledged. -/
def stopping : List Action :=
  [.start, .stop "", .liveAnswered (.ok (sampleAck 2)), .flushContinued]

/-- A directory with a chunk of an earlier process: one frame. -/
def leftover : SpoolDir :=
  ⟨[⟨spoolName 1, some ((sampleSetup "resilient").batch
    [⟨1, "activity", "primary", 1920, 1080, "webp", [1], 0⟩] []), 300⟩], by simp⟩

theorem stopping_leaves :
    ∃ r ∈ (recorder (sampleSetup "resilient")).exec (fun _ _ _ => true) (.create 0 { dir := leftover }) []
        stopping,
      ∃ t ∈ step (sampleSetup "resilient") r.1 .flushSettled,
        returnsTrue r.1 t = true ∧ t.spool.dir.files.length = 1 := by
  decide

/-- `stop` returns true with a chunk on disk. -/
theorem stopped_with_leftover : ¬ ∀ (dir : SpoolDir) (s t : Recorder) (es : List Empty) (a : Action),
      (recorder (sampleSetup "resilient")).Reach (fun _ _ _ => True) (.create 0 { dir }) s es →
      step (sampleSetup "resilient") s a = some t → ReturnsTrue s t → AllDelivered t.toEvidence := by
  intro hclaim
  obtain ⟨⟨s, es⟩, hexec, t, hstep, hreturns, hfiles⟩ := stopping_leaves
  have hrun : (recorder (sampleSetup "resilient")).Reach (fun _ _ _ => True)
      (.create 0 { dir := leftover }) s es := Machine.reach_of_exec (fun _ _ _ _ => trivial) hexec
  have hnothing :=
    (hclaim leftover s t es .flushSettled hrun hstep (returnsTrue_of_step hstep hreturns)).nothingOnDisk
  rw [hnothing] at hfiles
  simp at hfiles

/-- Where no write fails, no chunk is deleted that may not be, and the first listing is complete, `stop`
returns true only when everything has arrived, if no spill holds anything then, and the spool was opened
or the directory was empty. -/
theorem stopped_all_delivered {u : Setup} {clock : ℤ} {dir : SpoolDir} {s t : Recorder} {es : List Empty}
    {a : Action}
    (hrun : (recorder u).Reach (fun s _ a => Careful u s a ∧ ListsAll s a) (.create clock { dir }) s es)
    (hgood : Careful u s a ∧ ListsAll s a) (hstep : step u s a = some t) (hreturns : ReturnsTrue s t)
    (hidle : t.spill.batch = none) (hopened : t.spool.initialized = true ∨ dir.files = []) :
    AllDelivered t.toEvidence := by
  have hmachine : (recorder u).step s a = some (t, []) := by
    show (step u s a).map _ = _
    rw [hstep]
    rfl
  have hrun' := hrun.step hgood hmachine
  cases hon : u.config.enabled with
  | false =>
    have hoff := run_off hon hrun'
    refine ⟨fun j hj => absurd hj (hoff.accepted j), ?_⟩
    rw [hoff.spool] at hopened ⊢
    exact hopened.resolve_left (by simp)
  | true =>
    have hcustody := run_custody (fun _ _ _ => And.left) hrun'
    have htally : Tally u dir t.toEvidence :=
      run_invariant (Tally u dir) (.create clock) (fun _ _ _ _ h hstep hmove => h.head hstep.2 hmove)
        (fun _ _ _ _ h hmove => h.calm hmove) hrun'
    have hflushed := tailFlushed_of_returnsTrue hstep hon hreturns
    have hnothing : t.spool.dir.files = [] := by
      cases hinit : t.spool.initialized with
      | false =>
        rw [(htally.unopened hinit).2.1]
        exact hopened.resolve_left (by simp [hinit])
      | true =>
        refine (htally.counts hinit).files_eq_nil ?_
        have hnone := hflushed.noChunks
        rw [Evidence.knowsChunks, htally.spools (.inl hinit), Bool.true_and] at hnone
        exact hnone
    refine ⟨fun j hj => ?_, hnothing⟩
    rcases hcustody.kept j hj with ⟨i, hi, -⟩ | ⟨i, hi, -⟩ | ⟨_, _, _, g, hg, -⟩ | hdone
    · rw [Evidence.queue_eq_nil hflushed.queueEmpty] at hi
      simp at hi
    · simp [SpillPhase.items, hidle] at hi
    · rw [hnothing] at hg
      simp at hg
    · exact .inl hdone

/-- The session of `stopping` in an empty directory. -/
theorem stopped_all_delivered_sample :
    ∃ s t : Recorder, step (sampleSetup "resilient") s .flushSettled = some t ∧ ReturnsTrue s t ∧
      AllDelivered t.toEvidence := by
  have hstopped : ∃ r ∈ (recorder (sampleSetup "resilient")).exec
      (fun s _ a => !spillFails (sampleSetup "resilient") s a &&
        !(match a with | .chunkRemoved _ | .spillEnsured _ _ => true | _ => false))
      (.create 0 { dir := .empty }) [] stopping,
      ∃ t ∈ step (sampleSetup "resilient") r.1 .flushSettled,
        returnsTrue r.1 t = true ∧ t.spill.batch.isNone = true := by decide
  obtain ⟨⟨s, es⟩, hexec, t, hstep, hreturns, hidle⟩ := hstopped
  have hrun : (recorder (sampleSetup "resilient")).Reach
      (fun s _ a => Careful (sampleSetup "resilient") s a ∧ ListsAll s a)
      (.create 0 { dir := .empty }) s es := by
    refine Machine.reach_of_exec (fun s _ a hgood => ?_) hexec
    rw [and_eq_true] at hgood
    refine ⟨careful_of_not_spillFails (and_eq_true_iff.mpr ⟨hgood.1, ?_⟩), ?_⟩
    · cases a <;> simp_all
    · cases a <;> simp_all [ListsAll]
  have hgood : Careful (sampleSetup "resilient") s .flushSettled ∧ ListsAll s .flushSettled :=
    ⟨⟨id, by simp⟩, trivial⟩
  have hreturns' := returnsTrue_of_step hstep hreturns
  exact ⟨s, t, hstep, hreturns',
    stopped_all_delivered hrun hgood hstep hreturns' (by simpa using hidle) (.inr rfl)⟩

end LigamentApps.LinkHostRecorder
