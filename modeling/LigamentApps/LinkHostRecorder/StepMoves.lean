import LigamentApps.LinkHostRecorder.Moves

/-!
# Every step moves evidence

The recorder's functions, one after the other, as moves of evidence, and `step_moves`. -/

namespace LigamentApps.LinkHostRecorder

open LinkHost Relation

variable {c : Cycle} {b : Batch} {name : String} {index : ℕ}

namespace Recorder

variable (u : Setup) (s : Recorder) {drops beside : Prop}

variable (reason : String)

/-- `stop` finds no room for the event that ends the session. -/
def refusesEnd : Bool :=
  !s.sessionEndedRecorded && s.refusesLifecycle u
    (s.lifecycleEvent (if isViolation reason then "mandatory_violation" else "session_ended")
      (endMetadata reason))

/-- The event of `start`. -/
def startEvent : Event := s.lifecycleEvent "session_started" (.obj [("mode", .str u.config.effectiveMode)])

/-- No flush cycle is active. -/
def flushIdle : Bool :=
  match s.flush with
  | .idle => true
  | _ => false

/-- A step refuses a frame or an event. -/
def recordsDrop : Action → Bool
  | .enqueueFrame x =>
    !(!u.config.enabled || s.stopped || s.skipsFrame u x) && s.refusesFrame u (s.newFrame x)
  | .observeControlInput raw encodable =>
    !(!u.config.enabled || s.stopped) &&
      match sanitizeInputEvent u.doubleText raw s.clock (s.nextSeq + 1) with
      | some e => s.refusesEvent u e encodable
      | none => false
  | .start =>
    !(!u.config.enabled || s.stopped || s.flushTimer) && !insecureIngest u &&
      (s.nextSeq = 0 && s.pendingEvents.isEmpty) && s.refusesLifecycle u (s.startEvent u)
  | .stop reason =>
    match s.stop with
    | .idle => u.config.enabled && !s.spill.active && s.flushIdle && s.refusesEnd u reason
    | _ => false
  | .stopResumed | .stopTimedOut =>
    match s.stop with
    | .awaitSpill reason => s.flushIdle && s.refusesEnd u reason
    | _ => false
  | .flushSettled =>
    match s.stop, s.flush with
    | .awaitFlush reason, .settled result =>
      (({ s with flush := .idle } : Recorder).timerFlushed u result).refusesEnd u reason
    | _, _ => false
  | _ => false

/-- A round may come to the queue while the spill holds a chunk. -/
def sendsBeside : Action → Bool
  | .chunksListed _ | .chunkAnswered _ | .chunkRemoved _ | .flushContinued => s.spill.batch.isSome
  | _ => false

/-! ## The spill's beginning and the violations -/

theorem calmly_spillToSpool (hpolicy : u.config.isStrict = false) :
    Calmly u drops beside s.toEvidence (s.spillToSpool u).toEvidence := by
  unfold spillToSpool
  split
  · rename_i hidle
    split
    · exact .refl
    split
    · exact .single (.spillNothing hidle)
    · rename_i hne
      have hspool : u.spool = true := by simp_all
      exact .single (.take hidle (by simpa using hne) (.inl ⟨hspool, hpolicy⟩))
  · exact .refl

@[simp] theorem flush_spillToSpool : (s.spillToSpool u).flush = s.flush := by
  unfold spillToSpool
  split
  · split
    · rfl
    split <;> rfl
  · rfl

theorem calmly_triggerMandatoryStop (reason : Violation) :
    Calmly u drops beside s.toEvidence (s.triggerMandatoryStop u reason).toEvidence := by
  unfold triggerMandatoryStop
  split
  · exact .refl
  split
  · exact s.calmly_spillToSpool u (by simp_all)
  · exact .single (.violation reason)

@[simp] theorem flush_triggerMandatoryStop (reason : Violation) :
    (s.triggerMandatoryStop u reason).flush = s.flush := by
  unfold triggerMandatoryStop
  split
  · rfl
  split
  · exact s.flush_spillToSpool u
  · rfl

theorem calmly_checkLeaseAndLag (now : ℤ) :
    Calmly u drops beside s.toEvidence (s.checkLeaseAndLag u now).1.toEvidence := by
  unfold checkLeaseAndLag
  split
  · exact s.calmly_triggerMandatoryStop u _
  · exact .refl

@[simp] theorem flush_checkLeaseAndLag (now : ℤ) : (s.checkLeaseAndLag u now).1.flush = s.flush := by
  unfold checkLeaseAndLag
  split
  · exact s.flush_triggerMandatoryStop u _
  · rfl

/-! ## Loss -/

theorem marksLoss : MarksLoss s.toEvidence s.lossFrame s.lossMarker := ⟨rfl, rfl, rfl, rfl⟩

theorem calmly_materializeLossMarker : Calmly u drops beside s.toEvidence (s.materializeLossMarker u).toEvidence := by
  unfold materializeLossMarker
  split
  · exact .refl
  split
  · rename_i hnone
    split
    · exact .refl
    · exact .single (.mark _ _ hnone s.marksLoss)
  · rename_i previous hsome
    split
    · exact .refl
    · have hfrozen : s.gapMarkerFrozen = false := by simp_all
      exact .single (.merge previous hsome hfrozen)

@[simp] theorem flush_materializeLossMarker : (s.materializeLossMarker u).flush = s.flush := by
  unfold materializeLossMarker
  split
  · rfl
  split
  · split <;> rfl
  · split <;> rfl

theorem spill_materializeLossMarker (h : s.spill = .idle) : (s.materializeLossMarker u).spill = .idle := by
  unfold materializeLossMarker
  split
  · exact h
  split
  · split <;> exact h
  · split
    · exact h
    · show s.spill.setMetadata _ = .idle
      rw [h]
      rfl

theorem calmly_queueOverflow : Calmly u drops beside s.toEvidence (s.queueOverflow u).toEvidence := by
  unfold queueOverflow
  split
  · split
    · exact s.calmly_triggerMandatoryStop u _
    · rename_i hpolicy
      exact s.calmly_spillToSpool u (by simpa using hpolicy)
  · exact .refl

theorem toEvidence_countDrop (isFrame : Bool) : (s.countDrop isFrame).toEvidence = s.toEvidence.refuse isFrame := by
  unfold countDrop Evidence.refuse
  split <;> rfl

theorem calmly_recordDrop (isFrame : Bool) (h : drops) :
    Calmly u drops beside s.toEvidence (s.recordDrop u isFrame).toEvidence := by
  have hcount : Calmly u drops beside s.toEvidence (s.countDrop isFrame).toEvidence := by
    rw [toEvidence_countDrop]
    exact .single (.refuse isFrame h)
  exact (hcount.trans (calmly_materializeLossMarker u _)).trans (calmly_queueOverflow u _)

/-! ## What is accepted -/

theorem calmly_appendLifecycle {type : String} (metadata : Json) (htype : type ≠ "gap_marker")
    (h : s.refusesLifecycle u (s.lifecycleEvent type metadata) = true → drops) :
    Calmly u drops beside s.toEvidence (s.appendLifecycle u type metadata).1.toEvidence := by
  unfold appendLifecycle
  split
  · rename_i hrefuses
    exact s.calmly_recordDrop u false (h hrefuses)
  · exact .single (.acceptEvent _ rfl (decide_eq_false htype))

theorem calmly_observeControlInput (raw : Json) (encodable : Bool)
    (h : s.recordsDrop u (.observeControlInput raw encodable) = true → drops) :
    Calmly u drops beside s.toEvidence (s.observeControlInput u raw encodable).toEvidence := by
  unfold observeControlInput
  split
  · exact .refl
  · rename_i hon
    split
    · exact .refl
    · rename_i e hsome
      obtain ⟨hseq, hmarker⟩ := sanitizeInputEvent_spec hsome
      split
      · rename_i hrefuses
        refine s.calmly_recordDrop u false (h ?_)
        simp only [recordsDrop, hsome, hrefuses, Bool.and_true]
        simpa using hon
      · exact .single (.acceptEvent e hseq hmarker)

/-! ## The flush cycle -/

theorem calmly_sendLive (hflush : s.flush = .selecting c) (hheld : s.spill.batch = none ∨ beside) :
    Calmly u drops beside s.toEvidence (s.sendLive u c).toEvidence := by
  unfold sendLive
  dsimp only
  split
  · have hreturns : (s.checkLeaseAndLag u c.now).1.flush.canReturn = some c := by
      rw [flush_checkLeaseAndLag, hflush]
      rfl
    exact (s.calmly_checkLeaseAndLag u c.now).tail (.returned c _ hreturns)
  · exact .single (.send c s.elapsed hflush hheld)

theorem calmly_selectLive (c : Cycle) (hheld : s.spill.batch = none ∨ beside) :
    Calmly u drops beside { s.toEvidence with flush := .selecting c } (s.selectLive u c).toEvidence :=
  calmly_sendLive u ({ s with flush := .selecting c } : Recorder) rfl hheld

theorem turn_flushInternal (drops beside : Prop) (c : Cycle) (hheld : s.spill.batch = none ∨ beside) :
    (∃ w, Turn u s.toEvidence c w ∧ Calmly u drops beside w (s.flushInternal u c).toEvidence) ∨
      (s.flush.betweenRounds = true →
        Calmly u drops beside s.toEvidence (s.flushInternal u c).toEvidence) := by
  unfold flushInternal
  split
  · refine .inr fun hbetween => ?_
    refine (s.calmly_triggerMandatoryStop u .insecureIngest).tail (.insecure c ?_)
    rw [flush_triggerMandatoryStop]
    exact hbetween
  split
  · rename_i hknows
    exact .inl ⟨_, .listing hknows, .refl⟩
  · rename_i hknows
    exact .inl ⟨_, .selecting (by simpa [Evidence.knowsChunks] using hknows),
      s.calmly_selectLive u c hheld⟩

theorem turn_nextRound (drops beside : Prop) (upperSeq round : ℕ)
    (hheld : s.spill.batch = none ∨ beside) :
    (∃ c w, c.upperSeq = upperSeq ∧ Turn u s.toEvidence c w ∧
        Calmly u drops beside w (s.nextRound u upperSeq round).toEvidence) ∨
      (s.flush.betweenRounds = true →
        Calmly u drops beside s.toEvidence (s.nextRound u upperSeq round).toEvidence) := by
  unfold nextRound
  split
  · exact .inr fun hbetween => .single (.settle _ hbetween)
  split
  · exact .inr fun hbetween => .single (.settle _ hbetween)
  · rcases s.turn_flushInternal u drops beside
      { upperSeq, round, before := s.snapshotCount upperSeq, now := s.clock } hheld with ⟨w, hturn, hcalm⟩ | hcalm
    · exact .inl ⟨_, w, rfl, hturn, hcalm⟩
    · exact .inr hcalm

theorem calmly_beginCycle (hflush : s.flush = .idle ∨ s.flush = .awaitSpill)
    (hspill : s.spill = .idle) : Calmly u drops beside s.toEvidence (s.beginCycle u).toEvidence := by
  unfold beginCycle
  have hmark : Calmly u drops beside s.toEvidence (s.materializeLossMarker u).toEvidence :=
    s.calmly_materializeLossMarker u
  have hflush' : (s.materializeLossMarker u).flush = .idle ∨
      (s.materializeLossMarker u).flush = .awaitSpill := by
    rwa [flush_materializeLossMarker]
  have hspill' := s.spill_materializeLossMarker u hspill
  generalize s.materializeLossMarker u = t at *
  have hfreeze : Calmly u drops beside s.toEvidence t.freezeMarker.toEvidence := hmark.tail .freeze
  have hbetween : t.freezeMarker.flush.betweenRounds = true := by
    show t.flush.betweenRounds = true
    rcases hflush' with h | h <;> rw [h] <;> rfl
  have hfrozen : t.freezeMarker.gapMarker.isSome = true → t.freezeMarker.gapMarkerFrozen = true := by
    intro h
    have hsome : t.gapMarker.isSome = true := h
    simp [freezeMarker, hsome]
  have hnoBatch : t.freezeMarker.spill.batch = none := by
    show t.spill.batch = none
    rw [hspill']
    rfl
  rcases t.freezeMarker.turn_nextRound u drops beside t.freezeMarker.nextSeq 0 (.inl hnoBatch) with
    ⟨c, w, hupper, hturn, hcalm⟩ | hcalm
  · exact (hfreeze.tail (.round c hflush' hspill' hupper hfrozen hturn)).trans hcalm
  · exact hfreeze.trans (hcalm hbetween)

theorem calmly_serializedFlush : Calmly u drops beside s.toEvidence (s.serializedFlush u).toEvidence := by
  unfold serializedFlush
  split
  · rename_i hidle
    split
    · exact .single (.awaitSpill hidle)
    · rename_i hactive
      refine s.calmly_beginCycle u (.inl hidle) ?_
      cases hspill : s.spill with
      | idle => rfl
      | _ => simp [hspill, SpillPhase.active] at hactive
  · exact .refl

theorem calmly_flushAndVerifyHealth : Calmly u drops beside s.toEvidence (s.flushAndVerifyHealth u).toEvidence := by
  unfold flushAndVerifyHealth
  split
  · exact .refl
  · exact s.calmly_serializedFlush u

theorem calmly_queueFrame (x : FrameInput)
    (h : s.refusesFrame u (s.newFrame x) = true → drops) :
    Calmly u drops beside s.toEvidence (s.queueFrame u x).toEvidence := by
  unfold queueFrame
  split
  · rename_i hrefuses
    exact s.calmly_recordDrop u true (h hrefuses)
  · have haccept : Calmly u drops beside s.toEvidence (s.toEvidence.acceptFrame (s.newFrame x)) :=
      .single (.acceptFrame _ rfl)
    dsimp only
    split
    · exact haccept.trans ((calmly_flushAndVerifyHealth u _).congr rfl)
    · exact haccept

theorem calmly_enqueueFrame (x : FrameInput)
    (h : s.recordsDrop u (.enqueueFrame x) = true → drops) :
    Calmly u drops beside s.toEvidence (s.enqueueFrame u x).toEvidence := by
  unfold enqueueFrame
  split
  · exact .refl
  · rename_i htakes
    refine s.calmly_queueFrame u x fun hrefuses => h ?_
    simp only [recordsDrop, hrefuses, Bool.and_true]
    simpa using htakes

theorem calmly_start (h : s.recordsDrop u .start = true → drops) :
    Calmly u drops beside s.toEvidence (s.start u).toEvidence := by
  unfold start
  split
  · exact .refl
  rename_i hon
  split
  · exact (calmly_triggerMandatoryStop u _ .insecureIngest).congr rfl
  rename_i hsecure
  unfold startSecure
  split
  · rename_i hfirst
    refine calmly_appendLifecycle u ({ s with startedAt := s.clock } : Recorder) _ (by decide) fun hrefuses => h ?_
    have hlifecycle : s.refusesLifecycle u (s.startEvent u) = true := hrefuses
    have hfresh : (s.nextSeq = 0 && s.pendingEvents.isEmpty) = true := hfirst
    have hsecure' : insecureIngest u = false := by simpa using hsecure
    simp only [recordsDrop, hlifecycle, hfresh, hsecure', Bool.and_true, Bool.not_false]
    simpa using hon
  · exact .refl

/-! ## The answers -/

theorem calmly_forgetMarker : Calmly u drops beside s.toEvidence s.forgetMarker.toEvidence := by
  unfold forgetMarker
  split
  · rename_i m hm
    split
    · exact .refl
    · rename_i hany
      refine .single (.forget m hm fun e he hseq => hany ?_)
      exact List.any_eq_true.mpr ⟨e, he, by simpa using hseq⟩
  · exact .refl

@[simp] theorem flush_forgetMarker : s.forgetMarker.flush = s.flush := by
  unfold forgetMarker
  split
  · split <;> rfl
  · rfl

theorem calmly_checkFirstFrame (now : ℤ) :
    Calmly u drops beside s.toEvidence (s.checkFirstFrame u now).1.toEvidence := by
  unfold checkFirstFrame
  split
  · exact s.calmly_triggerMandatoryStop u _
  · exact .refl

@[simp] theorem flush_checkFirstFrame (now : ℤ) : (s.checkFirstFrame u now).1.flush = s.flush := by
  unfold checkFirstFrame
  split
  · exact s.flush_triggerMandatoryStop u _
  · rfl

theorem calmly_returnHealth {v : Evidence} {r : Recorder × Bool}
    (h : Calmly u drops beside v r.1.toEvidence) (hflush : r.1.flush.canReturn = some c) :
    Calmly u drops beside v (returnHealth c r).toEvidence :=
  h.tail (.returned c _ hflush)

theorem head_liveAcked {sentAt : ℕ} (ack : BatchAck) (hflush : s.flush = .sending c b sentAt) :
    ∃ w, Head u s (.liveAnswered (.ok ack)) w ∧
      Calmly u drops beside w (s.liveAnswered u c b sentAt (.ok ack)).toEvidence := by
  have hreturns : s.flush.canReturn = some c := by rw [hflush]; rfl
  unfold liveAnswered liveAcked
  dsimp only
  split
  · exact ⟨_, .liveUnsettled ack s.firstFrameAcked hflush .inl, .single (.returned c _ hreturns)⟩
  rename_i hwatermark
  have hfirst : (s.firstFrameAcked || ack.firstFrameAcked) = true →
      s.firstFrameAcked = true ∨ ack.firstFrameAcked = true := Bool.or_eq_true_iff.mp
  split
  · refine ⟨_, .liveUnsettled ack _ hflush hfirst, calmly_returnHealth u
      ((calmly_triggerMandatoryStop u _ .leaseExpired).congr rfl) ?_⟩
    rw [flush_triggerMandatoryStop]
    exact hreturns
  · exact ⟨_, .liveUnsettled ack _ hflush hfirst, .single (.returned c _ hreturns)⟩
  · unfold settleAcked
    split
    · rename_i hpos
      have hmax : max s.ackedSeq ack.ackHighWatermarkSeq = ack.ackHighWatermarkSeq := by
        have hle : s.ackedSeq ≤ ack.ackHighWatermarkSeq := by
          by_contra hlt
          exact hwatermark ⟨hpos, by omega⟩
        omega
      refine ⟨_, .liveSettled ack hflush hpos, calmly_returnHealth u ?_ ?_⟩
      · rw [← hmax]
        refine .trans ?_ (calmly_checkFirstFrame u _ c.now)
        refine .trans ?_ (calmly_materializeLossMarker u _)
        exact (calmly_forgetMarker u _).congr rfl
      · rw [flush_checkFirstFrame, flush_materializeLossMarker]
        show (forgetMarker _).flush.canReturn = _
        rw [flush_forgetMarker]
        exact hreturns
    · refine ⟨_, .liveUnsettled ack _ hflush hfirst, calmly_returnHealth u ?_ ?_⟩
      · refine .trans ?_ (calmly_checkFirstFrame u _ c.now)
        refine .trans ?_ (calmly_materializeLossMarker u _)
        exact (calmly_forgetMarker u _).congr rfl
      · rw [flush_checkFirstFrame, flush_materializeLossMarker]
        show (forgetMarker _).flush.canReturn = _
        rw [flush_forgetMarker]
        exact hreturns

theorem head_liveAnswered {sentAt : ℕ} (answer : Except SendError BatchAck)
    (hflush : s.flush = .sending c b sentAt) :
    ∃ w, Head u s (.liveAnswered answer) w ∧
      Calmly u drops beside w (s.liveAnswered u c b sentAt answer).toEvidence := by
  have hreturns : s.flush.canReturn = some c := by rw [hflush]; rfl
  cases answer with
  | ok ack => exact s.head_liveAcked u ack hflush
  | error e =>
    refine ⟨_, .none _, ?_⟩
    cases e with
    | format insecure =>
      cases insecure with
      | false => exact .single (.returned c _ hreturns)
      | true =>
        refine calmly_returnHealth u (s.calmly_triggerMandatoryStop u .insecureIngest) ?_
        rw [flush_triggerMandatoryStop]
        exact hreturns
    | other =>
      refine calmly_returnHealth u (s.calmly_checkLeaseAndLag u c.now) ?_
      rw [flush_checkLeaseAndLag]
      exact hreturns

theorem head_chunkAnswered (answer : Except SendError BatchAck)
    (hflush : s.flush = .sendingChunk c name b) (hheld : s.spill.batch = none ∨ beside) :
    ∃ w, Head u s (.chunkAnswered answer) w ∧
      Calmly u drops beside w (s.chunkAnswered u c name b answer).toEvidence := by
  unfold chunkAnswered
  cases answer with
  | error =>
    refine ⟨_, .none _, calmly_returnHealth u (s.calmly_checkLeaseAndLag u c.now) ?_⟩
    rw [flush_checkLeaseAndLag, hflush]
    rfl
  | ok ack =>
    dsimp only
    split
    · rename_i hpos
      exact ⟨_, .chunkAcked ack hflush hpos, .refl⟩
    · exact ⟨_, .chunkUnacked ack hflush (by omega), (calmly_selectLive u _ c (by exact hheld)).congr rfl⟩

variable (ok : Bool)

theorem head_chunkRemoved {answer : Option (Batch × BatchAck)}
    (hflush : s.flush = .removing c name answer) (hheld : s.spill.batch = none ∨ beside) :
    ∃ w, Head u s (.chunkRemoved ok) w ∧
      Calmly u drops beside w (s.chunkRemoved u c name answer ok).toEvidence := by
  refine ⟨_, .chunkRemoved ok hflush, ?_⟩
  unfold chunkRemoved
  split
  · refine (calmly_selectLive u _ c (by exact hheld)).congr ?_
    simp [noteChunkAck]
  · refine (calmly_selectLive u _ c (by exact hheld)).congr ?_
    simp

theorem head_chunksListed (seen : List String) (hflush : s.flush = .listing c)
    (hheld : s.spill.batch = none ∨ beside) :
    ∃ w, Head u s (.chunksListed seen) w ∧
      Calmly u drops beside w (s.chunksListed u c seen).toEvidence := by
  unfold chunksListed
  split
  · rename_i name hname
    exact ⟨_, .chunkListed hflush hname, .refl⟩
  · rename_i hnone
    exact ⟨_, .nothingListed hflush hnone, calmly_selectLive u s c hheld⟩

theorem head_chunkRead (hflush : s.flush = .reading c name) :
    ∃ w, Head u s (.chunkRead ok) w ∧ Calmly u drops beside w (s.chunkRead c name ok).toEvidence := by
  unfold chunkRead
  split
  · rename_i b hb
    exact ⟨_, .chunkRead hflush hb, .refl⟩
  · rename_i hnone
    exact ⟨_, .chunkUnreadable hflush hnone, .refl⟩

theorem head_flushContinued {result : FlushResult} (hflush : s.flush = .returned c result)
    (hheld : s.spill.batch = none ∨ beside) :
    ∃ w, Head u s .flushContinued w ∧ Calmly u drops beside w (s.flushContinued u c result).toEvidence := by
  have hbetween : s.flush.betweenRounds = true := by rw [hflush]; rfl
  unfold flushContinued
  split
  · exact ⟨_, .none _, .single (.settle _ hbetween)⟩
  · exact ⟨_, .none _, .single (.settle _ hbetween)⟩
  unfold roundDone
  dsimp only
  -- Clearing or setting `_noProgressSince` moves no evidence.
  have hnote : ∀ t : Recorder, t.noteNoProgress.toEvidence = t.toEvidence := fun t => by
    unfold noteNoProgress
    split <;> rfl
  have hsame : (if s.snapshotCount c.upperSeq < c.before then { s with noProgressSince := none }
      else s : Recorder).toEvidence = s.toEvidence := by split <;> rfl
  generalize (if s.snapshotCount c.upperSeq < c.before then { s with noProgressSince := none }
    else s : Recorder) = t at *
  split
  · split
    · have hcalm : Calmly u drops beside s.toEvidence
          (t.noteNoProgress.checkLeaseAndLag u t.clock).1.toEvidence := by
        rw [← hsame, ← hnote t]
        exact calmly_checkLeaseAndLag u _ _
      refine ⟨_, .none _, hcalm.tail (.settle _ ?_)⟩
      rw [flush_checkLeaseAndLag]
      rw [show t.noteNoProgress.flush = s.flush by rw [hnote, hsame]]
      exact hbetween
    · refine ⟨_, .none _, ?_⟩
      rw [← hsame]
      exact .single (.settle _ (by rw [hsame]; exact hbetween))
  · have hheld' : t.spill.batch = none ∨ beside := by
      rw [show t.spill = s.spill by rw [hsame]]
      exact hheld
    rcases t.turn_nextRound u drops beside c.upperSeq (c.round + 1) hheld' with
      ⟨c', w, hupper, hturn, hcalm⟩ | hcalm
    · rw [hsame] at hturn
      exact ⟨w, .flushContinued hflush hupper hturn, hcalm⟩
    · refine ⟨_, .none _, ?_⟩
      rw [← hsame]
      exact hcalm (by rw [hsame]; exact hbetween)

/-! ## The spill's waits -/

theorem head_spillEnsured (seen : List String) (hspill : s.spill = .ensuring index b) :
    ∃ w, Head u s (.spillEnsured ok seen) w ∧
      Calmly u drops beside w (s.spillEnsured index b ok seen).toEvidence := by
  cases ok with
  | true => exact ⟨_, .spillEnsured seen hspill, .refl⟩
  | false => exact ⟨_, .spillFailed (by rw [hspill]; rfl) rfl, .refl⟩

theorem calmly_quotaExceeded : Calmly u drops beside { s.toEvidence with spill := .idle }
      ({ s.triggerMandatoryStop u .spoolQuotaExceeded with spill := .idle } : Recorder).toEvidence := by
  unfold triggerMandatoryStop
  split
  · exact .refl
  split
  · rename_i hreason
    simp at hreason
  · exact .single (.violation .spoolQuotaExceeded)

theorem head_spillChecked (free : Option ℕ) (hspill : s.spill = .checking index b) :
    ∃ w, Head u s (.spillChecked free) w ∧
      Calmly u drops beside w (s.spillChecked u index b free).toEvidence := by
  unfold spillChecked
  split
  · rename_i hrefuses
    exact ⟨_, .spillFailed (by rw [hspill]; rfl) ⟨index, b, hspill, hrefuses⟩,
      s.calmly_quotaExceeded u⟩
  · exact ⟨_, .spillChecked free hspill, .refl⟩

theorem calmly_spillNext (hchunk : s.spool.hasPendingChunks = true) :
    Calmly u drops beside { s.toEvidence with spill := .idle } (s.spillNext u).toEvidence := by
  unfold spillNext
  split
  · exact .refl
  · rename_i hmore
    have hne : s.queueEmpty = false := by
      simp only [Bool.or_eq_true, not_or, Bool.not_eq_true] at hmore
      exact hmore.2
    exact .single (.take rfl hne (.inr hchunk))

theorem head_spillWritten (hspill : s.spill = .writing index b) : ∃ w, Head u s (.spillWritten ok) w ∧
      Calmly u drops beside w (s.spillWritten u index b ok).toEvidence := by
  cases ok with
  | true =>
    have hchunk : (s.spool.write index b
        (LinkSpoolStorage.sealedLength u.doubleText b)).hasPendingChunks = true := by
      simp [LinkSpoolStorage.hasPendingChunks, LinkSpoolStorage.write]
    exact ⟨_, .spillWritten hspill, (calmly_spillNext u _ hchunk).congr rfl⟩
  | false => exact ⟨_, .spillFailed (by rw [hspill]; rfl) rfl, .refl⟩

/-! ## The end of the session -/

theorem calmly_finishStop : Calmly u drops beside s.toEvidence (s.finishStop u).toEvidence := by
  refine .single (.stopReturned _ fun hflushed _ => ?_)
  simp only [Bool.and_eq_true, Bool.not_eq_true', decide_eq_true_eq] at hflushed
  obtain ⟨⟨⟨⟨_, hempty⟩, hframes⟩, hevents⟩, hchunks⟩ := hflushed
  exact ⟨hempty, hframes, hevents, hchunks⟩

theorem calmly_stopLoop : Calmly u drops beside s.toEvidence (s.stopLoop u reason).toEvidence := by
  unfold stopLoop
  split
  · exact s.calmly_finishStop u
  · dsimp only
    split
    · exact (s.calmly_serializedFlush u).trans (calmly_finishStop u _)
    · exact s.calmly_serializedFlush u

theorem calmly_stopTail (h : s.refusesEnd u reason = true → drops) :
    Calmly u drops beside s.toEvidence (s.stopTail u reason).toEvidence := by
  unfold stopTail
  split
  · exact s.calmly_stopLoop u reason
  · rename_i hended
    have htype : (if isViolation reason then "mandatory_violation" else "session_ended") ≠
        "gap_marker" := by split <;> decide
    have happend : Calmly u drops beside s.toEvidence (s.appendLifecycle u
        (if isViolation reason then "mandatory_violation" else "session_ended")
        (endMetadata reason)).1.toEvidence :=
      s.calmly_appendLifecycle u (endMetadata reason) htype
        fun hrefuses => h (by simp [refusesEnd, hended, hrefuses])
    exact happend.trans ((calmly_stopLoop u _ reason).congr rfl)

theorem calmly_stopAfterSpill
    (h : s.flushIdle = true → s.refusesEnd u reason = true → drops) :
    Calmly u drops beside s.toEvidence (s.stopAfterSpill u reason).toEvidence := by
  unfold stopAfterSpill
  split
  · rename_i hidle
    exact s.calmly_stopTail u reason (h (by simp [flushIdle, hidle]))
  · split
    · exact s.calmly_finishStop u
    · exact .refl

theorem calmly_beginStop
    (h : u.config.enabled = true → s.spill.active = false → s.flushIdle = true →
      s.refusesEnd u reason = true → drops) :
    Calmly u drops beside s.toEvidence (s.beginStop u reason).toEvidence := by
  unfold beginStop
  dsimp only
  split
  · rename_i henabled
    unfold stopEnabled
    split
    · exact .refl
    · rename_i hactive
      exact calmly_stopAfterSpill u
        ({ s with stopStartedAt := some s.elapsed, stopped := true, flushTimer := false } : Recorder)
        reason (h henabled (by simpa using hactive))
  · rename_i henabled
    exact .single (.stopReturned true fun _ hon => absurd hon henabled)

theorem calmly_timerFlushed (result : FlushResult) :
    Calmly u drops beside s.toEvidence (s.timerFlushed u result).toEvidence := by
  unfold timerFlushed
  split
  · exact s.calmly_checkLeaseAndLag u s.clock
  · exact .refl

theorem calmly_stopFlushed (before : ℕ) (result : FlushResult) :
    Calmly u drops beside s.toEvidence (s.stopFlushed u reason before result).toEvidence := by
  unfold stopFlushed
  split
  · exact s.calmly_stopLoop u reason
  · exact s.calmly_finishStop u

theorem head_flushSettled {result : FlushResult} (hflush : s.flush = .settled result)
    (h : s.recordsDrop u .flushSettled = true → drops) :
    ∃ w, Head u s .flushSettled w ∧ Calmly u drops beside w (s.flushSettled u result).toEvidence := by
  refine ⟨_, .flushSettled hflush, ?_⟩
  have htimer : Calmly u drops beside { s.toEvidence with flush := .idle }
      (({ s with flush := .idle } : Recorder).timerFlushed u result).toEvidence :=
    (calmly_timerFlushed u _ result).congr rfl
  unfold flushSettled
  split
  · rename_i reason hstop
    refine htimer.trans (calmly_stopTail u _ reason fun hrefuses => h ?_)
    simpa [recordsDrop, hstop, hflush] using hrefuses
  · exact htimer.trans (calmly_stopFlushed u _ _ _ result)
  · exact htimer

end Recorder

theorem step_moves {u : Setup} {s t : Recorder} {a : Action} (h : step u s a = some t) : ∃ w, Head u s a w ∧
      Calmly u (s.recordsDrop u a = true) (s.sendsBeside a = true) w t.toEvidence := by
  have hheld : s.spill.batch = none ∨ s.spill.batch.isSome = true := by
    cases s.spill.batch <;> simp
  -- An action that decides nothing by itself.
  have hnone : ∀ {r : Recorder}, Calmly u (s.recordsDrop u a = true)
    (s.sendsBeside a = true) s.toEvidence r.toEvidence →
      ∃ w, Head u s a w ∧ Calmly u (s.recordsDrop u a = true) (s.sendsBeside a = true) w r.toEvidence :=
    fun hcalm => ⟨_, .none a, hcalm⟩
  cases stepsTo h with
  | tick => exact ⟨_, .none _, .refl⟩
  | start => exact hnone (s.calmly_start u id)
  | notifyDesktopChanged =>
    have hsame : s.notifyDesktopChanged.toEvidence = s.toEvidence := by
      unfold Recorder.notifyDesktopChanged
      split
      · split <;> rfl
      · rfl
    exact hnone (by rw [hsame]; exact .refl)
  | enqueueFrame x => exact hnone (s.calmly_enqueueFrame u x id)
  | observeControlInput raw encodable => exact hnone (s.calmly_observeControlInput u raw encodable id)
  | flushAndVerifyHealth => exact hnone (s.calmly_flushAndVerifyHealth u)
  | timerFired => exact hnone ((Recorder.calmly_flushAndVerifyHealth u _).congr rfl)
  | stop reason hidle =>
    refine hnone (s.calmly_beginStop u reason fun hon hspill hflush hend => ?_)
    simp [Recorder.recordsDrop, hidle, hon, hspill, hflush, hend]
  | stopAgain => exact hnone .refl
  | spillEnsured ok seen hspill => exact s.head_spillEnsured u ok seen hspill
  | spillChecked free hspill => exact s.head_spillChecked u free hspill
  | spillWritten ok hspill => exact s.head_spillWritten u ok hspill
  | spillSettled hspill => exact ⟨_, .spillSettled hspill, .refl⟩
  | flushResumed hflush hspill => exact hnone (s.calmly_beginCycle u (.inr hflush) hspill)
  | chunksListed seen hflush => exact s.head_chunksListed u seen hflush hheld
  | chunkRead ok hflush => exact s.head_chunkRead u ok hflush
  | chunkAnswered answer hflush => exact s.head_chunkAnswered u answer hflush hheld
  | chunkRemoved ok hflush => exact s.head_chunkRemoved u ok hflush hheld
  | liveAnswered answer hflush => exact s.head_liveAnswered u answer hflush
  | flushContinued hflush => exact s.head_flushContinued u hflush hheld
  | flushSettled hflush => exact s.head_flushSettled u hflush id
  | stopResumed hstop =>
    refine hnone (s.calmly_stopAfterSpill u _ fun hflush hend => ?_)
    simp [Recorder.recordsDrop, hstop, hflush, hend]
  | stopTimedOut =>
    refine hnone ?_
    unfold Recorder.stopTimedOut
    split
    · rename_i hstop
      refine s.calmly_stopAfterSpill u _ fun hflush hend => ?_
      simp [Recorder.recordsDrop, hstop, hflush, hend]
    · exact s.calmly_finishStop u

end LigamentApps.LinkHostRecorder
