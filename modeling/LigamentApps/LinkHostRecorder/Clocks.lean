import LigamentApps.LinkHostRecorder.Step

/-!
# The recorder's lease

The time that the recorder has counted, and the lease with its stopwatch. Only time itself and the ACKs change
them. -/

namespace LigamentApps.LinkHostRecorder

open LinkHost

/-- The time that has passed for the recorder, and its lease. -/
structure Clocks where
  elapsed : ℕ
  leaseTtl : Option ℤ
  leaseStartedAt : Option ℕ

namespace Recorder

variable (u : Setup) (s : Recorder)

def clocks : Clocks where
  elapsed := s.elapsed
  leaseTtl := s.leaseTtl
  leaseStartedAt := s.leaseStartedAt

/-! ## The queue and the spill -/

@[simp] theorem clocks_spillToSpool : (s.spillToSpool u).clocks = s.clocks := by
  unfold spillToSpool
  split
  · split
    · rfl
    split <;> rfl
  · rfl

@[simp] theorem clocks_triggerMandatoryStop (reason : Violation) :
    (s.triggerMandatoryStop u reason).clocks = s.clocks := by
  unfold triggerMandatoryStop
  split
  · rfl
  split
  · exact s.clocks_spillToSpool u
  · rfl

@[simp] theorem clocks_checkLeaseAndLag (now : ℤ) : (s.checkLeaseAndLag u now).1.clocks = s.clocks := by
  unfold checkLeaseAndLag
  split
  · exact s.clocks_triggerMandatoryStop u _
  · rfl

@[simp] theorem clocks_materializeLossMarker : (s.materializeLossMarker u).clocks = s.clocks := by
  unfold materializeLossMarker
  split
  · rfl
  split
  · split <;> rfl
  · split <;> rfl

@[simp] theorem clocks_recordDrop (isFrame : Bool) : (s.recordDrop u isFrame).clocks = s.clocks := by
  have hcount : (s.countDrop isFrame).clocks = s.clocks := by
    unfold countDrop
    split <;> rfl
  unfold recordDrop queueOverflow
  split
  · split
    · simp [hcount]
    · simp [hcount]
  · simp [hcount]

@[simp] theorem clocks_appendLifecycle (type : String) (metadata : Json) :
    (s.appendLifecycle u type metadata).1.clocks = s.clocks := by
  unfold appendLifecycle
  split
  · exact s.clocks_recordDrop u false
  · rfl

theorem clocks_observeControlInput (raw : Json) (encodable : Bool) :
    (s.observeControlInput u raw encodable).clocks = s.clocks := by
  unfold observeControlInput
  split
  · rfl
  split
  · rfl
  split
  · exact s.clocks_recordDrop u false
  · rfl

theorem clocks_spillEnsured (batchIndex : ℕ) (b : Batch) (ok : Bool) (seen : List String) :
    (s.spillEnsured batchIndex b ok seen).clocks = s.clocks := by
  unfold spillEnsured
  split <;> rfl

theorem clocks_spillChecked (batchIndex : ℕ) (b : Batch) (free : Option ℕ) :
    (s.spillChecked u batchIndex b free).clocks = s.clocks := by
  unfold spillChecked
  split
  · exact s.clocks_triggerMandatoryStop u _
  · rfl

theorem clocks_spillWritten (batchIndex : ℕ) (b : Batch) (ok : Bool) :
    (s.spillWritten u batchIndex b ok).clocks = s.clocks := by
  unfold spillWritten spillNext
  split
  · split <;> rfl
  · rfl

/-! ## The flush cycle -/

variable (c : Cycle)

@[simp] theorem clocks_returnHealth (r : Recorder × Bool) : (returnHealth c r).clocks = r.1.clocks := rfl

@[simp] theorem clocks_selectLive : (s.selectLive u c).clocks = s.clocks := by
  unfold selectLive sendLive
  dsimp only
  split
  · simp only [clocks_returnHealth, clocks_checkLeaseAndLag]
    rfl
  · rfl

@[simp] theorem clocks_nextRound (upperSeq round : ℕ) : (s.nextRound u upperSeq round).clocks = s.clocks := by
  unfold nextRound
  split
  · rfl
  split
  · rfl
  unfold flushInternal
  split
  · simp
  split
  · rfl
  · simp

@[simp] theorem clocks_beginCycle : (s.beginCycle u).clocks = s.clocks := by
  have hfreeze : (s.materializeLossMarker u).freezeMarker.clocks = (s.materializeLossMarker u).clocks := rfl
  unfold beginCycle
  rw [clocks_nextRound, hfreeze, clocks_materializeLossMarker]

@[simp] theorem clocks_serializedFlush : (s.serializedFlush u).clocks = s.clocks := by
  unfold serializedFlush
  split
  · split
    · rfl
    · exact s.clocks_beginCycle u
  · rfl

@[simp] theorem clocks_flushAndVerifyHealth : (s.flushAndVerifyHealth u).clocks = s.clocks := by
  unfold flushAndVerifyHealth
  split
  · rfl
  · exact s.clocks_serializedFlush u

theorem clocks_enqueueFrame (x : FrameInput) : (s.enqueueFrame u x).clocks = s.clocks := by
  unfold enqueueFrame queueFrame
  split
  · rfl
  split
  · exact s.clocks_recordDrop u true
  · dsimp only
    split
    · rw [clocks_flushAndVerifyHealth]
      rfl
    · rfl

theorem clocks_timerFired : (s.timerFired u).clocks = s.clocks := by
  unfold timerFired
  rw [clocks_flushAndVerifyHealth]
  rfl

theorem clocks_chunksListed (seen : List String) : (s.chunksListed u c seen).clocks = s.clocks := by
  unfold chunksListed
  split
  · rfl
  · exact s.clocks_selectLive u c

theorem clocks_chunkRead (name : String) (ok : Bool) : (s.chunkRead c name ok).clocks = s.clocks := by
  unfold chunkRead
  split <;> rfl

@[simp] theorem clocks_forgetMarker : s.forgetMarker.clocks = s.clocks := by
  unfold forgetMarker
  split
  · split <;> rfl
  · rfl

@[simp] theorem clocks_settleAcked (b : Batch) (ack : BatchAck) : (s.settleAcked u b ack).clocks = s.clocks := by
  have hrecalculate : ∀ t : Recorder, (t.recalculateQueuedBytes u).clocks = t.clocks := fun _ => rfl
  unfold settleAcked
  rw [clocks_materializeLossMarker, hrecalculate, clocks_forgetMarker]
  split <;> rfl

@[simp] theorem clocks_checkFirstFrame (now : ℤ) : (s.checkFirstFrame u now).1.clocks = s.clocks := by
  unfold checkFirstFrame
  split
  · exact s.clocks_triggerMandatoryStop u _
  · rfl

theorem clocks_roundDone : (s.roundDone u c).clocks = s.clocks := by
  have hnote : ∀ t : Recorder, t.noteNoProgress.clocks = t.clocks := by
    intro t
    unfold noteNoProgress
    split <;> rfl
  have hprogress : (if s.snapshotCount c.upperSeq < c.before then ({ s with noProgressSince := none } : Recorder)
      else s).clocks = s.clocks := by
    split <;> rfl
  unfold roundDone
  dsimp only
  generalize (if s.snapshotCount c.upperSeq < c.before then ({ s with noProgressSince := none } : Recorder)
    else s) = t at hprogress ⊢
  split
  · split
    · exact ((t.noteNoProgress.clocks_checkLeaseAndLag u t.clock).trans (hnote t)).trans hprogress
    · exact hprogress
  · rw [clocks_nextRound]
    exact hprogress

/-! ## The end of the session -/

@[simp] theorem clocks_finishStop : (s.finishStop u).clocks = s.clocks := rfl

variable (reason : String)

@[simp] theorem clocks_stopLoop : (s.stopLoop u reason).clocks = s.clocks := by
  unfold stopLoop
  split
  · rfl
  dsimp only
  split
  · rw [clocks_finishStop, clocks_serializedFlush]
  · exact s.clocks_serializedFlush u

@[simp] theorem clocks_stopTail : (s.stopTail u reason).clocks = s.clocks := by
  unfold stopTail
  split
  · exact s.clocks_stopLoop u reason
  · rw [clocks_stopLoop]
    exact s.clocks_appendLifecycle u _ _

@[simp] theorem clocks_stopAfterSpill : (s.stopAfterSpill u reason).clocks = s.clocks := by
  unfold stopAfterSpill
  split
  · exact s.clocks_stopTail u reason
  · split <;> rfl

theorem clocks_beginStop : (s.beginStop u reason).clocks = s.clocks := by
  unfold beginStop stopEnabled
  dsimp only
  split
  · split
    · rfl
    · rw [clocks_stopAfterSpill]
      rfl
  · rfl

theorem clocks_stopTimedOut : (s.stopTimedOut u).clocks = s.clocks := by
  unfold stopTimedOut
  split
  · exact s.clocks_stopAfterSpill u _
  · rfl

theorem clocks_flushSettled (result : FlushResult) : (s.flushSettled u result).clocks = s.clocks := by
  have hidle : (({ s with flush := .idle } : Recorder).timerFlushed u result).clocks = s.clocks := by
    unfold timerFlushed
    split
    · exact clocks_checkLeaseAndLag u ({ s with flush := .idle } : Recorder) s.clock
    · rfl
  unfold flushSettled
  dsimp only
  split
  · rw [clocks_stopTail, hidle]
  · unfold stopFlushed
    split
    · rw [clocks_stopLoop, hidle]
    · rw [clocks_finishStop, hidle]
  · exact hidle

end Recorder

/-- The ACK that a step processes. An ACK of which the watermark decreases is refused. -/
def processedAck (s : Recorder) (a : Action) : Option BatchAck :=
  match a, s.flush with
  | .liveAnswered (.ok ack), .sending _ _ _ =>
    if 0 < ack.ackHighWatermarkSeq ∧ ack.ackHighWatermarkSeq < s.ackedSeq then none else some ack
  | .chunkAnswered (.ok ack), .sendingChunk _ _ _ => if 0 < ack.ackHighWatermarkSeq then none else some ack
  | .chunkRemoved _, .removing _ _ (some (_, ack)) => some ack
  | _, _ => none

/-- What a step does to the clocks, by its action. -/
inductive Ticks (u : Setup) (s : Recorder) : Action → Clocks → Prop
  | same (a : Action) : processedAck s a = none → Ticks u s a s.clocks
  | tick (clock : ℤ) (elapsed : ℕ) :
      Ticks u s (.tick clock elapsed) { s.clocks with elapsed := s.elapsed + elapsed }
  | chunkUnacked {c : Cycle} {name : String} {b : Batch} (ack : BatchAck) :
      s.flush = .sendingChunk c name b → ack.ackHighWatermarkSeq ≤ 0 →
      Ticks u s (.chunkAnswered (.ok ack)) (s.noteChunkAck ack).clocks
  | chunkRemoved {c : Cycle} {name : String} {b : Batch} (ack : BatchAck) (ok : Bool) :
      s.flush = .removing c name (some (b, ack)) →
      Ticks u s (.chunkRemoved ok) (s.noteChunkAck ack).clocks
  | liveAcked {c : Cycle} {b : Batch} {sentAt : ℕ} (ack : BatchAck) (ttl : Option ℤ) (startedAt : Option ℕ) :
      s.flush = .sending c b sentAt → ¬ (0 < ack.ackHighWatermarkSeq ∧ ack.ackHighWatermarkSeq < s.ackedSeq) →
      (match s.liveLease u ack (s.elapsed - sentAt) with
        | .granted ms => ttl = some ms ∧ startedAt = some s.elapsed
        | .expired => ttl = some 0 ∧ startedAt = s.leaseStartedAt
        | .missing => ttl = s.leaseTtl ∧ startedAt = s.leaseStartedAt) →
      Ticks u s (.liveAnswered (.ok ack)) { s.clocks with leaseTtl := ttl, leaseStartedAt := startedAt }

theorem ticks_liveAnswered {u : Setup} {s : Recorder} {c : Cycle} {b : Batch} {sentAt : ℕ}
    {answer : Except SendError BatchAck} (hflush : s.flush = .sending c b sentAt) :
    Ticks u s (.liveAnswered answer) (s.liveAnswered u c b sentAt answer).clocks := by
  unfold Recorder.liveAnswered
  split
  · rename_i ack
    unfold Recorder.liveAcked
    split
    · rename_i hdecreases
      refine .same _ ?_
      simp only [processedAck, hflush]
      exact if_pos hdecreases
    rename_i hwatermark
    have hlease : ({ s with log := s.log ++ [.acked b ack] } : Recorder).liveLease u ack (s.elapsed - sentAt) =
        s.liveLease u ack (s.elapsed - sentAt) := rfl
    split
    · rename_i hexpired
      rw [Recorder.clocks_returnHealth, Recorder.clocks_triggerMandatoryStop]
      refine .liveAcked ack (some 0) s.leaseStartedAt hflush hwatermark ?_
      rw [← hlease, hexpired]
      exact ⟨rfl, rfl⟩
    · rename_i hmissing
      refine .liveAcked ack s.leaseTtl s.leaseStartedAt hflush hwatermark ?_
      rw [← hlease, hmissing]
      exact ⟨rfl, rfl⟩
    · rename_i ttl hgranted
      rw [Recorder.clocks_returnHealth, Recorder.clocks_checkFirstFrame, Recorder.clocks_settleAcked]
      refine .liveAcked ack (some ttl) (some s.elapsed) hflush hwatermark ?_
      rw [← hlease, hgranted]
      exact ⟨rfl, rfl⟩
  · rw [Recorder.clocks_returnHealth, Recorder.clocks_triggerMandatoryStop]
    exact .same _ rfl
  · exact .same _ rfl
  · rw [Recorder.clocks_returnHealth, Recorder.clocks_checkLeaseAndLag]
    exact .same _ rfl

/-- What one step does to the clocks of the recorder. -/
theorem step_ticks {u : Setup} {s t : Recorder} {a : Action} (h : step u s a = some t) : Ticks u s a t.clocks := by
  have hsame : ∀ {r : Recorder}, processedAck s a = none → r.clocks = s.clocks → Ticks u s a r.clocks :=
    fun hnone heq => heq ▸ .same a hnone
  cases stepsTo h with
  | tick clock elapsed => exact .tick clock elapsed
  | start =>
    refine hsame rfl ?_
    unfold Recorder.start
    split
    · rfl
    split
    · exact Recorder.clocks_triggerMandatoryStop u _ _
    unfold Recorder.startSecure
    split
    · exact Recorder.clocks_appendLifecycle u ({ s with startedAt := s.clock } : Recorder) _ _
    · rfl
  | notifyDesktopChanged =>
    refine hsame rfl ?_
    unfold Recorder.notifyDesktopChanged
    split
    · split <;> rfl
    · rfl
  | enqueueFrame x => exact hsame rfl (s.clocks_enqueueFrame u x)
  | observeControlInput raw encodable => exact hsame rfl (s.clocks_observeControlInput u raw encodable)
  | flushAndVerifyHealth => exact hsame rfl (s.clocks_flushAndVerifyHealth u)
  | timerFired => exact hsame rfl (s.clocks_timerFired u)
  | stop reason => exact hsame rfl (s.clocks_beginStop u reason)
  | stopAgain | spillSettled => exact .same _ rfl
  | spillEnsured ok seen => exact hsame rfl (s.clocks_spillEnsured _ _ ok seen)
  | spillChecked free => exact hsame rfl (s.clocks_spillChecked u _ _ free)
  | spillWritten ok => exact hsame rfl (s.clocks_spillWritten u _ _ ok)
  | flushResumed => exact hsame rfl (s.clocks_beginCycle u)
  | chunksListed seen => exact hsame rfl (s.clocks_chunksListed u _ seen)
  | chunkRead ok => exact hsame rfl (s.clocks_chunkRead _ _ ok)
  | chunkAnswered answer hflush =>
    unfold Recorder.chunkAnswered
    split
    · rw [Recorder.clocks_returnHealth, Recorder.clocks_checkLeaseAndLag]
      exact .same _ rfl
    · rename_i ack
      split
      · rename_i hpos
        refine .same _ ?_
        simp only [processedAck, hflush]
        exact if_pos hpos
      · rw [Recorder.clocks_selectLive]
        exact .chunkUnacked ack hflush (by omega)
  | chunkRemoved ok hflush =>
    unfold Recorder.chunkRemoved
    split
    · rename_i b ack
      rw [Recorder.clocks_selectLive]
      exact .chunkRemoved ack ok hflush
    · rw [Recorder.clocks_selectLive]
      refine .same _ ?_
      simp only [processedAck, hflush]
  | liveAnswered answer hflush => exact ticks_liveAnswered hflush
  | flushContinued hflush =>
    refine hsame rfl ?_
    unfold Recorder.flushContinued
    split
    · rfl
    · rfl
    · exact s.clocks_roundDone u _
  | flushSettled => exact hsame rfl (s.clocks_flushSettled u _)
  | stopResumed => exact hsame rfl (s.clocks_stopAfterSpill u _)
  | stopTimedOut => exact hsame rfl (s.clocks_stopTimedOut u)

end LigamentApps.LinkHostRecorder
