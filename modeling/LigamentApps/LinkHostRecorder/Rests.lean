import LigamentApps.LinkHostRecorder.StepMoves

/-!
# Between two steps

A step ends at a wait: a round that came to the queue has sent a batch of it, or is over. -/

namespace LigamentApps.LinkHostRecorder

open LinkHost

/-- The round is not at the queue. -/
def Rests (s : Recorder) : Prop := ∀ c, s.flush ≠ .selecting c

namespace Recorder

variable (u : Setup) (s : Recorder)

theorem rests_congr {t : Recorder} (h : Rests s) (hflush : t.flush = s.flush) : Rests t := by
  intro c hphase
  exact h c (hflush.symm.trans hphase)

variable (c : Cycle)

theorem rests_returnHealth (r : Recorder × Bool) : Rests (returnHealth c r) := by
  simp [Rests, returnHealth]

theorem rests_selectLive : Rests (s.selectLive u c) := by
  unfold selectLive sendLive
  dsimp only
  split
  · exact rests_returnHealth c _
  · simp [Rests]

theorem rests_nextRound (upperSeq round : ℕ) : Rests (s.nextRound u upperSeq round) := by
  unfold nextRound
  split
  · simp [Rests]
  split
  · simp [Rests]
  unfold flushInternal
  split
  · exact rests_returnHealth _ _
  split
  · simp [Rests]
  · exact rests_selectLive u _ _

theorem rests_beginCycle : Rests (s.beginCycle u) := rests_nextRound u _ _ _

theorem rests_serializedFlush (h : Rests s) : Rests (s.serializedFlush u) := by
  unfold serializedFlush
  split
  · split
    · simp [Rests]
    · exact rests_beginCycle u s
  · exact h

theorem rests_flushAndVerifyHealth (h : Rests s) : Rests (s.flushAndVerifyHealth u) := by
  unfold flushAndVerifyHealth
  split
  · exact h
  · exact rests_serializedFlush u s h

theorem rests_roundDone : Rests (s.roundDone u c) := by
  unfold roundDone
  dsimp only
  split
  · split
    · simp [Rests, settleHealth]
    · simp [Rests, settleHealth]
  · exact rests_nextRound u _ _ _

@[simp] theorem flush_recordDrop (isFrame : Bool) : (s.recordDrop u isFrame).flush = s.flush := by
  have hcount : (s.countDrop isFrame).flush = s.flush := by
    unfold countDrop
    split <;> rfl
  unfold recordDrop queueOverflow
  split
  · split
    · simp [hcount]
    · simp [hcount]
  · simp [hcount]

@[simp] theorem flush_appendLifecycle (type : String) (metadata : Json) :
    (s.appendLifecycle u type metadata).1.flush = s.flush := by
  unfold appendLifecycle
  split
  · exact s.flush_recordDrop u false
  · rfl

theorem rests_enqueueFrame (x : FrameInput) (h : Rests s) : Rests (s.enqueueFrame u x) := by
  unfold enqueueFrame queueFrame
  split
  · exact h
  split
  · exact s.rests_congr h (by simp)
  · dsimp only
    split
    · exact rests_flushAndVerifyHealth u _ (s.rests_congr h rfl)
    · exact s.rests_congr h rfl

theorem flush_start : (s.start u).flush = s.flush := by
  unfold start
  split
  · rfl
  split
  · simp
  unfold startSecure
  split
  · simp
  · rfl

theorem flush_observeControlInput (raw : Json) (encodable : Bool) :
    (s.observeControlInput u raw encodable).flush = s.flush := by
  unfold observeControlInput
  split
  · rfl
  split
  · rfl
  split
  · simp
  · rfl

theorem flush_spillChecked (batchIndex : ℕ) (b : Batch) (free : Option ℕ) :
    (s.spillChecked u batchIndex b free).flush = s.flush := by
  unfold spillChecked
  split
  · simp
  · rfl

theorem flush_spillWritten (batchIndex : ℕ) (b : Batch) (ok : Bool) :
    (s.spillWritten u batchIndex b ok).flush = s.flush := by
  unfold spillWritten spillNext
  split
  · split <;> rfl
  · rfl

variable (reason : String)

theorem rests_stopLoop (h : Rests s) : Rests (s.stopLoop u reason) := by
  have hflush := rests_serializedFlush u s h
  unfold stopLoop
  split
  · exact s.rests_congr h rfl
  · dsimp only
    split
    · exact rests_congr _ hflush rfl
    · exact rests_congr _ hflush rfl

theorem rests_stopTail (h : Rests s) : Rests (s.stopTail u reason) := by
  unfold stopTail
  split
  · exact s.rests_stopLoop u reason h
  · exact rests_stopLoop u _ reason (s.rests_congr h (by simp))

theorem rests_stopAfterSpill (h : Rests s) : Rests (s.stopAfterSpill u reason) := by
  unfold stopAfterSpill
  split
  · exact s.rests_stopTail u reason h
  · split
    · exact s.rests_congr h rfl
    · exact s.rests_congr h rfl

theorem rests_beginStop (h : Rests s) : Rests (s.beginStop u reason) := by
  unfold beginStop stopEnabled
  dsimp only
  split
  · split
    · exact s.rests_congr h rfl
    · exact rests_stopAfterSpill u _ reason (s.rests_congr h rfl)
  · exact s.rests_congr h rfl

theorem rests_stopTimedOut (h : Rests s) : Rests (s.stopTimedOut u) := by
  unfold stopTimedOut
  split
  · exact s.rests_stopAfterSpill u _ h
  · exact s.rests_congr h rfl

theorem rests_liveAnswered (b : Batch) (sentAt : ℕ) (answer : Except SendError BatchAck) :
    Rests (s.liveAnswered u c b sentAt answer) := by
  unfold liveAnswered
  split
  · unfold liveAcked
    split
    · simp [Rests]
    split
    · exact rests_returnHealth c _
    · simp [Rests]
    · exact rests_returnHealth c _
  · exact rests_returnHealth c _
  · simp [Rests]
  · exact rests_returnHealth c _

theorem rests_chunkAnswered (name : String) (b : Batch) (answer : Except SendError BatchAck) :
    Rests (s.chunkAnswered u c name b answer) := by
  unfold chunkAnswered
  split
  · exact rests_returnHealth c _
  · split
    · simp [Rests]
    · exact rests_selectLive u _ c

theorem rests_flushSettled (result : FlushResult) : Rests (s.flushSettled u result) := by
  have hidle : Rests (({ s with flush := .idle } : Recorder).timerFlushed u result) := by
    unfold timerFlushed
    split
    · simp [Rests]
    · simp [Rests]
  unfold flushSettled
  dsimp only
  split
  · exact rests_stopTail u _ _ hidle
  · unfold stopFlushed
    split
    · exact rests_stopLoop u _ _ hidle
    · exact rests_congr _ hidle rfl
  · exact hidle

end Recorder

theorem rests_step {u : Setup} {s t : Recorder} {a : Action} (h : Rests s) (hstep : step u s a = some t) :
    Rests t := by
  cases stepsTo hstep with
  | tick | spillSettled => exact s.rests_congr h rfl
  | start => exact s.rests_congr h (s.flush_start u)
  | notifyDesktopChanged =>
    refine s.rests_congr h ?_
    unfold Recorder.notifyDesktopChanged
    split
    · split <;> rfl
    · rfl
  | enqueueFrame x => exact s.rests_enqueueFrame u x h
  | observeControlInput raw encodable => exact s.rests_congr h (s.flush_observeControlInput u raw encodable)
  | flushAndVerifyHealth => exact s.rests_flushAndVerifyHealth u h
  | timerFired => exact Recorder.rests_flushAndVerifyHealth u _ (s.rests_congr h rfl)
  | stop reason => exact s.rests_beginStop u reason h
  | stopAgain => exact h
  | spillEnsured =>
    refine s.rests_congr h ?_
    unfold Recorder.spillEnsured
    split <;> rfl
  | spillChecked free => exact s.rests_congr h (s.flush_spillChecked u _ _ free)
  | spillWritten ok => exact s.rests_congr h (s.flush_spillWritten u _ _ ok)
  | flushResumed => exact s.rests_beginCycle u
  | chunksListed =>
    unfold Recorder.chunksListed
    split
    · simp [Rests]
    · exact s.rests_selectLive u _
  | chunkRead =>
    unfold Recorder.chunkRead
    split <;> simp [Rests]
  | chunkAnswered answer => exact s.rests_chunkAnswered u _ _ _ answer
  | chunkRemoved =>
    unfold Recorder.chunkRemoved
    split
    · exact Recorder.rests_selectLive u _ _
    · exact Recorder.rests_selectLive u _ _
  | liveAnswered answer => exact s.rests_liveAnswered u _ _ _ answer
  | flushContinued =>
    unfold Recorder.flushContinued
    split
    · simp [Rests]
    · simp [Rests]
    · exact s.rests_roundDone u _
  | flushSettled => exact s.rests_flushSettled u _
  | stopResumed => exact s.rests_stopAfterSpill u _ h
  | stopTimedOut => exact s.rests_stopTimedOut u h

end LigamentApps.LinkHostRecorder
