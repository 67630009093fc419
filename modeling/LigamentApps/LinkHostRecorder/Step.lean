import LigamentApps.Machine.Trace
import LigamentApps.LinkHostRecorder.Flush

/-!
# The recorder as a machine

The calls of the session, the timer, the spill and `stop` come in any order, and between any two waits.
An action is a call, or the end of a wait with what the outside world decides about it: the answers of
the recorder service, the directory's listing, the free space, and whether a file could be written,
read or deleted. -/

namespace LigamentApps.LinkHostRecorder

open LinkHost

namespace Recorder

variable (u : Setup) (s : Recorder)

/-- The high-fidelity profile flushes as soon as two frames wait. -/
def flushesAtOnce : Bool :=
  (u.config.profile = "high_fidelity" || u.config.profile = "detailed") && 2 ≤ s.pendingFrames.length

/-- `enqueueFrame` with a frame that it does not ignore. -/
def queueFrame (x : FrameInput) : Recorder :=
  if s.refusesFrame u (s.newFrame x) then s.recordDrop u true
  else
    let t := ({ s with lastFrame := some (x.payload, x.monitorId) } : Recorder).acceptFrame u
      (s.newFrame x)
    if t.flushesAtOnce u then t.flushAndVerifyHealth u else t

def enqueueFrame (x : FrameInput) : Recorder :=
  if !u.config.enabled || s.stopped || s.skipsFrame u x then s else s.queueFrame u x

def notifyDesktopChanged : Recorder :=
  match s.desktopGraceUntil with
  | some t => if t < s.clock then { s with desktopGraceUntil := some (s.clock + 10000000) } else s
  | none => { s with desktopGraceUntil := some (s.clock + 10000000) }

/-- `start` with a secure ingest address. -/
def startSecure : Recorder :=
  if s.nextSeq = 0 && s.pendingEvents.isEmpty then
    { (s.appendLifecycle u "session_started"
        (.obj [("mode", .str u.config.effectiveMode)])).1 with flushTimer := true }
  else { s with flushTimer := true }

def start : Recorder :=
  if !u.config.enabled || s.stopped || s.flushTimer then s
  else if insecureIngest u then
    ({ s with startedAt := s.clock } : Recorder).triggerMandatoryStop u .insecureIngest
  else ({ s with startedAt := s.clock } : Recorder).startSecure u

def timerFired : Recorder := ({ s with timerWaits := true } : Recorder).flushAndVerifyHealth u

/-- The loop of `_doSpillToSpool` after a written chunk: a quarter of the queue may stay. -/
def spillNext : Recorder :=
  if s.queuedBytes ≤ (u.config.maxQueueBytes / 4 : ℕ) || s.queueEmpty then { s with spill := .idle }
  else s.takeChunk u

/-- `_ensureInitialized` returns, or throws. -/
def spillEnsured (batchIndex : ℕ) (b : Batch) (ok : Bool) (seen : List String) : Recorder :=
  if ok then { s with spool := s.spool.ensureInitialized seen, spill := .checking batchIndex b }
  else { s with spill := .idle }

/-- `_checkFreeDiskSpace` returns: `writeBatch` refuses the chunk, or goes on to write it. -/
def spillChecked (batchIndex : ℕ) (b : Batch) (free : Option ℕ) : Recorder :=
  if s.spool.refusesWrite u.maxSpoolBytes u.minFreeDiskBytes free
      (LinkSpoolStorage.sealedLength u.doubleText b) then
    { s.triggerMandatoryStop u .spoolQuotaExceeded with spill := .idle }
  else { s with spill := .writing batchIndex b }

/-- The file is written and renamed, or that fails. -/
def spillWritten (batchIndex : ℕ) (b : Batch) (ok : Bool) : Recorder :=
  if ok then
    ({ s with
      spool := s.spool.write batchIndex b (LinkSpoolStorage.sealedLength u.doubleText b)
      log := s.log ++ [.spooled b] } : Recorder).spillNext u
  else { s with spill := .idle }

/-- The end of `_stop`. -/
def finishStop : Recorder :=
  let flushed := s.sessionEndedRecorded && s.queueEmpty && s.droppedFrames = 0 &&
    s.droppedEvents = 0 && !(u.spool && s.spool.hasPendingChunks)
  { s with tailFlushed := flushed, stop := .idle, log := s.log ++ [.stopReturned flushed] }

/-- Nothing is pending and no loss is unpublished: the loop of `_stop` ends. -/
def tailEmpty : Bool := s.queueEmpty && s.droppedFrames ≤ 0 && s.droppedEvents ≤ 0

variable (reason : String)

/-- The head of the loop of `_stop`. -/
def stopLoop : Recorder :=
  if s.tailEmpty then s.finishStop u
  else
    let t := s.serializedFlush u
    if t.stopTimeOver u then t.finishStop u
    else { t with stop := .flushing reason (s.pendingFrames.length + s.pendingEvents.length) }

def isViolation : Bool :=
  reason ≠ "" && reason ≠ "normal" && reason ≠ "user_disconnected" && reason ≠ "session_ended"

/-- The metadata of the event that ends a session. -/
def endMetadata : Json :=
  let label := if reason = "" then "normal" else reason
  .obj (("reason", .str label) :: if isViolation reason then [("violation", .str label)] else [])

/-- `_stop` once no earlier spill and no earlier flush cycle is waited for. -/
def stopTail : Recorder :=
  if s.sessionEndedRecorded then s.stopLoop u reason
  else
    let r := s.appendLifecycle u (if isViolation reason then "mandatory_violation" else "session_ended")
      (endMetadata reason)
    ({ r.1 with sessionEndedRecorded := r.2 } : Recorder).stopLoop u reason

/-- `_stop` once no earlier spill is waited for. -/
def stopAfterSpill : Recorder :=
  match s.flush with
  | .idle => s.stopTail u reason
  | _ => if s.stopTimeOver u then s.finishStop u else { s with stop := .awaitFlush reason }

/-- `_stop` with a recording. -/
def stopEnabled : Recorder :=
  if s.spill.active then { s with stop := .awaitSpill reason } else s.stopAfterSpill u reason

/-- `stop`; a call while another one waits joins it. -/
def beginStop : Recorder :=
  let t : Recorder := { s with stopStartedAt := some s.elapsed, stopped := true, flushTimer := false }
  if u.config.enabled then t.stopEnabled u reason
  else { t with log := t.log ++ [.stopReturned true] }

/-- `_stop` after a flush cycle of the tail. -/
def stopFlushed (before : ℕ) (result : FlushResult) : Recorder :=
  if result = .health true ∧ s.pendingFrames.length + s.pendingEvents.length < before then
    s.stopLoop u reason
  else s.finishStop u

/-- What waits for the flush cycle besides `stop`: the timer looks at the lease when it threw. -/
def timerFlushed (result : FlushResult) : Recorder :=
  if s.timerWaits && result = .threw then
    { (s.checkLeaseAndLag u s.clock).1 with timerWaits := false }
  else { s with timerWaits := false }

/-- `_flushCycle` is over, and `_activeFlush` is null again. -/
def flushSettled (result : FlushResult) : Recorder :=
  let t := ({ s with flush := .idle } : Recorder).timerFlushed u result
  match s.stop with
  | .awaitFlush reason => t.stopTail u reason
  | .flushing reason before => t.stopFlushed u reason before result
  | _ => t

/-- A wait of `stop` takes too long. -/
def stopTimedOut : Recorder :=
  match s.stop with
  | .awaitSpill reason => s.stopAfterSpill u reason
  | _ => s.finishStop u

end Recorder

/-- What can happen. -/
inductive Action
  /-- Time passes: the wall clock shows another time, and the stopwatches go on. -/
  | tick (clock : ℤ) (elapsed : ℕ)
  | start
  | notifyDesktopChanged
  | enqueueFrame (x : FrameInput)
  | observeControlInput (raw : Json) (encodable : Bool)
  | flushAndVerifyHealth
  | timerFired
  | stop (reason : String)
  /-- The spill's waits end. -/
  | spillEnsured (ok : Bool) (seen : List String)
  | spillChecked (free : Option ℕ)
  | spillWritten (ok : Bool)
  | spillSettled
  /-- The flush cycle's waits end. -/
  | flushResumed
  | chunksListed (seen : List String)
  | chunkRead (ok : Bool)
  | chunkAnswered (answer : Except SendError BatchAck)
  | chunkRemoved (ok : Bool)
  | liveAnswered (answer : Except SendError BatchAck)
  | flushContinued
  | flushSettled
  /-- The waits of `stop` end. -/
  | stopResumed
  | stopTimedOut

def step (u : Setup) (s : Recorder) : Action → Option Recorder
  | .tick clock elapsed => some { s with clock, elapsed := s.elapsed + elapsed }
  | .start => some (s.start u)
  | .notifyDesktopChanged => some s.notifyDesktopChanged
  | .enqueueFrame x => some (s.enqueueFrame u x)
  | .observeControlInput raw encodable => some (s.observeControlInput u raw encodable)
  | .flushAndVerifyHealth => some (s.flushAndVerifyHealth u)
  | .timerFired => if s.flushTimer then some (s.timerFired u) else none
  | .stop reason =>
    match s.stop with
    | .idle => some (s.beginStop u reason)
    | _ => some s
  | .spillEnsured ok seen =>
    match s.spill with
    | .ensuring batchIndex b => some (s.spillEnsured batchIndex b ok seen)
    | _ => none
  | .spillChecked free =>
    match s.spill with
    | .checking batchIndex b => some (s.spillChecked u batchIndex b free)
    | _ => none
  | .spillWritten ok =>
    match s.spill with
    | .writing batchIndex b => some (s.spillWritten u batchIndex b ok)
    | _ => none
  | .spillSettled =>
    match s.spill with
    | .settled => some { s with spill := .idle }
    | _ => none
  | .flushResumed =>
    match s.flush, s.spill with
    | .awaitSpill, .idle => some (s.beginCycle u)
    | _, _ => none
  | .chunksListed seen =>
    match s.flush with
    | .listing c => some (s.chunksListed u c seen)
    | _ => none
  | .chunkRead ok =>
    match s.flush with
    | .reading c name => some (s.chunkRead c name ok)
    | _ => none
  | .chunkAnswered answer =>
    match s.flush with
    | .sendingChunk c name b => some (s.chunkAnswered u c name b answer)
    | _ => none
  | .chunkRemoved ok =>
    match s.flush with
    | .removing c name answer => some (s.chunkRemoved u c name answer ok)
    | _ => none
  | .liveAnswered answer =>
    match s.flush with
    | .sending c b sentAt => some (s.liveAnswered u c b sentAt answer)
    | _ => none
  | .flushContinued =>
    match s.flush with
    | .returned c result => some (s.flushContinued u c result)
    | _ => none
  | .flushSettled =>
    match s.flush with
    | .settled result => some (s.flushSettled u result)
    | _ => none
  | .stopResumed =>
    match s.stop, s.spill with
    | .awaitSpill reason, .idle => some (s.stopAfterSpill u reason)
    | _, _ => none
  | .stopTimedOut =>
    match s.stop with
    | .idle => none
    | _ => if s.stopTimeOver u then some (s.stopTimedOut u) else none

/-- What the recorder waits for when an action comes, and what it goes on with. -/
inductive StepsTo (u : Setup) (s : Recorder) : Action → Recorder → Prop
  | tick (clock : ℤ) (elapsed : ℕ) : StepsTo u s (.tick clock elapsed) { s with clock, elapsed := s.elapsed + elapsed }
  | start : StepsTo u s .start (s.start u)
  | notifyDesktopChanged : StepsTo u s .notifyDesktopChanged s.notifyDesktopChanged
  | enqueueFrame (x : FrameInput) : StepsTo u s (.enqueueFrame x) (s.enqueueFrame u x)
  | observeControlInput (raw : Json) (encodable : Bool) :
      StepsTo u s (.observeControlInput raw encodable) (s.observeControlInput u raw encodable)
  | flushAndVerifyHealth : StepsTo u s .flushAndVerifyHealth (s.flushAndVerifyHealth u)
  | timerFired : StepsTo u s .timerFired (s.timerFired u)
  | stop (reason : String) : s.stop = .idle → StepsTo u s (.stop reason) (s.beginStop u reason)
  | stopAgain (reason : String) : StepsTo u s (.stop reason) s
  | spillEnsured (ok : Bool) (seen : List String) {batchIndex : ℕ} {b : Batch} : s.spill =
      .ensuring batchIndex b → StepsTo u s (.spillEnsured ok seen) (s.spillEnsured batchIndex b ok seen)
  | spillChecked (free : Option ℕ) {batchIndex : ℕ} {b : Batch} : s.spill = .checking batchIndex b →
      StepsTo u s (.spillChecked free) (s.spillChecked u batchIndex b free)
  | spillWritten (ok : Bool) {batchIndex : ℕ} {b : Batch} : s.spill = .writing batchIndex b →
      StepsTo u s (.spillWritten ok) (s.spillWritten u batchIndex b ok)
  | spillSettled : s.spill = .settled → StepsTo u s .spillSettled { s with spill := .idle }
  | flushResumed : s.flush = .awaitSpill → s.spill = .idle → StepsTo u s .flushResumed (s.beginCycle u)
  | chunksListed (seen : List String) {c : Cycle} : s.flush = .listing c →
      StepsTo u s (.chunksListed seen) (s.chunksListed u c seen)
  | chunkRead (ok : Bool) {c : Cycle} {name : String} : s.flush = .reading c name →
      StepsTo u s (.chunkRead ok) (s.chunkRead c name ok)
  | chunkAnswered (answer : Except SendError BatchAck) {c : Cycle} {name : String} {b : Batch} :
      s.flush = .sendingChunk c name b → StepsTo u s (.chunkAnswered answer) (s.chunkAnswered u c name b answer)
  | chunkRemoved (ok : Bool) {c : Cycle} {name : String} {answer : Option (Batch × BatchAck)} :
      s.flush = .removing c name answer → StepsTo u s (.chunkRemoved ok) (s.chunkRemoved u c name answer ok)
  | liveAnswered (answer : Except SendError BatchAck) {c : Cycle} {b : Batch} {sentAt : ℕ} :
      s.flush = .sending c b sentAt → StepsTo u s (.liveAnswered answer) (s.liveAnswered u c b sentAt answer)
  | flushContinued {c : Cycle} {result : FlushResult} : s.flush = .returned c result →
      StepsTo u s .flushContinued (s.flushContinued u c result)
  | flushSettled {result : FlushResult} : s.flush = .settled result →
      StepsTo u s .flushSettled (s.flushSettled u result)
  | stopResumed {reason : String} : s.stop = .awaitSpill reason → s.spill = .idle →
      StepsTo u s .stopResumed (s.stopAfterSpill u reason)
  | stopTimedOut : s.stop ≠ .idle → StepsTo u s .stopTimedOut (s.stopTimedOut u)

theorem stepsTo {u : Setup} {s t : Recorder} {a : Action} (h : step u s a = some t) : StepsTo u s a t := by
  cases a <;> simp only [step] at h
  case timerFired =>
    obtain ⟨-, h⟩ := Option.ite_none_right_eq_some.mp h
    cases h
    exact .timerFired
  case stop =>
    split at h <;> cases h
    · exact .stop _ ‹_›
    · exact .stopAgain _
  case stopTimedOut =>
    split at h
    · cases h
    · obtain ⟨-, h⟩ := Option.ite_none_right_eq_some.mp h
      cases h
      exact .stopTimedOut ‹_›
  -- An action either comes at any time, or ends the wait that is matched.
  all_goals first
    | (cases h; exact by constructor)
    | (split at h <;> cases h; constructor <;> assumption)

/-- The recorder as a machine; what it does is in its log. -/
def recorder (u : Setup) : Machine Recorder Action Empty :=
  ⟨fun s a => (step u s a).map fun t => (t, [])⟩

/-- A mandatory recording with the given failure policy. -/
def sampleSetup (failurePolicy : String) : Setup where
  sessionId := "10000000-0000-4000-8000-000000000001"
  config :=
    { enabled := true
      mandatory := true
      requireFirstFrame := true
      effectiveMode := "record_only"
      ingestUrl := "https://recorder.example/batch"
      failurePolicy := failurePolicy
      spoolEnabled := true }
  spool := true
  maxSpoolBytes := 1024 * 1024 * 1024
  minFreeDiskBytes := 500 * 1024 * 1024
  stopFlushTimeout := 25000000
  isSecureIngestUri := fun _ => true
  doubleText := fun _ => "0.5"

def sampleFrame (byte : UInt8) : FrameInput where
  frameKind := "activity"
  payload := [byte]
  monitorId := "primary"
  width := 1920
  height := 1080
  codec := "webp"

/-- A file transfer message; the recorder refuses it where a number in it is infinite. -/
def sampleMessage : Json := .obj [("type", .str "file_start"), ("id", .str "t"), ("checksum", .null)]

def sampleAck (watermark : ℤ) : BatchAck := ⟨watermark, true, 45000000, some 45000⟩

/-- A recorder of a session with an empty spool directory. -/
def sampleRecorder : Recorder := .create 0 { dir := .empty }

end LigamentApps.LinkHostRecorder
