import LigamentApps.LinkHost.RecordingConfig
import LigamentApps.LinkHostRecorder.SpoolStorage

/-!
# The recorder's state

`LinkHostRecorder` between two of its waits. Its asynchronous parts (a spill, a flush cycle and
`stop`, at most one of each) stand at a wait, which is their phase; everything else happens between
waits. `log` is kept for the proofs only: what the recorder has accepted, refused and sent, and what it
was answered, in this order. -/

namespace LigamentApps.LinkHostRecorder

open LinkHost

/-- What a recorder is made with. `spool` stands for whether there is a `LinkSpoolStorage`; times are
in microseconds. -/
structure Setup where
  sessionId : String
  config : LinkRecordingConfig
  spool : Bool
  maxSpoolBytes : ℤ
  minFreeDiskBytes : ℤ
  stopFlushTimeout : ℕ
  isSecureIngestUri : String → Bool
  doubleText : ℚ → String

/-- The reasons of `onMandatoryViolation`. -/
inductive Violation
  | queueOverflow
  | leaseExpired
  | ackLagExceeded
  | firstFrameUnavailable
  | insecureIngest
  | spoolQuotaExceeded
  deriving DecidableEq

def Violation.text : Violation → String
  | .queueOverflow => "recorder_queue_overflow"
  | .leaseExpired => "recorder_lease_expired"
  | .ackLagExceeded => "recorder_ack_lag_exceeded"
  | .firstFrameUnavailable => "recorder_first_frame_unavailable"
  | .insecureIngest => "recorder_insecure_ingest"
  | .spoolQuotaExceeded => "recorder_spool_quota_exceeded"

/-- What happens, as far as evidence is concerned. -/
inductive Report
  /-- An item is put into a pending list. -/
  | accepted (i : Item)
  /-- A frame or an event is refused. -/
  | refused (isFrame : Bool)
  /-- A gap marker is made, or an earlier one merged with later loss: this is its content now. -/
  | marker (m : Event)
  /-- `sendBatch` is called, with a batch of the queue or a chunk, and the chunks on disk then. -/
  | sent (live : Bool) (b : Batch) (onDisk : List Batch)
  /-- `sendBatch` returns. -/
  | acked (b : Batch) (ack : BatchAck)
  /-- A chunk is on disk. -/
  | spooled (b : Batch)
  /-- `onMandatoryViolation` is called. -/
  | violation (reason : Violation)
  /-- `stop` returns. -/
  | stopReturned (result : Bool)

/-- Where `_doSpillToSpool` stands. -/
inductive SpillPhase
  /-- `_activeSpill` is null. -/
  | idle
  /-- In `_ensureInitialized`: the batch is taken, and not yet encoded. -/
  | ensuring (batchIndex : ℕ) (b : Batch)
  /-- In `_checkFreeDiskSpace`. -/
  | checking (batchIndex : ℕ) (b : Batch)
  /-- Writing and renaming the file. -/
  | writing (batchIndex : ℕ) (b : Batch)
  /-- It found nothing to do and is over, and `_activeSpill` is not yet null again. -/
  | settled

/-- What the spill has taken from the queue. -/
def SpillPhase.batch : SpillPhase → Option Batch
  | .ensuring _ b | .checking _ b | .writing _ b => some b
  | .idle | .settled => none

/-- The items that the spill has taken from the queue. -/
def SpillPhase.items (p : SpillPhase) : List Item :=
  match p.batch with
  | some b => b.items
  | none => []

/-- A gap marker's new metadata, seen through every reference to its map. -/
def setMetadata (m e : Event) : Event :=
  if e.seq = m.seq then { e with metadata := m.metadata } else e

/-- The spill, with a gap marker's new metadata where its batch is not yet encoded. -/
def SpillPhase.setMetadata (p : SpillPhase) (m : Event) : SpillPhase :=
  match p with
  | .ensuring batchIndex b =>
    .ensuring batchIndex { b with events := b.events.map (LinkHostRecorder.setMetadata m) }
  | p => p

/-- `_activeSpill` is not null. -/
def SpillPhase.active : SpillPhase → Bool
  | .idle => false
  | _ => true

/-- How `_flushInternal` or `_flushCycle` ends. -/
inductive FlushResult
  | health (ok : Bool)
  | threw
  deriving DecidableEq

/-- The variables of `_flushCycle` and `_flushInternal`. -/
structure Cycle where
  upperSeq : ℕ
  /-- The count `i` of the loop. -/
  round : ℕ
  before : ℕ
  /-- The time at which `_flushInternal` began. -/
  now : ℤ

/-- Where `_flushCycle` stands. -/
inductive FlushPhase
  /-- `_activeFlush` is null. -/
  | idle
  /-- It waits for `_activeSpill`. -/
  | awaitSpill
  /-- In `getPendingBatches`. -/
  | listing (c : Cycle)
  /-- In `readBatch`. -/
  | reading (c : Cycle) (name : String)
  /-- In `sendBatch` with a chunk. -/
  | sendingChunk (c : Cycle) (name : String) (b : Batch)
  /-- In `removeBatch`, after the chunk's ACK or because it could not be read. -/
  | removing (c : Cycle) (name : String) (answer : Option (Batch × BatchAck))
  /-- Between two waits: `_flushInternal` has come to the queue. -/
  | selecting (c : Cycle)
  /-- In `sendBatch` with a batch of the queue, since a time of the stopwatch. -/
  | sending (c : Cycle) (b : Batch) (sentAt : ℕ)
  /-- `_flushInternal` is over. -/
  | returned (c : Cycle) (result : FlushResult)
  /-- `_flushCycle` is over, and `_activeFlush` is not yet null again. -/
  | settled (result : FlushResult)

/-- Where `_stop` stands. -/
inductive StopPhase
  /-- `_activeStop` is null. -/
  | idle
  /-- It waits for `_activeSpill`. -/
  | awaitSpill (reason : String)
  /-- It waits for an earlier flush cycle. -/
  | awaitFlush (reason : String)
  /-- It waits for a flush cycle of the tail, before which so many items were pending. -/
  | flushing (reason : String) (before : ℕ)

/-- The part of the recorder that evidence passes through. -/
structure Evidence where
  pendingFrames : List Frame := []
  pendingEvents : List Event := []
  nextSeq : ℕ := 0
  gapMarker : Option Event := none
  gapMarkerFrozen : Bool := false
  droppedFrames : ℤ := 0
  droppedEvents : ℤ := 0
  spoolBatchIndex : ℕ := 0
  firstFrameAcked : Bool := false
  spool : LinkSpoolStorage
  spill : SpillPhase := .idle
  flush : FlushPhase := .idle
  log : List Report := []

structure Recorder extends Evidence where
  /-- The wall clock. -/
  clock : ℤ
  /-- The time that the stopwatches measure. -/
  elapsed : ℕ := 0
  /-- `_lastFramePayload` and `_lastMonitorId`. -/
  lastFrame : Option (List UInt8 × String) := none
  queuedBytes : ℤ := 0
  ackedSeq : ℤ := 0
  lastAckAt : Option ℤ := none
  noProgressSince : Option ℤ := none
  leaseTtl : Option ℤ := none
  /-- When `_leaseStopwatch` was last started. -/
  leaseStartedAt : Option ℕ := none
  desktopGraceUntil : Option ℤ := none
  startedAt : ℤ
  /-- `_flushTimer` is not null. -/
  flushTimer : Bool := false
  /-- A call of the timer waits for the flush cycle. -/
  timerWaits : Bool := false
  stopped : Bool := false
  sessionEndedRecorded : Bool := false
  tailFlushed : Bool := true
  stop : StopPhase := .idle
  /-- When `_stopWatch` was started. -/
  stopStartedAt : Option ℕ := none

namespace Evidence

/-- The pending items. -/
def queue (v : Evidence) : List Item := v.pendingFrames.map .frame ++ v.pendingEvents.map .event

/-- Nothing is pending. -/
def queueEmpty (v : Evidence) : Bool := v.pendingFrames.isEmpty && v.pendingEvents.isEmpty

/-- The log, with one more report. -/
def report (v : Evidence) (r : Report) : Evidence := { v with log := v.log ++ [r] }

@[simp] theorem frame_mem_queue {v : Evidence} {f : Frame} : .frame f ∈ v.queue ↔ f ∈ v.pendingFrames := by
  simp [queue]

@[simp] theorem event_mem_queue {v : Evidence} {e : Event} : .event e ∈ v.queue ↔ e ∈ v.pendingEvents := by
  simp [queue]

theorem queueEmpty_iff {v : Evidence} : v.queueEmpty = true ↔ v.pendingFrames = [] ∧ v.pendingEvents = [] := by
  simp [queueEmpty]

theorem queue_eq_nil {v : Evidence} (h : v.queueEmpty = true) : v.queue = [] := by
  obtain ⟨hframes, hevents⟩ := queueEmpty_iff.mp h
  simp [queue, hframes, hevents]

end Evidence

/-- A recorder that was just made, with a spool over a directory with any content. -/
def Recorder.create (clock : ℤ) (spool : LinkSpoolStorage) : Recorder :=
  { spool, clock, startedAt := clock }

/-- The log, with one more report. -/
def Recorder.report (s : Recorder) (r : Report) : Recorder := { s with log := s.log ++ [r] }

end LigamentApps.LinkHostRecorder
