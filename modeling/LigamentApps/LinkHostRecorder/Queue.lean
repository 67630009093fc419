import LigamentApps.LinkHostRecorder.InputEvent
import LigamentApps.LinkHostRecorder.State

/-!
# The recorder's queue

The part of `LinkHostRecorder` that runs between waits and fills the queue: the loss counters and their
gap marker, the beginning of a spill, the violations, and what is accepted. -/

namespace LigamentApps.LinkHostRecorder

open LinkHost

def maxBatchBytes : ℕ := 2 * 1024 * 1024

def maxBatchFrames : ℕ := 20

def maxBatchEvents : ℕ := 200

def maxFrameBytes : ℕ := 8 * 1024 * 1024

def maxMetadataBytes : ℕ := 16 * 1024

def maxQueuedFrames : ℕ := 1024

def maxQueuedEvents : ℕ := 4096

def maxFlushBatches : ℕ := 128

def queueControlReserveBytes : ℕ := 1024

def maxLossCount : ℤ := 0x7fffffffffffffff

/-- The codecs of which an oversized frame is sent alone. -/
def supportedCodecs : List String := ["jpeg", "png", "webp", "bmp"]

/-- The sum of two loss counters: Dart's addition wraps to 64 bits, and then the sum is clamped. -/
def addLoss (a b : ℤ) : ℤ := max 0 (min maxLossCount ((a + b).bmod (2 ^ 64)))

theorem addLoss_eq {a b : ℤ} (h0 : 0 ≤ a + b) (hle : a + b ≤ maxLossCount) : addLoss a b = a + b := by
  unfold addLoss maxLossCount at *
  have hmod : (a + b).bmod (2 ^ 64) = a + b := Int.bmod_eq_of_le (by omega) (by omega)
  rw [hmod]
  omega

/-- What `onFrameCaptured` hands over. -/
structure FrameInput where
  frameKind : String
  payload : List UInt8
  monitorId : String
  width : ℤ
  height : ℤ
  codec : String

/-- The metadata of a gap marker. -/
def lossMetadata (frames events : ℤ) : Json :=
  .obj [("reason", .str "recorder_queue_overflow"), ("dropped_frames", .int frames),
    ("dropped_events", .int events)]

def Setup.batch (u : Setup) (frames : List Frame) (events : List Event) : Batch where
  sessionId := u.sessionId
  epoch := u.config.epoch
  leaseTtlSeconds := (u.config.leaseTtl / 1000 : ℕ)
  frames := frames
  events := events

/-- An earlier gap marker, merged with what was lost since. -/
def Evidence.mergedMarker (v : Evidence) (previous : Event) : Event :=
  { previous with
    metadata := lossMetadata (addLoss v.droppedFrames (previous.lossOf "dropped_frames"))
      (addLoss v.droppedEvents (previous.lossOf "dropped_events")) }

namespace Recorder

variable (u : Setup) (s : Recorder)

/-! ## The spill's beginning and the violations -/

/-- The bytes of the pending items: what `_recalculateQueuedBytes` sets `_queuedBytes` to. -/
def pendingBytes (frames : List Frame) (events : List Event) : ℕ :=
  (frames.map (·.jsonBytes u.doubleText)).sum + (events.map (·.jsonBytes u.doubleText)).sum

/-- One round of `_doSpillToSpool` up to `writeBatch`: the oldest frames and events leave the queue. -/
def takeChunk : Recorder :=
  let frames := s.pendingFrames.take maxBatchFrames
  let events := s.pendingEvents.take maxBatchEvents
  { s with
    pendingFrames := s.pendingFrames.drop maxBatchFrames
    pendingEvents := s.pendingEvents.drop maxBatchEvents
    queuedBytes := max 0 (s.queuedBytes - pendingBytes u frames events)
    spoolBatchIndex := s.spoolBatchIndex + 1
    spill := .ensuring (s.spoolBatchIndex + 1) (u.batch frames events) }

def spillToSpool : Recorder :=
  match s.spill with
  | .idle =>
    if s.stopped || !u.spool then s
    else if s.queueEmpty then { s with spill := .settled }
    else s.takeChunk u
  | _ => s

/-- `_triggerMandatoryStop`: without the strict policy everything but a full spool only makes the
recorder spill. -/
def triggerMandatoryStop (reason : Violation) : Recorder :=
  if s.stopped || (!u.config.mandatory && !u.config.requireFirstFrame) then s
  else if !u.config.isStrict && reason ≠ .spoolQuotaExceeded then s.spillToSpool u
  else { s with stopped := true, flushTimer := false }.report (.violation reason)

/-- The time on `_leaseStopwatch`. -/
def leaseElapsed : ℕ :=
  match s.leaseStartedAt with
  | some t => s.elapsed - t
  | none => 0

/-- `config.maxAckLag`, in microseconds. -/
def maxAckLag : ℤ := (u.config.maxAckLag * 1000 : ℕ)

/-- The time since an instant, if there is one, satisfies a condition. -/
def since (instant : Option ℤ) (now : ℤ) (late : ℤ → Bool) : Bool :=
  match instant with
  | some t => late (now - t)
  | none => false

/-- `now` is before the end of the grace period after a change of the desktop. -/
def inDesktopGrace (now : ℤ) : Bool :=
  match s.desktopGraceUntil with
  | some t => now < t
  | none => false

/-- The violation that `_checkLeaseAndLag` finds. -/
def lagViolation (now : ℤ) : Option Violation :=
  if !u.config.mandatory then none
  else if !s.firstFrameAcked then
    if s.inDesktopGrace now then none
    else if maxAckLag u ≤ now - s.startedAt then some .firstFrameUnavailable
    else none
  else if (match s.leaseTtl with | some ttl => decide (ttl ≤ s.leaseElapsed) | none => false) then
    some .leaseExpired
  else if since s.lastAckAt now (maxAckLag u < ·) || since s.noProgressSince now (maxAckLag u ≤ ·) then
    some .ackLagExceeded
  else none

def checkLeaseAndLag (now : ℤ) : Recorder × Bool :=
  match s.lagViolation u now with
  | some reason => (s.triggerMandatoryStop u reason, false)
  | none => (s, true)

/-! ## Loss -/

/-- The frame that a new gap marker brings with it. -/
def lossFrame : Frame where
  seq := s.nextSeq + 1
  frameKind := "gap_marker"
  monitorId := "primary"
  width := 0
  height := 0
  codec := "png"
  payload := []
  capturedAt := s.clock

/-- A new gap marker. -/
def lossMarker : Event where
  seq := s.nextSeq + 2
  eventType := "gap_marker"
  source := "session_lifecycle"
  occurredAt := s.clock
  metadata := lossMetadata (addLoss s.droppedFrames 0) (addLoss s.droppedEvents 0)

/-- The queue's growth by a new gap marker. -/
def markDelta : ℤ := (s.lossMarker.jsonBytes u.doubleText + s.lossFrame.jsonBytes u.doubleText : ℕ)

/-- The queue's growth by merging later loss into an earlier gap marker. -/
def mergeDelta (previous : Event) : ℤ :=
  (s.mergedMarker previous).jsonBytes u.doubleText - previous.jsonBytes u.doubleText

/-- A new gap marker, with its frame. -/
def markLoss : Recorder :=
  { s with
    nextSeq := s.nextSeq + 2
    pendingFrames := s.pendingFrames ++ [s.lossFrame]
    gapMarker := some s.lossMarker
    gapMarkerFrozen := false
    pendingEvents := s.pendingEvents ++ [s.lossMarker]
    queuedBytes := s.queuedBytes + s.markDelta u
    droppedFrames := 0
    droppedEvents := 0
    log := s.log ++ [.accepted (.frame s.lossFrame), .accepted (.event s.lossMarker),
      .marker s.lossMarker] }

/-- Later loss, merged into the gap marker: its one map is changed, wherever it is. -/
def mergeLoss (previous : Event) : Recorder :=
  { s with
    pendingEvents := s.pendingEvents.map (setMetadata (s.mergedMarker previous))
    spill := s.spill.setMetadata (s.mergedMarker previous)
    gapMarker := some (s.mergedMarker previous)
    queuedBytes := s.queuedBytes + s.mergeDelta u previous
    droppedFrames := 0
    droppedEvents := 0
    log := s.log ++ [.marker (s.mergedMarker previous)] }

def materializeLossMarker : Recorder :=
  if s.droppedFrames = 0 ∧ s.droppedEvents = 0 then s
  else
    match s.gapMarker with
    | none =>
      if u.config.maxQueueBytes < s.queuedBytes + s.markDelta u ∨
          maxQueuedEvents + 3 ≤ s.pendingEvents.length ∨
          maxQueuedFrames + 1 ≤ s.pendingFrames.length then s
      else s.markLoss u
    | some previous =>
      if s.gapMarkerFrozen ∨ u.config.maxQueueBytes < s.queuedBytes + s.mergeDelta u previous then s
      else s.mergeLoss u previous

/-- One more lost frame or event. -/
def countDrop (isFrame : Bool) : Recorder :=
  if isFrame then
    { s with droppedFrames := addLoss s.droppedFrames 1, log := s.log ++ [.refused true] }
  else { s with droppedEvents := addLoss s.droppedEvents 1, log := s.log ++ [.refused false] }

/-- What `_recordDrop` does in the end. -/
def queueOverflow : Recorder :=
  if u.config.mandatory then
    if u.config.isStrict then s.triggerMandatoryStop u .queueOverflow else s.spillToSpool u
  else s

def recordDrop (isFrame : Bool) : Recorder :=
  ((s.countDrop isFrame).materializeLossMarker u).queueOverflow u

/-! ## What is accepted -/

/-- A frame joins the queue. -/
def acceptFrame (f : Frame) : Recorder :=
  { s with
    nextSeq := s.nextSeq + 1
    queuedBytes := s.queuedBytes + f.jsonBytes u.doubleText
    pendingFrames := s.pendingFrames ++ [f]
    log := s.log ++ [.accepted (.frame f)] }

/-- An event joins the queue. -/
def acceptEvent (e : Event) : Recorder :=
  { s with
    nextSeq := s.nextSeq + 1
    queuedBytes := s.queuedBytes + e.jsonBytes u.doubleText
    pendingEvents := s.pendingEvents ++ [e]
    log := s.log ++ [.accepted (.event e)] }

/-- The event of `_appendLifecycle`. -/
def lifecycleEvent (type : String) (metadata : Json) : Event where
  seq := s.nextSeq + 1
  eventType := type
  source := "session_lifecycle"
  occurredAt := s.clock
  metadata := metadata

/-- `_appendLifecycle` finds no room. -/
def refusesLifecycle (e : Event) : Bool :=
  maxMetadataBytes < e.jsonBytes u.doubleText ||
    decide ((u.config.maxQueueBytes : ℤ) < s.queuedBytes + e.jsonBytes u.doubleText) ||
    maxQueuedEvents + 3 ≤ s.pendingEvents.length

def appendLifecycle (type : String) (metadata : Json) : Recorder × Bool :=
  if s.refusesLifecycle u (s.lifecycleEvent type metadata) then (s.recordDrop u false, false)
  else (s.acceptEvent u (s.lifecycleEvent type metadata), true)

def fitsDataQueue (bytes : ℕ) : Bool :=
  s.queuedBytes + bytes ≤ u.config.maxQueueBytes - queueControlReserveBytes

def isThrottled : Bool := (u.config.maxQueueBytes / 2 : ℕ) ≤ s.queuedBytes

/-- `enqueueFrame` ignores a periodic frame: the screen is unchanged, or the queue is throttled. -/
def skipsFrame (x : FrameInput) : Bool :=
  x.frameKind = "periodic" &&
    match s.lastFrame with
    | some (payload, monitorId) => monitorId = x.monitorId && (payload = x.payload || s.isThrottled u)
    | none => false

/-- The frame of `enqueueFrame`. -/
def newFrame (x : FrameInput) : Frame where
  seq := s.nextSeq + 1
  frameKind := x.frameKind
  monitorId := x.monitorId
  width := x.width
  height := x.height
  codec := x.codec
  payload := x.payload
  capturedAt := s.clock

/-- `enqueueFrame` refuses a frame. -/
def refusesFrame (f : Frame) : Bool :=
  maxFrameBytes < f.payload.length || maxMetadataBytes < f.metadataBytes u.doubleText ||
    !s.fitsDataQueue u (f.jsonBytes u.doubleText) || maxQueuedFrames ≤ s.pendingFrames.length ||
    (maxBatchBytes < f.jsonBytes u.doubleText && !supportedCodecs.contains f.codec)

/-- `observeControlInput` refuses an event; `encodable` is whether `jsonEncode` can write it, which it
cannot where a number of the message is infinite. -/
def refusesEvent (e : Event) (encodable : Bool) : Bool :=
  !encodable || maxMetadataBytes < e.jsonBytes u.doubleText ||
    !s.fitsDataQueue u (e.jsonBytes u.doubleText) || maxQueuedEvents ≤ s.pendingEvents.length

def observeControlInput (raw : Json) (encodable : Bool) : Recorder :=
  if !u.config.enabled || s.stopped then s
  else
    match sanitizeInputEvent u.doubleText raw s.clock (s.nextSeq + 1) with
    | none => s
    | some e => if s.refusesEvent u e encodable then s.recordDrop u false else s.acceptEvent u e

end Recorder

end LigamentApps.LinkHostRecorder
