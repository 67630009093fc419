import LigamentApps.LinkHostRecorder.Queue

/-!
# The flush cycle

`_flushCycle` and `_flushInternal` of `LinkHostRecorder`, cut at their waits. A cycle makes up to 128
rounds; a round drains at most one chunk of the spool and then sends one batch of the queue. -/

namespace LigamentApps.LinkHostRecorder

open LinkHost

/-- Frames and events in the order of their numbers, as the two heads compare. -/
def mergeItems : List Frame → List Event → List Item
  | [], events => events.map .event
  | f :: frames, events =>
    (events.takeWhile (·.seq ≤ f.seq)).map .event ++
      .frame f :: mergeItems frames (events.dropWhile (·.seq ≤ f.seq))

/-- The bytes of a batch with one more item; `isFirst` is whether its list is empty. -/
def nextBytes (bytes itemBytes : ℕ) (isFirst : Bool) : ℕ :=
  bytes + itemBytes + if isFirst then 0 else 1

/-- The loop of `_flushInternal` that selects the items of a batch; the arguments after the items are
what it has selected, and the size of that. -/
def selectItems (doubleText : ℚ → String) :
    List Item → List Frame → List Event → ℕ → List Frame × List Event
  | [], frames, events, _ => (frames, events)
  | .frame f :: items, frames, events, bytes =>
    if maxBatchFrames ≤ frames.length then (frames, events)
    else if maxBatchBytes < nextBytes bytes (f.jsonBytes doubleText) frames.isEmpty then
      -- A single oversized frame may go alone, up to the proxy's 20 MiB.
      if frames.isEmpty && events.isEmpty && supportedCodecs.contains f.codec &&
          nextBytes bytes (f.jsonBytes doubleText) true ≤ 20 * 1024 * 1024 then ([f], [])
      else (frames, events)
    else selectItems doubleText items (frames ++ [f]) events
      (nextBytes bytes (f.jsonBytes doubleText) frames.isEmpty)
  | .event e :: items, frames, events, bytes =>
    if maxBatchEvents ≤ events.length then (frames, events)
    else if maxBatchBytes < nextBytes bytes (e.jsonBytes doubleText) events.isEmpty then (frames, events)
    else selectItems doubleText items frames (events ++ [e])
      (nextBytes bytes (e.jsonBytes doubleText) events.isEmpty)

/-- The pending items up to a number, in the order of their numbers. -/
def Evidence.itemsUpTo (v : Evidence) (upperSeq : ℕ) : List Item :=
  mergeItems (v.pendingFrames.takeWhile (·.seq ≤ upperSeq))
    (v.pendingEvents.takeWhile (·.seq ≤ upperSeq))

/-- The batch that `_flushInternal` makes of the queue. -/
def Evidence.liveBatch (u : Setup) (v : Evidence) (upperSeq : ℕ) : Batch :=
  let selected := selectItems u.doubleText (v.itemsUpTo upperSeq) [] []
    ((u.batch [] []).envelopeBytes u.doubleText)
  u.batch selected.1 selected.2

namespace Recorder

variable (u : Setup) (s : Recorder)

variable (c : Cycle)

/-- `_flushInternal` returns. -/
def returnHealth (r : Recorder × Bool) : Recorder :=
  { r.1 with flush := .returned c (.health r.2) }

/-- The server has not been heard of for so long that an empty batch keeps the lease alive. -/
def needsLeaseKeepalive (now : ℤ) : Bool :=
  match s.lastAckAt with
  | some t => 10000000 ≤ now - t
  | none => !u.config.requireFirstFrame && 10000000 ≤ now - s.startedAt

/-- `_flushInternal` from the selection of the batch to `sendBatch`. -/
def sendLive : Recorder :=
  let b := s.liveBatch u c.upperSeq
  if b.frames.isEmpty && b.events.isEmpty && !s.needsLeaseKeepalive u c.now then
    returnHealth c (s.checkLeaseAndLag u c.now)
  else
    { s with
      flush := .sending c b s.elapsed
      log := s.log ++ [.sent true b s.spool.dir.batches] }

/-- `_flushInternal` comes to the queue. -/
def selectLive : Recorder := ({ s with flush := .selecting c } : Recorder).sendLive u c

/-- The ingest address must be a secure one, and is not. -/
def insecureIngest : Bool :=
  u.config.ingestUrl ≠ "" && (u.config.mandatory || u.config.requireFirstFrame) &&
    !u.isSecureIngestUri u.config.ingestUrl

/-- `_flushInternal` up to its first wait. -/
def flushInternal : Recorder :=
  if insecureIngest u then returnHealth c (s.triggerMandatoryStop u .insecureIngest, false)
  else if u.spool && s.spool.hasPendingChunks then { s with flush := .listing c }
  else s.selectLive u c

/-- `getPendingBatches` returns. -/
def chunksListed (seen : List String) : Recorder :=
  match s.spool.firstPending seen with
  | some name => { s with flush := .reading c name }
  | none => s.selectLive u c

/-- `readBatch` returns. -/
def chunkRead (name : String) (ok : Bool) : Recorder :=
  match s.spool.readBatch name ok with
  | some b =>
    { s with
      flush := .sendingChunk c name b
      log := s.log ++ [.sent false b s.spool.dir.batches] }
  | none => { s with flush := .removing c name none }

variable (ack : BatchAck)

/-- The lease after the ACK of a chunk. -/
def chunkLease : Option ℤ :=
  match ack.leaseTtlMs with
  | some ms =>
    if 0 < ms then some (ms * 1000)
    else if s.clock < ack.leaseExpiresAt then some (ack.leaseExpiresAt - s.clock)
    else s.leaseTtl
  | none =>
    if s.clock < ack.leaseExpiresAt then some (ack.leaseExpiresAt - s.clock) else s.leaseTtl

/-- What the ACK of a chunk changes besides the spool. -/
def noteChunkAck : Recorder :=
  { s with
    lastAckAt := some s.clock
    leaseTtl := s.chunkLease ack
    leaseStartedAt := some s.elapsed
    ackedSeq := max s.ackedSeq ack.ackHighWatermarkSeq
    firstFrameAcked := true }

/-- `sendBatch` returns or throws, with a chunk. -/
def chunkAnswered (name : String) (b : Batch) : Except SendError BatchAck → Recorder
  | .error _ => returnHealth c (s.checkLeaseAndLag u c.now)
  | .ok ack =>
    if 0 < ack.ackHighWatermarkSeq then
      { s with flush := .removing c name (some (b, ack)), log := s.log ++ [.acked b ack] }
    else (({ s with log := s.log ++ [.acked b ack] } : Recorder).noteChunkAck ack).selectLive u c

/-- `removeBatch` returns. -/
def chunkRemoved (name : String) (answer : Option (Batch × BatchAck)) (ok : Bool) : Recorder :=
  match answer with
  | some (_, ack) =>
    (({ s with spool := s.spool.removeBatch name ok } : Recorder).noteChunkAck ack).selectLive u c
  | none => ({ s with spool := s.spool.removeBatch name ok } : Recorder).selectLive u c

/-- What the ACK of a batch of the queue does to the lease. -/
inductive LeaseOutcome
  | granted (ttl : ℤ)
  | expired
  /-- The ACK lacks `lease_ttl_ms`, which is required. -/
  | missing

/-- The lease by the ACK of a batch of the queue, after a round trip of so many microseconds. -/
def liveLease (rtt : ℕ) : LeaseOutcome :=
  match ack.leaseTtlMs with
  | some ms =>
    if ms ≤ 0 then .expired
    else if ms - (rtt / 1000 : ℕ) ≤ 0 then .expired
    else .granted ((ms - (rtt / 1000 : ℕ)) * 1000)
  | none =>
    if u.config.mandatory && u.config.contractVersion ≠ "v1" then .missing
    else .granted (max 0 (ack.leaseExpiresAt - s.clock))

/-- What the ACK of a batch of the queue says of the watermark and of the first frame. -/
def noteLiveAck : Recorder :=
  { s with
    ackedSeq := max s.ackedSeq ack.ackHighWatermarkSeq
    firstFrameAcked := s.firstFrameAcked || ack.firstFrameAcked
    lastAckAt := some s.clock }

/-- An item was in a batch and is acknowledged. -/
def settles (seqs : List ℕ) (ackedSeq : ℤ) (seq : ℕ) : Bool := seqs.contains seq && seq ≤ ackedSeq

variable (b : Batch)

/-- The acknowledged items of a batch leave the queue. -/
def removeAcked : Recorder :=
  { s with
    pendingFrames := s.pendingFrames.filter fun f => !settles (b.frames.map (·.seq)) s.ackedSeq f.seq
    pendingEvents := s.pendingEvents.filter fun e => !settles (b.events.map (·.seq)) s.ackedSeq e.seq }

/-- The gap marker is pending no more. -/
def forgetMarker : Recorder :=
  match s.gapMarker with
  | some m =>
    if s.pendingEvents.any (·.seq = m.seq) then s
    else { s with gapMarker := none, gapMarkerFrozen := false }
  | none => s

def recalculateQueuedBytes : Recorder :=
  { s with queuedBytes := pendingBytes u s.pendingFrames s.pendingEvents }

/-- The queue after an ACK with a granted lease. -/
def settleAcked (ack : BatchAck) : Recorder :=
  ((if 0 < ack.ackHighWatermarkSeq then s.removeAcked b else s).forgetMarker.recalculateQueuedBytes
    u).materializeLossMarker u

/-- The end of `_flushInternal` after an ACK: the first frame may be overdue. -/
def checkFirstFrame (now : ℤ) : Recorder × Bool :=
  if (u.config.requireFirstFrame || u.config.mandatory) && !s.firstFrameAcked &&
      !s.inDesktopGrace now && maxAckLag u ≤ now - s.startedAt then
    (s.triggerMandatoryStop u .firstFrameUnavailable, false)
  else (s, true)

/-- `_flushInternal` from an ACK to its end. -/
def liveAcked (sentAt : ℕ) (ack : BatchAck) : Recorder :=
  if 0 < ack.ackHighWatermarkSeq ∧ ack.ackHighWatermarkSeq < s.ackedSeq then
    { s with flush := .returned c .threw }
  else
    match s.liveLease u ack (s.elapsed - sentAt) with
    | .expired =>
      returnHealth c (({ s.noteLiveAck ack with leaseTtl := some 0 } : Recorder).triggerMandatoryStop u
        .leaseExpired, false)
    | .missing => { s.noteLiveAck ack with flush := .returned c .threw }
    | .granted ttl =>
      returnHealth c ((({ s.noteLiveAck ack with
        leaseTtl := some ttl
        leaseStartedAt := some s.elapsed } : Recorder).settleAcked u b ack).checkFirstFrame u c.now)

/-- `sendBatch` returns or throws, with a batch of the queue. -/
def liveAnswered (sentAt : ℕ) : Except SendError BatchAck → Recorder
  | .ok ack => ({ s with log := s.log ++ [.acked b ack] } : Recorder).liveAcked u c b sentAt ack
  | .error (.format true) => returnHealth c (s.triggerMandatoryStop u .insecureIngest, false)
  | .error (.format false) => { s with flush := .returned c .threw }
  | .error .other => returnHealth c (s.checkLeaseAndLag u c.now)

def snapshotCount (upperSeq : ℕ) : ℕ :=
  (s.pendingFrames.filter (·.seq ≤ upperSeq)).length +
    (s.pendingEvents.filter (·.seq ≤ upperSeq)).length

/-- The time that `stop` has is over. -/
def stopTimeOver : Bool :=
  match s.stopStartedAt with
  | some t => u.stopFlushTimeout ≤ s.elapsed - t
  | none => false

/-- The head of the loop of `_flushCycle`. -/
def nextRound (upperSeq round : ℕ) : Recorder :=
  if maxFlushBatches ≤ round then { s with flush := .settled (.health true) }
  else if s.stopTimeOver u then { s with flush := .settled (.health false) }
  else s.flushInternal u { upperSeq, round, before := s.snapshotCount upperSeq, now := s.clock }

/-- The cycle's snapshot is taken: its gap marker changes no more. -/
def freezeMarker : Recorder := { s with gapMarkerFrozen := s.gapMarkerFrozen || s.gapMarker.isSome }

/-- `_flushCycle` once no spill is active. -/
def beginCycle : Recorder :=
  let t := (s.materializeLossMarker u).freezeMarker
  t.nextRound u t.nextSeq 0

/-- `_serializedFlush`: joins the active cycle, or begins one. -/
def serializedFlush : Recorder :=
  match s.flush with
  | .idle => if s.spill.active then { s with flush := .awaitSpill } else s.beginCycle u
  | _ => s

def flushAndVerifyHealth : Recorder :=
  if !u.config.enabled || s.stopped then s else s.serializedFlush u

/-- A round that made no progress. -/
def noteNoProgress : Recorder :=
  match s.noProgressSince with
  | some _ => s
  | none => { s with noProgressSince := some s.clock }

/-- `_flushCycle` returns. -/
def settleHealth (r : Recorder × Bool) : Recorder := { r.1 with flush := .settled (.health r.2) }

/-- The foot of the loop of `_flushCycle`, after a healthy round. -/
def roundDone : Recorder :=
  let after := s.snapshotCount c.upperSeq
  let t := if after < c.before then { s with noProgressSince := none } else s
  if !(u.spool && s.spool.hasPendingChunks) && (c.before = 0 || after = 0 || c.before ≤ after) then
    if 0 < c.before && c.before ≤ after then
      settleHealth (t.noteNoProgress.checkLeaseAndLag u t.clock)
    else settleHealth (t, true)
  else t.nextRound u c.upperSeq (c.round + 1)

/-- `_flushCycle` after a round. -/
def flushContinued : FlushResult → Recorder
  | .threw => { s with flush := .settled .threw }
  | .health false => { s with flush := .settled (.health false) }
  | .health true => s.roundDone u c

end Recorder

end LigamentApps.LinkHostRecorder
