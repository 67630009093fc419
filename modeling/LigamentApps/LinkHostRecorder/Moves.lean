import Mathlib.Logic.Relation
import LigamentApps.LinkHostRecorder.Step

/-!
# How evidence moves

A step of the recorder, as far as evidence is concerned, is what its action decides (`Head`) and then
some moves that follow from it (`Calm`): items are accepted or refused, a gap marker is made or merged,
the spill takes a chunk, a batch is sent. `step_moves` says so of every step. The properties of the
recorder are proved over these moves, so that what a function of the recorder does is read off it
once. -/

namespace LigamentApps.LinkHostRecorder

open LinkHost

namespace Evidence

/-- A frame joins the queue. -/
def acceptFrame (v : Evidence) (f : Frame) : Evidence :=
  { v with
    nextSeq := v.nextSeq + 1
    pendingFrames := v.pendingFrames ++ [f]
    log := v.log ++ [.accepted (.frame f)] }

/-- An event joins the queue. -/
def acceptEvent (v : Evidence) (e : Event) : Evidence :=
  { v with
    nextSeq := v.nextSeq + 1
    pendingEvents := v.pendingEvents ++ [e]
    log := v.log ++ [.accepted (.event e)] }

def refuse (v : Evidence) (isFrame : Bool) : Evidence :=
  if isFrame then { v with droppedFrames := addLoss v.droppedFrames 1, log := v.log ++ [.refused true] }
  else { v with droppedEvents := addLoss v.droppedEvents 1, log := v.log ++ [.refused false] }

/-- A new gap marker, with its frame. -/
def markLoss (v : Evidence) (f : Frame) (m : Event) : Evidence :=
  { v with
    nextSeq := v.nextSeq + 2
    pendingFrames := v.pendingFrames ++ [f]
    gapMarker := some m
    gapMarkerFrozen := false
    pendingEvents := v.pendingEvents ++ [m]
    droppedFrames := 0
    droppedEvents := 0
    log := v.log ++ [.accepted (.frame f), .accepted (.event m), .marker m] }

/-- Later loss, merged into the gap marker. -/
def mergeLoss (v : Evidence) (m : Event) : Evidence :=
  { v with
    pendingEvents := v.pendingEvents.map (setMetadata m)
    spill := v.spill.setMetadata m
    gapMarker := some m
    droppedFrames := 0
    droppedEvents := 0
    log := v.log ++ [.marker m] }

/-- The chunk that a spill takes from the queue. -/
def chunk (u : Setup) (v : Evidence) : Batch :=
  u.batch (v.pendingFrames.take maxBatchFrames) (v.pendingEvents.take maxBatchEvents)

def takeChunk (u : Setup) (v : Evidence) : Evidence :=
  { v with
    pendingFrames := v.pendingFrames.drop maxBatchFrames
    pendingEvents := v.pendingEvents.drop maxBatchEvents
    spoolBatchIndex := v.spoolBatchIndex + 1
    spill := .ensuring (v.spoolBatchIndex + 1) (v.chunk u) }

/-- The acknowledged items of a batch leave the queue. -/
def removeAcked (v : Evidence) (b : Batch) (ackedSeq : ℤ) : Evidence :=
  { v with
    pendingFrames :=
      v.pendingFrames.filter fun f => !Recorder.settles (b.frames.map (·.seq)) ackedSeq f.seq
    pendingEvents :=
      v.pendingEvents.filter fun e => !Recorder.settles (b.events.map (·.seq)) ackedSeq e.seq }

/-- A chunk is known to be on disk. -/
def knowsChunks (u : Setup) (v : Evidence) : Bool := u.spool && v.spool.hasPendingChunks

section Queue

variable {v w : Evidence} {i : Item}

@[simp] theorem mem_queue_acceptFrame {f : Frame} : i ∈ (v.acceptFrame f).queue ↔ i ∈ v.queue ∨ i = .frame f := by
  cases i <;> simp [acceptFrame]

@[simp] theorem mem_queue_acceptEvent {e : Event} : i ∈ (v.acceptEvent e).queue ↔ i ∈ v.queue ∨ i = .event e := by
  cases i <;> simp [acceptEvent]

@[simp] theorem mem_queue_markLoss {f : Frame} {m : Event} :
    i ∈ (v.markLoss f m).queue ↔ i ∈ v.queue ∨ i = .frame f ∨ i = .event m := by
  cases i <;> simp [markLoss]

theorem queue_subset (hframes : w.pendingFrames ⊆ v.pendingFrames)
    (hevents : w.pendingEvents ⊆ v.pendingEvents) : w.queue ⊆ v.queue := by
  intro i hi
  cases i with
  | frame => exact frame_mem_queue.mpr (hframes (frame_mem_queue.mp hi))
  | event => exact event_mem_queue.mpr (hevents (event_mem_queue.mp hi))

theorem queue_takeChunk_subset (u : Setup) (v : Evidence) : (v.takeChunk u).queue ⊆ v.queue :=
  queue_subset (List.drop_subset ..) (List.drop_subset ..)

theorem items_chunk_subset (u : Setup) (v : Evidence) : (v.chunk u).items ⊆ v.queue := by
  intro i hi
  cases i with
  | frame => exact frame_mem_queue.mpr (List.mem_of_mem_take (Batch.frame_mem_items.mp hi))
  | event => exact event_mem_queue.mpr (List.mem_of_mem_take (Batch.event_mem_items.mp hi))

theorem mem_chunk_or_takeChunk (u : Setup) (hi : i ∈ v.queue) :
    i ∈ (v.chunk u).items ∨ i ∈ (v.takeChunk u).queue := by
  cases i with
  | frame =>
    have hf := frame_mem_queue.mp hi
    rw [← List.take_append_drop maxBatchFrames v.pendingFrames] at hf
    rcases List.mem_append.mp hf with h | h
    · exact .inl (Batch.frame_mem_items.mpr h)
    · exact .inr (frame_mem_queue.mpr h)
  | event =>
    have he := event_mem_queue.mp hi
    rw [← List.take_append_drop maxBatchEvents v.pendingEvents] at he
    rcases List.mem_append.mp he with h | h
    · exact .inl (Batch.event_mem_items.mpr h)
    · exact .inr (event_mem_queue.mpr h)

end Queue

end Evidence

def FlushPhase.betweenRounds : FlushPhase → Bool
  | .idle | .awaitSpill | .returned _ _ => true
  | _ => false

/-- The round that can end. -/
def FlushPhase.canReturn : FlushPhase → Option Cycle
  | .selecting c | .sending c _ _ | .sendingChunk c _ _ => some c
  | _ => none

/-- A gap marker that counts the losses of the counters. -/
structure MarksLoss (v : Evidence) (f : Frame) (m : Event) : Prop where
  frame_seq : f.seq = v.nextSeq + 1
  marker_seq : m.seq = v.nextSeq + 2
  isGapMarker : m.isGapMarker = true
  metadata : m.metadata = lossMetadata (addLoss v.droppedFrames 0) (addLoss v.droppedEvents 0)

/-- `stop` may report the tail flushed: nothing is pending, and no chunk is known. -/
structure TailFlushed (u : Setup) (v : Evidence) : Prop where
  queueEmpty : v.queueEmpty = true
  noFramesLost : v.droppedFrames = 0
  noEventsLost : v.droppedEvents = 0
  noChunks : v.knowsChunks u = false

/-- A round begins: with the chunks where one is known, and otherwise with the queue. -/
inductive Turn (u : Setup) (v : Evidence) (c : Cycle) : Evidence → Prop
  | listing : v.knowsChunks u = true → Turn u v c { v with flush := .listing c }
  | selecting : v.knowsChunks u = false → Turn u v c { v with flush := .selecting c }

/-- What may follow in any step; `drops` is whether the step may refuse anything, and `beside` whether it
may send a batch of the queue beside a chunk that the spill holds. -/
inductive Calm (u : Setup) (drops beside : Prop) (v : Evidence) : Evidence → Prop
  | acceptFrame (f : Frame) : f.seq = v.nextSeq + 1 → Calm u drops beside v (v.acceptFrame f)
  | acceptEvent (e : Event) : e.seq = v.nextSeq + 1 → e.isGapMarker = false →
      Calm u drops beside v (v.acceptEvent e)
  | refuse (isFrame : Bool) : drops → Calm u drops beside v (v.refuse isFrame)
  | mark (f : Frame) (m : Event) : v.gapMarker = none → MarksLoss v f m →
      Calm u drops beside v (v.markLoss f m)
  | merge (previous : Event) : v.gapMarker = some previous → v.gapMarkerFrozen = false →
      Calm u drops beside v (v.mergeLoss (v.mergedMarker previous))
  | freeze : Calm u drops beside v { v with gapMarkerFrozen := v.gapMarkerFrozen || v.gapMarker.isSome }
  | forget (m : Event) : v.gapMarker = some m → (∀ e ∈ v.pendingEvents, e.seq ≠ m.seq) →
      Calm u drops beside v { v with gapMarker := none, gapMarkerFrozen := false }
  | take : v.spill = .idle → v.queueEmpty = false →
      (u.spool = true ∧ u.config.isStrict = false) ∨ v.spool.hasPendingChunks = true →
      Calm u drops beside v (v.takeChunk u)
  | spillNothing : v.spill = .idle → Calm u drops beside v { v with spill := .settled }
  | violation (reason : Violation) : Calm u drops beside v (v.report (.violation reason))
  | stopReturned (result : Bool) : (result = true → u.config.enabled = true → TailFlushed u v) →
      Calm u drops beside v (v.report (.stopReturned result))
  | awaitSpill : v.flush = .idle → Calm u drops beside v { v with flush := .awaitSpill }
  | round {w : Evidence} (c : Cycle) : v.flush = .idle ∨ v.flush = .awaitSpill → v.spill = .idle →
      c.upperSeq = v.nextSeq → (v.gapMarker.isSome = true → v.gapMarkerFrozen = true) →
      Turn u v c w → Calm u drops beside v w
  | insecure (c : Cycle) : v.flush.betweenRounds = true →
      Calm u drops beside v { v with flush := .returned c (.health false) }
  | settle (result : FlushResult) : v.flush.betweenRounds = true →
      Calm u drops beside v { v with flush := .settled result }
  | send (c : Cycle) (sentAt : ℕ) : v.flush = .selecting c → v.spill.batch = none ∨ beside →
      Calm u drops beside v
        { v with
          flush := .sending c (v.liveBatch u c.upperSeq) sentAt
          log := v.log ++ [.sent true (v.liveBatch u c.upperSeq) v.spool.dir.batches] }
  | returned (c : Cycle) (result : FlushResult) : v.flush.canReturn = some c →
      Calm u drops beside v { v with flush := .returned c result }

def SpillFails (u : Setup) (s : Recorder) : Action → Prop
  | .spillEnsured ok _ => ok = false
  | .spillChecked free => ∃ index b, s.spill = .checking index b ∧
      s.spool.refusesWrite u.maxSpoolBytes u.minFreeDiskBytes free
        (LinkSpoolStorage.sealedLength u.doubleText b) = true
  | .spillWritten ok => ok = false
  | _ => False

/-- What an action decides. -/
inductive Head (u : Setup) (s : Recorder) : Action → Evidence → Prop
  | none (a : Action) : Head u s a s.toEvidence
  | spillEnsured {index : ℕ} {b : Batch} (seen : List String) : s.spill = .ensuring index b →
      Head u s (.spillEnsured true seen)
        { s.toEvidence with spool := s.spool.ensureInitialized seen, spill := .checking index b }
  | spillChecked {index : ℕ} {b : Batch} (free : Option ℕ) : s.spill = .checking index b →
      Head u s (.spillChecked free) { s.toEvidence with spill := .writing index b }
  | spillWritten {index : ℕ} {b : Batch} : s.spill = .writing index b →
      Head u s (.spillWritten true)
        { s.toEvidence with
          spool := s.spool.write index b (LinkSpoolStorage.sealedLength u.doubleText b)
          spill := .idle
          log := s.log ++ [.spooled b] }
  | spillFailed {a : Action} {b : Batch} : s.spill.batch = some b → SpillFails u s a →
      Head u s a { s.toEvidence with spill := .idle }
  | spillSettled : s.spill = .settled → Head u s .spillSettled { s.toEvidence with spill := .idle }
  | chunkListed {c : Cycle} {seen : List String} {name : String} : s.flush = .listing c →
      s.spool.firstPending seen = some name →
      Head u s (.chunksListed seen) { s.toEvidence with flush := .reading c name }
  | nothingListed {c : Cycle} {seen : List String} : s.flush = .listing c →
      s.spool.firstPending seen = .none →
      Head u s (.chunksListed seen) { s.toEvidence with flush := .selecting c }
  | chunkRead {c : Cycle} {name : String} {ok : Bool} {b : Batch} : s.flush = .reading c name →
      s.spool.readBatch name ok = some b →
      Head u s (.chunkRead ok)
        { s.toEvidence with
          flush := .sendingChunk c name b
          log := s.log ++ [.sent false b s.spool.dir.batches] }
  | chunkUnreadable {c : Cycle} {name : String} {ok : Bool} : s.flush = .reading c name →
      s.spool.readBatch name ok = .none →
      Head u s (.chunkRead ok) { s.toEvidence with flush := .removing c name .none }
  | chunkAcked {c : Cycle} {name : String} {b : Batch} (ack : BatchAck) :
      s.flush = .sendingChunk c name b → 0 < ack.ackHighWatermarkSeq →
      Head u s (.chunkAnswered (.ok ack))
        { s.toEvidence with
          flush := .removing c name (some (b, ack))
          log := s.log ++ [.acked b ack] }
  | chunkUnacked {c : Cycle} {name : String} {b : Batch} (ack : BatchAck) :
      s.flush = .sendingChunk c name b → ack.ackHighWatermarkSeq ≤ 0 →
      Head u s (.chunkAnswered (.ok ack))
        { s.toEvidence with
          flush := .selecting c
          log := s.log ++ [.acked b ack]
          firstFrameAcked := true }
  | chunkRemoved {c : Cycle} {name : String} {answer : Option (Batch × BatchAck)} (ok : Bool) :
      s.flush = .removing c name answer →
      Head u s (.chunkRemoved ok)
        { s.toEvidence with
          flush := .selecting c
          spool := s.spool.removeBatch name ok
          firstFrameAcked := s.firstFrameAcked || answer.isSome }
  | liveUnsettled {c : Cycle} {b : Batch} {sentAt : ℕ} (ack : BatchAck) (first : Bool) :
      s.flush = .sending c b sentAt → (first = true → s.firstFrameAcked = true ∨ ack.firstFrameAcked = true) →
      Head u s (.liveAnswered (.ok ack))
        { s.toEvidence.report (.acked b ack) with firstFrameAcked := first }
  | liveSettled {c : Cycle} {b : Batch} {sentAt : ℕ} (ack : BatchAck) :
      s.flush = .sending c b sentAt → 0 < ack.ackHighWatermarkSeq →
      Head u s (.liveAnswered (.ok ack))
        ({ s.toEvidence.report (.acked b ack) with
          firstFrameAcked := s.firstFrameAcked || ack.firstFrameAcked }.removeAcked b
          ack.ackHighWatermarkSeq)
  | flushContinued {c c' : Cycle} {w : Evidence} : s.flush = .returned c (.health true) →
      c'.upperSeq = c.upperSeq → Turn u s.toEvidence c' w → Head u s .flushContinued w
  | flushSettled {result : FlushResult} : s.flush = .settled result →
      Head u s .flushSettled { s.toEvidence with flush := .idle }

/-- Any number of calm moves. -/
def Calmly (u : Setup) (drops beside : Prop) : Evidence → Evidence → Prop :=
  Relation.ReflTransGen (Calm u drops beside)

theorem Calmly.congr {u : Setup} {drops beside : Prop} {v v' w : Evidence} (h : Calmly u drops beside v w)
    (hv : v = v') : Calmly u drops beside v' w := hv ▸ h

end LigamentApps.LinkHostRecorder
