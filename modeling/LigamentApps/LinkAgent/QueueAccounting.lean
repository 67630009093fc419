import LigamentApps.LinkAgent.NothingLost

/-!
# The charges of the agent's queue

`queuedBytes` against what the pending items were charged when they were enqueued. `EnqueueFrame` charges a
frame for its payload, its window title and its process name with 128 bytes more, and `EnqueueEvent` charges
256 bytes. `Flush` has a formula of its own: it takes the size of the batch off, which counts 128 bytes for
the batch itself and neither titles nor process names. -/

namespace LigamentApps.LinkAgent

open List

/-- What an item is charged when it is enqueued. -/
def RecordedItem.charge : RecordedItem → ℤ
  | .frame f => Recording.queueBytes f
  | .event _ => 256

def charges (items : List RecordedItem) : ℤ := (items.map RecordedItem.charge).sum

/-- The bytes that a frame is charged for and `Flush` does not take off. -/
def RecordedFrame.captionBytes (f : RecordedFrame) : ℤ :=
  (f.windowTitle.utf8ByteSize + f.processName.utf8ByteSize : ℕ)

def captionBytes (frames : List RecordedFrame) : ℤ := (frames.map (·.captionBytes)).sum

section Charges

variable {items : List RecordedItem}

theorem charge_pos (i : RecordedItem) : 0 < i.charge := by
  cases i with
  | frame =>
    show (0 : ℤ) < (_ + 128 : ℕ)
    omega
  | event =>
    show (0 : ℤ) < 256
    omega

@[simp] theorem charges_nil : charges [] = 0 := rfl

@[simp] theorem charges_append (items' : List RecordedItem) :
    charges (items ++ items') = charges items + charges items' := by
  unfold charges
  rw [map_append, sum_append]

theorem charges_cons (i : RecordedItem) : charges (i :: items) = i.charge + charges items := sum_cons

theorem charges_nonneg (items : List RecordedItem) : 0 ≤ charges items := by
  induction items with
  | nil => exact le_refl 0
  | cons i =>
    have hfirst := charge_pos i
    rw [charges_cons]
    omega

theorem charges_eq_zero (items : List RecordedItem) : charges items = 0 ↔ items = [] := by
  refine ⟨fun h => ?_, fun h => h ▸ charges_nil⟩
  cases items with
  | nil => rfl
  | cons i items =>
    have hfirst := charge_pos i
    have hrest := charges_nonneg items
    rw [charges_cons] at h
    omega

theorem charges_frames (frames : List RecordedFrame) : charges (frames.map .frame) =
      (frames.map fun f => ((f.payloadBase64.utf8ByteSize + 128 : ℕ) : ℤ)).sum + captionBytes frames := by
  induction frames with
  | nil => rfl
  | cons f frames ih =>
    have hfirst : (RecordedItem.frame f).charge = (f.payloadBase64.utf8ByteSize + 128 : ℕ) + f.captionBytes := by
      unfold RecordedFrame.captionBytes
      show ((f.payloadBase64.utf8ByteSize + f.windowTitle.utf8ByteSize + f.processName.utf8ByteSize + 128 : ℕ) : ℤ) = _
      omega
    have hcaptions : captionBytes (f :: frames) = f.captionBytes + captionBytes frames := sum_cons
    rw [map_cons, charges_cons, map_cons, sum_cons, hfirst, ih, hcaptions]
    omega

theorem charges_events (events : List RecordedEvent) :
    charges (events.map .event) = (events.map fun _ => (256 : ℤ)).sum := by
  unfold charges
  rw [map_map]
  rfl

end Charges

theorem Recording.fitting_size {α : Type} (size : α → ℤ) (maxBytes : ℤ) (isFirst : Bool) (bytes : ℤ) (xs : List α) :
    (fitting size maxBytes isFirst bytes xs).2 =
      bytes + ((fitting size maxBytes isFirst bytes xs).1.map size).sum := by
  induction xs generalizing isFirst bytes with
  | nil => exact (add_zero bytes).symm
  | cons _ _ ih =>
    unfold fitting
    split
    · exact (add_zero bytes).symm
    · rw [ih, map_cons, sum_cons, add_assoc]

namespace Recording

/-- `queuedBytes` is what the pending items were charged, and zero exactly when nothing is pending. -/
structure ExactQueue (s : Recording) : Prop where
  total : s.client.queuedBytes = charges s.pending
  empty : s.client.queuedBytes = 0 ↔ s.pending = []

/-- The queue and its counter are the same. -/
structure SameQueue (s t : Recording) : Prop where
  pending : t.pending = s.pending
  queuedBytes : t.client.queuedBytes = s.client.queuedBytes

/-- `Flush` takes off what its items were charged: the titles and process names of the frames in its batch
make up for the 128 bytes of the batch itself, or nothing stays pending and they come to less, so that the
counter is cut off at zero. -/
def Discharges (s : Recording) : Prop :=
  s.pending = [] ∨ captionBytes s.nextFrames.1 = 128 ∨ s.popped.pending = [] ∧ captionBytes s.nextFrames.1 ≤ 128

/-- The condition of a call. -/
def SettlesCharges (s : Recording) : ClientCall → Prop
  | .flush _ => s.Discharges
  | .complete _ => s.Discharges
  | _ => True

variable {s t : Recording}

theorem exactQueue_iff : s.ExactQueue ↔ s.client.queuedBytes = charges s.pending := by
  refine ⟨ExactQueue.total, fun h => ⟨h, ?_⟩⟩
  rw [h]
  exact charges_eq_zero _

theorem SameQueue.refl (s : Recording) : SameQueue s s := ⟨rfl, rfl⟩

theorem SameQueue.trans {r : Recording} (h : SameQueue s t) (h' : SameQueue t r) : SameQueue s r :=
  ⟨h'.pending.trans h.pending, h'.queuedBytes.trans h.queuedBytes⟩

theorem SameQueue.exactQueue_iff (h : SameQueue s t) : t.ExactQueue ↔ s.ExactQueue := by
  rw [Recording.exactQueue_iff, Recording.exactQueue_iff, h.pending, h.queuedBytes]

/-! ## What each call does to the queue -/

theorem sameQueue_drainSpool (o : DrainOutcomes) : SameQueue s (s.drainSpool o).1 :=
  drainSpool_invariant (SameQueue s) o (fun _ _ _ _ _ h => ⟨h.pending, h.queuedBytes⟩) (.refl s)

variable (o : FlushOutcomes)

theorem sameQueue_flushEmpty : SameQueue s (s.flushEmpty o).1 := by
  have hdrain : SameQueue s (s.drainSpool o.drain).1 := sameQueue_drainSpool o.drain
  unfold flushEmpty
  dsimp only
  split
  · exact hdrain
  · split
    · exact ⟨hdrain.pending, hdrain.queuedBytes⟩
    · exact hdrain

theorem sameQueue_sendBatch (b : IngestBatch) : SameQueue s (s.sendBatch o b).1 := by
  unfold sendBatch
  split
  · split
    · rename_i ack _
      have hanswered : SameQueue s ((({ s with client.lastAckAt := some o.now } : Recording).noteAck ack).answer b) :=
        ⟨rfl, rfl⟩
      exact hanswered.trans (sameQueue_drainSpool o.drain)
    · unfold fallBack
      split <;> exact ⟨rfl, rfl⟩
  · exact .refl s

theorem sameQueue_flush : SameQueue (if s.pending = [] then s else s.popped) (s.flush o).1 := by
  split
  · rename_i hempty
    rw [flush_of_empty hempty]
    exact sameQueue_flushEmpty o
  · rename_i hpending
    rw [flush_of_pending hpending]
    exact sameQueue_sendBatch o s.nextBatch

theorem sameQueue_complete (o : CompleteOutcomes) :
    SameQueue (({ s with client.closed := true } : Recording).flush o.flush).1 (s.complete o) := by
  have huploads : SameQueue (({ s with client.closed := true } : Recording).flush o.flush).1 (s.lastUploads o) :=
    sameQueue_drainSpool o.drain
  unfold complete
  split
  · split
    · exact ⟨huploads.pending, huploads.queuedBytes⟩
    · exact huploads
  · exact huploads

theorem ExactQueue.enqueueFrame (h : s.ExactQueue) (f : RecordedFrame) (now : String) :
    (s.enqueueFrame f now).1.ExactQueue := by
  unfold Recording.enqueueFrame
  split
  · exact h
  · split
    · exact exactQueue_iff.mpr h.total
    · have hpending : charges (itemsOf (s.client.pendingFrames ++ [s.completed f now]) s.client.pendingEvents) =
          charges s.pending + queueBytes f := by
        have hcharge : charges [.frame (s.completed f now)] = queueBytes f := add_zero _
        unfold pending itemsOf
        rw [map_append, map_singleton, charges_append, charges_append, charges_append, hcharge]
        omega
      refine exactQueue_iff.mpr ?_
      show s.client.queuedBytes + queueBytes f = charges (itemsOf _ _)
      rw [hpending, h.total]

theorem ExactQueue.enqueueEvent (h : s.ExactQueue) (e : RecordedEvent) (now : String) :
    (s.enqueueEvent e now).ExactQueue := by
  unfold Recording.enqueueEvent
  split
  · exact h
  · have hpending : charges (itemsOf s.client.pendingFrames (s.client.pendingEvents ++ [s.completedEvent e now])) =
        charges s.pending + 256 := by
      have hcharge : charges [.event (s.completedEvent e now)] = 256 := rfl
      unfold pending itemsOf
      rw [map_append, map_singleton, charges_append, charges_append, charges_append, hcharge]
      omega
    refine exactQueue_iff.mpr ?_
    show s.client.queuedBytes + 256 = charges (itemsOf _ _)
    rw [hpending, h.total]

/-! ## `Flush` -/

theorem charges_nextBatch : charges s.nextBatch.items + 128 = s.nextEvents.2 + captionBytes s.nextFrames.1 := by
  have hframes : s.nextFrames.2 =
      128 + (s.nextFrames.1.map fun f => ((f.payloadBase64.utf8ByteSize + 128 : ℕ) : ℤ)).sum :=
        fitting_size _ _ _ _ _
  have hevents : s.nextEvents.2 = s.nextFrames.2 + (s.nextEvents.1.map fun _ => (256 : ℤ)).sum :=
    fitting_size _ _ _ _ _
  have hitems : charges s.nextBatch.items = charges (s.nextFrames.1.map .frame) + charges (s.nextEvents.1.map .event) :=
    charges_append _
  rw [hitems, charges_frames, charges_events, hevents, hframes]
  omega

theorem charges_popped : charges s.pending = charges s.nextBatch.items + charges s.popped.pending := by
  have hframes : s.client.pendingFrames = s.nextFrames.1 ++ s.popped.client.pendingFrames :=
    (fitting_append_drop _ _ _ _ _).symm
  have hevents : s.client.pendingEvents = s.nextEvents.1 ++ s.popped.client.pendingEvents :=
    (fitting_append_drop _ _ _ _ _).symm
  have hpending : charges s.pending =
      charges (itemsOf (s.nextFrames.1 ++ s.popped.client.pendingFrames)
        (s.nextEvents.1 ++ s.popped.client.pendingEvents)) := by
    rw [← hframes, ← hevents]
    rfl
  rw [hpending]
  unfold itemsOf nextBatch batch IngestBatch.items pending itemsOf
  simp only [map_append, charges_append]
  omega

theorem ExactQueue.popped_iff (h : s.ExactQueue) : s.popped.ExactQueue ↔
      captionBytes s.nextFrames.1 = 128 ∨ s.popped.pending = [] ∧ captionBytes s.nextFrames.1 ≤ 128 := by
  have hcounter : s.popped.client.queuedBytes = max 0 (s.client.queuedBytes - s.nextEvents.2) := rfl
  have hbatch := charges_nextBatch (s := s)
  have hsplit := charges_popped (s := s)
  have hleft : s.client.queuedBytes - s.nextEvents.2 =
      charges s.popped.pending + captionBytes s.nextFrames.1 - 128 := by
    rw [h.total]
    omega
  have hrest := charges_nonneg s.popped.pending
  rw [exactQueue_iff, hcounter, hleft, ← charges_eq_zero s.popped.pending]
  omega

theorem ExactQueue.flush_iff (h : s.ExactQueue) (o : FlushOutcomes) : (s.flush o).1.ExactQueue ↔ s.Discharges := by
  rw [(sameQueue_flush o).exactQueue_iff]
  split
  · rename_i hempty
    exact ⟨fun _ => .inl hempty, fun _ => h⟩
  · rename_i hpending
    rw [h.popped_iff]
    exact ⟨.inr, fun hdischarges => hdischarges.resolve_left hpending⟩

theorem ExactQueue.call_iff (h : s.ExactQueue) : ∀ c : ClientCall, (s.call c).ExactQueue ↔ s.SettlesCharges c
  | .enqueueFrame f now => ⟨fun _ => trivial, fun _ => h.enqueueFrame f now⟩
  | .enqueueEvent e now => ⟨fun _ => trivial, fun _ => h.enqueueEvent e now⟩
  | .flush o => h.flush_iff o
  | .drainSpool o => ⟨fun _ => trivial, fun _ => (sameQueue_drainSpool o).exactQueue_iff.mpr h⟩
  | .complete o => by
    have hclosed : ({ s with client.closed := true } : Recording).ExactQueue := ⟨h.total, h.empty⟩
    exact (sameQueue_complete o).exactQueue_iff.trans (hclosed.flush_iff o.flush)

end Recording

open Recording in
/-- In every run of a new client the counter is exact after every call if and only if every `Flush`, also the
one of `Complete`, takes off what its items were charged. -/
theorem queue_accounts_iff (cfg : RecorderClientConfig) (startedAt : ℤ) (d : ChunkDir) (calls : List ClientCall) :
    recorderClient.Every (fun s _ c => (s.call c).ExactQueue) { client := { cfg, startedAt }, disk := d } [] calls ↔
      recorderClient.Every (fun s _ c => s.SettlesCharges c) { client := { cfg, startedAt }, disk := d } [] calls := by
  have hstart : ExactQueue { client := { cfg, startedAt }, disk := d } := exactQueue_iff.mpr rfl
  refine Machine.every_iff (fun s _ => s.ExactQueue) ?_ (fun s _ c h => h.call_iff c) calls _ _ hstart
  intro s _ c t _ h hsettles hstep
  have hcall : s.call c = t := (Prod.mk.inj (Option.some.inj hstep)).1
  exact hcall ▸ (h.call_iff c).mpr hsettles

/-- A frame whose window title has 129 bytes is enqueued and sent: the queue is empty, and one byte stays on
the counter. -/
theorem title_stays_charged : ¬ ∀ (s : Recording) (es : List Empty),
      recorderClient.Reach (fun _ _ _ => True) { client := sampleClient } s es → s.ExactQueue := by
  intro hclaim
  let calls : List ClientCall :=
    [.enqueueFrame { sampleRecordedFrame with windowTitle := String.ofList (List.replicate 129 'x') } "",
      .flush (flushWith (.response 200 .other))]
  have hrun : ∃ r ∈ recorderClient.exec (fun _ _ _ => true) { client := sampleClient } [] calls,
      r.1.pending.length = 0 ∧ r.1.client.queuedBytes = 1 := by decide +kernel
  obtain ⟨⟨s, es⟩, hexec, hpending, hbytes⟩ := hrun
  have hexact := hclaim s es (Machine.reach_of_exec (fun _ _ _ _ => trivial) hexec)
  have hzero := hexact.empty.mpr (eq_nil_of_length_eq_zero hpending)
  cases hbytes.symm.trans hzero

end LigamentApps.LinkAgent
