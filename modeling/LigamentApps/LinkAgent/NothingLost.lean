import Mathlib.Algebra.Order.Group.Multiset
import Mathlib.Data.List.Flatten
import LigamentApps.LinkAgent.SpoolLedger
import LigamentApps.Machine.Trace

/-!
# What the recorder client keeps

Between calls every accepted item is pending, in a chunk on disk, or in a batch that the server answered
with a 2xx status; items are counted, so that of two equal ones both are kept. -/

namespace LigamentApps.LinkAgent

open List

variable {o : CompleteOutcomes}

/-! ## Counting items -/

def itemsIn (bs : List IngestBatch) : Multiset RecordedItem := (bs.flatMap IngestBatch.items : List RecordedItem)

def ChunkDir.batches (d : ChunkDir) : List IngestBatch :=
  d.entries.filterMap fun file => file.2.map (·.payload)

@[simp] theorem itemsIn_nil : itemsIn [] = 0 := rfl

@[simp] theorem itemsIn_append (bs bs' : List IngestBatch) : itemsIn (bs ++ bs') = itemsIn bs + itemsIn bs' := by
  unfold itemsIn
  rw [flatMap_append, Multiset.coe_add]

theorem itemsIn_singleton (b : IngestBatch) : itemsIn [b] = (b.items : Multiset RecordedItem) := by
  unfold itemsIn
  rw [flatMap_singleton]

theorem itemsIn_le {bs bs' : List IngestBatch} (h : bs.Subperm bs') : itemsIn bs ≤ itemsIn bs' := by
  obtain ⟨cs, hperm, hsub⟩ := h
  have hsame : itemsIn cs = itemsIn bs := Multiset.coe_eq_coe.mpr (hperm.flatMap_right _)
  rw [← hsame]
  exact Multiset.coe_le.mpr (hsub.flatMap _).subperm

theorem ledger_le_batches {d : ChunkDir} {ledger : List (String × SpooledBatch)}
    (hdisk : ∀ e ∈ ledger, d.lookup e.1 = some (some e.2)) (hdistinct : (ledger.map Prod.fst).Nodup) :
    itemsIn (ledger.map (·.2.payload)) ≤ itemsIn d.batches := by
  let files : List (Sigma fun _ : String => Option SpooledBatch) := ledger.map fun e => ⟨e.1, some e.2⟩
  have hnodup : files.Nodup := by
    refine List.Nodup.of_map Sigma.fst ?_
    rw [map_map]
    exact hdistinct
  have hsubset : files ⊆ d.entries := by
    intro file hfile
    obtain ⟨e, he, rfl⟩ := mem_map.mp hfile
    exact AList.mem_lookup_iff.mp (hdisk e he)
  obtain ⟨files', hperm, hsub⟩ := hnodup.subperm hsubset
  have hpayloads : ledger.map (·.2.payload) = files.filterMap fun file => file.2.map (·.payload) := by
    rw [filterMap_map]
    exact (filterMap_eq_map).symm ▸ rfl
  rw [hpayloads]
  exact itemsIn_le ⟨_, hperm.filterMap _, hsub.filterMap _⟩

theorem ledger_le_filter {ledger : List (String × SpooledBatch)} (hdistinct : (ledger.map Prod.fst).Nodup)
    {name : String} {record : SpooledBatch} (hrecord : ∀ e ∈ ledger, e.1 = name → e.2 = record) :
    itemsIn (ledger.map (·.2.payload)) ≤
      itemsIn ((ledger.filter (·.1 ≠ name)).map (·.2.payload)) + itemsIn [record.payload] := by
  have hnamed : (ledger.filter fun e => !decide (e.1 ≠ name)).Subperm [(name, record)] := by
    have hnodup : (ledger.filter fun e => !decide (e.1 ≠ name)).Nodup :=
      (List.Nodup.of_map _ hdistinct).filter _
    refine hnodup.subperm fun e he => ?_
    obtain ⟨hmem, hname⟩ := mem_filter.mp he
    have hsame : e.1 = name := by simpa using hname
    rw [mem_singleton, Prod.ext_iff]
    exact ⟨hsame, hrecord e hmem hsame⟩
  have hperm := (filter_append_perm (fun e : String × SpooledBatch => decide (e.1 ≠ name)) ledger).map
    (·.2.payload)
  calc itemsIn (ledger.map (·.2.payload))
      = itemsIn ((ledger.filter (·.1 ≠ name) ++ ledger.filter fun e => !decide (e.1 ≠ name)).map (·.2.payload)) :=
        le_antisymm (itemsIn_le hperm.symm.subperm) (itemsIn_le hperm.subperm)
    _ = itemsIn ((ledger.filter (·.1 ≠ name)).map (·.2.payload)) +
          itemsIn ((ledger.filter fun e => !decide (e.1 ≠ name)).map (·.2.payload)) := by
        rw [map_append, itemsIn_append]
    _ ≤ _ := by
        refine add_le_add_right (itemsIn_le ?_) _
        obtain ⟨l, hl, hsub⟩ := hnamed
        exact ⟨l.map (·.2.payload), hl.map _, hsub.map _⟩

/-! ## The account of a client -/

namespace Recording

/-- What the client owes is where it can be found: `hand` are batches that have left the queue and are on
their way to the server or to the spool. -/
structure Kept (hand : List IngestBatch) (s : Recording) : Prop extends Ledger s where
  /-- The chunks are numbered by the client. -/
  numbered : ∀ e ∈ s.unsent, ∃ k ≤ s.client.spoolIndex, e.1 = chunkName k
  balance : (s.accepted : Multiset RecordedItem) ≤
    s.pending + itemsIn hand + itemsIn (s.unsent.map (·.2.payload)) + itemsIn s.answered

/-- Every accepted item is pending, in a chunk on disk or in a batch that the server answered. -/
def NothingLost (s : Recording) : Prop :=
  (s.accepted : Multiset RecordedItem) ≤ s.pending + itemsIn s.disk.batches + itemsIn s.answered

variable {s : Recording} {hand : List IngestBatch}

theorem Kept.nothingLost (h : s.Kept []) : s.NothingLost := by
  have hbalance := h.balance
  rw [itemsIn_nil, add_zero] at hbalance
  have hdisk : itemsIn (s.unsent.map (·.2.payload)) ≤ itemsIn s.disk.batches :=
    ledger_le_batches h.onDisk h.distinct
  exact le_trans hbalance (add_le_add_left (add_le_add_right hdisk _) _)

theorem kept_start (client : RecorderClient) (d : ChunkDir) : Kept [] { client := client, disk := d } where
  toLedger := ledger_start client d
  numbered := fun _ he => absurd he not_mem_nil
  balance := Multiset.zero_le _

theorem Kept.fresh (h : s.Kept hand) : ∀ e ∈ s.unsent, e.1 ≠ chunkName (s.client.spoolIndex + 1) := by
  intro e he hname
  obtain ⟨k, hk, hold⟩ := h.numbered e he
  have hsame := chunkName_injective (hold.symm.trans hname)
  omega

/-! ## Accepting items -/

theorem Kept.accept (h : s.Kept []) {t : Recording} {x : RecordedItem} (hdisk : t.disk = s.disk)
    (hunsent : t.unsent = s.unsent) (hindex : t.client.spoolIndex = s.client.spoolIndex)
    (hanswered : t.answered = s.answered) (haccepted : t.accepted = s.accepted ++ [x])
    (hpending : (t.pending : Multiset RecordedItem) = {x} + s.pending) : t.Kept [] where
  toLedger := h.toLedger.of_same hdisk hunsent
  numbered := by
    rw [hunsent, hindex]
    exact h.numbered
  balance := by
    have hmore : ((s.accepted ++ [x] : List RecordedItem) : Multiset RecordedItem) = {x} + s.accepted := by
      rw [← Multiset.coe_add, add_comm]
      rfl
    rw [haccepted, hmore, hpending, hunsent, hanswered, add_assoc, add_assoc, add_assoc]
    have hbalance := h.balance
    rw [add_assoc, add_assoc] at hbalance
    exact add_le_add_right hbalance _

theorem Kept.enqueueFrame (h : s.Kept []) (f : RecordedFrame) (now : String) :
    (s.enqueueFrame f now).1.Kept [] := by
  unfold Recording.enqueueFrame
  split
  · exact h
  · split
    · exact ⟨h.toLedger.of_same rfl rfl, h.numbered, h.balance⟩
    · refine h.accept rfl rfl rfl rfl rfl ?_
      unfold pending itemsOf
      rw [map_append, ← Multiset.coe_add, ← Multiset.coe_add, ← Multiset.coe_add, add_assoc, add_left_comm]
      rfl

theorem Kept.enqueueEvent (h : s.Kept []) (e : RecordedEvent) (now : String) : (s.enqueueEvent e now).Kept [] := by
  unfold Recording.enqueueEvent
  split
  · exact h
  · refine h.accept rfl rfl rfl rfl rfl ?_
    unfold pending itemsOf
    rw [map_append, ← append_assoc, ← Multiset.coe_add, add_comm]
    rfl

/-! ## Requests -/

theorem Kept.answer {b : IngestBatch} (h : s.Kept [b]) : (s.answer b).Kept [] where
  toLedger := h.toLedger.of_same rfl rfl
  numbered := h.numbered
  balance := by
    refine le_of_le_of_eq h.balance ?_
    unfold Recording.answer pending
    rw [itemsIn_append, itemsIn_nil]
    ac_rfl

theorem Kept.spooled {b : IngestBatch} (h : s.Kept [b]) (now : ℤ) : (s.spooled now b).Kept [] where
  toLedger := h.toLedger.spooled h.fresh now b
  numbered := by
    intro e he
    rcases mem_append.mp he with hold | hnew
    · obtain ⟨k, hk, hname⟩ := h.numbered e hold
      exact ⟨k, Nat.le_succ_of_le hk, hname⟩
    · obtain rfl := mem_singleton.mp hnew
      exact ⟨s.client.spoolIndex + 1, le_rfl, rfl⟩
  balance := by
    refine le_of_le_of_eq h.balance ?_
    unfold Recording.spooled pending
    rw [map_append, itemsIn_append, itemsIn_nil, map_singleton]
    ac_rfl

theorem Kept.uploaded (h : s.Kept hand) {file : String × SpooledBatch} (hfile : s.Agrees file)
    (ack : BatchACK) (removed : Bool) : ((s.noteAck ack).uploaded file.1 file.2 removed).Kept hand where
  toLedger := (h.toLedger.of_same (t := s.noteAck ack) rfl rfl).uploaded file.1 file.2 removed
  numbered := fun e he => h.numbered e (mem_of_mem_filter he)
  balance := by
    have hledger := ledger_le_filter h.distinct hfile
    unfold Recording.uploaded pending
    rw [itemsIn_append]
    calc (s.accepted : Multiset RecordedItem)
        ≤ s.pending + itemsIn hand + itemsIn (s.unsent.map (·.2.payload)) + itemsIn s.answered := h.balance
      _ ≤ s.pending + itemsIn hand +
            (itemsIn ((s.unsent.filter (·.1 ≠ file.1)).map (·.2.payload)) + itemsIn [file.2.payload]) +
            itemsIn s.answered := add_le_add_left (add_le_add_right hledger _) _
      _ = _ := by
        ac_rfl

theorem Kept.drainSpool (h : s.Kept hand) (o : DrainOutcomes) : (s.drainSpool o).1.Kept hand := by
  -- every file of the loop agrees with the ledger all along, as the ledger only shrinks
  have hrun := drainSpool_invariant
    (fun t => t.Kept hand ∧ ∀ file ∈ s.disk.readPendingBatches o.readable, t.Agrees file) o
    (fun t file hfile ack removed ht => ⟨ht.1.uploaded (ht.2 file hfile) ack removed,
      fun other hother => (ht.2 other hother).uploaded ack file.1 file.2 removed⟩)
    ⟨h, fun file hfile => h.toLedger.agrees hfile⟩
  exact hrun.1

/-! ## `Flush` -/

theorem fitting_append_drop {α : Type} (size : α → ℤ) (maxBytes : ℤ) (isFirst : Bool) (bytes : ℤ) (xs : List α) :
    (fitting size maxBytes isFirst bytes xs).1 ++ xs.drop (fitting size maxBytes isFirst bytes xs).1.length = xs := by
  induction xs generalizing isFirst bytes with
  | nil => rfl
  | cons _ _ ih =>
    unfold fitting
    split
    · rfl
    · rw [length_cons, drop_succ_cons, cons_append, ih]

theorem Kept.popped (h : s.Kept []) : s.popped.Kept [s.nextBatch] where
  toLedger := h.toLedger.of_same rfl rfl
  numbered := h.numbered
  balance := by
    refine le_of_le_of_eq h.balance ?_
    have hframes := fitting_append_drop (fun f : RecordedFrame => (f.payloadBase64.utf8ByteSize + 128 : ℕ))
      s.client.cfg.maxBatchBytes true 128 s.client.pendingFrames
    have hevents := fitting_append_drop (fun _ : RecordedEvent => 256) s.client.cfg.maxBatchBytes true
      s.nextFrames.2 s.client.pendingEvents
    have hqueue : (s.pending : Multiset RecordedItem) = s.popped.pending + itemsIn [s.nextBatch] := by
      rw [itemsIn_singleton]
      unfold pending
      nth_rewrite 1 [← hframes, ← hevents]
      unfold Recording.popped nextBatch batch IngestBatch.items itemsOf
      rw [map_append, map_append]
      simp only [← Multiset.coe_add]
      ac_rfl
    rw [hqueue, itemsIn_nil, add_zero]
    rfl

/-- `Flush` has a place for the batch that it takes from the queue: it can be encoded, and either the server
answers it or it is written to the spool. -/
def FlushKeeps (s : Recording) (o : FlushOutcomes) : Prop :=
  s.pending ≠ [] → o.marshals = true ∧
    ((postBatchHTTP s.client.cfg o.post).isSome = true ∨ s.client.cfg.spooler = true ∧ o.writes = true)

theorem FlushKeeps.ways {o : FlushOutcomes} (h : s.FlushKeeps o) : (s.pending = [] ∧ s.flush o = s.flushEmpty o) ∨
      (∃ ack, s.flush o = (((s.afterAnswer o.now ack).drainSpool o.drain).1, none)) ∨
      s.flush o = (s.popped.spooled o.now s.nextBatch, none) := by
  by_cases hpending : s.pending = []
  · exact .inl ⟨hpending, flush_of_empty hpending o⟩
  · obtain ⟨hmarshals, hany⟩ := h hpending
    cases hpost : postBatchHTTP s.client.cfg o.post with
    | some ack => exact .inr (.inl ⟨ack, flush_of_answered hpending hmarshals hpost⟩)
    | none =>
      rw [hpost] at hany
      obtain ⟨hspooler, hwrites⟩ := hany.resolve_left (by simp)
      exact .inr (.inr (flush_of_spooled hpending hmarshals hpost hspooler hwrites))

theorem Kept.flushEmpty (h : s.Kept []) (o : FlushOutcomes) : (s.flushEmpty o).1.Kept [] := by
  have hdrain := h.drainSpool o.drain
  unfold Recording.flushEmpty
  dsimp only
  split
  · exact hdrain
  · split
    · exact ⟨hdrain.toLedger.of_same rfl rfl, hdrain.numbered, hdrain.balance⟩
    · exact hdrain

theorem Kept.flush (h : s.Kept []) {o : FlushOutcomes} (hplace : s.FlushKeeps o) : (s.flush o).1.Kept [] := by
  rcases hplace.ways with ⟨-, hflush⟩ | ⟨ack, hflush⟩ | hflush
  · rw [hflush]
    exact h.flushEmpty o
  · have hsent : (({ s.popped with client.lastAckAt := some o.now } : Recording).noteAck ack).Kept [s.nextBatch] :=
      ⟨h.popped.toLedger.of_same rfl rfl, h.popped.numbered, h.popped.balance⟩
    rw [hflush]
    exact hsent.answer.drainSpool o.drain
  · rw [hflush]
    exact h.popped.spooled o.now

theorem pending_of_flush_error {o : FlushOutcomes} (hplace : s.FlushKeeps o)
    (herror : (s.flush o).2.isSome = true) : (s.flush o).1.pending = s.pending := by
  rcases hplace.ways with ⟨-, hflush⟩ | ⟨ack, hflush⟩ | hflush
  · rw [hflush]
    exact (drained_flushEmpty o).pending
  · rw [hflush] at herror
    simp at herror
  · rw [hflush] at herror
    simp at herror

/-! ## `Complete` -/

/-- The next batch takes the whole queue. -/
def TakesAll (s : Recording) : Prop :=
  s.nextFrames.1 = s.client.pendingFrames ∧ s.nextEvents.1 = s.client.pendingEvents

theorem TakesAll.popped (h : s.TakesAll) : s.popped.pending = [] := by
  unfold pending Recording.popped itemsOf
  rw [h.1, h.2, drop_length, drop_length]
  rfl

theorem pending_flush {o : FlushOutcomes} (hplace : s.FlushKeeps o) (htakes : s.TakesAll) :
    (s.flush o).1.pending = [] := by
  rcases hplace.ways with ⟨hpending, hflush⟩ | ⟨ack, hflush⟩ | hflush
  · rw [hflush]
    exact (drained_flushEmpty o).pending.trans hpending
  · rw [hflush]
    exact (drained_drainSpool o.drain).pending.trans htakes.popped
  · rw [hflush]
    exact htakes.popped

/-- `Complete` has a place for everything. -/
def CompleteKeeps (s : Recording) (o : CompleteOutcomes) : Prop :=
  s.FlushKeeps o.flush ∧ s.TakesAll ∧ (o.response.isSome = true → s.client.cfg.spooler = true → s.EmptiesSpool o)

theorem Kept.lastUploads (h : s.Kept []) (hplace : s.CompleteKeeps o) :
    (s.lastUploads o).Kept [] ∧ (s.lastUploads o).pending = [] := by
  let closed : Recording := { s with client.closed := true }
  have hclosed : closed.Kept [] := ⟨h.toLedger.of_same rfl rfl, h.numbered, h.balance⟩
  have hflush : closed.FlushKeeps o.flush := hplace.1
  have hpending : (closed.flush o.flush).1.pending = [] := pending_flush hflush hplace.2.1
  have hdrained : Drained (closed.flush o.flush).1 (s.lastUploads o) := drained_drainSpool o.drain
  exact ⟨(hclosed.flush hflush).drainSpool o.drain, hdrained.pending.trans hpending⟩

theorem Kept.settled (h : s.Kept []) (hplace : s.CompleteKeeps o) (hresponse : o.response.isSome = true)
    (hspooler : s.client.cfg.spooler = true) : (s.lastUploads o).Settled :=
  h.toLedger.settled_lastUploads (fun _ => h.fresh) hspooler (hplace.2.2 hresponse hspooler)

theorem Kept.complete (h : s.Kept []) (hplace : s.CompleteKeeps o) : (s.complete o).Kept [] := by
  obtain ⟨hkept, -⟩ := h.lastUploads hplace
  have hledger := h.toLedger.complete (fun _ => h.fresh) hplace.2.2
  refine ⟨hledger, ?_, ?_⟩
  · unfold Recording.complete
    split
    · split
      · exact hkept.numbered
      · exact hkept.numbered
    · exact hkept.numbered
  · unfold Recording.complete
    split
    · split
      · exact hkept.balance
      · exact hkept.balance
    · exact hkept.balance

theorem Kept.pending_complete (h : s.Kept []) (hplace : s.CompleteKeeps o) : (s.complete o).pending = [] := by
  have hpending := (h.lastUploads hplace).2
  unfold Recording.complete
  split
  · split
    · exact hpending
    · exact hpending
  · exact hpending

end Recording

inductive ClientCall
  | enqueueFrame (f : RecordedFrame) (now : String)
  | enqueueEvent (e : RecordedEvent) (now : String)
  | flush (o : FlushOutcomes)
  | drainSpool (o : DrainOutcomes)
  | complete (o : CompleteOutcomes)

namespace Recording

variable {s : Recording}

def call (s : Recording) : ClientCall → Recording
  | .enqueueFrame f now => (s.enqueueFrame f now).1
  | .enqueueEvent e now => s.enqueueEvent e now
  | .flush o => (s.flush o).1
  | .drainSpool o => (s.drainSpool o).1
  | .complete o => s.complete o

/-- A call has a place for what it takes from the queue and from the disk. -/
def KeepsItems (s : Recording) : ClientCall → Prop
  | .flush o => s.FlushKeeps o
  | .complete o => s.CompleteKeeps o
  | _ => True

theorem Kept.call (h : s.Kept []) : ∀ {c : ClientCall}, s.KeepsItems c → (s.call c).Kept []
  | .enqueueFrame f now, _ => h.enqueueFrame f now
  | .enqueueEvent e now, _ => h.enqueueEvent e now
  | .flush _, hplace => h.flush hplace
  | .drainSpool o, _ => h.drainSpool o
  | .complete _, hplace => h.complete hplace

end Recording

/-- The calls of a client, in any order and with any outcomes. -/
def recorderClient : Machine Recording ClientCall Empty where
  step s c := some (s.call c, [])

open Recording in
/-- In a run whose calls have a place for what they take, nothing is lost: after every call, each accepted
item is pending, in a chunk on disk or in a batch that the server answered. A `Flush` that reports an error
leaves the queue as it was. `Complete` leaves nothing pending, and when it removes the directory every file
in it is a chunk that the server has answered. -/
theorem nothing_lost {client : RecorderClient} {d : ChunkDir} {s : Recording} {es : List Empty}
    (h : recorderClient.Reach (fun s _ c => s.KeepsItems c) { client := client, disk := d } s es) :
    s.NothingLost ∧
      (∀ o, s.KeepsItems (.flush o) → (s.flush o).2.isSome = true → (s.flush o).1.pending = s.pending) ∧
      ∀ o, s.KeepsItems (.complete o) → (s.complete o).pending = [] ∧
        (o.response.isSome = true → s.client.cfg.spooler = true →
          ∀ name content, (s.lastUploads o).disk.lookup name = some content →
            ∃ record, content = some record ∧ record.payload ∈ (s.lastUploads o).answered) := by
  have hkept : s.Kept [] := by
    refine h.invariant (fun s _ => s.Kept []) (kept_start client d) ?_
    intro s _ c t _ hs hgood hstep
    have hcall : s.call c = t := (Prod.mk.inj (Option.some.inj hstep)).1
    exact hcall ▸ .call hs hgood
  refine ⟨hkept.nothingLost, fun o hplace => pending_of_flush_error hplace, fun o hplace => ?_⟩
  exact ⟨hkept.pending_complete hplace, fun hresponse hspooler => (hkept.settled hplace hresponse hspooler).answered⟩

def sampleClient : RecorderClient where
  cfg := RecorderClientConfig.withDefaults
    { sessionID := "s", ingestURL := "https://recorder/batch", epoch := 1, leaseTTL := 0, maxBatchBytes := 0,
      maxQueueBytes := 0, failurePolicy := "resilient", spooler := true }
  startedAt := 0

def sampleRecordedFrame : RecordedFrame where
  seq := 0
  frameKind := "periodic"
  monitorID := ""
  width := 2
  height := 2
  codec := "jpeg"
  payloadBase64 := "AAAA"
  capturedAt := ""
  windowTitle := ""
  processName := ""

variable (post : PostOutcome)

/-- All requests of a drain have the same outcome. -/
def drainWith : DrainOutcomes where
  lists := true
  readable _ := true
  alive _ := true
  posts _ := post
  removes _ := true

/-- `Flush` whose requests have the same outcome, and whose chunk can be written. -/
def flushWith : FlushOutcomes where
  now := 0
  marshals := true
  post := post
  writes := true
  drain := drainWith post

/-- A frame is spilled, and then the session is completed: the last requests have the outcome `post`, and the
complete request is answered with `statusCode`. -/
def spilledAndCompleted (statusCode : ℤ) : List ClientCall :=
  [.enqueueFrame sampleRecordedFrame "", .flush (flushWith .failed),
    .complete ⟨flushWith .failed, drainWith post, some statusCode, [chunkName 1]⟩]

/-- The body can be encoded and the chunk can be written in a call. -/
def ClientCall.spools : ClientCall → Bool
  | .flush o => o.marshals && o.writes
  | .complete o => o.flush.marshals && o.flush.writes
  | _ => true

/-- The directory of a session goes with a chunk that the server has not answered, once it answers the
complete request with an error. -/
theorem complete_drops_chunk :
    newRecorderClient sampleClient.cfg 0 = .ok sampleClient ∧ sampleClient.cfg.spooler = true ∧
      ¬ ∀ (s : Recording) (es : List Empty),
        recorderClient.Reach (fun _ _ c => c.spools = true) { client := sampleClient } s es → s.NothingLost := by
  refine ⟨rfl, rfl, fun hclaim => ?_⟩
  have hdropped : ∃ r ∈ recorderClient.exec (fun _ _ c => c.spools) { client := sampleClient } []
      (spilledAndCompleted .failed 500), r.1.accepted.length = 1 ∧ r.1.pending.length = 0 ∧
        r.1.disk.batches.length = 0 ∧ r.1.answered.length = 0 := by decide +kernel
  obtain ⟨⟨s, es⟩, hexec, haccepted, hpending, hdisk, hanswered⟩ := hdropped
  have hkept := hclaim s es (Machine.reach_of_exec (fun _ _ _ h => h) hexec)
  have hcard := Multiset.card_le_card hkept
  rw [eq_nil_of_length_eq_zero hpending, eq_nil_of_length_eq_zero hdisk,
    eq_nil_of_length_eq_zero hanswered, Multiset.coe_card, haccepted] at hcard
  cases hcard

open Recording in
/-- A frame is spilled, and uploaded when the session is completed. -/
theorem nothing_lost_sample : ∃ s : Recording, s.accepted.length = 1 ∧ s.answered.length = 1 ∧ s.NothingLost := by
  let start : Recording := { client := sampleClient }
  let accepting : Recording := start.call (.enqueueFrame sampleRecordedFrame "")
  let spilled : Recording := accepting.call (.flush (flushWith .failed))
  let final : CompleteOutcomes := ⟨flushWith .failed, drainWith (.response 200 .other), some 500, [chunkName 1]⟩
  have hspills : accepting.KeepsItems (.flush (flushWith .failed)) := fun _ => ⟨rfl, .inr ⟨rfl, rfl⟩⟩
  have hpending : spilled.pending = [] := rfl
  have huploads : final.drain.UploadsAll spilled.client.cfg spilled.disk.keys := ⟨rfl, fun _ _ => ⟨rfl, rfl, rfl⟩⟩
  have hchunks : ∀ file ∈ spilled.disk.entries, file.2.isSome = true := by decide +kernel
  have hempties : spilled.EmptiesSpool final :=
    ⟨fun file hfile _ => hchunks file hfile, .inr ⟨huploads, fun hspools => absurd hpending hspools.1⟩⟩
  have hcompletes : spilled.KeepsItems (.complete final) :=
    ⟨fun h => absurd hpending h, ⟨rfl, rfl⟩, fun _ _ => hempties⟩
  have haccepts : start.KeepsItems (.enqueueFrame sampleRecordedFrame "") := trivial
  have haccepting : recorderClient.Reach (fun s _ c => s.KeepsItems c) start accepting [] :=
    (Machine.Reach.start).step haccepts rfl
  have hspilled : recorderClient.Reach (fun s _ c => s.KeepsItems c) start spilled [] := haccepting.step hspills rfl
  have hrun : recorderClient.Reach (fun s _ c => s.KeepsItems c) start (spilled.call (.complete final)) [] :=
    hspilled.step hcompletes rfl
  exact ⟨spilled.call (.complete final), by decide +kernel, by decide +kernel, (nothing_lost hrun).1⟩

end LigamentApps.LinkAgent
