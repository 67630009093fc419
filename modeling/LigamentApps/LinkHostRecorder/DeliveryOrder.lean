import LigamentApps.LinkHostRecorder.LossAccounting
import LigamentApps.LinkHostRecorder.Rests
import LigamentApps.LinkHostRecorder.TailFlush

/-!
# The order of delivery

Items reach the recorder service in the order of their numbers, as long as a spill takes what comes
first, chunks are listed completely, and a round comes to the queue only when no chunk is left. -/

namespace LigamentApps.LinkHostRecorder

open LinkHost List Bool

variable {s : Recorder} {u : Setup} {a : Action} {c : Cycle} {drops : Prop} {v : Evidence}

/-- The numbers of some items. -/
def seqs (items : List Item) : List ℕ := items.map (·.seq)

theorem mem_seqs {items : List Item} {n : ℕ} : n ∈ seqs items ↔ ∃ i ∈ items, i.seq = n := by
  simp [seqs]

theorem seqs_setMetadata (m : Event) (items : List Item) : seqs (items.map (Item.setMetadata m)) = seqs items := by
  simp [seqs, Function.comp_def]

/-- The numbers that a report sends. -/
def Report.sentSeqs : Report → List ℕ
  | .sent _ b _ => seqs b.items
  | _ => []

/-- What a transmission must satisfy after some numbers were sent: a batch of the queue is not sent
while a chunk is on disk that holds a smaller number, and what is sent for the first time comes after
everything that was sent. -/
def SentInOrder (sent : List ℕ) : Report → Prop
  | .sent live b onDisk =>
    (live = true → ∀ chunk ∈ onDisk, ∀ i ∈ chunk.items, ∀ j ∈ b.items, ¬ i.seq < j.seq) ∧
      ∀ j ∈ b.items, j.seq ∉ sent → ∀ n ∈ sent, n < j.seq
  | _ => True

/-- The order of delivery, as a monitor of the log. -/
def deliveryOrder : Monitor (List ℕ) Report where
  start := []
  next := fun sent r => sent ++ r.sentSeqs
  Ok := SentInOrder

/-- The numbers that were sent. -/
def Evidence.sent (v : Evidence) : List ℕ := deliveryOrder.after v.log

def Report.silent : Report → Bool
  | .sent _ _ _ => false
  | _ => true

section Silent

variable {v w : Evidence} (rs : List Report)

theorem foldl_silent (h : rs.all (·.silent) = true) (sent : List ℕ) : rs.foldl deliveryOrder.next sent = sent := by
  induction rs with
  | nil => rfl
  | cons r rs ih =>
    simp only [all_cons, and_eq_true] at h
    have hfirst : deliveryOrder.next sent r = sent := by
      cases r with
      | sent => exact absurd h.1 (by simp [Report.silent])
      | _ => exact append_nil _
    rw [foldl_cons, hfirst]
    exact ih h.2

theorem sent_silent (hlog : w.log = v.log ++ rs) (h : rs.all (·.silent) = true) : w.sent = v.sent := by
  unfold Evidence.sent
  rw [hlog, Monitor.after_append]
  exact foldl_silent rs h _

theorem acceptsFrom_silent (h : rs.all (·.silent) = true) (sent : List ℕ) : deliveryOrder.AcceptsFrom sent rs := by
  induction rs generalizing sent with
  | nil => trivial
  | cons r _ ih =>
    simp only [all_cons, and_eq_true] at h
    refine ⟨?_, ih h.2 _⟩
    cases r with
    | sent => exact absurd h.1 (by simp [Report.silent])
    | _ => trivial

end Silent

/-- Nothing that is pending has a number up to the end of the cycle. -/
def NothingDue (v : Evidence) (c : Cycle) : Prop := ∀ n ∈ seqs v.queue, c.upperSeq < n

/-- What keeps the order in a step: what a spill holds comes before everything that is pending, a
listing reaches every chunk, there are fewer than a hundred million of them, and the round comes from a
chunk to the queue, or to a further round without a chunk, only when no chunk and no spill is left, or
nothing is due. -/
structure KeepsOrder (u : Setup) (s : Recorder) (a : Action) : Prop where
  spills : ∀ m ∈ seqs s.spill.items, ∀ n ∈ seqs s.queue, m < n
  numbers : s.spoolBatchIndex < 10 ^ 8
  lists : ∀ seen, a = .chunksListed seen → ∀ g ∈ s.spool.dir.files, g.name ∈ seen
  listed : ∀ seen c, a = .chunksListed seen → s.flush = .listing c → s.spool.firstPending seen = none →
    s.spill.batch = none ∨ NothingDue s.toEvidence c
  unconfirmed : ∀ ack c name b, a = .chunkAnswered (.ok ack) → s.flush = .sendingChunk c name b →
    ack.ackHighWatermarkSeq ≤ 0 → NothingDue s.toEvidence c
  removed : ∀ ok c name answer, a = .chunkRemoved ok → s.flush = .removing c name answer →
    (s.spill.batch = none ∧ ok = true ∧ ∀ g ∈ s.spool.dir.files, g.name = name) ∨
      NothingDue s.toEvidence c
  continued : ∀ c, a = .flushContinued → s.flush = .returned c (.health true) →
    s.knowsChunks u = false → s.spill.batch = none ∨ NothingDue s.toEvidence c

/-- An item with a number is pending, in the hands of a spill, or in a chunk. -/
def Waits (v : Evidence) (n : ℕ) : Prop :=
  n ∈ seqs v.queue ∨ n ∈ seqs v.spill.items ∨ ∃ b ∈ v.spool.dir.batches, n ∈ seqs b.items

/-- The order of what was sent and of what waits. -/
structure Ordered (v : Evidence) : Prop where
  accepts : deliveryOrder.Accepts v.log
  given : ∀ n ∈ v.sent, n ≤ v.nextSeq
  index : ∀ n, v.spill.index = some n → n = v.spoolBatchIndex
  named : ∀ g ∈ v.spool.dir.files, ∃ n ≤ v.spoolBatchIndex,
    (∀ k, v.spill.index = some k → n < k) ∧ g.name = spoolName n
  diskGiven : ∀ b ∈ v.spool.dir.batches, ∀ n ∈ seqs b.items, n ≤ v.nextSeq
  disk : ∀ g ∈ v.spool.dir.files, ∀ g' ∈ v.spool.dir.files, ∀ k k', g.name = spoolName k →
    g'.name = spoolName k' → k < k' → ∀ b b', g.content = some b → g'.content = some b' →
      ∀ m ∈ seqs b.items, ∀ n ∈ seqs b'.items, m < n
  diskHeld : ∀ b ∈ v.spool.dir.batches, ∀ m ∈ seqs b.items, ∀ n ∈ seqs v.spill.items, m < n
  diskQueue : ∀ b ∈ v.spool.dir.batches, ∀ m ∈ seqs b.items, ∀ n ∈ seqs v.queue, m < n
  unsent : ∀ m ∈ v.sent, ∀ n, Waits v n → n ∉ v.sent → m < n
  cycle : ∀ n, v.flush.upperSeq = some n → n ≤ v.nextSeq
  reading : ∀ c name, v.flush = .reading c name → ∃ g ∈ v.spool.dir.files, g.name = name
  oldest : ∀ c name, v.flush = .reading c name → ∀ g ∈ v.spool.dir.files, ∀ k n, name = spoolName k →
    g.name = spoolName n → k ≤ n

/-- The round comes to the queue when nothing is due, or no chunk and no spill is left. -/
def Selects (beside : Prop) (v : Evidence) : Prop :=
  ∀ c, v.flush = .selecting c → NothingDue v c ∨ v.spool.dir.files = [] ∧ ¬ beside

namespace Ordered

variable {u : Setup} {v w : Evidence}

theorem congr (h : Ordered v) (rs : List Report) (hlog : w.log = v.log ++ rs)
    (hsilent : rs.all (·.silent) = true) (hnext : v.nextSeq ≤ w.nextSeq)
    (hbatchIndex : w.spoolBatchIndex = v.spoolBatchIndex)
    (hindex : ∀ n, w.spill.index = some n → v.spill.index = some n)
    (hheld : seqs w.spill.items ⊆ seqs v.spill.items)
    (hdir : w.spool.dir = v.spool.dir)
    (hqueue : ∀ n ∈ seqs w.queue, n ∈ seqs v.queue ∨ v.nextSeq < n)
    (hcycle : ∀ n, w.flush.upperSeq = some n → v.flush.upperSeq = some n ∨ n ≤ v.nextSeq)
    (holdest : ∀ c name, w.flush = .reading c name → v.flush = .reading c name) : Ordered w := by
  have hsent : w.sent = v.sent := sent_silent rs hlog hsilent
  constructor
  case accepts =>
    rw [hlog]
    exact (deliveryOrder.accepts_append _ _).mpr ⟨h.accepts, acceptsFrom_silent rs hsilent _⟩
  case given =>
    rw [hsent]
    exact fun n hn => (h.given n hn).trans hnext
  case index =>
    rw [hbatchIndex]
    exact fun n hn => h.index n (hindex n hn)
  case named =>
    rw [hdir, hbatchIndex]
    intro g hg
    obtain ⟨n, hn, hlt, hname⟩ := h.named g hg
    exact ⟨n, hn, fun k hk => hlt k (hindex k hk), hname⟩
  case diskGiven =>
    rw [hdir]
    exact fun b hb n hn => (h.diskGiven b hb n hn).trans hnext
  case disk =>
    rw [hdir]
    exact h.disk
  case diskHeld =>
    rw [hdir]
    exact fun b hb m hm n hn => h.diskHeld b hb m hm n (hheld hn)
  case diskQueue =>
    rw [hdir]
    intro b hb m hm n hn
    rcases hqueue n hn with hold | hnew
    · exact h.diskQueue b hb m hm n hold
    · have hle := h.diskGiven b hb m hm
      omega
  case unsent =>
    rw [hsent]
    intro m hm n hwaits hn
    rcases hwaits with hpending | hhand | hdisk
    · rcases hqueue n hpending with hold | hnew
      · exact h.unsent m hm n (.inl hold) hn
      · have hle := h.given m hm
        omega
    · exact h.unsent m hm n (.inr (.inl (hheld hhand))) hn
    · rw [hdir] at hdisk
      exact h.unsent m hm n (.inr (.inr hdisk)) hn
  case cycle =>
    intro n hn
    rcases hcycle n hn with hold | hle
    · exact (h.cycle n hold).trans hnext
    · exact hle.trans hnext
  case reading =>
    rw [hdir]
    exact fun c name hphase => h.reading c name (holdest c name hphase)
  case oldest =>
    rw [hdir]
    exact fun c name hphase => h.oldest c name (holdest c name hphase)

theorem turn (h : Ordered v) (hle : c.upperSeq ≤ v.nextSeq) (hturn : Turn u v c w) : Ordered w := by
  cases hturn <;>
    refine h.congr [] (append_nil _).symm rfl le_rfl rfl (fun _ => id) (fun _ => id) rfl
      (fun _ => .inl) (fun n hn => .inr ?_) (by simp)
  all_goals
    cases hn
    exact hle

theorem accept (h : Ordered v) (rs : List Report) (hlog : w.log = v.log ++ rs)
    (hsilent : rs.all (·.silent) = true) (hnext : v.nextSeq ≤ w.nextSeq)
    (hbatchIndex : w.spoolBatchIndex = v.spoolBatchIndex) (hspill : w.spill = v.spill)
    (hdir : w.spool.dir = v.spool.dir) (hflush : w.flush = v.flush)
    (hqueue : ∀ i ∈ w.queue, i ∈ v.queue ∨ v.nextSeq < i.seq) : Ordered w := by
  refine h.congr rs hlog hsilent hnext hbatchIndex (fun n hn => hspill ▸ hn) (fun n hn => hspill ▸ hn) hdir
    (fun n hn => ?_) (fun n hn => .inl (hflush ▸ hn)) (fun c name hphase => hflush ▸ hphase)
  obtain ⟨i, hi, rfl⟩ := mem_seqs.mp hn
  exact (hqueue i hi).imp_left fun hold => mem_seqs.mpr ⟨i, hold, rfl⟩

theorem mergeLoss (h : Ordered v) (m : Event) : Ordered (v.mergeLoss m) := by
  have hqueue : seqs (v.mergeLoss m).queue = seqs v.queue := by
    rw [Evidence.queue_mergeLoss, seqs_setMetadata]
  have hheld : seqs (v.spill.setMetadata m).items = seqs v.spill.items := by
    rcases v.spill.items_setMetadata m with hmap | hsame
    · rw [hmap, seqs_setMetadata]
    · rw [hsame]
  have hindex : (v.spill.setMetadata m).index = v.spill.index := by
    cases v.spill <;> rfl
  refine h.congr [.marker m] rfl rfl le_rfl rfl (fun n hn => hindex ▸ hn) (fun n hn => hheld ▸ hn)
    rfl (fun n hn => .inl (hqueue ▸ hn)) (fun n hn => .inl hn) (fun _ _ => id)

theorem takeChunk (h : Ordered v) : Ordered (v.takeChunk u) := by
  have hqueue : ∀ n ∈ seqs (v.takeChunk u).queue, n ∈ seqs v.queue := by
    intro n hn
    obtain ⟨i, hi, rfl⟩ := mem_seqs.mp hn
    exact mem_seqs.mpr ⟨i, v.queue_takeChunk_subset u hi, rfl⟩
  have hheld : ∀ n ∈ seqs (v.takeChunk u).spill.items, n ∈ seqs v.queue := by
    intro n hn
    obtain ⟨i, hi, rfl⟩ := mem_seqs.mp hn
    exact mem_seqs.mpr ⟨i, v.items_chunk_subset u hi, rfl⟩
  constructor
  case accepts => exact h.accepts
  case given => exact h.given
  case index => exact fun n hn => (Option.some.inj hn).symm
  case named =>
    intro g hg
    obtain ⟨n, hn, -, hname⟩ := h.named g hg
    refine ⟨n, Nat.le_succ_of_le hn, fun k hk => ?_, hname⟩
    cases hk
    exact Nat.lt_succ_of_le hn
  case diskGiven => exact h.diskGiven
  case disk => exact h.disk
  case diskHeld => exact fun b hb m hm n hn => h.diskQueue b hb m hm n (hheld n hn)
  case diskQueue => exact fun b hb m hm n hn => h.diskQueue b hb m hm n (hqueue n hn)
  case unsent =>
    intro m hm n hwaits hn
    refine h.unsent m hm n ?_ hn
    rcases hwaits with hpending | hhand | hdisk
    · exact .inl (hqueue n hpending)
    · exact .inl (hheld n hhand)
    · exact .inr (.inr hdisk)
  case cycle => exact h.cycle
  case reading => exact h.reading
  case oldest => exact h.oldest

/-- A live batch is sent in order where nothing earlier is still due. -/
theorem send (h : Ordered v) (hnumbered : Numbered v) {sentAt : ℕ} (hflush : v.flush = .selecting c)
    (hselects : NothingDue v c ∨ v.spool.dir.files = [] ∧ v.spill.batch = none) :
    Ordered { v with
      flush := .sending c (v.liveBatch u c.upperSeq) sentAt
      log := v.log ++ [.sent true (v.liveBatch u c.upperSeq) v.spool.dir.batches] } := by
  have hle : c.upperSeq ≤ v.nextSeq := h.cycle c.upperSeq (by rw [hflush]; rfl)
  have hpending : ∀ n ∈ seqs (v.liveBatch u c.upperSeq).items, n ∈ seqs v.queue ∧ n ≤ c.upperSeq := by
    intro n hn
    obtain ⟨i, hi, rfl⟩ := mem_seqs.mp hn
    have hmem := mem_liveBatch u hi
    exact ⟨mem_seqs.mpr ⟨i, hmem.1, rfl⟩, hmem.2⟩
  -- Something is due only when nothing waits but the queue.
  have hqueueOnly : ∀ n ∈ seqs (v.liveBatch u c.upperSeq).items,
      v.spool.dir.files = [] ∧ v.spill.batch = none := by
    intro n hn
    refine hselects.resolve_left fun hnone => ?_
    have hlt := hnone n (hpending n hn).1
    have hupper := (hpending n hn).2
    omega
  have hsent : ∀ onDisk, ({ v with
      flush := .sending c (v.liveBatch u c.upperSeq) sentAt
      log := v.log ++ [.sent true (v.liveBatch u c.upperSeq) onDisk] } : Evidence).sent =
      v.sent ++ seqs (v.liveBatch u c.upperSeq).items := by
    intro onDisk
    unfold Evidence.sent
    rw [Monitor.after_append]
    rfl
  constructor
  case accepts =>
    refine (deliveryOrder.accepts_append _ _).mpr ⟨h.accepts, ⟨?_, ?_⟩, trivial⟩
    · intro _ chunk hchunk i _ j hj
      have hnone := (hqueueOnly j.seq (mem_seqs.mpr ⟨j, hj, rfl⟩)).1
      obtain ⟨g, hg, -⟩ := SpoolDir.mem_batches.mp hchunk
      rw [hnone] at hg
      simp at hg
    · intro j hj hnew n hn
      have hmem := (hpending j.seq (mem_seqs.mpr ⟨j, hj, rfl⟩)).1
      exact h.unsent n hn j.seq (.inl hmem) hnew
  case given =>
    rw [hsent]
    intro n hn
    rcases mem_append.mp hn with hold | hnew
    · exact h.given n hold
    · exact (hpending n hnew).2.trans hle
  case index => exact h.index
  case named => exact h.named
  case diskGiven => exact h.diskGiven
  case disk => exact h.disk
  case diskHeld => exact h.diskHeld
  case diskQueue => exact h.diskQueue
  case unsent =>
    rw [hsent]
    intro m hm n hwaits hn
    have hunsent : n ∉ v.sent ∧ n ∉ seqs (v.liveBatch u c.upperSeq).items :=
      ⟨fun hmem => hn (mem_append_left _ hmem), fun hmem => hn (mem_append_right _ hmem)⟩
    rcases mem_append.mp hm with hold | hnew
    · exact h.unsent m hold n hwaits hunsent.1
    · obtain ⟨hfiles, hbatch⟩ := hqueueOnly m hnew
      rcases hwaits with hqueue | hhand | ⟨b, hb, -⟩
      · obtain ⟨i, hi, rfl⟩ := mem_seqs.mp hnew
        obtain ⟨j, hj, rfl⟩ := mem_seqs.mp hqueue
        exact liveBatch_first u hnumbered.framesSorted hnumbered.eventsSorted hnumbered.frames_events_apart
          hi hj fun hmem => hunsent.2 (mem_seqs.mpr ⟨j, hmem, rfl⟩)
      · change n ∈ seqs v.spill.items at hhand
        simp [SpillPhase.items, hbatch, seqs] at hhand
      · obtain ⟨g, hg, -⟩ := SpoolDir.mem_batches.mp hb
        rw [hfiles] at hg
        simp at hg
  case cycle =>
    intro n hn
    cases hn
    exact hle
  case reading => simp
  case oldest => simp

/-- A step that sends and stores nothing keeps the order. -/
theorem calm (h : Ordered v) (hnumbered : Numbered v) {beside : Prop} (hselects : Selects beside v)
    (hmove : Calm u drops beside v w) : Ordered w := by
  cases hmove with
  | acceptFrame f =>
    refine h.accept [.accepted (.frame f)] rfl rfl (Nat.le_succ _) rfl rfl rfl rfl fun i hi => ?_
    rcases Evidence.mem_queue_acceptFrame.mp hi with hold | rfl
    · exact .inl hold
    · refine .inr ?_
      show v.nextSeq < f.seq
      omega
  | acceptEvent e =>
    refine h.accept [.accepted (.event e)] rfl rfl (Nat.le_succ _) rfl rfl rfl rfl fun i hi => ?_
    rcases Evidence.mem_queue_acceptEvent.mp hi with hold | rfl
    · exact .inl hold
    · refine .inr ?_
      show v.nextSeq < e.seq
      omega
  | mark f m _ hmarks =>
    refine h.accept [.accepted (.frame f), .accepted (.event m), .marker m] rfl rfl
      (Nat.le_add_right ..) rfl rfl rfl rfl fun i hi => ?_
    have hframe := hmarks.frame_seq
    have hmarker := hmarks.marker_seq
    rcases Evidence.mem_queue_markLoss.mp hi with hold | rfl | rfl
    · exact .inl hold
    · refine .inr ?_
      show v.nextSeq < f.seq
      omega
    · refine .inr ?_
      show v.nextSeq < m.seq
      omega
  | refuse isFrame =>
    cases isFrame
    · exact h.accept [.refused false] rfl rfl le_rfl rfl rfl rfl rfl fun _ => .inl
    · exact h.accept [.refused true] rfl rfl le_rfl rfl rfl rfl rfl fun _ => .inl
  | merge => exact h.mergeLoss _
  | take => exact h.takeChunk
  | spillNothing =>
    exact h.congr [] (append_nil _).symm rfl le_rfl rfl (by simp [SpillPhase.index])
      (by simp [SpillPhase.items, SpillPhase.batch, seqs]) rfl (fun _ => .inl) (fun _ => .inl) (fun _ _ => id)
  | violation reason =>
    exact h.accept [.violation reason] rfl rfl le_rfl rfl rfl rfl rfl fun _ => .inl
  | stopReturned result =>
    exact h.accept [.stopReturned result] rfl rfl le_rfl rfl rfl rfl rfl fun _ => .inl
  | round _ _ _ hupper _ hturn => exact h.turn hupper.le hturn
  | send c _ hflush hbeside =>
    refine h.send hnumbered hflush ?_
    rcases hselects c hflush with hnone | ⟨hfiles, hnot⟩
    · exact .inl hnone
    · exact .inr ⟨hfiles, hbeside.resolve_right hnot⟩
  | returned c result =>
    refine h.congr [] (append_nil _).symm rfl le_rfl rfl (fun _ => id) (fun _ => id) rfl (fun _ => .inl)
      (fun n hn => .inl ?_) (by simp)
    have hsameCycle : v.flush.upperSeq = some c.upperSeq := by
      cases hflush : v.flush <;> simp_all [FlushPhase.canReturn, FlushPhase.upperSeq]
    cases result with
    | threw => simp [FlushPhase.upperSeq] at hn
    | health ok =>
      cases ok
      · simp [FlushPhase.upperSeq] at hn
      · rw [hsameCycle]
        exact hn
  | freeze | forget => exact h.accept [] (append_nil _).symm rfl le_rfl rfl rfl rfl rfl fun _ => .inl
  | _ =>
    exact h.congr [] (append_nil _).symm rfl le_rfl rfl (fun _ => id) (fun _ => id) rfl (fun _ => .inl)
      (by simp [FlushPhase.upperSeq]) (by simp)

/-- A spill that is written becomes the last chunk of the directory. -/
theorem spillWritten {n length : ℕ} {b : Batch} (h : Ordered v) (hnumbered : Numbered v)
    (hspill : v.spill = .writing n b) (hfirst : ∀ m ∈ seqs v.spill.items, ∀ k ∈ seqs v.queue, m < k) :
    Ordered { v with spool := v.spool.write n b length, spill := .idle, log := v.log ++ [.spooled b] } := by
  have hindex : n = v.spoolBatchIndex := h.index n (by rw [hspill]; rfl)
  have hitems : v.spill.items = b.items := by rw [hspill]; rfl
  -- all chunks on disk have smaller indexes
  have hbefore : ∀ g ∈ v.spool.dir.files, ∃ k < n, g.name = spoolName k := by
    intro g hg
    obtain ⟨k, -, hlt, hname⟩ := h.named g hg
    exact ⟨k, hlt n (by rw [hspill]; rfl), hname⟩
  have hfiles : ∀ {g}, g ∈ (v.spool.write n b length).dir.files ↔
      g ∈ v.spool.dir.files ∨ g = ⟨spoolName n, some b, length⟩ := by
    intro g
    refine SpoolDir.mem_put.trans (or_congr_left (and_iff_left_of_imp fun hg => ?_))
    obtain ⟨k, hk, hname⟩ := hbefore g hg
    rw [hname]
    exact fun hsame => absurd (spoolName_injective hsame) hk.ne
  have hbatches : ∀ b' ∈ (v.spool.write n b length).dir.batches, b' ∈ v.spool.dir.batches ∨ b' = b := by
    intro b' hb'
    obtain ⟨g, hg, hcontent⟩ := SpoolDir.mem_batches.mp hb'
    rcases hfiles.mp hg with hold | rfl
    · exact .inl (SpoolDir.mem_batches.mpr ⟨g, hold, hcontent⟩)
    · exact .inr (Option.some.inj hcontent).symm
  have hsent : ({ v with
      spool := v.spool.write n b length, spill := .idle, log := v.log ++ [.spooled b] } : Evidence).sent =
      v.sent := sent_silent [.spooled b] rfl rfl
  constructor
  case accepts =>
    exact (deliveryOrder.accepts_append _ _).mpr ⟨h.accepts, acceptsFrom_silent [.spooled b] rfl _⟩
  case given =>
    rw [hsent]
    exact h.given
  case index => simp [SpillPhase.index]
  case named =>
    intro g hg
    rcases hfiles.mp hg with hold | rfl
    · obtain ⟨k, hk, -, hname⟩ := h.named g hold
      exact ⟨k, hk, by simp [SpillPhase.index], hname⟩
    · exact ⟨n, hindex.le, by simp [SpillPhase.index], rfl⟩
  case diskGiven =>
    intro b' hb' m hm
    rcases hbatches b' hb' with hold | rfl
    · exact h.diskGiven b' hold m hm
    · obtain ⟨i, hi, rfl⟩ := mem_seqs.mp hm
      exact hnumbered.seq_le (hnumbered.held i (hitems ▸ hi))
  case disk =>
    intro g hg g' hg' k k' hname hname' hlt b₁ b₂ hb₁ hb₂ m hm m' hm'
    rcases hfiles.mp hg with hold | rfl
    · rcases hfiles.mp hg' with hold' | rfl
      · exact h.disk g hold g' hold' k k' hname hname' hlt b₁ b₂ hb₁ hb₂ m hm m' hm'
      · cases hb₂
        exact h.diskHeld b₁ (SpoolDir.mem_batches.mpr ⟨g, hold, hb₁⟩) m hm m' (hitems ▸ hm')
    · -- No chunk has a larger number than the new one.
      have hk : n = k := spoolName_injective hname
      rcases hfiles.mp hg' with hold' | rfl
      · obtain ⟨l, hl, hname₂⟩ := hbefore g' hold'
        have hk' : k' = l := spoolName_injective (hname'.symm.trans hname₂)
        omega
      · have hk' : n = k' := spoolName_injective hname'
        omega
  case diskHeld => simp [SpillPhase.items, SpillPhase.batch, seqs]
  case diskQueue =>
    intro b' hb' m hm k hk
    rcases hbatches b' hb' with hold | rfl
    · exact h.diskQueue b' hold m hm k hk
    · exact hfirst m (hitems ▸ hm) k hk
  case unsent =>
    rw [hsent]
    intro m hm k hwaits hk
    refine h.unsent m hm k ?_ hk
    rcases hwaits with hqueue | hhand | ⟨b', hb', hmem⟩
    · exact .inl hqueue
    · simp [SpillPhase.items, SpillPhase.batch, seqs] at hhand
    · rcases hbatches b' hb' with hold | rfl
      · exact .inr (.inr ⟨b', hold, hmem⟩)
      · exact .inr (.inl (hitems ▸ hmem))
  case cycle => exact h.cycle
  case reading =>
    intro c name hphase
    obtain ⟨g, hg, hname⟩ := h.reading c name hphase
    exact ⟨g, hfiles.mpr (.inl hg), hname⟩
  case oldest =>
    intro c name hphase g hg k l hk hl
    rcases hfiles.mp hg with hold | rfl
    · exact h.oldest c name hphase g hold k l hk hl
    · have hn : n = l := spoolName_injective hl
      obtain ⟨g, hg, hname⟩ := h.reading c name hphase
      obtain ⟨k', hk', hname'⟩ := hbefore g hg
      have hsame : k = k' := spoolName_injective ((hk.symm.trans hname.symm).trans hname')
      omega

theorem chunkRead {name : String} {ok : Bool} {b : Batch} (h : Ordered v)
    (hflush : v.flush = .reading c name) (hread : v.spool.readBatch name ok = some b) :
    Ordered { v with
      flush := .sendingChunk c name b, log := v.log ++ [.sent false b v.spool.dir.batches] } := by
  obtain ⟨g, hg, hgname, hcontent⟩ := LinkSpoolStorage.readBatch_eq_some hread
  have hdisk : b ∈ v.spool.dir.batches := SpoolDir.mem_batches.mpr ⟨g, hg, hcontent⟩
  have hsent : ({ v with
      flush := .sendingChunk c name b, log := v.log ++ [.sent false b v.spool.dir.batches] } : Evidence).sent =
      v.sent ++ seqs b.items := by
    unfold Evidence.sent
    rw [Monitor.after_append]
    rfl
  constructor
  case accepts =>
    refine (deliveryOrder.accepts_append _ _).mpr ⟨h.accepts, ⟨by simp, ?_⟩, trivial⟩
    intro j hj hnew n hn
    exact h.unsent n hn j.seq (.inr (.inr ⟨b, hdisk, mem_seqs.mpr ⟨j, hj, rfl⟩⟩)) hnew
  case given =>
    rw [hsent]
    intro n hn
    rcases mem_append.mp hn with hold | hnew
    · exact h.given n hold
    · exact h.diskGiven b hdisk n hnew
  case index => exact h.index
  case named => exact h.named
  case diskGiven => exact h.diskGiven
  case disk => exact h.disk
  case diskHeld => exact h.diskHeld
  case diskQueue => exact h.diskQueue
  case unsent =>
    rw [hsent]
    intro m hm n hwaits hn
    have hunsent : n ∉ v.sent ∧ n ∉ seqs b.items :=
      ⟨fun hmem => hn (mem_append_left _ hmem), fun hmem => hn (mem_append_right _ hmem)⟩
    rcases mem_append.mp hm with hold | hnew
    · exact h.unsent m hold n hwaits hunsent.1
    · rcases hwaits with hqueue | hhand | ⟨b', hb', hmem⟩
      · exact h.diskQueue b hdisk m hnew n hqueue
      · exact h.diskHeld b hdisk m hnew n hhand
      · obtain ⟨g', hg', hcontent'⟩ := SpoolDir.mem_batches.mp hb'
        obtain ⟨k, -, -, hk⟩ := h.named g hg
        obtain ⟨k', -, -, hk'⟩ := h.named g' hg'
        have hle : k ≤ k' := h.oldest c name hflush g' hg' k k' (hgname.symm.trans hk) hk'
        rcases hle.lt_or_eq with hlt | rfl
        · exact h.disk g hg g' hg' k k' hk hk' hlt b b' hcontent hcontent' m hnew n hmem
        · obtain rfl := SpoolDir.eq_of_name_eq hg hg' (hk.trans hk'.symm)
          cases hcontent.symm.trans hcontent'
          exact absurd hmem hunsent.2
  case cycle => exact fun n hn => h.cycle n (by rw [hflush]; exact hn)
  case reading => simp
  case oldest => simp

theorem shrink (h : Ordered v) {spool : LinkSpoolStorage} {c : Cycle} {first : Bool}
    (hsub : ∀ g ∈ spool.dir.files, g ∈ v.spool.dir.files) (hle : c.upperSeq ≤ v.nextSeq) :
    Ordered { v with flush := .selecting c, spool, firstFrameAcked := first } := by
  have hbatches : ∀ b ∈ spool.dir.batches, b ∈ v.spool.dir.batches := by
    intro b hb
    obtain ⟨g, hg, hcontent⟩ := SpoolDir.mem_batches.mp hb
    exact SpoolDir.mem_batches.mpr ⟨g, hsub g hg, hcontent⟩
  constructor
  case accepts => exact h.accepts
  case given => exact h.given
  case index => exact h.index
  case named => exact fun g hg => h.named g (hsub g hg)
  case diskGiven => exact fun b hb => h.diskGiven b (hbatches b hb)
  case disk => exact fun g hg g' hg' => h.disk g (hsub g hg) g' (hsub g' hg')
  case diskHeld => exact fun b hb => h.diskHeld b (hbatches b hb)
  case diskQueue => exact fun b hb => h.diskQueue b (hbatches b hb)
  case unsent =>
    intro m hm n hwaits hn
    refine h.unsent m hm n ?_ hn
    rcases hwaits with hqueue | hhand | ⟨b, hb, hmem⟩
    · exact .inl hqueue
    · exact .inr (.inl hhand)
    · exact .inr (.inr ⟨b, hbatches b hb, hmem⟩)
  case cycle =>
    intro n hn
    cases hn
    exact hle
  case reading => simp
  case oldest => simp

theorem chunkListed {seen : List String} {name : String} (h : Ordered v) (hflush : v.flush = .listing c)
    (hfirst : v.spool.firstPending seen = some name) (hseen : ∀ g ∈ v.spool.dir.files, g.name ∈ seen)
    (hnumbers : v.spoolBatchIndex < 10 ^ 8) : Ordered { v with flush := .reading c name } := by
  obtain ⟨first, hmem, hname⟩ := LinkSpoolStorage.firstPending_mem hfirst
  have hleast : ∀ g ∈ v.spool.dir.files, name ≤ g.name := fun g hg =>
    firstName_le hfirst (mem_filter.mpr ⟨mem_map_of_mem hg, by simpa using hseen g hg⟩)
  constructor
  case accepts => exact h.accepts
  case given => exact h.given
  case index => exact h.index
  case named => exact h.named
  case diskGiven => exact h.diskGiven
  case disk => exact h.disk
  case diskHeld => exact h.diskHeld
  case diskQueue => exact h.diskQueue
  case unsent => exact h.unsent
  case cycle => exact fun n hn => h.cycle n (by rw [hflush]; exact hn)
  case reading =>
    intro c' name' hphase
    cases hphase
    exact ⟨first, hmem, hname⟩
  case oldest =>
    intro c' name' hphase g hg k n hk hn
    cases hphase
    obtain ⟨l, hl, -, hlname⟩ := h.named first hmem
    have hkl : l = k := spoolName_injective (hlname.symm.trans (hname.trans hk))
    by_contra hnot
    have hlt : spoolName n < spoolName k := spoolName_lt (by omega) (by omega)
    have hle : spoolName k ≤ spoolName n := by
      rw [← hk, ← hn]
      exact hleast g hg
    exact String.not_lt.mpr hle hlt

theorem head (h : Ordered s.toEvidence) (hnumbered : Numbered s.toEvidence) (hkeeps : KeepsOrder u s a)
    (hmove : Head u s a w) : Ordered w := by
  have hupper : ∀ {c}, s.flush.upperSeq = some c → c ≤ s.nextSeq := fun hc => h.cycle _ hc
  cases hmove with
  | none => exact h
  | spillEnsured _ hspill =>
    exact h.congr [] (append_nil _).symm rfl le_rfl rfl (fun n hn => by rw [hspill]; exact hn)
      (fun n hn => by rw [hspill]; exact hn) (by simp) (fun _ => .inl) (fun _ => .inl) (fun _ _ => id)
  | spillChecked _ hspill =>
    exact h.congr [] (append_nil _).symm rfl le_rfl rfl (fun n hn => by rw [hspill]; exact hn)
      (fun n hn => by rw [hspill]; exact hn) rfl (fun _ => .inl) (fun _ => .inl) (fun _ _ => id)
  | spillWritten hspill => exact h.spillWritten hnumbered hspill hkeeps.spills
  | spillFailed | spillSettled =>
    exact h.congr [] (append_nil _).symm rfl le_rfl rfl (by simp [SpillPhase.index])
      (by simp [SpillPhase.items, SpillPhase.batch, seqs]) rfl (fun _ => .inl) (fun _ => .inl) (fun _ _ => id)
  | chunkListed hflush hfirst => exact h.chunkListed hflush hfirst (hkeeps.lists _ rfl) hkeeps.numbers
  | nothingListed hflush | chunkUnreadable hflush =>
    refine h.congr [] (append_nil _).symm rfl le_rfl rfl (fun _ => id) (fun _ => id) rfl (fun _ => .inl)
      (fun n hn => .inl ?_) (by simp)
    rw [hflush]
    exact hn
  | chunkRead hflush hread => exact h.chunkRead hflush hread
  | @chunkAcked c name b ack hflush _ | @chunkUnacked c name b ack hflush _ =>
    refine h.congr [.acked b ack] rfl rfl le_rfl rfl (fun _ => id) (fun _ => id) rfl (fun _ => .inl)
      (fun n hn => .inl ?_) (by simp)
    rw [hflush]
    exact hn
  | @chunkRemoved c name answer ok hflush =>
    refine h.shrink (fun g hg => ?_) (hupper (by rw [hflush]; rfl))
    unfold LinkSpoolStorage.removeBatch at hg
    split at hg
    · split at hg
      · exact (SpoolDir.mem_remove.mp hg).1
      · exact hg
    · exact hg
  | @liveUnsettled c b sentAt ack first hflush _ =>
    exact h.accept [.acked b ack] rfl rfl le_rfl rfl rfl rfl rfl fun _ => .inl
  | @liveSettled c b sentAt ack hflush _ =>
    refine h.accept [.acked b ack] rfl rfl le_rfl rfl rfl rfl rfl fun i hi => .inl ?_
    exact Evidence.queue_subset
      filter_sublist.subset filter_sublist.subset hi
  | @flushContinued c c' _ hflush hsame hturn =>
    refine h.turn (hupper ?_) hturn
    rw [hflush, hsame]
    rfl
  | flushSettled =>
    exact h.congr [] (append_nil _).symm rfl le_rfl rfl (fun _ => id) (fun _ => id) rfl (fun _ => .inl)
      (by simp [FlushPhase.upperSeq]) (by simp)

theorem create (clock : ℤ) : Ordered (Recorder.create clock { dir := .empty }).toEvidence where
  accepts := trivial
  given := by simp [Recorder.create, Evidence.sent, deliveryOrder]
  index := by simp [Recorder.create, SpillPhase.index]
  named := by simp [Recorder.create, SpoolDir.empty]
  diskGiven := by simp [Recorder.create, SpoolDir.empty, SpoolDir.batches]
  disk := by simp [Recorder.create, SpoolDir.empty]
  diskHeld := by simp [Recorder.create, SpoolDir.empty, SpoolDir.batches]
  diskQueue := by simp [Recorder.create, SpoolDir.empty, SpoolDir.batches]
  unsent := by simp [Recorder.create, Evidence.sent, deliveryOrder]
  cycle := by simp [Recorder.create, FlushPhase.upperSeq]
  reading := by simp [Recorder.create]
  oldest := by simp [Recorder.create]

end Ordered

/-! ## When a round comes to the queue -/

theorem Tally.files_eq_nil (h : Tally u .empty v) (hnone : v.knowsChunks u = false) : v.spool.dir.files = [] := by
  cases hinit : v.spool.initialized with
  | false =>
    rw [(h.unopened hinit).2.1]
    rfl
  | true =>
    refine (h.counts hinit).files_eq_nil ?_
    rw [Evidence.knowsChunks, h.spools (.inl hinit), Bool.true_and] at hnone
    exact hnone

theorem Tally.listsAll (h : Tally u .empty s.toEvidence) (a : Action) : ListsAll s a := by
  cases a with
  | spillEnsured =>
    intro hinit g hg
    rw [(h.unopened hinit).2.1] at hg
    simp [SpoolDir.empty] at hg
  | _ => trivial

namespace Selects

variable {u : Setup} {v w : Evidence} {beside : Prop}

theorem congr (h : Selects beside v) (hordered : Ordered v)
    (hflush : ∀ c, w.flush = .selecting c → v.flush = .selecting c) (hdir : w.spool.dir = v.spool.dir)
    (hqueue : ∀ n ∈ seqs w.queue, n ∈ seqs v.queue ∨ v.nextSeq < n) : Selects beside w := by
  intro c hphase
  have hold := hflush c hphase
  rcases h c hold with hnone | hempty
  · refine .inl fun n hn => ?_
    rcases hqueue n hn with hpending | hnew
    · exact hnone n hpending
    · have hle := hordered.cycle c.upperSeq (by rw [hold]; rfl)
      omega
  · rw [hdir]
    exact .inr hempty

theorem of_other (hother : ∀ c, w.flush ≠ .selecting c) : Selects beside w := fun c hphase =>
  absurd hphase (hother c)

theorem accept (h : Selects beside v) (hordered : Ordered v) (hflush : w.flush = v.flush)
    (hdir : w.spool.dir = v.spool.dir) (hqueue : ∀ i ∈ w.queue, i ∈ v.queue ∨ v.nextSeq < i.seq) :
    Selects beside w := by
  refine h.congr hordered (fun c hphase => hflush ▸ hphase) hdir fun n hn => ?_
  obtain ⟨i, hi, rfl⟩ := mem_seqs.mp hn
  exact (hqueue i hi).imp_left fun hold => mem_seqs.mpr ⟨i, hold, rfl⟩

theorem calm (h : Selects beside v) (hordered : Ordered v) (htally : Tally u .empty v)
    (hheld : beside → v.spill.batch.isSome = true) (hmove : Calm u drops beside v w) : Selects beside w := by
  cases hmove with
  | acceptFrame f =>
    refine h.accept hordered rfl rfl fun i hi => ?_
    rcases Evidence.mem_queue_acceptFrame.mp hi with hold | rfl
    · exact .inl hold
    · exact .inr (by show v.nextSeq < f.seq; omega)
  | acceptEvent e =>
    refine h.accept hordered rfl rfl fun i hi => ?_
    rcases Evidence.mem_queue_acceptEvent.mp hi with hold | rfl
    · exact .inl hold
    · exact .inr (by show v.nextSeq < e.seq; omega)
  | mark f m _ hmarks =>
    have hframe := hmarks.frame_seq
    have hmarker := hmarks.marker_seq
    refine h.accept hordered rfl rfl fun i hi => ?_
    rcases Evidence.mem_queue_markLoss.mp hi with hold | rfl | rfl
    · exact .inl hold
    · exact .inr (by show v.nextSeq < f.seq; omega)
    · exact .inr (by show v.nextSeq < m.seq; omega)
  | refuse isFrame =>
    cases isFrame
    · exact h.accept hordered rfl rfl fun _ => .inl
    · exact h.accept hordered rfl rfl fun _ => .inl
  | merge =>
    refine h.congr hordered (fun _ => id) rfl fun n hn => .inl ?_
    rwa [Evidence.queue_mergeLoss, seqs_setMetadata] at hn
  | take => exact h.accept hordered rfl rfl fun i hi => .inl (v.queue_takeChunk_subset u hi)
  | round _ _ hidle _ _ hturn =>
    cases hturn with
    | listing => exact of_other (by simp)
    | selecting hnone =>
      refine fun _ _ => .inr ⟨htally.files_eq_nil hnone, fun hbeside => ?_⟩
      have hsome := hheld hbeside
      rw [hidle] at hsome
      simp [SpillPhase.batch] at hsome
  | freeze | forget | spillNothing | violation | stopReturned =>
    exact h.accept hordered rfl rfl fun _ => .inl
  | _ => exact of_other (by simp)

theorem head (hrests : Rests s) (htally : Tally u .empty s.toEvidence) (hkeeps : KeepsOrder u s a)
    (hmove : Head u s a w) : Selects (s.sendsBeside a = true) w := by
  -- A round that comes to the queue while no spill holds a chunk sends nothing beside one.
  have halone : ∀ {b : Bool}, s.spill.batch = none → b = s.spill.batch.isSome → ¬ b = true := by
    rintro b hnone rfl hsome
    rw [hnone] at hsome
    simp at hsome
  cases hmove with
  | nothingListed hflush hnone =>
    intro c hphase
    cases hphase
    rcases hkeeps.listed _ _ rfl hflush hnone with hidle | hdue
    · refine .inr ⟨?_, halone hidle rfl⟩
      have hlisted := hkeeps.lists _ rfl
      rw [LinkSpoolStorage.firstPending, firstName_eq_none] at hnone
      refine eq_nil_iff_forall_not_mem.mpr fun g hg => ?_
      have hall : ∀ name ∈ s.spool.dir.files.map (·.name), _ := filter_eq_nil_iff.mp hnone
      exact hall g.name (mem_map_of_mem hg) (by simpa using hlisted g hg)
    · exact .inl hdue
  | chunkUnacked ack hflush hzero =>
    intro c hphase
    cases hphase
    exact .inl (hkeeps.unconfirmed ack _ _ _ rfl hflush hzero)
  | @chunkRemoved c name answer ok hflush =>
    intro c' hphase
    cases hphase
    rcases hkeeps.removed ok _ name answer rfl hflush with ⟨hidle, rfl, hall⟩ | hdue
    · refine .inr ⟨?_, halone hidle rfl⟩
      unfold LinkSpoolStorage.removeBatch
      split
      · refine eq_nil_iff_forall_not_mem.mpr fun g hg => ?_
        obtain ⟨hmem, hne⟩ := SpoolDir.mem_remove.mp hg
        exact hne (hall g hmem)
      · rename_i hnone
        refine eq_nil_iff_forall_not_mem.mpr fun g hg => ?_
        have hfound := SpoolDir.find?_eq_some.mpr ⟨hg, hall g hg⟩
        rw [hnone] at hfound
        simp at hfound
    · exact .inl hdue
  | @flushContinued c c' _ hflush hsame hturn =>
    cases hturn with
    | listing => exact of_other (by simp)
    | selecting hnone =>
      intro c' hphase
      cases hphase
      rcases hkeeps.continued c rfl hflush hnone with hidle | hdue
      · exact .inr ⟨htally.files_eq_nil hnone, halone hidle rfl⟩
      · refine .inl fun n hn => ?_
        rw [hsame]
        exact hdue n hn
  | chunkListed | chunkRead | chunkUnreadable | chunkAcked | flushSettled =>
    exact of_other (by simp)
  | _ => exact of_other hrests

end Selects

/-! ## A spill's chunk beside the round -/

theorem isSome_of_sendsBeside (h : s.sendsBeside a = true) : s.spill.batch.isSome = true := by
  cases a with
  | chunksListed | chunkAnswered | chunkRemoved | flushContinued => exact h
  | _ => simp [Recorder.sendsBeside] at h

theorem Head.spill_of_sendsBeside {w : Evidence} (h : Head u s a w) (hbeside : s.sendsBeside a = true) :
    w.spill = s.spill := by
  cases h with
  | spillEnsured | spillChecked | spillWritten | spillSettled =>
    simp [Recorder.sendsBeside] at hbeside
  | spillFailed _ hfails =>
    cases a with
    | spillEnsured | spillChecked | spillWritten =>
      simp [Recorder.sendsBeside] at hbeside
    | _ => simp [SpillFails] at hfails
  | flushContinued _ _ hturn => cases hturn <;> rfl
  | _ => rfl

theorem Calm.isSome_batch {beside : Prop} {w : Evidence} (h : Calm u drops beside v w)
    (hsome : v.spill.batch.isSome = true) : w.spill.batch.isSome = true := by
  cases h with
  | merge =>
    show (v.spill.setMetadata _).batch.isSome = true
    cases hspill : v.spill <;> simp_all [SpillPhase.setMetadata, SpillPhase.batch]
  | take => rfl
  | spillNothing hidle =>
    rw [hidle] at hsome
    simp [SpillPhase.batch] at hsome
  | refuse isFrame => cases isFrame <;> exact hsome
  | round _ _ _ _ _ hturn => cases hturn <;> exact hsome
  | _ => exact hsome

theorem run_ordered {clock : ℤ} {t : Recorder} {es : List Empty}
    (hrun : (recorder u).Reach (fun s _ a => KeepsOrder u s a) (.create clock { dir := .empty }) t es) :
    Ordered t.toEvidence := by
  have hall := hrun.invariant
    (fun s _ => Rests s ∧ Numbered s.toEvidence ∧ Tally u .empty s.toEvidence ∧ Ordered s.toEvidence)
    ⟨by simp [Rests, Recorder.create], .create clock _, .create clock, .create clock⟩ ?_
  · exact hall.2.2.2
  rintro s es a t fs ⟨hrests, hnumbered, htally, hordered⟩ hkeeps hstep
  obtain ⟨t', ht', hpair⟩ := Option.map_eq_some_iff.mp hstep
  cases hpair
  obtain ⟨w, hw, hcalmly⟩ := step_moves ht'
  have hheld : s.sendsBeside a = true → w.spill.batch.isSome = true := by
    intro hbeside
    rw [hw.spill_of_sendsBeside hbeside]
    exact isSome_of_sendsBeside hbeside
  refine ⟨rests_step hrests ht', ?_⟩
  have hcalm := hcalmly.preserves
    (I := fun v => (Numbered v ∧ Tally u .empty v ∧ Ordered v) ∧ Selects (s.sendsBeside a = true) v ∧
      (s.sendsBeside a = true → v.spill.batch.isSome = true)) ?_
    ⟨⟨hnumbered.head hw, htally.head (htally.listsAll a) hw, hordered.head hnumbered hkeeps hw⟩,
      .head hrests htally hkeeps hw, hheld⟩
  · exact hcalm.1
  rintro v w ⟨⟨hnumbered, htally, hordered⟩, hselects, hheld⟩ hmove
  exact ⟨⟨hnumbered.calm hmove, htally.calm hmove, hordered.calm hnumbered hselects hmove⟩,
    hselects.calm hordered htally hheld hmove, fun hbeside => hmove.isSome_batch (hheld hbeside)⟩

instance decidableSentInOrder : (sent : List ℕ) → (r : Report) → Decidable (SentInOrder sent r)
  | sent, .sent live b onDisk => inferInstanceAs (Decidable
      ((live = true → ∀ chunk ∈ onDisk, ∀ i ∈ chunk.items, ∀ j ∈ b.items, ¬ i.seq < j.seq) ∧
        ∀ j ∈ b.items, j.seq ∉ sent → ∀ n ∈ sent, n < j.seq))
  | _, .accepted _ | _, .refused _ | _, .marker _ | _, .acked _ _ | _, .spooled _ | _, .violation _
  | _, .stopReturned _ => .isTrue trivial

instance decidableDeliveryOrder (sent : List ℕ) (r : Report) : Decidable (deliveryOrder.Ok sent r) :=
  decidableSentInOrder sent r

/-- `NothingDue`, evaluated. -/
def nothingDue (v : Evidence) (c : Cycle) : Bool := (seqs v.queue).all fun n => c.upperSeq < n

/-- `KeepsOrder`, evaluated. -/
def keepsOrder (u : Setup) (s : Recorder) (a : Action) : Bool :=
  ((seqs s.spill.items).all fun m => (seqs s.queue).all fun n => m < n) && s.spoolBatchIndex < 10 ^ 8 &&
    match a, s.flush with
    | .chunksListed seen, p =>
      (s.spool.dir.files.all fun g => seen.contains g.name) &&
        match p, s.spool.firstPending seen with
        | .listing c, none => s.spill.batch.isNone || nothingDue s.toEvidence c
        | _, _ => true
    | .chunkAnswered (.ok ack), .sendingChunk c _ _ =>
      0 < ack.ackHighWatermarkSeq || nothingDue s.toEvidence c
    | .chunkRemoved ok, .removing c name _ =>
      (s.spill.batch.isNone && ok && s.spool.dir.files.all fun g => g.name = name) ||
        nothingDue s.toEvidence c
    | .flushContinued, .returned c (.health true) =>
      s.knowsChunks u || s.spill.batch.isNone || nothingDue s.toEvidence c
    | _, _ => true

theorem nothingDue_of (h : nothingDue v c = true) : NothingDue v c := by
  intro n hn
  have hall := all_eq_true.mp h n hn
  simpa using hall

theorem keepsOrder_of (h : keepsOrder u s a = true) : KeepsOrder u s a := by
  simp only [keepsOrder, and_eq_true, all_eq_true, decide_eq_true_eq] at h
  obtain ⟨⟨hspills, hnumbers⟩, hrest⟩ := h
  constructor
  case spills => exact hspills
  case numbers => exact hnumbers
  case lists =>
    rintro seen rfl g hg
    simp only [and_eq_true, all_eq_true] at hrest
    simpa using hrest.1 g hg
  case listed =>
    rintro seen c rfl hflush hnone
    simp only [hflush, hnone, and_eq_true, or_eq_true] at hrest
    exact hrest.2.imp (by simp) nothingDue_of
  case unconfirmed =>
    rintro ack c name b rfl hflush hzero
    simp only [hflush, or_eq_true, decide_eq_true_eq] at hrest
    exact nothingDue_of (hrest.resolve_left (by omega))
  case removed =>
    rintro ok c name answer rfl hflush
    simp only [hflush, and_eq_true, or_eq_true, all_eq_true, decide_eq_true_eq] at hrest
    refine hrest.imp (fun ⟨⟨hidle, hok⟩, hall⟩ => ⟨by simpa using hidle, hok, hall⟩) nothingDue_of
  case continued =>
    rintro c rfl hflush hnone
    simp only [hflush, hnone, Bool.false_or, or_eq_true] at hrest
    exact hrest.imp (by simp) nothingDue_of

/-- Two chunks are on disk when a flush begins, and a frame is pending. -/
def overtaking : List Action :=
  spilling ++ [.spillWritten true, .enqueueFrame (sampleFrame 2), .observeControlInput sampleMessage false,
    .spillEnsured true [], .spillChecked none, .spillWritten true, .enqueueFrame (sampleFrame 3), .timerFired,
    .chunksListed [spoolName 1, spoolName 2], .chunkRead true, .chunkAnswered (.ok (sampleAck 4)),
    .chunkRemoved true]

theorem overtaking_overtakes :
    ∃ r ∈ (recorder (sampleSetup "resilient")).exec (fun _ _ _ => true) sampleRecorder [] overtaking,
      ¬ deliveryOrder.Accepts r.1.log := by
  decide

/-- A batch of the queue overtakes a chunk with smaller numbers. -/
theorem live_batch_overtakes : ¬ ∀ (t : Recorder) (es : List Empty),
      (recorder (sampleSetup "resilient")).Reach (fun _ _ _ => True) sampleRecorder t es →
      deliveryOrder.Accepts t.log := by
  intro hclaim
  obtain ⟨⟨t, es⟩, hexec, hnot⟩ := overtaking_overtakes
  exact hnot (hclaim t es (Machine.reach_of_exec (fun _ _ _ _ => trivial) hexec))

/-- In every run of steps that keep the order, from an empty directory on, everything is sent in the order
of its numbers. -/
theorem delivered_in_order {u : Setup} {clock : ℤ} {t : Recorder} {es : List Empty}
    (hrun : (recorder u).Reach (fun s _ a => KeepsOrder u s a) (.create clock { dir := .empty }) t es) :
    deliveryOrder.Accepts t.log :=
  (run_ordered hrun).accepts

/-- One chunk is drained, and then a frame of the queue is sent. -/
def draining : List Action :=
  spilling ++ [.spillWritten true, .timerFired, .chunksListed [spoolName 1], .chunkRead true,
    .chunkAnswered (.ok (sampleAck 4)), .chunkRemoved true, .flushContinued, .flushSettled,
    .enqueueFrame (sampleFrame 2), .timerFired]

/-- The chunk comes before the frame. -/
theorem delivered_in_order_sample : ∃ t : Recorder, t.sent = [2, 3, 1, 4, 5] ∧ deliveryOrder.Accepts t.log := by
  have hdrained : ∃ r ∈ (recorder (sampleSetup "resilient")).exec
      (fun s _ a => keepsOrder (sampleSetup "resilient") s a) sampleRecorder [] draining,
      r.1.sent = [2, 3, 1, 4, 5] := by decide +kernel
  obtain ⟨⟨t, es⟩, hexec, hsent⟩ := hdrained
  have hrun : (recorder (sampleSetup "resilient")).Reach
      (fun s _ a => KeepsOrder (sampleSetup "resilient") s a) sampleRecorder t es :=
    Machine.reach_of_exec (fun _ _ _ => keepsOrder_of) hexec
  exact ⟨t, hsent, delivered_in_order hrun⟩

end LigamentApps.LinkHostRecorder
