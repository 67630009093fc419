import LigamentApps.LinkAgent.RecorderClient

/-!
# The chunks that the server has not answered

The ledger of a session: the chunks that were written and not yet answered. Each function of the client is
followed on the ledger and the directory: a drain takes chunks off both, `Flush` drains or writes one chunk
or leaves them alone, and `Complete` removes the directory. -/

namespace LigamentApps.LinkAgent

open List Option

namespace Recording

/-- A chunk of the ledger is on disk, under a name of its own. -/
structure Ledger (s : Recording) : Prop where
  onDisk : ∀ e ∈ s.unsent, s.disk.lookup e.1 = some (some e.2)
  distinct : (s.unsent.map Prod.fst).Nodup

/-- The directory, the ledger and the answered batches are the same. -/
structure SameSpool (s t : Recording) : Prop where
  cfg : t.client.cfg = s.client.cfg
  disk : t.disk = s.disk
  unsent : t.unsent = s.unsent
  answered : t.answered = s.answered

variable {s t : Recording}

theorem ledger_start (client : RecorderClient) (d : ChunkDir) : Ledger { client := client, disk := d } where
  onDisk := fun _ he => absurd he not_mem_nil
  distinct := nodup_nil

theorem Ledger.of_same (h : s.Ledger) (hdisk : t.disk = s.disk) (hunsent : t.unsent = s.unsent) : t.Ledger where
  onDisk := by
    rw [hunsent, hdisk]
    exact h.onDisk
  distinct := by
    rw [hunsent]
    exact h.distinct

theorem Ledger.spooled (h : s.Ledger) (hfresh : ∀ e ∈ s.unsent, e.1 ≠ chunkName (s.client.spoolIndex + 1))
    (now : ℤ) (b : IngestBatch) : (s.spooled now b).Ledger := by
  unfold Recording.spooled
  constructor
  · intro e he
    rcases mem_append.mp he with hold | hnew
    · let record : SpooledBatch := ⟨s.client.cfg.sessionID, s.client.spoolIndex + 1, now, b⟩
      have hlookup : (s.disk.writeBatch record).lookup e.1 = s.disk.lookup e.1 :=
        ChunkDir.lookup_writeBatch_of_ne (hfresh e hold)
      exact hlookup.trans (h.onDisk e hold)
    · obtain rfl := mem_singleton.mp hnew
      exact ChunkDir.lookup_writeBatch_self
  · rw [map_append]
    refine nodup_append.mpr ⟨h.distinct, nodup_singleton _, ?_⟩
    intro name hname other hother hsame
    obtain ⟨e, he, rfl⟩ := List.mem_map.mp hname
    rw [map_singleton, mem_singleton] at hother
    exact hfresh e he (hsame.trans hother)

theorem lookup_spooled {now : ℤ} {b : IngestBatch} {name : String} {content : Option SpooledBatch}
    (h : (s.spooled now b).disk.lookup name = some content) :
    (name ∈ [chunkName (s.client.spoolIndex + 1)] ∧ content.isSome = true) ∨
      (name ∉ [chunkName (s.client.spoolIndex + 1)] ∧ s.disk.lookup name = some content) := by
  let record : SpooledBatch := ⟨s.client.cfg.sessionID, s.client.spoolIndex + 1, now, b⟩
  have hwritten : (s.disk.writeBatch record).lookup name = some content := h
  by_cases hname : name = chunkName record.batchIndex
  · rw [hname, ChunkDir.lookup_writeBatch_self] at hwritten
    rw [← Option.some.inj hwritten]
    exact .inl ⟨mem_singleton.mpr hname, rfl⟩
  · rw [ChunkDir.lookup_writeBatch_of_ne hname] at hwritten
    exact .inr ⟨fun hmem => hname (mem_singleton.mp hmem), hwritten⟩

/-! ## Drains -/

theorem drainBatches_invariant (P : Recording → Prop) (o : DrainOutcomes) :
    ∀ (batches : List (String × SpooledBatch)),
      (∀ t, ∀ file ∈ batches, ∀ ack removed, P t → P ((t.noteAck ack).uploaded file.1 file.2 removed)) →
      ∀ s, P s → P (drainBatches o batches s).1
  | [], _, _, h => h
  | (name, record) :: batches, hstep, s, h => by
    unfold drainBatches
    split
    · split
      · rename_i ack _
        have huploaded := hstep s (name, record) (mem_cons_self ..) ack (o.removes name) h
        exact drainBatches_invariant P o batches (fun t file hfile => hstep t file (mem_cons_of_mem _ hfile)) _
          huploaded
      · exact h
    · exact h

theorem drainSpool_invariant (P : Recording → Prop) (o : DrainOutcomes)
    (hstep : ∀ t, ∀ file ∈ s.disk.readPendingBatches o.readable, ∀ ack removed, P t →
      P ((t.noteAck ack).uploaded file.1 file.2 removed)) (h : P s) : P (s.drainSpool o).1 := by
  unfold drainSpool
  split
  · split
    · exact drainBatches_invariant P o _ hstep s h
    · exact h
  · exact h

/-- Where a file is the chunk of the ledger under its name, if there is one. -/
def Agrees (s : Recording) (file : String × SpooledBatch) : Prop := ∀ e ∈ s.unsent, e.1 = file.1 → e.2 = file.2

theorem Ledger.agrees (h : s.Ledger) {readable : String → Bool} {file : String × SpooledBatch}
    (hfile : file ∈ s.disk.readPendingBatches readable) : s.Agrees file := by
  intro e he hname
  have hlookup := (ChunkDir.mem_readPendingBatches.mp hfile).2
  have hledger := h.onDisk e he
  rw [hname, hlookup] at hledger
  exact (Option.some.inj (Option.some.inj hledger)).symm

theorem Agrees.uploaded {file : String × SpooledBatch} (h : s.Agrees file) (ack : BatchACK) (name : String)
    (record : SpooledBatch) (removed : Bool) : ((s.noteAck ack).uploaded name record removed).Agrees file :=
  fun e he => h e (mem_of_mem_filter he)

theorem Ledger.uploaded (h : s.Ledger) (name : String) (record : SpooledBatch) (removed : Bool) :
    (s.uploaded name record removed).Ledger where
  onDisk := by
    intro e he
    obtain ⟨hmem, hname⟩ := mem_filter.mp he
    have hother : e.1 ≠ name := by simpa using hname
    exact (ChunkDir.lookup_removeBatch_of_ne hother).trans (h.onDisk e hmem)
  distinct := h.distinct.sublist (filter_sublist.map _)

theorem Ledger.drainSpool (h : s.Ledger) (o : DrainOutcomes) : (s.drainSpool o).1.Ledger :=
  drainSpool_invariant Ledger o (fun t file _ ack removed ht =>
    (ht.of_same (t := t.noteAck ack) rfl rfl).uploaded file.1 file.2 removed) h

/-- What a drain may change: it notes watermarks, and takes chunks off the disk and off the ledger that the
server has answered. -/
structure Drained (s t : Recording) : Prop where
  cfg : t.client.cfg = s.client.cfg
  pending : t.pending = s.pending
  disk : ∀ name content, t.disk.lookup name = some content → s.disk.lookup name = some content
  answered : ∀ b ∈ s.answered, b ∈ t.answered
  unsent : ∀ e ∈ t.unsent, e ∈ s.unsent

theorem Drained.refl (s : Recording) : Drained s s :=
  ⟨rfl, rfl, fun _ _ h => h, fun _ h => h, fun _ h => h⟩

theorem Drained.uploaded (h : Drained s t) (ack : BatchACK) (name : String) (record : SpooledBatch)
    (removed : Bool) : Drained s ((t.noteAck ack).uploaded name record removed) where
  cfg := h.cfg
  pending := h.pending
  disk := fun _ _ hlookup => h.disk _ _ (ChunkDir.lookup_of_removeBatch hlookup)
  answered := fun _ hb => mem_append_left _ (h.answered _ hb)
  unsent := fun _ he => h.unsent _ (mem_of_mem_filter he)

theorem drained_drainBatches (o : DrainOutcomes) (batches : List (String × SpooledBatch)) (s : Recording) :
    Drained s (drainBatches o batches s).1 :=
  drainBatches_invariant (Drained s) o batches (fun _ file _ ack removed h => h.uploaded ack file.1 file.2 removed) s
    (.refl s)

theorem drained_drainSpool (o : DrainOutcomes) : Drained s (s.drainSpool o).1 :=
  drainSpool_invariant (Drained s) o (fun _ file _ ack removed h => h.uploaded ack file.1 file.2 removed)
    (.refl s)

end Recording

/-- A chunk can be read when a drain comes to it, and the server answers it. -/
def DrainOutcomes.Uploads (o : DrainOutcomes) (cfg : RecorderClientConfig) (name : String) : Prop :=
  o.readable name = true ∧ o.alive name = true ∧ (Recording.postBatchHTTP cfg (o.posts name)).isSome = true

def DrainOutcomes.UploadsAll (o : DrainOutcomes) (cfg : RecorderClientConfig) (names : List String) : Prop :=
  o.lists = true ∧ ∀ name ∈ names, o.Uploads cfg name

namespace Recording

variable {s t : Recording}

/-- No chunk waits for the server: the ledger is empty, and what is on disk was answered. -/
structure Settled (s : Recording) : Prop where
  unsent : s.unsent = []
  answered : ∀ name content, s.disk.lookup name = some content →
    ∃ record, content = some record ∧ record.payload ∈ s.answered

theorem Settled.drained (h : s.Settled) (hdrained : Drained s t) : t.Settled where
  unsent := eq_nil_iff_forall_not_mem.mpr fun e he => by
    have hold := hdrained.unsent e he
    rw [h.unsent] at hold
    exact not_mem_nil hold
  answered := fun name content hlookup => by
    obtain ⟨record, hcontent, hanswered⟩ := h.answered name content (hdrained.disk name content hlookup)
    exact ⟨record, hcontent, hdrained.answered _ hanswered⟩

theorem Settled.of_same (h : s.Settled) (hsame : SameSpool s t) : t.Settled where
  unsent := hsame.unsent.trans h.unsent
  answered := by
    rw [hsame.disk, hsame.answered]
    exact h.answered

theorem drainBatches_uploadsAll (o : DrainOutcomes) (cfg : RecorderClientConfig) :
    ∀ (batches : List (String × SpooledBatch)) (s : Recording), s.client.cfg = cfg →
      (∀ file ∈ batches, o.Uploads cfg file.1) →
      ∀ file ∈ batches, file.2.payload ∈ (drainBatches o batches s).1.answered ∧
        ∀ e ∈ (drainBatches o batches s).1.unsent, e.1 ≠ file.1
  | [], _, _, _ => fun file hfile => absurd hfile not_mem_nil
  | (name, record) :: batches, s, hcfg, huploads => by
    obtain ⟨hreadable, halive, hpost⟩ := huploads (name, record) (mem_cons_self ..)
    obtain ⟨ack, hack⟩ := isSome_iff_exists.mp hpost
    have hstep : drainBatches o ((name, record) :: batches) s =
        drainBatches o batches ((s.noteAck ack).uploaded name record (o.removes name)) := by
      rw [drainBatches, if_pos halive, hcfg, hack]
    rw [hstep]
    have hrest := drained_drainBatches o batches ((s.noteAck ack).uploaded name record (o.removes name))
    intro file hfile
    rcases mem_cons.mp hfile with rfl | hlater
    · refine ⟨hrest.answered _ (mem_append_right _ (mem_singleton_self _)), fun e he hname => ?_⟩
      have hfiltered := (mem_filter.mp (hrest.unsent e he)).2
      exact absurd hname (by simpa using hfiltered)
    · exact drainBatches_uploadsAll o cfg batches ((s.noteAck ack).uploaded name record (o.removes name)) hcfg
        (fun file hfile => huploads file (mem_cons_of_mem _ hfile)) file hlater

theorem Ledger.settled_drainSpool (h : s.Ledger) {o : DrainOutcomes} (hspooler : s.client.cfg.spooler = true)
    (hdecodes : ∀ name content, s.disk.lookup name = some content → content.isSome = true)
    (huploads : o.UploadsAll s.client.cfg s.disk.keys) : (s.drainSpool o).1.Settled := by
  have hkeys : ∀ name content, s.disk.lookup name = some content → name ∈ s.disk.keys := fun name content hlookup =>
    AList.mem_keys.mpr (AList.lookup_isSome.mp (by rw [hlookup]; rfl))
  have hread : ∀ name record, s.disk.lookup name = some (some record) →
      (name, record) ∈ s.disk.readPendingBatches o.readable := fun name record hlookup =>
    ChunkDir.mem_readPendingBatches.mpr ⟨(huploads.2 name (hkeys name _ hlookup)).1, hlookup⟩
  have hstep : (s.drainSpool o).1 = (drainBatches o (s.disk.readPendingBatches o.readable) s).1 := by
    rw [Recording.drainSpool, if_pos hspooler, if_pos huploads.1]
  have hall := drainBatches_uploadsAll o s.client.cfg (s.disk.readPendingBatches o.readable) s rfl fun file hfile =>
    huploads.2 file.1 (hkeys file.1 _ (ChunkDir.mem_readPendingBatches.mp hfile).2)
  have hdrained := drained_drainBatches o (s.disk.readPendingBatches o.readable) s
  rw [hstep]
  constructor
  · refine eq_nil_iff_forall_not_mem.mpr fun e he => ?_
    have hlookup := h.onDisk e (hdrained.unsent e he)
    exact (hall (e.1, e.2) (hread e.1 e.2 hlookup)).2 e he rfl
  · intro name content hlookup
    have hbefore := hdrained.disk name content hlookup
    obtain ⟨record, rfl⟩ := isSome_iff_exists.mp (hdecodes name content hbefore)
    exact ⟨record, rfl, (hall (name, record) (hread name record hbefore)).1⟩

/-! ## `Flush` -/

theorem pending_eq_nil : s.pending = [] ↔ (s.client.pendingFrames.isEmpty &&
    s.client.pendingEvents.isEmpty) = true := by
  unfold pending itemsOf
  rw [append_eq_nil_iff, map_eq_nil_iff, map_eq_nil_iff, Bool.and_eq_true, List.isEmpty_iff,
    List.isEmpty_iff]

theorem flush_of_empty (h : s.pending = []) (o : FlushOutcomes) : s.flush o = s.flushEmpty o := by
  unfold flush
  rw [if_pos (pending_eq_nil.mp h)]

theorem flush_of_pending (h : s.pending ≠ []) (o : FlushOutcomes) :
    s.flush o = s.popped.sendBatch o s.nextBatch := by
  unfold flush
  rw [if_neg fun hempty => h (pending_eq_nil.mpr hempty)]

theorem same_flushEmpty (o : FlushOutcomes) : SameSpool (s.drainSpool o.drain).1 (s.flushEmpty o).1 := by
  unfold flushEmpty
  dsimp only
  split
  · exact ⟨rfl, rfl, rfl, rfl⟩
  · split
    · exact ⟨rfl, rfl, rfl, rfl⟩
    · exact ⟨rfl, rfl, rfl, rfl⟩

theorem drained_flushEmpty (o : FlushOutcomes) : Drained s (s.flushEmpty o).1 := by
  have hdrain : Drained s (s.drainSpool o.drain).1 := drained_drainSpool o.drain
  unfold flushEmpty
  dsimp only
  split
  · exact hdrain
  · split
    · exact ⟨hdrain.cfg, hdrain.pending, hdrain.disk, hdrain.answered, hdrain.unsent⟩
    · exact hdrain

/-- The client after the answer to its batch, before the drain. -/
def afterAnswer (s : Recording) (now : ℤ) (ack : BatchACK) : Recording :=
  (({ s.popped with client.lastAckAt := some now } : Recording).noteAck ack).answer s.nextBatch

theorem flush_of_answered {o : FlushOutcomes} (hpending : s.pending ≠ []) (hmarshals : o.marshals = true)
    {ack : BatchACK} (hack : postBatchHTTP s.client.cfg o.post = some ack) :
    s.flush o = (((s.afterAnswer o.now ack).drainSpool o.drain).1, none) := by
  have hack' : postBatchHTTP s.popped.client.cfg o.post = some ack := hack
  rw [flush_of_pending hpending, sendBatch, if_pos hmarshals, hack']
  rfl

theorem flush_of_spooled {o : FlushOutcomes} (hpending : s.pending ≠ []) (hmarshals : o.marshals = true)
    (hpost : postBatchHTTP s.client.cfg o.post = none) (hspooler : s.client.cfg.spooler = true)
    (hwrites : o.writes = true) : s.flush o = (s.popped.spooled o.now s.nextBatch, none) := by
  have hpost' : postBatchHTTP s.popped.client.cfg o.post = none := hpost
  have hspool : (s.popped.client.cfg.spooler && o.writes) = true := by
    rw [hwrites, Bool.and_true]
    exact hspooler
  rw [flush_of_pending hpending, sendBatch, if_pos hmarshals, hpost']
  rw [fallBack, if_pos hspool]

/-- `Flush` drains the directory: there is no batch, or the server answers it. -/
def DrainsIn (s : Recording) (o : FlushOutcomes) : Prop :=
  s.pending = [] ∨ o.marshals = true ∧ (postBatchHTTP s.client.cfg o.post).isSome = true

/-- `Flush` writes a chunk: the request with its batch fails. -/
def SpoolsIn (s : Recording) (o : FlushOutcomes) : Prop :=
  s.pending ≠ [] ∧ o.marshals = true ∧ postBatchHTTP s.client.cfg o.post = none ∧
    s.client.cfg.spooler = true ∧ o.writes = true

theorem flush_spool (s : Recording) (o : FlushOutcomes) :
    (s.DrainsIn o ∧ ∃ t : Recording, t.client.cfg = s.client.cfg ∧ t.disk = s.disk ∧ t.unsent = s.unsent ∧
        (∀ b ∈ s.answered, b ∈ t.answered) ∧ SameSpool (t.drainSpool o.drain).1 (s.flush o).1) ∨
      (s.SpoolsIn o ∧ s.flush o = (s.popped.spooled o.now s.nextBatch, none)) ∨
      (¬ s.DrainsIn o ∧ ¬ s.SpoolsIn o ∧ SameSpool s (s.flush o).1) := by
  by_cases hpending : s.pending = []
  · rw [flush_of_empty hpending]
    exact .inl ⟨.inl hpending, s, rfl, rfl, rfl, fun _ h => h, same_flushEmpty o⟩
  · cases hmarshals : o.marshals with
    | false =>
      have hno : o.marshals ≠ true := by rw [hmarshals]; exact Bool.false_ne_true
      refine .inr (.inr ⟨fun h => ?_, fun h => hno h.2.1, ?_⟩)
      · rcases h with hnone | ⟨hyes, -⟩
        · exact hpending hnone
        · exact hno hyes
      · rw [flush_of_pending hpending, sendBatch, if_neg hno]
        exact ⟨rfl, rfl, rfl, rfl⟩
    | true =>
      cases hpost : postBatchHTTP s.client.cfg o.post with
      | some ack =>
        have hanswered : s.DrainsIn o := .inr ⟨hmarshals, by rw [hpost]; rfl⟩
        rw [flush_of_answered hpending hmarshals hpost]
        exact .inl ⟨hanswered, s.afterAnswer o.now ack, rfl, rfl, rfl, fun _ h => mem_append_left _ h,
          rfl, rfl, rfl, rfl⟩
      | none =>
        by_cases hspool : s.client.cfg.spooler = true ∧ o.writes = true
        · rw [flush_of_spooled hpending hmarshals hpost hspool.1 hspool.2]
          exact .inr (.inl ⟨⟨hpending, hmarshals, hpost, hspool⟩, rfl⟩)
        · refine .inr (.inr ⟨fun h => ?_, fun h => hspool h.2.2.2, ?_⟩)
          · rcases h with hnone | ⟨-, hyes⟩
            · exact hpending hnone
            · rw [hpost] at hyes
              simp at hyes
          · have hpost' : postBatchHTTP s.popped.client.cfg o.post = none := hpost
            have hno : ¬ (s.popped.client.cfg.spooler && o.writes) = true := by
              rw [Bool.and_eq_true]
              exact hspool
            rw [flush_of_pending hpending, sendBatch, if_pos hmarshals, hpost']
            rw [fallBack, if_neg hno]
            exact ⟨rfl, rfl, rfl, rfl⟩

/-- The chunk that `Flush` writes is not one of the ledger. -/
def WritesFresh (s : Recording) (o : FlushOutcomes) : Prop :=
  s.SpoolsIn o → ∀ e ∈ s.unsent, e.1 ≠ chunkName (s.client.spoolIndex + 1)

theorem Ledger.flush (h : s.Ledger) {o : FlushOutcomes} (hfresh : s.WritesFresh o) : (s.flush o).1.Ledger := by
  rcases flush_spool s o with ⟨-, t, -, hdisk, hunsent, -, hsame⟩ | ⟨hspools, hflush⟩ | ⟨-, -, hsame⟩
  · exact ((h.of_same hdisk hunsent).drainSpool o.drain).of_same hsame.disk hsame.unsent
  · have hpopped : s.popped.Ledger := h.of_same rfl rfl
    rw [hflush]
    exact hpopped.spooled (hfresh hspools) o.now s.nextBatch
  · exact h.of_same hsame.disk hsame.unsent

theorem lookup_flush {o : FlushOutcomes} {name : String} {content : Option SpooledBatch}
    (h : (s.flush o).1.disk.lookup name = some content) :
    (s.SpoolsIn o ∧ name = chunkName (s.client.spoolIndex + 1) ∧ content.isSome = true) ∨
      (¬ (s.SpoolsIn o ∧ name = chunkName (s.client.spoolIndex + 1)) ∧ s.disk.lookup name = some content) := by
  rcases flush_spool s o with ⟨hdrains, t, -, hdisk, -, -, hsame⟩ | ⟨hspools, hflush⟩ | ⟨-, hnot, hsame⟩
  · rw [hsame.disk] at h
    have hbefore := (drained_drainSpool o.drain).disk name content h
    rw [hdisk] at hbefore
    refine .inr ⟨fun ⟨hspools, _⟩ => ?_, hbefore⟩
    rcases hdrains with hnone | ⟨-, hpost⟩
    · exact hspools.1 hnone
    · rw [hspools.2.2.1] at hpost
      simp at hpost
  · rw [hflush] at h
    rcases lookup_spooled h with ⟨hname, hcontent⟩ | ⟨hother, hbefore⟩
    · exact .inl ⟨hspools, mem_singleton.mp hname, hcontent⟩
    · exact .inr ⟨fun hnew => hother (mem_singleton.mpr hnew.2), hbefore⟩
  · rw [hsame.disk] at h
    exact .inr ⟨fun hspools => hnot hspools.1, h⟩

theorem cfg_flush (s : Recording) (o : FlushOutcomes) : (s.flush o).1.client.cfg = s.client.cfg := by
  rcases flush_spool s o with ⟨-, t, hcfg, -, -, -, hsame⟩ | ⟨-, hflush⟩ | ⟨-, -, hsame⟩
  · exact hsame.cfg.trans ((drained_drainSpool o.drain).cfg.trans hcfg)
  · rw [hflush]
    rfl
  · exact hsame.cfg

/-! ## `Complete` -/

/-- `Complete` uploads every chunk: all files are chunks, and either its `Flush` drains the directory and
uploads them, or the drain after it does, with the chunk that its `Flush` has written. -/
def EmptiesSpool (s : Recording) (o : CompleteOutcomes) : Prop :=
  (∀ file ∈ s.disk.entries, ¬ (s.SpoolsIn o.flush ∧ file.1 = chunkName (s.client.spoolIndex + 1)) →
      file.2.isSome = true) ∧
    ((s.DrainsIn o.flush ∧ o.flush.drain.UploadsAll s.client.cfg s.disk.keys) ∨
      (o.drain.UploadsAll s.client.cfg s.disk.keys ∧
        (s.SpoolsIn o.flush → o.drain.Uploads s.client.cfg (chunkName (s.client.spoolIndex + 1)))))

theorem Ledger.settled_flush (h : s.Ledger) {o : FlushOutcomes} (hspooler : s.client.cfg.spooler = true)
    (hdrains : s.DrainsIn o) (hdecodes : ∀ name content, s.disk.lookup name = some content → content.isSome = true)
    (huploads : o.drain.UploadsAll s.client.cfg s.disk.keys) : (s.flush o).1.Settled := by
  rcases flush_spool s o with ⟨-, t, hcfg, hdisk, hunsent, -, hsame⟩ | ⟨hspools, -⟩ | ⟨hnot, -, -⟩
  · have hledger : t.Ledger := h.of_same hdisk hunsent
    refine (hledger.settled_drainSpool (hcfg ▸ hspooler) ?_ ?_).of_same hsame
    · rw [hdisk]
      exact hdecodes
    · rw [hdisk, hcfg]
      exact huploads
  · rcases hdrains with hnone | ⟨-, hpost⟩
    · exact absurd hnone hspools.1
    · rw [hspools.2.2.1] at hpost
      simp at hpost
  · exact absurd hdrains hnot

theorem Ledger.lastUploads (h : s.Ledger) {o : CompleteOutcomes} (hfresh : s.WritesFresh o.flush) :
    (s.lastUploads o).Ledger := by
  have hclosed : Ledger { s with client.closed := true } := h.of_same rfl rfl
  exact (hclosed.flush hfresh).drainSpool o.drain

theorem Ledger.settled_lastUploads (h : s.Ledger) {o : CompleteOutcomes} (hfresh : s.WritesFresh o.flush)
    (hspooler : s.client.cfg.spooler = true) (hempties : s.EmptiesSpool o) : (s.lastUploads o).Settled := by
  let closed : Recording := { s with client.closed := true }
  have hclosed : closed.Ledger := h.of_same rfl rfl
  obtain ⟨hfiles, ⟨hdrains, huploads⟩ | ⟨huploads, hnew⟩⟩ := hempties
  · have hno : ¬ s.SpoolsIn o.flush := fun hspools => by
      rcases hdrains with hnone | ⟨-, hpost⟩
      · exact hspools.1 hnone
      · rw [hspools.2.2.1] at hpost
        simp at hpost
    have hdecodes : ∀ name content, s.disk.lookup name = some content → content.isSome = true :=
      fun name content hlookup => hfiles ⟨name, content⟩ (AList.mem_lookup_iff.mp hlookup) fun hn => hno hn.1
    have hsettled : (closed.flush o.flush).1.Settled := hclosed.settled_flush hspooler hdrains hdecodes huploads
    exact hsettled.drained (drained_drainSpool o.drain)
  · have hcfg : (closed.flush o.flush).1.client.cfg = s.client.cfg := cfg_flush closed o.flush
    have hledger : (closed.flush o.flush).1.Ledger := hclosed.flush hfresh
    refine hledger.settled_drainSpool (hcfg ▸ hspooler) ?_ ⟨huploads.1, fun name hname => ?_⟩
    · intro name content hlookup
      rcases lookup_flush hlookup with ⟨-, -, hdecodes⟩ | ⟨hold, hbefore⟩
      · exact hdecodes
      · exact hfiles ⟨name, content⟩ (AList.mem_lookup_iff.mp hbefore) hold
    · obtain ⟨content, hlookup⟩ := isSome_iff_exists.mp (AList.lookup_isSome.mpr (AList.mem_keys.mp hname))
      rw [hcfg]
      rcases lookup_flush hlookup with ⟨hspools, rfl, -⟩ | ⟨-, hbefore⟩
      · exact hnew hspools
      · have hfound : (s.disk.lookup name).isSome = true := by
          rw [show s.disk.lookup name = some content from hbefore]
          rfl
        exact huploads.2 name (AList.mem_keys.mpr (AList.lookup_isSome.mp hfound))

theorem Ledger.complete (h : s.Ledger) {o : CompleteOutcomes} (hfresh : s.WritesFresh o.flush)
    (hempties : o.response.isSome = true → s.client.cfg.spooler = true → s.EmptiesSpool o) :
    (s.complete o).Ledger := by
  unfold Recording.complete
  split
  · rename_i hresponse
    split
    · rename_i hspooler
      have hsettled := h.settled_lastUploads hfresh hspooler (hempties (by rw [hresponse]; rfl) hspooler)
      constructor
      · intro e he
        rw [hsettled.unsent] at he
        cases he
      · exact (h.lastUploads hfresh).distinct
    · exact h.lastUploads hfresh
  · exact h.lastUploads hfresh

end Recording

end LigamentApps.LinkAgent
