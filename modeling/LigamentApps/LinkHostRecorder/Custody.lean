import LigamentApps.LinkHostRecorder.SpillFailure

/-!
# Where evidence is

What the recorder has accepted is pending, in the hands of a spill, in a chunk that the recorder has
written, or acknowledged, as long as the recorder deletes no chunk but one of which it was told that
everything in it has arrived. -/

namespace LigamentApps.LinkHostRecorder

open LinkHost List Bool

variable {s : Recorder} {a : Action} {u : Setup}

/-- The number of the chunk that the spill holds. -/
def SpillPhase.index : SpillPhase → Option ℕ
  | .ensuring batchIndex _ | .checking batchIndex _ | .writing batchIndex _ => some batchIndex
  | .idle | .settled => none

def Pending (v : Evidence) (j : Item) : Prop := ∃ i ∈ v.queue, j.Later i

/-- An accepted item is in the hands of a spill. -/
def Held (v : Evidence) (j : Item) : Prop := ∃ i ∈ v.spill.items, j.Later i

/-- An item was in a batch that was acknowledged at its number or above. -/
def Arrived (v : Evidence) (i : Item) : Prop :=
  ∃ b ack, .acked b ack ∈ v.log ∧ i ∈ b.items ∧ (i.seq : ℤ) ≤ ack.ackHighWatermarkSeq

/-- What an accepted item has become has arrived. -/
def Delivered (v : Evidence) (j : Item) : Prop := ∃ i, j.Later i ∧ Arrived v i

/-- An accepted item is in a chunk that the recorder has written under a number that it will not
use again. -/
def Stored (v : Evidence) (j : Item) : Prop :=
  ∃ n ≤ v.spoolBatchIndex, (∀ k, v.spill.index = some k → n < k) ∧
    ∃ g ∈ v.spool.dir.files, g.name = spoolName n ∧ ∃ b, g.content = some b ∧ ∃ i ∈ b.items, j.Later i

/-- An accepted item is somewhere. -/
def InCustody (v : Evidence) (j : Item) : Prop :=
  Pending v j ∨ Held v j ∨ Stored v j ∨ Delivered v j

/-- A chunk file may be deleted: what it holds of the recorder's own items was acknowledged, by the
answer to this very chunk and at their numbers or above. -/
def Deletable (v : Evidence) (name : String) (answer : Option (Batch × BatchAck)) : Prop :=
  ∀ g ∈ v.spool.dir.files, g.name = name → ∀ b, g.content = some b → ∀ i ∈ b.items, Known v i →
    ∃ ack, answer = some (b, ack) ∧ (i.seq : ℤ) ≤ ack.ackHighWatermarkSeq

/-- No write of a spill fails, and no chunk file is deleted that may not be. -/
structure Careful (u : Setup) (s : Recorder) (a : Action) : Prop where
  writes : ¬ SpillFails u s a
  deletes : a = .chunkRemoved true → ∀ c name answer, s.flush = .removing c name answer →
    Deletable s.toEvidence name answer

/-- Everything accepted is somewhere. -/
structure Custody (v : Evidence) : Prop where
  index : ∀ n, v.spill.index = some n → n = v.spoolBatchIndex
  answered : ∀ c name b ack, v.flush = .removing c name (some (b, ack)) → .acked b ack ∈ v.log
  kept : ∀ j, Accepted v j → InCustody v j

section InCustody

variable {v w : Evidence} {i j : Item}

theorem InCustody.of_pending (h : i ∈ v.queue) : InCustody v i := .inl ⟨i, h, .refl i⟩

theorem InCustody.of_held (h : i ∈ v.spill.items) : InCustody v i := .inr (.inl ⟨i, h, .refl i⟩)

theorem InCustody.earlier (hji : j.Later i) (h : InCustody v i) : InCustody v j := by
  rcases h with ⟨k, hk, hik⟩ | ⟨k, hk, hik⟩ | ⟨n, hn, hlt, g, hg, hname, b, hb, k, hk, hik⟩ |
    ⟨k, hik, harrived⟩
  · exact .inl ⟨k, hk, hji.trans hik⟩
  · exact .inr (.inl ⟨k, hk, hji.trans hik⟩)
  · exact .inr (.inr (.inl ⟨n, hn, hlt, g, hg, hname, b, hb, k, hk, hji.trans hik⟩))
  · exact .inr (.inr (.inr ⟨k, hji.trans hik, harrived⟩))

theorem Delivered.mono (h : Delivered v j) (hlog : v.log ⊆ w.log) : Delivered w j := by
  obtain ⟨i, hlater, b, ack, hacked, hitem⟩ := h
  exact ⟨i, hlater, b, ack, hlog hacked, hitem⟩

theorem Stored.mono (h : Stored v j) (hdir : w.spool.dir = v.spool.dir)
    (hnext : v.spoolBatchIndex ≤ w.spoolBatchIndex)
    (hindex : ∀ k, w.spill.index = some k → v.spill.index = some k ∨ v.spoolBatchIndex < k) :
    Stored w j := by
  obtain ⟨n, hn, hlt, g, hg, hfile⟩ := h
  refine ⟨n, hn.trans hnext, fun k hk => ?_, g, by rw [hdir]; exact hg, hfile⟩
  rcases hindex k hk with hsame | hnew
  · exact hlt k hsame
  · omega

end InCustody

namespace Custody

variable {u : Setup} {v w : Evidence}

theorem congr (h : Custody v) (hindex : ∀ n, w.spill.index = some n → n = w.spoolBatchIndex)
    (hflush : ∀ c name b ack, w.flush = .removing c name (some (b, ack)) →
      v.flush = .removing c name (some (b, ack)) ∨ .acked b ack ∈ w.log)
    (hlog : v.log ⊆ w.log) (hacc : ∀ j, Accepted w j → Accepted v j ∨ InCustody w j)
    (hqueue : ∀ i ∈ v.queue, InCustody w i) (hheld : ∀ i ∈ v.spill.items, InCustody w i)
    (hstored : ∀ j, Accepted v j → Stored v j → InCustody w j) : Custody w := by
  refine ⟨hindex, fun c name b ack hphase => ?_, fun j hj => ?_⟩
  · rcases hflush c name b ack hphase with hsame | hacked
    · exact hlog (h.answered c name b ack hsame)
    · exact hacked
  · rcases hacc j hj with hold | hnew
    · rcases h.kept j hold with ⟨i, hi, hji⟩ | ⟨i, hi, hji⟩ | hdisk | hdone
      · exact (hqueue i hi).earlier hji
      · exact (hheld i hi).earlier hji
      · exact hstored j hold hdisk
      · exact .inr (.inr (.inr (hdone.mono hlog)))
    · exact hnew

theorem frame (h : Custody v) (hindex : ∀ n, w.spill.index = some n → v.spill.index = some n)
    (hheld : v.spill.items ⊆ w.spill.items) (hdir : w.spool.dir = v.spool.dir)
    (hnext : w.spoolBatchIndex = v.spoolBatchIndex)
    (hflush : ∀ c name b ack, w.flush = .removing c name (some (b, ack)) →
      v.flush = .removing c name (some (b, ack)) ∨ .acked b ack ∈ w.log)
    (hlog : v.log ⊆ w.log) (hacc : ∀ j, Accepted w j → Accepted v j ∨ j ∈ w.queue)
    (hqueue : v.queue ⊆ w.queue) : Custody w := by
  refine h.congr ?_ hflush hlog (fun j hj => (hacc j hj).imp_right .of_pending)
    (fun i hi => .of_pending (hqueue hi)) (fun i hi => .of_held (hheld hi)) ?_
  · intro n hn
    rw [hnext]
    exact h.index n (hindex n hn)
  · intro j _ hdisk
    exact .inr (.inr (.inl (hdisk.mono hdir hnext.ge fun k hk => .inl (hindex k hk))))

theorem mergeLoss (h : Custody v) (hnumbered : Numbered v) {previous : Event}
    (hm : v.gapMarker = some previous) : Custody (v.mergeLoss (v.mergedMarker previous)) := by
  have hitems := v.spill.items_setMetadata (v.mergedMarker previous)
  have hindex : (v.spill.setMetadata (v.mergedMarker previous)).index = v.spill.index := by
    cases v.spill <;> rfl
  refine h.congr (fun n hn => h.index n (hindex ▸ hn)) (fun _ _ _ _ => .inl) (subset_append_left ..)
    (fun j hj => .inl ?_) (fun i hi => ?_) (fun i hi => ?_) fun j _ hdisk => ?_
  · simpa [Accepted, Evidence.mergeLoss] using hj
  · have hlater := hnumbered.later_merged hm (hnumbered.queue i hi)
    refine .earlier hlater (.of_pending ?_)
    rw [Evidence.queue_mergeLoss]
    exact mem_map_of_mem hi
  · have hlater := hnumbered.later_merged hm (hnumbered.held i hi)
    rcases hitems with hmap | hsame
    · refine .earlier hlater (.of_held ?_)
      show i.setMetadata _ ∈ (v.spill.setMetadata _).items
      rw [hmap]
      exact mem_map_of_mem hi
    · refine .of_held ?_
      show i ∈ (v.spill.setMetadata _).items
      rw [hsame]
      exact hi
  · exact .inr (.inr (.inl (hdisk.mono rfl (le_refl _) fun k hk => .inl (hindex ▸ hk))))

theorem takeChunk (h : Custody v) (hidle : v.spill = .idle) : Custody (v.takeChunk u) := by
  refine h.congr (fun n hn => (Option.some.inj hn).symm) (fun _ _ _ _ => .inl) (fun _ => id)
    (fun j hj => .inl hj) (fun i hi => ?_) (fun i hi => ?_) fun j _ hdisk => ?_
  · rcases v.mem_chunk_or_takeChunk u hi with htaken | hleft
    · exact .of_held htaken
    · exact .of_pending hleft
  · rw [hidle] at hi
    simp [SpillPhase.items, SpillPhase.batch] at hi
  · refine .inr (.inr (.inl (hdisk.mono rfl (Nat.le_succ _) fun k hk => .inr ?_)))
    cases hk
    exact Nat.lt_succ_self _

theorem calm (h : Custody v) (hnumbered : Numbered v)
    {drops beside : Prop} (hmove : Calm u drops beside v w) : Custody w := by
  have hsame : ∀ {p : FlushPhase}, (∀ c name b ack, p ≠ .removing c name (some (b, ack))) →
      ∀ c name b ack, p = .removing c name (some (b, ack)) →
        v.flush = .removing c name (some (b, ack)) ∨ .acked b ack ∈ v.log :=
    fun hp c name b ack hphase => absurd hphase (hp c name b ack)
  cases hmove with
  | acceptFrame =>
    refine h.frame (fun _ => id) (fun _ => id) rfl rfl (fun _ _ _ _ => .inl) (subset_append_left ..)
      (fun j hj => ?_)
      fun i hi => Evidence.mem_queue_acceptFrame.mpr (.inl hi)
    refine (mem_append.mp hj).imp_right fun hnew => Evidence.mem_queue_acceptFrame.mpr (.inr ?_)
    simpa using hnew
  | acceptEvent =>
    refine h.frame (fun _ => id) (fun _ => id) rfl rfl (fun _ _ _ _ => .inl) (subset_append_left ..)
      (fun j hj => ?_)
      fun i hi => Evidence.mem_queue_acceptEvent.mpr (.inl hi)
    refine (mem_append.mp hj).imp_right fun hnew => Evidence.mem_queue_acceptEvent.mpr (.inr ?_)
    simpa using hnew
  | mark =>
    refine h.frame (fun _ => id) (fun _ => id) rfl rfl (fun _ _ _ _ => .inl) (subset_append_left ..)
      (fun j hj => ?_)
      fun i hi => Evidence.mem_queue_markLoss.mpr (.inl hi)
    refine (mem_append.mp hj).imp_right fun hnew => Evidence.mem_queue_markLoss.mpr (.inr ?_)
    simpa using hnew
  | refuse isFrame =>
    cases isFrame <;>
      exact h.frame (fun _ => id) (fun _ => id) rfl rfl (fun _ _ _ _ => .inl)
        (subset_append_left ..)
        (fun j hj => .inl (by simpa [Accepted, Evidence.refuse] using hj)) (fun _ => id)
  | merge _ hm => exact h.mergeLoss hnumbered hm
  | take hidle => exact h.takeChunk hidle
  | spillNothing hidle =>
    refine h.frame (by simp [SpillPhase.index]) (fun i hi => ?_) rfl rfl (fun _ _ _ _ => .inl) (fun _ => id)
      (fun _ => .inl) (fun _ => id)
    rw [hidle] at hi
    simp [SpillPhase.items, SpillPhase.batch] at hi
  | violation | stopReturned =>
    exact h.frame (fun _ => id) (fun _ => id) rfl rfl (fun _ _ _ _ => .inl)
      (subset_append_left ..) (fun j hj => .inl (by simpa [Accepted, Evidence.report] using hj))
      (fun _ => id)
  | send =>
    exact h.frame (fun _ => id) (fun _ => id) rfl rfl (by simp)
      (subset_append_left ..) (fun j hj => .inl (by simpa [Accepted] using hj)) (fun _ => id)
  | freeze | forget =>
    exact h.frame (fun _ => id) (fun _ => id) rfl rfl (fun _ _ _ _ => .inl) (fun _ => id) (fun _ => .inl)
      (fun _ => id)
  | round _ _ _ _ _ hturn =>
    cases hturn <;>
      exact h.frame (fun _ => id) (fun _ => id) rfl rfl (hsame (by simp)) (fun _ => id) (fun _ => .inl)
        (fun _ => id)
  | _ => exact h.frame (fun _ => id) (fun _ => id) rfl rfl (hsame (by simp)) (fun _ => id) (fun _ => .inl) (fun _ => id)

theorem spillWritten {n length : ℕ} {b : Batch} (h : Custody v) (hspill : v.spill = .writing n b) :
    Custody { v with spool := v.spool.write n b length, spill := .idle, log := v.log ++ [.spooled b] } := by
  have hindex : n = v.spoolBatchIndex := h.index n (by rw [hspill]; rfl)
  refine h.congr (by simp [SpillPhase.index]) (fun _ _ _ _ => .inl) (subset_append_left ..)
    (fun j hj => .inl (by simpa [Accepted] using hj)) (fun i hi => .of_pending hi) (fun i hi => ?_)
    fun j _ hdisk => ?_
  · rw [hspill] at hi
    exact .inr (.inr (.inl ⟨n, hindex.le, by simp [SpillPhase.index],
      ⟨spoolName n, some b, length⟩, SpoolDir.mem_put.mpr (.inr rfl), rfl, b, rfl, i, hi, .refl i⟩))
  · -- The chunks written before have other names.
    obtain ⟨k, hk, hlt, g, hg, hname, hcontent⟩ := hdisk
    have hbefore : k < n := hlt n (by rw [hspill]; rfl)
    have hother : g.name ≠ spoolName n := by
      rw [hname]
      exact fun heq => hbefore.ne (spoolName_injective heq)
    exact .inr (.inr (.inl ⟨k, hk, by simp [SpillPhase.index], g, SpoolDir.mem_put.mpr (.inl ⟨hg, hother⟩),
      hname, hcontent⟩))

theorem chunkRemoved {c : Cycle} {name : String} {answer : Option (Batch × BatchAck)} {ok : Bool}
    {first : Bool} (h : Custody v) (hflush : v.flush = .removing c name answer)
    (hdeletable : ok = true → Deletable v name answer) :
    Custody { v with
      flush := .selecting c
      spool := v.spool.removeBatch name ok
      firstFrameAcked := first } := by
  refine h.congr h.index nofun (fun _ => id) (fun j hj => .inl hj)
    (fun i hi => .of_pending hi) (fun i hi => .of_held hi) fun j hj hdisk => ?_
  obtain ⟨n, hn, hlt, g, hg, hname, b, hb, i, hi, hji⟩ := hdisk
  by_cases hleft : g ∈ (v.spool.removeBatch name ok).dir.files
  · exact .inr (.inr (.inl ⟨n, hn, hlt, g, hleft, hname, b, hb, i, hi, hji⟩))
  · have hdeleted : ok = true ∧ g.name = name := by
      unfold LinkSpoolStorage.removeBatch at hleft
      split at hleft
      · split at hleft
        · refine ⟨‹_›, ?_⟩
          by_contra hne
          exact hleft (SpoolDir.mem_remove.mpr ⟨hg, hne⟩)
        · exact absurd hg hleft
      · exact absurd hg hleft
    obtain ⟨ack, rfl, hle⟩ := hdeletable hdeleted.1 g hg hdeleted.2 b hb i hi ⟨j, hj, hji⟩
    exact .inr (.inr (.inr ⟨i, hji, b, ack, h.answered c name b ack hflush, hi, hle⟩))

theorem liveSettled {c : Cycle} {b : Batch} {sentAt : ℕ} {ack : BatchAck} {first : Bool} (h : Custody v)
    (hnumbered : Numbered v) (hflush : v.flush = .sending c b sentAt) :
    Custody ({ v.report (.acked b ack) with firstFrameAcked := first }.removeAcked b
      ack.ackHighWatermarkSeq) := by
  refine h.congr h.index (fun _ _ _ _ hphase => absurd hphase (by simp [hflush, Evidence.report,
    Evidence.removeAcked]))
    (subset_append_left ..)
    (fun j hj => .inl (by simpa [Accepted, Evidence.report, Evidence.removeAcked] using hj))
    (fun i hi => ?_) (fun i hi => .of_held hi) fun j _ hdisk => ?_
  · -- An item of the batch with the number of a pending one is a state of the same accepted item.
    have hdelivered : ∀ i' ∈ b.items, i'.seq = i.seq → (i.seq : ℤ) ≤ ack.ackHighWatermarkSeq →
        Delivered ({ v.report (.acked b ack) with firstFrameAcked := first }.removeAcked b
          ack.ackHighWatermarkSeq) i := by
      intro i' hi' hseq hle
      obtain ⟨k, -, hki, hki'⟩ :=
        hnumbered.common (hnumbered.queue i hi) (hnumbered.sending c b sentAt hflush i' hi') hseq.symm
      refine ⟨i', hki.sibling hki', b, ack, mem_append_right _ (mem_singleton.mpr rfl), hi', ?_⟩
      rw [hseq]
      exact hle
    cases i with
    | frame f =>
      have hf := Evidence.frame_mem_queue.mp hi
      by_cases hsettled : Recorder.settles (b.frames.map (·.seq)) ack.ackHighWatermarkSeq f.seq = true
      · simp only [Recorder.settles, and_eq_true, contains_iff_mem, decide_eq_true_eq,
          mem_map] at hsettled
        obtain ⟨⟨f', hf', hseq⟩, hle⟩ := hsettled
        exact .inr (.inr (.inr (hdelivered (.frame f') (Batch.frame_mem_items.mpr hf') hseq hle)))
      · refine .of_pending (Evidence.frame_mem_queue.mpr (mem_filter.mpr ⟨hf, ?_⟩))
        simpa using hsettled
    | event e =>
      have he := Evidence.event_mem_queue.mp hi
      by_cases hsettled : Recorder.settles (b.events.map (·.seq)) ack.ackHighWatermarkSeq e.seq = true
      · simp only [Recorder.settles, and_eq_true, contains_iff_mem, decide_eq_true_eq,
          mem_map] at hsettled
        obtain ⟨⟨e', he', hseq⟩, hle⟩ := hsettled
        exact .inr (.inr (.inr (hdelivered (.event e') (Batch.event_mem_items.mpr he') hseq hle)))
      · refine .of_pending (Evidence.event_mem_queue.mpr (mem_filter.mpr ⟨he, ?_⟩))
        simpa using hsettled
  · exact .inr (.inr (.inl (hdisk.mono rfl (le_refl _) fun _ => .inl)))

/-- The head of a careful step keeps everything in custody. -/
theorem head (h : Custody s.toEvidence) (hnumbered : Numbered s.toEvidence) (hcareful : Careful u s a)
    (hmove : Head u s a w) : Custody w := by
  have hsame : ∀ {p : FlushPhase} {log : List Report},
      (∀ c name b ack, p = .removing c name (some (b, ack)) → .acked b ack ∈ log) →
      ∀ c name b ack, p = .removing c name (some (b, ack)) →
        s.flush = .removing c name (some (b, ack)) ∨ .acked b ack ∈ log :=
    fun hp c name b ack hphase => .inr (hp c name b ack hphase)
  cases hmove with
  | none => exact h
  | spillEnsured _ hspill =>
    refine h.frame (fun n hn => ?_) (fun i hi => ?_) (by simp) rfl (fun _ _ _ _ => .inl) (fun _ => id)
      (fun _ => .inl) (fun _ => id)
    · rw [hspill]
      exact hn
    · rw [hspill] at hi
      exact hi
  | spillChecked _ hspill =>
    refine h.frame (fun n hn => ?_) (fun i hi => ?_) rfl rfl (fun _ _ _ _ => .inl) (fun _ => id)
      (fun _ => .inl) (fun _ => id)
    · rw [hspill]
      exact hn
    · rw [hspill] at hi
      exact hi
  | spillWritten hspill => exact h.spillWritten hspill
  | spillFailed _ hfails => exact absurd hfails hcareful.writes
  | spillSettled hspill =>
    refine h.frame (by simp [SpillPhase.index]) (fun i hi => ?_) rfl rfl (fun _ _ _ _ => .inl)
      (fun _ => id) (fun _ => .inl) (fun _ => id)
    rw [hspill] at hi
    simp [SpillPhase.items, SpillPhase.batch] at hi
  | @chunkRemoved c name answer ok hflush =>
    refine h.chunkRemoved hflush fun hok => ?_
    subst hok
    exact hcareful.deletes rfl c name answer hflush
  | liveSettled _ hflush => exact h.liveSettled hnumbered hflush
  | liveUnsettled =>
    exact h.frame (fun _ => id) (fun _ => id) rfl rfl (fun _ _ _ _ => .inl) (subset_append_left ..)
      (fun j hj => .inl (by simpa [Accepted, Evidence.report] using hj)) (fun _ => id)
  | flushContinued _ _ hturn =>
    cases hturn <;>
      exact h.frame (fun _ => id) (fun _ => id) rfl rfl (hsame (by simp)) (fun _ => id) (fun _ => .inl)
        (fun _ => id)
  | chunkRead | chunkUnacked =>
    exact h.frame (fun _ => id) (fun _ => id) rfl rfl (hsame (by simp)) (subset_append_left ..)
      (fun j hj => .inl (by simpa [Accepted] using hj)) (fun _ => id)
  | chunkAcked =>
    refine h.frame (fun _ => id) (fun _ => id) rfl rfl (hsame ?_) (subset_append_left ..)
      (fun j hj => .inl (by simpa [Accepted] using hj)) (fun _ => id)
    intro c' name' b' ack' hphase
    simp only [FlushPhase.removing.injEq, Option.some.injEq, Prod.mk.injEq] at hphase
    obtain ⟨-, -, rfl, rfl⟩ := hphase
    exact mem_append_right _ (mem_singleton.mpr rfl)
  | _ =>
    exact h.frame (fun _ => id) (fun _ => id) rfl rfl (hsame (by simp)) (fun _ => id) (fun _ => .inl)
      (fun _ => id)

theorem create (clock : ℤ) (spool : LinkSpoolStorage) : Custody (Recorder.create clock spool).toEvidence where
  index := by simp [Recorder.create, SpillPhase.index]
  answered := by simp [Recorder.create]
  kept := by simp [Accepted, Recorder.create]

end Custody

theorem run_custody {clock : ℤ} {spool : LinkSpoolStorage} {t : Recorder} {es : List Empty}
    {Good : Recorder → List Empty → Action → Prop} (hgood : ∀ s es a, Good s es a → Careful u s a)
    (hrun : (recorder u).Reach Good (.create clock spool) t es) : Custody t.toEvidence := by
  have hboth := run_invariant (fun v => Numbered v ∧ Custody v)
    ⟨.create clock spool, .create clock spool⟩
    (fun s es a w h hstep hmove => ⟨h.1.head hmove, h.2.head h.1 (hgood s es a hstep) hmove⟩)
    (fun _ _ v w h hmove => ⟨h.1.calm hmove, h.2.calm h.1 hmove⟩) hrun
  exact hboth.2

/-! ## What is lost -/

/-- An item is pending, in a chunk on disk, or was acknowledged at its number or above. -/
def Present (v : Evidence) (i : Item) : Prop :=
  i ∈ v.queue ∨ (∃ b ∈ v.spool.dir.batches, i ∈ b.items) ∨ Arrived v i

/-- What an accepted item has become is present. -/
def Kept (v : Evidence) (j : Item) : Prop := ∃ i, j.Later i ∧ Present v i

/-- The counter of a gap marker that counts the loss of an item. -/
def lossCounter : Item → String
  | .frame _ => "dropped_frames"
  | .event _ => "dropped_events"

/-- The loss counter of the recorder that counts the loss of an item. -/
def Evidence.unpublished (v : Evidence) : Item → ℤ
  | .frame _ => v.droppedFrames
  | .event _ => v.droppedEvents

/-- The loss of an item is counted, by the recorder or by a gap marker that is present. -/
def CountedAsLost (v : Evidence) (j : Item) : Prop :=
  0 < v.unpublished j ∨
    ∃ m : Event, m.isGapMarker = true ∧ Present v (.event m) ∧ 0 < m.lossOf (lossCounter j)

theorem InCustody.kept {v : Evidence} {j : Item} (h : InCustody v j) (hheld : ¬ Held v j) : Kept v j := by
  rcases h with ⟨i, hi, hji⟩ | hnow | ⟨_, _, _, g, hg, _, b, hb, i, hi, hji⟩ |
    ⟨i, hji, harrived⟩
  · exact ⟨i, hji, .inl hi⟩
  · exact absurd hnow hheld
  · exact ⟨i, hji, .inr (.inl ⟨b, SpoolDir.mem_batches.mpr ⟨g, hg, hb⟩, hi⟩)⟩
  · exact ⟨i, hji, .inr (.inr harrived)⟩

/-- `SpillFails`, evaluated. -/
def spillFails (u : Setup) (s : Recorder) : Action → Bool
  | .spillEnsured ok _ => !ok
  | .spillChecked free =>
    match s.spill with
    | .checking _ b => s.spool.refusesWrite u.maxSpoolBytes u.minFreeDiskBytes free
        (LinkSpoolStorage.sealedLength u.doubleText b)
    | _ => false
  | .spillWritten ok => !ok
  | _ => false

theorem not_spillFails (h : (!spillFails u s a) = true) : ¬ SpillFails u s a := by
  intro hfails
  cases a with
  | spillEnsured ok | spillWritten ok =>
    obtain rfl : ok = false := hfails
    simp [spillFails] at h
  | spillChecked =>
    obtain ⟨index, b, hspill, hrefuses⟩ := hfails
    simp [spillFails, hspill, hrefuses] at h
  | _ => exact hfails

/-- A frame is spilled with a gap marker into one chunk, and the chunk is acknowledged up to the event
before the frame. -/
def drainingInPart : List Action :=
  spilling ++ [.spillWritten true, .timerFired, .chunksListed [spoolName 1], .chunkRead true,
    .chunkAnswered (.ok (sampleAck 1)), .chunkRemoved true]

theorem drainingInPart_loses : ∃ r ∈ (recorder (sampleSetup "resilient")).exec
        (fun s _ a => !spillFails (sampleSetup "resilient") s a) sampleRecorder [] drainingInPart,
      r.1.queueEmpty = true ∧ r.1.spool.dir.files.length = 0 ∧ r.1.droppedFrames = 0 ∧
        (r.1.log.all fun
          | .acked b ack => ack.ackHighWatermarkSeq = 1 &&
              b.events.all fun e => !e.isGapMarker || ack.ackHighWatermarkSeq < e.seq
          | _ => true) = true ∧
        (r.1.log.any fun
          | .accepted (.frame f) => f.seq = 2
          | _ => false) = true := by
  decide

/-- No write fails, and yet an accepted frame is lost without being counted. -/
theorem drained_frame_lost : ¬ ∀ (t : Recorder) (es : List Empty),
      (recorder (sampleSetup "resilient")).Reach
        (fun s _ a => ¬ SpillFails (sampleSetup "resilient") s a) sampleRecorder t es →
      ∀ j, Accepted t.toEvidence j → Kept t.toEvidence j ∨ CountedAsLost t.toEvidence j := by
  intro hclaim
  obtain ⟨⟨t, es⟩, hexec, hempty, hfiles, hframes, hacked, haccepted⟩ := drainingInPart_loses
  have hrun : (recorder (sampleSetup "resilient")).Reach
      (fun s _ a => ¬ SpillFails (sampleSetup "resilient") s a) sampleRecorder t es :=
    Machine.reach_of_exec (fun _ _ _ => not_spillFails) hexec
  obtain ⟨report, hreport, hmatch⟩ := any_eq_true.mp haccepted
  obtain ⟨f, rfl, hf⟩ : ∃ f : Frame, report = .accepted (.frame f) ∧ f.seq = 2 := by
    split at hmatch
    · exact ⟨_, rfl, by simpa using hmatch⟩
    · simp at hmatch
  -- Only what was acknowledged is present any more, and that is no gap marker.
  have hpresent : ∀ i, Present t.toEvidence i → i.isGapMarker = false ∧ i.seq ≤ 1 := by
    rintro i (hi | ⟨b, hb, -⟩ | ⟨b, ack, hlog, hi, hle⟩)
    · rw [Evidence.queue_eq_nil hempty] at hi
      simp at hi
    · obtain ⟨g, hg, -⟩ := SpoolDir.mem_batches.mp hb
      rw [eq_nil_of_length_eq_zero hfiles] at hg
      simp at hg
    · have hthis := all_eq_true.mp hacked _ hlog
      simp only [and_eq_true, decide_eq_true_eq, all_eq_true, or_eq_true,
        not_eq_true'] at hthis
      obtain ⟨hone, hmarkers⟩ := hthis
      refine ⟨?_, by omega⟩
      cases i with
      | frame => rfl
      | event e =>
        have hlt : ¬ ack.ackHighWatermarkSeq < (e.seq : ℤ) := Int.not_lt.mpr hle
        exact (hmarkers e (Batch.event_mem_items.mp hi)).resolve_right hlt
  rcases hclaim t es hrun (.frame f) hreport with ⟨i, hlater, hi⟩ | hpos | ⟨m, hm, hi, -⟩
  · obtain rfl := hlater.eq_of_frame
    have hle : f.seq ≤ 1 := (hpresent _ hi).2
    omega
  · have hnone : t.droppedFrames = 0 := hframes
    have hsome : 0 < t.droppedFrames := hpos
    omega
  · have hnone : m.isGapMarker = false := (hpresent _ hi).1
    rw [hm] at hnone
    simp at hnone

/-- In every run of careful steps every accepted item is kept, when it is not in the hands of a spill
that is writing it. -/
theorem evidence_kept {u : Setup} {clock : ℤ} {spool : LinkSpoolStorage} {t : Recorder} {es : List Empty}
    (hrun : (recorder u).Reach (fun s _ a => Careful u s a) (.create clock spool) t es) {j : Item}
    (hj : Accepted t.toEvidence j) (hheld : ¬ Held t.toEvidence j) :
    Kept t.toEvidence j ∨ CountedAsLost t.toEvidence j :=
  .inl (((run_custody (fun _ _ _ => id) hrun).kept j hj).kept hheld)

theorem careful_of_not_spillFails
    (h : (!spillFails u s a && !(match a with | .chunkRemoved _ => true | _ => false)) = true) :
    Careful u s a := by
  rw [and_eq_true] at h
  refine ⟨not_spillFails h.1, ?_⟩
  rintro rfl
  exact absurd h.2 (by simp)

/-- The frame is in a chunk when the spill is over. -/
theorem spilled_frame_kept : ∃ (t : Recorder) (j : Item), j.seq = 2 ∧ Accepted t.toEvidence j ∧
      t.queueEmpty = true ∧ (Kept t.toEvidence j ∨ CountedAsLost t.toEvidence j) := by
  have hspilled : ∃ r ∈ (recorder (sampleSetup "resilient")).exec
      (fun s _ a => !spillFails (sampleSetup "resilient") s a &&
        !(match a with | .chunkRemoved _ => true | _ => false))
      sampleRecorder [] (spilling ++ [.spillWritten true]),
      r.1.spill.items.length = 0 ∧ r.1.queueEmpty = true ∧ (r.1.log.any fun
        | .accepted i => i.seq = 2
        | _ => false) = true := by decide
  obtain ⟨⟨t, es⟩, hexec, hitems, hempty, haccepted⟩ := hspilled
  obtain ⟨report, hreport, hmatch⟩ := any_eq_true.mp haccepted
  obtain ⟨j, rfl, hj⟩ : ∃ j : Item, report = .accepted j ∧ j.seq = 2 := by
    split at hmatch
    · exact ⟨_, rfl, by simpa using hmatch⟩
    · simp at hmatch
  refine ⟨t, j, hj, hreport, hempty, ?_⟩
  have hrun : (recorder (sampleSetup "resilient")).Reach
      (fun s _ a => Careful (sampleSetup "resilient") s a) sampleRecorder t es :=
    Machine.reach_of_exec (fun _ _ _ => careful_of_not_spillFails) hexec
  refine evidence_kept hrun hreport ?_
  rintro ⟨i, hi, -⟩
  rw [eq_nil_of_length_eq_zero hitems] at hi
  simp at hi

end LigamentApps.LinkHostRecorder
