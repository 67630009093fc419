import LigamentApps.LinkHostRecorder.Numbering

/-!
# A failed spill

`_doSpillToSpool` takes the oldest items out of the queue before it writes them, and puts nothing back
when `writeBatch` fails: whatever the queue was, what a failed spill has taken is pending at no later
moment. -/

namespace LigamentApps.LinkHostRecorder

/-- What a spill took is pending again, as it must be when the queue is as it was before. -/
def Restored (b : Batch) (v : Evidence) : Prop := ∀ i ∈ b.items, ∃ j ∈ v.queue, j.seq = i.seq

/-- No item with a number that was given out is pending, or in the spill's hands. -/
structure Gone (seq : ℕ) (v : Evidence) : Prop where
  given : seq ≤ v.nextSeq
  notPending : ∀ j ∈ v.queue, j.seq ≠ seq
  notHeld : ∀ j ∈ v.spill.items, j.seq ≠ seq

namespace Gone

variable {seq : ℕ} {v w : Evidence}

theorem congr (h : Gone seq v) (hnext : v.nextSeq ≤ w.nextSeq)
    (hqueue : ∀ j ∈ w.queue, (∃ i ∈ v.queue, i.seq = j.seq) ∨ v.nextSeq < j.seq)
    (hheld : ∀ j ∈ w.spill.items, (∃ i ∈ v.spill.items, i.seq = j.seq) ∨ ∃ i ∈ v.queue, i.seq = j.seq) :
    Gone seq w := by
  have hgiven := h.given
  refine ⟨by omega, fun j hj hseq => ?_, fun j hj hseq => ?_⟩
  · rcases hqueue j hj with ⟨i, hi, hij⟩ | hnew
    · exact h.notPending i hi (hij.trans hseq)
    · omega
  · rcases hheld j hj with ⟨i, hi, hij⟩ | ⟨i, hi, hij⟩
    · exact h.notHeld i hi (hij.trans hseq)
    · exact h.notPending i hi (hij.trans hseq)

theorem shrink (h : Gone seq v) (hnext : w.nextSeq = v.nextSeq)
    (hframes : w.pendingFrames.Sublist v.pendingFrames)
    (hevents : w.pendingEvents.Sublist v.pendingEvents)
    (hheld : ∀ j ∈ w.spill.items, j ∈ v.spill.items) : Gone seq w := by
  have hqueue := Evidence.queue_subset hframes.subset hevents.subset
  exact h.congr hnext.ge (fun j hj => .inl ⟨j, hqueue hj, rfl⟩) fun j hj => .inl ⟨j, hheld j hj, rfl⟩

theorem mergeLoss (h : Gone seq v) (m : Event) : Gone seq (v.mergeLoss m) := by
  refine h.congr (le_refl _) (fun j hj => ?_) fun j hj => ?_
  · rw [Evidence.queue_mergeLoss] at hj
    obtain ⟨i, hi, rfl⟩ := List.mem_map.mp hj
    exact .inl ⟨i, hi, (Item.seq_setMetadata m i).symm⟩
  · change j ∈ (v.spill.setMetadata m).items at hj
    rcases v.spill.items_setMetadata m with hmap | hsame
    · rw [hmap] at hj
      obtain ⟨i, hi, rfl⟩ := List.mem_map.mp hj
      exact .inl ⟨i, hi, (Item.seq_setMetadata m i).symm⟩
    · rw [hsame] at hj
      exact .inl ⟨j, hj, rfl⟩

theorem takeChunk (h : Gone seq v) (u : Setup) : Gone seq (v.takeChunk u) :=
  h.congr (le_refl _) (fun j hj => .inl ⟨j, v.queue_takeChunk_subset u hj, rfl⟩)
    fun j hj => .inr ⟨j, v.items_chunk_subset u hj, rfl⟩

theorem calm (h : Gone seq v) {u : Setup} {drops beside : Prop} (hmove : Calm u drops beside v w) : Gone seq w := by
  cases hmove with
  | acceptFrame f =>
    refine h.congr (Nat.le_succ _) (fun j hj => ?_) fun j hj => .inl ⟨j, hj, rfl⟩
    rcases Evidence.mem_queue_acceptFrame.mp hj with hj | rfl
    · exact .inl ⟨j, hj, rfl⟩
    · exact .inr (by show v.nextSeq < f.seq; omega)
  | acceptEvent e =>
    refine h.congr (Nat.le_succ _) (fun j hj => ?_) fun j hj => .inl ⟨j, hj, rfl⟩
    rcases Evidence.mem_queue_acceptEvent.mp hj with hj | rfl
    · exact .inl ⟨j, hj, rfl⟩
    · exact .inr (by show v.nextSeq < e.seq; omega)
  | mark f m _ hmarks =>
    have hframe := hmarks.frame_seq
    have hmarker := hmarks.marker_seq
    refine h.congr (Nat.le_add_right _ 2) (fun j hj => ?_) fun j hj => .inl ⟨j, hj, rfl⟩
    rcases Evidence.mem_queue_markLoss.mp hj with hj | rfl | rfl
    · exact .inl ⟨j, hj, rfl⟩
    · exact .inr (by show v.nextSeq < f.seq; omega)
    · exact .inr (by show v.nextSeq < m.seq; omega)
  | refuse isFrame => cases isFrame <;> exact h.shrink rfl (.refl _) (.refl _) fun _ => id
  | merge => exact h.mergeLoss _
  | take => exact h.takeChunk u
  | spillNothing =>
    exact h.shrink rfl (.refl _) (.refl _) fun _ hj => absurd hj (by simp [SpillPhase.items, SpillPhase.batch])
  | round _ _ _ _ _ hturn => cases hturn <;> exact h.shrink rfl (.refl _) (.refl _) fun _ => id
  | _ => exact h.shrink rfl (.refl _) (.refl _) fun _ => id

theorem head {u : Setup} {s : Recorder} (h : Gone seq s.toEvidence) {a : Action}
    (hmove : Head u s a w) : Gone seq w := by
  cases hmove with
  | none => exact h
  | spillEnsured _ hspill | spillChecked _ hspill =>
    refine h.shrink rfl (.refl _) (.refl _) fun j hj => ?_
    rw [hspill]
    exact hj
  | spillWritten | spillFailed | spillSettled =>
    exact h.shrink rfl (.refl _) (.refl _) fun _ hj => absurd hj (by simp [SpillPhase.items, SpillPhase.batch])
  | liveSettled => exact h.shrink rfl List.filter_sublist List.filter_sublist fun _ => id
  | flushContinued _ _ hturn => cases hturn <;> exact h.shrink rfl (.refl _) (.refl _) fun _ => id
  | _ => exact h.shrink rfl (.refl _) (.refl _) fun _ => id

end Gone

theorem step_spillFails {u : Setup} {s t : Recorder} {a : Action} (hfails : SpillFails u s a)
    (h : step u s a = some t) :
    t.spill = .idle ∧ t.pendingFrames = s.pendingFrames ∧ t.pendingEvents = s.pendingEvents ∧
      t.nextSeq = s.nextSeq := by
  cases stepsTo h with
  | spillEnsured ok | spillWritten ok =>
    obtain rfl : ok = false := hfails
    exact ⟨rfl, rfl, rfl, rfl⟩
  | spillChecked free hchecking =>
    obtain ⟨index, b, hspill, hrefuses⟩ := hfails
    cases hchecking.symm.trans hspill
    unfold Recorder.spillChecked
    rw [if_pos hrefuses]
    unfold Recorder.triggerMandatoryStop
    split
    · exact ⟨rfl, rfl, rfl, rfl⟩
    split
    · rename_i hreason
      simp at hreason
    · exact ⟨rfl, rfl, rfl, rfl⟩
  | _ => exact hfails.elim

/-- A frame and the beginning of the session are pending when an event is refused: the spill takes them
with the gap marker. -/
def spilling : List Action :=
  [.start, .enqueueFrame (sampleFrame 1), .observeControlInput sampleMessage false,
    .spillEnsured true [], .spillChecked none]

theorem spilling_fails : ∃ r ∈ (recorder (sampleSetup "resilient")).exec (fun _ _ _ => true) sampleRecorder [] spilling,
      r.1.spill.items.map Item.seq = [2, 3, 1, 4] ∧
        ∃ t ∈ step (sampleSetup "resilient") r.1 (.spillWritten false), t.queueEmpty = true := by
  decide

/-- The queue after a failed spill is not what it was before. -/
theorem failed_spill_empties_queue : ¬ ∀ (s t : Recorder) (es : List Empty) (a : Action) (b : Batch),
      (recorder (sampleSetup "resilient")).Reach (fun _ _ _ => True) sampleRecorder s es →
      s.spill.batch = some b → SpillFails (sampleSetup "resilient") s a →
      step (sampleSetup "resilient") s a = some t → Restored b t.toEvidence := by
  intro hclaim
  obtain ⟨⟨s, es⟩, hexec, hitems, t, hstep, hempty⟩ := spilling_fails
  have hrun : (recorder (sampleSetup "resilient")).Reach (fun _ _ _ => True) sampleRecorder s es :=
    Machine.reach_of_exec (fun _ _ _ _ => trivial) hexec
  obtain ⟨b, hb⟩ : ∃ b, s.spill.batch = some b := by
    cases hbatch : s.spill.batch with
    | none => simp [SpillPhase.items, hbatch] at hitems
    | some b => exact ⟨b, rfl⟩
  have hitems' : b.items.map Item.seq = [2, 3, 1, 4] := by
    simpa [SpillPhase.items, hb] using hitems
  have hrestored := hclaim s t es (.spillWritten false) b hrun hb rfl hstep
  obtain ⟨i, hi⟩ : ∃ i, i ∈ b.items := List.exists_mem_of_ne_nil _ fun hnil => by
    simp [hnil] at hitems'
  obtain ⟨j, hj, _⟩ := hrestored i hi
  obtain ⟨hframes, hevents⟩ := Evidence.queueEmpty_iff.mp hempty
  simp [Evidence.queue, hframes, hevents] at hj

/-- In no run is what a failed spill has taken pending again, neither when the write has failed nor
later. -/
theorem failed_spill_restores_nothing {u : Setup} {clock : ℤ} {spool : LinkSpoolStorage}
    {s t t' : Recorder} {es fs : List Empty} {a : Action} {b : Batch}
    (hrun : (recorder u).Reach (fun _ _ _ => True) (.create clock spool) s es)
    (hheld : s.spill.batch = some b) (hfails : SpillFails u s a) (hstep : step u s a = some t)
    (hlater : (recorder u).Reach (fun _ _ _ => True) t t' fs) : ¬ Restored b t'.toEvidence := by
  have hnumbered := run_numbered hrun
  obtain ⟨i, hi⟩ := List.exists_mem_of_ne_nil _ (hnumbered.heldSome b hheld)
  have hitems : i ∈ s.spill.items := by
    unfold SpillPhase.items
    rw [hheld]
    exact hi
  obtain ⟨hidle, hframes, hevents, hnext⟩ := step_spillFails hfails hstep
  have hqueue : t.queue = s.queue := by
    unfold Evidence.queue
    rw [hframes, hevents]
  have hgone : Gone i.seq t.toEvidence := by
    refine ⟨?_, fun j hj => ?_, fun j hj => ?_⟩
    · rw [hnext]
      exact hnumbered.seq_le (hnumbered.held i hitems)
    · rw [hqueue] at hj
      exact (hnumbered.heldApart i hitems j hj).symm
    · rw [hidle] at hj
      simp [SpillPhase.items, SpillPhase.batch] at hj
  have hgone' : Gone i.seq t'.toEvidence :=
    run_invariant (Gone i.seq) hgone (fun _ _ _ _ h _ hmove => h.head hmove)
      (fun _ _ _ _ h hmove => h.calm hmove) hlater
  intro hrestored
  obtain ⟨j, hj, hseq⟩ := hrestored i hi
  exact hgone'.notPending j hj hseq

/-- The session of `spilling`: what the failed write took is not pending. -/
theorem failed_spill_restores_nothing_sample : ∃ (s t : Recorder) (b : Batch), s.spill.batch = some b ∧
      step (sampleSetup "resilient") s (.spillWritten false) = some t ∧ ¬ Restored b t.toEvidence := by
  obtain ⟨⟨s, es⟩, hexec, hitems, t, hstep, -⟩ := spilling_fails
  have hrun : (recorder (sampleSetup "resilient")).Reach (fun _ _ _ => True) sampleRecorder s es :=
    Machine.reach_of_exec (fun _ _ _ _ => trivial) hexec
  cases hb : s.spill.batch with
  | none => simp [SpillPhase.items, hb] at hitems
  | some b =>
    have hfails : SpillFails (sampleSetup "resilient") s (.spillWritten false) := rfl
    exact ⟨s, t, b, hb, hstep, failed_spill_restores_nothing hrun hb hfails hstep .start⟩

end LigamentApps.LinkHostRecorder
