import LigamentApps.LinkHostRecorder.Selection
import LigamentApps.LinkHostRecorder.StepMoves

/-!
# Numbers and origins

What holds of every run of the recorder: every item in the queue, in the spill's hands and in a batch
that is being sent was accepted under a number of its own, the queue is ascending, and the spill holds
nothing that is pending. -/

namespace LigamentApps.LinkHostRecorder

open LinkHost List

def Accepted (v : Evidence) (i : Item) : Prop := .accepted i ∈ v.log

/-- An item is what an accepted item has become. -/
def Known (v : Evidence) (i : Item) : Prop := ∃ j, Accepted v j ∧ j.Later i

/-- An item, with a gap marker's new metadata. -/
def Item.setMetadata (m : Event) : Item → Item
  | .frame f => .frame f
  | .event e => .event (LinkHostRecorder.setMetadata m e)

def Item.isGapMarker : Item → Bool
  | .frame _ => false
  | .event e => e.isGapMarker

@[simp] theorem Item.seq_setMetadata (m : Event) (i : Item) : (i.setMetadata m).seq = i.seq := by
  cases i with
  | frame => rfl
  | event e =>
    show (LinkHostRecorder.setMetadata m e).seq = e.seq
    unfold LinkHostRecorder.setMetadata
    split <;> rfl

theorem Item.Later.isGapMarker_eq {i j : Item} (h : i.Later j) : j.isGapMarker = i.isGapMarker := by
  cases h with
  | refl | marker => rfl

theorem Item.later_setMetadata {m : Event} {i : Item} (h : i.seq = m.seq → i.isGapMarker = true) :
    i.Later (i.setMetadata m) := by
  cases i with
  | frame => exact .refl _
  | event e =>
    show (Item.event e).Later (.event (LinkHostRecorder.setMetadata m e))
    unfold LinkHostRecorder.setMetadata
    split
    · rename_i hseq
      exact .marker e m.metadata (h hseq)
    · exact .refl _

theorem SpillPhase.items_setMetadata (p : SpillPhase) (m : Event) :
    (p.setMetadata m).items = p.items.map (Item.setMetadata m) ∨
      (p.setMetadata m).items = p.items := by
  cases p with
  | ensuring _ b =>
    refine .inl ?_
    show b.frames.map Item.frame ++ (b.events.map _).map Item.event =
      (b.frames.map Item.frame ++ b.events.map Item.event).map _
    simp [Function.comp_def, Item.setMetadata]
  | _ => exact .inr rfl

theorem Evidence.queue_mergeLoss (v : Evidence) (m : Event) :
    (v.mergeLoss m).queue = v.queue.map (Item.setMetadata m) := by
  simp [Evidence.queue, Evidence.mergeLoss, Function.comp_def, Item.setMetadata]

section Known

variable {v w : Evidence} {i j : Item}

theorem Known.of_accepted (h : Accepted v i) : Known v i := ⟨i, h, .refl i⟩

theorem Known.mono (h : Known v i) (hacc : ∀ j, Accepted v j → Accepted w j) : Known w i := by
  obtain ⟨j, hj, hlater⟩ := h
  exact ⟨j, hacc j hj, hlater⟩

theorem Known.later (h : Known v i) (hlater : i.Later j) : Known v j := by
  obtain ⟨k, hk, hki⟩ := h
  exact ⟨k, hk, hki.trans hlater⟩

end Known

/-- What the numbers say in every run. -/
structure Numbered (v : Evidence) : Prop where
  bound : ∀ i, Accepted v i → i.seq ≤ v.nextSeq
  unique : ∀ i j, Accepted v i → Accepted v j → i.seq = j.seq → i = j
  queue : ∀ i ∈ v.queue, Known v i
  held : ∀ i ∈ v.spill.items, Known v i
  sending : ∀ c b t, v.flush = .sending c b t → ∀ i ∈ b.items, Known v i
  marker : ∀ m, v.gapMarker = some m → m.isGapMarker = true ∧ Known v (.event m)
  framesSorted : v.pendingFrames.Pairwise (·.seq < ·.seq)
  eventsSorted : v.pendingEvents.Pairwise (·.seq < ·.seq)
  heldApart : ∀ i ∈ v.spill.items, ∀ j ∈ v.queue, i.seq ≠ j.seq
  heldSome : ∀ b, v.spill.batch = some b → b.items ≠ []

namespace Numbered

variable {v w : Evidence} {i j : Item}

theorem seq_le (h : Numbered v) (hi : Known v i) : i.seq ≤ v.nextSeq := by
  obtain ⟨k, hk, hlater⟩ := hi
  rw [hlater.seq_eq]
  exact h.bound k hk

theorem common (h : Numbered v) (hi : Known v i) (hj : Known v j) (hseq : i.seq = j.seq) :
    ∃ k, Accepted v k ∧ k.Later i ∧ k.Later j := by
  obtain ⟨k, hk, hki⟩ := hi
  obtain ⟨l, hl, hlj⟩ := hj
  have hkl : k = l := h.unique k l hk hl (by rw [← hki.seq_eq, ← hlj.seq_eq, hseq])
  subst hkl
  exact ⟨k, hk, hki, hlj⟩

theorem eq_or_marker (h : Numbered v) (hi : Known v i) (hj : Known v j) (hseq : i.seq = j.seq) :
    i = j ∨ i.isGapMarker = true ∧ j.isGapMarker = true := by
  obtain ⟨k, _, hki, hkj⟩ := h.common hi hj hseq
  cases hki with
  | refl =>
    cases hkj with
    | refl => exact .inl rfl
    | marker _ _ he => exact .inr ⟨he, he⟩
  | marker _ _ he =>
    refine .inr ⟨he, ?_⟩
    rw [hkj.isGapMarker_eq]
    exact he

theorem frames_events_apart (h : Numbered v) : ∀ f ∈ v.pendingFrames, ∀ e ∈ v.pendingEvents, f.seq ≠ e.seq := by
  intro f hf e he hseq
  have hframe := h.queue (.frame f) (Evidence.frame_mem_queue.mpr hf)
  have hevent := h.queue (.event e) (Evidence.event_mem_queue.mpr he)
  rcases h.eq_or_marker hframe hevent hseq with heq | hmarker
  · simp at heq
  · exact absurd hmarker.1 (by simp [Item.isGapMarker])

theorem congr (h : Numbered v) (hacc : ∀ k, Accepted w k ↔ Accepted v k) (hnext : w.nextSeq = v.nextSeq)
    (hframes : w.pendingFrames.Sublist v.pendingFrames)
    (hevents : w.pendingEvents.Sublist v.pendingEvents)
    (hspill : ∀ b, w.spill.batch = some b → v.spill.batch = some b)
    (hsending : ∀ c b t, w.flush = .sending c b t →
      v.flush = .sending c b t ∨ ∀ i ∈ b.items, i ∈ v.queue)
    (hmarker : ∀ m, w.gapMarker = some m → v.gapMarker = some m) : Numbered w := by
  have hknown : ∀ {k}, Known v k → Known w k := fun hk => hk.mono fun j => (hacc j).mpr
  have hqueue : w.queue ⊆ v.queue := Evidence.queue_subset hframes.subset hevents.subset
  have hheld : ∀ k ∈ w.spill.items, k ∈ v.spill.items := by
    intro k hk
    unfold SpillPhase.items at hk ⊢
    split at hk
    · rename_i b hb
      rw [hspill b hb]
      exact hk
    · simp at hk
  constructor
  case bound =>
    intro k hk
    rw [hnext]
    exact h.bound k ((hacc k).mp hk)
  case unique => exact fun i j hi hj => h.unique i j ((hacc i).mp hi) ((hacc j).mp hj)
  case queue => exact fun k hk => hknown (h.queue k (hqueue hk))
  case held => exact fun k hk => hknown (h.held k (hheld k hk))
  case sending =>
    intro c b t hflush k hk
    rcases hsending c b t hflush with hold | hpending
    · exact hknown (h.sending c b t hold k hk)
    · exact hknown (h.queue k (hpending k hk))
  case marker =>
    intro m hm
    have hold := h.marker m (hmarker m hm)
    exact ⟨hold.1, hknown hold.2⟩
  case framesSorted => exact h.framesSorted.sublist hframes
  case eventsSorted => exact h.eventsSorted.sublist hevents
  case heldApart => exact fun i hi j hj => h.heldApart i (hheld i hi) j (hqueue hj)
  case heldSome => exact fun b hb => h.heldSome b (hspill b hb)

theorem accept_aux (h : Numbered v) (new : Item) (hseq : v.nextSeq < new.seq)
    (hacc : ∀ k, Accepted w k ↔ Accepted v k ∨ k = new) (hnext : w.nextSeq = new.seq)
    (hqueue : ∀ k, k ∈ w.queue ↔ k ∈ v.queue ∨ k = new) (hspill : w.spill = v.spill)
    (hflush : w.flush = v.flush)
    (hmarker : ∀ m, w.gapMarker = some m → v.gapMarker = some m ∨
      new = .event m ∧ m.isGapMarker = true)
    (hframes : w.pendingFrames.Pairwise (·.seq < ·.seq))
    (hevents : w.pendingEvents.Pairwise (·.seq < ·.seq)) : Numbered w := by
  have hknown : ∀ {k}, Known v k → Known w k := fun hk => hk.mono fun j hj => (hacc j).mpr (.inl hj)
  have hnew : Known w new := .of_accepted ((hacc new).mpr (.inr rfl))
  constructor
  case bound =>
    intro k hk
    rcases (hacc k).mp hk with hk | rfl
    · have hle := h.bound k hk
      omega
    · omega
  case unique =>
    intro i j hi hj hij
    rcases (hacc i).mp hi with hi | rfl <;> rcases (hacc j).mp hj with hj | rfl
    · exact h.unique i j hi hj hij
    · have hle := h.bound i hi
      omega
    · have hle := h.bound j hj
      omega
    · rfl
  case queue =>
    intro k hk
    rcases (hqueue k).mp hk with hk | rfl
    · exact hknown (h.queue k hk)
    · exact hnew
  case held =>
    rw [hspill]
    exact fun k hk => hknown (h.held k hk)
  case sending =>
    rw [hflush]
    exact fun c b t hsend k hk => hknown (h.sending c b t hsend k hk)
  case marker =>
    intro m hm
    rcases hmarker m hm with hold | ⟨rfl, hgap⟩
    · exact ⟨(h.marker m hold).1, hknown (h.marker m hold).2⟩
    · exact ⟨hgap, hnew⟩
  case framesSorted => exact hframes
  case eventsSorted => exact hevents
  case heldApart =>
    rw [hspill]
    intro i hi j hj
    rcases (hqueue j).mp hj with hj | rfl
    · exact h.heldApart i hi j hj
    · have hle := h.seq_le (h.held i hi)
      omega
  case heldSome =>
    rw [hspill]
    exact h.heldSome

theorem acceptFrame (h : Numbered v) {f : Frame} (hseq : f.seq = v.nextSeq + 1) : Numbered (v.acceptFrame f) := by
  refine h.accept_aux (.frame f) (by show v.nextSeq < f.seq; omega) ?_ hseq.symm ?_ rfl rfl
    (fun m hm => .inl hm) ?_ h.eventsSorted
  · simp [Accepted, Evidence.acceptFrame]
  · intro k
    cases k <;> simp [Evidence.acceptFrame]
  · refine pairwise_append.mpr ⟨h.framesSorted, pairwise_singleton .., fun g hg f' hf' => ?_⟩
    obtain rfl := mem_singleton.mp hf'
    have hle := h.seq_le (h.queue (.frame g) (Evidence.frame_mem_queue.mpr hg))
    have hle' : g.seq ≤ v.nextSeq := hle
    omega

theorem acceptEvent (h : Numbered v) {e : Event} (hseq : e.seq = v.nextSeq + 1)
    (hlog : ∀ k, Accepted w k ↔ Accepted v k ∨ k = .event e) (hnext : w.nextSeq = e.seq)
    (hframes : w.pendingFrames = v.pendingFrames) (hevents : w.pendingEvents = v.pendingEvents ++ [e])
    (hspill : w.spill = v.spill) (hflush : w.flush = v.flush)
    (hmarker : ∀ m, w.gapMarker = some m → v.gapMarker = some m ∨
      Item.event e = .event m ∧ m.isGapMarker = true) : Numbered w := by
  refine h.accept_aux (.event e) (by show v.nextSeq < e.seq; omega) hlog hnext ?_ hspill hflush
    hmarker (by rw [hframes]; exact h.framesSorted) ?_
  · intro k
    cases k <;> simp [hframes, hevents]
  · rw [hevents]
    refine pairwise_append.mpr ⟨h.eventsSorted, pairwise_singleton .., fun g hg e' he' => ?_⟩
    obtain rfl := mem_singleton.mp he'
    have hle := h.seq_le (h.queue (.event g) (Evidence.event_mem_queue.mpr hg))
    have hle' : g.seq ≤ v.nextSeq := hle
    omega

theorem markLoss (h : Numbered v) {f : Frame} {m : Event} (hmarks : MarksLoss v f m) :
    Numbered (v.markLoss f m) := by
  have hframe := h.acceptFrame hmarks.frame_seq
  have hseq : m.seq = (v.acceptFrame f).nextSeq + 1 := hmarks.marker_seq
  refine hframe.acceptEvent hseq ?_ hseq.symm rfl rfl rfl rfl fun m' hm' => ?_
  · intro k
    simp [Accepted, Evidence.acceptFrame, Evidence.markLoss, or_assoc]
  · cases hm'
    exact .inr ⟨rfl, hmarks.isGapMarker⟩

theorem isGapMarker_of_seq (h : Numbered v) {m : Event} (hm : v.gapMarker = some m) (hi : Known v i)
    (hseq : i.seq = m.seq) : i.isGapMarker = true := by
  obtain ⟨hgap, hknown⟩ := h.marker m hm
  rcases h.eq_or_marker hi hknown hseq with rfl | hboth
  · exact hgap
  · exact hboth.1

theorem later_merged (h : Numbered v) {previous : Event} (hm : v.gapMarker = some previous)
    (hi : Known v i) : i.Later (i.setMetadata (v.mergedMarker previous)) :=
  Item.later_setMetadata fun hseq => h.isGapMarker_of_seq hm hi hseq

/-- A merged marker keeps its number. -/
theorem mergeLoss (h : Numbered v) {previous : Event} (hm : v.gapMarker = some previous) :
    Numbered (v.mergeLoss (v.mergedMarker previous)) := by
  have hacc : ∀ k, Accepted (v.mergeLoss (v.mergedMarker previous)) k ↔ Accepted v k := by
    simp [Accepted, Evidence.mergeLoss]
  have hknown : ∀ {k}, Known v k → Known (v.mergeLoss (v.mergedMarker previous)) k := fun hk =>
    hk.mono fun j => (hacc j).mpr
  have hqueue := v.queue_mergeLoss (v.mergedMarker previous)
  -- Every item that the spill holds afterwards comes from one that it held before.
  have hheld : ∀ k ∈ (v.mergeLoss (v.mergedMarker previous)).spill.items, ∃ k' ∈ v.spill.items,
      k = k' ∨ k = k'.setMetadata (v.mergedMarker previous) := by
    intro k hk
    change k ∈ (v.spill.setMetadata (v.mergedMarker previous)).items at hk
    rcases v.spill.items_setMetadata (v.mergedMarker previous) with hmap | hsame
    · rw [hmap] at hk
      obtain ⟨k', hk', rfl⟩ := mem_map.mp hk
      exact ⟨k', hk', .inr rfl⟩
    · rw [hsame] at hk
      exact ⟨k, hk, .inl rfl⟩
  constructor
  case bound => exact fun k hk => h.bound k ((hacc k).mp hk)
  case unique => exact fun i j hi hj => h.unique i j ((hacc i).mp hi) ((hacc j).mp hj)
  case queue =>
    intro k hk
    rw [hqueue] at hk
    obtain ⟨k', hk', rfl⟩ := mem_map.mp hk
    have hold := h.queue k' hk'
    exact hknown (hold.later (h.later_merged hm hold))
  case held =>
    intro k hk
    obtain ⟨k', hk', rfl | rfl⟩ := hheld k hk
    · exact hknown (h.held k hk')
    · exact hknown ((h.held k' hk').later (h.later_merged hm (h.held k' hk')))
  case sending => exact fun c b t hflush k hk => hknown (h.sending c b t hflush k hk)
  case marker =>
    intro m hm'
    cases hm'
    obtain ⟨hgap, hold⟩ := h.marker previous hm
    exact ⟨hgap, hknown (hold.later (.marker previous _ hgap))⟩
  case framesSorted => exact h.framesSorted
  case eventsSorted =>
    refine pairwise_map.mpr (h.eventsSorted.imp fun {e e'} hlt => ?_)
    have hseq : ∀ e : Event, (setMetadata (v.mergedMarker previous) e).seq = e.seq := fun e => by
      unfold setMetadata
      split <;> rfl
    rw [hseq, hseq]
    exact hlt
  case heldApart =>
    intro i hi j hj
    rw [hqueue] at hj
    obtain ⟨j', hj', rfl⟩ := mem_map.mp hj
    rw [Item.seq_setMetadata]
    obtain ⟨i', hi', rfl | rfl⟩ := hheld i hi
    · exact h.heldApart i hi' j' hj'
    · rw [Item.seq_setMetadata]
      exact h.heldApart i' hi' j' hj'
  case heldSome =>
    intro b hb
    change (v.spill.setMetadata (v.mergedMarker previous)).batch = some b at hb
    cases hspill : v.spill with
    | ensuring _ b' =>
      rw [hspill] at hb
      cases hb
      have hne := h.heldSome b' (by rw [hspill]; rfl)
      simpa [Batch.items] using hne
    | _ =>
      rw [hspill] at hb
      exact h.heldSome b (by rw [hspill]; exact hb)

theorem ne_of_take_drop {α : Type} {seq : α → ℕ} {xs : List α} {n : ℕ}
    (hsorted : xs.Pairwise (seq · < seq ·)) {x y : α} (hx : x ∈ xs.take n) (hy : y ∈ xs.drop n) :
    seq x < seq y := by
  rw [← take_append_drop n xs] at hsorted
  exact (pairwise_append.mp hsorted).2.2 x hx y hy

theorem takeChunk (h : Numbered v) (u : Setup) (hne : v.queueEmpty = false) : Numbered (v.takeChunk u) := by
  have hheld : (v.takeChunk u).spill.items ⊆ v.queue := v.items_chunk_subset u
  constructor
  case bound => exact h.bound
  case unique => exact h.unique
  case queue => exact fun i hi => h.queue i (v.queue_takeChunk_subset u hi)
  case held => exact fun i hi => h.queue i (hheld hi)
  case sending => exact h.sending
  case marker => exact h.marker
  case framesSorted => exact h.framesSorted.sublist (drop_sublist ..)
  case eventsSorted => exact h.eventsSorted.sublist (drop_sublist ..)
  case heldApart =>
    intro i hi j hj
    have hapart := h.frames_events_apart
    change i ∈ (v.chunk u).items at hi
    cases i with
    | frame f =>
      have hf := Batch.frame_mem_items.mp hi
      cases j with
      | frame => exact (ne_of_take_drop h.framesSorted hf (Evidence.frame_mem_queue.mp hj)).ne
      | event e =>
        exact hapart f (mem_of_mem_take hf) e (mem_of_mem_drop (Evidence.event_mem_queue.mp hj))
    | event e =>
      have he := Batch.event_mem_items.mp hi
      cases j with
      | frame g =>
        exact (hapart g (mem_of_mem_drop (Evidence.frame_mem_queue.mp hj)) e
          (mem_of_mem_take he)).symm
      | event => exact (ne_of_take_drop h.eventsSorted he (Evidence.event_mem_queue.mp hj)).ne
  case heldSome =>
    intro b hb hnil
    cases hb
    have hempty : v.queueEmpty = true := by
      rw [Evidence.queueEmpty_iff]
      simpa [Batch.items, Evidence.chunk, Setup.batch, maxBatchFrames, maxBatchEvents] using hnil
    rw [hne] at hempty
    simp at hempty

theorem calm (h : Numbered v) {u : Setup} {drops beside : Prop} (hmove : Calm u drops beside v w) : Numbered w := by
  cases hmove with
  | acceptFrame _ hseq => exact h.acceptFrame hseq
  | acceptEvent _ hseq =>
    exact h.acceptEvent hseq (by simp [Accepted, Evidence.acceptEvent]) hseq.symm rfl rfl rfl rfl
      fun m hm => .inl hm
  | refuse isFrame =>
    cases isFrame <;>
      exact h.congr (by simp [Accepted, Evidence.refuse]) rfl (.refl _) (.refl _) (fun _ => id)
        (fun _ _ _ => .inl) (fun _ => id)
  | mark _ _ _ hmarks => exact h.markLoss hmarks
  | merge _ hm => exact h.mergeLoss hm
  | take _ hne => exact h.takeChunk u hne
  | violation | stopReturned =>
    exact h.congr (by simp [Accepted, Evidence.report]) rfl (.refl _) (.refl _) (fun _ => id)
      (fun _ _ _ => .inl) (fun _ => id)
  | forget =>
    exact h.congr (fun _ => .rfl) rfl (.refl _) (.refl _) (fun _ => id) (fun _ _ _ => .inl)
      (by simp)
  | spillNothing =>
    exact h.congr (fun _ => .rfl) rfl (.refl _) (.refl _) (fun _ hb => absurd hb (by simp [SpillPhase.batch]))
      (fun _ _ _ => .inl) (fun _ => id)
  | round _ _ _ _ _ hturn =>
    cases hturn <;>
      exact h.congr (fun _ => .rfl) rfl (.refl _) (.refl _) (fun _ => id)
        (by simp) (fun _ => id)
  | send =>
    refine h.congr (by simp [Accepted]) rfl (.refl _) (.refl _) (fun _ => id) ?_ (fun _ => id)
    intro c' b t hflush
    simp only [FlushPhase.sending.injEq] at hflush
    obtain ⟨-, rfl, -⟩ := hflush
    exact .inr fun i hi => (mem_liveBatch u hi).1
  | freeze =>
    exact h.congr (fun _ => .rfl) rfl (.refl _) (.refl _) (fun _ => id) (fun _ _ _ => .inl) (fun _ => id)
  | _ =>
    exact h.congr (fun _ => .rfl) rfl (.refl _) (.refl _) (fun _ => id)
      (by simp) (fun _ => id)

theorem head {u : Setup} {s : Recorder} (h : Numbered s.toEvidence) {a : Action}
    (hmove : Head u s a w) : Numbered w := by
  have hsame : ∀ {p : FlushPhase}, (∀ c b t, p ≠ .sending c b t) →
      ∀ c b t, p = .sending c b t → s.flush = .sending c b t ∨ ∀ i ∈ b.items, i ∈ s.queue :=
    fun hp c b t hflush => absurd hflush (hp c b t)
  cases hmove with
  | none => exact h
  | spillEnsured _ hspill | spillChecked _ hspill =>
    exact h.congr (fun _ => .rfl) rfl (.refl _) (.refl _) (fun _ hb => by rw [hspill]; exact hb)
      (fun _ _ _ => .inl) (fun _ => id)
  | spillWritten =>
    exact h.congr (by simp [Accepted]) rfl (.refl _) (.refl _)
      (fun _ hb => absurd hb (by simp [SpillPhase.batch])) (fun _ _ _ => .inl) (fun _ => id)
  | spillFailed | spillSettled =>
    exact h.congr (fun _ => .rfl) rfl (.refl _) (.refl _)
      (fun _ hb => absurd hb (by simp [SpillPhase.batch])) (fun _ _ _ => .inl) (fun _ => id)
  | liveUnsettled =>
    exact h.congr (by simp [Accepted, Evidence.report]) rfl (.refl _) (.refl _) (fun _ => id)
      (fun _ _ _ => .inl) (fun _ => id)
  | liveSettled =>
    exact h.congr (by simp [Accepted, Evidence.report, Evidence.removeAcked]) rfl filter_sublist
      filter_sublist (fun _ => id) (fun _ _ _ => .inl) (fun _ => id)
  | flushContinued _ _ hturn =>
    cases hturn <;>
      exact h.congr (fun _ => .rfl) rfl (.refl _) (.refl _) (fun _ => id) (hsame (by simp))
        (fun _ => id)
  | _ =>
    exact h.congr (by simp [Accepted]) rfl (.refl _) (.refl _) (fun _ => id) (hsame (by simp))
      (fun _ => id)

theorem create (clock : ℤ) (spool : LinkSpoolStorage) : Numbered (Recorder.create clock spool).toEvidence where
  bound := by simp [Accepted, Recorder.create]
  unique := by simp [Accepted, Recorder.create]
  queue := by simp [Recorder.create, Evidence.queue]
  held := by simp [Recorder.create, SpillPhase.items, SpillPhase.batch]
  sending := by simp [Recorder.create]
  marker := by simp [Recorder.create]
  framesSorted := .nil
  eventsSorted := .nil
  heldApart := by simp [Recorder.create, SpillPhase.items, SpillPhase.batch]
  heldSome := by simp [Recorder.create, SpillPhase.batch]

end Numbered

theorem Calmly.preserves {u : Setup} {drops beside : Prop} {I : Evidence → Prop} {v w : Evidence}
    (hcalm : ∀ v w, I v → Calm u drops beside v w → I w) (h : Calmly u drops beside v w) (hv : I v) : I w := by
  induction h with
  | refl => exact hv
  | tail _ hmove ih => exact hcalm _ _ ih hmove

theorem run_invariant {u : Setup} {Good : Recorder → List Empty → Action → Prop}
    (I : Evidence → Prop) {s₀ t : Recorder} {es : List Empty} (hstart : I s₀.toEvidence)
    (hhead : ∀ s es a w, I s.toEvidence → Good s es a → Head u s a w → I w)
    (hcalm : ∀ drops beside v w, I v → Calm u drops beside v w → I w)
    (hrun : (recorder u).Reach Good s₀ t es) : I t.toEvidence := by
  refine hrun.invariant (fun s _ => I s.toEvidence) hstart ?_
  intro s es a t fs hs hgood hstep
  obtain ⟨t', ht', hpair⟩ := Option.map_eq_some_iff.mp hstep
  cases hpair
  obtain ⟨w, hw, hcalmly⟩ := step_moves ht'
  exact hcalmly.preserves (hcalm _ _) (hhead s es a w hs hgood hw)

theorem run_numbered {u : Setup} {Good : Recorder → List Empty → Action → Prop} {clock : ℤ}
    {spool : LinkSpoolStorage} {t : Recorder} {es : List Empty}
    (hrun : (recorder u).Reach Good (.create clock spool) t es) : Numbered t.toEvidence :=
  run_invariant Numbered (.create clock spool) (fun _ _ _ _ h _ hmove => h.head hmove)
    (fun _ _ _ _ h hmove => h.calm hmove) hrun

/-- In every run each number is given once, and what is pending is in the order of the numbers. -/
theorem numbers_given_once (u : Setup) (clock : ℤ) (spool : LinkSpoolStorage) (as : List Action) :
    (recorder u).Every (fun s _ _ => Numbered s.toEvidence) (.create clock spool) [] as :=
  Machine.every_of_reach run_numbered as .start

end LigamentApps.LinkHostRecorder
