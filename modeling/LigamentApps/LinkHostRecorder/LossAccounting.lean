import LigamentApps.LinkHostRecorder.LossLedger
import LigamentApps.LinkHostRecorder.Reports
import LigamentApps.LinkHostRecorder.SpillFailure

/-!
# The accounting of lost evidence

The ledger counts every refusal exactly, as long as nothing is refused between the moment at which a
gap marker that may still change is encoded for a chunk and the moment at which it is frozen. -/

namespace LigamentApps.LinkHostRecorder

open LinkHost List Bool

variable {v w : Evidence} {e : Event} {b : Batch} {u : Setup}

def SpillPhase.encoded : SpillPhase → List Event
  | .checking _ b | .writing _ b => b.events
  | .idle | .settled | .ensuring _ _ => []

/-- The number up to which the flush cycle sends. -/
def FlushPhase.upperSeq : FlushPhase → Option ℕ
  | .listing c | .reading c _ | .sendingChunk c _ _ | .removing c _ _ | .selecting c | .sending c _ _
  | .returned c (.health true) => some c.upperSeq
  | _ => none

/-- The events of a chunk, by the report that it is on disk. -/
def Report.written : Report → List Event
  | .spooled b => b.events
  | _ => []

namespace Evidence

/-- The gap marker may still change, and is among some events. -/
def opensAmong (v : Evidence) (events : List Event) : Bool :=
  match v.gapMarker with
  | some m => !v.gapMarkerFrozen && events.any fun e => e.seq = m.seq
  | none => false

/-- The events that were written to chunks. -/
def spooledEvents (v : Evidence) : List Event := v.log.flatMap (·.written)

/-- The gap marker may still change, and a copy of it is encoded for a chunk or in a chunk. -/
def departed (v : Evidence) : Bool := v.opensAmong (v.spill.encoded ++ v.spooledEvents)

/-- No loss is unpublished. -/
def published (v : Evidence) : Prop := v.droppedFrames = 0 ∧ v.droppedEvents = 0

theorem opensAmong_iff {events : List Event} : v.opensAmong events = true ↔
      ∃ m, v.gapMarker = some m ∧ v.gapMarkerFrozen = false ∧ ∃ e ∈ events, e.seq = m.seq := by
  unfold opensAmong
  cases v.gapMarker <;> simp

end Evidence

/-- The refusals are below the saturation of their counters. -/
def Unsaturated (v : Evidence) : Prop :=
  (refusals true v.log : ℤ) ≤ maxLossCount ∧ (refusals false v.log : ℤ) ≤ maxLossCount

/-- While a copy of a gap marker that may still change has left, nothing is refused; and nothing that
was refused is unpublished when the copy is encoded. -/
structure KeepsBooks (u : Setup) (s : Recorder) (a : Action) : Prop where
  refuses : s.departed = true → s.recordsDrop u a = false
  encodes : ∀ ok seen index b, a = .spillEnsured ok seen → s.spill = .ensuring index b →
    s.opensAmong b.events = true → s.published

/-- What the recorder knows of its losses agrees with the ledger. -/
structure Balanced (v : Evidence) : Prop where
  exact : LossExact v
  distinct : Distinct (ledgerOf v.log)
  given : ∀ m ∈ contents (ledgerOf v.log), m.seq ≤ v.nextSeq
  countedFrames : ∀ m ∈ contents (ledgerOf v.log), 0 ≤ m.lossOf "dropped_frames"
  countedEvents : ∀ m ∈ contents (ledgerOf v.log), 0 ≤ m.lossOf "dropped_events"
  framesNonneg : 0 ≤ v.droppedFrames
  eventsNonneg : 0 ≤ v.droppedEvents
  marker : ∀ m, v.gapMarker = some m → m ∈ contents (ledgerOf v.log) ∧
    m.metadata = lossMetadata (m.lossOf "dropped_frames") (m.lossOf "dropped_events")
  queue : ∀ e, .event e ∈ v.queue → e.isGapMarker = true → e ∈ contents (ledgerOf v.log)
  held : ∀ e, .event e ∈ v.spill.items → e.isGapMarker = true → e ∈ contents (ledgerOf v.log)
  spooled : ∀ e ∈ v.spooledEvents, e.seq ≤ v.nextSeq
  cycle : ∀ n, v.flush.upperSeq = some n → n ≤ v.nextSeq ∧
    ∀ m, v.gapMarker = some m → v.gapMarkerFrozen = true ∨ n < m.seq
  left : ∀ x ∈ ledgerOf v.log, x.serialized = true → ∀ m, v.gapMarker = some m →
    m.seq = x.content.seq → v.gapMarkerFrozen = true ∨ ∃ e ∈ v.spooledEvents, e.seq = m.seq
  settled : v.departed = true → v.published

/-- A report that the ledger and the spool do not take notice of. -/
def Report.neutral : Report → Bool
  | .accepted _ | .sent false _ _ | .acked _ _ | .violation _ | .stopReturned _ => true
  | .refused _ | .marker _ | .sent true _ _ | .spooled _ => false

section Neutral

variable {log rs : List Report} {r : Report}

theorem entered_neutral (h : r.neutral = true) (ledger : List Entry) : entered ledger r = ledger := by
  cases r with
  | sent live =>
    cases live with
    | false => rfl
    | true => simp [Report.neutral] at h
  | refused => rfl
  | marker | spooled => simp [Report.neutral] at h
  | _ => rfl

theorem ledgerOf_neutral (h : rs.all (·.neutral) = true) : ledgerOf (log ++ rs) = ledgerOf log := by
  rw [ledgerOf_append]
  generalize ledgerOf log = ledger
  induction rs with
  | nil => rfl
  | cons _ _ ih =>
    simp only [all_cons, and_eq_true] at h
    rw [foldl_cons, entered_neutral h.1]
    exact ih h.2

theorem refusals_neutral (h : rs.all (·.neutral) = true) (isFrame : Bool) :
    refusals isFrame (log ++ rs) = refusals isFrame log := by
  rw [refusals_append, Nat.add_eq_left]
  refine countP_eq_zero.mpr fun r hr hrefuses => ?_
  have hneutral := all_eq_true.mp h r hr
  cases r with
  | refused => simp [Report.neutral] at hneutral
  | _ => simp [Report.refuses] at hrefuses

theorem spooledEvents_append (hlog : w.log = v.log ++ rs) :
    w.spooledEvents = v.spooledEvents ++ rs.flatMap (·.written) := by
  unfold Evidence.spooledEvents
  rw [hlog, flatMap_append]

theorem written_neutral (h : rs.all (·.neutral) = true) : rs.flatMap (·.written) = [] := by
  refine flatMap_eq_nil_iff.mpr fun r hr => ?_
  have hneutral := all_eq_true.mp h r hr
  cases r with
  | spooled => simp [Report.neutral] at hneutral
  | _ => rfl

end Neutral

/-- The ledger takes no notice of a move: it reports nothing that matters, loses nothing, and neither
makes nor changes a gap marker, nor lets a copy of one leave. -/
structure Unnoticed (v w : Evidence) : Prop where
  log : ∃ rs, w.log = v.log ++ rs ∧ rs.all (·.neutral) = true
  nextSeq : v.nextSeq ≤ w.nextSeq
  frames : w.droppedFrames = v.droppedFrames
  events : w.droppedEvents = v.droppedEvents
  marker : ∀ m, w.gapMarker = some m →
    v.gapMarker = some m ∧ (v.gapMarkerFrozen = true → w.gapMarkerFrozen = true)
  queue : ∀ e, .event e ∈ w.queue → e.isGapMarker = true → .event e ∈ v.queue
  held : ∀ e, .event e ∈ w.spill.items → e.isGapMarker = true →
    .event e ∈ v.spill.items ∨ .event e ∈ v.queue
  encoded : w.spill.encoded ⊆ v.spill.encoded
  cycle : ∀ n, w.flush.upperSeq = some n → v.flush.upperSeq = some n

namespace Unnoticed

variable {v w : Evidence}

theorem ledger (h : Unnoticed v w) : ledgerOf w.log = ledgerOf v.log := by
  obtain ⟨rs, hlog, hneutral⟩ := h.log
  rw [hlog]
  exact ledgerOf_neutral hneutral

theorem refusals (h : Unnoticed v w) (isFrame : Bool) :
    LinkHostRecorder.refusals isFrame w.log = LinkHostRecorder.refusals isFrame v.log := by
  obtain ⟨rs, hlog, hneutral⟩ := h.log
  rw [hlog]
  exact refusals_neutral hneutral isFrame

theorem spooledEvents (h : Unnoticed v w) : w.spooledEvents = v.spooledEvents := by
  obtain ⟨rs, hlog, hneutral⟩ := h.log
  rw [spooledEvents_append hlog, written_neutral hneutral, append_nil]

theorem of_log {rs : List Report} (hlog : w.log = v.log ++ rs) (hneutral : rs.all (·.neutral) = true)
    (hnext : w.nextSeq = v.nextSeq) (hframes : w.droppedFrames = v.droppedFrames)
    (hevents : w.droppedEvents = v.droppedEvents)
    (hmarker : w.gapMarker = v.gapMarker ∧ w.gapMarkerFrozen = v.gapMarkerFrozen)
    (hpendingEvents : w.pendingEvents.Sublist v.pendingEvents)
    (hspill : w.spill.items ⊆ v.spill.items ∧ w.spill.encoded ⊆ v.spill.encoded)
    (hcycle : ∀ n, w.flush.upperSeq = some n → v.flush.upperSeq = some n) : Unnoticed v w where
  log := ⟨rs, hlog, hneutral⟩
  nextSeq := hnext.ge
  frames := hframes
  events := hevents
  marker := fun _ hm => ⟨hmarker.1 ▸ hm, hmarker.2.trans⟩
  queue := fun _ he _ =>
    Evidence.event_mem_queue.mpr (hpendingEvents.subset (Evidence.event_mem_queue.mp he))
  held := fun _ he _ => .inl (hspill.1 he)
  encoded := hspill.2
  cycle := hcycle

end Unnoticed

namespace Balanced

variable {u : Setup} {v w : Evidence}

theorem of_contents (h : Balanced v) (hcontents : contents (ledgerOf w.log) = contents (ledgerOf v.log))
    (hexact : LossExact w) (hframes : 0 ≤ w.droppedFrames) (hevents : 0 ≤ w.droppedEvents)
    (hnext : v.nextSeq ≤ w.nextSeq)
    (hmarker : ∀ m, w.gapMarker = some m →
      v.gapMarker = some m ∧ (v.gapMarkerFrozen = true → w.gapMarkerFrozen = true))
    (hqueue : ∀ e, .event e ∈ w.queue → e.isGapMarker = true → .event e ∈ v.queue)
    (hheld : ∀ e, .event e ∈ w.spill.items → e.isGapMarker = true →
      .event e ∈ v.spill.items ∨ .event e ∈ v.queue)
    (hspooled : ∀ e ∈ w.spooledEvents, e ∈ v.spooledEvents ∨ e.seq ≤ v.nextSeq)
    (hcycle : ∀ n, w.flush.upperSeq = some n → v.flush.upperSeq = some n)
    (hleft : ∀ x ∈ ledgerOf w.log, x.serialized = true → ∀ m, w.gapMarker = some m →
      m.seq = x.content.seq → w.gapMarkerFrozen = true ∨ ∃ e ∈ w.spooledEvents, e.seq = m.seq)
    (hsettled : w.departed = true → w.published) : Balanced w := by
  constructor
  case exact => exact hexact
  case distinct => exact distinct_of_contents hcontents h.distinct
  case given =>
    rw [hcontents]
    exact fun m hm => (h.given m hm).trans hnext
  case countedFrames =>
    rw [hcontents]
    exact h.countedFrames
  case countedEvents =>
    rw [hcontents]
    exact h.countedEvents
  case framesNonneg => exact hframes
  case eventsNonneg => exact hevents
  case marker =>
    rw [hcontents]
    exact fun m hm => h.marker m (hmarker m hm).1
  case queue =>
    rw [hcontents]
    exact fun e he hgap => h.queue e (hqueue e he hgap) hgap
  case held =>
    rw [hcontents]
    intro e he hgap
    rcases hheld e he hgap with hold | hpending
    · exact h.held e hold hgap
    · exact h.queue e hpending hgap
  case spooled =>
    intro e he
    rcases hspooled e he with hold | hle
    · exact (h.spooled e hold).trans hnext
    · exact hle.trans hnext
  case cycle =>
    intro n hn
    obtain ⟨hle, hlater⟩ := h.cycle n (hcycle n hn)
    refine ⟨hle.trans hnext, fun m hm => ?_⟩
    obtain ⟨hm', hfrozen⟩ := hmarker m hm
    exact (hlater m hm').imp_left hfrozen
  case left => exact hleft
  case settled => exact hsettled

theorem departed_of (hmarker : ∀ m, w.gapMarker = some m →
      v.gapMarker = some m ∧ (v.gapMarkerFrozen = true → w.gapMarkerFrozen = true))
    (hcopies : w.spill.encoded ++ w.spooledEvents ⊆ v.spill.encoded ++ v.spooledEvents)
    (hdeparted : w.departed = true) : v.departed = true := by
  unfold Evidence.departed at *
  rw [Evidence.opensAmong_iff] at *
  obtain ⟨m, hm, hopen, e, he, hseq⟩ := hdeparted
  obtain ⟨hm', hfrozen⟩ := hmarker m hm
  refine ⟨m, hm', ?_, e, hcopies he, hseq⟩
  by_contra hnot
  rw [hfrozen (by simpa using hnot)] at hopen
  simp at hopen

theorem departed_of_unnoticed (hmove : Unnoticed v w) (hdeparted : w.departed = true) : v.departed = true := by
  refine departed_of hmove.marker ?_ hdeparted
  rw [hmove.spooledEvents]
  exact append_subset.mpr ⟨fun e he => mem_append_left _ (hmove.encoded he),
    subset_append_right ..⟩

theorem unnoticed (h : Balanced v) (hmove : Unnoticed v w) : Balanced w := by
  refine h.of_contents (by rw [hmove.ledger]) ?_ (by rw [hmove.frames]; exact h.framesNonneg)
    (by rw [hmove.events]; exact h.eventsNonneg) hmove.nextSeq hmove.marker hmove.queue hmove.held
    (fun e he => .inl (by rwa [← hmove.spooledEvents])) hmove.cycle ?_ ?_
  · constructor
    · rw [hmove.ledger, hmove.frames, hmove.refusals]
      exact h.exact.frames
    · rw [hmove.ledger, hmove.events, hmove.refusals]
      exact h.exact.events
  · rw [hmove.ledger, hmove.spooledEvents]
    intro x hx hserialized m hm hseq
    obtain ⟨hm', hfrozen⟩ := hmove.marker m hm
    exact (h.left x hx hserialized m hm' hseq).imp_left hfrozen
  · intro hgone
    obtain ⟨hzero, hzero'⟩ := h.settled (departed_of_unnoticed hmove hgone)
    exact ⟨hmove.frames.trans hzero, hmove.events.trans hzero'⟩

theorem dropped_le (h : Balanced v) :
    v.droppedFrames ≤ refusals true v.log ∧ v.droppedEvents ≤ refusals false v.log := by
  have hframes := h.exact.frames
  have hevents := h.exact.events
  have hframesSum := lossSum_nonneg h.countedFrames
  have heventsSum := lossSum_nonneg h.countedEvents
  constructor <;> omega

theorem departed_refuse (isFrame : Bool) : (v.refuse isFrame).departed = v.departed := by
  have hspooled : (v.refuse isFrame).spooledEvents = v.spooledEvents := by
    have hlog : (v.refuse isFrame).log = v.log ++ [Report.refused isFrame] := by cases isFrame <;> rfl
    rw [spooledEvents_append hlog]
    exact append_nil _
  unfold Evidence.departed
  rw [hspooled]
  cases isFrame <;> rfl

theorem refuse (h : Balanced v) {isFrame : Bool} (hbelow : Unsaturated (v.refuse isFrame))
    (hhere : v.departed = false) : Balanced (v.refuse isFrame) := by
  have hframes := h.exact.frames
  have hevents := h.exact.events
  obtain ⟨hframesLe, heventsLe⟩ := h.dropped_le
  have hframesNonneg := h.framesNonneg
  have heventsNonneg := h.eventsNonneg
  have hlog : (v.refuse isFrame).log = v.log ++ [Report.refused isFrame] := by cases isFrame <;> rfl
  have hledger : ledgerOf (v.refuse isFrame).log = ledgerOf v.log := by
    rw [hlog, ledgerOf_append]
    rfl
  have hspooled : (v.refuse isFrame).spooledEvents = v.spooledEvents := by
    rw [spooledEvents_append hlog]
    exact append_nil _
  have hcount : (refusals isFrame (v.refuse isFrame).log : ℤ) = refusals isFrame v.log + 1 := by
    rw [hlog, refusals_append]
    cases isFrame <;> rfl
  have hother : refusals (!isFrame) (v.refuse isFrame).log = refusals (!isFrame) v.log := by
    rw [hlog, refusals_append]
    cases isFrame <;> rfl
  obtain ⟨hmaxFrames, hmaxEvents⟩ := hbelow
  have hexact : LossExact (v.refuse isFrame) ∧ 0 ≤ (v.refuse isFrame).droppedFrames ∧
      0 ≤ (v.refuse isFrame).droppedEvents := by
    cases isFrame with
    | true =>
      have hlost : (v.refuse true).droppedFrames = v.droppedFrames + 1 :=
        addLoss_eq (by omega) (by omega)
      have hsame : (v.refuse true).droppedEvents = v.droppedEvents := rfl
      refine ⟨⟨?_, ?_⟩, by omega, by omega⟩
      · rw [hledger, hlost]
        omega
      · rw [hledger, hsame]
        exact (congrArg Nat.cast hother).trans hevents
    | false =>
      have hlost : (v.refuse false).droppedEvents = v.droppedEvents + 1 :=
        addLoss_eq (by omega) (by omega)
      have hsame : (v.refuse false).droppedFrames = v.droppedFrames := rfl
      refine ⟨⟨?_, ?_⟩, by omega, by omega⟩
      · rw [hledger, hsame]
        exact (congrArg Nat.cast hother).trans hframes
      · rw [hledger, hlost]
        omega
  refine h.of_contents (by rw [hledger]) hexact.1 hexact.2.1 hexact.2.2 ?_ ?_ ?_ ?_
    (fun e he => .inl (by rwa [← hspooled])) ?_ ?_ ?_
  · cases isFrame <;> exact le_refl _
  · cases isFrame <;> exact fun m hm => ⟨hm, id⟩
  · cases isFrame <;> exact fun _ he _ => he
  · cases isFrame <;> exact fun _ he _ => .inl he
  · cases isFrame <;> exact fun _ => id
  · rw [hledger, hspooled]
    cases isFrame <;> exact h.left
  · intro hgone
    rw [departed_refuse, hhere] at hgone
    simp at hgone

/-- A marker takes the pending losses over: they are counted in it from now on. -/
theorem markLoss (h : Balanced v) (hbelow : Unsaturated v) {f : Frame} {m : Event}
    (hmarks : MarksLoss v f m) : Balanced (v.markLoss f m) := by
  have hframes := h.exact.frames
  have hevents := h.exact.events
  obtain ⟨hframesLe, heventsLe⟩ := h.dropped_le
  have hframesNonneg := h.framesNonneg
  have heventsNonneg := h.eventsNonneg
  obtain ⟨hmaxFrames, hmaxEvents⟩ := hbelow
  have hseq := hmarks.marker_seq
  have hlostFrames : m.lossOf "dropped_frames" = v.droppedFrames := by
    rw [lossOf_frames hmarks.metadata, addLoss_eq (by omega) (by omega), add_zero]
  have hlostEvents : m.lossOf "dropped_events" = v.droppedEvents := by
    rw [lossOf_events hmarks.metadata, addLoss_eq (by omega) (by omega), add_zero]
  have hlog : (v.markLoss f m).log = v.log ++ [Report.accepted (.frame f), .accepted (.event m), .marker m] := rfl
  have hledger : ledgerOf (v.markLoss f m).log = ledgerOf v.log ++ [⟨m, false⟩] := by
    rw [hlog, ledgerOf_append]
    refine enter_new fun x hx heq => ?_
    have hle := h.given x.content (mem_map_of_mem hx)
    omega
  have hcontents : contents (ledgerOf (v.markLoss f m).log) = contents (ledgerOf v.log) ++ [m] := by
    rw [hledger]
    simp [contents]
  -- nothing goes to the spool here, so the new marker is the only change of the sums
  have hspooled : (v.markLoss f m).spooledEvents = v.spooledEvents := by
    rw [spooledEvents_append hlog]
    exact append_nil _
  constructor
  case exact =>
    constructor
    · have hsum : lossSum "dropped_frames" (ledgerOf (v.markLoss f m).log) =
          lossSum "dropped_frames" (ledgerOf v.log) + v.droppedFrames := by
        simp [lossSum, hcontents, hlostFrames]
      rw [hsum, hlog, refusals_append]
      show ((refusals true v.log + 0 : ℕ) : ℤ) = _ + 0
      omega
    · have hsum : lossSum "dropped_events" (ledgerOf (v.markLoss f m).log) =
          lossSum "dropped_events" (ledgerOf v.log) + v.droppedEvents := by
        simp [lossSum, hcontents, hlostEvents]
      rw [hsum, hlog, refusals_append]
      show ((refusals false v.log + 0 : ℕ) : ℤ) = _ + 0
      omega
  case distinct =>
    unfold Distinct
    rw [hcontents, map_append]
    refine List.Nodup.append h.distinct (by simp) fun n hn hm => ?_
    obtain ⟨c, hc, rfl⟩ := mem_map.mp hn
    have hle := h.given c hc
    have heq : c.seq = m.seq := by simpa using hm
    omega
  case given =>
    rw [hcontents]
    intro c hc
    show c.seq ≤ v.nextSeq + 2
    rcases mem_append.mp hc with hc | hc
    · have hle := h.given c hc
      omega
    · obtain rfl := mem_singleton.mp hc
      omega
  case countedFrames =>
    rw [hcontents]
    intro c hc
    rcases mem_append.mp hc with hc | hc
    · exact h.countedFrames c hc
    · obtain rfl := mem_singleton.mp hc
      omega
  case countedEvents =>
    rw [hcontents]
    intro c hc
    rcases mem_append.mp hc with hc | hc
    · exact h.countedEvents c hc
    · obtain rfl := mem_singleton.mp hc
      omega
  case framesNonneg => exact le_refl _
  case eventsNonneg => exact le_refl _
  case marker =>
    rw [hcontents]
    intro m' hm'
    cases hm'
    refine ⟨mem_append_right _ (mem_singleton.mpr rfl), ?_⟩
    rw [lossOf_frames hmarks.metadata, lossOf_events hmarks.metadata]
    exact hmarks.metadata
  case queue =>
    rw [hcontents]
    intro e he hgap
    rcases Evidence.mem_queue_markLoss.mp he with he | he | he
    · exact mem_append_left _ (h.queue e he hgap)
    · simp at he
    · cases he
      exact mem_append_right _ (mem_singleton.mpr rfl)
  case held =>
    rw [hcontents]
    exact fun e he hgap => mem_append_left _ (h.held e he hgap)
  case spooled =>
    rw [hspooled]
    exact fun e he => (h.spooled e he).trans (Nat.le_add_right _ 2)
  case cycle =>
    intro n hn
    have hle := (h.cycle n hn).1
    refine ⟨hle.trans (Nat.le_add_right _ 2), fun m' hm' => .inr ?_⟩
    cases hm'
    omega
  case left =>
    rw [hledger]
    intro x hx hserialized m' hm' heq
    cases hm'
    rcases mem_append.mp hx with hx | hx
    · have hle := h.given x.content (mem_map_of_mem hx)
      omega
    · obtain rfl := mem_singleton.mp hx
      simp at hserialized
  case settled => exact fun _ => ⟨rfl, rfl⟩

theorem merged_same_or_open (h : Balanced v) (hbelow : Unsaturated v) {p : Event}
    (hm : v.gapMarker = some p) (hopen : v.gapMarkerFrozen = false) :
    (v.departed = true → v.mergedMarker p = p) ∧
      (v.departed = false → ∀ x ∈ ledgerOf v.log, x.content.seq = p.seq → x.serialized = false) := by
  constructor
  · intro hdeparted
    obtain ⟨hnoFrames, hnoEvents⟩ := h.settled hdeparted
    obtain ⟨hp, hmetadata⟩ := h.marker p hm
    have hframesLe := lossOf_le_lossSum h.countedFrames hp
    have heventsLe := lossOf_le_lossSum h.countedEvents hp
    have hframesNonneg := h.countedFrames p hp
    have heventsNonneg := h.countedEvents p hp
    have hframes := h.exact.frames
    have hevents := h.exact.events
    obtain ⟨hmaxFrames, hmaxEvents⟩ := hbelow
    unfold Evidence.mergedMarker
    rw [hnoFrames, hnoEvents, addLoss_eq (by omega) (by omega), addLoss_eq (by omega) (by omega), zero_add,
      zero_add, ← hmetadata]
  · intro hhere x hx hseq
    by_contra hserialized
    rcases h.left x hx (by simpa using hserialized) p hm hseq.symm with hfrozen | ⟨e, he, heq⟩
    · rw [hopen] at hfrozen
      simp at hfrozen
    · have hdeparted : v.departed = true :=
        Evidence.opensAmong_iff.mpr ⟨p, hm, hopen, e, mem_append_right _ he, heq⟩
      rw [hhere] at hdeparted
      simp at hdeparted

section Merge

variable {p : Event}

theorem lossOf_mergedMarker (h : Balanced v) (hbelow : Unsaturated v) (hm : v.gapMarker = some p) :
    (v.mergedMarker p).lossOf "dropped_frames" = v.droppedFrames + p.lossOf "dropped_frames" ∧
      (v.mergedMarker p).lossOf "dropped_events" = v.droppedEvents + p.lossOf "dropped_events" := by
  obtain ⟨hp, -⟩ := h.marker p hm
  have hframesLe := lossOf_le_lossSum h.countedFrames hp
  have heventsLe := lossOf_le_lossSum h.countedEvents hp
  have hframesNonneg := h.countedFrames p hp
  have heventsNonneg := h.countedEvents p hp
  have hframes := h.exact.frames
  have hevents := h.exact.events
  have hdroppedFrames := h.framesNonneg
  have hdroppedEvents := h.eventsNonneg
  obtain ⟨hmaxFrames, hmaxEvents⟩ := hbelow
  rw [← addLoss_eq (by omega) (by omega),
    ← addLoss_eq (by omega) (by omega)]
  exact ⟨lossOf_frames rfl, lossOf_events rfl⟩

theorem ledgerOf_mergeLoss : ledgerOf (v.mergeLoss (v.mergedMarker p)).log =
    enter (v.mergedMarker p) (ledgerOf v.log) := by
  show ledgerOf (v.log ++ [Report.marker (v.mergedMarker p)]) = _
  rw [ledgerOf_append]
  rfl

theorem contents_mergeLoss (h : Balanced v) (hbelow : Unsaturated v) (hm : v.gapMarker = some p)
    (hopen : v.gapMarkerFrozen = false) :
    contents (ledgerOf (v.mergeLoss (v.mergedMarker p)).log) =
      (contents (ledgerOf v.log)).map fun c => if c.seq = p.seq then v.mergedMarker p else c := by
  obtain ⟨hsame, hentry⟩ := h.merged_same_or_open hbelow hm hopen
  rw [ledgerOf_mergeLoss]
  refine contents_merge h.distinct (h.marker p hm).1 rfl ?_
  cases hdeparted : v.departed with
  | true => exact .inl (hsame hdeparted)
  | false => exact .inr (hentry hdeparted)

theorem setMetadata_mem_mergeLoss (h : Balanced v) (hbelow : Unsaturated v) (hm : v.gapMarker = some p)
    (hopen : v.gapMarkerFrozen = false) (he : e ∈ contents (ledgerOf v.log)) :
    setMetadata (v.mergedMarker p) e ∈ contents (ledgerOf (v.mergeLoss (v.mergedMarker p)).log) := by
  rw [h.contents_mergeLoss hbelow hm hopen]
  refine mem_map.mpr ⟨e, he, ?_⟩
  by_cases hseq : e.seq = p.seq
  · obtain rfl : e = p := inj_on_of_nodup_map h.distinct he (h.marker p hm).1 hseq
    rw [if_pos rfl]
    exact (if_pos rfl).symm
  · rw [if_neg hseq]
    exact (if_neg hseq).symm

theorem encoded_mem_mergeLoss (h : Balanced v) (hbelow : Unsaturated v) (hm : v.gapMarker = some p)
    (hopen : v.gapMarkerFrozen = false) (he : e ∈ contents (ledgerOf v.log))
    (hencoded : e ∈ v.spill.encoded) : e ∈ contents (ledgerOf (v.mergeLoss (v.mergedMarker p)).log) := by
  rw [h.contents_mergeLoss hbelow hm hopen]
  refine mem_map.mpr ⟨e, he, ?_⟩
  split
  · rename_i hseq
    have hdeparted : v.departed = true :=
      Evidence.opensAmong_iff.mpr ⟨p, hm, hopen, e, mem_append_left _ hencoded, hseq⟩
    rw [(h.merged_same_or_open hbelow hm hopen).1 hdeparted]
    exact (inj_on_of_nodup_map h.distinct he (h.marker p hm).1 hseq).symm
  · rfl

theorem isGapMarker_setMetadata (m e : Event) : (setMetadata m e).isGapMarker = e.isGapMarker := by
  unfold setMetadata
  split <;> rfl

theorem held_mergeLoss (h : Balanced v) (hbelow : Unsaturated v) (hm : v.gapMarker = some p)
    (hopen : v.gapMarkerFrozen = false) (he : .event e ∈ (v.spill.setMetadata (v.mergedMarker p)).items)
    (hgap : e.isGapMarker = true) : e ∈ contents (ledgerOf (v.mergeLoss (v.mergedMarker p)).log) := by
  cases hspill : v.spill with
  | ensuring _ b =>
    have hitems : Item.event e ∈ b.frames.map Item.frame ++
        (b.events.map (setMetadata (v.mergedMarker p))).map .event := by
      rw [hspill] at he
      exact he
    obtain ⟨e', he', rfl⟩ : ∃ e' ∈ b.events, setMetadata (v.mergedMarker p) e' = e := by
      simpa using hitems
    rw [isGapMarker_setMetadata] at hgap
    refine h.setMetadata_mem_mergeLoss hbelow hm hopen (h.held e' ?_ hgap)
    rw [hspill]
    exact Batch.event_mem_items.mpr he'
  | idle | settled =>
    rw [hspill] at he
    simp [SpillPhase.setMetadata, SpillPhase.items, SpillPhase.batch] at he
  | checking | writing =>
    rw [hspill] at he
    have hencoded : e ∈ v.spill.encoded := by
      rw [hspill]
      exact Batch.event_mem_items.mp he
    exact h.encoded_mem_mergeLoss hbelow hm hopen (h.held e (by rw [hspill]; exact he) hgap) hencoded

theorem lossSum_mergeLoss (h : Balanced v) (hbelow : Unsaturated v) (hm : v.gapMarker = some p)
    (hopen : v.gapMarkerFrozen = false) (counter : String) :
    lossSum counter (ledgerOf (v.mergeLoss (v.mergedMarker p)).log) =
      lossSum counter (ledgerOf v.log) - p.lossOf counter + (v.mergedMarker p).lossOf counter := by
  unfold lossSum
  rw [h.contents_mergeLoss hbelow hm hopen]
  exact sum_replace (·.lossOf counter) Event.seq h.distinct (h.marker p hm).1

/-- A marker that is merged counts what it counted and what was lost since. -/
theorem mergeLoss (h : Balanced v) (hbelow : Unsaturated v) (hm : v.gapMarker = some p)
    (hopen : v.gapMarkerFrozen = false) : Balanced (v.mergeLoss (v.mergedMarker p)) := by
  have hp := (h.marker p hm).1
  have hcontents := h.contents_mergeLoss hbelow hm hopen
  obtain ⟨hlostFrames, hlostEvents⟩ := h.lossOf_mergedMarker hbelow hm
  have hframes := h.exact.frames
  have hevents := h.exact.events
  have hdroppedFrames := h.framesNonneg
  have hdroppedEvents := h.eventsNonneg
  have hframesNonneg := h.countedFrames p hp
  have heventsNonneg := h.countedEvents p hp
  have hlog : (v.mergeLoss (v.mergedMarker p)).log = v.log ++ [Report.marker (v.mergedMarker p)] := rfl
  have hspooled : (v.mergeLoss (v.mergedMarker p)).spooledEvents = v.spooledEvents := by
    rw [spooledEvents_append hlog]
    exact append_nil _
  constructor
  case exact =>
    constructor
    · rw [h.lossSum_mergeLoss hbelow hm hopen, hlostFrames, hlog, refusals_append]
      show ((refusals true v.log + 0 : ℕ) : ℤ) = _ + 0
      omega
    · rw [h.lossSum_mergeLoss hbelow hm hopen, hlostEvents, hlog, refusals_append]
      show ((refusals false v.log + 0 : ℕ) : ℤ) = _ + 0
      omega
  case distinct =>
    -- the marker keeps its number, so the numbers stay distinct
    have hseqs : (contents (ledgerOf (v.mergeLoss (v.mergedMarker p)).log)).map (·.seq) =
        (contents (ledgerOf v.log)).map (·.seq) := by
      rw [hcontents, map_map]
      refine map_congr_left fun c _ => ?_
      show (if c.seq = p.seq then v.mergedMarker p else c).seq = c.seq
      split
      · rename_i hseq
        exact hseq.symm
      · rfl
    unfold Distinct
    rw [hseqs]
    exact h.distinct
  case given =>
    rw [hcontents]
    intro c hc
    obtain ⟨c', hc', rfl⟩ := mem_map.mp hc
    split
    · exact h.given p hp
    · exact h.given c' hc'
  case countedFrames =>
    rw [hcontents]
    intro c hc
    obtain ⟨c', hc', rfl⟩ := mem_map.mp hc
    split
    · omega
    · exact h.countedFrames c' hc'
  case countedEvents =>
    rw [hcontents]
    intro c hc
    obtain ⟨c', hc', rfl⟩ := mem_map.mp hc
    split
    · omega
    · exact h.countedEvents c' hc'
  case framesNonneg => exact le_refl _
  case eventsNonneg => exact le_refl _
  case marker =>
    intro m hm'
    cases hm'
    refine ⟨?_, by rw [lossOf_frames rfl, lossOf_events rfl]; rfl⟩
    rw [hcontents]
    exact mem_map.mpr ⟨p, hp, if_pos rfl⟩
  case queue =>
    intro e he hgap
    rw [Evidence.queue_mergeLoss] at he
    obtain ⟨i, hi, hie⟩ := mem_map.mp he
    cases i with
    | frame => simp [Item.setMetadata] at hie
    | event e' =>
      cases hie
      rw [isGapMarker_setMetadata] at hgap
      exact h.setMetadata_mem_mergeLoss hbelow hm hopen (h.queue e' hi hgap)
  case held => exact fun e he hgap => h.held_mergeLoss hbelow hm hopen he hgap
  case spooled =>
    rw [hspooled]
    exact h.spooled
  case cycle =>
    intro n hn
    obtain ⟨hle, hlater⟩ := h.cycle n hn
    refine ⟨hle, fun m' hm' => ?_⟩
    cases hm'
    exact hlater p hm
  case left =>
    have hold : enter (v.mergedMarker p) (ledgerOf v.log) = _ := enter_old hp rfl
    rw [ledgerOf_mergeLoss, hspooled, hold]
    intro x hx hserialized m' hm' heq
    cases hm'
    obtain ⟨y, hy, rfl⟩ := mem_map.mp hx
    split at hserialized
    · simp at hserialized
    · rename_i hcond
      rw [if_neg hcond] at heq
      exact h.left y hy hserialized p hm heq
  case settled => exact fun _ => ⟨rfl, rfl⟩

end Merge

theorem departed_markLoss (h : Balanced v) (hnumbered : Numbered v) {f : Frame} {m : Event}
    (hmarks : MarksLoss v f m) : (v.markLoss f m).departed = false := by
  have hspooled : (v.markLoss f m).spooledEvents = v.spooledEvents := by
    rw [spooledEvents_append rfl]
    exact append_nil _
  have hseq := hmarks.marker_seq
  by_contra hgone
  rw [not_eq_false] at hgone
  obtain ⟨m', hm', -, e, he, heq⟩ := Evidence.opensAmong_iff.mp hgone
  cases hm'
  rw [hspooled] at he
  rcases mem_append.mp he with he | he
  · have hheld : .event e ∈ v.spill.items := by
      change e ∈ v.spill.encoded at he
      cases hspill : v.spill with
      | checking | writing =>
        rw [hspill] at he
        exact Batch.event_mem_items.mpr he
      | _ =>
        rw [hspill] at he
        simp [SpillPhase.encoded] at he
    have hle : e.seq ≤ v.nextSeq := hnumbered.seq_le (hnumbered.held _ hheld)
    omega
  · have hle := h.spooled e he
    omega

theorem departed_mergeLoss {p : Event} (hm : v.gapMarker = some p)
    (hgone : (v.mergeLoss (v.mergedMarker p)).departed = true) : v.departed = true := by
  have hspooled : (v.mergeLoss (v.mergedMarker p)).spooledEvents = v.spooledEvents := by
    rw [spooledEvents_append rfl]
    exact append_nil _
  have hencoded : (v.spill.setMetadata (v.mergedMarker p)).encoded = v.spill.encoded := by
    cases v.spill <;> rfl
  obtain ⟨m, hm', hopen, e, he, hseq⟩ := Evidence.opensAmong_iff.mp hgone
  cases hm'
  rw [hspooled] at he
  change e ∈ (v.spill.setMetadata (v.mergedMarker p)).encoded ++ v.spooledEvents at he
  rw [hencoded] at he
  exact Evidence.opensAmong_iff.mpr ⟨p, hm, hopen, e, he, hseq⟩

theorem leave (h : Balanced v) {r : Report} (hlog : w.log = v.log ++ [r])
    (hr : ∀ ledger, entered ledger r = (b.events.filter (·.isGapMarker)).foldl serialize ledger)
    (hrefuses : ∀ isFrame, r.refuses isFrame = false)
    (hb : ∀ e ∈ b.events, e.isGapMarker = true → e ∈ contents (ledgerOf v.log))
    (hframes : w.droppedFrames = v.droppedFrames) (hevents : w.droppedEvents = v.droppedEvents)
    (hnext : w.nextSeq = v.nextSeq)
    (hmarker : w.gapMarker = v.gapMarker ∧ w.gapMarkerFrozen = v.gapMarkerFrozen)
    (hqueue : w.queue = v.queue) (hheld : w.spill.items ⊆ v.spill.items)
    (hspooled : ∀ e ∈ w.spooledEvents, e ∈ v.spooledEvents ∨ e.seq ≤ v.nextSeq)
    (hmore : v.spooledEvents ⊆ w.spooledEvents)
    (hcycle : ∀ n, w.flush.upperSeq = some n → v.flush.upperSeq = some n)
    (hfixed : ∀ e ∈ b.events, ∀ m, v.gapMarker = some m → e.seq = m.seq →
      v.gapMarkerFrozen = true ∨ e ∈ w.spooledEvents)
    (hdeparted : w.departed = true → v.departed = true) : Balanced w := by
  have hledger : ledgerOf w.log = (b.events.filter (·.isGapMarker)).foldl serialize (ledgerOf v.log) := by
    rw [hlog, ledgerOf_append]
    exact hr _
  have hcontents : contents (ledgerOf w.log) = contents (ledgerOf v.log) := by
    rw [hledger]
    refine contents_foldl_serialize _ h.distinct fun e he => ?_
    obtain ⟨he, hgap⟩ := mem_filter.mp he
    exact hb e he (by simpa using hgap)
  have hcount : ∀ isFrame, refusals isFrame w.log = refusals isFrame v.log := by
    intro isFrame
    rw [hlog, refusals_append, Nat.add_eq_left]
    simp [refusals, hrefuses]
  refine h.of_contents hcontents ?_ (by rw [hframes]; exact h.framesNonneg)
    (by rw [hevents]; exact h.eventsNonneg) hnext.ge ?_ ?_ ?_ hspooled hcycle ?_ ?_
  · constructor
    · rw [hcount, hframes, lossSum_eq _ hcontents]
      exact h.exact.frames
    · rw [hcount, hevents, lossSum_eq _ hcontents]
      exact h.exact.events
  · rw [hmarker.1, hmarker.2]
    exact fun m hm => ⟨hm, id⟩
  · rw [hqueue]
    exact fun e he _ => he
  · exact fun e he _ => .inl (hheld he)
  · rw [hledger, hmarker.1, hmarker.2]
    intro x hx hserialized m hm hseq
    rcases serialized_of_foldl hx hserialized with hold | ⟨e, he, heq⟩
    · exact (h.left x hold hserialized m hm hseq).imp_right fun ⟨e, he, heq⟩ => ⟨e, hmore he, heq⟩
    · have he' := (mem_filter.mp he).1
      exact (hfixed e he' m hm (heq.trans hseq.symm)).imp_right fun hin => ⟨e, hin, heq.trans hseq.symm⟩
  · intro hgone
    obtain ⟨hzero, hzero'⟩ := h.settled (hdeparted hgone)
    exact ⟨hframes.trans hzero, hevents.trans hzero'⟩

theorem departed_send {c : Cycle} {sentAt : ℕ}
    (hgone : Evidence.departed { v with
      flush := .sending c (v.liveBatch u c.upperSeq) sentAt
      log := v.log ++ [.sent true (v.liveBatch u c.upperSeq) v.spool.dir.batches] } = true) :
    v.departed = true := by
  obtain ⟨m, hm, hopen, e, he, hseq⟩ := Evidence.opensAmong_iff.mp hgone
  rw [spooledEvents_append rfl] at he
  exact Evidence.opensAmong_iff.mpr ⟨m, hm, hopen, e, by simpa [Report.written] using he, hseq⟩

theorem send (h : Balanced v) {c : Cycle} (sentAt : ℕ) (hflush : v.flush = .selecting c) : Balanced { v with
      flush := .sending c (v.liveBatch u c.upperSeq) sentAt
      log := v.log ++ [.sent true (v.liveBatch u c.upperSeq) v.spool.dir.batches] } := by
  have hspooled : Evidence.spooledEvents { v with
      flush := .sending c (v.liveBatch u c.upperSeq) sentAt
      log := v.log ++ [.sent true (v.liveBatch u c.upperSeq) v.spool.dir.batches] } = v.spooledEvents := by
    rw [spooledEvents_append rfl]
    exact append_nil _
  have hpending : ∀ e ∈ (v.liveBatch u c.upperSeq).events, .event e ∈ v.queue ∧ e.seq ≤ c.upperSeq :=
    fun e he => mem_liveBatch u (Batch.event_mem_items.mpr he)
  have hupper : v.flush.upperSeq = some c.upperSeq := by
    rw [hflush]
    rfl
  refine h.leave rfl (fun _ => rfl) (fun _ => rfl)
    (fun e he hgap => h.queue e (hpending e he).1 hgap) rfl rfl rfl ⟨rfl, rfl⟩ rfl (fun _ => id)
    (fun e he => .inl (by rwa [hspooled] at he)) (by rw [hspooled]; exact fun _ => id)
    (fun n hn => hupper.trans hn) (fun e he m hm hseq => ?_) departed_send
  have hle := (hpending e he).2
  refine ((h.cycle c.upperSeq hupper).2 m hm).imp_right fun hlt => ?_
  omega

theorem spillWritten (h : Balanced v) (hnumbered : Numbered v) {index length : ℕ}
    (hspill : v.spill = .writing index b) :
    Balanced { v with
      spool := v.spool.write index b length
      spill := .idle
      log := v.log ++ [.spooled b] } := by
  have hspooled : Evidence.spooledEvents { v with
      spool := v.spool.write index b length
      spill := .idle
      log := v.log ++ [.spooled b] } = v.spooledEvents ++ b.events := by
    rw [spooledEvents_append rfl]
    simp [Report.written]
  have hheld : ∀ e ∈ b.events, .event e ∈ v.spill.items := fun e he => by
    rw [hspill]
    exact Batch.event_mem_items.mpr he
  refine h.leave rfl (fun _ => rfl) (fun _ => rfl)
    (fun e he hgap => h.held e (hheld e he) hgap) rfl rfl rfl ⟨rfl, rfl⟩ rfl
    (fun i hi => absurd hi (by simp [SpillPhase.items, SpillPhase.batch])) (fun e he => ?_)
    (by rw [hspooled]; exact subset_append_left ..) (fun _ => id) (fun e he m hm hseq => ?_) ?_
  · rw [hspooled] at he
    exact (mem_append.mp he).imp_right fun he => hnumbered.seq_le (hnumbered.held _ (hheld e he))
  · rw [hspooled]
    exact .inr (mem_append_right _ he)
  · refine departed_of (fun m hm => ⟨hm, id⟩) ?_
    rw [hspooled, hspill]
    intro e he
    rcases mem_append.mp he with he | he
    · simp [SpillPhase.encoded] at he
    · exact (mem_append.mp he).elim (mem_append_right _) (mem_append_left _)

theorem spillEnsured (h : Balanced v) {index : ℕ} {spool : LinkSpoolStorage}
    (hspill : v.spill = .ensuring index b) (hpublished : v.opensAmong b.events = true → v.published) :
    Balanced { v with spool := spool, spill := .checking index b } := by
  refine h.of_contents rfl ⟨h.exact.frames, h.exact.events⟩ h.framesNonneg h.eventsNonneg (le_refl _)
    (fun m hm => ⟨hm, id⟩) (fun e he _ => he) (fun e he _ => .inl (by rw [hspill]; exact he))
    (fun e he => .inl he) (fun _ => id) h.left fun hgone => ?_
  unfold Evidence.departed at hgone
  rw [Evidence.opensAmong_iff] at hgone
  obtain ⟨m, hm, hopen, e, he, hseq⟩ := hgone
  rcases mem_append.mp he with he | he
  · exact hpublished (Evidence.opensAmong_iff.mpr ⟨m, hm, hopen, e, he, hseq⟩)
  · exact h.settled (Evidence.opensAmong_iff.mpr ⟨m, hm, hopen, e, mem_append_right _ he, hseq⟩)

theorem round (h : Balanced v) {c : Cycle} (hupper : c.upperSeq = v.nextSeq)
    (hfrozen : v.gapMarker.isSome = true → v.gapMarkerFrozen = true) (hturn : Turn u v c w) :
    Balanced w := by
  have hphase : ∀ p : FlushPhase, p.upperSeq = some c.upperSeq → Balanced { v with flush := p } := by
    intro p hp
    exact
      { h with
        exact := ⟨h.exact.frames, h.exact.events⟩
        cycle := fun n hn => by
          cases hp.symm.trans hn
          exact ⟨hupper.le, fun m hm => .inl (hfrozen (by
            change v.gapMarker = some m at hm
            rw [hm]
            rfl))⟩ }
  cases hturn with
  | listing | selecting => exact hphase _ rfl

end Balanced

theorem Calm.noticed {drops beside : Prop} (hmove : Calm u drops beside v w) :
    Unnoticed v w ∨ (∃ isFrame, drops ∧ w = v.refuse isFrame) ∨
      (∃ f m, MarksLoss v f m ∧ w = v.markLoss f m) ∨
      (∃ p, v.gapMarker = some p ∧ v.gapMarkerFrozen = false ∧ w = v.mergeLoss (v.mergedMarker p)) ∨
      (∃ c, c.upperSeq = v.nextSeq ∧ (v.gapMarker.isSome = true → v.gapMarkerFrozen = true) ∧
        Turn u v c w) ∨
      ∃ c sentAt, v.flush = .selecting c ∧ w = { v with
        flush := .sending c (v.liveBatch u c.upperSeq) sentAt
        log := v.log ++ [.sent true (v.liveBatch u c.upperSeq) v.spool.dir.batches] } := by
  have hspill : v.spill.items ⊆ v.spill.items ∧ v.spill.encoded ⊆ v.spill.encoded :=
    ⟨fun _ => id, fun _ => id⟩
  have hquiet : v.log = v.log ++ [] := (append_nil _).symm
  cases hmove with
  | acceptFrame =>
    refine .inl ⟨⟨_, rfl, rfl⟩, Nat.le_succ _, rfl, rfl, fun m hm => ⟨hm, id⟩, fun e he _ => ?_,
      fun e he _ => .inl he, fun _ => id, fun _ => id⟩
    exact (Evidence.mem_queue_acceptFrame.mp he).resolve_right (by simp)
  | acceptEvent _ _ hgap =>
    refine .inl ⟨⟨_, rfl, rfl⟩, Nat.le_succ _, rfl, rfl, fun m hm => ⟨hm, id⟩, fun e he hmarker => ?_,
      fun e he _ => .inl he, fun _ => id, fun _ => id⟩
    refine (Evidence.mem_queue_acceptEvent.mp he).resolve_right fun heq => ?_
    cases heq
    rw [hgap] at hmarker
    simp at hmarker
  | refuse isFrame hdrops => exact .inr (.inl ⟨isFrame, hdrops, rfl⟩)
  | mark f m _ hmarks => exact .inr (.inr (.inl ⟨f, m, hmarks, rfl⟩))
  | merge p hm hopen => exact .inr (.inr (.inr (.inl ⟨p, hm, hopen, rfl⟩)))
  | round c _ _ hupper hfrozen hturn => exact .inr (.inr (.inr (.inr (.inl ⟨c, hupper, hfrozen, hturn⟩))))
  | send c sentAt hflush => exact .inr (.inr (.inr (.inr (.inr ⟨c, sentAt, hflush, rfl⟩))))
  | freeze =>
    refine .inl ⟨⟨[], hquiet, rfl⟩, le_refl _, rfl, rfl, fun m hm => ⟨hm, fun h => ?_⟩, fun e he _ => he,
      fun e he _ => .inl he, fun _ => id, fun _ => id⟩
    rw [h, Bool.true_or]
  | forget m =>
    exact .inl ⟨⟨[], hquiet, rfl⟩, le_refl _, rfl, rfl, nofun, fun e he _ => he,
      fun e he _ => .inl he, fun _ => id, fun _ => id⟩
  | take =>
    exact .inl ⟨⟨[], hquiet, rfl⟩, le_refl _, rfl, rfl, fun m hm => ⟨hm, id⟩,
      fun e he _ => v.queue_takeChunk_subset u he, fun e he _ => .inr (v.items_chunk_subset u he),
      by simp [Evidence.takeChunk, SpillPhase.encoded], fun _ => id⟩
  | spillNothing =>
    exact .inl (.of_log hquiet rfl rfl rfl rfl ⟨rfl, rfl⟩ (.refl _)
      ⟨by simp [SpillPhase.items, SpillPhase.batch], by simp [SpillPhase.encoded]⟩ fun _ => id)
  | violation | stopReturned =>
    exact .inl (.of_log rfl rfl rfl rfl rfl ⟨rfl, rfl⟩ (.refl _) hspill fun _ => id)
  | returned c result =>
    refine .inl (.of_log hquiet rfl rfl rfl rfl ⟨rfl, rfl⟩ (.refl _) hspill fun n hn => ?_)
    have hcycle : v.flush.upperSeq = some c.upperSeq := by
      cases hflush : v.flush <;> simp_all [FlushPhase.canReturn, FlushPhase.upperSeq]
    rw [hcycle]
    cases result with
    | threw => simp [FlushPhase.upperSeq] at hn
    | health ok =>
      cases ok with
      | false => simp [FlushPhase.upperSeq] at hn
      | true => exact hn
  | _ =>
    exact .inl (.of_log hquiet rfl rfl rfl rfl ⟨rfl, rfl⟩ (.refl _) hspill (by simp [FlushPhase.upperSeq]))

namespace Balanced

variable {u : Setup} {v w : Evidence}

theorem calm (h : Balanced v) (hnumbered : Numbered v) {drops beside : Prop} (hbelow : Unsaturated v)
    (hbelow' : Unsaturated w) (hhere : drops → v.departed = false) (hmove : Calm u drops beside v w) :
    Balanced w ∧ (drops → w.departed = false) := by
  have hstays : (w.departed = true → v.departed = true) → drops → w.departed = false := by
    intro hback hdrops
    by_contra hgone
    have hdeparted := hback (by simpa using hgone)
    rw [hhere hdrops] at hdeparted
    simp at hdeparted
  rcases hmove.noticed with hquiet | ⟨isFrame, hdrops, rfl⟩ | ⟨f, m, hmarks, rfl⟩ |
    ⟨p, hm, hopen, rfl⟩ | ⟨c, hupper, hfrozen, hturn⟩ | ⟨c, sentAt, hflush, rfl⟩
  · exact ⟨h.unnoticed hquiet, hstays (departed_of_unnoticed hquiet)⟩
  · exact ⟨h.refuse hbelow' (hhere hdrops), hstays (departed_refuse isFrame).symm.trans⟩
  · exact ⟨h.markLoss hbelow hmarks, fun _ => h.departed_markLoss hnumbered hmarks⟩
  · exact ⟨h.mergeLoss hbelow hm hopen, hstays (departed_mergeLoss hm)⟩
  · refine ⟨h.round hupper hfrozen hturn, hstays ?_⟩
    cases hturn <;> exact id
  · exact ⟨h.send sentAt hflush, hstays departed_send⟩

/-- The books stay balanced through whatever an action decides in a step that keeps them, and no copy of
an open marker leaves in a step that refuses something. -/
theorem head {s : Recorder} {a : Action} (h : Balanced s.toEvidence) (hnumbered : Numbered s.toEvidence)
    (hkeeps : KeepsBooks u s a) (hmove : Head u s a w) :
    Balanced w ∧ (s.recordsDrop u a = true → w.departed = false) := by
  have hunnoticed : Unnoticed s.toEvidence w → Balanced w ∧ (s.recordsDrop u a = true → w.departed = false) := by
    intro hquiet
    refine ⟨h.unnoticed hquiet, fun hdrops => ?_⟩
    by_contra hgone
    have hdeparted := departed_of_unnoticed hquiet (by simpa using hgone)
    rw [hkeeps.refuses hdeparted] at hdrops
    simp at hdrops
  have hspill : s.spill.items ⊆ s.spill.items ∧ s.spill.encoded ⊆ s.spill.encoded :=
    ⟨fun _ => id, fun _ => id⟩
  have hquiet : s.log = s.log ++ [] := (append_nil _).symm
  cases hmove with
  | none => exact hunnoticed (.of_log hquiet rfl rfl rfl rfl ⟨rfl, rfl⟩ (.refl _) hspill fun _ => id)
  | spillEnsured _ hphase =>
    refine ⟨h.spillEnsured hphase (hkeeps.encodes _ _ _ _ rfl hphase), fun hdrops => ?_⟩
    simp [Recorder.recordsDrop] at hdrops
  | spillWritten hphase =>
    exact ⟨h.spillWritten hnumbered hphase, fun hdrops => absurd hdrops (by simp [Recorder.recordsDrop])⟩
  | spillChecked _ hphase =>
    refine hunnoticed (.of_log hquiet rfl rfl rfl rfl ⟨rfl, rfl⟩ (.refl _) ?_ fun _ => id)
    rw [hphase]
    exact ⟨fun _ => id, fun _ => id⟩
  | spillFailed | spillSettled =>
    exact hunnoticed (.of_log hquiet rfl rfl rfl rfl ⟨rfl, rfl⟩ (.refl _)
      ⟨by simp [SpillPhase.items, SpillPhase.batch], by simp [SpillPhase.encoded]⟩ fun _ => id)
  | chunkListed hflush | nothingListed hflush | chunkUnreadable hflush | chunkRemoved _ hflush =>
    refine hunnoticed (.of_log hquiet rfl rfl rfl rfl ⟨rfl, rfl⟩ (.refl _) hspill fun n hn => ?_)
    rw [hflush]
    exact hn
  | chunkRead hflush | chunkAcked _ hflush | chunkUnacked _ hflush =>
    refine hunnoticed (.of_log rfl rfl rfl rfl rfl ⟨rfl, rfl⟩ (.refl _) hspill fun n hn => ?_)
    rw [hflush]
    exact hn
  | liveUnsettled =>
    exact hunnoticed (.of_log rfl rfl rfl rfl rfl ⟨rfl, rfl⟩ (.refl _) hspill fun _ => id)
  | liveSettled =>
    exact hunnoticed (.of_log rfl rfl rfl rfl rfl ⟨rfl, rfl⟩ filter_sublist hspill fun _ => id)
  | flushContinued hflush hupper hturn =>
    cases hturn <;>
      refine hunnoticed (.of_log hquiet rfl rfl rfl rfl ⟨rfl, rfl⟩ (.refl _) hspill fun n hn => ?_)
    all_goals
      rw [hflush]
      exact (congrArg some hupper).symm.trans hn
  | flushSettled =>
    exact hunnoticed (.of_log hquiet rfl rfl rfl rfl ⟨rfl, rfl⟩ (.refl _) hspill
      (by simp [FlushPhase.upperSeq]))

theorem create (clock : ℤ) (spool : LinkSpoolStorage) : Balanced (Recorder.create clock spool).toEvidence where
  exact := ⟨rfl, rfl⟩
  distinct := nodup_nil
  given := by simp [Recorder.create, ledgerOf, contents]
  countedFrames := by simp [Recorder.create, ledgerOf, contents]
  countedEvents := by simp [Recorder.create, ledgerOf, contents]
  framesNonneg := le_refl _
  eventsNonneg := le_refl _
  marker := by simp [Recorder.create]
  queue := by simp [Recorder.create, Evidence.queue]
  held := by simp [Recorder.create, SpillPhase.items, SpillPhase.batch]
  spooled := by simp [Recorder.create, Evidence.spooledEvents]
  cycle := by simp [Recorder.create, FlushPhase.upperSeq]
  left := by simp [Recorder.create, ledgerOf]
  settled := fun _ => ⟨rfl, rfl⟩

end Balanced

theorem Unsaturated.mono (h : Unsaturated w) (hlog : ∃ rs, w.log = v.log ++ rs) : Unsaturated v := by
  obtain ⟨rs, hrs⟩ := hlog
  obtain ⟨hframes, hevents⟩ := h
  rw [hrs, refusals_append] at hframes hevents
  push_cast at hframes hevents
  constructor <;> omega

theorem run_balanced {clock : ℤ} {spool : LinkSpoolStorage} {t : Recorder} {es : List Empty}
    (hrun : (recorder u).Reach (fun s _ a => KeepsBooks u s a) (.create clock spool) t es)
    (hbelow : Unsaturated t.toEvidence) : Balanced t.toEvidence := by
  have hboth := hrun.invariant
    (fun s _ => Numbered s.toEvidence ∧ (Unsaturated s.toEvidence → Balanced s.toEvidence))
    ⟨.create clock spool, fun _ => .create clock spool⟩ ?_
  · exact hboth.2 hbelow
  rintro s es a t fs ⟨hnumbered, hbalanced⟩ hkeeps hstep
  obtain ⟨t', ht', hpair⟩ := Option.map_eq_some_iff.mp hstep
  cases hpair
  obtain ⟨w, hhead, hcalmly⟩ := step_moves ht'
  have hstart : Numbered w ∧ (Unsaturated w →
      Balanced w ∧ (s.recordsDrop u a = true → w.departed = false)) := by
    refine ⟨hnumbered.head hhead, fun hw => ?_⟩
    obtain ⟨rs, hrs, -⟩ := hhead.reports
    exact (hbalanced (hw.mono ⟨rs, hrs⟩)).head hnumbered hkeeps hhead
  have hend := hcalmly.preserves (I := fun x => Numbered x ∧ (Unsaturated x →
    Balanced x ∧ (s.recordsDrop u a = true → x.departed = false))) ?_ hstart
  · exact ⟨hend.1, fun ht => (hend.2 ht).1⟩
  · intro x y ⟨hx, hrest⟩ hmove
    refine ⟨hx.calm hmove, fun hy => ?_⟩
    have hbelow := hy.mono hmove.log_prefix
    obtain ⟨hbooks, hhere⟩ := hrest hbelow
    exact hbooks.calm hx hbelow hy hhere hmove

/-! ## The accounting is exact -/

/-- An event is refused while the marker of an earlier refusal is encoded for a chunk. -/
def refusingLate : List Action :=
  [.start, .enqueueFrame (sampleFrame 1), .observeControlInput sampleMessage false, .spillEnsured true [],
    .observeControlInput sampleMessage false, .spillChecked none, .spillWritten true]

/-- The later refusal is in no content that has left, and in no counter. -/
theorem loss_miscounted : ¬ ∀ (t : Recorder) (es : List Empty),
      (recorder (sampleSetup "resilient")).Reach (fun _ _ _ => True) sampleRecorder t es →
      Unsaturated t.toEvidence → LossExact t.toEvidence := by
  intro hclaim
  have hlate : ∃ r ∈ (recorder (sampleSetup "resilient")).exec (fun _ _ _ => true) sampleRecorder []
      refusingLate, refusals true r.1.log = 0 ∧ refusals false r.1.log = 2 ∧
        lossSum "dropped_events" (ledgerOf r.1.log) + r.1.droppedEvents = 1 := by decide
  obtain ⟨⟨t, es⟩, hexec, hframes, hevents, hsum⟩ := hlate
  have hrun : (recorder (sampleSetup "resilient")).Reach (fun _ _ _ => True) sampleRecorder t es :=
    Machine.reach_of_exec (fun _ _ _ _ => trivial) hexec
  have hbelow : Unsaturated t.toEvidence := by
    refine ⟨?_, ?_⟩
    · rw [hframes]
      decide
    · rw [hevents]
      decide
  have hexact := (hclaim t es hrun hbelow).events
  rw [hevents, hsum] at hexact
  simp at hexact

/-- The accounting is exact in every run in which nothing is refused between the encoding and the
freezing of a gap marker, and nothing refused is unpublished at its encoding. -/
theorem loss_exact {u : Setup} {clock : ℤ} {spool : LinkSpoolStorage} {t : Recorder} {es : List Empty}
    (hrun : (recorder u).Reach (fun s _ a => KeepsBooks u s a) (.create clock spool) t es)
    (hbelow : Unsaturated t.toEvidence) : LossExact t.toEvidence :=
  (run_balanced hrun hbelow).exact

/-- `KeepsBooks`, evaluated. -/
def keepsBooks (u : Setup) (s : Recorder) (a : Action) : Bool :=
  (!s.departed || !s.recordsDrop u a) &&
    match a, s.spill with
    | .spillEnsured _ _, .ensuring _ b =>
      !s.opensAmong b.events || (s.droppedFrames = 0 && s.droppedEvents = 0)
    | _, _ => true

theorem keepsBooks_of_eval {s : Recorder} {a : Action} (h : keepsBooks u s a = true) : KeepsBooks u s a := by
  unfold keepsBooks at h
  rw [and_eq_true] at h
  refine ⟨fun hdeparted => by simpa [hdeparted] using h.1, ?_⟩
  rintro ok seen index b rfl hspill hopens
  have hpublished := h.2
  rw [hspill] at hpublished
  simpa [hopens, Evidence.published] using hpublished

/-- A refused event is counted by the gap marker that goes into a chunk. -/
theorem loss_exact_sample :
    ∃ t : Recorder, refusals false t.log = 1 ∧ t.spool.dir.files.length = 1 ∧ LossExact t.toEvidence := by
  have hspilled : ∃ r ∈ (recorder (sampleSetup "resilient")).exec
      (fun s _ a => keepsBooks (sampleSetup "resilient") s a) sampleRecorder []
      (spilling ++ [.spillWritten true]),
      refusals true r.1.log = 0 ∧ refusals false r.1.log = 1 ∧ r.1.spool.dir.files.length = 1 := by decide
  obtain ⟨⟨t, es⟩, hexec, hframes, hevents, hfiles⟩ := hspilled
  have hrun : (recorder (sampleSetup "resilient")).Reach
      (fun s _ a => KeepsBooks (sampleSetup "resilient") s a) sampleRecorder t es :=
    Machine.reach_of_exec (fun _ _ _ => keepsBooks_of_eval) hexec
  refine ⟨t, hevents, hfiles, loss_exact hrun ⟨?_, ?_⟩⟩
  · rw [hframes]
    decide
  · rw [hevents]
    decide

end LigamentApps.LinkHostRecorder
