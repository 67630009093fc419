import LigamentApps.LinkHostRecorder.Numbering
import LigamentApps.LinkHostRecorder.Reports

/-!
# The head of the queue

What is first in the queue is sent exactly when a batch of its own takes it (`sentAtHead_iff`). The admission
measures a frame without the batch around it and asks for its codec only above 2 MiB, so that a frame of
another codec may be accepted which no batch takes. -/

namespace LigamentApps.LinkHostRecorder

open List Bool

variable {v w : Evidence} {s : Recorder}

/-- The bytes of a batch without items. -/
def Setup.envelopeBytes (u : Setup) : ℕ := (u.batch [] []).envelopeBytes u.doubleText

/-- A batch of its own takes the item. -/
def Fits (u : Setup) : Item → Prop
  | .frame f => u.envelopeBytes + f.jsonBytes u.doubleText ≤ maxBatchBytes ∨
      f.codec ∈ supportedCodecs ∧ u.envelopeBytes + f.jsonBytes u.doubleText ≤ 20 * 1024 * 1024
  | .event e => u.envelopeBytes + e.jsonBytes u.doubleText ≤ maxBatchBytes

/-- Wherever the item is first, the batch is not empty. -/
def SentAtHead (u : Setup) (i : Item) : Prop :=
  ∀ (v : Evidence) (upperSeq : ℕ) (rest : List Item), v.itemsUpTo upperSeq = i :: rest →
    (v.liveBatch u upperSeq).items ≠ []

/-- The pending items up to any number yield a batch. -/
def Flows (u : Setup) (v : Evidence) : Prop :=
  ∀ upperSeq, v.itemsUpTo upperSeq ≠ [] → (v.liveBatch u upperSeq).items ≠ []

section Head

variable (u : Setup) {i : Item} {rest : List Item}

theorem selectItems_nonempty_iff :
    (selectItems u.doubleText (i :: rest) [] [] u.envelopeBytes ≠ ([], [])) ↔ Fits u i := by
  have hfirst : ∀ bytes, nextBytes u.envelopeBytes bytes true = u.envelopeBytes + bytes := fun _ => rfl
  cases i with
  | frame f =>
    rw [selectItems, if_neg (by decide), isEmpty_nil, hfirst]
    unfold Fits
    by_cases hover : maxBatchBytes < u.envelopeBytes + f.jsonBytes u.doubleText
    · rw [if_pos hover]
      simp only [isEmpty_nil, Bool.true_and, and_eq_true, contains_iff_mem, decide_eq_true_eq]
      by_cases halone : f.codec ∈ supportedCodecs ∧ u.envelopeBytes + f.jsonBytes u.doubleText ≤ 20 * 1024 * 1024
      · simp [halone]
      · rw [if_neg halone]
        exact ⟨fun h => absurd rfl h, fun h => absurd (h.resolve_left (by omega)) halone⟩
    · rw [if_neg hover]
      obtain ⟨taken, _, _, hselected⟩ :=
        takes_selectItems u.doubleText rest [f] [] (u.envelopeBytes + f.jsonBytes u.doubleText)
      rw [nil_append, hselected]
      exact ⟨fun _ => .inl (by omega), fun _ h => absurd (Prod.mk.inj h).1 (by simp)⟩
  | event e =>
    rw [selectItems, if_neg (by decide), isEmpty_nil, hfirst]
    unfold Fits
    by_cases hover : maxBatchBytes < u.envelopeBytes + e.jsonBytes u.doubleText
    · rw [if_pos hover]
      exact ⟨fun h => absurd rfl h, fun h => absurd h (by omega)⟩
    · rw [if_neg hover]
      obtain ⟨taken, _, _, hselected⟩ :=
        takes_selectItems u.doubleText rest [] [e] (u.envelopeBytes + e.jsonBytes u.doubleText)
      rw [nil_append, hselected]
      exact ⟨fun _ => by omega, fun _ h => absurd (Prod.mk.inj h).2 (by simp)⟩

theorem liveBatch_nonempty_iff {upperSeq : ℕ} (h : v.itemsUpTo upperSeq = i :: rest) :
    (v.liveBatch u upperSeq).items ≠ [] ↔ Fits u i := by
  rw [← selectItems_nonempty_iff u, ← h]
  refine not_congr ?_
  show List.map _ _ ++ List.map _ _ = [] ↔ _
  rw [append_eq_nil_iff, map_eq_nil_iff, map_eq_nil_iff, Prod.ext_iff]
  rfl

theorem sentAtHead_iff : SentAtHead u i ↔ Fits u i := by
  refine ⟨fun h => ?_, fun h v upperSeq rest hitems => (liveBatch_nonempty_iff u hitems).mpr h⟩
  -- a queue that holds nothing else
  cases i with
  | frame f =>
    have halone : Evidence.itemsUpTo { pendingFrames := [f], spool := { dir := .empty } } f.seq = [.frame f] := by
      simp [Evidence.itemsUpTo, mergeItems]
    exact (liveBatch_nonempty_iff u halone).mp (h _ _ _ halone)
  | event e =>
    have halone : Evidence.itemsUpTo { pendingEvents := [e], spool := { dir := .empty } } e.seq = [.event e] := by
      simp [Evidence.itemsUpTo, mergeItems]
    exact (liveBatch_nonempty_iff u halone).mp (h _ _ _ halone)

theorem flows_of_fits (h : ∀ i ∈ v.queue, Fits u i) : Flows u v := by
  intro upperSeq hne
  obtain ⟨i, rest, hitems⟩ := exists_cons_of_ne_nil hne
  have hmem : i ∈ v.itemsUpTo upperSeq := by
    rw [hitems]
    exact mem_cons_self ..
  exact (liveBatch_nonempty_iff u hitems).mpr (h i (mem_itemsUpTo hmem).1)

end Head

/-! ## What is in the queue -/

/-- An item of the queue is one that was accepted, or a gap marker with the counters of later loss. -/
inductive Stems (v : Evidence) : Item → Prop
  | same (i : Item) : Accepted v i → Stems v i
  | merged (e : Event) (a b c d : ℤ) : Accepted v (.event e) →
      Stems v (.event { e with metadata := lossMetadata (addLoss a b) (addLoss c d) })

theorem Stems.mono {i : Item} (h : Stems v i) (hlog : ∃ rs, w.log = v.log ++ rs) : Stems w i := by
  have hacc : ∀ {j}, Accepted v j → Accepted w j := by
    obtain ⟨rs, hrs⟩ := hlog
    intro j hj
    unfold Accepted
    rw [hrs]
    exact mem_append_left _ hj
  cases h with
  | same _ hi => exact .same _ (hacc hi)
  | merged e a b c d he => exact .merged e a b c d (hacc he)

theorem Calm.stems {u : Setup} {drops beside : Prop} (h : ∀ i ∈ v.queue, Stems v i)
    (hmove : Calm u drops beside v w) : ∀ i ∈ w.queue, Stems w i := by
  have hlog := hmove.log_prefix
  have hkeeps : w.queue ⊆ v.queue → ∀ i ∈ w.queue, Stems w i := fun hsub i hi => (h i (hsub hi)).mono hlog
  cases hmove with
  | acceptFrame f =>
    intro i hi
    obtain hold | rfl := Evidence.mem_queue_acceptFrame.mp hi
    · exact (h i hold).mono hlog
    · exact .same _ (by simp [Accepted, Evidence.acceptFrame])
  | acceptEvent e =>
    intro i hi
    obtain hold | rfl := Evidence.mem_queue_acceptEvent.mp hi
    · exact (h i hold).mono hlog
    · exact .same _ (by simp [Accepted, Evidence.acceptEvent])
  | mark f m =>
    intro i hi
    obtain hold | rfl | rfl := Evidence.mem_queue_markLoss.mp hi
    · exact (h i hold).mono hlog
    · exact .same _ (by simp [Accepted, Evidence.markLoss])
    · exact .same _ (by simp [Accepted, Evidence.markLoss])
  | merge previous =>
    intro i hi
    rw [Evidence.queue_mergeLoss] at hi
    obtain ⟨j, hj, rfl⟩ := mem_map.mp hi
    have hstems := (h j hj).mono hlog
    cases j with
    | frame => exact hstems
    | event e =>
      show Stems _ (.event (setMetadata _ e))
      unfold setMetadata
      split
      · cases hstems with
        | same _ he => exact .merged e _ _ _ _ he
        | merged e₀ _ _ _ _ he => exact .merged e₀ _ _ _ _ he
      · exact hstems
  | refuse isFrame => exact hkeeps (by cases isFrame <;> exact fun _ => id)
  | take => exact hkeeps (Evidence.queue_takeChunk_subset u v)
  | round _ _ _ _ _ hturn => cases hturn <;> exact hkeeps fun _ => id
  | _ => exact hkeeps fun _ => id

theorem Head.stems {u : Setup} {a : Action} (h : ∀ i ∈ s.queue, Stems s.toEvidence i)
    (hmove : Head u s a w) : ∀ i ∈ w.queue, Stems w i := by
  obtain ⟨rs, hlog, -⟩ := hmove.reports
  have hkeeps : w.queue ⊆ s.queue → ∀ i ∈ w.queue, Stems w i := fun hsub i hi => (h i (hsub hi)).mono ⟨rs, hlog⟩
  cases hmove with
  | liveSettled =>
    exact hkeeps (Evidence.queue_subset filter_sublist.subset filter_sublist.subset)
  | flushContinued _ _ hturn => cases hturn <;> exact hkeeps fun _ => id
  | _ => exact hkeeps fun _ => id

/-! ## What is accepted -/

/-- What the admission says of an item, and what it does not ask of a frame: a supported codec, or room for
the batch around it. -/
def Admitted (u : Setup) : Item → Prop
  | .frame f => f.payload.length ≤ maxFrameBytes ∧ f.metadataBytes u.doubleText ≤ maxMetadataBytes ∧
      (f.codec ∈ supportedCodecs ∨ u.envelopeBytes + f.jsonBytes u.doubleText ≤ maxBatchBytes)
  | .event e => e.jsonBytes u.doubleText ≤ maxMetadataBytes

section Admission

variable {u : Setup}

theorem bytes_lossMetadata (a b c d : ℤ) : (lossMetadata (addLoss a b) (addLoss c d)).bytes u.doubleText ≤ 128 := by
  have hdigits : ∀ a b, Json.intBytes (addLoss a b) ≤ 19 := by
    intro a b
    have hbounds : 0 ≤ addLoss a b ∧ addLoss a b < 10 ^ 19 := by
      unfold addLoss maxLossCount
      omega
    have hlength := (Nat.length_toDigits_le_iff (b := 10) (n := (addLoss a b).natAbs) (k := 19) (by decide)
      (by decide)).mpr (by omega)
    unfold Json.intBytes
    rw [if_neg (by omega)]
    exact hlength
  have hframes := hdigits a b
  have hevents := hdigits c d
  have hreason : Json.strBytes "reason" = 8 := by decide
  have hoverflow : Json.strBytes "recorder_queue_overflow" = 25 := by decide
  have hdroppedFrames : Json.strBytes "dropped_frames" = 16 := by decide
  have hdroppedEvents : Json.strBytes "dropped_events" = 16 := by decide
  simp [lossMetadata, Json.bytes, Json.memberBytes, hreason, hoverflow, hdroppedFrames, hdroppedEvents]
  omega

theorem jsonBytes_setMetadata (e : Event) (metadata : Json) :
    ({ e with metadata := metadata } : Event).jsonBytes u.doubleText ≤
      e.jsonBytes u.doubleText + metadata.bytes u.doubleText := by
  unfold Event.jsonBytes Event.header
  simp [Json.bytes, Json.memberBytes]
  omega

theorem fits_of_stems {i : Item} (henvelope : u.envelopeBytes + maxMetadataBytes + 128 ≤ maxBatchBytes)
    (hadmitted : ∀ j, Accepted v j → Admitted u j) (h : Stems v i) : Fits u i := by
  cases h with
  | same _ hi =>
    have hadmits := hadmitted i hi
    cases i with
    | frame f =>
      obtain ⟨hpayload, hmetadata, hcodec | hfits⟩ := hadmits
      · refine .inr ⟨hcodec, ?_⟩
        unfold Frame.jsonBytes base64Length
        unfold maxFrameBytes maxMetadataBytes maxBatchBytes at *
        omega
      · exact .inl hfits
    | event e =>
      have hsize : e.jsonBytes u.doubleText ≤ maxMetadataBytes := hadmits
      show _ ≤ _
      omega
  | merged e a b c d he =>
    have hsize : e.jsonBytes u.doubleText ≤ maxMetadataBytes := hadmitted _ he
    have hlonger := jsonBytes_setMetadata (u := u) e (lossMetadata (addLoss a b) (addLoss c d))
    have hloss := bytes_lossMetadata (u := u) a b c d
    show _ ≤ _
    omega

theorem admitted_frame_iff {f : Frame} (h : s.refusesFrame u f = false) : Admitted u (.frame f) ↔
      f.codec ∈ supportedCodecs ∨ u.envelopeBytes + f.jsonBytes u.doubleText ≤ maxBatchBytes := by
  simp only [Recorder.refusesFrame, or_eq_false_iff, decide_eq_false_iff_not, not_lt] at h
  exact ⟨fun hadmits => hadmits.2.2, fun hfits => ⟨h.1.1.1.1, h.1.1.1.2, hfits⟩⟩

theorem admitted_event {e : Event} {encodable : Bool}
    (h : s.refusesEvent u e encodable = false ∨ s.refusesLifecycle u e = false) : Admitted u (.event e) := by
  obtain h | h := h
  · simp only [Recorder.refusesEvent, or_eq_false_iff, decide_eq_false_iff_not, not_lt] at h
    exact h.1.1.2
  · simp only [Recorder.refusesLifecycle, or_eq_false_iff, decide_eq_false_iff_not, not_lt] at h
    exact h.1.1

theorem admitted_marker (hseq : s.nextSeq + 2 < 10 ^ 19) :
    Admitted u (.frame s.lossFrame) ∧ Admitted u (.event s.lossMarker) := by
  have hdigits : ∀ n < 10 ^ 19, Json.intBytes (n : ℕ) ≤ 19 := by
    intro n hn
    unfold Json.intBytes
    rw [if_neg (by omega), Int.natAbs_natCast]
    exact (Nat.length_toDigits_le_iff (by decide) (by decide)).mpr hn
  have htime : iso8601Length s.clock ≤ 30 := by
    unfold iso8601Length
    split <;> split <;> omega
  constructor
  · have hframe : s.lossFrame.metadataBytes u.doubleText ≤
        ({ s.lossFrame with seq := 0, capturedAt := 0 } : Frame).metadataBytes u.doubleText +
          Json.intBytes (s.nextSeq + 1 : ℕ) + iso8601Length s.clock := by
      simp [Recorder.lossFrame, Frame.metadataBytes, Frame.header, Json.bytes, Json.memberBytes]
      omega
    have hrest : ({ s.lossFrame with seq := 0, capturedAt := 0 } : Frame).metadataBytes u.doubleText = 154 := by
      simp only [Recorder.lossFrame, Frame.metadataBytes, Frame.header, Json.bytes, Json.memberBytes]
      decide
    have hlength := hdigits (s.nextSeq + 1) (by omega)
    refine ⟨Nat.zero_le _, ?_, .inl (show "png" ∈ supportedCodecs by decide)⟩
    unfold maxMetadataBytes
    omega
  · have hmarker : s.lossMarker.jsonBytes u.doubleText ≤
        ({ s.lossMarker with seq := 0, occurredAt := 0, metadata := .null } : Event).jsonBytes u.doubleText +
          Json.intBytes (s.nextSeq + 2 : ℕ) + iso8601Length s.clock +
          (lossMetadata (addLoss s.droppedFrames 0) (addLoss s.droppedEvents 0)).bytes u.doubleText := by
      simp [Recorder.lossMarker, Event.jsonBytes, Event.header, Json.bytes, Json.memberBytes]
      omega
    have hrest : ({ s.lossMarker with seq := 0, occurredAt := 0, metadata := .null } : Event).jsonBytes u.doubleText =
        121 := by
      simp only [Recorder.lossMarker, Event.jsonBytes, Event.header, Json.bytes, Json.memberBytes]
      decide
    have hlength := hdigits (s.nextSeq + 2) hseq
    have hloss := bytes_lossMetadata (u := u) s.droppedFrames 0 s.droppedEvents 0
    show _ ≤ _
    unfold maxMetadataBytes
    omega

end Admission

/-- What a step accepts, it admits with room for the batch around it. -/
def AcceptsAdmitted (u : Setup) (s : Recorder) (_ : List Empty) (a : Action) : Prop :=
  ∀ t, step u s a = some t → ∀ i, Accepted t.toEvidence i → Accepted s.toEvidence i ∨ Admitted u i

/-- An accepted frame can be sent from the head of the queue exactly when its codec is supported or the batch
around it has room; events and gap markers always can. In every run that accepts no other frames the queue
never stalls. -/
theorem head_of_line_iff (u : Setup) (henvelope : u.envelopeBytes + maxMetadataBytes + 128 ≤ maxBatchBytes) :
    (∀ (s : Recorder) (x : FrameInput), s.refusesFrame u (s.newFrame x) = false →
      (SentAtHead u (.frame (s.newFrame x)) ↔ x.codec ∈ supportedCodecs ∨
        u.envelopeBytes + (s.newFrame x).jsonBytes u.doubleText ≤ maxBatchBytes)) ∧
    (∀ (s : Recorder) (e : Event) (encodable : Bool),
      s.refusesEvent u e encodable = false ∨ s.refusesLifecycle u e = false → SentAtHead u (.event e)) ∧
    (∀ s : Recorder, s.nextSeq + 2 < 10 ^ 19 →
      SentAtHead u (.frame s.lossFrame) ∧ SentAtHead u (.event s.lossMarker)) ∧
    ∀ (clock : ℤ) (spool : LinkSpoolStorage) (s : Recorder) (es : List Empty),
      (recorder u).Reach (AcceptsAdmitted u) (.create clock spool) s es → Flows u s.toEvidence := by
  have hfits : ∀ i, Admitted u i → Fits u i := by
    intro i hi
    let v : Evidence := { spool := { dir := .empty }, log := [.accepted i] }
    refine fits_of_stems (v := v) henvelope (fun j hj => ?_) (.same i (by simp [v, Accepted]))
    obtain rfl : j = i := by simpa [v, Accepted] using hj
    exact hi
  refine ⟨fun s x haccepted => ?_, fun s e encodable haccepted => ?_, fun s hseq => ?_,
    fun clock spool s es hrun => ?_⟩
  · rw [sentAtHead_iff]
    refine ⟨fun h => ?_, fun h => hfits _ ((admitted_frame_iff haccepted).mpr h)⟩
    exact h.elim .inr fun hcodec => .inl hcodec.1
  · exact (sentAtHead_iff u).mpr (hfits _ (admitted_event haccepted))
  · obtain ⟨hframe, hmarker⟩ := admitted_marker hseq
    exact ⟨(sentAtHead_iff u).mpr (hfits _ hframe), (sentAtHead_iff u).mpr (hfits _ hmarker)⟩
  · have hadmitted : ∀ i, Accepted s.toEvidence i → Admitted u i := by
      refine hrun.invariant (fun s _ => ∀ i, Accepted s.toEvidence i → Admitted u i)
        (by simp [Accepted, Recorder.create]) ?_
      intro s es a t fs hs hgood hstep i hi
      obtain ⟨t', ht', hpair⟩ := Option.map_eq_some_iff.mp hstep
      obtain ⟨rfl, rfl⟩ := Prod.mk.inj hpair
      exact (hgood t' ht' i hi).elim (hs i) id
    have hstems : ∀ i ∈ s.queue, Stems s.toEvidence i :=
      run_invariant (fun v => ∀ i ∈ v.queue, Stems v i) (by simp [Recorder.create, Evidence.queue])
        (fun _ _ _ _ h _ hmove => Head.stems h hmove) (fun _ _ _ _ h hmove => Calm.stems h hmove) hrun
    exact flows_of_fits u fun i hi => fits_of_stems henvelope hadmitted (hstems i hi)

theorem head_of_line_sample : SentAtHead (sampleSetup "resilient")
    (.frame (sampleRecorder.newFrame (sampleFrame 1))) :=
  ((head_of_line_iff (sampleSetup "resilient") (by decide)).1 sampleRecorder (sampleFrame 1) (by decide)).mpr
    (.inl (by decide))

/-- A frame of 2096960 bytes of Base64 in a codec that is not supported is accepted, and no batch takes it. -/
theorem unsupported_frame_stalls : ¬∀ (u : Setup) (s : Recorder) (x : FrameInput),
    s.refusesFrame u (s.newFrame x) = false → SentAtHead u (.frame (s.newFrame x)) := by
  intro h
  let u := sampleSetup "resilient"
  let x : FrameInput := { sampleFrame 0 with codec := "av1", payload := List.replicate 1572720 0 }
  have hmetadata : (sampleRecorder.newFrame x).metadataBytes u.doubleText = 158 := by decide
  have hbytes : (sampleRecorder.newFrame x).jsonBytes u.doubleText = 2097118 := by
    unfold Frame.jsonBytes base64Length
    rw [hmetadata, show (sampleRecorder.newFrame x).payload = List.replicate 1572720 0 from rfl, length_replicate]
  have henvelope : u.envelopeBytes = 110 := by decide
  have haccepted : sampleRecorder.refusesFrame u (sampleRecorder.newFrame x) = false := by
    unfold Recorder.refusesFrame Recorder.fitsDataQueue
    rw [hmetadata, hbytes, show (sampleRecorder.newFrame x).payload = List.replicate 1572720 0 from rfl,
      length_replicate]
    decide
  have hfits := (sentAtHead_iff u).mp (h u sampleRecorder x haccepted)
  unfold Fits at hfits
  dsimp only at hfits
  rw [hbytes, henvelope] at hfits
  exact absurd hfits (by decide)

end LigamentApps.LinkHostRecorder
