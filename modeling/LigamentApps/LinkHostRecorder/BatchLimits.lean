import LigamentApps.LinkHostRecorder.Numbering
import LigamentApps.Text.Base64

/-!
# The limits of a batch

The loop of `_flushInternal` that selects a batch, with its two indices and its running size, over the whole
JSON of the batch that is sent. It selects what `selectItems` does (`selectLoop_eq`), its running size is the
one of the JSON, and it stops only where the next item would break a limit (`Selecting.WithinLimits.loop`). -/

namespace LigamentApps.LinkHostRecorder

open List Option

variable {e : Event} {α : Type}

/-! ## The JSON of a batch -/

/-- How `toIso8601String` writes an instant: a text of digits, signs and letters. -/
structure TimeTexts where
  text : ℤ → String
  strBytes_text : ∀ instant, Json.strBytes (text instant) = 2 + iso8601Length instant

section Json

variable (w : TimeTexts) (doubleText : ℚ → String)

def Frame.json (f : Frame) : Json :=
  .obj [("seq", .int f.seq), ("frame_kind", .str f.frameKind), ("monitor_id", .str f.monitorId),
    ("width", .int f.width), ("height", .int f.height), ("codec", .str f.codec),
    ("payload_base64", .str (Base64.encode f.payload)), ("captured_at", .str (w.text f.capturedAt))]

def Event.json (e : Event) : Json :=
  .obj [("seq", .int e.seq), ("event_type", .str e.eventType), ("source", .str e.source),
    ("occurred_at", .str (w.text e.occurredAt)), ("metadata", e.metadata)]

def Batch.json (b : Batch) : Json :=
  .obj [("session_id", .str b.sessionId), ("epoch", .int b.epoch), ("lease_ttl_seconds", .int b.leaseTtlSeconds),
    ("frames", .arr (b.frames.map (·.json w))), ("events", .arr (b.events.map (·.json w)))]

theorem charBytes_digit : ∀ v < 64, Json.charBytes (Base64.digit v) = 1 := by decide

theorem sum_charBytes_encodeChars (payload : List UInt8) :
    ((Base64.encodeChars payload).map Json.charBytes).sum = base64Length payload := by
  have hpad : Json.charBytes '=' = 1 := by decide
  have hdigit : ∀ v, v < 64 → Json.charBytes (Base64.digit v) = 1 := charBytes_digit
  unfold base64Length
  induction payload using Base64.encodeChars.induct with
  | case1 a b c rest ih =>
    have ha := a.toNat_lt
    have hb := b.toNat_lt
    have hc := c.toNat_lt
    rw [Base64.encodeChars]
    simp only [map_cons, sum_cons, length_cons, ih]
    rw [hdigit _ (by omega), hdigit _ (by omega), hdigit _ (by omega), hdigit _ (by omega)]
    omega
  | case2 a b =>
    have ha := a.toNat_lt
    have hb := b.toNat_lt
    simp only [Base64.encodeChars, map_cons, sum_cons, map_nil, sum_nil, hpad]
    rw [hdigit _ (by omega), hdigit _ (by omega), hdigit _ (by omega)]
    simp
  | case3 a =>
    have ha := a.toNat_lt
    simp only [Base64.encodeChars, map_cons, sum_cons, map_nil, sum_nil, hpad]
    rw [hdigit _ (by omega), hdigit _ (by omega)]
    simp
  | case4 => rfl

theorem Frame.bytes_json (f : Frame) : (f.json w).bytes doubleText = f.jsonBytes doubleText := by
  have hpayload : Json.strBytes (Base64.encode f.payload) = 2 + base64Length f.payload := by
    unfold Json.strBytes Base64.encode
    rw [String.toList_ofList, sum_charBytes_encodeChars]
  have hempty : Json.strBytes "" = 2 := rfl
  unfold Frame.json Frame.jsonBytes Frame.metadataBytes Frame.header
  simp only [Json.bytes, Json.memberBytes, hpayload, w.strBytes_text, hempty]
  simp
  omega

theorem Event.bytes_json (e : Event) : (e.json w).bytes doubleText = e.jsonBytes doubleText := by
  have hempty : Json.strBytes "" = 2 := rfl
  unfold Event.json Event.jsonBytes Event.header
  simp only [Json.bytes, Json.memberBytes, w.strBytes_text, hempty]
  simp
  omega

theorem elementBytes_map (json : α → Json) (size : α → ℕ) (h : ∀ x, (json x).bytes doubleText = size x)
    (xs : List α) : Json.elementBytes doubleText (xs.map json) = (xs.map size).sum + xs.length := by
  induction xs with
  | nil => rfl
  | cons x xs ih =>
    rw [map_cons, Json.elementBytes, ih, h, map_cons, sum_cons, length_cons]
    omega

theorem Batch.bytes_json (b : Batch) : (b.json w).bytes doubleText = b.jsonBytes doubleText := by
  have hframes := elementBytes_map doubleText (Frame.json w) (·.jsonBytes doubleText)
    (Frame.bytes_json w doubleText) b.frames
  have hevents := elementBytes_map doubleText (Event.json w) (·.jsonBytes doubleText)
    (Event.bytes_json w doubleText) b.events
  unfold Batch.json Batch.jsonBytes Batch.envelopeBytes listBytes
  simp only [Json.bytes, Json.memberBytes, hframes, hevents, Json.elementBytes, length_map]
  cases b.frames <;> cases b.events <;> simp <;> omega

end Json

/-! ## The loop -/

/-- The variables of the loop. -/
structure Selecting where
  frameIndex : ℕ := 0
  eventIndex : ℕ := 0
  batchFrames : List Frame := []
  batchEvents : List Event := []
  currentBatchBytes : ℕ

variable {l : Selecting}

/-- The element of a pending list at an index, where its number is up to the cycle's. -/
def headUpTo {α : Type} (seq : α → ℕ) (upperSeq : ℕ) (pending : List α) (index : ℕ) : Option α :=
  (pending[index]?).filter fun x => seq x ≤ upperSeq

section Loop

variable (u : Setup) (v : Evidence) (upperSeq : ℕ) (l : Selecting)

/-- The item that the loop looks at next: of two heads the frame only where its number is smaller. -/
def Selecting.item : Option Item :=
  match headUpTo Frame.seq upperSeq v.pendingFrames l.frameIndex,
    headUpTo Event.seq upperSeq v.pendingEvents l.eventIndex with
  | none, none => none
  | some f, none => some (.frame f)
  | none, some e => some (.event e)
  | some f, some e => if f.seq < e.seq then some (.frame f) else some (.event e)

/-- The batch with one more frame. -/
def Selecting.addFrame (f : Frame) : Selecting :=
  { l with
    batchFrames := l.batchFrames ++ [f]
    currentBatchBytes := nextBytes l.currentBatchBytes (f.jsonBytes u.doubleText) l.batchFrames.isEmpty }

/-- The batch with one more event. -/
def Selecting.addEvent (e : Event) : Selecting :=
  { l with
    batchEvents := l.batchEvents ++ [e]
    currentBatchBytes := nextBytes l.currentBatchBytes (e.jsonBytes u.doubleText) l.batchEvents.isEmpty }

/-- The items that are not looked at yet, in the order in which they are. -/
def Selecting.ahead : List Item :=
  mergeItems ((v.pendingFrames.drop l.frameIndex).takeWhile (·.seq ≤ upperSeq))
    ((v.pendingEvents.drop l.eventIndex).takeWhile (·.seq ≤ upperSeq))

variable {v upperSeq l}

theorem lt_of_headUpTo {seq : α → ℕ} {pending : List α} {index : ℕ} {x : α}
    (h : headUpTo seq upperSeq pending index = some x) : index < pending.length :=
  (List.getElem?_eq_some_iff.mp (filter_eq_some_iff.mp h).1).1

theorem takeWhile_drop {seq : α → ℕ} {pending : List α} {index : ℕ} :
    (pending.drop index).takeWhile (seq · ≤ upperSeq) =
      match headUpTo seq upperSeq pending index with
      | some x => x :: (pending.drop (index + 1)).takeWhile (seq · ≤ upperSeq)
      | none => [] := by
  unfold headUpTo
  cases hat : pending[index]? with
  | none =>
    rw [drop_eq_nil_of_le (List.getElem?_eq_none_iff.mp hat)]
    rfl
  | some x =>
    obtain ⟨hlt, rfl⟩ := List.getElem?_eq_some_iff.mp hat
    rw [drop_eq_getElem_cons hlt]
    by_cases hle : seq pending[index] ≤ upperSeq
    · rw [takeWhile_cons_of_pos (by simpa using hle), filter_some, if_pos (by simpa using hle)]
    · rw [takeWhile_cons_of_neg (by simpa using hle), filter_some, if_neg (by simpa using hle)]

theorem mergeItems_frame {f : Frame} {frames : List Frame} {events : List Event} (h : f.seq < e.seq) :
    mergeItems (f :: frames) (e :: events) = .frame f :: mergeItems frames (e :: events) := by
  have hfirst : decide (e.seq ≤ f.seq) = false := by simpa using h
  simp only [mergeItems, takeWhile_cons, dropWhile_cons, hfirst]
  rfl

theorem mergeItems_event {f : Frame} {frames : List Frame} {events : List Event} (h : e.seq ≤ f.seq) :
    mergeItems (f :: frames) (e :: events) = .event e :: mergeItems (f :: frames) events := by
  have hfirst : decide (e.seq ≤ f.seq) = true := by simpa using h
  simp only [mergeItems, takeWhile_cons, dropWhile_cons, hfirst]
  rfl

theorem Selecting.ahead_eq : l.ahead v upperSeq =
    match l.item v upperSeq with
    | none => []
    | some (.frame f) => .frame f :: { l with frameIndex := l.frameIndex + 1 }.ahead v upperSeq
    | some (.event e) => .event e :: { l with eventIndex := l.eventIndex + 1 }.ahead v upperSeq := by
  unfold Selecting.ahead Selecting.item
  rw [takeWhile_drop, @takeWhile_drop _ _ Event.seq]
  cases headUpTo Frame.seq upperSeq v.pendingFrames l.frameIndex with
  | none =>
    cases headUpTo Event.seq upperSeq v.pendingEvents l.eventIndex with
    | none => rfl
    | some => rfl
  | some f =>
    cases headUpTo Event.seq upperSeq v.pendingEvents l.eventIndex with
    | none => rfl
    | some e =>
      dsimp only
      by_cases hlt : f.seq < e.seq
      · rw [if_pos hlt, mergeItems_frame hlt]
      · rw [if_neg hlt, mergeItems_event (by omega)]

theorem Selecting.lt_of_item_frame {f : Frame} (h : l.item v upperSeq = some (.frame f)) :
    l.frameIndex < v.pendingFrames.length := by
  unfold Selecting.item at h
  split at h
  · cases h
  · exact lt_of_headUpTo ‹_›
  · cases h
  · exact lt_of_headUpTo ‹headUpTo Frame.seq _ _ _ = _›

theorem Selecting.lt_of_item_event (h : l.item v upperSeq = some (.event e)) :
    l.eventIndex < v.pendingEvents.length := by
  unfold Selecting.item at h
  split at h
  · cases h
  · cases h
  · exact lt_of_headUpTo ‹_›
  · exact lt_of_headUpTo ‹headUpTo Event.seq _ _ _ = _›

variable (v upperSeq)

def selectLoop (l : Selecting) : Selecting :=
  match _hitem : l.item v upperSeq with
  | none => l
  | some (.frame f) =>
    if maxBatchFrames ≤ l.batchFrames.length then l
    else if maxBatchBytes < (l.addFrame u f).currentBatchBytes then
      if l.batchFrames.isEmpty && l.batchEvents.isEmpty && supportedCodecs.contains f.codec &&
          (l.addFrame u f).currentBatchBytes ≤ 20 * 1024 * 1024 then l.addFrame u f
      else l
    else selectLoop { l.addFrame u f with frameIndex := l.frameIndex + 1 }
  | some (.event e) =>
    if maxBatchEvents ≤ l.batchEvents.length then l
    else if maxBatchBytes < (l.addEvent u e).currentBatchBytes then l
    else selectLoop { l.addEvent u e with eventIndex := l.eventIndex + 1 }
termination_by (v.pendingFrames.length - l.frameIndex) + (v.pendingEvents.length - l.eventIndex)
decreasing_by
  · have hlt := Selecting.lt_of_item_frame _hitem
    simp only [Selecting.addFrame]
    omega
  · have hlt := Selecting.lt_of_item_event _hitem
    simp only [Selecting.addEvent]
    omega

theorem oversized_eq (l : Selecting) (f : Frame) :
    (l.batchFrames.isEmpty && l.batchEvents.isEmpty && supportedCodecs.contains f.codec &&
      (l.addFrame u f).currentBatchBytes ≤ 20 * 1024 * 1024) =
    (l.batchFrames.isEmpty && l.batchEvents.isEmpty && supportedCodecs.contains f.codec &&
      nextBytes l.currentBatchBytes (f.jsonBytes u.doubleText) true ≤ 20 * 1024 * 1024) := by
  unfold Selecting.addFrame
  cases l.batchFrames.isEmpty <;> rfl

theorem selectLoop_eq (l : Selecting) : ((selectLoop u v upperSeq l).batchFrames,
    (selectLoop u v upperSeq l).batchEvents) =
    selectItems u.doubleText (l.ahead v upperSeq) l.batchFrames l.batchEvents l.currentBatchBytes := by
  induction l using selectLoop.induct u v upperSeq with
  | case1 l hitem =>
    rw [selectLoop, Selecting.ahead_eq, hitem]
    rfl
  | case2 l _ hitem hfull | case6 l _ hitem hfull =>
    rw [selectLoop, Selecting.ahead_eq, hitem]
    dsimp only
    rw [if_pos hfull, selectItems, if_pos hfull]
  | case3 l f hitem hfull hover halone =>
    have hempty := halone
    simp only [Bool.and_eq_true, List.isEmpty_iff] at hempty
    obtain ⟨⟨⟨hframes, hevents⟩, -⟩, -⟩ := hempty
    have hother := halone
    rw [oversized_eq] at hother
    rw [selectLoop, Selecting.ahead_eq, hitem]
    dsimp only
    rw [if_neg hfull, if_pos hover, if_pos halone, selectItems, if_neg hfull]
    show _ = if maxBatchBytes < (l.addFrame u f).currentBatchBytes then _ else _
    rw [if_pos hover, if_pos hother]
    simp [Selecting.addFrame, hframes, hevents]
  | case4 l f hitem hfull hover halone =>
    have hother := halone
    rw [oversized_eq] at hother
    rw [selectLoop, Selecting.ahead_eq, hitem]
    dsimp only
    rw [if_neg hfull, if_pos hover, if_neg halone, selectItems, if_neg hfull]
    show _ = if maxBatchBytes < (l.addFrame u f).currentBatchBytes then _ else _
    rw [if_pos hover, if_neg hother]
  | case5 l _ hitem hfull hover ih | case8 l _ hitem hfull hover ih =>
    rw [selectLoop, Selecting.ahead_eq, hitem]
    dsimp only
    rw [if_neg hfull, if_neg hover, ih, selectItems, if_neg hfull]
    exact (if_neg hover).symm
  | case7 l e hitem hfull hover =>
    rw [selectLoop, Selecting.ahead_eq, hitem]
    dsimp only
    rw [if_neg hfull, if_pos hover, selectItems, if_neg hfull]
    exact (if_pos hover).symm

/-- A batch in the making: its running size is the one of its JSON, and it is within the limits. -/
structure Selecting.WithinLimits (l : Selecting) : Prop where
  bytes : l.currentBatchBytes = (u.batch l.batchFrames l.batchEvents).jsonBytes u.doubleText
  frames : l.batchFrames.length ≤ maxBatchFrames
  events : l.batchEvents.length ≤ maxBatchEvents
  size : l.currentBatchBytes ≤ maxBatchBytes ∨
    ∃ f, l.batchFrames = [f] ∧ l.batchEvents = [] ∧ f.codec ∈ supportedCodecs ∧
      l.currentBatchBytes ≤ 20 * 1024 * 1024

/-- With one item more a batch would break a limit; a frame of a supported codec, alone, even the one of the
proxy. -/
def Selecting.Refuses (l : Selecting) : Item → Prop
  | .frame f => maxBatchFrames ≤ l.batchFrames.length ∨
      maxBatchBytes < (u.batch (l.batchFrames ++ [f]) l.batchEvents).jsonBytes u.doubleText ∧
        (l.batchFrames = [] → l.batchEvents = [] → f.codec ∈ supportedCodecs →
          20 * 1024 * 1024 < (u.batch [f] []).jsonBytes u.doubleText)
  | .event e => maxBatchEvents ≤ l.batchEvents.length ∨
      maxBatchBytes < (u.batch l.batchFrames (l.batchEvents ++ [e])).jsonBytes u.doubleText

/-- What one batch has more than the other is the first items ahead, and with the next one it would break a
limit. -/
def Selecting.Maximal (l l' : Selecting) (ahead : List Item) : Prop :=
  ∃ taken rest, ahead = taken ++ rest ∧ l'.batchFrames = l.batchFrames ++ framesOf taken ∧
    l'.batchEvents = l.batchEvents ++ eventsOf taken ∧ ∀ i ∈ rest.head?, l'.Refuses u i

theorem listBytes_append (sizes : List ℕ) (n : ℕ) :
    listBytes (sizes ++ [n]) = nextBytes (listBytes sizes) n sizes.isEmpty := by
  unfold listBytes nextBytes
  cases sizes with
  | nil => simp
  | cons => simp; omega

theorem jsonBytes_batch (frames : List Frame) (events : List Event) :
    (u.batch frames events).jsonBytes u.doubleText = (u.batch [] []).envelopeBytes u.doubleText +
      listBytes (frames.map (·.jsonBytes u.doubleText)) + listBytes (events.map (·.jsonBytes u.doubleText)) := rfl

theorem bytes_addFrame (h : l.WithinLimits u) (f : Frame) : (l.addFrame u f).currentBatchBytes =
    (u.batch (l.batchFrames ++ [f]) l.batchEvents).jsonBytes u.doubleText := by
  have hbytes := h.bytes
  rw [jsonBytes_batch] at hbytes ⊢
  simp only [Selecting.addFrame, map_append, map_cons, map_nil, listBytes_append, isEmpty_map]
  unfold nextBytes
  omega

theorem bytes_addEvent (h : l.WithinLimits u) (e : Event) : (l.addEvent u e).currentBatchBytes =
    (u.batch l.batchFrames (l.batchEvents ++ [e])).jsonBytes u.doubleText := by
  have hbytes := h.bytes
  rw [jsonBytes_batch] at hbytes ⊢
  simp only [Selecting.addEvent, map_append, map_cons, map_nil, listBytes_append, isEmpty_map]
  unfold nextBytes
  omega

/-- Behind an oversized frame nothing more is taken. -/
theorem refuses_oversized (h : l.WithinLimits u) (hover : maxBatchBytes < l.currentBatchBytes)
    (hframes : l.batchFrames ≠ []) (i : Item) : l.Refuses u i := by
  cases i with
  | frame f =>
    refine .inr ⟨?_, fun hempty => absurd hempty hframes⟩
    rw [← bytes_addFrame u h f]
    simp only [Selecting.addFrame, nextBytes]
    omega
  | event e =>
    refine .inr ?_
    rw [← bytes_addEvent u h e]
    simp only [Selecting.addEvent, nextBytes]
    omega

/-- The loop ends where nothing is taken any more. -/
theorem maximal_stop {ahead : List Item} (h : ∀ i ∈ ahead.head?, l.Refuses u i) : Selecting.Maximal u l l ahead :=
  ⟨[], ahead, rfl, (append_nil _).symm, (append_nil _).symm, h⟩

theorem maximal_frame (l' : Selecting) {l'' : Selecting} {f : Frame} {ahead : List Item}
    (hframes : l'.batchFrames = l.batchFrames ++ [f]) (hevents : l'.batchEvents = l.batchEvents)
    (h : Selecting.Maximal u l' l'' ahead) : Selecting.Maximal u l l'' (.frame f :: ahead) := by
  obtain ⟨taken, rest, rfl, htaken, htaken', hrest⟩ := h
  refine ⟨.frame f :: taken, rest, rfl, ?_, ?_, hrest⟩
  · rw [htaken, hframes, append_assoc]
    rfl
  · rw [htaken', hevents]
    rfl

theorem maximal_event (l' : Selecting) {l'' : Selecting} {ahead : List Item}
    (hframes : l'.batchFrames = l.batchFrames) (hevents : l'.batchEvents = l.batchEvents ++ [e])
    (h : Selecting.Maximal u l' l'' ahead) : Selecting.Maximal u l l'' (.event e :: ahead) := by
  obtain ⟨taken, rest, rfl, htaken, htaken', hrest⟩ := h
  refine ⟨.event e :: taken, rest, rfl, ?_, ?_, hrest⟩
  · rw [htaken, hframes]
    rfl
  · rw [htaken', hevents, append_assoc]
    rfl

/-- The loop keeps the limits, and where it stops before the end the next item would break one. -/
theorem Selecting.WithinLimits.loop (h : l.WithinLimits u) : (selectLoop u v upperSeq l).WithinLimits u ∧
    Selecting.Maximal u l (selectLoop u v upperSeq l) (l.ahead v upperSeq) := by
  induction l using selectLoop.induct u v upperSeq with
  | case1 l hitem =>
    rw [selectLoop, Selecting.ahead_eq, hitem]
    exact ⟨h, maximal_stop u (by simp)⟩
  | case2 l _ hitem hfull | case6 l _ hitem hfull =>
    rw [selectLoop, Selecting.ahead_eq, hitem]
    dsimp only
    rw [if_pos hfull]
    refine ⟨h, maximal_stop u fun i hi => ?_⟩
    cases hi
    exact .inl hfull
  | case3 l f hitem hfull hover halone =>
    have hempty := halone
    simp only [Bool.and_eq_true, List.isEmpty_iff, contains_iff_mem, decide_eq_true_eq] at hempty
    obtain ⟨⟨⟨hframes, hevents⟩, hcodec⟩, hproxy⟩ := hempty
    have hlimits : (l.addFrame u f).WithinLimits u := by
      refine ⟨bytes_addFrame u h f, ?_, h.events, .inr ⟨f, ?_, hevents, hcodec, hproxy⟩⟩
      · simp [Selecting.addFrame, hframes, maxBatchFrames]
      · simp [Selecting.addFrame, hframes]
    rw [selectLoop, Selecting.ahead_eq, hitem]
    dsimp only
    rw [if_neg hfull, if_pos hover, if_pos halone]
    refine ⟨hlimits, maximal_frame u (l.addFrame u f) rfl rfl (maximal_stop u fun i _ => ?_)⟩
    exact refuses_oversized u hlimits hover (by simp [Selecting.addFrame]) i
  | case4 l f hitem hfull hover halone =>
    rw [selectLoop, Selecting.ahead_eq, hitem]
    dsimp only
    rw [if_neg hfull, if_pos hover, if_neg halone]
    refine ⟨h, maximal_stop u fun i hi => ?_⟩
    cases hi
    rw [bytes_addFrame u h f] at hover halone
    refine .inr ⟨hover, fun hframes hevents hcodec => ?_⟩
    simp only [hframes, hevents, isEmpty_nil, contains_iff_mem.mpr hcodec, Bool.and_self, Bool.true_and,
      decide_eq_true_eq, nil_append] at halone
    omega
  | case5 l f hitem hfull hover ih =>
    rw [selectLoop, Selecting.ahead_eq, hitem]
    dsimp only
    rw [if_neg hfull, if_neg hover]
    have hnext := ih ⟨bytes_addFrame u h f, by simp [Selecting.addFrame]; omega, h.events,
      .inl (Nat.le_of_not_lt hover)⟩
    exact ⟨hnext.1, maximal_frame u { l.addFrame u f with frameIndex := l.frameIndex + 1 } rfl rfl hnext.2⟩
  | case7 l e hitem hfull hover =>
    rw [selectLoop, Selecting.ahead_eq, hitem]
    dsimp only
    rw [if_neg hfull, if_pos hover]
    refine ⟨h, maximal_stop u fun i hi => ?_⟩
    cases hi
    rw [bytes_addEvent u h e] at hover
    exact .inr hover
  | case8 l e hitem hfull hover ih =>
    rw [selectLoop, Selecting.ahead_eq, hitem]
    dsimp only
    rw [if_neg hfull, if_neg hover]
    have hnext := ih ⟨bytes_addEvent u h e, h.frames, by simp [Selecting.addEvent]; omega,
      .inl (Nat.le_of_not_lt hover)⟩
    exact ⟨hnext.1, maximal_event u { l.addEvent u e with eventIndex := l.eventIndex + 1 } rfl rfl hnext.2⟩

/-- The loop as `_flushInternal` starts it. -/
def selectBatch : Selecting :=
  selectLoop u v upperSeq { currentBatchBytes := (u.batch [] []).jsonBytes u.doubleText }

end Loop

/-- In every state of every run the loop makes the batch that is sent: a first part of the pending items up to
the cycle's number, in the order of their numbers, and with the next one it would break a limit. Its running
size is the one of the JSON; it holds at most 20 frames and 200 events, and takes at most 2 MiB, unless it is
one oversized frame of a supported codec. The members besides the frames and events are taken to have room in
it. -/
theorem batch_within_limits (u : Setup) (w : TimeTexts) {clock : ℤ} {spool : LinkSpoolStorage} {s : Recorder}
    {es : List Empty} (hrun : (recorder u).Reach (fun _ _ _ => True) (.create clock spool) s es)
    (upperSeq : ℕ) (henvelope : (u.batch [] []).jsonBytes u.doubleText ≤ 2 * 1024 * 1024) :
    ∃ l, l = selectBatch u s.toEvidence upperSeq ∧
      s.liveBatch u upperSeq = u.batch l.batchFrames l.batchEvents ∧
      (∃ merged taken rest, merged.Pairwise (·.seq < ·.seq) ∧
        (∀ i, i ∈ merged ↔ i ∈ s.queue ∧ i.seq ≤ upperSeq) ∧ merged = taken ++ rest ∧
        l.batchFrames = framesOf taken ∧ l.batchEvents = eventsOf taken ∧ ∀ i ∈ rest.head?, l.Refuses u i) ∧
      l.currentBatchBytes = ((s.liveBatch u upperSeq).json w).bytes u.doubleText ∧
      l.batchFrames.length ≤ 20 ∧ l.batchEvents.length ≤ 200 ∧
      (l.currentBatchBytes ≤ 2 * 1024 * 1024 ∨
        ∃ f, l.batchFrames = [f] ∧ l.batchEvents = [] ∧ f.codec ∈ supportedCodecs ∧
          l.currentBatchBytes ≤ 20 * 1024 * 1024) := by
  have hnumbered := run_numbered hrun
  have hempty : Selecting.WithinLimits u { currentBatchBytes := (u.batch [] []).jsonBytes u.doubleText } :=
    ⟨rfl, Nat.zero_le _, Nat.zero_le _, .inl henvelope⟩
  obtain ⟨hlimits, taken, rest, hitems, hframes, hevents, hrest⟩ := hempty.loop u s.toEvidence upperSeq
  have hselected := selectLoop_eq u s.toEvidence upperSeq
    { currentBatchBytes := (u.batch [] []).jsonBytes u.doubleText }
  have hlive : s.liveBatch u upperSeq = u.batch (selectBatch u s.toEvidence upperSeq).batchFrames
      (selectBatch u s.toEvidence upperSeq).batchEvents := by
    obtain ⟨hframes, hevents⟩ := Prod.mk.inj hselected
    rw [selectBatch, hframes, hevents]
    rfl
  have hsorted : (s.itemsUpTo upperSeq).Pairwise (·.seq < ·.seq) :=
    pairwise_mergeItems (hnumbered.framesSorted.sublist (takeWhile_sublist _))
      (hnumbered.eventsSorted.sublist (takeWhile_sublist _)) fun f hf e he =>
        hnumbered.frames_events_apart f ((takeWhile_sublist _).subset hf) e ((takeWhile_sublist _).subset he)
  have hmem : ∀ i, i ∈ s.itemsUpTo upperSeq ↔ i ∈ s.queue ∧ i.seq ≤ upperSeq := by
    intro i
    refine ⟨mem_itemsUpTo, fun ⟨hqueue, hle⟩ => ?_⟩
    by_contra hnot
    have hlt := lt_of_not_mem_itemsUpTo hnumbered.framesSorted hnumbered.eventsSorted hqueue hnot
    omega
  refine ⟨_, rfl, hlive, ⟨_, taken, rest, hsorted, hmem, hitems, hframes, hevents, hrest⟩, ?_, hlimits.frames,
    hlimits.events, hlimits.size⟩
  rw [hlive, Batch.bytes_json]
  exact hlimits.bytes

/-- The text of the first instant; of other ones only the length matters. -/
def sampleTimes : TimeTexts where
  text instant :=
    if instant = 0 then "1970-01-01T00:00:00.000Z" else .ofList (List.replicate (iso8601Length instant) '0')
  strBytes_text instant := by
    have hzero : Json.charBytes '0' = 1 := by decide
    split
    · rename_i h
      subst h
      decide
    · rw [Json.strBytes, String.toList_ofList, map_replicate, hzero, sum_replicate_nat, Nat.mul_one]

/-- An event between 21 frames: the batch has the first 20 of them and the event, and refuses the last one. -/
theorem batch_within_limits_sample : ∃ (s : Recorder) (l : Selecting),
    l = selectBatch (sampleSetup "resilient") s.toEvidence 22 ∧ l.batchFrames.length = 20 ∧
      l.batchEvents.length = 1 ∧ s.queue.length = 22 ∧
      l.currentBatchBytes = ((s.liveBatch (sampleSetup "resilient") 22).json sampleTimes).bytes fun _ => "0.5" := by
  have hqueued : ∃ r ∈ (recorder (sampleSetup "resilient")).exec (fun _ _ _ => true) sampleRecorder []
      (.enqueueFrame (sampleFrame 1) :: .observeControlInput sampleMessage true ::
        List.replicate 20 (.enqueueFrame (sampleFrame 2))),
      ((r.1.liveBatch (sampleSetup "resilient") 22).frames.length = 20 ∧
        (r.1.liveBatch (sampleSetup "resilient") 22).events.length = 1) ∧ r.1.queue.length = 22 := by decide +kernel
  obtain ⟨⟨s, es⟩, hexec, ⟨hframes, hevents⟩, hqueue⟩ := hqueued
  obtain ⟨l, hl, hlive, -, hbytes, -⟩ := batch_within_limits (sampleSetup "resilient") sampleTimes
    (Machine.reach_of_exec (fun _ _ _ _ => trivial) hexec) 22 (by decide +kernel)
  rw [show s.liveBatch _ _ = _ from hlive] at hframes hevents
  exact ⟨s, l, hl, hframes, hevents, hqueue, hbytes⟩

end LigamentApps.LinkHostRecorder
