import Mathlib.Data.List.TakeWhile
import LigamentApps.LinkHostRecorder.Flush

/-!
# The selection of a batch

The batch that a round makes of the queue is a first part of the pending items up to the cycle's
number, in the order of their numbers. -/

namespace LigamentApps.LinkHostRecorder

open List

def framesOf (items : List Item) : List Frame :=
  items.filterMap fun
    | .frame f => some f
    | .event _ => none

def eventsOf (items : List Item) : List Event :=
  items.filterMap fun
    | .frame _ => none
    | .event e => some e

theorem lt_of_mem_dropWhile {α : Type} (seq : α → ℕ) {xs : List α} {bound : ℕ} {x : α}
    (hsorted : xs.Pairwise (seq · < seq ·)) (hx : x ∈ xs.dropWhile (seq · ≤ bound)) :
    bound < seq x := by
  induction xs with
  | nil => simp at hx
  | cons y _ ih =>
    obtain ⟨hfirst, hrest⟩ := pairwise_cons.mp hsorted
    by_cases hy : seq y ≤ bound
    · rw [dropWhile_cons_of_pos (by simpa using hy)] at hx
      exact ih hrest hx
    · rw [dropWhile_cons_of_neg (by simpa using hy)] at hx
      rcases mem_cons.mp hx with rfl | hx
      · omega
      · have hlt := hfirst x hx
        omega

section Lists

variable {items : List Item} {frames : List Frame} {events : List Event}

@[simp] theorem framesOf_append (items' : List Item) :
    framesOf (items ++ items') = framesOf items ++ framesOf items' :=
  filterMap_append

@[simp] theorem eventsOf_append (items' : List Item) :
    eventsOf (items ++ items') = eventsOf items ++ eventsOf items' :=
  filterMap_append

@[simp] theorem framesOf_map_event : framesOf (events.map .event) = [] := by
  simp [framesOf]

@[simp] theorem eventsOf_map_event : eventsOf (events.map .event) = events := by
  simp [eventsOf]

theorem mem_framesOf {f : Frame} : f ∈ framesOf items ↔ .frame f ∈ items := by
  constructor
  · intro h
    obtain ⟨i, hi, hf⟩ := mem_filterMap.mp h
    cases i with
    | frame =>
      cases hf
      exact hi
    | event => simp at hf
  · intro h
    exact mem_filterMap.mpr ⟨.frame f, h, rfl⟩

theorem mem_eventsOf {e : Event} : e ∈ eventsOf items ↔ .event e ∈ items := by
  constructor
  · intro h
    obtain ⟨i, hi, he⟩ := mem_filterMap.mp h
    cases i with
    | frame => simp at he
    | event =>
      cases he
      exact hi
  · intro h
    exact mem_filterMap.mpr ⟨.event e, h, rfl⟩

@[simp] theorem framesOf_mergeItems : framesOf (mergeItems frames events) = frames := by
  induction frames generalizing events with
  | nil => exact framesOf_map_event
  | cons f frames ih =>
    rw [mergeItems, framesOf_append, framesOf_map_event, nil_append]
    show f :: framesOf (mergeItems frames _) = f :: frames
    rw [ih]

@[simp] theorem eventsOf_mergeItems : eventsOf (mergeItems frames events) = events := by
  induction frames generalizing events with
  | nil => exact eventsOf_map_event
  | cons _ frames ih =>
    rw [mergeItems, eventsOf_append, eventsOf_map_event]
    show events.takeWhile _ ++ eventsOf (mergeItems frames _) = events
    rw [ih, takeWhile_append_dropWhile]

theorem mem_mergeItems {i : Item} :
    i ∈ mergeItems frames events ↔ i ∈ frames.map Item.frame ∨ i ∈ events.map Item.event := by
  cases i with
  | frame =>
    rw [← mem_framesOf, framesOf_mergeItems]
    simp
  | event =>
    rw [← mem_eventsOf, eventsOf_mergeItems]
    simp

theorem pairwise_mergeItems (hframes : frames.Pairwise (·.seq < ·.seq))
    (hevents : events.Pairwise (·.seq < ·.seq))
    (hapart : ∀ f ∈ frames, ∀ e ∈ events, f.seq ≠ e.seq) :
    (mergeItems frames events).Pairwise (·.seq < ·.seq) := by
  induction frames generalizing events with
  | nil => exact pairwise_map.mpr hevents
  | cons f frames ih =>
    obtain ⟨hfirst, hrest⟩ := pairwise_cons.mp hframes
    have hbehind := dropWhile_sublist (l := events) (·.seq ≤ f.seq)
    have hlater : (mergeItems frames (events.dropWhile (·.seq ≤ f.seq))).Pairwise (·.seq < ·.seq) :=
      ih hrest (hevents.sublist hbehind) fun g hg e he =>
        hapart g (mem_cons_of_mem _ hg) e (hbehind.subset he)
    have hdrop : ∀ e ∈ events.dropWhile (·.seq ≤ f.seq), f.seq < e.seq := fun e he =>
      lt_of_mem_dropWhile Event.seq hevents he
    have htail : (Item.frame f :: mergeItems frames (events.dropWhile (·.seq ≤ f.seq))).Pairwise
        (·.seq < ·.seq) := by
      refine pairwise_cons.mpr ⟨fun i hi => ?_, hlater⟩
      rcases mem_mergeItems.mp hi with h | h
      · obtain ⟨g, hg, rfl⟩ := mem_map.mp h
        exact hfirst g hg
      · obtain ⟨e, he, rfl⟩ := mem_map.mp h
        exact hdrop e he
    rw [mergeItems, pairwise_append]
    refine ⟨pairwise_map.mpr (hevents.sublist (takeWhile_sublist _)), htail, ?_⟩
    intro i hi j hj
    obtain ⟨e, he, rfl⟩ := mem_map.mp hi
    have hle : e.seq ≤ f.seq := by simpa using mem_takeWhile_imp he
    have hne := hapart f (mem_cons_self ..) e ((takeWhile_sublist _).subset he)
    have hlt : e.seq < f.seq := by omega
    rcases mem_cons.mp hj with rfl | hj
    · exact hlt
    · exact hlt.trans ((pairwise_cons.mp htail).1 j hj)

/-- The items that a selection takes, and those that it leaves. -/
def Takes (items : List Item) (frames : List Frame) (events : List Event)
    (selected : List Frame × List Event) : Prop :=
  ∃ taken rest, items = taken ++ rest ∧
    selected = (frames ++ framesOf taken, events ++ eventsOf taken)

theorem takes_nothing : Takes items frames events (frames, events) :=
  ⟨[], items, rfl, by simp [framesOf, eventsOf]⟩

theorem Takes.cons_frame {f : Frame} {selected : List Frame × List Event}
    (h : Takes items (frames ++ [f]) events selected) :
    Takes (.frame f :: items) frames events selected := by
  obtain ⟨taken, rest, rfl, rfl⟩ := h
  exact ⟨.frame f :: taken, rest, rfl, by simp [framesOf, eventsOf]⟩

theorem Takes.cons_event {e : Event} {selected : List Frame × List Event}
    (h : Takes items frames (events ++ [e]) selected) :
    Takes (.event e :: items) frames events selected := by
  obtain ⟨taken, rest, rfl, rfl⟩ := h
  exact ⟨.event e :: taken, rest, rfl, by simp [framesOf, eventsOf]⟩

end Lists

theorem takes_selectItems (doubleText : ℚ → String) (items : List Item) (frames : List Frame)
    (events : List Event) (bytes : ℕ) :
    Takes items frames events (selectItems doubleText items frames events bytes) := by
  induction items generalizing frames events bytes with
  | nil => exact takes_nothing
  | cons i items ih =>
    cases i with
    | frame f =>
      rw [selectItems]
      split
      · exact takes_nothing
      split
      · split
        · rename_i halone
          simp only [Bool.and_eq_true, List.isEmpty_iff] at halone
          obtain ⟨⟨⟨rfl, rfl⟩, _⟩, _⟩ := halone
          exact ⟨[.frame f], items, rfl, by simp [framesOf, eventsOf]⟩
        · exact takes_nothing
      · exact (ih _ _ _).cons_frame
    | event =>
      rw [selectItems]
      split
      · exact takes_nothing
      split
      · exact takes_nothing
      · exact (ih _ _ _).cons_event

section LiveBatch

variable (u : Setup) {v : Evidence} {upperSeq : ℕ} {i j : Item}

theorem liveBatch_spec (v : Evidence) (upperSeq : ℕ) : ∃ taken rest, v.itemsUpTo upperSeq = taken ++ rest ∧
      (v.liveBatch u upperSeq).frames = framesOf taken ∧
      (v.liveBatch u upperSeq).events = eventsOf taken := by
  obtain ⟨taken, rest, hitems, hselected⟩ := takes_selectItems u.doubleText (v.itemsUpTo upperSeq)
    [] [] ((u.batch [] []).envelopeBytes u.doubleText)
  refine ⟨taken, rest, hitems, ?_, ?_⟩
  · show (selectItems _ _ _ _ _).1 = framesOf taken
    rw [hselected, nil_append]
  · show (selectItems _ _ _ _ _).2 = eventsOf taken
    rw [hselected]
    rfl

theorem mem_items_iff {b : Batch} {taken : List Item} (hframes : b.frames = framesOf taken)
    (hevents : b.events = eventsOf taken) : i ∈ b.items ↔ i ∈ taken := by
  cases i with
  | frame => rw [Batch.frame_mem_items, hframes, mem_framesOf]
  | event => rw [Batch.event_mem_items, hevents, mem_eventsOf]

theorem mem_itemsUpTo (h : i ∈ v.itemsUpTo upperSeq) : i ∈ v.queue ∧ i.seq ≤ upperSeq := by
  rcases mem_mergeItems.mp h with h | h
  · obtain ⟨f, hf, rfl⟩ := mem_map.mp h
    have hle : f.seq ≤ upperSeq := by simpa using mem_takeWhile_imp hf
    exact ⟨Evidence.frame_mem_queue.mpr ((takeWhile_sublist _).subset hf), hle⟩
  · obtain ⟨e, he, rfl⟩ := mem_map.mp h
    have hle : e.seq ≤ upperSeq := by simpa using mem_takeWhile_imp he
    exact ⟨Evidence.event_mem_queue.mpr ((takeWhile_sublist _).subset he), hle⟩

theorem mem_liveBatch (h : i ∈ (v.liveBatch u upperSeq).items) : i ∈ v.queue ∧ i.seq ≤ upperSeq := by
  obtain ⟨taken, rest, hitems, hframes, hevents⟩ := liveBatch_spec u v upperSeq
  rw [mem_items_iff hframes hevents] at h
  refine mem_itemsUpTo ?_
  rw [hitems]
  exact mem_append_left _ h

theorem lt_of_not_mem_itemsUpTo (hframes : v.pendingFrames.Pairwise (·.seq < ·.seq))
    (hevents : v.pendingEvents.Pairwise (·.seq < ·.seq)) (hj : j ∈ v.queue)
    (hnot : j ∉ v.itemsUpTo upperSeq) : upperSeq < j.seq := by
  cases j with
  | frame f =>
    have hf := Evidence.frame_mem_queue.mp hj
    rw [← takeWhile_append_dropWhile (l := v.pendingFrames)] at hf
    refine lt_of_mem_dropWhile Frame.seq hframes ((mem_append.mp hf).resolve_left fun h => hnot ?_)
    exact mem_mergeItems.mpr (.inl (mem_map.mpr ⟨f, h, rfl⟩))
  | event e =>
    have he := Evidence.event_mem_queue.mp hj
    rw [← takeWhile_append_dropWhile (l := v.pendingEvents)] at he
    refine lt_of_mem_dropWhile Event.seq hevents ((mem_append.mp he).resolve_left fun h => hnot ?_)
    exact mem_mergeItems.mpr (.inr (mem_map.mpr ⟨e, h, rfl⟩))

theorem liveBatch_first (hframes : v.pendingFrames.Pairwise (·.seq < ·.seq))
    (hevents : v.pendingEvents.Pairwise (·.seq < ·.seq))
    (hapart : ∀ f ∈ v.pendingFrames, ∀ e ∈ v.pendingEvents, f.seq ≠ e.seq)
    (hi : i ∈ (v.liveBatch u upperSeq).items) (hj : j ∈ v.queue)
    (hnot : j ∉ (v.liveBatch u upperSeq).items) : i.seq < j.seq := by
  have hle := (mem_liveBatch u hi).2
  obtain ⟨taken, rest, hitems, htaken, htaken'⟩ := liveBatch_spec u v upperSeq
  rw [mem_items_iff htaken htaken'] at hi hnot
  have hsorted : (taken ++ rest).Pairwise (·.seq < ·.seq) := by
    rw [← hitems]
    exact pairwise_mergeItems (hframes.sublist (takeWhile_sublist _))
      (hevents.sublist (takeWhile_sublist _)) fun f hf e he =>
        hapart f ((takeWhile_sublist _).subset hf) e ((takeWhile_sublist _).subset he)
  by_cases hupTo : j ∈ v.itemsUpTo upperSeq
  · rw [hitems] at hupTo
    have hrest := (mem_append.mp hupTo).resolve_left hnot
    exact (pairwise_append.mp hsorted).2.2 i hi j hrest
  · have hlt := lt_of_not_mem_itemsUpTo hframes hevents hj hupTo
    omega

end LiveBatch

end LigamentApps.LinkHostRecorder
