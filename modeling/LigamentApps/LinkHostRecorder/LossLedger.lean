import Mathlib.Algebra.Order.BigOperators.Group.List
import Mathlib.Algebra.Order.Group.Int
import LigamentApps.LinkHostRecorder.Numbering

/-!
# The ledger of lost evidence

Read off the log: every gap marker the recorder has made, in the content in which it was first put into
a batch for the recorder service or onto disk, or in its current content where it was in neither. -/

namespace LigamentApps.LinkHostRecorder

open List

/-- A gap marker in the ledger. -/
structure Entry where
  content : Event
  /-- It was sent or written, and the content stays what it was then. -/
  serialized : Bool

/-- A gap marker is made or merged. -/
def enter (m : Event) (ledger : List Entry) : List Entry :=
  if ledger.any fun x => x.content.seq = m.seq then
    ledger.map fun x => if x.content.seq = m.seq ∧ x.serialized = false then ⟨m, false⟩ else x
  else ledger ++ [⟨m, false⟩]

/-- A gap marker is sent or written. -/
def serialize (ledger : List Entry) (e : Event) : List Entry :=
  ledger.map fun x => if x.content.seq = e.seq ∧ x.serialized = false then ⟨e, true⟩ else x

/-- What a report does to the ledger. A chunk that is sent was written before. -/
def entered (ledger : List Entry) : Report → List Entry
  | .marker m => enter m ledger
  | .sent true b _ | .spooled b => (b.events.filter (·.isGapMarker)).foldl serialize ledger
  | _ => ledger

def ledgerOf (log : List Report) : List Entry := log.foldl entered []

def contents (ledger : List Entry) : List Event := ledger.map (·.content)

def lossSum (counter : String) (ledger : List Entry) : ℤ :=
  ((contents ledger).map (·.lossOf counter)).sum

/-- A report that a frame, or an event, is refused. -/
def Report.refuses (isFrame : Bool) : Report → Bool
  | .refused b => b = isFrame
  | _ => false

/-- How many frames, or events, were refused. -/
def refusals (isFrame : Bool) (log : List Report) : ℕ := log.countP (·.refuses isFrame)

/-- The refused frames and events are those that the ledger counts, and those not yet published. -/
structure LossExact (v : Evidence) : Prop where
  frames : refusals true v.log = lossSum "dropped_frames" (ledgerOf v.log) + v.droppedFrames
  events : refusals false v.log = lossSum "dropped_events" (ledgerOf v.log) + v.droppedEvents

/-- Every marker has one entry. -/
def Distinct (ledger : List Entry) : Prop := ((contents ledger).map (·.seq)).Nodup

section Ledger

variable {ledger : List Entry} {m e : Event}

@[simp] theorem ledgerOf_append (log : List Report) (rs : List Report) :
    ledgerOf (log ++ rs) = rs.foldl entered (ledgerOf log) := by
  simp [ledgerOf]

theorem mem_contents : m ∈ contents ledger ↔ ∃ x ∈ ledger, x.content = m := by
  simp [contents]

theorem content_eq (hdistinct : Distinct ledger) {x : Entry} (hx : x ∈ ledger) (hm : m ∈ contents ledger)
    (hseq : x.content.seq = m.seq) : x.content = m := by
  exact inj_on_of_nodup_map hdistinct (mem_map_of_mem hx) hm hseq

theorem contents_serialize (hdistinct : Distinct ledger) (he : e ∈ contents ledger) :
    contents (serialize ledger e) = contents ledger := by
  unfold contents serialize
  rw [map_map]
  refine map_congr_left fun x hx => ?_
  show (if x.content.seq = e.seq ∧ x.serialized = false then (⟨e, true⟩ : Entry) else x).content = x.content
  split
  · rename_i hcond
    exact (content_eq hdistinct hx he hcond.1).symm
  · rfl

theorem distinct_of_contents {ledger' : List Entry} (h : contents ledger' = contents ledger)
    (hdistinct : Distinct ledger) : Distinct ledger' := by
  unfold Distinct
  rw [h]
  exact hdistinct

theorem contents_foldl_serialize (events : List Event) (hdistinct : Distinct ledger)
    (hevents : ∀ e ∈ events, e ∈ contents ledger) :
    contents (events.foldl serialize ledger) = contents ledger := by
  induction events generalizing ledger with
  | nil => rfl
  | cons e _ ih =>
    have hfirst := contents_serialize hdistinct (hevents e (mem_cons_self ..))
    rw [foldl_cons, ih (distinct_of_contents hfirst hdistinct) fun e' he' => ?_, hfirst]
    rw [hfirst]
    exact hevents e' (mem_cons_of_mem _ he')

theorem lossSum_eq (counter : String) {ledger' : List Entry} (h : contents ledger' = contents ledger) :
    lossSum counter ledger' = lossSum counter ledger := by
  unfold lossSum
  rw [h]

theorem serialized_of_foldl {events : List Event} {x : Entry} (hx : x ∈ events.foldl serialize ledger)
    (hserialized : x.serialized = true) :
    x ∈ ledger ∨ ∃ e ∈ events, e.seq = x.content.seq := by
  induction events generalizing ledger with
  | nil => exact .inl hx
  | cons e _ ih =>
    rcases ih hx with hbefore | ⟨e', he', hseq⟩
    · obtain ⟨y, hy, rfl⟩ := mem_map.mp hbefore
      by_cases hcond : y.content.seq = e.seq ∧ y.serialized = false
      · rw [if_pos hcond]
        exact .inr ⟨e, mem_cons_self .., rfl⟩
      · rw [if_neg hcond]
        exact .inl hy
    · exact .inr ⟨e', mem_cons_of_mem _ he', hseq⟩

theorem enter_new (hnew : ∀ x ∈ ledger, x.content.seq ≠ m.seq) : enter m ledger = ledger ++ [⟨m, false⟩] := by
  unfold enter
  rw [if_neg]
  rw [any_eq_true]
  rintro ⟨x, hx, hseq⟩
  exact hnew x hx (by simpa using hseq)

theorem enter_old {old : Event} (hold : old ∈ contents ledger) (hseq : old.seq = m.seq) : enter m ledger =
      ledger.map fun x => if x.content.seq = m.seq ∧ x.serialized = false then ⟨m, false⟩ else x := by
  unfold enter
  rw [if_pos]
  obtain ⟨x, hx, rfl⟩ := mem_contents.mp hold
  exact any_eq_true.mpr ⟨x, hx, by simpa using hseq⟩

theorem sum_replace {α : Type} (f : α → ℤ) (key : α → ℕ) {xs : List α} {x y : α}
    (hnodup : (xs.map key).Nodup) (hx : x ∈ xs) :
    ((xs.map fun z => if key z = key x then y else z).map f).sum = (xs.map f).sum - f x + f y := by
  induction xs with
  | nil => simp at hx
  | cons z xs ih =>
    obtain ⟨hhead, htail⟩ := nodup_cons.mp hnodup
    rcases mem_cons.mp hx with rfl | hx
    · have hrest : (xs.map fun z => if key z = key x then y else z) = xs := by
        conv_rhs => rw [← map_id xs]
        refine map_congr_left fun w hw => if_neg fun heq => hhead ?_
        rw [← heq]
        exact mem_map_of_mem hw
      simp only [map_cons, if_pos, sum_cons, hrest]
      omega
    · have hne : key z ≠ key x := fun heq => hhead (heq ▸ mem_map_of_mem hx)
      have hsum := ih htail hx
      simp only [map_cons, if_neg hne, sum_cons]
      omega

theorem contents_merge {old : Event} (hdistinct : Distinct ledger) (hold : old ∈ contents ledger)
    (hseq : m.seq = old.seq)
    (hopen : m = old ∨ ∀ x ∈ ledger, x.content.seq = m.seq → x.serialized = false) :
    contents (enter m ledger) = (contents ledger).map fun c => if c.seq = old.seq then m else c := by
  rw [enter_old hold hseq.symm]
  unfold contents
  rw [map_map, map_map]
  refine map_congr_left fun x hx => ?_
  show (if x.content.seq = m.seq ∧ x.serialized = false then (⟨m, false⟩ : Entry) else x).content =
    if x.content.seq = old.seq then m else x.content
  by_cases hsame : x.content.seq = old.seq
  · have hcontent := content_eq hdistinct hx hold hsame
    rw [if_pos hsame]
    split
    · rfl
    · rename_i hnot
      rcases hopen with rfl | hopen
      · exact hcontent
      · exact absurd ⟨hsame.trans hseq.symm, hopen x hx (hsame.trans hseq.symm)⟩ hnot
  · rw [if_neg hsame, if_neg fun h => hsame (h.1.trans hseq)]

end Ledger

theorem lossOf_frames {e : Event} {frames events : ℤ} (h : e.metadata = lossMetadata frames events) :
    e.lossOf "dropped_frames" = frames := by
  unfold Event.lossOf
  rw [h]
  rfl

theorem lossOf_events {e : Event} {frames events : ℤ} (h : e.metadata = lossMetadata frames events) :
    e.lossOf "dropped_events" = events := by
  unfold Event.lossOf
  rw [h]
  rfl

theorem lossOf_le_lossSum {counter : String} {ledger : List Entry} {m : Event}
    (hcounted : ∀ c ∈ contents ledger, 0 ≤ c.lossOf counter) (hm : m ∈ contents ledger) :
    m.lossOf counter ≤ lossSum counter ledger :=
  single_le_sum (fun n hn => by
    obtain ⟨c, hc, rfl⟩ := mem_map.mp hn
    exact hcounted c hc) _ (mem_map_of_mem hm)

theorem lossSum_nonneg {counter : String} {ledger : List Entry}
    (hcounted : ∀ c ∈ contents ledger, 0 ≤ c.lossOf counter) : 0 ≤ lossSum counter ledger :=
  sum_nonneg fun n hn => by
    obtain ⟨c, hc, rfl⟩ := mem_map.mp hn
    exact hcounted c hc

@[simp] theorem refusals_append (isFrame : Bool) (log rs : List Report) :
    refusals isFrame (log ++ rs) = refusals isFrame log + refusals isFrame rs :=
  countP_append

end LigamentApps.LinkHostRecorder
