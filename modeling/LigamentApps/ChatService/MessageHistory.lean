import LigamentApps.ChatService.Messages
import Mathlib.Order.Basic

/-!
# The history of a chat

When the list of a chat and topic is exact: newest first, no message twice, and nothing lost that came while a
page was on its way. A message is put before the others without a look at them, and a page replaces what has
come since. -/

namespace LigamentApps.ChatService

open List

variable {r : ChatLists × List ChatEvent} {l : List ChatMessage} {answer : ChatAnswer} {a : ChatAction}
  {w : ChatWait} {messageId : ℤ}

/-! ## Exact lists -/

/-- Newest first, and no message twice. -/
def Descending (l : List ChatMessage) : Prop := l.Pairwise fun m n => n.id < m.id

/-- Oldest first, as the server gives its pages. -/
def Ascending (l : List ChatMessage) : Prop := l.Pairwise fun m n => m.id < n.id

instance (l : List ChatMessage) : Decidable (Descending l) := inferInstanceAs (Decidable (List.Pairwise _ l))

instance (l : List ChatMessage) : Decidable (Ascending l) := inferInstanceAs (Decidable (List.Pairwise _ l))

/-- The ids of the messages of a list that have come since a page was asked for. -/
def cameSince (call : ℕ) (key : String) : List ChatEvent → List ℤ
  | [] => []
  | .getChatMessages call' _ _ :: es =>
    if call' = call then es.filterMap fun
      | .came key' id => if key' = key then some id else none
      | .getChatMessages .. => none
    else cameSince call key es
  | .came _ _ :: es => cameSince call key es

/-- A message with this id is in the list. -/
def Has (l : List ChatMessage) (id : ℤ) : Prop := ∃ m ∈ l, m.id = id

instance (l : List ChatMessage) (id : ℤ) : Decidable (Has l id) := inferInstanceAs (Decidable (∃ m ∈ l, m.id = id))

namespace ChatLists

/-- Every list is newest first, with no message twice. -/
def Sorted (s : ChatLists) : Prop := ∀ key, Descending (s.list key)

/-- The method that goes on with an action. -/
def goesOn (s : ChatLists) : ChatAction → Option ChatWait
  | .answered place _ => s.waiting[place]?
  | _ => none

/-- A step keeps the lists exact: they are sorted after it, and where it is the answer to a request for a
page, what has come since the request and was still there is there. -/
def Exact (s : ChatLists) (es : List ChatEvent) (a : ChatAction) : Prop :=
  ∀ t fs, s.step a = some (t, fs) →
    t.Sorted ∧ ∀ call key current loadMore, s.goesOn a = some (.loadMessages call key current loadMore) →
      ∀ id ∈ cameSince call key es, Has (s.list key) id → Has (t.list key) id

/-- A message is newer than all of a list. -/
def Newest (s : ChatLists) (key : String) (msg : ChatMessage) : Prop := ∀ m ∈ s.list key, m.id < msg.id

instance (s : ChatLists) (key : String) (msg : ChatMessage) : Decidable (s.Newest key msg) :=
  inferInstanceAs (Decidable (∀ m ∈ s.list key, m.id < msg.id))

/-- A message has its place where the one is that it replaces. -/
def StandsFor (s : ChatLists) (key : String) (messageId : ℤ) (updated : ChatMessage) : Prop :=
  Has (s.list key) messageId → ∀ m ∈ s.list key,
    (messageId < m.id → updated.id < m.id) ∧ (m.id < messageId → m.id < updated.id)

instance (s : ChatLists) (key : String) (messageId : ℤ) (updated : ChatMessage) :
    Decidable (s.StandsFor key messageId updated) :=
  inferInstanceAs (Decidable (_ → ∀ m ∈ s.list key, _))

/-- A page is oldest first, older than what it is put behind, and nothing that has come since its request and
is still there is missing from the two. -/
structure PageFits (s : ChatLists) (es : List ChatEvent) (call : ℕ) (key : String)
    (kept fetched : List ChatMessage) : Prop where
  ascending : Ascending fetched
  older : ∀ m ∈ kept, ∀ n ∈ fetched, n.id < m.id
  complete : ∀ id ∈ cameSince call key es, Has (s.list key) id → Has kept id ∨ Has fetched id

instance (s : ChatLists) (es : List ChatEvent) (call : ℕ) (key : String) (kept fetched : List ChatMessage) :
    Decidable (s.PageFits es call key kept fetched) :=
  decidable_of_iff
    (Ascending fetched ∧ (∀ m ∈ kept, ∀ n ∈ fetched, n.id < m.id) ∧
      ∀ id ∈ cameSince call key es, Has (s.list key) id → Has kept id ∨ Has fetched id)
    ⟨fun h => ⟨h.1, h.2.1, h.2.2⟩, fun h => ⟨h.ascending, h.older, h.complete⟩⟩

/-- What a method gets fits the list that it goes to. -/
def AnswerFits (s : ChatLists) (es : List ChatEvent) : ChatWait → ChatAnswer → Prop
  | .loadMessages call key current loadMore, .page fetched =>
    s.PageFits es call key (if loadMore then current else []) fetched
  | .sendMessage key, .message sent => s.Newest key sent
  | .editMessage key messageId, .message updated => s.StandsFor key messageId updated
  | _, _ => True

/-- What arrives fits the list that it goes to. -/
def Fits (s : ChatLists) (es : List ChatEvent) : ChatAction → Prop
  | .answered place answer => ∀ w ∈ s.waiting[place]?, s.AnswerFits es w answer
  | .onWebSocketEvent (.message msg) => s.Newest (messagesKey msg.chatId msg.topicId) msg
  | _ => True

end ChatLists

/-! ## Lists that stay sorted -/

theorem descending_reverse : Descending l.reverse ↔ Ascending l := pairwise_reverse

theorem has_append {l' : List ChatMessage} {id : ℤ} : Has (l ++ l') id ↔ Has l id ∨ Has l' id := by
  unfold Has
  simp only [mem_append, or_and_right, exists_or]

theorem has_reverse {id : ℤ} : Has l.reverse id ↔ Has l id := by
  unfold Has
  simp only [mem_reverse]

theorem descending_page {kept fetched : List ChatMessage} (h : Descending kept) :
    Descending (kept ++ fetched.reverse) ↔ Ascending fetched ∧ ∀ m ∈ kept, ∀ n ∈ fetched, n.id < m.id := by
  have hsplit : Descending (kept ++ fetched.reverse) ↔
      Descending kept ∧ Descending fetched.reverse ∧ ∀ m ∈ kept, ∀ n ∈ fetched.reverse, n.id < m.id :=
    pairwise_append
  rw [hsplit, descending_reverse]
  simp only [mem_reverse]
  exact and_iff_right h

theorem descending_replace {updated : ChatMessage} : ∀ {l : List ChatMessage}, Descending l →
      (Descending (l.map fun m => if m.id = messageId then updated else m) ↔
        (Has l messageId → ∀ m ∈ l,
          (messageId < m.id → updated.id < m.id) ∧ (m.id < messageId → m.id < updated.id)))
  | [], _ => iff_of_true List.Pairwise.nil fun _ m hm => absurd hm not_mem_nil
  | m :: l, h => by
    obtain ⟨hnewest, hrest⟩ := pairwise_cons.mp h
    have ih : Descending (l.map fun m => if m.id = messageId then updated else m) ↔
        (Has l messageId → ∀ m ∈ l,
          (messageId < m.id → updated.id < m.id) ∧ (m.id < messageId → m.id < updated.id)) :=
      descending_replace hrest
    have hcons : Descending ((m :: l).map fun m => if m.id = messageId then updated else m) ↔
        (∀ n ∈ l, (if n.id = messageId then updated else n).id < (if m.id = messageId then updated else m).id) ∧
          Descending (l.map fun m => if m.id = messageId then updated else m) := by
      rw [map_cons]
      refine pairwise_cons.trans (and_congr_left fun _ => ?_)
      simp only [mem_map, forall_exists_index, and_imp, forall_apply_eq_imp_iff₂]
    rw [hcons]
    by_cases hm : m.id = messageId
    · -- The newest is replaced, and none of the others.
      have hothers : ∀ n ∈ l, n.id ≠ messageId := fun n hn hsame => by
        have hlt := hnewest n hn
        omega
      have hkept : l.map (fun m => if m.id = messageId then updated else m) = l :=
        (map_congr_left fun n hn => if_neg (hothers n hn)).trans (map_id' l)
      rw [hkept]
      constructor
      · rintro ⟨hlt, -⟩ _ n hn
        rcases mem_cons.mp hn with rfl | hn
        · exact ⟨fun hgt => by omega, fun hgt => by omega⟩
        · have hn' := hlt n hn
          rw [if_neg (hothers n hn), if_pos hm] at hn'
          have hold := hnewest n hn
          exact ⟨fun hgt => by omega, fun _ => hn'⟩
      · intro hplace
        refine ⟨fun n hn => ?_, hrest⟩
        rw [if_neg (hothers n hn), if_pos hm]
        have hold : n.id < messageId := hm ▸ hnewest n hn
        exact (hplace ⟨m, mem_cons_self, hm⟩ n (mem_cons_of_mem _ hn)).2 hold
    · rw [if_neg hm, ih]
      constructor
      · rintro ⟨hlt, hplace⟩ ⟨k, hk, hid⟩ n hn
        have hlater : k ∈ l := (mem_cons.mp hk).resolve_left fun h => hm (h ▸ hid)
        rcases mem_cons.mp hn with rfl | hn
        · have hnew := hlt k hlater
          rw [if_pos hid] at hnew
          have hold := hnewest k hlater
          exact ⟨fun _ => hnew, fun hgt => by omega⟩
        · exact hplace ⟨k, hlater, hid⟩ n hn
      · intro hplace
        refine ⟨fun n hn => ?_, fun hhas n hn => ?_⟩
        · have hold := hnewest n hn
          split_ifs with hid
          · have hhas : Has (m :: l) messageId := ⟨n, mem_cons_of_mem _ hn, hid⟩
            exact (hplace hhas m mem_cons_self).1 (by omega)
          · exact hold
        · obtain ⟨k, hk, hid⟩ := hhas
          exact hplace ⟨k, mem_cons_of_mem _ hk, hid⟩ n (mem_cons_of_mem _ hn)

namespace ChatLists

variable {s : ChatLists} {es : List ChatEvent} {key : String}

theorem sorted_put (h : s.Sorted) : (s.put key l).Sorted ↔ Descending l := by
  constructor
  · intro hput
    have hkey := hput key
    simpa [list, put] using hkey
  · intro hl key'
    by_cases hsame : key' = key
    · simpa [list, put, hsame] using hl
    · simpa [list, put, hsame] using h key'

theorem sorted_remove {picked : String → Bool} (h : s.Sorted) : (s.remove picked).Sorted := by
  intro key'
  cases hpicked : picked key' with
  | true => simp [list, remove, hpicked, Descending]
  | false => simpa [list, remove, hpicked] using h key'

theorem sorted_update {f : List ChatMessage → List ChatMessage} (h : s.Sorted)
    (hf : f [] = []) : (s.update key f).Sorted ↔ Descending (f (s.list key)) := by
  unfold update
  cases hcurrent : s.messages key with
  | none =>
    have hempty : s.list key = [] := by rw [list, hcurrent]; rfl
    rw [hempty, hf]
    exact iff_of_true h List.Pairwise.nil
  | some current =>
    have hlist : s.list key = current := by rw [list, hcurrent]; rfl
    rw [hlist]
    exact sorted_put h

theorem sorted_insert {msg : ChatMessage} (h : s.Sorted) : (s.insert key msg).1.Sorted ↔ s.Newest key msg := by
  refine (sorted_put h).trans ?_
  have hcons : Descending (msg :: s.list key) ↔ (∀ m ∈ s.list key, m.id < msg.id) ∧ Descending (s.list key) :=
    pairwise_cons
  rw [hcons]
  exact and_iff_left (h key)

theorem sorted_drop (h : s.Sorted) : (s.drop key messageId).Sorted :=
  (sorted_update h rfl).mpr ((h key).filter _)

theorem sorted_replace {updated : ChatMessage} (h : s.Sorted) :
    (s.replace key messageId updated).Sorted ↔ s.StandsFor key messageId updated :=
  (sorted_update h rfl).trans (descending_replace (h key))

theorem sorted_removeTopic {chatId : String} {topicId : ℤ} (h : s.Sorted) :
    (s.removeTopic chatId topicId).Sorted := by
  unfold removeTopic
  split_ifs
  · exact sorted_remove h
  · exact h

/-- The invariant: the lists are sorted, and so is what the requests for pages have captured. -/
structure WellKept (s : ChatLists) : Prop where
  sorted : s.Sorted
  captured : ∀ call key current loadMore, .loadMessages call key current loadMore ∈ s.waiting → Descending current

@[simp] theorem waiting_update {f : List ChatMessage → List ChatMessage} :
    (s.update key f).waiting = s.waiting := by
  unfold update
  split <;> rfl

@[simp] theorem waiting_removeTopic {chatId : String} {topicId : ℤ} :
    (s.removeTopic chatId topicId).waiting = s.waiting := by
  unfold removeTopic
  split <;> rfl

theorem waiting_resume (h : s.resume w answer = some r) : r.1.waiting = s.waiting := by
  unfold resume at h
  split at h <;> cases h <;> simp [loaded, onPage, put, insert, drop, replace, remove, withTopics]

theorem waiting_onWebSocketEvent {event : SocketEvent} : (s.onWebSocketEvent event).1.waiting = s.waiting := by
  cases event <;> simp only [onWebSocketEvent, insert, put, drop, replace, waiting_update]
  · split <;> rfl
  · split
    · rfl
    · exact waiting_removeTopic

theorem mem_waiting_await {v : ChatWait} (h : w ∈ (s.await v).waiting) : w ∈ s.waiting ∨ w = v :=
  (mem_append.mp h).imp_right mem_singleton.mp

theorem waiting_of_step {t : ChatLists} {fs : List ChatEvent} (h : s.step a = some (t, fs)) {call : ℕ}
    {current : List ChatMessage} {loadMore : Bool}
    (hw : .loadMessages call key current loadMore ∈ t.waiting) :
    .loadMessages call key current loadMore ∈ s.waiting ∨ current = s.list key := by
  cases a with
  | answered =>
    obtain ⟨w, -, hresume⟩ := Option.bind_eq_some_iff.mp h
    rw [waiting_resume hresume] at hw
    exact .inl (mem_of_mem_eraseIdx hw)
  | onWebSocketEvent event =>
    obtain hr := Option.some.inj h
    have hsame : t.waiting = s.waiting := by
      have hkept : (s.onWebSocketEvent event).1.waiting = s.waiting := waiting_onWebSocketEvent
      rw [← hkept, hr]
    exact .inl (hsame ▸ hw)
  | loadMessages =>
    have hr := Option.some.inj h
    unfold loadMessages at hr
    simp only at hr
    split at hr
    · cases hr
      exact .inl hw
    · cases hr
      rcases mem_waiting_await hw with hw | hw
      · exact .inl hw
      · obtain ⟨-, hkey, hcurrent, -⟩ := ChatWait.loadMessages.inj hw
        exact .inr (hkey ▸ hcurrent)
  | _ =>
    cases h
    exact .inl ((mem_waiting_await hw).resolve_right (by simp))

theorem exact_iff_sorted (h : s.step a = some r)
    (hpage : ∀ call key current loadMore, s.goesOn a ≠ some (.loadMessages call key current loadMore)) :
    s.Exact es a ↔ r.1.Sorted := by
  constructor
  · exact fun hexact => (hexact r.1 r.2 h).1
  · intro hsorted t' fs' h'
    cases h.symm.trans h'
    exact ⟨hsorted, fun call key current loadMore hw => absurd hw (hpage call key current loadMore)⟩

theorem exact_of_none (h : s.step a = none) : s.Exact es a :=
  fun _ _ h' => absurd (h.symm.trans h') (Option.some_ne_none _).symm

theorem exact_of_same (h : s.Sorted) (hstep : s.step a = some r) (hsame : r.1.messages = s.messages) :
    s.Exact es a := by
  intro t fs hstep'
  cases hstep.symm.trans hstep'
  have hlist : ∀ key, t.list key = s.list key := fun key => congrArg (fun m => (m key).getD []) hsame
  refine ⟨fun key => ?_, fun call key current loadMore _ id _ hthere => ?_⟩
  · rw [hlist]
    exact h key
  · rw [hlist]
    exact hthere

theorem exact_page_iff (h : s.WellKept) {place call : ℕ} {current fetched : List ChatMessage} {loadMore : Bool}
    (hw : s.waiting[place]? = some (.loadMessages call key current loadMore)) :
    s.Exact es (.answered place (.page fetched)) ↔
      s.PageFits es call key (if loadMore then current else []) fetched := by
  have hkept : Descending (if loadMore then current else []) := by
    split_ifs
    · exact h.captured call key current loadMore (mem_of_getElem? hw)
    · exact List.Pairwise.nil
  obtain ⟨t, hstep, hlist, hsorted⟩ : ∃ t, s.step (.answered place (.page fetched)) = some (t, []) ∧
      t.list key = (if loadMore then current else []) ++ fetched.reverse ∧
      (t.Sorted ↔ Descending ((if loadMore then current else []) ++ fetched.reverse)) := by
    have hnew : (if loadMore then current ++ fetched.reverse else fetched.reverse) =
        (if loadMore then current else []) ++ fetched.reverse := by
      split_ifs <;> rfl
    have hresumed : s.step (.answered place (.page fetched)) =
        ({ s with waiting := s.waiting.eraseIdx place } : ChatLists).resume (.loadMessages call key current loadMore)
          (.page fetched) := by
      simp only [step, hw]
      rfl
    refine ⟨_, hresumed, ?_, ?_⟩
    · simp [list, loaded, onPage, put, hnew]
    · have hput : (s.put key ((if loadMore then current else []) ++ fetched.reverse)).Sorted ↔
          Descending ((if loadMore then current else []) ++ fetched.reverse) := sorted_put h.sorted
      rw [← hput, ← hnew]
      exact Iff.rfl
  have hhas : ∀ id, Has (t.list key) id ↔ Has (if loadMore then current else []) id ∨ Has fetched id := fun id => by
    rw [hlist, has_append, has_reverse]
  constructor
  · intro hexact
    obtain ⟨hsort, hlost⟩ := hexact t [] hstep
    obtain ⟨hascending, holder⟩ := (descending_page hkept).mp (hsorted.mp hsort)
    refine ⟨hascending, holder, fun id hid hthere => (hhas id).mp ?_⟩
    exact hlost call key current loadMore hw id hid hthere
  · intro hfits t' fs' h'
    obtain ⟨rfl, rfl⟩ := Prod.mk.inj (Option.some.inj (hstep.symm.trans h'))
    refine ⟨hsorted.mpr ((descending_page hkept).mpr ⟨hfits.ascending, hfits.older⟩), ?_⟩
    intro call' key' current' loadMore' hw' id hid hthere
    obtain ⟨rfl, rfl, -, -⟩ := ChatWait.loadMessages.inj (Option.some.inj (hw.symm.trans hw'))
    exact (hhas id).mpr (hfits.complete id hid hthere)

theorem sorted_resume_iff (es : List ChatEvent) (h : s.Sorted) (hresume : s.resume w answer = some r)
    (hpage : ∀ call key current loadMore, w ≠ .loadMessages call key current loadMore) :
    r.1.Sorted ↔ s.AnswerFits es w answer := by
  cases w with
  | loadMessages call key current loadMore => exact absurd rfl (hpage call key current loadMore)
  | sendMessage =>
    cases answer <;> cases hresume
    · exact iff_of_true h trivial
    · exact sorted_insert h
  | deleteMessage =>
    cases answer <;> cases hresume
    · exact iff_of_true h trivial
    · exact iff_of_true (sorted_drop h) trivial
  | editMessage =>
    cases answer <;> cases hresume
    · exact iff_of_true h trivial
    · exact sorted_replace h
  | deleteTopic =>
    cases answer <;> cases hresume
    · exact iff_of_true h trivial
    · exact iff_of_true (sorted_removeTopic h) trivial
  | deleteChat =>
    cases answer <;> cases hresume
    · exact iff_of_true h trivial
    · exact iff_of_true (sorted_remove h) trivial
  | topics =>
    cases answer <;> cases hresume
    · exact iff_of_true h trivial
    · exact iff_of_true h trivial

theorem sorted_onWebSocketEvent_iff (h : s.Sorted) {event : SocketEvent} :
    (s.onWebSocketEvent event).1.Sorted ↔ s.Fits es (.onWebSocketEvent event) := by
  cases event with
  | message => exact sorted_insert h
  | messageDeleted => exact iff_of_true (sorted_drop h) trivial
  | messageUpdated =>
    refine iff_of_true ((sorted_replace h).mpr fun _ m _ => ⟨fun hlt => hlt, fun hlt => hlt⟩) trivial
  | topicCreated =>
    refine iff_of_true ?_ trivial
    simp only [onWebSocketEvent]
    split <;> exact h
  | topicDeleted =>
    refine iff_of_true ?_ trivial
    simp only [onWebSocketEvent]
    split
    · exact h
    · exact sorted_removeTopic h

theorem answer_exact_iff (h : s.WellKept) {place : ℕ} (hw : s.waiting[place]? = some w) :
    s.Exact es (.answered place answer) ↔ s.AnswerFits es w answer := by
  have hstep : s.step (.answered place answer) =
      ({ s with waiting := s.waiting.eraseIdx place } : ChatLists).resume w answer := by
    simp only [step, hw]
    rfl
  by_cases hload : ∃ call key current loadMore, w = .loadMessages call key current loadMore
  · obtain ⟨call, key, current, loadMore, rfl⟩ := hload
    cases answer with
    | page => exact exact_page_iff h hw
    | failed => exact iff_of_true (exact_of_same h.sorted hstep rfl) trivial
    | _ => exact iff_of_true (exact_of_none hstep) trivial
  · have hpage : ∀ call key current loadMore, w ≠ .loadMessages call key current loadMore :=
      fun call key current loadMore hsame => hload ⟨call, key, current, loadMore, hsame⟩
    cases hresume : ({ s with waiting := s.waiting.eraseIdx place } : ChatLists).resume w answer with
    | none =>
      rw [hresume] at hstep
      refine iff_of_true (exact_of_none hstep) ?_
      -- An answer of another kind than the method awaits.
      cases w <;> cases answer <;> trivial
    | some =>
      rw [hresume] at hstep
      rw [exact_iff_sorted hstep fun call key current loadMore hsame =>
        hpage call key current loadMore (Option.some.inj (hw.symm.trans hsame))]
      have hsorted : ({ s with waiting := s.waiting.eraseIdx place } : ChatLists).Sorted := h.sorted
      refine (sorted_resume_iff es hsorted hresume hpage).trans ?_
      cases w with
      | loadMessages call key current loadMore => exact absurd rfl (hpage call key current loadMore)
      | _ => cases answer <;> exact Iff.rfl

theorem exact_iff_fits (h : s.WellKept) (a : ChatAction) : s.Exact es a ↔ s.Fits es a := by
  cases a with
  | answered place answer =>
    cases hw : s.waiting[place]? with
    | none =>
      have hstep : s.step (.answered place answer) = none := by simp [step, hw]
      refine iff_of_true (exact_of_none hstep) fun w hmem => ?_
      exact absurd (hw.symm.trans hmem) (Option.some_ne_none w).symm
    | some w =>
      refine (answer_exact_iff h hw).trans ⟨fun hfits w' hmem => ?_, fun hfits => hfits w hw⟩
      cases hw.symm.trans hmem
      exact hfits
  | onWebSocketEvent =>
    refine (exact_iff_sorted rfl ?_).trans (sorted_onWebSocketEvent_iff h.sorted)
    exact fun _ _ _ _ hw => nomatch hw
  | loadMessages chatId topicId loadMore =>
    have hstep : s.step (.loadMessages chatId topicId loadMore) =
      some (s.loadMessages chatId topicId loadMore) := rfl
    refine (exact_iff_sorted hstep fun _ _ _ _ hw => nomatch hw).trans (iff_of_true ?_ trivial)
    unfold loadMessages
    simp only
    split <;> exact h.sorted
  | _ =>
    refine (exact_iff_sorted rfl ?_).trans (iff_of_true h.sorted trivial)
    exact fun _ _ _ _ hw => nomatch hw

theorem WellKept.step {a : ChatAction} {t : ChatLists} {fs : List ChatEvent} (h : s.WellKept)
    (hexact : s.Exact es a) (hstep : s.step a = some (t, fs)) : t.WellKept := by
  refine ⟨(hexact t fs hstep).1, fun call key current loadMore hw => ?_⟩
  rcases waiting_of_step hstep hw with hold | rfl
  · exact h.captured call key current loadMore hold
  · exact h.sorted key

theorem wellKept_start : ({} : ChatLists).WellKept :=
  ⟨fun _ => List.Pairwise.nil, fun _ _ _ _ hw => absurd hw not_mem_nil⟩

end ChatLists

/-- Over every run of the lists, from the empty ones on, with the answers of the server and the events of the
socket in any order: every step keeps the lists exact exactly when what every step brings fits. -/
theorem chat_history_exact_iff (as : List ChatAction) :
    chatLists.Every ChatLists.Exact {} [] as ↔ chatLists.Every ChatLists.Fits {} [] as := by
  refine Machine.every_iff (fun (s : ChatLists) _ => s.WellKept) ?_ ?_ as {} [] ChatLists.wellKept_start
  · intro s es a t fs h hfits hstep
    have hexact : s.Exact es a := (ChatLists.exact_iff_fits h a).mpr hfits
    exact h.step hexact hstep
  · exact fun s es a h => ChatLists.exact_iff_fits h a

/-- The message that is sent comes twice: with the answer, and as an event of the socket. -/
theorem echo_comes_twice : ¬ ∀ as : List ChatAction, chatLists.Every ChatLists.Exact {} [] as := by
  intro h
  let sent : ChatMessage := { id := 1, chatId := "a", body := "hello" }
  let as : List ChatAction := [.sendMessage "a" 0, .answered 0 (.message sent)]
  have hcheck : (chatLists.exec (fun _ _ _ => true) {} [] as).any (fun r =>
      (r.1.step (.onWebSocketEvent (.message sent))).any fun out =>
        out.1.list (messagesKey "a" 0) = [sent, sent]) = true := by
    decide +kernel
  obtain ⟨s, es, hpath, hs⟩ := Machine.path_of_check hcheck
  obtain ⟨out, hout, htwice⟩ := (Option.any_eq_true ..).mp hs
  have hexact : s.Exact es (.onWebSocketEvent (.message sent)) := (h (as ++ [_])).good hpath
  have hsorted := (hexact out.1 out.2 hout).1 (messagesKey "a" 0)
  rw [of_decide_eq_true htwice] at hsorted
  have hless : sent.id < sent.id := (pairwise_cons.mp hsorted).1 sent mem_cons_self
  exact absurd hless (Int.lt_irrefl _)

end LigamentApps.ChatService
