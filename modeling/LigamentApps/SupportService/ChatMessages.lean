import Mathlib.Algebra.Order.Group.Int
import Mathlib.Data.List.Induction
import Mathlib.Data.List.Perm.Basic
import Mathlib.Data.List.Sort

/-!
# The chat of a session

How `SupportService` and `LinkHostWorkerState` keep the messages of a chat: the data channel brings them in
any order and again, and the server its history. Times are in microseconds. -/

namespace LigamentApps.SupportService

open List

structure SupportChatMessage where
  id : String
  sender : String
  senderName : String
  text : String
  timestamp : ℤ
  clientId : String := ""
  deriving DecidableEq

/-- The `timestamp` of a message. -/
inductive WireTime
  | num (milliseconds : ℤ)
  /-- Anything else, as `DateTime.tryParse` reads its text. -/
  | text (parsed : Option ℤ)
  deriving DecidableEq

/-- A message as it comes: the fields that `fromJson` reads, by their `toString`. -/
structure WireMessage where
  id : Option String := none
  sender : Option String := none
  senderRole : Option String := none
  senderName : Option String := none
  text : Option String := none
  body : Option String := none
  timestamp : Option WireTime := none
  /-- As `DateTime.tryParse` reads it. -/
  createdAt : Option (Option ℤ) := none
  clientId : Option String := none
  clientMessageId : Option String := none
  deriving DecidableEq

/-- A message comes; `now` and `idNow` are the clock where `fromJson` reads it, for the time and for the
id. -/
structure Arrival where
  message : WireMessage
  now : ℤ
  idNow : ℤ
  deriving DecidableEq

/-- `SupportChatMessage.fromJson`. -/
def Arrival.fromJson (a : Arrival) : SupportChatMessage where
  id := a.message.id.getD (toString (a.idNow / 1000))
  sender := a.message.sender.getD (if a.message.senderRole = some "operator" then "operator" else "user")
  senderName := a.message.senderName.getD
    (if a.message.sender = some "operator" ∨ a.message.senderRole = some "operator" then "Инженер" else "Пользователь")
  text := (a.message.text.orElse fun _ => a.message.body).getD ""
  timestamp := match a.message.timestamp, a.message.createdAt with
    | some (.num milliseconds), _ => milliseconds * 1000
    | some (.text parsed), _ => parsed.getD a.now
    | none, some parsed => parsed.getD a.now
    | none, none => a.now
  clientId := (a.message.clientId.orElse fun _ => a.message.clientMessageId).getD ""

/-- `List.sort` by the timestamps, which may exchange messages of one time. -/
structure MessageSort where
  sort : List SupportChatMessage → List SupportChatMessage
  perm : ∀ l, (sort l).Perm l
  sorted : ∀ l, (sort l).Pairwise fun a b => a.timestamp ≤ b.timestamp

/-- `_chatMessages` and `_unreadChatCount`. -/
structure Chat where
  messages : List SupportChatMessage := []
  unread : ℕ := 0

/-- The same text of the same sender, less than five seconds apart. -/
def sameWords (m msg : SupportChatMessage) : Bool :=
  m.sender = msg.sender && m.text = msg.text && (m.timestamp - msg.timestamp).natAbs < 5000000

/-- `isDup`, of `LinkHostWorkerState`. -/
def isDup (m msg : SupportChatMessage) : Bool :=
  if msg.clientId ≠ "" ∧ m.clientId ≠ "" then m.clientId = msg.clientId
  else if msg.id ≠ "" ∧ m.id ≠ "" then m.id = msg.id
  else if msg.clientId ≠ "" ∨ m.clientId ≠ "" ∨ msg.id ≠ "" ∨ m.id ≠ "" then false
  else sameWords m msg

/-- `isDuplicate`, of `SupportService`. -/
def isDuplicate (m msg : SupportChatMessage) : Bool :=
  m.id = msg.id || (msg.clientId ≠ "" && m.clientId = msg.clientId) || sameWords m msg

namespace Chat

variable (dup : SupportChatMessage → SupportChatMessage → Bool) (σ : MessageSort) (c : Chat)

/-- A message comes over the data channel. -/
def receive (a : Arrival) : Chat :=
  let msg := a.fromJson
  if c.messages.any (dup · msg) then c
  else ⟨σ.sort (c.messages ++ [msg]), if msg.sender ≠ "user" then c.unread + 1 else c.unread⟩

/-- `LinkHostWorkerState.receiveChatMessage`. -/
def receiveChatMessage (a : Arrival) : Chat := c.receive isDup σ a

/-- `handleRemoteInput` of `SupportService`, with a `chat_message`. -/
def handleChatMessage (a : Arrival) : Chat := c.receive isDuplicate σ a

/-- The loop of `loadChatHistory`, with whether it has changed the messages. -/
def loadItem (r : List SupportChatMessage × Bool) (a : Arrival) : List SupportChatMessage × Bool :=
  let msg := a.fromJson
  match r.1.findIdx? (isDuplicate · msg) with
  | none => (r.1 ++ [msg], true)
  | some i => if r.1[i]?.any (·.id ≠ msg.id) then (r.1.set i msg, true) else r

/-- `loadChatHistory`, with the messages that the server returns. -/
def loadChatHistory (list : List Arrival) : Chat :=
  let (messages, changed) := list.foldl loadItem (c.messages, false)
  { c with messages := if changed then σ.sort messages else messages }

end Chat

/-- How messages come to `SupportService`. -/
inductive Delivery
  | incoming (a : Arrival)
  | history (list : List Arrival)

def Delivery.arrivals : Delivery → List Arrival
  | .incoming a => [a]
  | .history list => list

def Chat.deliver (σ : MessageSort) (c : Chat) : Delivery → Chat
  | .incoming a => c.handleChatMessage σ a
  | .history list => c.loadChatHistory σ list

section Copies

/- Which message what comes is a copy of: of itself, say, or of the message with its client id. -/
variable {K : Type} [DecidableEq K] (copyOf : WireMessage → K)

/-- The message is that of some arrivals. -/
def Among (as : List Arrival) (a : Arrival) : Prop := copyOf a.message ∈ as.map fun a => copyOf a.message

instance (as : List Arrival) (a : Arrival) : Decidable (Among copyOf as a) := inferInstanceAs (Decidable (_ ∈ _))

/-- The first arrivals of each message, with one more arrival. -/
def addFirst (firsts : List Arrival) (a : Arrival) : List Arrival :=
  if Among copyOf firsts a then firsts else firsts ++ [a]

/-- Some arrivals with each of the messages that have come exactly once. -/
structure OneOfEach (shown as : List Arrival) : Prop where
  subset : shown ⊆ as
  nodup : (shown.map fun a => copyOf a.message).Nodup
  covers : ∀ a ∈ as, Among copyOf shown a

/-- The chat is of the arrivals `shown`, one of each message that has come, and none counts twice as
unread. -/
structure Chat.Shows (c : Chat) (shown as : List Arrival) : Prop where
  each : OneOfEach copyOf shown as
  messages : c.messages.Perm (shown.map Arrival.fromJson)
  unread : c.unread ≤ (as.foldl (addFirst copyOf) []).countP fun a => a.fromJson.sender ≠ "user"

/-- The chat has each message that has come exactly once. -/
def Chat.Exact (c : Chat) (as : List Arrival) : Prop := ∃ shown, c.Shows copyOf shown as

/-- What comes is taken for a duplicate of the first arrival of a message exactly where its message has come
before. -/
def Tells (dup : SupportChatMessage → SupportChatMessage → Bool) : List Arrival → List Arrival → Prop
  | _, [] => True
  | firsts, a :: as => (firsts.any (dup ·.fromJson a.fromJson) = true ↔ Among copyOf firsts a) ∧
      Tells dup (addFirst copyOf firsts a) as

instance (dup : SupportChatMessage → SupportChatMessage → Bool) :
    ∀ firsts as, Decidable (Tells copyOf dup firsts as)
  | _, [] => .isTrue trivial
  | firsts, a :: as =>
    have := instDecidableTells dup (addFirst copyOf firsts a) as
    inferInstanceAs (Decidable ((_ ↔ _) ∧ _))

/-- Two arrivals are taken for duplicates exactly where they are copies of one message. -/
def TellsAll (dup : SupportChatMessage → SupportChatMessage → Bool) (as : List Arrival) : Prop :=
  ∀ a ∈ as, ∀ b ∈ as, dup a.fromJson b.fromJson = true ↔ copyOf a.message = copyOf b.message

variable {copyOf} {dup : SupportChatMessage → SupportChatMessage → Bool} {σ : MessageSort} {c : Chat} {a : Arrival}
  {bs shown delivered : List Arrival}

theorem addFirst_of_among (h : Among copyOf shown a) : addFirst copyOf shown a = shown := if_pos h

theorem addFirst_of_not_among (h : ¬Among copyOf shown a) : addFirst copyOf shown a = shown ++ [a] := if_neg h

namespace OneOfEach

theorem addFirst (h : OneOfEach copyOf shown bs) (a : Arrival) :
    OneOfEach copyOf (SupportService.addFirst copyOf shown a) (bs ++ [a]) := by
  by_cases hold : Among copyOf shown a
  · rw [addFirst_of_among hold]
    refine ⟨fun b hb => mem_append_left _ (h.subset hb), h.nodup, fun b hb => ?_⟩
    obtain hb | hb := mem_append.mp hb
    · exact h.covers b hb
    · exact mem_singleton.mp hb ▸ hold
  · rw [addFirst_of_not_among hold]
    refine ⟨fun b hb => ?_, ?_, fun b hb => ?_⟩
    · exact (mem_append.mp hb).elim (fun hb => mem_append_left _ (h.subset hb)) (mem_append_right _)
    · rw [map_append]
      exact h.nodup.append (nodup_singleton _) (disjoint_singleton.mpr hold)
    · unfold Among
      rw [map_append]
      obtain hb | hb := mem_append.mp hb
      · exact mem_append_left _ (h.covers b hb)
      · exact mem_append_right _ (mem_map_of_mem hb)

theorem firsts (as : List Arrival) : OneOfEach copyOf (as.foldl (SupportService.addFirst copyOf) []) as := by
  induction as using List.reverseRecOn with
  | nil => exact ⟨List.Subset.refl _, nodup_nil, fun _ hb => absurd hb not_mem_nil⟩
  | append_singleton as a ih =>
    rw [foldl_append]
    exact ih.addFirst a

omit [DecidableEq K] in
theorem among_iff (h : OneOfEach copyOf shown bs) : Among copyOf shown a ↔ Among copyOf bs a := by
  constructor
  · intro hold
    obtain ⟨b, hb, heq⟩ := mem_map.mp hold
    exact mem_map.mpr ⟨b, h.subset hb, heq⟩
  · intro hold
    obtain ⟨b, hb, heq⟩ := mem_map.mp hold
    unfold Among
    rw [← heq]
    exact h.covers b hb

omit [DecidableEq K] in
/-- As many arrivals have one of each as there are messages. -/
theorem length_le {other : List Arrival} (h : OneOfEach copyOf shown bs) (h' : OneOfEach copyOf other bs) :
    shown.length ≤ other.length := by
  have hsub : (shown.map fun a => copyOf a.message) ⊆ other.map fun a => copyOf a.message := by
    intro k hk
    obtain ⟨b, hb, rfl⟩ := mem_map.mp hk
    exact h'.covers b (h.subset hb)
  simpa using (subperm_of_subset h.nodup hsub).length_le

omit [DecidableEq K] in
/-- An arrival takes the place of one of the same message. -/
theorem set {i : ℕ} (h : OneOfEach copyOf shown bs) (hlt : i < shown.length)
    (hcopy : copyOf shown[i].message = copyOf a.message) : OneOfEach copyOf (shown.set i a) (bs ++ [a]) := by
  have hkeys : ((shown.set i a).map fun a => copyOf a.message) = shown.map fun a => copyOf a.message := by
    rw [map_set, ← hcopy]
    have hmap : i < (shown.map fun a => copyOf a.message).length := by simpa using hlt
    conv_rhs => rw [← set_getElem_self hmap]
    simp
  have hmem : Among copyOf shown a := mem_map.mpr ⟨shown[i], getElem_mem hlt, hcopy⟩
  refine ⟨fun b hb => ?_, hkeys ▸ h.nodup, fun b hb => ?_⟩
  · obtain hb | rfl := mem_or_eq_of_mem_set hb
    · exact mem_append_left _ (h.subset hb)
    · exact mem_append_right _ (mem_singleton_self _)
  · unfold Among
    rw [hkeys]
    obtain hb | hb := mem_append.mp hb
    · exact h.covers b hb
    · exact mem_singleton.mp hb ▸ hmem

end OneOfEach

theorem unread_addFirst {unread : ℕ} (h : c.Shows copyOf shown bs) (a : Arrival)
    (hunread : unread ≤ c.unread + if Among copyOf shown a ∨ a.fromJson.sender = "user" then 0 else 1) :
    unread ≤ ((bs ++ [a]).foldl (addFirst copyOf) []).countP fun a => a.fromJson.sender ≠ "user" := by
  have hbefore := h.unread
  rw [foldl_append, foldl_cons, foldl_nil]
  by_cases hold : Among copyOf shown a
  · rw [addFirst_of_among ((OneOfEach.firsts bs).among_iff.mpr (h.each.among_iff.mp hold))]
    rw [if_pos (.inl hold)] at hunread
    omega
  · have hnew := mt (OneOfEach.firsts bs).among_iff.mp (mt h.each.among_iff.mpr hold)
    rw [addFirst_of_not_among hnew, countP_append, countP_singleton]
    by_cases huser : a.fromJson.sender = "user"
    · rw [if_pos (.inr huser)] at hunread
      omega
    · rw [if_neg (not_or.mpr ⟨hold, huser⟩)] at hunread
      have hcounts : (if decide (a.fromJson.sender ≠ "user") = true then 1 else 0) = 1 :=
        if_pos (decide_eq_true huser)
      omega

namespace Chat.Shows

theorem any_eq (h : c.Shows copyOf shown bs) (a : Arrival) :
    c.messages.any (dup · a.fromJson) = shown.any (dup ·.fromJson a.fromJson) := by
  rw [h.messages.any_eq, any_map]
  rfl

theorem receive (h : c.Shows copyOf shown bs) (hdup : shown.any (dup ·.fromJson a.fromJson) = true ↔
    Among copyOf shown a) :
    (c.receive dup σ a).Shows copyOf (addFirst copyOf shown a) (bs ++ [a]) := by
  refine ⟨h.each.addFirst a, ?_, unread_addFirst h a ?_⟩
  · unfold Chat.receive
    dsimp only
    rw [h.any_eq]
    by_cases hold : Among copyOf shown a
    · rw [if_pos (hdup.mpr hold), addFirst_of_among hold]
      exact h.messages
    · rw [if_neg (mt hdup.mp hold), addFirst_of_not_among hold, map_append]
      exact (σ.perm _).trans (h.messages.append_right _)
  · unfold Chat.receive
    dsimp only
    rw [h.any_eq]
    by_cases hold : Among copyOf shown a
    · rw [if_pos (hdup.mpr hold)]
      exact Nat.le_add_right _ _
    · rw [if_neg (mt hdup.mp hold)]
      by_cases huser : a.fromJson.sender = "user"
      · rw [if_neg (not_not_intro huser)]
        exact Nat.le_add_right _ _
      · rw [if_pos huser, if_neg (not_or.mpr ⟨hold, huser⟩)]

/-- A chat that stays exact tells: it grows exactly by the messages that are new. -/
theorem tells (h : c.Shows copyOf shown bs) (hexact : (c.receive dup σ a).Exact copyOf (bs ++ [a])) :
    shown.any (dup ·.fromJson a.fromJson) = true ↔ Among copyOf shown a := by
  obtain ⟨other, hother⟩ := hexact
  have hafter := hother.messages.length_eq
  have hbefore := h.messages.length_eq
  have hle := (h.each.addFirst a).length_le hother.each
  have hge := hother.each.length_le (h.each.addFirst a)
  rw [length_map] at hafter hbefore
  unfold Chat.receive at hafter
  dsimp only at hafter
  rw [h.any_eq] at hafter
  constructor
  · intro hdup
    by_contra hnew
    rw [if_pos hdup] at hafter
    rw [addFirst_of_not_among hnew, length_append, length_singleton] at hle
    omega
  · intro hold
    by_contra hdup
    rw [if_neg hdup, (σ.perm _).length_eq, length_append, length_singleton] at hafter
    rw [addFirst_of_among hold] at hge
    omega

end Chat.Shows

theorem exact_iff_of_shows : ∀ (as : List Arrival) {c : Chat} {shown bs : List Arrival}, c.Shows copyOf shown bs →
    ((∀ pre, pre <+: as → (pre.foldl (Chat.receive dup σ) c).Exact copyOf (bs ++ pre)) ↔ Tells copyOf dup shown as)
  | [], c, shown, bs, h => by
    refine iff_of_true (fun pre hpre => ?_) trivial
    rw [prefix_nil.mp hpre, append_nil]
    exact ⟨shown, h⟩
  | a :: as, c, shown, bs, h => by
    have hrest : ∀ pre, ((a :: pre).foldl (Chat.receive dup σ) c).Exact copyOf (bs ++ a :: pre) ↔
        (pre.foldl (Chat.receive dup σ) (c.receive dup σ a)).Exact copyOf (bs ++ [a] ++ pre) := by
      intro pre
      rw [foldl_cons, append_assoc]
      rfl
    constructor
    · intro hexact
      have hone := (hrest []).mp (hexact [a] (prefix_append [a] as))
      rw [append_nil] at hone
      have hdup := h.tells hone
      exact ⟨hdup, (exact_iff_of_shows as (h.receive hdup)).mp fun pre hpre =>
        (hrest pre).mp (hexact (a :: pre) (cons_prefix_cons.mpr ⟨rfl, hpre⟩))⟩
    · rintro ⟨hdup, htells⟩ pre hpre
      cases pre with
      | nil =>
        rw [append_nil]
        exact ⟨shown, h⟩
      | cons b pre =>
        obtain ⟨rfl, hlater⟩ := cons_prefix_cons.mp hpre
        exact (hrest pre).mpr ((exact_iff_of_shows as (h.receive hdup)).mpr htells pre hlater)

theorem shows_nil (copyOf : WireMessage → K) : Chat.Shows copyOf {} [] [] :=
  ⟨OneOfEach.firsts [], List.Perm.refl _, Nat.le_refl _⟩

omit [DecidableEq K] in
theorem any_iff_among (htells : TellsAll copyOf isDuplicate delivered) (hshown : shown ⊆ delivered)
    (ha : a ∈ delivered) : shown.any (isDuplicate ·.fromJson a.fromJson) = true ↔ Among copyOf shown a := by
  unfold Among
  rw [any_eq_true, mem_map]
  exact exists_congr fun b => and_congr_right fun hb => htells b (hshown hb) a ha

/-- A message of the history comes to its place, or behind the others. -/
theorem exists_loadItem (htells : TellsAll copyOf isDuplicate delivered) (hwhole : bs ++ [a] ⊆ delivered)
    {ms : List SupportChatMessage} (hms : ms.Perm (shown.map Arrival.fromJson))
    (h : OneOfEach copyOf shown bs) (changed : Bool) : ∃ shown', OneOfEach copyOf shown' (bs ++ [a]) ∧
      (Chat.loadItem (ms, changed) a).1.Perm (shown'.map Arrival.fromJson) := by
  have hshown : shown ⊆ delivered := fun b hb => hwhole (mem_append_left _ (h.subset hb))
  have ha : a ∈ delivered := hwhole (mem_append_right _ (mem_singleton_self _))
  have hcomp : Relation.Comp (· = List.map Arrival.fromJson ·) List.Perm ms shown := by
    rw [eq_map_comp_perm]
    exact hms
  obtain ⟨order, rfl, horder⟩ := hcomp
  have hin : order ⊆ delivered := fun b hb => hshown (horder.subset hb)
  have heach : OneOfEach copyOf order bs :=
    ⟨fun b hb => h.subset (horder.subset hb), (horder.map _).nodup_iff.mpr h.nodup,
      fun b hb => (horder.map _).mem_iff.mpr (h.covers b hb)⟩
  have hany := any_iff_among htells hin ha
  have hadded := heach.addFirst a
  unfold Chat.loadItem
  dsimp only
  cases hfind : (order.map Arrival.fromJson).findIdx? (isDuplicate · a.fromJson) with
  | none =>
    have hnew : ¬Among copyOf order a := by
      intro hold
      obtain ⟨b, hb, hdup⟩ := any_eq_true.mp (hany.mpr hold)
      have hno := findIdx?_eq_none_iff.mp hfind _ (mem_map_of_mem hb)
      cases hno.symm.trans hdup
    rw [addFirst_of_not_among hnew] at hadded
    exact ⟨_, hadded, by rw [map_append]; rfl⟩
  | some i =>
    obtain ⟨hlt, hdup, -⟩ := findIdx?_eq_some_iff_getElem.mp hfind
    rw [getElem_map] at hdup
    have hlt' : i < order.length := by simpa using hlt
    have hcopy := (htells _ (hin (getElem_mem hlt')) a ha).mp hdup
    dsimp only
    split
    · exact ⟨_, heach.set hlt' hcopy, by rw [map_set]⟩
    · have hold : Among copyOf order a := mem_map.mpr ⟨_, getElem_mem hlt', hcopy⟩
      rw [addFirst_of_among hold] at hadded
      exact ⟨_, hadded, List.Perm.refl _⟩

theorem exists_loadItems (htells : TellsAll copyOf isDuplicate delivered) : ∀ (list : List Arrival)
    {bs shown : List Arrival} {ms : List SupportChatMessage} (changed : Bool), bs ++ list ⊆ delivered →
      ms.Perm (shown.map Arrival.fromJson) → OneOfEach copyOf shown bs →
        ∃ shown', OneOfEach copyOf shown' (bs ++ list) ∧
          (list.foldl Chat.loadItem (ms, changed)).1.Perm (shown'.map Arrival.fromJson)
  | [], bs, shown, ms, changed, _, hms, h => by
    rw [append_nil]
    exact ⟨shown, h, hms⟩
  | a :: list, bs, shown, ms, changed, hwhole, hms, h => by
    have hrest : bs ++ [a] ++ list ⊆ delivered := by simpa using hwhole
    obtain ⟨shown', h', hms'⟩ :=
      exists_loadItem htells (fun b hb => hrest (mem_append_left _ hb)) hms h changed
    rw [foldl_cons, show bs ++ a :: list = bs ++ [a] ++ list by simp]
    exact exists_loadItems htells list _ hrest hms' h'

theorem unread_append (h : c.Shows copyOf shown bs) (list : List Arrival) :
    c.unread ≤ ((bs ++ list).foldl (addFirst copyOf) []).countP fun a => a.fromJson.sender ≠ "user" := by
  have hgrows : ∀ (list firsts : List Arrival), (firsts.countP fun a => a.fromJson.sender ≠ "user") ≤
      (list.foldl (addFirst copyOf) firsts).countP fun a => a.fromJson.sender ≠ "user" := by
    intro list
    induction list with
    | nil => exact fun _ => Nat.le_refl _
    | cons a list ih =>
      intro firsts
      refine le_trans ?_ (ih _)
      by_cases hold : Among copyOf firsts a
      · rw [addFirst_of_among hold]
      · rw [addFirst_of_not_among hold, countP_append]
        exact Nat.le_add_right _ _
  rw [foldl_append]
  exact h.unread.trans (hgrows list _)

theorem exact_deliver (htells : TellsAll copyOf isDuplicate delivered) (d : Delivery)
    (hwhole : bs ++ d.arrivals ⊆ delivered) (h : c.Exact copyOf bs) :
    (c.deliver σ d).Exact copyOf (bs ++ d.arrivals) := by
  obtain ⟨shown, h⟩ := h
  cases d with
  | incoming a =>
    refine ⟨_, h.receive (any_iff_among htells (fun b hb => hwhole ?_) (hwhole ?_))⟩
    · exact mem_append_left _ (h.each.subset hb)
    · exact mem_append_right _ (mem_singleton_self _)
  | history list =>
    obtain ⟨shown', heach, hperm⟩ := exists_loadItems htells list false hwhole h.messages h.each
    refine ⟨shown', heach, ?_, unread_append h list⟩
    unfold Chat.deliver Chat.loadChatHistory
    dsimp only
    split
    · exact (σ.perm _).trans hperm
    · exact hperm

theorem exact_deliveries (htells : TellsAll copyOf isDuplicate delivered) :
    ∀ {ds : List Delivery} {bs : List Arrival}
    {c : Chat}, bs ++ ds.flatMap Delivery.arrivals = delivered → c.Exact copyOf bs →
      (ds.foldl (Chat.deliver σ) c).Exact copyOf delivered
  | [], bs, c, hwhole, h => by
    rw [flatMap_nil, append_nil] at hwhole
    exact hwhole ▸ h
  | d :: ds, bs, c, hwhole, h => by
    rw [flatMap_cons, ← append_assoc] at hwhole
    rw [foldl_cons]
    refine exact_deliveries htells hwhole (exact_deliver htells d ?_ h)
    rw [← hwhole]
    exact subset_append_left _ _

end Copies

/-- One message is not younger than another one. -/
def notYounger (a b : SupportChatMessage) : Prop := a.timestamp ≤ b.timestamp

instance : DecidableRel notYounger := fun a b => inferInstanceAs (Decidable (a.timestamp ≤ b.timestamp))

instance : Std.Total notYounger := ⟨fun a b => le_total a.timestamp b.timestamp⟩

instance : IsTrans SupportChatMessage notYounger := ⟨fun _ _ _ hab hbc => le_trans hab hbc⟩

/-- The insertion sort, which `List.sort` is for a short list. -/
def byTime : MessageSort where
  sort l := l.insertionSort notYounger
  perm l := perm_insertionSort _ l
  sorted l := pairwise_insertionSort notYounger l

/-- A message of the operator with an id and a client id of its own, as it comes at a time in seconds. -/
def operatorSays (number text : String) (milliseconds seconds : ℤ) : Arrival where
  message :=
    { id := some ("op-" ++ number)
      sender := some "operator"
      text := some text
      timestamp := some (.num milliseconds)
      clientId := some ("client-op-" ++ number) }
  now := seconds * 1000000
  idNow := seconds * 1000000

/-- Two different messages with one text, one second apart. -/
def yesTwice : List Arrival := [operatorSays "2" "Да" 1000 1, operatorSays "3" "Да" 2000 2]

end LigamentApps.SupportService
