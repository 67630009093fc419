import Mathlib.Algebra.BigOperators.Group.List.Basic
import Mathlib.Algebra.Order.Ring.Int
import LigamentApps.Machine.Trace

/-!
# What the unread counts change

The chats of `ChatService` through `chat.message`, `setActiveChat`, `markRead` and `markLocalRead`, between
the answers of `loadChats`, which replace them. The messages and the topics are not here. -/

namespace LigamentApps.ChatService.Unread

open List

structure ChatItem where
  id : String
  kind : String
  title : String
  description : String := ""
  avatarUrl : String := ""
  isForum : Bool := false
  isArchived : Bool := false
  unreadCount : ℤ := 0
  updatedAt : ℤ
  peerUserId : String := ""
  myRole : String := ""

structure State where
  chats : List ChatItem := []
  activeChatId : Option String := none

inductive Action
  /-- A `chat.message`. -/
  | message (chatId : String) (createdAt : ℤ)
  | setActiveChat (chatId : Option String)
  /-- A call of `markRead` is answered, or fails. -/
  | markRead (chatId : String) (ok : Bool)
  | markLocalRead (chatId : String)
  /-- A call of `loadChats` is answered with the chats, or fails. -/
  | loadChats (answer : Option (List ChatItem))

namespace State

variable (s : State)

def totalUnreadCount (chats : List ChatItem) : ℤ := (chats.map (·.unreadCount)).sum

/-- `_updateLocalUnread`. -/
def updateLocalUnread (chatId : String) : State :=
  { s with chats := s.chats.map fun c =>
      if c.id = chatId ∧ c.unreadCount > 0 then
        { id := c.id, kind := c.kind, title := c.title, description := c.description, avatarUrl := c.avatarUrl
          isForum := c.isForum, isArchived := c.isArchived, unreadCount := 0, updatedAt := c.updatedAt }
      else c }

/-- The chats of a `chat.message`. -/
def handleMessage (chatId : String) (createdAt : ℤ) : State :=
  if s.activeChatId ≠ some chatId then
    { s with chats := s.chats.map fun c =>
        if c.id = chatId then
          { id := c.id, kind := c.kind, title := c.title, description := c.description, avatarUrl := c.avatarUrl
            isForum := c.isForum, isArchived := c.isArchived
            unreadCount := c.unreadCount + 1, updatedAt := createdAt }
        else c }
  else s

def next : Action → State
  | .message chatId createdAt => s.handleMessage chatId createdAt
  | .setActiveChat (some chatId) => { s with activeChatId := some chatId }.updateLocalUnread chatId
  | .setActiveChat none => { s with activeChatId := none }
  | .markRead chatId ok => if ok then s.updateLocalUnread chatId else s
  | .markLocalRead chatId => s.updateLocalUnread chatId
  | .loadChats (some chats) => { s with chats }
  | .loadChats none => s

end State

def chatItems : Machine State Action Empty := ⟨fun s a => some (s.next a, [])⟩

/-! ## One chat -/

/-- The chat that an action is about. -/
def Action.chatId : Action → Option String
  | .message chatId _ | .markRead chatId _ | .markLocalRead chatId => some chatId
  | .setActiveChat chatId => chatId
  | .loadChats _ => none

/-- At most the count and the time of one chat with the id are others, and the total is by as much another. -/
def Framed (chatId : Option String) (chats later : List ChatItem) : Prop :=
  later = chats ∨ ∃ (i : ℕ) (c : ChatItem) (unreadCount updatedAt : ℤ), chats[i]? = some c ∧
    some c.id = chatId ∧ later = chats.set i { c with unreadCount, updatedAt } ∧
      State.totalUnreadCount later = State.totalUnreadCount chats + (unreadCount - c.unreadCount)

/-- The law of a step; the chats that are loaded are what they are. -/
def State.Lawful (s : State) : Action → Prop
  | .loadChats (some _) => True
  | a => Framed a.chatId s.chats (s.next a).chats

/-- The chats that an action builds anew. -/
def State.rebuilds (s : State) (a : Action) (c : ChatItem) : Bool :=
  match a with
  | .message chatId _ => s.activeChatId ≠ some chatId && c.id = chatId
  | .markRead chatId ok => ok && c.id = chatId && c.unreadCount > 0
  | .setActiveChat chatId => some c.id = chatId && c.unreadCount > 0
  | .markLocalRead chatId => c.id = chatId && c.unreadCount > 0
  | .loadChats _ => false

/-- A chat that is built anew is the only one, and has neither a peer nor a role. -/
def State.RebuildsPlain (s : State) (a : Action) : Prop :=
  ∀ (i : ℕ) (c : ChatItem), s.chats[i]? = some c → s.rebuilds a c = true → c.peerUserId = "" ∧ c.myRole = "" ∧
    ∀ (j : ℕ) (d : ChatItem), s.chats[j]? = some d → s.rebuilds a d = true → j = i

/-- A chat as it is built anew. -/
def rebuilt (a : Action) (c : ChatItem) : ChatItem :=
  match a with
  | .message _ createdAt =>
    { c with unreadCount := c.unreadCount + 1, updatedAt := createdAt, peerUserId := "", myRole := "" }
  | _ => { c with unreadCount := 0, peerUserId := "", myRole := "" }

variable {s : State} {a : Action} {chats later : List ChatItem} {c d : ChatItem} {i : ℕ}

/-- Where nothing is loaded, each chat is built anew or stays. -/
theorem chats_next (h : ∀ chats, a ≠ .loadChats (some chats)) :
    (s.next a).chats = s.chats.map fun c => if s.rebuilds a c then rebuilt a c else c := by
  have hread : ∀ chatId (t : State), (t.updateLocalUnread chatId).chats =
      t.chats.map fun c => if c.id = chatId && c.unreadCount > 0 then rebuilt (.markLocalRead chatId) c else c :=
    fun chatId t => map_congr_left fun c _ => by simp [rebuilt]
  cases a with
  | message chatId createdAt =>
    show (s.handleMessage chatId createdAt).chats = _
    unfold State.handleMessage
    split
    · rename_i hother
      simp [State.rebuilds, hother, rebuilt]
    · rename_i hactive
      simp [State.rebuilds, not_not.mp hactive]
  | setActiveChat chatId =>
    cases chatId with
    | none => simp [State.next, State.rebuilds]
    | some => exact (hread _ _).trans (by simp [State.rebuilds, rebuilt])
  | markRead _ ok =>
    cases ok with
    | true => exact (hread _ _).trans (by simp [State.rebuilds, rebuilt])
    | false => simp [State.next, State.rebuilds]
  | markLocalRead => exact hread _ s
  | loadChats answer =>
    cases answer with
    | none => simp [State.next, State.rebuilds]
    | some chats => exact absurd rfl (h chats)

/-- A chat that is built anew has another count. -/
theorem rebuilt_other (h : s.rebuilds a c = true) :
    (rebuilt a c).unreadCount ≠ c.unreadCount ∧ some c.id = a.chatId := by
  cases a <;> simp_all [State.rebuilds, rebuilt, Action.chatId] <;> omega

/-- Where one chat is replaced, the total is another by the difference of its count. -/
theorem total_set (h : chats[i]? = some c) : State.totalUnreadCount (chats.set i d) =
    State.totalUnreadCount chats + (d.unreadCount - c.unreadCount) := by
  induction chats generalizing i with
  | nil => simp at h
  | cons x xs ih =>
    cases i with
    | zero =>
      obtain rfl : x = c := Option.some.inj h
      simp only [State.totalUnreadCount, set_cons_zero, map_cons, sum_cons]
      omega
    | succ i =>
      have hrest := ih (by simpa using h)
      simp only [State.totalUnreadCount, set_cons_succ, map_cons, sum_cons] at hrest ⊢
      omega

/-- A step that loads nothing is framed exactly if it builds no more than one chat anew, and only a plain
one. -/
theorem framed_iff (h : ∀ chats, a ≠ .loadChats (some chats)) :
    Framed a.chatId s.chats (s.next a).chats ↔ s.RebuildsPlain a := by
  have hat : ∀ (i : ℕ) (c : ChatItem), s.chats[i]? = some c →
      (s.next a).chats[i]? = some (if s.rebuilds a c then rebuilt a c else c) := by
    intro i c hc
    rw [chats_next h, getElem?_map, hc]
    rfl
  constructor
  · -- A chat that is built anew has another count, so that it is the one that is replaced.
    rintro (hsame | ⟨i, x, unreadCount, updatedAt, hx, -, hset, -⟩) j c hc hbuilds
    · have hj := hat j c hc
      rw [hsame, hc, if_pos hbuilds] at hj
      exact absurd (congrArg ChatItem.unreadCount (Option.some.inj hj)).symm (rebuilt_other hbuilds).1
    · have halone : ∀ (k : ℕ) (d : ChatItem), s.chats[k]? = some d → s.rebuilds a d = true → k = i := by
        intro k d hd hbuilds
        by_contra hk
        have hthere := hat k d hd
        rw [hset, getElem?_set_ne (Ne.symm hk), hd, if_pos hbuilds] at hthere
        exact (rebuilt_other hbuilds).1 (congrArg ChatItem.unreadCount (Option.some.inj hthere)).symm
      obtain rfl := halone j c hc hbuilds
      obtain rfl : c = x := Option.some.inj (hc.symm.trans hx)
      have hj := hat j c hc
      rw [hset, getElem?_set_self (List.getElem?_eq_some_iff.mp hc).1, if_pos hbuilds] at hj
      have hpeer := congrArg ChatItem.peerUserId (Option.some.inj hj)
      have hrole := congrArg ChatItem.myRole (Option.some.inj hj)
      refine ⟨hpeer.trans ?_, hrole.trans ?_, halone⟩ <;> cases a <;> rfl
  · -- The only chat that is built anew differs from itself in its count and its time.
    intro hplain
    by_cases hany : ∃ (i : ℕ) (c : ChatItem), s.chats[i]? = some c ∧ s.rebuilds a c = true
    · obtain ⟨i, c, hc, hbuilds⟩ := hany
      obtain ⟨hpeer, hrole, halone⟩ := hplain i c hc hbuilds
      have hkeeps : rebuilt a c = { c with
          unreadCount := (rebuilt a c).unreadCount, updatedAt := (rebuilt a c).updatedAt } := by
        obtain ⟨⟩ := c
        cases hpeer
        cases hrole
        cases a <;> rfl
      have hset : (s.next a).chats = s.chats.set i (rebuilt a c) := by
        refine ext_getElem? fun k => ?_
        by_cases hk : k = i
        · subst hk
          rw [hat k c hc, if_pos hbuilds, getElem?_set_self (List.getElem?_eq_some_iff.mp hc).1]
        · rw [getElem?_set_ne (Ne.symm hk)]
          cases hd : s.chats[k]? with
          | none => rw [chats_next h, getElem?_map, hd, Option.map_none]
          | some d => rw [hat k d hd, if_neg fun hd' => hk (halone k d hd hd')]
      exact .inr ⟨i, c, _, _, hc, (rebuilt_other hbuilds).2, hkeeps ▸ hset, hset ▸ total_set hc⟩
    · refine .inl ((chats_next h).trans ?_)
      refine (map_congr_left fun c hc => if_neg fun hbuilds => ?_).trans (map_id _)
      obtain ⟨i, hi⟩ := mem_iff_getElem?.mp hc
      exact hany ⟨i, c, hi, hbuilds⟩

/-- In every run each step changes the count and the time of one chat and nothing else, exactly when it builds
no more than one chat anew, and only one without peer and role. -/
theorem unread_framed_iff (as : List Action) :
    chatItems.Every (fun s _ a => s.Lawful a) {} [] as ↔
        chatItems.Every (fun s _ a => s.RebuildsPlain a) {} [] as := by
  refine Machine.every_iff (fun _ _ => True) (fun _ _ _ _ _ _ _ _ => trivial) (fun s _ a _ => ?_) as ({} : State) []
    trivial
  cases a with
  | loadChats answer =>
    cases answer with
    | none => exact framed_iff nofun
    | some => exact iff_of_true trivial nofun
  | _ => exact framed_iff nofun

/-- A direct chat that is read loses its peer. -/
theorem peer_lost : ¬∀ as, chatItems.Every (fun s _ a => s.Lawful a) {} [] as := by
  intro h
  let chat : ChatItem :=
    { id := "c", kind := "direct", title := "t", unreadCount := 1, updatedAt := 0, peerUserId := "u" }
  have hruns := (unread_framed_iff _).mp (h [.loadChats (some [chat]), .markLocalRead "c"])
  have hplain := (hruns.2 _ _ rfl).1 0 chat rfl rfl
  exact absurd hplain.1 (by decide)

end LigamentApps.ChatService.Unread
