import Mathlib.Data.List.Nodup
import LigamentApps.Machine.Laws
import LigamentApps.SupportOperator.ClipboardSync

/-!
# The remote keyboard of the operator

`remote_keyboard.dart` with the key handler, the paste shortcut and `_releaseAllPressedInputs` of
`support_operator_screen.dart`, while the data channel is open. The trace is the messages in the order they
are sent. A key event's message is marked with the number of the event and its physical key; these marks are
not sent.

Every message but one is sent while its event is handled. The key_down of the paste shortcut waits for the
local clipboard to be read, and nothing holds back what comes meanwhile. -/

namespace LigamentApps.SupportOperator.Keyboard

open Clipboard (Text)

variable (names : List String)

/-! ## The keyboard -/

/-- `RemoteKeyboard._virtualKey`, the part of it that is a table. -/
def virtualKeyTable : List (ℕ × ℕ) :=
  [(0x70027, 0x30), (0x70028, 0x0D), (0x70029, 0x1B), (0x7002A, 0x08), (0x7002B, 0x09), (0x7002C, 0x20),
    (0x7002D, 0xBD), (0x7002E, 0xBB), (0x7002F, 0xDB), (0x70030, 0xDD), (0x70031, 0xDC), (0x70032, 0xDC),
    (0x70033, 0xBA), (0x70034, 0xDE), (0x70035, 0xC0), (0x70036, 0xBC), (0x70037, 0xBE), (0x70038, 0xBF),
    (0x70039, 0x14), (0x70046, 0x2C), (0x70047, 0x91), (0x70048, 0x13), (0x70049, 0x2D), (0x7004A, 0x24),
    (0x7004B, 0x21), (0x7004C, 0x2E), (0x7004D, 0x23), (0x7004E, 0x22), (0x7004F, 0x27), (0x70050, 0x25),
    (0x70051, 0x28), (0x70052, 0x26), (0x70053, 0x90), (0x70054, 0x6F), (0x70055, 0x6A), (0x70056, 0x6D),
    (0x70057, 0x6B), (0x70058, 0x0D), (0x70059, 0x61), (0x7005A, 0x62), (0x7005B, 0x63), (0x7005C, 0x64),
    (0x7005D, 0x65), (0x7005E, 0x66), (0x7005F, 0x67), (0x70060, 0x68), (0x70061, 0x69), (0x70062, 0x60),
    (0x70063, 0x6E), (0x70065, 0x5D), (0x700E0, 0xA2), (0x700E1, 0xA0), (0x700E2, 0xA4), (0x700E3, 0x5B),
    (0x700E4, 0xA3), (0x700E5, 0xA1), (0x700E6, 0xA5), (0x700E7, 0x5C)]

/-- `RemoteKeyboard._virtualKey`. -/
def virtualKey (usage : ℕ) : Option ℕ :=
  if 0x70004 ≤ usage ∧ usage ≤ 0x7001D then some (0x41 + usage - 0x70004)
  else if 0x7001E ≤ usage ∧ usage ≤ 0x70026 then some (0x31 + usage - 0x7001E)
  else if 0x7003A ≤ usage ∧ usage ≤ 0x70045 then some (0x70 + usage - 0x7003A)
  else virtualKeyTable.lookup usage

/-- What a key message says of its key. -/
structure Identity where
  key : String
  keyCode : Option ℕ
  char : Option String
  deriving DecidableEq

variable {id : Identity}

inductive Kind
  | down
  | repeated
  | up
  deriving DecidableEq

/-- A `KeyEvent`, with the state of the modifiers at its time. -/
structure KeyEvent where
  kind : Kind
  /-- The USB usage of the physical key. -/
  physicalKey : ℕ
  physicalName : Option String
  logicalKey : ℕ
  keyLabel : String
  logicalName : Option String
  character : Option String
  isCtrlOrCmd : Bool

/-- `LogicalKeyboardKey.keyV`. -/
def keyV : ℕ := 0x76

def KeyEvent.isDown (e : KeyEvent) : Bool := e.kind != .up

/-- The identity of a key that is not pressed. -/
def KeyEvent.identity (e : KeyEvent) : Identity where
  key := if e.keyLabel ≠ "" then e.keyLabel else (e.logicalName <|> e.physicalName).getD "Key"
  keyCode := virtualKey e.physicalKey
  char := e.character.filter (· ≠ "")

/-- `RemoteKeyboard._pressed`. -/
abbrev Pressed := List (ℕ × Identity)

variable (pressed : Pressed)

/-- The identity that `RemoteKeyboard.message` uses. -/
def messageIdentity (pressed : Pressed) (e : KeyEvent) : Identity := (pressed.lookup e.physicalKey).getD e.identity

/-- The keys after `RemoteKeyboard.message`. -/
def afterMessage (pressed : Pressed) (e : KeyEvent) : Pressed :=
  if e.isDown then
    match pressed.lookup e.physicalKey with
    | some _ => pressed
    | none => pressed ++ [(e.physicalKey, e.identity)]
  else pressed.filter fun entry => entry.1 != e.physicalKey

/-! ## The screen -/

inductive Sent
  /-- A key_down of the event with this number, and its physical key. -/
  | down (event physicalKey : ℕ) (identity : Identity)
  | up (event physicalKey : ℕ) (identity : Identity)
  /-- A key_up out of `_pressedKeys`, which has nothing but the key's name. -/
  | nameUp (key : String)
  /-- A key_up out of `RemoteKeyboard.releaseAll`. -/
  | releaseUp (physicalKey : ℕ) (identity : Identity)
  /-- `_releaseAllPressedInputs` has run, after so many key events. -/
  | released (events : ℕ)
  | clipboardSet (text : Text)

/-- A paste shortcut that waits for the clipboard. -/
structure Paste where
  event : ℕ
  physicalKey : ℕ
  identity : Identity

structure State where
  isControlEnabled : Bool
  autoSyncClipboard : Bool
  isViewOnlySession : Bool
  /-- `_remoteKeyboard`. -/
  pressed : Pressed
  pressedKeys : List String
  pastes : List Paste
  lastSentLocalClipboardText : Option Text
  lastRemoteClipboardText : Option Text
  /-- The number of key events so far. -/
  events : ℕ

variable (viewOnly : Bool)

def State.start : State := ⟨!viewOnly, true, viewOnly, [], [], [], none, none, 0⟩

def State.canSyncLocalClipboard (s : State) : Bool :=
  s.autoSyncClipboard && s.isControlEnabled && !s.isViewOnlySession

/-- The keys' part of `_releaseAllPressedInputs`. -/
def releaseAllPressedInputs (s : State) : State × List Sent :=
  ({ s with pressed := [], pressedKeys := [] },
    s.pressedKeys.map .nameUp ++ s.pressed.map (fun entry => .releaseUp entry.1 entry.2) ++ [.released s.events])

/-- The state after the head of the key handler: both sets of pressed keys are brought up to date. -/
def State.pressing (s : State) (e : KeyEvent) : State :=
  let key := (messageIdentity s.pressed e).key
  { s with
    pressed := afterMessage s.pressed e
    pressedKeys :=
      if e.isDown then (if key ∈ s.pressedKeys then s.pressedKeys else s.pressedKeys ++ [key])
      else s.pressedKeys.filter (· ≠ key)
    events := s.events + 1 }

/-- The paste shortcut waits for the clipboard. -/
def State.waits (s : State) (e : KeyEvent) : Bool :=
  e.isCtrlOrCmd && e.logicalKey == keyV && e.isDown && s.canSyncLocalClipboard

def State.message (s : State) (e : KeyEvent) : Sent :=
  if e.isDown then .down s.events e.physicalKey (messageIdentity s.pressed e)
  else .up s.events e.physicalKey (messageIdentity s.pressed e)

/-- `onKeyEvent`. The copy shortcut differs from other keys only by a timer. -/
def onKeyEvent (s : State) (e : KeyEvent) : State × List Sent :=
  if s.isControlEnabled then
    if s.waits e then
      ({ s.pressing e with
          pastes := s.pastes ++ [⟨s.events, e.physicalKey, messageIdentity s.pressed e⟩] }, [])
    else (s.pressing e, [s.message e])
  else (s, [])

/-- The continuation of `_handlePasteKeyAhead`: the clipboard's text goes first, unless it is known. No text
is what an empty clipboard and a failed read come to; `sensitive` is a text that its owner keeps back. -/
def pasteAnswered (s : State) (paste : Paste) (text : Option Text) (sensitive : Bool) : State × List Sent :=
  let down := Sent.down paste.event paste.physicalKey paste.identity
  match text with
  | none => (s, [down])
  | some text =>
    if text ≠ [] ∧ s.lastRemoteClipboardText ≠ some text ∧ s.lastSentLocalClipboardText ≠ some text ∧
        sensitive = false then
      ({ s with lastSentLocalClipboardText := some text }, [.clipboardSet text, down])
    else (s, [down])

inductive Action
  | key (e : KeyEvent)
  | focusLost
  | toggleControl
  | toggleAutoSync
  /-- The clipboard read of a waiting paste shortcut is answered. -/
  | answer (i : ℕ) (text : Option Text) (sensitive : Bool)

def keyboard : Machine State Action Sent where
  step s
    | .key e => some (onKeyEvent s e)
    | .focusLost => some (releaseAllPressedInputs s)
    | .toggleControl =>
      if s.isViewOnlySession then none
      else if s.isControlEnabled then
        some ({ (releaseAllPressedInputs s).1 with isControlEnabled := false }, (releaseAllPressedInputs s).2)
      else some ({ s with isControlEnabled := true }, [])
    | .toggleAutoSync => some ({ s with autoSyncClipboard := !s.autoSyncClipboard }, [])
    | .answer i text sensitive =>
      match s.pastes[i]? with
      | none => none
      | some paste => some (pasteAnswered { s with pastes := s.pastes.eraseIdx i } paste text sensitive)

/-! ## What is asked of the messages -/

/-- A key_down that no key_up has closed. -/
structure Opened where
  physicalKey : ℕ
  identity : Identity
  deriving DecidableEq

/-- What the messages so far come to. -/
structure Ledger where
  /-- The key_downs that are not closed. -/
  opened : List Opened
  /-- The last key event with a message. -/
  last : Option ℕ
  /-- The number of key events before the last release. -/
  released : ℕ

def Ledger.close (k : Ledger) (physicalKey : ℕ) : List Opened :=
  k.opened.filter fun o => o.physicalKey != physicalKey

def Ledger.next (k : Ledger) : Sent → Ledger
  | .down n p id => { k with opened := ⟨p, id⟩ :: k.opened, last := some n }
  | .up n p _ => { k with opened := k.close p, last := some n }
  | .nameUp _ => k
  | .releaseUp p _ => { k with opened := k.close p }
  | .released n => { k with released := n }
  | .clipboardSet _ => k

/-- The messages of the key events are sent in the order of the events; after a release no key_down is open,
and none is sent for an earlier event. -/
def InOrder (k : Ledger) : Sent → Prop
  | .down n _ _ => (∀ m ∈ k.last, m < n) ∧ k.released ≤ n
  | .up n _ _ => ∀ m ∈ k.last, m < n
  | .released _ => k.opened = []
  | _ => True

/-- A key_up says the same of its key as the key_down it closes. -/
def SameIdentity (k : Ledger) : Sent → Prop
  | .up _ p id => ∀ o ∈ k.opened, o.physicalKey = p → o.identity = id
  | .releaseUp p id => ∀ o ∈ k.opened, o.physicalKey = p → o.identity = id
  | .nameUp key => ∀ o ∈ k.opened, o.identity.key = key → o.identity = ⟨key, none, none⟩
  | _ => True

def orderLaw : Monitor Ledger Sent where
  start := ⟨[], none, 0⟩
  next := Ledger.next
  Ok := InOrder

/-- Order, balance and identity. -/
def keyLaw : Monitor Ledger Sent where
  start := ⟨[], none, 0⟩
  next := Ledger.next
  Ok k e := InOrder k e ∧ SameIdentity k e

instance (k : Ledger) : ∀ x, Decidable (InOrder k x)
  | .down n _ _ => inferInstanceAs (Decidable ((∀ m ∈ k.last, m < n) ∧ k.released ≤ n))
  | .up n _ _ => inferInstanceAs (Decidable (∀ m ∈ k.last, m < n))
  | .released _ => inferInstanceAs (Decidable (k.opened = []))
  | .nameUp _ => inferInstanceAs (Decidable True)
  | .releaseUp _ _ => inferInstanceAs (Decidable True)
  | .clipboardSet _ => inferInstanceAs (Decidable True)

instance (k : Ledger) : ∀ x, Decidable (SameIdentity k x)
  | .up _ p id => inferInstanceAs (Decidable (∀ o ∈ k.opened, o.physicalKey = p → o.identity = id))
  | .releaseUp p id => inferInstanceAs (Decidable (∀ o ∈ k.opened, o.physicalKey = p → o.identity = id))
  | .nameUp key =>
    inferInstanceAs (Decidable (∀ o ∈ k.opened, o.identity.key = key → o.identity = ⟨key, none, none⟩))
  | .down _ _ _ => inferInstanceAs (Decidable True)
  | .released _ => inferInstanceAs (Decidable True)
  | .clipboardSet _ => inferInstanceAs (Decidable True)

instance (k : Ledger) (x : Sent) : Decidable (orderLaw.Ok k x) := inferInstanceAs (Decidable (InOrder k x))

instance (k : Ledger) (x : Sent) : Decidable (keyLaw.Ok k x) :=
  inferInstanceAs (Decidable (InOrder k x ∧ SameIdentity k x))

/-- The clipboard read of a paste shortcut is answered before the message of a later key event is sent, and
before any release. -/
def Timely (s : State) (es : List Sent) : Action → Prop
  | .answer i _ _ => ∀ paste, s.pastes[i]? = some paste →
      (∀ m ∈ (keyLaw.after es).last, m < paste.event) ∧ (keyLaw.after es).released ≤ paste.event
  | _ => True

/-- Whether an action releases all keys. -/
def Action.releases (s : State) : Action → Bool
  | .focusLost => true
  | .toggleControl => !s.isViewOnlySession && s.isControlEnabled
  | _ => false

/-- Where the keys are released, each that is pressed has nothing but a name. -/
def NamedOnly (s : State) (es : List Sent) (a : Action) : Prop :=
  a.releases s = true → ∀ o ∈ (keyLaw.after es).opened, o.identity.key ∈ s.pressedKeys →
    o.identity = ⟨o.identity.key, none, none⟩

/-! ## The keys that are pressed -/

theorem lookup_filter_ne (p q : ℕ) (hne : q ≠ p) :
    (pressed.filter fun entry => entry.1 != p).lookup q = pressed.lookup q := by
  induction pressed with
  | nil => rfl
  | cons entry _ ih =>
    obtain ⟨p', id⟩ := entry
    by_cases hp : p' = p
    · subst hp
      have hbeq : (q == p') = false := by simpa using hne
      rw [List.lookup_cons, hbeq]
      simpa using ih
    · by_cases hq : q = p'
      · subst hq
        simp [hp]
      · have hbeq : (q == p') = false := by simpa using hq
        rw [List.filter_cons_of_pos (by simpa using hp), List.lookup_cons, List.lookup_cons, hbeq, ih]

theorem lookup_append_other (p q : ℕ) (id : Identity) (h : pressed.lookup q ≠ none) :
    (pressed ++ [(p, id)]).lookup q = pressed.lookup q := by
  obtain ⟨id', hid⟩ := Option.ne_none_iff_exists'.mp h
  rw [List.lookup_append, hid]
  rfl

theorem mem_of_lookup {pressed : Pressed} {p : ℕ} (h : pressed.lookup p = some id) : (p, id) ∈ pressed := by
  induction pressed with
  | nil => simp at h
  | cons entry _ ih =>
    obtain ⟨p', id'⟩ := entry
    by_cases hp : p = p'
    · subst hp
      simp only [List.lookup_cons, BEq.rfl, Option.some.injEq] at h
      rw [h]
      exact List.mem_cons_self
    · have hbeq : (p == p') = false := by simpa using hp
      rw [List.lookup_cons, hbeq] at h
      exact List.mem_cons_of_mem _ (ih h)

theorem lookup_afterMessage {pressed : Pressed} {e : KeyEvent} {q : ℕ} (h : pressed.lookup q = some id)
    (hkey : e.isDown = true ∨ q ≠ e.physicalKey) : (afterMessage pressed e).lookup q = some id := by
  unfold afterMessage
  split_ifs with hdown
  · split
    · exact h
    · rw [lookup_append_other _ _ _ _ (by simp [h]), h]
  · rw [lookup_filter_ne _ _ _ (hkey.resolve_left hdown), h]

theorem lookup_afterMessage_down {pressed : Pressed} {e : KeyEvent} (hdown : e.isDown = true) :
    (afterMessage pressed e).lookup e.physicalKey = some (messageIdentity pressed e) := by
  unfold afterMessage messageIdentity
  rw [if_pos hdown]
  cases hlookup : pressed.lookup e.physicalKey with
  | some => simp [hlookup]
  | none =>
    have happend : (pressed ++ [(e.physicalKey, e.identity)]).lookup e.physicalKey = some e.identity := by
      have hnone : ∀ entry ∈ pressed, e.physicalKey ≠ entry.1 := by
        intro entry hentry heq
        rw [List.lookup_eq_none_iff] at hlookup
        simpa [heq] using hlookup entry hentry
      rw [List.lookup_append, hlookup]
      simp
    simpa using happend

/-- No key is pressed twice. -/
def Distinct (pressed : Pressed) : Prop := (pressed.map Prod.fst).Nodup

theorem lookup_of_mem {pressed : Pressed} (hdistinct : Distinct pressed) {p : ℕ} (h : (p, id) ∈ pressed) :
    pressed.lookup p = some id := by
  induction pressed with
  | nil => cases h
  | cons entry _ ih =>
    obtain ⟨p', id'⟩ := entry
    obtain ⟨hnot, hrest⟩ := List.nodup_cons.mp hdistinct
    rcases List.mem_cons.mp h with heq | h
    · cases heq
      simp
    · have hne : p ≠ p' := fun heq => hnot (heq ▸ List.mem_map.mpr ⟨_, h, rfl⟩)
      have hbeq : (p == p') = false := by simpa using hne
      rw [List.lookup_cons, hbeq]
      exact ih hrest h

theorem distinct_afterMessage {pressed : Pressed} (h : Distinct pressed) (e : KeyEvent) :
    Distinct (afterMessage pressed e) := by
  unfold afterMessage
  split_ifs with hdown
  · split
    · exact h
    · rename_i hnone
      have hnew : e.physicalKey ∉ pressed.map Prod.fst := by
        intro hmem
        obtain ⟨⟨p, id⟩, hentry, rfl⟩ := List.mem_map.mp hmem
        rw [lookup_of_mem h hentry] at hnone
        exact Option.some_ne_none id hnone
      rw [Distinct, List.map_append]
      exact List.nodup_append.mpr ⟨h, List.nodup_singleton _, by
        rintro p hp q hq rfl
        rw [List.mem_singleton.mp hq] at hp
        exact hnew hp⟩
  · exact h.sublist (List.filter_sublist.map Prod.fst)

/-- The open key_downs and the waiting shortcuts are the keys that are pressed; a shortcut that was passed is
not. -/
structure Inv (s : State) (k : Ledger) : Prop where
  last : ∀ m ∈ k.last, m < s.events
  released : k.released ≤ s.events
  distinct : Distinct s.pressed
  opened : ∀ o ∈ k.opened, s.pressed.lookup o.physicalKey = some o.identity
  pastes : ∀ paste ∈ s.pastes, paste.event < s.events ∧
    (s.pressed.lookup paste.physicalKey = some paste.identity ∨ (∃ m ∈ k.last, paste.event < m) ∨
      paste.event < k.released)

variable {s t : State} {k : Ledger} {e : KeyEvent} {fs : List Sent}

theorem orderLaw_single (x : Sent) : orderLaw.AcceptsFrom k [x] ↔ InOrder k x := by
  simp [Monitor.AcceptsFrom, orderLaw]

theorem keyLaw_single (x : Sent) : keyLaw.AcceptsFrom k [x] ↔ InOrder k x ∧ SameIdentity k x := by
  simp [Monitor.AcceptsFrom, keyLaw]

/-! ### Key events -/

theorem message_ok (h : Inv s k) (e : KeyEvent) :
    InOrder k (s.message e) ∧ SameIdentity k (s.message e) ∧ Inv (s.pressing e) (k.next (s.message e)) := by
  obtain ⟨hlast, hreleased, hdistinct, hopened, hpastes⟩ := h
  have hdistinct' := distinct_afterMessage hdistinct e
  by_cases hdown : e.isDown = true
  · have hmessage : s.message e = .down s.events e.physicalKey (messageIdentity s.pressed e) := if_pos hdown
    rw [hmessage]
    refine ⟨⟨hlast, hreleased⟩, trivial, ?_, Nat.le_succ_of_le hreleased, hdistinct', ?_, ?_⟩
    · rintro m hm
      cases hm
      exact Nat.lt_succ_self _
    · intro o ho
      rcases List.mem_cons.mp ho with rfl | ho
      · exact lookup_afterMessage_down hdown
      · exact lookup_afterMessage (hopened o ho) (.inl hdown)
    · intro paste hpaste
      obtain ⟨hbefore, -⟩ := hpastes paste hpaste
      exact ⟨Nat.lt_succ_of_lt hbefore, .inr (.inl ⟨s.events, rfl, hbefore⟩)⟩
  · have hmessage : s.message e = .up s.events e.physicalKey (messageIdentity s.pressed e) := if_neg hdown
    rw [hmessage]
    refine ⟨hlast, ?_, ?_, Nat.le_succ_of_le hreleased, hdistinct', ?_, ?_⟩
    · intro o ho hkey
      have hlookup := hopened o ho
      rw [hkey] at hlookup
      rw [messageIdentity, hlookup]
      rfl
    · rintro m hm
      cases hm
      exact Nat.lt_succ_self _
    · intro o ho
      obtain ⟨ho, hne⟩ := List.mem_filter.mp ho
      exact lookup_afterMessage (hopened o ho) (.inr (by simpa using hne))
    · intro paste hpaste
      obtain ⟨hbefore, -⟩ := hpastes paste hpaste
      exact ⟨Nat.lt_succ_of_lt hbefore, .inr (.inl ⟨s.events, rfl, hbefore⟩)⟩

theorem onKeyEvent_ok (h : Inv s k) (hstep : onKeyEvent s e = (t, fs)) :
    orderLaw.AcceptsFrom k fs ∧ keyLaw.AcceptsFrom k fs ∧ Inv t (fs.foldl Ledger.next k) := by
  unfold onKeyEvent at hstep
  split_ifs at hstep with hcontrol hwaits
  · cases hstep
    obtain ⟨hlast, hreleased, hdistinct, hopened, hpastes⟩ := h
    have hdown : e.isDown = true := by
      simp only [State.waits, Bool.and_eq_true] at hwaits
      exact hwaits.1.2
    refine ⟨trivial, trivial, fun m hm => Nat.lt_succ_of_lt (hlast m hm), Nat.le_succ_of_le hreleased,
      distinct_afterMessage hdistinct e, fun o ho => lookup_afterMessage (hopened o ho) (.inl hdown), ?_⟩
    intro paste hpaste
    rcases List.mem_append.mp hpaste with hpaste | hpaste
    · obtain ⟨hbefore, hpressed | hpassed⟩ := hpastes paste hpaste
      · exact ⟨Nat.lt_succ_of_lt hbefore, .inl (lookup_afterMessage hpressed (.inl hdown))⟩
      · exact ⟨Nat.lt_succ_of_lt hbefore, .inr hpassed⟩
    · rw [List.mem_singleton.mp hpaste]
      exact ⟨Nat.lt_succ_self _, .inl (lookup_afterMessage_down hdown)⟩
  · cases hstep
    obtain ⟨horder, hidentity, hinv⟩ := message_ok h e
    exact ⟨(orderLaw_single _).mpr horder, (keyLaw_single _).mpr ⟨horder, hidentity⟩, hinv⟩
  · cases hstep
    exact ⟨trivial, trivial, h⟩

/-! ### Releases -/

theorem foldl_names (k : Ledger) : (names.map Sent.nameUp).foldl Ledger.next k = k := by
  induction names with
  | nil => rfl
  | cons _ _ ih => exact ih

theorem foldl_releaseUps (k : Ledger) : (pressed.map
    fun entry => Sent.releaseUp entry.1 entry.2).foldl Ledger.next k =
      { k with opened := k.opened.filter fun o => o.physicalKey ∉ pressed.map Prod.fst } := by
  induction pressed generalizing k with
  | nil => simp
  | cons entry pressed ih =>
    rw [List.map_cons, List.foldl_cons, ih]
    simp only [Ledger.next, Ledger.close, List.filter_filter, List.map_cons, List.mem_cons, not_or]
    congr 1
    refine List.filter_congr fun o _ => ?_
    simp [Bool.and_comm, bne, beq_eq_decide]

theorem orderLaw_names (k : Ledger) : orderLaw.AcceptsFrom k (names.map Sent.nameUp) := by
  induction names with
  | nil => trivial
  | cons _ _ ih => exact ⟨trivial, ih⟩

theorem orderLaw_releaseUps (k : Ledger) :
    orderLaw.AcceptsFrom k (pressed.map fun entry => .releaseUp entry.1 entry.2) := by
  induction pressed generalizing k with
  | nil => trivial
  | cons _ _ ih => exact ⟨trivial, ih _⟩

theorem keyLaw_names (k : Ledger) : keyLaw.AcceptsFrom k (names.map Sent.nameUp) ↔
      ∀ name ∈ names, ∀ o ∈ k.opened, o.identity.key = name → o.identity = ⟨name, none, none⟩ := by
  induction names with
  | nil => simp [Monitor.AcceptsFrom]
  | cons name names ih =>
    have hfirst : keyLaw.AcceptsFrom k ((name :: names).map Sent.nameUp) ↔
        (True ∧ ∀ o ∈ k.opened, o.identity.key = name → o.identity = ⟨name, none, none⟩) ∧
          keyLaw.AcceptsFrom k (names.map .nameUp) := Iff.rfl
    rw [hfirst, ih, true_and, List.forall_mem_cons]

theorem keyLaw_releaseUps (k : Ledger)
    (h : ∀ entry ∈ pressed, ∀ o ∈ k.opened, o.physicalKey = entry.1 → o.identity = entry.2) :
    keyLaw.AcceptsFrom k (pressed.map fun entry => .releaseUp entry.1 entry.2) := by
  induction pressed generalizing k with
  | nil => trivial
  | cons entry _ ih =>
    refine ⟨⟨trivial, h entry List.mem_cons_self⟩, ih _ fun entry' hentry o ho => ?_⟩
    exact h entry' (List.mem_cons_of_mem _ hentry) o (List.mem_of_mem_filter ho)

theorem release_ok (h : Inv s k) (hstep : releaseAllPressedInputs s = (t, fs)) : orderLaw.AcceptsFrom k fs ∧
      (keyLaw.AcceptsFrom k fs ↔
        ∀ o ∈ k.opened, o.identity.key ∈ s.pressedKeys → o.identity = ⟨o.identity.key, none, none⟩) ∧
      Inv t (fs.foldl Ledger.next k) := by
  cases hstep
  obtain ⟨hlast, hreleased, hdistinct, hopened, hpastes⟩ := h
  -- every open key_down is of a pressed key, so the key_ups close them all
  have hclosed : k.opened.filter (fun o => o.physicalKey ∉ s.pressed.map Prod.fst) = [] := by
    rw [List.filter_eq_nil_iff]
    intro o ho
    have hmem : o.physicalKey ∈ s.pressed.map Prod.fst :=
      List.mem_map.mpr ⟨_, mem_of_lookup (hopened o ho), rfl⟩
    simpa using hmem
  have hsame : ∀ entry ∈ s.pressed, ∀ o ∈ k.opened, o.physicalKey = entry.1 → o.identity = entry.2 := by
    intro entry hentry o ho hkey
    have hlookup := lookup_of_mem hdistinct hentry
    rw [← hkey, hopened o ho] at hlookup
    exact Option.some.inj hlookup
  have hfold : ∀ k' : Ledger, (s.pressedKeys.map Sent.nameUp ++
      s.pressed.map fun entry => Sent.releaseUp entry.1 entry.2).foldl Ledger.next k' =
        { k' with opened := k'.opened.filter fun o => o.physicalKey ∉ s.pressed.map Prod.fst } := by
    intro k'
    rw [List.foldl_append, foldl_names, foldl_releaseUps]
  refine ⟨?_, ?_, ?_⟩
  · rw [orderLaw.acceptsFrom_append, orderLaw.acceptsFrom_append]
    refine ⟨⟨orderLaw_names _ _, orderLaw_releaseUps _ _⟩, (orderLaw_single _).mpr ?_⟩
    change ((s.pressedKeys.map Sent.nameUp ++ _).foldl Ledger.next k).opened = []
    rw [hfold]
    exact hclosed
  · rw [keyLaw.acceptsFrom_append, keyLaw.acceptsFrom_append, keyLaw_names]
    have hups : keyLaw.AcceptsFrom ((s.pressedKeys.map Sent.nameUp).foldl Ledger.next k)
        (s.pressed.map fun entry => .releaseUp entry.1 entry.2) := by
      rw [foldl_names]
      exact keyLaw_releaseUps _ _ hsame
    have hend : keyLaw.AcceptsFrom ((s.pressedKeys.map Sent.nameUp ++
        s.pressed.map fun entry => Sent.releaseUp entry.1 entry.2).foldl Ledger.next k) [.released s.events] := by
      rw [keyLaw_single, hfold]
      exact ⟨hclosed, trivial⟩
    constructor
    · rintro ⟨⟨hnames, -⟩, -⟩ o ho hkey
      exact hnames _ hkey o ho rfl
    · intro hnamed
      refine ⟨⟨fun name hname o ho hkey => ?_, hups⟩, hend⟩
      subst hkey
      exact hnamed o ho hname
  · rw [List.foldl_append, hfold]
    refine ⟨hlast, Nat.le_refl _, List.nodup_nil, ?_, ?_⟩
    · intro o ho
      have hnil : o ∈ ([] : List Opened) := hclosed ▸ ho
      cases hnil
    · intro paste hpaste
      exact ⟨(hpastes paste hpaste).1, .inr (.inr (hpastes paste hpaste).1)⟩

/-! ### Answers -/

/-- The waiting shortcut was not passed, by a key or by a release. -/
def Ledger.Awaits (k : Ledger) (event : ℕ) : Prop := (∀ m ∈ k.last, m < event) ∧ k.released ≤ event

theorem answer_ok {i : ℕ} {paste : Paste} {text : Option Text} {sensitive : Bool} (h : Inv s k)
    (hpaste : s.pastes[i]? = some paste)
    (hstep : pasteAnswered { s with pastes := s.pastes.eraseIdx i } paste text sensitive = (t, fs)) :
    (orderLaw.AcceptsFrom k fs ↔ k.Awaits paste.event) ∧ (keyLaw.AcceptsFrom k fs ↔ k.Awaits paste.event) ∧
      (k.Awaits paste.event → Inv t (fs.foldl Ledger.next k)) := by
  obtain ⟨hlast, hreleased, hdistinct, hopened, hpastes⟩ := h
  obtain ⟨hbefore, hstate⟩ := hpastes paste (List.mem_of_getElem? hpaste)
  have hinv : ∀ known : Option Text, k.Awaits paste.event →
      Inv { s with pastes := s.pastes.eraseIdx i, lastSentLocalClipboardText := known }
        (k.next (.down paste.event paste.physicalKey paste.identity)) := by
    rintro known ⟨hnotLater, hnotReleased⟩
    have hpressed : s.pressed.lookup paste.physicalKey = some paste.identity := by
      rcases hstate with hpressed | ⟨m, hm, hlater⟩ | hrelease
      · exact hpressed
      · exact absurd hlater (Nat.lt_asymm (hnotLater m hm))
      · exact absurd hrelease (Nat.not_lt.mpr hnotReleased)
    refine ⟨?_, hreleased, hdistinct, ?_, ?_⟩
    · rintro m hm
      cases hm
      exact hbefore
    · intro o ho
      rcases List.mem_cons.mp ho with rfl | ho
      · exact hpressed
      · exact hopened o ho
    · intro paste' hpaste'
      obtain ⟨hbefore', hstate'⟩ := hpastes paste' (List.mem_of_mem_eraseIdx hpaste')
      refine ⟨hbefore', ?_⟩
      rcases hstate' with hpressed' | ⟨m, hm, hlater⟩ | hrelease
      · exact .inl hpressed'
      · exact .inr (.inl ⟨paste.event, rfl, Nat.lt_trans hlater (hnotLater m hm)⟩)
      · exact .inr (.inr hrelease)
  have hlaws : (∃ known, t = { s with pastes := s.pastes.eraseIdx i, lastSentLocalClipboardText := known }) ∧
      (fs = [.down paste.event paste.physicalKey paste.identity] ∨
        ∃ text, fs = [.clipboardSet text, .down paste.event paste.physicalKey paste.identity]) := by
    unfold pasteAnswered at hstep
    split at hstep
    · cases hstep
      exact ⟨⟨_, rfl⟩, .inl rfl⟩
    · split_ifs at hstep with hnew
      · cases hstep
        exact ⟨⟨_, rfl⟩, .inr ⟨_, rfl⟩⟩
      · cases hstep
        exact ⟨⟨_, rfl⟩, .inl rfl⟩
  obtain ⟨⟨known, rfl⟩, hfs⟩ := hlaws
  -- a clipboard text before the key_down is no key message
  have hdown : (orderLaw.AcceptsFrom k fs ↔ k.Awaits paste.event) ∧
    (keyLaw.AcceptsFrom k fs ↔ k.Awaits paste.event) ∧
      fs.foldl .next k = k.next (.down paste.event paste.physicalKey paste.identity) := by
    rcases hfs with rfl | ⟨text, rfl⟩
    · refine ⟨orderLaw_single _, ?_, rfl⟩
      rw [keyLaw_single]
      exact and_iff_left trivial
    · refine ⟨?_, ?_, rfl⟩
      · simp [Monitor.AcceptsFrom, orderLaw, InOrder, Ledger.next, Ledger.Awaits]
      · simp [Monitor.AcceptsFrom, keyLaw, InOrder, SameIdentity, Ledger.next, Ledger.Awaits]
  obtain ⟨horder, hkey, hfold⟩ := hdown
  rw [hfold]
  exact ⟨horder, hkey, hinv known⟩

/-- What one step does to the laws: order and balance hold of its messages exactly when it is timely, and
identity besides exactly when no more than names are released. -/
theorem step_ok {a : Action} {es : List Sent} (h : Inv s (keyLaw.after es))
    (hstep : keyboard.step s a = some (t, fs)) : (orderLaw.AcceptsFrom (keyLaw.after es) fs ↔ Timely s es a) ∧
      (keyLaw.AcceptsFrom (keyLaw.after es) fs ↔ Timely s es a ∧ NamedOnly s es a) ∧
      (Timely s es a → Inv t (fs.foldl Ledger.next (keyLaw.after es))) := by
  have hrelease : ∀ {t fs}, releaseAllPressedInputs s = (t, fs) → a.releases s = true → Timely s es a →
      (orderLaw.AcceptsFrom (keyLaw.after es) fs ↔ Timely s es a) ∧
        (keyLaw.AcceptsFrom (keyLaw.after es) fs ↔ Timely s es a ∧ NamedOnly s es a) ∧
        Inv t (fs.foldl .next (keyLaw.after es)) := by
    intro t fs hrun hreleases htimely
    obtain ⟨horder, hnames, hinv⟩ := release_ok h hrun
    refine ⟨iff_of_true horder htimely, ?_, hinv⟩
    rw [hnames, NamedOnly]
    exact ⟨fun hnamed => ⟨htimely, fun _ => hnamed⟩, fun hgood => hgood.2 hreleases⟩
  have hquiet : ∀ {fs : List Sent}, a.releases s = false → Timely s es a →
      orderLaw.AcceptsFrom (keyLaw.after es) fs → keyLaw.AcceptsFrom (keyLaw.after es) fs →
      (orderLaw.AcceptsFrom (keyLaw.after es) fs ↔ Timely s es a) ∧
        (keyLaw.AcceptsFrom (keyLaw.after es) fs ↔ Timely s es a ∧ NamedOnly s es a) := by
    intro fs hno htimely horder hkey
    have hnamed : NamedOnly s es a := fun hyes => absurd (hno.symm.trans hyes) Bool.false_ne_true
    exact ⟨iff_of_true horder htimely, iff_of_true hkey ⟨htimely, hnamed⟩⟩
  cases a with
  | key =>
    obtain ⟨horder, hkey, hinv⟩ := onKeyEvent_ok h (Option.some.inj hstep)
    obtain ⟨h₁, h₂⟩ := hquiet rfl trivial horder hkey
    exact ⟨h₁, h₂, fun _ => hinv⟩
  | focusLost =>
    obtain ⟨h₁, h₂, hinv⟩ := hrelease (Option.some.inj hstep) rfl trivial
    exact ⟨h₁, h₂, fun _ => hinv⟩
  | toggleControl =>
    simp only [keyboard] at hstep
    split_ifs at hstep with hview hcontrol
    · cases hstep
      obtain ⟨h₁, h₂, hinv⟩ := hrelease rfl (by simp [Action.releases, hview, hcontrol]) trivial
      exact ⟨h₁, h₂, fun _ => ⟨hinv.last, hinv.released, hinv.distinct, hinv.opened, hinv.pastes⟩⟩
    · cases hstep
      have hno : (Action.toggleControl).releases s = false := by simp [Action.releases, hcontrol]
      obtain ⟨h₁, h₂⟩ := @hquiet [] hno trivial trivial trivial
      exact ⟨h₁, h₂, fun _ => ⟨h.last, h.released, h.distinct, h.opened, h.pastes⟩⟩
  | toggleAutoSync =>
    cases hstep
    obtain ⟨h₁, h₂⟩ := @hquiet [] rfl trivial trivial trivial
    exact ⟨h₁, h₂, fun _ => ⟨h.last, h.released, h.distinct, h.opened, h.pastes⟩⟩
  | answer i text sensitive =>
    simp only [keyboard] at hstep
    cases hpaste : s.pastes[i]? with
    | none => simp [hpaste] at hstep
    | some paste =>
      rw [hpaste] at hstep
      obtain ⟨horder, hkey, hinv⟩ := answer_ok h hpaste (Option.some.inj hstep)
      have htimely : Timely s es (.answer i text sensitive) ↔ (keyLaw.after es).Awaits paste.event := by
        change (∀ paste', s.pastes[i]? = some paste' → (keyLaw.after es).Awaits paste'.event) ↔ _
        rw [hpaste]
        exact ⟨fun h => h paste rfl, fun h paste' heq => Option.some.inj heq ▸ h⟩
      have hnamed : NamedOnly s es (.answer i text sensitive) := nofun
      rw [htimely]
      exact ⟨horder, hkey.trans (and_iff_left hnamed).symm, hinv⟩

theorem inv_start : Inv (.start viewOnly) keyLaw.start :=
  ⟨nofun, Nat.le_refl 0, List.nodup_nil, nofun, nofun⟩

/-- Timely, and nothing but names to release. -/
def Proper (s : State) (es : List Sent) (a : Action) : Prop := Timely s es a ∧ NamedOnly s es a

/-- In every run the key messages are in order and balanced exactly when every clipboard read of a paste
shortcut is answered in time, and have the same identities besides exactly when no key is released in the lump
that has more than a name. -/
theorem keyMessages_iff {as : List Action} {es : List Sent}
    (h : keyboard.Path (.start viewOnly) as t es) :
    (orderLaw.Accepts es ↔ keyboard.Every Timely (.start viewOnly) [] as) ∧
      (keyLaw.Accepts es ↔ keyboard.Every Proper (.start viewOnly) [] as) := by
  constructor
  · refine h.accepts_iff_every orderLaw Inv ?_ [] (inv_start viewOnly)
    intro s es a t fs hinv hstep
    obtain ⟨horder, -, hkeep⟩ := step_ok hinv hstep
    exact ⟨horder, hkeep⟩
  · refine h.accepts_iff_every keyLaw Inv ?_ [] (inv_start viewOnly)
    intro s es a t fs hinv hstep
    obtain ⟨-, hkey, hkeep⟩ := step_ok hinv hstep
    exact ⟨hkey, fun hproper => hkeep hproper.1⟩

/-- The control key and the key V with it. -/
def ctrlKey (kind : Kind) : KeyEvent := ⟨kind, 0x700E0, none, 0x200000100, "Control Left", none, none, true⟩

def pasteKey (kind : Kind) : KeyEvent := ⟨kind, 0x70019, none, keyV, "V", none, none, true⟩

/-- A paste whose clipboard read is answered before the keys go up. -/
def pasteInTime : List Action :=
  [.key (ctrlKey .down), .key (pasteKey .down), .answer 0 (some [0x61]) false, .key (pasteKey .up),
    .key (ctrlKey .up)]

theorem pasteInTime_ordered : ∃ t es, keyboard.Path (.start false) pasteInTime t es ∧ orderLaw.Accepts es ∧
    keyboard.Every Proper (.start false) [] pasteInTime := by
  have hcheck : (keyboard.exec (fun _ _ _ => true) (.start false) [] pasteInTime).any
      (fun r => decide (keyLaw.Accepts r.2 ∧ orderLaw.Accepts r.2)) = true := by decide
  obtain ⟨t, es, hpath, haccepts⟩ := Machine.path_of_check hcheck
  obtain ⟨hkey, horder⟩ := of_decide_eq_true haccepts
  exact ⟨t, es, hpath, horder, (keyMessages_iff false hpath).2.mp hkey⟩

/-- A paste whose clipboard read is answered after the focus was lost. -/
def pasteTooLate : List Action :=
  [.key (ctrlKey .down), .key (pasteKey .down), .focusLost, .answer 0 none false]

/-- The key_down of V is sent after the key_ups of the release, and stays without one. -/
theorem pasteTooLate_pressed : ∃ t es, keyboard.Path (.start false) pasteTooLate t es ∧ ¬orderLaw.Accepts es ∧
    (keyLaw.after es).opened = [⟨0x70019, ⟨"V", some 0x56, none⟩⟩] := by
  have hcheck : (keyboard.exec (fun _ _ _ => true) (.start false) [] pasteTooLate).any
      (fun r => decide (¬orderLaw.Accepts r.2 ∧
        (keyLaw.after r.2).opened = [⟨0x70019, ⟨"V", some 0x56, none⟩⟩])) = true := by decide
  obtain ⟨t, es, hpath, hlate⟩ := Machine.path_of_check hcheck
  exact ⟨t, es, hpath, of_decide_eq_true hlate⟩

end LigamentApps.SupportOperator.Keyboard
