import Mathlib.Data.List.Count
import LigamentApps.Machine.Trace

/-!
# The clipboards of operator and host

The two clipboard watchers, of `support_operator_screen.dart` and of `link_host_session.dart`, while the data
channel is open and both sides may share their clipboards. A watcher's poll sends the clipboard's text unless
one of the remembered texts is the same: the operator remembers the last text it sent and the last one it
received, the host only the last one that went either way.

A round is one change of a clipboard and what follows before the next: polls and deliveries in any order,
until both watchers have polled and nothing is in flight. In every run the clipboards converge round by round
exactly when no change goes back to the text that the operator received last (`converges_iff`). -/

namespace LigamentApps.SupportOperator.Clipboard

open List Option

/-- The UTF-16 units of a text. -/
abbrev Text := List UInt16

inductive Side
  | operator
  | host
  deriving DecidableEq

/-- What is on a clipboard: a text, and whether its owner marked it as not to be shared. -/
structure Clip where
  text : Text
  sensitive : Bool

/-- `LinkSessionPolicy.maxClipboardLength`. -/
def maxClipboardLength : ℕ := 65536

structure State where
  operatorClip : Option Clip
  hostClip : Option Clip
  lastSentLocalClipboardText : Option Text
  lastRemoteClipboardText : Option Text
  lastSentHostClipboardText : Option Text
  /-- The texts of the `clipboard_set` messages on their way. -/
  toHost : List Text
  /-- The texts of the `clipboard_data` messages on their way. -/
  toOperator : List Text

/-- Nothing was copied yet. -/
def State.start : State := ⟨none, none, none, none, none, [], []⟩

/-- `_syncLocalClipboardNow`, and whether it sends a message. -/
def syncLocalClipboardNow (s : State) : State × List Side :=
  match s.operatorClip with
  | none => (s, [])
  | some clip =>
    if clip.sensitive then (s, [])
    else if clip.text ≠ [] ∧ s.lastRemoteClipboardText ≠ some clip.text ∧
        s.lastSentLocalClipboardText ≠ some clip.text then
      ({ s with lastSentLocalClipboardText := some clip.text, toHost := s.toHost ++ [clip.text] }, [.host])
    else (s, [])

/-- A tick of `_startHostClipboardWatcher`. -/
def hostWatcherTick (s : State) : State × List Side :=
  match s.hostClip with
  | none => (s, [])
  | some clip =>
    if clip.sensitive then (s, [])
    else if clip.text ≠ [] ∧ clip.text.length ≤ maxClipboardLength ∧
        s.lastSentHostClipboardText ≠ some clip.text then
      ({ s with lastSentHostClipboardText := some clip.text, toOperator := s.toOperator ++ [clip.text] },
        [.operator])
    else (s, [])

/-- `clipboard_set` on the host: a text that is too long is refused. -/
def handleClipboardSet (s : State) (text : Text) : State :=
  if text.length ≤ maxClipboardLength then
    { s with lastSentHostClipboardText := some text, hostClip := some ⟨text, false⟩ }
  else s

def handleIncomingRemoteClipboard (s : State) (text : Text) : State :=
  if text = [] then s
  else if s.lastSentLocalClipboardText = some text ∨ s.lastRemoteClipboardText = some text then s
  else
    { s with
      lastRemoteClipboardText := some text
      lastSentLocalClipboardText := some text
      operatorClip := some ⟨text, false⟩ }

/-- What happens between two changes. -/
inductive Event
  | poll (side : Side)
  /-- The next message to this side arrives. -/
  | deliver (side : Side)
  deriving DecidableEq

def Event.run (s : State) : Event → State × List Side
  | .poll .operator => syncLocalClipboardNow s
  | .poll .host => hostWatcherTick s
  | .deliver .host =>
    match s.toHost with
    | [] => (s, [])
    | text :: rest => (handleClipboardSet { s with toHost := rest } text, [])
  | .deliver .operator =>
    match s.toOperator with
    | [] => (s, [])
    | text :: rest => (handleIncomingRemoteClipboard { s with toOperator := rest } text, [])

/-- The state after some events, with the sides that messages were sent to. -/
def runEvents : State → List Event → State × List Side
  | s, [] => (s, [])
  | s, e :: es => ((runEvents (e.run s).1 es).1, (e.run s).2 ++ (runEvents (e.run s).1 es).2)

/-- One change and what follows it. -/
structure Round where
  side : Side
  clip : Clip
  events : List Event

/-- Something else is copied. -/
def Round.change (r : Round) (s : State) : State :=
  match r.side with
  | .operator => { s with operatorClip := some r.clip }
  | .host => { s with hostClip := some r.clip }

/-- A round is over when both watchers have polled and all messages have arrived. -/
def Round.Over (r : Round) (t : State) : Prop :=
  Event.poll .operator ∈ r.events ∧ Event.poll .host ∈ r.events ∧ t.toHost = [] ∧ t.toOperator = []

instance (r : Round) (t : State) : Decidable (r.Over t) :=
  inferInstanceAs (Decidable (_ ∧ _ ∧ _ ∧ _))

/-- The clipboards, round by round. An event is a message, by the side it goes to. -/
def sync : Machine State Round Side where
  step s r :=
    if r.Over (runEvents (r.change s) r.events).1 then some (runEvents (r.change s) r.events) else none

/-! ## What is asked of a round -/

/-- Both clipboards hold the text. -/
def State.Holds (s : State) (text : Text) : Prop :=
  s.operatorClip.map Clip.text = some text ∧ s.hostClip.map Clip.text = some text

/-- The round ends with its text on both clipboards, after one message at most in each direction. -/
def Converges (s : State) (_ : List Side) (r : Round) : Prop :=
  ∀ t sent, sync.step s r = some (t, sent) → t.Holds r.clip.text ∧ ∀ side, sent.count side ≤ 1

/-- A text that the watchers carry. -/
def Clip.Carried (clip : Clip) : Prop :=
  clip.text ≠ [] ∧ clip.text.length ≤ maxClipboardLength ∧ clip.sensitive = false

/-- Both clipboards hold the text before the change, or it is one that the watchers carry and not the one that
the operator received last. -/
def Fresh (s : State) (_ : List Side) (r : Round) : Prop :=
  (sync.step s r).isSome → s.Holds r.clip.text ∨ r.clip.Carried ∧ s.lastRemoteClipboardText ≠ some r.clip.text

/-! ## The rounds -/

/-- Between two rounds: both clipboards and the memories of what went either way agree. -/
structure State.Quiet (s : State) (common : Option Text) : Prop where
  operator : s.operatorClip.map Clip.text = common
  host : s.hostClip.map Clip.text = common
  sentLocal : s.lastSentLocalClipboardText = common
  sentHost : s.lastSentHostClipboardText = common
  toHost : s.toHost = []
  toOperator : s.toOperator = []

variable {s t : State} {common : Option Text} {r : Round} {clip : Clip} {es : List Event} {sent : List Side}

theorem State.Quiet.holds_iff (h : s.Quiet common) (text : Text) : s.Holds text ↔ common = some text := by
  rw [State.Holds, h.operator, h.host, and_self]

theorem syncLocalClipboardNow_same (h : s.operatorClip.map Clip.text = s.lastSentLocalClipboardText) :
    syncLocalClipboardNow s = (s, []) := by
  unfold syncLocalClipboardNow
  cases hclip : s.operatorClip with
  | none => rfl
  | some =>
    rw [hclip, map_some] at h
    simp [← h]

theorem syncLocalClipboardNow_new (hclip : s.operatorClip = some clip) (hopen : clip.sensitive = false)
    (hne : clip.text ≠ []) (hremote : s.lastRemoteClipboardText ≠ some clip.text)
    (hsent : s.lastSentLocalClipboardText ≠ some clip.text) :
    syncLocalClipboardNow s =
      ({ s with lastSentLocalClipboardText := some clip.text, toHost := s.toHost ++ [clip.text] }, [.host]) := by
  simp only [syncLocalClipboardNow, hclip, hopen]
  rw [if_neg (by simp), if_pos ⟨hne, hremote, hsent⟩]

theorem hostWatcherTick_new (hclip : s.hostClip = some clip) (hopen : clip.sensitive = false) (hne : clip.text ≠ [])
    (hlen : clip.text.length ≤ maxClipboardLength) (hsent : s.lastSentHostClipboardText ≠ some clip.text) :
    hostWatcherTick s =
      ({ s with lastSentHostClipboardText := some clip.text, toOperator := s.toOperator ++ [clip.text] },
        [.operator]) := by
  simp only [hostWatcherTick, hclip, hopen]
  rw [if_neg (by simp), if_pos ⟨hne, hlen, hsent⟩]

theorem hostWatcherTick_same (h : s.hostClip.map Clip.text = s.lastSentHostClipboardText) :
    hostWatcherTick s = (s, []) := by
  unfold hostWatcherTick
  cases hclip : s.hostClip with
  | none => rfl
  | some =>
    rw [hclip, map_some] at h
    simp [← h]

theorem runEvents_invariant (Inv : State → List Side → Prop)
    (hstep : ∀ s sent (e : Event), Inv s sent → Inv (e.run s).1 (sent ++ (e.run s).2)) :
    ∀ (es : List Event) {s : State} (sent : List Side), Inv s sent →
      Inv (runEvents s es).1 (sent ++ (runEvents s es).2)
  | [], _, _, h => by simpa [runEvents] using h
  | e :: es, s, sent, h => by
    have hrest := runEvents_invariant Inv hstep es _ (hstep s sent e h)
    simpa [runEvents, append_assoc] using hrest

theorem runEvents_after {e : Event} (Inv Done : State → List Side → Prop)
    (hstep : ∀ s sent (e' : Event), Inv s sent → Inv (e'.run s).1 (sent ++ (e'.run s).2))
    (hdone : ∀ s sent (e' : Event), Done s sent → Done (e'.run s).1 (sent ++ (e'.run s).2))
    (hpoll : ∀ s sent, Inv s sent → Done (e.run s).1 (sent ++ (e.run s).2)) (hinv : Inv s sent) (he : e ∈ es) :
    Done (runEvents s es).1 (sent ++ (runEvents s es).2) := by
  induction es generalizing s sent with
  | nil => cases he
  | cons e' es ih =>
    rcases mem_cons.mp he with rfl | he
    · have hrest := runEvents_invariant Done hdone es _ (hpoll s sent hinv)
      simpa [runEvents, append_assoc] using hrest
    · have hrest := ih (hstep s sent e' hinv) he
      simpa [runEvents, append_assoc] using hrest

/-! ### Nothing new -/

theorem State.Quiet.run (h : s.Quiet common) (e : Event) : e.run s = (s, []) := by
  match e with
  | .poll .operator => exact syncLocalClipboardNow_same (h.operator.trans h.sentLocal.symm)
  | .poll .host => exact hostWatcherTick_same (h.host.trans h.sentHost.symm)
  | .deliver .host => simp [Event.run, h.toHost]
  | .deliver .operator => simp [Event.run, h.toOperator]

theorem State.Quiet.runEvents (h : s.Quiet common) : ∀ es, runEvents s es = (s, [])
  | [] => rfl
  | e :: es => by
    rw [Clipboard.runEvents, h.run e]
    simp [State.Quiet.runEvents h es]

theorem State.Quiet.change (h : s.Quiet (some r.clip.text)) : (r.change s).Quiet (some r.clip.text) := by
  obtain ⟨ho, hh, hl, hs, hth, hto⟩ := h
  unfold Round.change
  cases r.side with
  | operator => exact ⟨rfl, hh, hl, hs, hth, hto⟩
  | host => exact ⟨ho, rfl, hl, hs, hth, hto⟩

/-! ### A text of the operator -/

/-- A carried text on its way to the host: copied, sent, arrived. -/
inductive OutPhase (clip : Clip) (common received : Option Text) : State → List Side → Prop
  | copied {host : Option Clip} (hhost : host.map Clip.text = common) :
    OutPhase clip common received ⟨some clip, host, common, received, common, [], []⟩ []
  | sent {host : Option Clip} (hhost : host.map Clip.text = common) :
    OutPhase clip common received ⟨some clip, host, some clip.text, received, common, [clip.text], []⟩ [.host]
  | arrived :
    OutPhase clip common received
      ⟨some clip, some ⟨clip.text, false⟩, some clip.text, received, some clip.text, [], []⟩ [.host]

theorem OutPhase.poll {received : Option Text} (hcarried : clip.Carried) (hnew : common ≠ some clip.text)
    (hfresh : received ≠ some clip.text) (h : OutPhase clip common received s sent) :
    OutPhase clip common received (syncLocalClipboardNow s).1 (sent ++ (syncLocalClipboardNow s).2) ∧
      sent ++ (syncLocalClipboardNow s).2 ≠ [] := by
  obtain ⟨hne, -, hopen⟩ := hcarried
  cases h with
  | copied hhost =>
    rw [syncLocalClipboardNow_new rfl hopen hne hfresh hnew]
    exact ⟨.sent hhost, by simp⟩
  | sent hhost =>
    rw [syncLocalClipboardNow_same rfl]
    exact ⟨.sent hhost, by simp⟩
  | arrived =>
    rw [syncLocalClipboardNow_same rfl]
    exact ⟨.arrived, by simp⟩

theorem OutPhase.step {received : Option Text} (hcarried : clip.Carried) (hnew : common ≠ some clip.text)
    (hfresh : received ≠ some clip.text) (h : OutPhase clip common received s sent) (e : Event) :
    OutPhase clip common received (e.run s).1 (sent ++ (e.run s).2) := by
  match e with
  | .poll .operator => exact (h.poll hcarried hnew hfresh).1
  | .poll .host =>
    cases h with
    | copied hhost | sent hhost =>
      rw [Event.run, hostWatcherTick_same hhost]
      constructor
      exact hhost
    | arrived =>
      rw [Event.run, hostWatcherTick_same rfl]
      exact .arrived
  | .deliver .host =>
    cases h with
    | copied hhost => exact .copied hhost
    | sent =>
      simp only [Event.run, handleClipboardSet, if_pos hcarried.2.1]
      exact .arrived
    | arrived => exact .arrived
  | .deliver .operator =>
    cases h with
    | copied hhost => exact .copied hhost
    | sent hhost => exact .sent hhost
    | arrived => exact .arrived

/-! ### A text of the host -/

/-- A carried text on its way to the operator. -/
inductive InPhase (clip : Clip) (common received : Option Text) : State → List Side → Prop
  | copied {operator : Option Clip} (hoperator : operator.map Clip.text = common) :
    InPhase clip common received ⟨operator, some clip, common, received, common, [], []⟩ []
  | sent {operator : Option Clip} (hoperator : operator.map Clip.text = common) :
    InPhase clip common received ⟨operator, some clip, common, received, some clip.text, [],
      [clip.text]⟩ [.operator]
  | arrived :
    InPhase clip common received
      ⟨some ⟨clip.text, false⟩, some clip, some clip.text, some clip.text, some clip.text, [], []⟩ [.operator]

theorem InPhase.poll {received : Option Text} (hcarried : clip.Carried) (hnew : common ≠ some clip.text)
    (h : InPhase clip common received s sent) :
    InPhase clip common received (hostWatcherTick s).1 (sent ++ (hostWatcherTick s).2) ∧
      sent ++ (hostWatcherTick s).2 ≠ [] := by
  obtain ⟨hne, hlen, hopen⟩ := hcarried
  cases h with
  | copied hoperator =>
    rw [hostWatcherTick_new rfl hopen hne hlen hnew]
    exact ⟨.sent hoperator, by simp⟩
  | sent hoperator =>
    rw [hostWatcherTick_same rfl]
    exact ⟨.sent hoperator, by simp⟩
  | arrived =>
    rw [hostWatcherTick_same rfl]
    exact ⟨.arrived, by simp⟩

theorem InPhase.step {received : Option Text} (hcarried : clip.Carried) (hnew : common ≠ some clip.text)
    (hfresh : received ≠ some clip.text) (h : InPhase clip common received s sent) (e : Event) :
    InPhase clip common received (e.run s).1 (sent ++ (e.run s).2) := by
  match e with
  | .poll .host => exact (h.poll hcarried hnew).1
  | .poll .operator =>
    cases h with
    | copied hoperator | sent hoperator =>
      rw [Event.run, syncLocalClipboardNow_same hoperator]
      constructor
      exact hoperator
    | arrived =>
      rw [Event.run, syncLocalClipboardNow_same rfl]
      exact .arrived
  | .deliver .operator =>
    cases h with
    | copied hoperator => exact .copied hoperator
    | sent =>
      simp only [Event.run, handleIncomingRemoteClipboard, if_neg hcarried.1]
      rw [if_neg (by rintro (h | h); exacts [hnew h, hfresh h])]
      exact .arrived
    | arrived => exact .arrived
  | .deliver .host =>
    cases h with
    | copied hoperator => exact .copied hoperator
    | sent hoperator => exact .sent hoperator
    | arrived => exact .arrived

/-! ### A text that does not get through -/

/-- The operator's text is not sent, or refused: the host's clipboard stays as it is. -/
structure HeldBack (clip : Clip) (common received : Option Text) (s : State) : Prop where
  operator : s.operatorClip = some clip
  host : s.hostClip.map Clip.text = common
  sentHost : s.lastSentHostClipboardText = common
  remote : s.lastRemoteClipboardText = received
  toOperator : s.toOperator = []
  toHost : ∀ text ∈ s.toHost, ¬text.length ≤ maxClipboardLength

theorem HeldBack.step {received : Option Text} (hbad : ¬(clip.Carried ∧ received ≠ some clip.text))
    (h : HeldBack clip common received s) (e : Event) : HeldBack clip common received (e.run s).1 := by
  obtain ⟨ho, hh, hs, hr, hto, hth⟩ := h
  match e with
  | .poll .operator =>
    simp only [Event.run, syncLocalClipboardNow, ho]
    split_ifs with hopen hsend
    · exact ⟨ho, hh, hs, hr, hto, hth⟩
    · refine ⟨rfl, hh, hs, hr, hto, fun text htext => ?_⟩
      rcases mem_append.mp htext with htext | htext
      · exact hth text htext
      · rw [mem_singleton.mp htext]
        exact fun hlen => hbad ⟨⟨hsend.1, hlen, by simpa using hopen⟩, hr ▸ hsend.2.1⟩
    · exact ⟨ho, hh, hs, hr, hto, hth⟩
  | .poll .host =>
    rw [Event.run, hostWatcherTick_same (hh.trans hs.symm)]
    exact ⟨ho, hh, hs, hr, hto, hth⟩
  | .deliver .host =>
    cases hq : s.toHost with
    | nil =>
      simp only [Event.run, hq]
      exact ⟨ho, hh, hs, hr, hto, hth⟩
    | cons text =>
      have hlong := hth text (hq ▸ mem_cons_self)
      simp only [Event.run, hq, handleClipboardSet, if_neg hlong]
      exact ⟨ho, hh, hs, hr, hto, fun m hm => hth m (hq ▸ mem_cons_of_mem text hm)⟩
  | .deliver .operator =>
    simp only [Event.run, hto]
    exact ⟨ho, hh, hs, hr, hto, hth⟩

/-- The host's text is not sent, or ignored: the operator's clipboard stays as it is. -/
structure Ignored (clip : Clip) (common received : Option Text) (s : State) : Prop where
  host : s.hostClip = some clip
  operator : s.operatorClip.map Clip.text = common
  sentLocal : s.lastSentLocalClipboardText = common
  remote : s.lastRemoteClipboardText = received
  toHost : s.toHost = []
  toOperator : ∀ text ∈ s.toOperator, received = some text

theorem Ignored.step {received : Option Text} (hbad : ¬(clip.Carried ∧ received ≠ some clip.text))
    (h : Ignored clip common received s) (e : Event) : Ignored clip common received (e.run s).1 := by
  obtain ⟨hh, ho, hl, hr, hth, hto⟩ := h
  match e with
  | .poll .host =>
    simp only [Event.run, hostWatcherTick, hh]
    split_ifs with hopen hsend
    · exact ⟨hh, ho, hl, hr, hth, hto⟩
    · refine ⟨rfl, ho, hl, hr, hth, fun text htext => ?_⟩
      rcases mem_append.mp htext with htext | htext
      · exact hto text htext
      · rw [mem_singleton.mp htext]
        exact not_not.mp fun hne => hbad ⟨⟨hsend.1, hsend.2.1, by simpa using hopen⟩, hne⟩
    · exact ⟨hh, ho, hl, hr, hth, hto⟩
  | .poll .operator =>
    rw [Event.run, syncLocalClipboardNow_same (ho.trans hl.symm)]
    exact ⟨hh, ho, hl, hr, hth, hto⟩
  | .deliver .operator =>
    cases hq : s.toOperator with
    | nil =>
      simp only [Event.run, hq]
      exact ⟨hh, ho, hl, hr, hth, hto⟩
    | cons text rest =>
      have hsame := hto text (hq ▸ mem_cons_self)
      have hrest : ∀ m ∈ rest, received = some m := fun m hm => hto m (hq ▸ mem_cons_of_mem text hm)
      simp only [Event.run, hq, handleIncomingRemoteClipboard]
      split_ifs with hempty hknown
      · exact ⟨hh, ho, hl, hr, hth, hrest⟩
      · exact ⟨hh, ho, hl, hr, hth, hrest⟩
      · exact absurd (.inr (hr.trans hsame)) hknown
  | .deliver .host =>
    simp only [Event.run, hth]
    exact ⟨hh, ho, hl, hr, hth, hto⟩

theorem step_eq_some {sent : List Side} (h : sync.step s r = some (t, sent)) :
    r.Over t ∧ runEvents (r.change s) r.events = (t, sent) := by
  simp only [sync] at h
  split_ifs at h with hover
  have hrun := Option.some.inj h
  rw [hrun] at hover
  exact ⟨hover, hrun⟩

theorem round_fresh (hquiet : s.Quiet common) (hstep : sync.step s r = some (t, sent)) (hcarried : r.clip.Carried)
    (hfresh : s.lastRemoteClipboardText ≠ some r.clip.text) (hnew : common ≠ some r.clip.text) :
    t.Quiet (some r.clip.text) ∧ ∀ side, sent.count side ≤ 1 := by
  obtain ⟨⟨hpollOperator, hpollHost, hth, hto⟩, hrun⟩ := step_eq_some hstep
  obtain ⟨ho, hh, hl, hs, hth₀, hto₀⟩ := hquiet
  cases hside : r.side with
  | operator =>
    have hchange : r.change s = ⟨some r.clip, s.hostClip, common, s.lastRemoteClipboardText, common, [], []⟩ := by
      rw [Round.change, hside]
      simp only [← hl, hs, hth₀, hto₀]
    have hstart : OutPhase r.clip common s.lastRemoteClipboardText (r.change s) [] := by
      rw [hchange]
      exact .copied hh
    have hdone := runEvents_after _ (fun s sent => OutPhase r.clip common _ s sent ∧ sent ≠ [])
      (fun _ _ e h => h.step hcarried hnew hfresh e)
      (fun _ _ e h => ⟨h.1.step hcarried hnew hfresh e, by simp [h.2]⟩)
      (fun _ _ h => h.poll hcarried hnew hfresh) hstart hpollOperator
    rw [hrun, nil_append] at hdone
    obtain ⟨hphase, hsent⟩ := hdone
    cases hphase with
    | copied => exact absurd rfl hsent
    | sent => simp at hth
    | arrived => exact ⟨⟨rfl, rfl, rfl, rfl, rfl, rfl⟩, fun _ => count_le_length⟩
  | host =>
    have hchange : r.change s = ⟨s.operatorClip, some r.clip, common, s.lastRemoteClipboardText, common,
        [], []⟩ := by
      rw [Round.change, hside]
      simp only [← hl, hs, hth₀, hto₀]
    have hstart : InPhase r.clip common s.lastRemoteClipboardText (r.change s) [] := by
      rw [hchange]
      exact .copied ho
    have hdone := runEvents_after _ (fun s sent => InPhase r.clip common _ s sent ∧ sent ≠ [])
      (fun _ _ e h => h.step hcarried hnew hfresh e)
      (fun _ _ e h => ⟨h.1.step hcarried hnew hfresh e, by simp [h.2]⟩)
      (fun _ _ h => h.poll hcarried hnew) hstart hpollHost
    rw [hrun, nil_append] at hdone
    obtain ⟨hphase, hsent⟩ := hdone
    cases hphase with
    | copied => exact absurd rfl hsent
    | sent => simp at hto
    | arrived => exact ⟨⟨rfl, rfl, rfl, rfl, rfl, rfl⟩, fun _ => count_le_length⟩

theorem round_stale (hquiet : s.Quiet common) (hstep : sync.step s r = some (t, sent))
    (hbad : ¬(r.clip.Carried ∧ s.lastRemoteClipboardText ≠ some r.clip.text)) (hnew : common ≠ some r.clip.text) :
    ¬t.Holds r.clip.text := by
  obtain ⟨-, hrun⟩ := step_eq_some hstep
  obtain ⟨ho, hh, hl, hs, hth, hto⟩ := hquiet
  cases hside : r.side with
  | operator =>
    have hstart : HeldBack r.clip common s.lastRemoteClipboardText (r.change s) := by
      rw [Round.change, hside]
      exact ⟨rfl, hh, hs, rfl, hto, by simp [hth]⟩
    have hend := runEvents_invariant (fun s _ => HeldBack r.clip common _ s) (fun _ _ e h => h.step hbad e)
      r.events [] hstart
    rw [hrun] at hend
    exact fun hholds => hnew (hend.host.symm.trans hholds.2)
  | host =>
    have hstart : Ignored r.clip common s.lastRemoteClipboardText (r.change s) := by
      rw [Round.change, hside]
      exact ⟨rfl, ho, hl, rfl, hth, by simp [hto]⟩
    have hend := runEvents_invariant (fun s _ => Ignored r.clip common _ s) (fun _ _ e h => h.step hbad e)
      r.events [] hstart
    rw [hrun] at hend
    exact fun hholds => hnew (hend.operator.symm.trans hholds.1)

theorem round_same (hquiet : s.Quiet (some r.clip.text)) (hstep : sync.step s r = some (t, sent)) :
    t.Quiet (some r.clip.text) ∧ ∀ side, sent.count side ≤ 1 := by
  obtain ⟨-, hrun⟩ := step_eq_some hstep
  rw [hquiet.change.runEvents] at hrun
  cases hrun
  exact ⟨hquiet.change, by simp⟩

/-- Between the rounds the clipboards agree. -/
def Agree (s : State) (_ : List Side) : Prop := ∃ common, s.Quiet common

theorem round_of_fresh {trace : List Side} (hquiet : s.Quiet common) (hfresh : Fresh s trace r)
    (hstep : sync.step s r = some (t, sent)) :
    t.Quiet (some r.clip.text) ∧ ∀ side, sent.count side ≤ 1 := by
  by_cases hnew : common = some r.clip.text
  · subst hnew
    exact round_same hquiet hstep
  · rcases hfresh (by rw [hstep]; rfl) with hholds | ⟨hcarried, hremote⟩
    · exact absurd ((hquiet.holds_iff _).mp hholds) hnew
    · exact round_fresh hquiet hstep hcarried hremote hnew

theorem converges_iff_fresh (hquiet : s.Quiet common) (trace : List Side) : Converges s trace r ↔
    Fresh s trace r := by
  constructor
  · intro h hsome
    obtain ⟨⟨t, sent⟩, hstep⟩ := isSome_iff_exists.mp hsome
    by_cases hnew : common = some r.clip.text
    · exact .inl ((hquiet.holds_iff _).mpr hnew)
    · refine .inr (not_not.mp fun hbad => ?_)
      exact round_stale hquiet hstep hbad hnew (h t sent hstep).1
  · intro h t sent hstep
    obtain ⟨hafter, hcount⟩ := round_of_fresh hquiet h hstep
    exact ⟨(hafter.holds_iff _).mpr rfl, hcount⟩

/-- In every run the clipboards converge without echo in all rounds exactly when all the copied texts are
fresh. -/
theorem converges_iff (rounds : List Round) :
    sync.Every Converges .start [] rounds ↔ sync.Every Fresh .start [] rounds := by
  refine Machine.every_iff Agree ?_ ?_ rounds .start [] ⟨none, ⟨rfl, rfl, rfl, rfl, rfl, rfl⟩⟩
  · rintro s trace r t sent ⟨common, hquiet⟩ hfresh hstep
    exact ⟨_, (round_of_fresh hquiet hfresh hstep).1⟩
  · rintro s trace r ⟨common, hquiet⟩
    exact converges_iff_fresh hquiet trace

/-- A text is copied on the host, another one by the operator, then the first one again by the operator. -/
def goingBack : List Round :=
  let events := [.poll .operator, .poll .host, .deliver .host, .deliver .operator]
  [⟨.host, ⟨[0x61], false⟩, events⟩, ⟨.operator, ⟨[0x62], false⟩, events⟩, ⟨.operator, ⟨[0x61], false⟩, events⟩]

/-- The operator still remembers the text as the last one received, and does not send it. -/
theorem goingBack_lost : ¬sync.Every Converges .start [] goingBack := by
  intro h
  have hlast := (((h.2 _ _ rfl).2 _ _ rfl).1 _ _ rfl).1.2
  cases hlast

end LigamentApps.SupportOperator.Clipboard
