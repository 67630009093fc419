import LigamentApps.Machine.Trace
import LigamentApps.Text.Search
import Mathlib.Data.List.Nodup

/-!
# The signaling socket of the operator's screen

The support WebSocket of `support_operator_screen.dart` as a machine: `_connectWebSocket`,
`_scheduleWsReconnect`, `_retryConnectionStage`, the end of the session, and the callbacks of all channels
that were ever opened, in any order. The callbacks write the fields of the screen without a look at the
channel that they come from.

`socketLaws_iff` says of which runs the screen keeps to its one channel: of those in which no callback comes
from a channel that was replaced, and an API client is there to ask about the session when a channel is
done. -/

namespace LigamentApps.SupportOperator.Signaling

open List Option

/-! ## The screen -/

/-- What `ready` of a channel has completed with. -/
inductive Handshake
  | pending
  | ready
  | failed
  deriving DecidableEq

/-- A channel that was opened. -/
structure Channel where
  handshake : Handshake := .pending
  /-- The screen has closed its sink. -/
  isClosed : Bool := false
  /-- Its stream has come to an error or to its end. -/
  isOver : Bool := false

variable {f : Channel → Channel}

def Channel.isOpen (c : Channel) : Bool := c.handshake != .failed && !c.isClosed && !c.isOver

/-- Open, with the handshake done: the server's messages come on it. -/
def Channel.isUp (c : Channel) : Bool := c.handshake == .ready && !c.isClosed && !c.isOver

/-- A call of `getCurrentSupportSession` in the `onDone` of a channel. -/
structure Question where
  channel : ℕ
  /-- The channel was `_wsChannel` when it was done. -/
  wasCurrent : Bool

structure State where
  mounted : Bool := true
  isCleanedUp : Bool := false
  sessionTerminatedHandled : Bool := false
  /-- `_statusKey` is `ended_by_server` or `session_ended`. -/
  hasEndedStatus : Bool := false
  /-- `_wsChannel`, by its number. -/
  wsChannel : Option ℕ := none
  signalReady : Bool := false
  /-- `_wsReconnectTimer` is armed. -/
  wsReconnectTimer : Bool := false
  /-- All channels so far. -/
  channels : List Channel := []
  /-- The calls of `getCurrentSupportSession` that are not answered. -/
  questions : List Question := []

inductive Event
  /-- A reconnect is scheduled. -/
  | schedules
  /-- `_handleWsMessage` is called with a message of a channel. -/
  | handles (channel : ℕ)

/-- What an attempt to open a channel comes to. -/
inductive Opening
  /-- The server's address is not an https address. -/
  | forbidden
  | throws (error : String)
  | opens

/-- How `getCurrentSupportSession` completes. -/
inductive Answer
  /-- The session, if there is one, with its status. -/
  | session (status : Option String)
  | fails

def Answer.isEnded : Answer → Bool
  | .session none => true
  | .session (some status) => status == "ended" || status == "closed"
  | .fails => false

/-- The words in the text of an error that say that the session is over. -/
def terminalWords : List String := ["409", "410", "404", "403", "session_ended", "not_found", "invalid_transition"]

def endsSession (error : String) : Bool :=
  let str := error.toList.map Char.toLower
  terminalWords.any fun word => (Text.cutSub word.toList str).isSome

namespace State

def start : State := {}

def withChannel (s : State) (i : ℕ) (f : Channel → Channel) : State := { s with channels := s.channels.modify i f }

def isOpen (s : State) (i : ℕ) : Bool := s.channels[i]?.any Channel.isOpen

def isUp (s : State) (i : ℕ) : Bool := s.channels[i]?.any Channel.isUp

/-- `_wsChannel?.sink.close(); _wsChannel = null`. -/
def closeChannel (s : State) : State :=
  match s.wsChannel with
  | some i => { s.withChannel i fun c => { c with isClosed := true } with wsChannel := none }
  | none => s

def cleanupResources (s : State) : State :=
  if s.isCleanedUp then s
  else { s.closeChannel with isCleanedUp := true, signalReady := false, wsReconnectTimer := false }

def onSessionTerminated (s : State) (reasonKey : String) : State :=
  if !s.mounted || s.sessionTerminatedHandled then s
  else
    { s with
      sessionTerminatedHandled := true
      hasEndedStatus := reasonKey == "ended_by_server" || reasonKey == "session_ended" }.cleanupResources

def scheduleWsReconnect (s : State) : State × List Event :=
  if !s.mounted || s.isCleanedUp then (s, []) else ({ s with wsReconnectTimer := true }, [.schedules])

def connectWebSocket (s : State) (opening : Opening) : State :=
  if s.isCleanedUp || s.wsChannel.isSome then s
  else
    match opening with
    | .forbidden => s
    | .throws error => if s.mounted && endsSession error then s.onSessionTerminated "ended_by_server" else s
    | .opens => { s with wsChannel := some s.channels.length, channels := s.channels ++ [{}] }

/-- `_retryConnectionStage`, outside of Link sessions. -/
def retryConnectionStage (s : State) (opening : Opening) : State :=
  if !s.mounted || s.isCleanedUp || s.signalReady then s
  else { s with wsReconnectTimer := false }.closeChannel.connectWebSocket opening

def onReconnectTimer (s : State) (opening : Opening) : State :=
  let fired := { s with wsReconnectTimer := false }
  if fired.mounted && !fired.isCleanedUp then fired.connectWebSocket opening else fired

/-- `ready.then`. -/
def onReady (s : State) (i : ℕ) : State :=
  let done := s.withChannel i fun c => { c with handshake := .ready }
  if done.mounted then { done with signalReady := true } else done

/-- `ready.catchError`. -/
def onReadyError (s : State) (i : ℕ) (error : String) : State × List Event :=
  let done := s.withChannel i fun c => { c with handshake := .failed }
  if endsSession error then (done.onSessionTerminated "ended_by_server", []) else done.scheduleWsReconnect

/-- The stream of a channel is over, and `_wsChannel` is null. -/
def channelOver (s : State) (i : ℕ) : State :=
  { s.withChannel i fun c => { c with isOver := true } with wsChannel := none }

/-- `onDone`; `hasApi`: there is an API client. -/
def onDone (s : State) (i : ℕ) (hasApi : Bool) : State :=
  let done := s.channelOver i
  if !done.mounted || done.isCleanedUp || done.hasEndedStatus || !hasApi then done
  else { done with questions := done.questions ++ [⟨i, s.wsChannel == some i⟩] }

/-- The session has an answer, or none. -/
def onAnswer (s : State) (k : ℕ) (answer : Answer) : State × List Event :=
  let done := { s with questions := s.questions.eraseIdx k }
  if !done.mounted || done.isCleanedUp then (done, [])
  else if answer.isEnded then (done.onSessionTerminated "ended_by_server", [])
  else { done with signalReady := false }.scheduleWsReconnect

def onError (s : State) (i : ℕ) (error : String) : State × List Event :=
  let done := s.channelOver i
  if !done.mounted || done.isCleanedUp then (done, [])
  else if endsSession error then (done.onSessionTerminated "ended_by_server", [])
  else { done with signalReady := false }.scheduleWsReconnect

end State

inductive Action
  /-- `_connectWebSocket` at the start of the screen. -/
  | connect (opening : Opening)
  | retry (opening : Opening)
  | reconnectTimer (opening : Opening)
  | ready (channel : ℕ)
  | readyError (channel : ℕ) (error : String)
  /-- The server sends a message to every channel of the session that is up. -/
  | message
  | done (channel : ℕ) (hasApi : Bool)
  | error (channel : ℕ) (error : String)
  | answer (question : ℕ) (answer : Answer)
  /-- `_onSessionTerminated` for another reason. -/
  | terminated (reasonKey : String)
  | dispose

/-- The screen, its channels and what happens to them. -/
def signaling : Machine State Action Event where
  step s
    | .connect opening => some (s.connectWebSocket opening, [])
    | .retry opening => some (s.retryConnectionStage opening, [])
    | .reconnectTimer opening => if s.wsReconnectTimer then some (s.onReconnectTimer opening, []) else none
    | .ready i => if s.channels[i]?.any fun c => c.handshake == .pending then some (s.onReady i, []) else none
    | .readyError i error =>
      if s.channels[i]?.any fun c => c.handshake == .pending then some (s.onReadyError i error) else none
    | .message => some (s, ((List.range s.channels.length).filter s.isUp).map .handles)
    | .done i hasApi => if s.channels[i]?.any fun c => !c.isOver then some (s.onDone i hasApi, []) else none
    | .error i error => if s.channels[i]?.any fun c => !c.isOver then some (s.onError i error) else none
    | .answer k answer => if k < s.questions.length then some (s.onAnswer k answer) else none
    | .terminated reasonKey => some (s.onSessionTerminated reasonKey, [])
    | .dispose => if s.mounted then some ({ s.cleanupResources with mounted := false }, []) else none

/-! ## The laws -/

variable {s t : State} {a : Action} {fs : List Event} {i j k : ℕ}

/-- The action is a callback of a channel that is not the current one, or the answer to a question of such a
channel or one that comes when there is another channel. -/
def Action.IsStale (s : State) : Action → Prop
  | .ready i | .readyError i _ | .done i _ | .error i _ => s.wsChannel ≠ some i
  | .answer k _ => ¬((∀ q, s.questions[k]? = some q → q.wasCurrent = true) ∧ s.wsChannel = none)
  | _ => False

/-- The action is a failure of the current channel, or the answer to its question. -/
def Action.IsFailure (s : State) : Action → Prop
  | .readyError i _ | .done i _ | .error i _ => s.wsChannel = some i
  | .answer k _ => (∀ q, s.questions[k]? = some q → q.wasCurrent = true) ∧ s.wsChannel = none
  | _ => False

/-- The current channel, the readiness and the reconnects are left alone. -/
structure Untouched (s t : State) (fs : List Event) : Prop where
  wsChannel : t.wsChannel = s.wsChannel
  signalReady : t.signalReady = s.signalReady
  reconnects : .schedules ∉ fs

/-- A reconnect is scheduled, or will be when the session's question is answered, or the session has ended. -/
def Recovers (s : State) (a : Action) (t : State) (fs : List Event) : Prop :=
  .schedules ∈ fs ∨ (∃ i hasApi, a = .done i hasApi ∧ t.questions = s.questions ++ [⟨i, true⟩]) ∨
    t.isCleanedUp = true

/-- What a step of the socket must keep to. -/
structure Keeps (s : State) (a : Action) (t : State) (fs : List Event) : Prop where
  stale : a.IsStale s → Untouched s t fs
  /-- The only channel that may be open is the current one. -/
  current : ∀ i, t.isOpen i = true → t.wsChannel = some i
  recovers : a.IsFailure s → Recovers s a t fs
  /-- A message is handled once, for the current channel. -/
  handled : a = .message → fs = (s.wsChannel.filter s.isUp).toList.map .handles

def Lawful (s : State) (_ : List Event) (a : Action) : Prop :=
  ∀ t fs, signaling.step s a = some (t, fs) → Keeps s a t fs

/-- There is no channel, and nothing is ready. -/
def State.Bare (s : State) : Prop := s.wsChannel = none ∧ s.signalReady = false

/-- No callback disturbs the channel that has come after its own. -/
def Undisturbed (s : State) : Action → Prop
  | .ready i => s.wsChannel = some i ∨ s.mounted = false ∨ s.signalReady = true
  | .readyError i error | .error i error =>
    s.wsChannel = some i ∨ s.isCleanedUp = true ∨ endsSession error = true ∧ s.Bare
  | .done i hasApi => s.wsChannel = some i ∧ hasApi = true ∨ s.wsChannel = none
  | .answer k answer =>
    (∀ q, s.questions[k]? = some q → q.wasCurrent = true) ∧ s.wsChannel = none ∨ s.isCleanedUp = true ∨
      answer.isEnded = true ∧ s.Bare
  | _ => True

def Calm (s : State) (_ : List Event) (a : Action) : Prop := (signaling.step s a).isSome → Undisturbed s a

/-- Only the current channel may be open, and none is after the end. -/
structure Inv (s : State) : Prop where
  current : ∀ i, s.isOpen i = true → s.wsChannel = some i
  cleaned : s.isCleanedUp = true → s.wsChannel = none
  mounted : s.mounted = false → s.isCleanedUp = true
  handled : s.sessionTerminatedHandled = true → s.isCleanedUp = true
  ended : s.hasEndedStatus = true → s.isCleanedUp = true

theorem inv_start : Inv .start := ⟨by simp [State.isOpen, State.start], nofun, nofun, nofun, nofun⟩

theorem isOpen_withChannel :
    (s.withChannel i f).isOpen j = s.channels[j]?.any fun c => (if i = j then f c else c).isOpen := by
  simp only [State.isOpen, State.withChannel, getElem?_modify]
  cases s.channels[j]? with
  | none => rfl
  | some => simp [any_some]

theorem open_of_withChannel (hf : ∀ c, s.channels[i]? = some c → (f c).isOpen = true → c.isOpen = true)
    (h : (s.withChannel i f).isOpen j = true) : s.isOpen j = true := by
  rw [isOpen_withChannel] at h
  rw [State.isOpen]
  cases hc : s.channels[j]? with
  | none => simp [hc] at h
  | some c =>
    rw [hc, any_some] at h
    rw [any_some]
    split_ifs at h with hij
    · exact hf c (hij ▸ hc) h
    · exact h

theorem ne_of_open_withChannel (hf : ∀ c, (f c).isOpen = false)
    (h : (s.withChannel i f).isOpen j = true) : i ≠ j := by
  rintro rfl
  rw [isOpen_withChannel] at h
  cases hc : s.channels[i]? with
  | none => simp [hc] at h
  | some c => simp [hc, hf c] at h

theorem Inv.withChannel (h : Inv s)
    (hf : ∀ c, s.channels[i]? = some c → (f c).isOpen = true → c.isOpen = true) : Inv (s.withChannel i f) :=
  ⟨fun j hj => h.current j (open_of_withChannel hf hj), h.cleaned, h.mounted, h.handled, h.ended⟩

theorem shut_all (hopen : ∀ i, s.isOpen i = true → s.wsChannel = some i)
    (hshut : ∀ c, (f c).isOpen = false) (hi : s.wsChannel = some i) (j : ℕ) :
    (s.withChannel i f).isOpen j = false := by
  by_contra hj
  have hj : (s.withChannel i f).isOpen j = true := by simpa using hj
  have hcurrent := hopen j (open_of_withChannel (fun c _ hc => absurd hc (by simp [hshut c])) hj)
  exact ne_of_open_withChannel hshut hj (Option.some.inj (hi.symm.trans hcurrent))

theorem none_open (hopen : ∀ i, s.isOpen i = true → s.wsChannel = some i) (hnone : s.wsChannel = none)
    (j : ℕ) : s.isOpen j = false := by
  by_contra hj
  have hcurrent := hopen j (by simpa using hj)
  cases hcurrent.symm.trans hnone

theorem closeChannel_spec (hopen : ∀ i, s.isOpen i = true → s.wsChannel = some i) :
    s.closeChannel.wsChannel = none ∧ ∀ j, s.closeChannel.isOpen j = false := by
  unfold State.closeChannel
  cases hi : s.wsChannel with
  | none => exact ⟨hi, none_open hopen hi⟩
  | some => exact ⟨rfl, shut_all hopen (by simp [Channel.isOpen]) hi⟩

theorem closeChannel_rest : s.closeChannel.mounted = s.mounted ∧ s.closeChannel.isCleanedUp = s.isCleanedUp ∧
      s.closeChannel.sessionTerminatedHandled = s.sessionTerminatedHandled ∧
      s.closeChannel.hasEndedStatus = s.hasEndedStatus := by
  unfold State.closeChannel
  cases s.wsChannel <;> exact ⟨rfl, rfl, rfl, rfl⟩

theorem Inv.closeChannel (h : Inv s) : Inv s.closeChannel := by
  obtain ⟨hnone, hopen⟩ := closeChannel_spec h.current
  obtain ⟨hmounted, hcleaned, hhandled, hended⟩ := @closeChannel_rest s
  refine ⟨fun i hi => absurd ((hopen i).symm.trans hi) Bool.false_ne_true, fun _ => hnone, ?_, ?_, ?_⟩
  · rw [hmounted, hcleaned]
    exact h.mounted
  · rw [hhandled, hcleaned]
    exact h.handled
  · rw [hended, hcleaned]
    exact h.ended

theorem cleanupResources_spec (hopen : ∀ i, s.isOpen i = true → s.wsChannel = some i)
    (hcleaned : s.isCleanedUp = true → s.wsChannel = none) :
    Inv s.cleanupResources ∧ s.cleanupResources.isCleanedUp = true ∧
      s.cleanupResources.signalReady = (s.isCleanedUp && s.signalReady) := by
  unfold State.cleanupResources
  split_ifs with hyes
  · exact ⟨⟨hopen, hcleaned, fun _ => hyes, fun _ => hyes, fun _ => hyes⟩, hyes, by simp [hyes]⟩
  · obtain ⟨hnone, hshut⟩ := closeChannel_spec hopen
    refine ⟨⟨fun i hi => ?_, fun _ => hnone, fun _ => rfl, fun _ => rfl, fun _ => rfl⟩, rfl, by simp [hyes]⟩
    cases (hshut i).symm.trans hi

theorem onSessionTerminated_spec (h : Inv s) (reasonKey : String) :
    Inv (s.onSessionTerminated reasonKey) ∧ (s.onSessionTerminated reasonKey).isCleanedUp = true ∧
      (s.onSessionTerminated reasonKey).signalReady = (s.isCleanedUp && s.signalReady) := by
  unfold State.onSessionTerminated
  split_ifs with hover
  · have hcleaned : s.isCleanedUp = true := by
      rcases (Bool.or_eq_true ..).mp hover with hmounted | hhandled
      · exact h.mounted (by simpa using hmounted)
      · exact h.handled hhandled
    exact ⟨h, hcleaned, by simp [hcleaned]⟩
  · exact cleanupResources_spec h.current h.cleaned

theorem Inv.gone (h : Inv s) : (!s.mounted || s.isCleanedUp) = s.isCleanedUp := by
  cases hmounted : s.mounted with
  | true => simp
  | false => simp [h.mounted hmounted]

theorem Inv.alive (h : Inv s) (hi : s.wsChannel = some i) :
    s.isCleanedUp = false ∧ s.mounted = true ∧ s.hasEndedStatus = false := by
  have hlive : s.isCleanedUp = false := by
    by_contra hyes
    cases hi.symm.trans (h.cleaned (by simpa using hyes))
  refine ⟨hlive, ?_, ?_⟩
  · by_contra hno
    cases hlive.symm.trans (h.mounted (by simpa using hno))
  · by_contra hyes
    cases hlive.symm.trans (h.ended (by simpa using hyes))

theorem Inv.scheduleWsReconnect (h : Inv s) : Inv s.scheduleWsReconnect.1 := by
  unfold State.scheduleWsReconnect
  split_ifs
  · exact h
  · exact ⟨h.current, h.cleaned, h.mounted, h.handled, h.ended⟩

theorem Inv.connectWebSocket (h : Inv s) (opening : Opening) : Inv (s.connectWebSocket opening) := by
  unfold State.connectWebSocket
  split_ifs with hbusy
  · exact h
  · obtain ⟨hlive, hnone⟩ : s.isCleanedUp = false ∧ s.wsChannel = none := by simpa using hbusy
    cases opening with
    | forbidden => exact h
    | throws =>
      dsimp only
      split_ifs
      · exact (onSessionTerminated_spec h _).1
      · exact h
    | opens =>
      refine ⟨fun i hi => ?_, fun hcleaned => ?_, h.mounted, h.handled, h.ended⟩
      · -- the channels before were shut, the one after them is the new one
        rcases Nat.lt_trichotomy i s.channels.length with hlt | rfl | hgt
        · have hold := none_open h.current hnone i
          simp only [State.isOpen, getElem?_append_left hlt] at hi hold
          cases hold.symm.trans hi
        · rfl
        · simp [State.isOpen, getElem?_append_right (Nat.le_of_lt hgt), Nat.sub_ne_zero_of_lt hgt] at hi
      · cases hlive.symm.trans hcleaned

theorem Inv.retryConnectionStage (h : Inv s) (opening : Opening) : Inv (s.retryConnectionStage opening) := by
  unfold State.retryConnectionStage
  split_ifs
  · exact h
  · have hstopped : Inv { s with wsReconnectTimer := false } :=
      ⟨h.current, h.cleaned, h.mounted, h.handled, h.ended⟩
    exact hstopped.closeChannel.connectWebSocket opening

theorem Inv.onReconnectTimer (h : Inv s) (opening : Opening) : Inv (s.onReconnectTimer opening) := by
  have hfired : Inv { s with wsReconnectTimer := false } := ⟨h.current, h.cleaned, h.mounted, h.handled, h.ended⟩
  unfold State.onReconnectTimer
  dsimp only
  split_ifs
  · exact hfired.connectWebSocket opening
  · exact hfired

theorem Inv.dispose (h : Inv s) : Inv { s.cleanupResources with mounted := false } := by
  obtain ⟨hinv, hcleaned, -⟩ := cleanupResources_spec h.current h.cleaned
  exact ⟨hinv.current, hinv.cleaned, fun _ => hcleaned, hinv.handled, hinv.ended⟩

theorem Inv.channelOver (h : Inv s) (hi : s.wsChannel = some i ∨ s.wsChannel = none) : Inv (s.channelOver i) := by
  refine ⟨fun j hj => ?_, fun _ => rfl, h.mounted, h.handled, h.ended⟩
  have hshut : (s.withChannel i fun c => { c with isOver := true }).isOpen j = false := by
    rcases hi with hi | hnone
    · exact shut_all h.current (by simp [Channel.isOpen]) hi j
    · exact none_open (h.withChannel fun c _ => by simp [Channel.isOpen]).current hnone j
  cases hshut.symm.trans hj

/-- A failure of a channel, or the answer to its question: on a living screen it ends the session or schedules
a reconnect. -/
structure Fails (s : State) (ends : Bool) (r : State × List Event) : Prop where
  inv : Inv r.1
  cleaned : s.isCleanedUp = true → r.1.isCleanedUp = true ∧ r.1.signalReady = s.signalReady ∧ r.2 = []
  ended : s.isCleanedUp = false → ends = true → r.1.isCleanedUp = true ∧ r.1.signalReady = false ∧ r.2 = []
  goesOn : s.isCleanedUp = false → ends = false → r.2 = [.schedules]

theorem scheduleWsReconnect_live (h : Inv s) (hlive : s.isCleanedUp = false) :
    s.scheduleWsReconnect.2 = [.schedules] := by
  rw [State.scheduleWsReconnect, h.gone, hlive]
  rfl

theorem scheduleWsReconnect_cleaned (hcleaned : s.isCleanedUp = true) : s.scheduleWsReconnect = (s, []) := by
  simp [State.scheduleWsReconnect, hcleaned]

theorem fails_or_reconnects (h : Inv s) (ends : Bool) : Fails s ends (if s.isCleanedUp then (s, [])
      else if ends then (s.onSessionTerminated "ended_by_server", [])
      else { s with signalReady := false }.scheduleWsReconnect) := by
  obtain ⟨hinv, hcleaned, hready⟩ := onSessionTerminated_spec h "ended_by_server"
  have hunready : Inv { s with signalReady := false } := ⟨h.current, h.cleaned, h.mounted, h.handled, h.ended⟩
  split_ifs with hgone hends
  · exact ⟨h, fun _ => ⟨hgone, rfl, rfl⟩, fun hlive => absurd (hlive.symm.trans hgone) Bool.false_ne_true,
      fun hlive => absurd (hlive.symm.trans hgone) Bool.false_ne_true⟩
  · exact ⟨hinv, fun hyes => absurd hyes hgone, fun hlive _ => ⟨hcleaned, by simp [hready, hlive], rfl⟩,
      fun _ hno => absurd (hno.symm.trans hends) Bool.false_ne_true⟩
  · exact ⟨hunready.scheduleWsReconnect, fun hyes => absurd hyes hgone, fun _ hyes => absurd hyes hends,
      fun hlive _ => scheduleWsReconnect_live hunready hlive⟩

/-- A failure keeps to the laws exactly when it is one of the current channel, or comes after the end, or ends
a session that has neither a channel nor readiness. -/
theorem failing_iff {ends : Bool} {r : State × List Event} {Own : Prop} (h : Inv s) (hfails : Fails s ends r)
    (hstale : a.IsStale s ↔ ¬Own) (hcallback : a ≠ .message) :
    Keeps s a r.1 r.2 ↔ Own ∨ s.isCleanedUp = true ∨ ends = true ∧ s.Bare := by
  cases hcleaned : s.isCleanedUp with
  | true =>
    obtain ⟨hafter, hready, hquiet⟩ := hfails.cleaned hcleaned
    have hchannel : r.1.wsChannel = s.wsChannel := (hfails.inv.cleaned hafter).trans (h.cleaned hcleaned).symm
    refine iff_of_true ?_ (.inr (.inl rfl))
    exact ⟨fun _ => ⟨hchannel, hready, by simp [hquiet]⟩, hfails.inv.current, fun _ => .inr (.inr hafter),
      fun hmessage => absurd hmessage hcallback⟩
  | false =>
    cases hends : ends with
    | true =>
      obtain ⟨hafter, hready, hquiet⟩ := hfails.ended hcleaned hends
      have hchannel := hfails.inv.cleaned hafter
      constructor
      · intro hkeeps
        refine (Classical.em Own).imp_right fun hother => .inr ⟨rfl, ?_⟩
        obtain ⟨hsame, hsameReady, -⟩ := hkeeps.stale (hstale.mpr hother)
        exact ⟨hsame.symm.trans hchannel, hsameReady.symm.trans hready⟩
      · intro hgood
        refine ⟨fun hyes => ?_, hfails.inv.current, fun _ => .inr (.inr hafter),
          fun hmessage => absurd hmessage hcallback⟩
        rcases hgood with hown | hno | ⟨-, hnone, hunready⟩
        · exact absurd hown (hstale.mp hyes)
        · simp at hno
        · exact ⟨hchannel.trans hnone.symm, hready.trans hunready.symm, by simp [hquiet]⟩
    | false =>
      have hschedules := hfails.goesOn hcleaned hends
      constructor
      · intro hkeeps
        refine .inl (not_not.mp fun hother => ?_)
        exact (hkeeps.stale (hstale.mpr hother)).reconnects (by simp [hschedules])
      · intro hgood
        have hown : Own := by simpa using hgood
        exact ⟨fun hyes => absurd hown (hstale.mp hyes), hfails.inv.current, fun _ => .inl (by simp [hschedules]),
          fun hmessage => absurd hmessage hcallback⟩

theorem fails_readyError (h : Inv s) (error : String) : Fails s (endsSession error) (s.onReadyError i error) := by
  have hdone : Inv (s.withChannel i fun c => { c with handshake := .failed }) :=
    h.withChannel fun c _ => by simp [Channel.isOpen]
  obtain ⟨hinv, hcleaned, hready⟩ := onSessionTerminated_spec hdone "ended_by_server"
  unfold State.onReadyError
  split_ifs with hends
  · refine ⟨hinv, fun hyes => ⟨hcleaned, ?_, rfl⟩, fun hlive _ => ⟨hcleaned, ?_, rfl⟩,
      fun _ hno => absurd (hno.symm.trans hends) Bool.false_ne_true⟩
    · rw [hready]
      simp [State.withChannel, hyes]
    · rw [hready]
      simp [State.withChannel, hlive]
  · refine ⟨hdone.scheduleWsReconnect, fun hyes => ?_, fun _ hyes => absurd hyes hends,
      fun hlive _ => scheduleWsReconnect_live hdone hlive⟩
    have hquiet := scheduleWsReconnect_cleaned (s := s.withChannel i fun c => { c with handshake := .failed }) hyes
    rw [hquiet]
    exact ⟨hyes, rfl, rfl⟩

theorem fails_error (h : Inv s) (hi : s.wsChannel = some i ∨ s.wsChannel = none) (error : String) :
    Fails s (endsSession error) (s.onError i error) := by
  have hover := h.channelOver hi
  have hgone := hover.gone
  have hfails := fails_or_reconnects hover (endsSession error)
  unfold State.onError
  dsimp only
  rw [hgone]
  exact ⟨hfails.inv, hfails.cleaned, hfails.ended, hfails.goesOn⟩

theorem onSessionTerminated_none (hnone : s.wsChannel = none) (reasonKey : String) :
    (s.onSessionTerminated reasonKey).wsChannel = none := by
  unfold State.onSessionTerminated State.cleanupResources State.closeChannel
  split_ifs
  · exact hnone
  · exact hnone
  · simp only [hnone]

theorem onError_wsChannel (i : ℕ) (error : String) : (s.onError i error).1.wsChannel = none := by
  unfold State.onError State.scheduleWsReconnect
  dsimp only
  split_ifs
  · rfl
  · exact onSessionTerminated_none rfl _
  · rfl

theorem fails_answer (h : Inv s) (answer : Answer) : Fails s answer.isEnded (s.onAnswer k answer) := by
  have hasked : Inv { s with questions := s.questions.eraseIdx k } :=
    ⟨h.current, h.cleaned, h.mounted, h.handled, h.ended⟩
  have hgone := hasked.gone
  have hfails := fails_or_reconnects hasked answer.isEnded
  unfold State.onAnswer
  dsimp only
  rw [hgone]
  exact ⟨hfails.inv, hfails.cleaned, hfails.ended, hfails.goesOn⟩

theorem ready_iff (h : Inv s) (hpending : (s.channels[i]?.any fun c => c.handshake == .pending) = true) :
    (Keeps s (.ready i) (s.onReady i) [] ↔ Undisturbed s (.ready i)) ∧ Inv (s.onReady i) := by
  have hdone : Inv (s.withChannel i fun c => { c with handshake := .ready }) := by
    refine h.withChannel fun c hc hopen => ?_
    have hc : c.handshake = .pending := by simpa [hc] using hpending
    simpa [Channel.isOpen, hc] using hopen
  have hinv : Inv (s.onReady i) := by
    unfold State.onReady
    dsimp only
    split_ifs
    · exact ⟨hdone.current, hdone.cleaned, hdone.mounted, hdone.handled, hdone.ended⟩
    · exact hdone
  have hchannel : (s.onReady i).wsChannel = s.wsChannel := by
    unfold State.onReady
    dsimp only
    split_ifs <;> rfl
  have hready : (s.onReady i).signalReady = (s.mounted || s.signalReady) := by
    unfold State.onReady State.withChannel
    dsimp only
    split_ifs with hmounted
    · simp [hmounted]
    · simp [hmounted]
  refine ⟨⟨fun hkeeps => ?_, fun hgood => ?_⟩, hinv⟩
  · refine (Classical.em _).imp_right fun hother => ?_
    have hsame := (hkeeps.stale hother).signalReady
    rw [hready] at hsame
    cases hmounted : s.mounted with
    | true => exact Or.inr (by simpa [hmounted] using hsame.symm)
    | false => exact Or.inl rfl
  · refine ⟨fun hother => ⟨hchannel, ?_, by simp⟩, hinv.current, nofun, nofun⟩
    rw [hready]
    rcases hgood with hown | hmounted | hyes
    · exact absurd hown hother
    · simp [hmounted]
    · simp [hyes]

theorem done_iff (h : Inv s) (hasApi : Bool) :
    (Keeps s (.done i hasApi) (s.onDone i hasApi) [] ↔ Undisturbed s (.done i hasApi)) ∧
      (Undisturbed s (.done i hasApi) → Inv (s.onDone i hasApi)) := by
  have hfields : (s.onDone i hasApi).wsChannel = none ∧ (s.onDone i hasApi).signalReady = s.signalReady ∧
      (s.onDone i hasApi).isCleanedUp = s.isCleanedUp := by
    unfold State.onDone
    dsimp only
    split_ifs <;> exact ⟨rfl, rfl, rfl⟩
  obtain ⟨hnone, hready, hcleaned⟩ := hfields
  have hinv : s.wsChannel = some i ∨ s.wsChannel = none → Inv (s.onDone i hasApi) := by
    intro hi
    have hover := h.channelOver hi
    unfold State.onDone
    dsimp only
    split_ifs
    · exact hover
    · exact ⟨hover.current, hover.cleaned, hover.mounted, hover.handled, hover.ended⟩
  refine ⟨⟨fun hkeeps => ?_, fun hgood => ?_⟩, fun hgood => hinv (hgood.imp_left And.left)⟩
  · by_cases hown : s.wsChannel = some i
    · refine .inl ⟨hown, ?_⟩
      obtain ⟨hlive, -, -⟩ := h.alive hown
      rcases hkeeps.recovers hown with hno | ⟨i', hasApi', heq, hquestions⟩ | hyes
      · simp at hno
      · by_contra hno
        have hnoApi : hasApi = false := by simpa using hno
        rw [State.onDone, if_pos (by simp [hnoApi])] at hquestions
        simp [State.channelOver, State.withChannel] at hquestions
      · cases hlive.symm.trans (hcleaned.symm.trans hyes)
    · exact .inr ((hkeeps.stale hown).wsChannel.symm.trans hnone)
  · refine ⟨fun hother => ⟨?_, hready, by simp⟩, (hinv (hgood.imp_left And.left)).current, fun hown => ?_, nofun⟩
    · rcases hgood with ⟨hown, -⟩ | hempty
      · exact absurd hown hother
      · exact hnone.trans hempty.symm
    · -- the session is asked about, since the screen lives and there is a client
      have hown : s.wsChannel = some i := hown
      obtain ⟨hlive, hmounted, hended⟩ := h.alive hown
      have hclient : hasApi = true := by
        rcases hgood with ⟨-, hclient⟩ | hempty
        · exact hclient
        · cases hown.symm.trans hempty
      refine .inr (.inl ⟨i, hasApi, rfl, ?_⟩)
      simp [State.onDone, State.channelOver, State.withChannel, hlive, hmounted, hended, hclient, hown]

theorem keeps_quiet (hinv : Inv t) (hstale : ¬a.IsStale s) (hfailure : ¬a.IsFailure s)
    (hcallback : a ≠ .message) : Keeps s a t fs :=
  ⟨fun hyes => absurd hyes hstale, hinv.current, fun hyes => absurd hyes hfailure,
    fun hmessage => absurd hmessage hcallback⟩

theorem current_of_isUp (h : Inv s) (hup : s.isUp i = true) : s.wsChannel = some i := by
  refine h.current i ?_
  rw [State.isUp] at hup
  rw [State.isOpen]
  cases hc : s.channels[i]? with
  | none => simp [hc] at hup
  | some =>
    rw [hc, any_some] at hup
    rw [any_some]
    simp only [Channel.isUp, Bool.and_eq_true, beq_iff_eq] at hup
    simp [Channel.isOpen, hup]

theorem handled_once (h : Inv s) :
    (List.range s.channels.length).filter s.isUp = (s.wsChannel.filter s.isUp).toList := by
  cases hi : s.wsChannel.filter s.isUp with
  | none =>
    refine filter_eq_nil_iff.mpr fun j _ hup => ?_
    rw [current_of_isUp h hup] at hi
    simp [hup] at hi
  | some i =>
    obtain ⟨hcurrent, hup⟩ := filter_eq_some_iff.mp hi
    have honly : ∀ j ∈ List.range s.channels.length, s.isUp j = (j == i) := by
      intro j _
      rw [Bool.eq_iff_iff, beq_iff_eq]
      constructor
      · exact fun hj => Option.some.inj ((current_of_isUp h hj).symm.trans hcurrent)
      · exact fun hj => hj ▸ hup
    have hmem : i ∈ List.range s.channels.length := by
      rw [mem_range]
      by_contra hlong
      rw [State.isUp, getElem?_eq_none (Nat.not_lt.mp hlong)] at hup
      simp at hup
    rw [filter_congr honly, filter_beq, count_eq_one_of_mem nodup_range hmem]
    rfl

/-- A step keeps to the laws of the socket exactly where nothing disturbs it. -/
theorem step_ok (h : Inv s) (hstep : signaling.step s a = some (t, fs)) :
    (Keeps s a t fs ↔ Undisturbed s a) ∧ (Undisturbed s a → Inv t) := by
  have hquiet : Inv t → ¬a.IsStale s → ¬a.IsFailure s → a ≠ .message → Undisturbed s a →
      (Keeps s a t fs ↔ Undisturbed s a) ∧ (Undisturbed s a → Inv t) := by
    intro hinv hstale hfailure hcallback hgood
    exact ⟨iff_of_true (keeps_quiet hinv hstale hfailure hcallback) hgood, fun _ => hinv⟩
  cases a with
  | connect opening =>
    cases hstep
    exact hquiet (h.connectWebSocket opening) nofun nofun nofun trivial
  | retry opening =>
    cases hstep
    exact hquiet (h.retryConnectionStage opening) nofun nofun nofun trivial
  | reconnectTimer opening =>
    simp only [signaling] at hstep
    split_ifs at hstep
    cases hstep
    exact hquiet (h.onReconnectTimer opening) nofun nofun nofun trivial
  | ready =>
    simp only [signaling] at hstep
    split_ifs at hstep with hpending
    cases hstep
    obtain ⟨hiff, hinv⟩ := ready_iff h hpending
    exact ⟨hiff, fun _ => hinv⟩
  | readyError i error =>
    simp only [signaling] at hstep
    split_ifs at hstep
    have hfails := fails_readyError h error (i := i)
    rw [Option.some.inj hstep] at hfails
    exact ⟨failing_iff h hfails Iff.rfl nofun, fun _ => hfails.inv⟩
  | message =>
    cases hstep
    refine ⟨iff_of_true ⟨nofun, h.current, nofun, fun _ => ?_⟩ trivial, fun _ => h⟩
    rw [handled_once h]
  | done _ hasApi =>
    simp only [signaling] at hstep
    split_ifs at hstep
    cases hstep
    exact done_iff h hasApi
  | error i error =>
    simp only [signaling] at hstep
    split_ifs at hstep
    by_cases hi : s.wsChannel = some i ∨ s.wsChannel = none
    · have hfails := fails_error h hi error
      rw [Option.some.inj hstep] at hfails
      exact ⟨failing_iff h hfails Iff.rfl nofun, fun _ => hfails.inv⟩
    · -- another channel is current, which the callback takes away
      obtain ⟨hother, hsome⟩ := not_or.mp hi
      have hnone := onError_wsChannel (s := s) i error
      rw [Option.some.inj hstep] at hnone
      have hbad : ¬Undisturbed s (.error i error) := by
        rintro (hown | hcleaned | ⟨-, hbare⟩)
        · exact hother hown
        · exact hsome (h.cleaned hcleaned)
        · exact hsome hbare.1
      refine ⟨iff_of_false (fun hkeeps => ?_) hbad, fun hgood => absurd hgood hbad⟩
      exact hsome ((hkeeps.stale hother).wsChannel.symm.trans hnone)
  | answer k answer =>
    simp only [signaling] at hstep
    split_ifs at hstep
    have hfails := fails_answer h answer (k := k)
    rw [Option.some.inj hstep] at hfails
    exact ⟨failing_iff h hfails Iff.rfl nofun, fun _ => hfails.inv⟩
  | terminated reasonKey =>
    cases hstep
    exact hquiet (onSessionTerminated_spec h reasonKey).1 nofun nofun nofun trivial
  | dispose =>
    simp only [signaling] at hstep
    split_ifs at hstep
    cases hstep
    exact hquiet h.dispose nofun nofun nofun trivial

theorem lawful_iff (h : Inv s) (es : List Event) (a : Action) : Lawful s es a ↔ Calm s es a := by
  constructor
  · intro hlawful hsome
    obtain ⟨⟨t, fs⟩, hstep⟩ := isSome_iff_exists.mp hsome
    exact (step_ok h hstep).1.mp (hlawful t fs hstep)
  · intro hcalm t fs hstep
    exact (step_ok h hstep).1.mpr (hcalm (by rw [hstep]; rfl))

/-- In every run the socket keeps to its laws exactly when no callback disturbs the channel that has come
after its own. -/
theorem socketLaws_iff (as : List Action) :
    signaling.Every Lawful .start [] as ↔ signaling.Every Calm .start [] as := by
  refine Machine.every_iff (fun s _ => Inv s) ?_ (fun s es a h => lawful_iff h es a) as .start [] inv_start
  intro s es a t fs hinv hcalm hstep
  exact (step_ok hinv hstep).2 (hcalm (by rw [hstep]; rfl))

/-- The first channel hangs, the operator retries, and then its handshake fails. -/
def hangsAndRetries : List Action := [.connect .opens, .retry .opens,
    .error 0 "TimeoutException after 0:00:12.000000"]

/-- The failure of the first channel takes the second one away, which stays open. -/
theorem hangsAndRetries_lost : ¬signaling.Every Lawful .start [] hangsAndRetries := by
  intro h
  have hkeeps := ((h.2 _ _ rfl).2 _ _ rfl).1 _ _ rfl
  cases hkeeps.current 1 (by decide)

end LigamentApps.SupportOperator.Signaling
