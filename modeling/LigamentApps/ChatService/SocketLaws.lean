import LigamentApps.ChatService.Messages
import LigamentApps.ChatService.Socket

/-!
# The socket after a logout

After `disconnectWebSocket` the service still remembers its client. A text that is sent opens a connection
with it, and so does `ensureConnected` without a client. The data of a channel that is no longer current are
taken as those of the current one. -/

namespace LigamentApps.ChatService

variable {α β : Type} {onData : α → β → α} {s : ChatSocket α} {es : List SocketOutput} {down : Bool}

variable {r : ChatSocket α × List SocketOutput} {a : SocketAction β} {id : ℕ}

/-- The socket is down after `disconnectWebSocket`, until the service is called with a client. Nothing is
opened while it is down. -/
def socketDown : Monitor Bool SocketOutput where
  start := false
  next down := fun
    | .disconnected => true
    | .called => false
    | .opened .. | .added .. => down
  Ok down := fun
    | .opened .. => down = false
    | _ => True

/-- The channel whose callback an action is. -/
def SocketAction.channel? : SocketAction β → Option ℕ
  | .ready id | .readyFailed id | .data id _ | .error id | .done id => some id
  | _ => none

namespace ChatSocket

/-- The only channel that is open is the current one. -/
def OneOpen (s : ChatSocket α) : Prop := ∀ c ∈ s.channels, c.isOpen = true → s.wsChannel = some c.id

/-- A step keeps the laws of the socket: nothing is opened while it is down, one channel at most is open, the
current one, and a callback of another channel changes nothing. -/
def Lawful (onData : α → β → α) (s : ChatSocket α) (es : List SocketOutput) (a : SocketAction β) : Prop :=
  ∀ t fs, s.step onData a = some (t, fs) →
    socketDown.AcceptsFrom (socketDown.after es) fs ∧ t.OneOpen ∧
      ∀ id, a.channel? = some id → s.wsChannel ≠ some id → t.toSocketFields = s.toSocketFields ∧ fs = []

/-- An attempt to connect opens a channel: the remembered client has an address, and nothing throws. -/
def Opens (s : ChatSocket α) (opening : ChannelOpening) : Prop :=
  opening = .opened ∧ ∃ c, s.lastClient = some c ∧ (s.clients c).baseUrl ≠ ""

/-- What happens leaves the socket alone while it is down, and a channel that is not current brings
nothing. -/
def LeftAlone (onData : α → β → α) (s : ChatSocket α) (es : List SocketOutput) : SocketAction β → Prop
  | .sendWs _ _ opening | .ensureConnected none opening => socketDown.after es = true → ¬s.Opens opening
  | .reconnectTimer opening => s.reconnectTimer = true → socketDown.after es = true → ¬s.Opens opening
  | .data id data =>
    (∃ c, s.channelOf id = some c ∧ c.listening = true) → s.wsChannel ≠ some id → onData s.app data = s.app
  | _ => True

/-- The invariant: one channel at most is open, and none is current while the socket is down. -/
structure WellKept (s : ChatSocket α) (down : Bool) : Prop where
  oneOpen : s.OneOpen
  unset : down = true → s.wsChannel = none ∧ s.isWsConnected = false ∧ s.isWsConnecting = false

/-! ## Channels -/

theorem OneOpen.withChannel {f : SocketChannel → SocketChannel} (h : s.OneOpen)
    (hid : ∀ c, (f c).id = c.id) (hf : ∀ c, (f c).isOpen = true → c.isOpen = true) :
    (s.withChannel id f).OneOpen := by
  intro c hc hopen
  obtain ⟨c', hc', rfl⟩ := List.mem_map.mp hc
  by_cases hsame : c'.id = id
  · rw [if_pos hsame] at hopen ⊢
    rw [hid]
    exact h c' hc' (hf c' hopen)
  · rw [if_neg hsame] at hopen ⊢
    exact h c' hc' hopen

theorem OneOpen.closeCurrent (h : s.OneOpen) : ∀ c ∈ s.closeCurrent.channels, c.isOpen = false := by
  intro c hc
  by_contra hopen
  rw [Bool.not_eq_false] at hopen
  unfold ChatSocket.closeCurrent at hc
  cases hcurrent : s.wsChannel with
  | none =>
    rw [hcurrent] at hc
    exact absurd (h c hc hopen) (by rw [hcurrent]; exact nofun)
  | some id =>
    rw [hcurrent] at hc
    obtain ⟨c', hc', rfl⟩ := List.mem_map.mp hc
    by_cases hsame : c'.id = id
    · rw [if_pos hsame] at hopen
      cases hopen
    · rw [if_neg hsame] at hopen
      have hid := (h c' hc' hopen).symm.trans hcurrent
      exact hsame (Option.some.inj hid)

theorem oneOpen_of_closed (h : ∀ c ∈ s.channels, c.isOpen = false) : s.OneOpen :=
  fun c hc hopen => absurd ((h c hc).symm.trans hopen) Bool.false_ne_true

theorem closeCurrent_fields : s.closeCurrent.toSocketFields = s.toSocketFields := by
  unfold ChatSocket.closeCurrent
  split <;> rfl

theorem closeCurrent_wsChannel : s.closeCurrent.wsChannel = s.wsChannel :=
  congrArg SocketFields.wsChannel closeCurrent_fields

/-! ## Connecting -/

/-- What a part of a step does that may open a channel: it opens one, or sets none. -/
structure Attempt (s : ChatSocket α) (opens : Prop) (r : ChatSocket α × List SocketOutput) : Prop where
  oneOpen : r.1.OneOpen
  outcome : (opens ∧ ∃ id base token, r.2 = [.opened id base token]) ∨
    (¬opens ∧ r.2 = [] ∧ r.1.wsChannel = s.wsChannel ∧ (r.1.isWsConnected = true → s.isWsConnected = true) ∧
      (r.1.isWsConnecting = true → s.isWsConnecting = true))

theorem connectWsInternal_attempt (h : s.OneOpen) (opening : ChannelOpening) :
    s.Attempt (s.Opens opening) (s.connectWsInternal opening) := by
  have hclosed : ∀ c ∈ ({ s with reconnectTimer := false } : ChatSocket α).closeCurrent.channels,
    c.isOpen = false :=
    OneOpen.closeCurrent h
  unfold connectWsInternal
  simp only
  split
  · rename_i hlast
    refine ⟨h, .inr ⟨?_, rfl, rfl, id, id⟩⟩
    rintro ⟨-, c, hc, -⟩
    cases hlast.symm.trans hc
  · rename_i c hlast
    split
    · rename_i haddress
      refine ⟨h, .inr ⟨?_, rfl, rfl, id, id⟩⟩
      rintro ⟨-, c', hc', haddress'⟩
      cases hlast.symm.trans hc'
      exact haddress' haddress
    · rename_i haddress
      split
      · refine ⟨h, .inr ⟨fun hopens => ?_, rfl, rfl, fun hset => ?_, fun hset => ?_⟩⟩
        · exact ChannelOpening.noConfusion hopens.1
        · cases hset
        · cases hset
      · refine ⟨oneOpen_of_closed hclosed, .inr ⟨fun hopens => ?_, rfl, ?_, fun hset => ?_, fun hset => ?_⟩⟩
        · exact ChannelOpening.noConfusion hopens.1
        · exact closeCurrent_wsChannel
        · cases hset
        · cases hset
      · refine ⟨?_, .inl ⟨⟨rfl, c, hlast, haddress⟩, _, _, _, rfl⟩⟩
        intro c' hc' hopen
        rcases List.mem_append.mp hc' with hold | hnew
        · cases (hclosed c' hold).symm.trans hopen
        · obtain rfl := List.mem_singleton.mp hnew
          rfl

theorem ensureOpen_attempt (h : s.OneOpen) (opening : ChannelOpening) :
    s.Attempt (s.isWsConnected = false ∧ s.isWsConnecting = false ∧ s.Opens opening) (s.ensureOpen opening) := by
  unfold ensureOpen
  split_ifs with hfree
  · simp only [Bool.and_eq_true, Bool.not_eq_true'] at hfree
    have hattempt := connectWsInternal_attempt h opening
    exact ⟨hattempt.oneOpen, by simpa only [hfree.1.1, hfree.1.2, true_and] using hattempt.outcome⟩
  · refine ⟨h, .inr ⟨?_, rfl, rfl, id, id⟩⟩
    rintro ⟨hconnected, hconnecting, -, c, hc, -⟩
    exact hfree (by rw [hconnected, hconnecting, hc]; rfl)

/-- What a step does that is let pass exactly under a condition. -/
structure Outcome (down : Bool) (condition : Prop) (r : ChatSocket α × List SocketOutput) : Prop where
  accepts : socketDown.AcceptsFrom down r.2 ↔ condition
  oneOpen : r.1.OneOpen
  kept : condition → r.1.WellKept (r.2.foldl socketDown.next down)

theorem Attempt.passes {opens : Prop} (h : s.Attempt opens r)
    (hunset : down = true → s.wsChannel = none ∧ s.isWsConnected = false ∧ s.isWsConnecting = false) :
    Outcome down (down = true → ¬opens) r := by
  rcases h.outcome with ⟨hopens, id, base, token, hr⟩ | ⟨hopens, hr, hchannel, hconnected, hconnecting⟩
  · refine ⟨?_, h.oneOpen, fun hnot => ⟨h.oneOpen, ?_⟩⟩
    · rw [hr]
      cases down with
      | false => exact iff_of_true ⟨rfl, trivial⟩ nofun
      | true => exact iff_of_false (fun hok => nomatch hok.1) fun hnot => hnot rfl hopens
    · rw [hr]
      exact fun hdown => absurd hopens (hnot hdown)
  · refine ⟨?_, h.oneOpen, fun _ => ⟨h.oneOpen, ?_⟩⟩
    · rw [hr]
      exact iff_of_true trivial fun _ => hopens
    · rw [hr]
      intro hdown
      obtain ⟨hnone, hunconnected, hunconnecting⟩ := hunset hdown
      refine ⟨hchannel.trans hnone, ?_, ?_⟩
      · exact Bool.eq_false_iff.mpr fun hset => absurd ((hconnected hset).symm.trans hunconnected) nofun
      · exact Bool.eq_false_iff.mpr fun hset => absurd ((hconnecting hset).symm.trans hunconnecting) nofun

theorem Attempt.called {opens : Prop} (h : s.Attempt opens r) : Outcome down True (r.1, .called :: r.2) := by
  have hfree : Outcome false (false = true → ¬opens) r := h.passes nofun
  exact ⟨iff_of_true ⟨trivial, hfree.accepts.mpr nofun⟩ trivial, h.oneOpen, fun _ => hfree.kept nofun⟩

theorem WellKept.silent {t : ChatSocket α} (h : t.WellKept down) : Outcome down True (t, []) :=
  ⟨iff_of_true trivial trivial, h.oneOpen, fun _ => h⟩

theorem connectWebSocket_outcome (h : s.WellKept down) (client : ℕ) (force : Bool)
    (opening : ChannelOpening) : Outcome down True (s.connectWebSocket client force opening) := by
  unfold connectWebSocket
  split
  · have hcalled : s.WellKept false := ⟨h.oneOpen, nofun⟩
    exact ⟨iff_of_true ⟨trivial, trivial⟩ trivial, h.oneOpen, fun _ => hcalled⟩
  · have hremembered : ({ s with lastClient := some client } : ChatSocket α).OneOpen := h.oneOpen
    exact (connectWsInternal_attempt hremembered opening).called

theorem ensureOpen_outcome (h : s.WellKept down) (opening : ChannelOpening) :
    Outcome down (down = true → ¬s.Opens opening) (s.ensureOpen opening) := by
  have houtcome := (ensureOpen_attempt h.oneOpen opening).passes h.unset
  have hiff : (down = true → ¬(s.isWsConnected = false ∧ s.isWsConnecting = false ∧ s.Opens opening)) ↔
      (down = true → ¬s.Opens opening) := by
    refine forall_congr' fun hdown => not_congr ?_
    obtain ⟨-, hunconnected, hunconnecting⟩ := h.unset hdown
    simp only [hunconnected, hunconnecting, true_and]
  rwa [hiff] at houtcome

theorem ensureConnected_outcome (h : s.WellKept down) (client : ℕ) (opening : ChannelOpening) :
    Outcome down True (s.ensureConnected (some client) opening) := by
  have hremembered : ({ s with lastClient := some client } : ChatSocket α).OneOpen := h.oneOpen
  exact (ensureOpen_attempt hremembered opening).called

theorem disconnectWebSocket_outcome (h : s.WellKept down) : Outcome down True s.disconnectWebSocket := by
  have hclosed := oneOpen_of_closed (s := s.disconnectWebSocket.1) h.oneOpen.closeCurrent
  exact ⟨iff_of_true ⟨trivial, trivial⟩ trivial, hclosed, fun _ => ⟨hclosed, fun _ => ⟨rfl, rfl, rfl⟩⟩⟩

theorem sendWs_outcome (h : s.WellKept down) (encoded : String) (throws : Bool) (opening : ChannelOpening) :
    Outcome down (down = true → ¬s.Opens opening) (s.sendWs encoded throws opening) := by
  unfold sendWs
  split
  · rename_i id _ hconnected
    -- A connected socket is not down.
    have hup : down = false := by
      cases down with
      | false => rfl
      | true => cases (h.unset rfl).2.1.symm.trans hconnected
    subst hup
    split
    · have hqueued : (({ s with isWsConnected := false } : ChatSocket α).queue encoded).WellKept false :=
        ⟨h.oneOpen, nofun⟩
      have houtcome := ensureOpen_outcome hqueued opening
      exact ⟨iff_of_true ⟨trivial, houtcome.accepts.mpr nofun⟩ nofun, houtcome.oneOpen,
        fun _ => houtcome.kept nofun⟩
    · exact ⟨iff_of_true ⟨trivial, trivial⟩ nofun, h.oneOpen, fun _ => h⟩
  · have hqueued : (s.queue encoded).WellKept down := ⟨h.oneOpen, h.unset⟩
    exact ensureOpen_outcome hqueued opening

theorem WellKept.up (h : s.WellKept down) (hcurrent : s.wsChannel = some id) : down = false := by
  cases down with
  | false => rfl
  | true => cases hcurrent.symm.trans (h.unset rfl).1

theorem accepts_added (down : Bool) (id : ℕ) : ∀ raws : List String,
    socketDown.AcceptsFrom down (raws.map (.added id)) ∧ (raws.map (.added id)).foldl socketDown.next down = down
  | [] => ⟨trivial, rfl⟩
  | _ :: raws => ⟨⟨trivial, (accepts_added down id raws).1⟩, (accepts_added down id raws).2⟩

theorem onReady_outcome (h : s.WellKept down) (id : ℕ) : Outcome down True (s.onReady id) := by
  unfold onReady
  split
  · rename_i hcurrent
    obtain ⟨haccepted, hsame⟩ := accepts_added down id s.pendingOutgoingWs
    refine ⟨iff_of_true haccepted trivial, h.oneOpen, fun _ => ⟨h.oneOpen, ?_⟩⟩
    rw [hsame, h.up hcurrent]
    exact nofun
  · exact h.silent

theorem onLost_outcome (h : s.WellKept down) (id : ℕ) : Outcome down True (s.onLost id, []) := by
  unfold onLost
  split
  · rename_i hcurrent
    have hlost : s.lost.WellKept down := by
      refine ⟨h.oneOpen, ?_⟩
      rw [h.up hcurrent]
      exact nofun
    exact hlost.silent
  · exact h.silent

theorem WellKept.withChannel {f : SocketChannel → SocketChannel} (h : s.WellKept down)
    (hid : ∀ c, (f c).id = c.id) (hf : ∀ c, (f c).isOpen = true → c.isOpen = true) :
    (s.withChannel id f).WellKept down :=
  ⟨h.oneOpen.withChannel hid hf, h.unset⟩

theorem lawful_of_method {condition : Prop} (hstep : s.step onData a = some r)
    (hmethod : a.channel? = none) (h : Outcome (socketDown.after es) condition r) :
    s.Lawful onData es a ↔ condition := by
  constructor
  · exact fun hlawful => h.accepts.mp (hlawful r.1 r.2 hstep).1
  · intro hcondition t fs hstep'
    cases hstep.symm.trans hstep'
    exact ⟨h.accepts.mpr hcondition, h.oneOpen, fun id hid => absurd (hmethod.symm.trans hid) nofun⟩

theorem lawful_of_callback (hstep : s.step onData a = some r) (hchannel : a.channel? = some id)
    (h : Outcome (socketDown.after es) True r) :
    s.Lawful onData es a ↔ (s.wsChannel ≠ some id → r.1.toSocketFields = s.toSocketFields ∧ r.2 = []) := by
  constructor
  · exact fun hlawful => (hlawful r.1 r.2 hstep).2.2 id hchannel
  · intro hstale t fs hstep'
    cases hstep.symm.trans hstep'
    refine ⟨h.accepts.mpr trivial, h.oneOpen, fun id' hid' => ?_⟩
    cases hchannel.symm.trans hid'
    exact hstale

theorem lawful_of_none (h : s.step onData a = none) : s.Lawful onData es a :=
  fun _ _ hstep => absurd (h.symm.trans hstep) nofun

theorem onReady_stale (h : s.wsChannel ≠ some id) : s.onReady id = (s, []) := if_neg h

theorem onLost_stale (h : s.wsChannel ≠ some id) : s.onLost id = s := if_neg h

theorem step_of_callback (p : SocketChannel → Bool) (r : ChatSocket α × List SocketOutput)
    (hstep : s.step onData a = (do let c ← s.channelOf id; guard (p c); return r)) :
    (¬(∃ c, s.channelOf id = some c ∧ p c = true) ∧ s.step onData a = none) ∨
      (∃ c, s.channelOf id = some c ∧ p c = true) ∧ s.step onData a = some r := by
  rw [hstep]
  cases hc : s.channelOf id with
  | none => exact .inl ⟨by rintro ⟨c, hc', -⟩; exact absurd hc' nofun, rfl⟩
  | some c =>
    cases hp : p c with
    | false =>
      refine .inl ⟨fun ⟨c', hc', hp'⟩ => ?_, by simp [hp]⟩
      cases hc'
      exact Bool.false_ne_true (hp.symm.trans hp')
    | true => exact .inr ⟨⟨c, rfl, hp⟩, by simp [hp]⟩

/-- A step is lawful exactly when the socket is left alone, and then keeps the invariant. -/
def Obeys (onData : α → β → α) (s : ChatSocket α) (es : List SocketOutput) (a : SocketAction β) : Prop :=
  (s.Lawful onData es a ↔ s.LeftAlone onData es a) ∧
    ∀ t fs, s.LeftAlone onData es a → s.step onData a = some (t, fs) → t.WellKept (socketDown.after (es ++ fs))

theorem Outcome.after {a : SocketAction β} {r : ChatSocket α × List SocketOutput} {condition : Prop}
    (h : Outcome (socketDown.after es) condition r) (hstep : s.step onData a = some r) (hcondition : condition)
    {t : ChatSocket α} {fs : List SocketOutput} (hstep' : s.step onData a = some (t, fs)) :
    t.WellKept (socketDown.after (es ++ fs)) := by
  cases hstep.symm.trans hstep'
  rw [socketDown.after_append]
  exact h.kept hcondition

theorem obeys_of_method (hstep : s.step onData a = some r) (hmethod : a.channel? = none)
    (h : Outcome (socketDown.after es) (s.LeftAlone onData es a) r) : s.Obeys onData es a :=
  ⟨lawful_of_method hstep hmethod h, fun _ _ hleft hstep' => h.after hstep hleft hstep'⟩

theorem obeys_of_callback (p : SocketChannel → Bool)
    (hstep : s.step onData a = (do let c ← s.channelOf id; guard (p c); return r))
    (hchannel : a.channel? = some id) (h : Outcome (socketDown.after es) True r)
    (hstale : s.wsChannel ≠ some id → r.1.toSocketFields = s.toSocketFields ∧ r.2 = [])
    (hleft : s.LeftAlone onData es a) : s.Obeys onData es a := by
  rcases step_of_callback p r hstep with ⟨-, hnone⟩ | ⟨-, hsome⟩
  · exact ⟨iff_of_true (lawful_of_none hnone) hleft, fun t fs _ hstep' => absurd (hnone.symm.trans hstep') nofun⟩
  · exact ⟨iff_of_true ((lawful_of_callback hsome hchannel h).mpr hstale) hleft,
      fun t fs _ hstep' => h.after hsome trivial hstep'⟩

theorem onData_obeys (h : s.WellKept (socketDown.after es)) (id : ℕ) (data : β) :
    s.Obeys onData es (.data id data) := by
  let r : ChatSocket α × List SocketOutput := ({ s with app := onData s.app data }, [])
  have houtcome : Outcome (socketDown.after es) True r := WellKept.silent ⟨h.oneOpen, h.unset⟩
  have hstep : s.step onData (.data id data) = (do let c ← s.channelOf id; guard c.listening; return r) := rfl
  have hsame : (r.1.toSocketFields = s.toSocketFields ∧ r.2 = []) ↔ onData s.app data = s.app := by
    constructor
    · exact fun hfields => congrArg SocketFields.app hfields.1
    · intro happ
      refine ⟨?_, rfl⟩
      show { s.toSocketFields with app := onData s.app data } = s.toSocketFields
      rw [happ]
  rcases step_of_callback (·.listening) r hstep with ⟨hdeaf, hnone⟩ | ⟨hlistens, hsome⟩
  · refine ⟨iff_of_true (lawful_of_none hnone) fun hlistens => absurd hlistens hdeaf, fun t fs _ hstep' => ?_⟩
    cases hnone.symm.trans hstep'
  · refine ⟨?_, fun t fs _ hstep' => houtcome.after hsome trivial hstep'⟩
    rw [lawful_of_callback hsome rfl houtcome, hsame]
    exact ⟨fun hstale _ => hstale, fun hleft => hleft hlistens⟩

/-- Every step obeys the laws of the socket. -/
theorem step_obeys (h : s.WellKept (socketDown.after es)) (a : SocketAction β) : s.Obeys onData es a := by
  cases a with
  | connectWebSocket client force opening =>
    have houtcome := connectWebSocket_outcome h client force opening
    exact obeys_of_method rfl rfl houtcome
  | ensureConnected client opening =>
    cases client with
    | none => exact obeys_of_method rfl rfl (ensureOpen_outcome h opening)
    | some c => exact obeys_of_method rfl rfl (ensureConnected_outcome h c opening)
  | disconnectWebSocket => exact obeys_of_method rfl rfl (disconnectWebSocket_outcome h)
  | sendWs encoded throws opening => exact obeys_of_method rfl rfl (sendWs_outcome h encoded throws opening)
  | ready id =>
    have hheard : (s.withChannel id fun c => { c with readyPending := false }).WellKept (socketDown.after es) :=
      h.withChannel (fun _ => rfl) fun _ hopen => hopen
    have houtcome := onReady_outcome hheard id
    refine obeys_of_callback (·.readyPending) rfl rfl houtcome (fun hother => ?_) trivial
    rw [onReady_stale (s := s.withChannel id _) hother]
    exact ⟨rfl, rfl⟩
  | readyFailed id =>
    have hheard : (s.withChannel id fun c => { c with readyPending := false }).WellKept (socketDown.after es) :=
      h.withChannel (fun _ => rfl) fun _ hopen => hopen
    have houtcome := onLost_outcome hheard id
    refine obeys_of_callback (·.readyPending) rfl rfl houtcome (fun hother => ?_) trivial
    rw [onLost_stale (s := s.withChannel id _) hother]
    exact ⟨rfl, rfl⟩
  | data id data => exact onData_obeys h id data
  | error id =>
    have hheard : (s.withChannel id fun c => { c with listening := false }).WellKept (socketDown.after es) :=
      h.withChannel (fun _ => rfl) fun _ hopen => hopen
    have houtcome := onLost_outcome hheard id
    refine obeys_of_callback (·.listening) rfl rfl houtcome (fun hother => ?_) trivial
    rw [onLost_stale (s := s.withChannel id _) hother]
    exact ⟨rfl, rfl⟩
  | done id =>
    have hheard : (s.withChannel id fun c => { c with listening := false, isOpen := false }).WellKept
        (socketDown.after es) :=
      h.withChannel (fun _ => rfl) fun _ hopen => nomatch hopen
    have houtcome := onLost_outcome hheard id
    refine obeys_of_callback (·.listening) rfl rfl houtcome (fun hother => ?_) trivial
    rw [onLost_stale (s := s.withChannel id _) hother]
    exact ⟨rfl, rfl⟩
  | reconnectTimer opening =>
    have hstep : s.step onData (.reconnectTimer opening) =
        (do guard s.reconnectTimer; return s.connectWsInternal opening) := rfl
    cases harmed : s.reconnectTimer with
    | false =>
      rw [harmed] at hstep
      refine ⟨iff_of_true (lawful_of_none hstep) fun harmed' => ?_, fun t fs _ hstep' => ?_⟩
      · cases harmed.symm.trans harmed'
      · cases hstep.symm.trans hstep'
    | true =>
      rw [harmed] at hstep
      have houtcome := (connectWsInternal_attempt h.oneOpen opening).passes h.unset
      have hiff : s.LeftAlone onData es (.reconnectTimer opening) ↔
        (socketDown.after es = true → ¬s.Opens opening) :=
        ⟨fun hleft => hleft harmed, fun hleft _ => hleft⟩
      rw [← hiff] at houtcome
      exact obeys_of_method hstep rfl houtcome
  | setClient =>
    exact obeys_of_method rfl rfl (WellKept.silent ⟨h.oneOpen, h.unset⟩)

end ChatSocket

/-- The socket before anything is called. -/
def startSocket (clients : ℕ → ApiClient) (app : α) : ChatSocket α := { clients, app }

/-- Over every run of the socket, with its methods, timers and the callbacks of all its channels in any order:
every step keeps the laws exactly when every step leaves alone the socket that is down, and brings no data of
a channel that is no longer current. -/
theorem socket_stays_down_iff (onData : α → β → α) (clients : ℕ → ApiClient) (app : α)
    (as : List (SocketAction β)) :
    (chatSocket onData).Every (ChatSocket.Lawful onData) (startSocket clients app) [] as ↔
      (chatSocket onData).Every (ChatSocket.LeftAlone onData) (startSocket clients app) [] as := by
  refine Machine.every_iff (fun (s : ChatSocket α) es => s.WellKept (socketDown.after es)) ?_ ?_ as _ _ ?_
  · exact fun s es a t fs h hleft hstep => (ChatSocket.step_obeys h a).2 t fs hleft hstep
  · exact fun s es a h => (ChatSocket.step_obeys h a).1
  · exact ⟨fun c hc => absurd hc List.not_mem_nil, nofun⟩

/-- A signal that is sent after the logout opens a connection with the client that is remembered. -/
theorem signal_after_logout_connects :
    ¬∀ (clients : ℕ → ApiClient) (app : ChatLists) (as : List (SocketAction SocketEvent)),
      (chatSocket fun lists event => (lists.onWebSocketEvent event).1).Every
        (ChatSocket.Lawful fun lists event => (lists.onWebSocketEvent event).1)
        (startSocket clients app) [] as := by
  intro h
  let onData : ChatLists → SocketEvent → ChatLists := fun lists event => (lists.onWebSocketEvent event).1
  let clients : ℕ → ApiClient := fun _ => ⟨"https://h", some "t"⟩
  let as : List (SocketAction SocketEvent) := [.connectWebSocket 0 false .opened, .ready 0, .disconnectWebSocket]
  have hcheck : ((chatSocket onData).exec (fun _ _ _ => true) (startSocket clients {}) [] as).any (fun r =>
      socketDown.after r.2 && (r.1.step onData (.sendWs "hangup" false .opened)).any
        fun out => out.2 = [.opened 1 "wss://h" "t"]) = true := by
    decide +kernel
  obtain ⟨s, es, hpath, hs⟩ := Machine.path_of_check hcheck
  obtain ⟨hdown, hopens⟩ := (Bool.and_eq_true_iff ..).mp hs
  obtain ⟨out, hout, hopened⟩ := (Option.any_eq_true ..).mp hopens
  have hlawful : s.Lawful onData es (.sendWs "hangup" false .opened) := (h clients {} (as ++ [_])).good hpath
  have haccepted := (hlawful out.1 out.2 hout).1
  rw [of_decide_eq_true hopened] at haccepted
  have hup : socketDown.after es = false := haccepted.1
  exact Bool.false_ne_true (hup.symm.trans hdown)

end LigamentApps.ChatService
