import LigamentApps.WebSocketService.Connection

/-!
# The laws of the connection

What holds over every run of the WebSocket service: the current channel is the only open one, the callbacks of
the others change nothing of the connection, a stopped service stays stopped, and one reconnect timer at most
is armed. -/

namespace LigamentApps.WebSocketService

open List

variable {schemeOf : String → Option String} {s : State}

variable {f : Channel → Channel} {c : Channel} {id : ℕ}

/-! ## What a run keeps -/

def State.OpenOnly (s : State) (current : Option ℕ) : Prop :=
  ∀ c ∈ s.channels, c.isOpen = true → current = some c.id

/-- The invariant: the open channel is the current one, and the armed timer is the one that the service
knows. -/
structure State.WellKept (s : State) : Prop where
  openOnly : s.OpenOnly s.channel
  referenced : ∀ timer ∈ s.armed, s.reconnectTimer = some timer.id
  oneArmed : s.armed.length ≤ 1

/-- The service makes no reconnects. -/
def State.isStopped (s : State) : Bool := s.disposed || s.authFailed

/-- After `disconnect` and after a rejection nothing is tried, nor scheduled, before the next `connect`. -/
def reconnects : Monitor Bool Event where
  start := false
  next stopped := fun
    | .connect => false
    | .disconnect | .onUnauthorized => true
    | _ => stopped
  Ok stopped := fun
    | .attempt | .scheduled _ => stopped = false
    | _ => True

/-- What a part of a step does keeps the connection, and the service stopped where it is. -/
structure Follows (stopped : Bool) (r : State × List Event) : Prop where
  kept : r.1.WellKept
  accepted : reconnects.AcceptsFrom stopped r.2
  stops : r.2.foldl reconnects.next stopped = true → r.1.isStopped = true

/-- The channel whose callback an action is. -/
def Action.channel? : Action → Option ℕ
  | .ready id _ | .handshakeFailed id _ _ | .message id | .done id _ | .error id _ _ => some id
  | _ => none

/-- The connection is as before, and so is the pending reconnect. -/
structure State.Unaffected (t s : State) : Prop where
  isConnected : t.isConnected = s.isConnected
  channel : t.channel = s.channel
  reconnectTimer : t.reconnectTimer = s.reconnectTimer
  armed : t.armed = s.armed

/-! ## Channels and timers -/

theorem openOnly_withChannel {current : Option ℕ} (h : s.OpenOnly current) (hid : ∀ c, (f c).id = c.id)
    (hf : ∀ c, (f c).isOpen = true → c.isOpen = true) : (s.withChannel id f).OpenOnly current := by
  intro c hc hopen
  obtain ⟨c', hc', rfl⟩ := mem_map.mp hc
  by_cases hsame : c'.id = id
  · rw [if_pos hsame] at hopen ⊢
    rw [hid]
    exact h c' hc' (hf c' hopen)
  · rw [if_neg hsame] at hopen ⊢
    exact h c' hc' hopen

theorem openOnly_close (h : s.OpenOnly (some id)) (hf : ∀ c, (f c).isOpen = false) :
    (s.withChannel id f).OpenOnly none := by
  intro c hc hopen
  obtain ⟨c', hc', rfl⟩ := mem_map.mp hc
  by_cases hsame : c'.id = id
  · rw [if_pos hsame, hf] at hopen
    cases hopen
  · rw [if_neg hsame] at hopen
    have hcurrent := h c' hc' hopen
    exact absurd (Option.some.inj hcurrent).symm hsame

theorem State.WellKept.withChannel (h : s.WellKept) (hid : ∀ c, (f c).id = c.id)
    (hf : ∀ c, (f c).isOpen = true → c.isOpen = true) : (s.withChannel id f).WellKept :=
  ⟨openOnly_withChannel h.openOnly hid hf, h.referenced, h.oneArmed⟩

theorem State.WellKept.cancelled (h : s.WellKept) : s.cancelReconnect.armed = [] := by
  refine filter_eq_nil_iff.mpr fun timer htimer => ?_
  rw [h.referenced timer htimer]
  simp

theorem State.WellKept.cancelReconnect (h : s.WellKept) : s.cancelReconnect.WellKept := by
  refine ⟨h.openOnly, ?_, ?_⟩
  · rw [h.cancelled]
    exact fun timer htimer => absurd htimer not_mem_nil
  · rw [h.cancelled]
    exact Nat.zero_le 1

theorem closeCurrentChannel_channel : s.closeCurrentChannel.channel = none := rfl

theorem State.WellKept.closeCurrentChannel (h : s.WellKept) : s.closeCurrentChannel.WellKept := by
  unfold State.closeCurrentChannel
  cases hchannel : s.channel with
  | none =>
    have hopen : s.OpenOnly none := hchannel ▸ h.openOnly
    exact ⟨hopen, h.referenced, h.oneArmed⟩
  | some previous =>
    have hopen : s.OpenOnly (some previous) := hchannel ▸ h.openOnly
    exact ⟨openOnly_close hopen fun _ => rfl, h.referenced, h.oneArmed⟩

variable {stopped : Bool}

theorem follows_nil (h : s.WellKept) (hstopped : stopped = true → s.isStopped = true) : Follows stopped (s, []) :=
  ⟨h, trivial, hstopped⟩

theorem Follows.cons {e : Event} {r : State × List Event} (h : Follows stopped r) (hok : reconnects.Ok stopped e)
    (hnext : reconnects.next stopped e = stopped) : Follows stopped (r.1, e :: r.2) := by
  refine ⟨h.kept, ⟨hok, ?_⟩, ?_⟩
  · rw [hnext]
    exact h.accepted
  · rw [foldl_cons, hnext]
    exact h.stops

theorem scheduleReconnect_follows (h : s.WellKept) (hstopped : stopped = true → s.isStopped = true)
    (b : Bool) : Follows stopped (s.scheduleReconnect b) := by
  unfold State.scheduleReconnect
  split
  · exact follows_nil h hstopped
  · rename_i hnot
    have hgoes : stopped = false := by
      cases stopped with
      | false => rfl
      | true => exact absurd (hstopped rfl) hnot
    refine ⟨⟨h.openOnly, ?_, ?_⟩, ⟨hgoes, trivial⟩, ?_⟩
    · intro timer htimer
      rw [h.cancelled] at htimer
      obtain rfl := mem_singleton.mp htimer
      rfl
    · rw [h.cancelled]
      exact Nat.le_refl 1
    · intro hstops
      exact absurd (show stopped = true from hstops) (by rw [hgoes]; exact Bool.false_ne_true)

theorem handleUnauthorized_follows (h : s.WellKept) (hopen : s.OpenOnly none) :
    Follows stopped s.handleUnauthorized := by
  refine ⟨⟨hopen, h.cancelReconnect.referenced, h.cancelReconnect.oneArmed⟩, ⟨trivial, trivial⟩, fun _ => ?_⟩
  exact Bool.or_true _

theorem afterLoss_follows (h : s.WellKept) (hstopped : stopped = true → s.isStopped = true)
    (hnone : s.channel = none) (unauthorized advanceCandidate throws : Bool) :
    Follows stopped (s.afterLoss unauthorized advanceCandidate throws) := by
  have hopen : s.OpenOnly none := hnone ▸ h.openOnly
  unfold State.afterLoss
  split
  · exact (follows_nil h hstopped).cons trivial rfl
  · refine .cons ?_ trivial rfl
    split
    · exact handleUnauthorized_follows h hopen
    · exact scheduleReconnect_follows h hstopped _

theorem openChannel_follows (h : s.WellKept) (hstopped : stopped = true → s.isStopped = true) (targetUrl : String)
    (isRelay : Bool) (opening : Opening) : Follows stopped (s.openChannel targetUrl isRelay opening) := by
  have hclosed := h.closeCurrentChannel
  have hstoppedClosed : stopped = true → s.closeCurrentChannel.isStopped = true := by
    intro hstop
    unfold State.closeCurrentChannel State.isStopped
    cases s.channel with
    | none | some => exact hstopped hstop
  -- The new channel is the only open one, since the one before was closed.
  have hnew : ∀ c : Channel, ∀ d ∈ s.closeCurrentChannel.channels ++ [c], d.isOpen = true →
      some c.id = some d.id := by
    intro c d hd hdopen
    obtain hd | hd := mem_append.mp hd
    · have hnone := hclosed.openOnly d hd hdopen
      rw [closeCurrentChannel_channel] at hnone
      simp at hnone
    · rw [mem_singleton.mp hd]
  unfold State.openChannel
  cases opening with
  | throws => exact scheduleReconnect_follows hclosed hstoppedClosed true
  | opened =>
    refine .cons (r := (_, [])) (follows_nil ⟨?_, hclosed.referenced, hclosed.oneArmed⟩ ?_) trivial rfl
    · exact hnew _
    · exact hstoppedClosed
  | listenThrows =>
    refine .cons (scheduleReconnect_follows ?_ ?_ true) trivial rfl
    · exact ⟨hnew _, hclosed.referenced, hclosed.oneArmed⟩
    · exact hstoppedClosed

theorem connectCandidate_follows (h : s.WellKept) (hstopped : stopped = true → s.isStopped = true)
    (expectedGeneration : Option ℕ) (opening : Opening) :
    Follows stopped (s.connectCandidate schemeOf expectedGeneration opening) := by
  unfold State.connectCandidate
  split
  · split
    · exact follows_nil h hstopped
    · rename_i hnot
      have hgoes : stopped = false := by
        cases stopped with
        | false => rfl
        | true =>
          have hstop := hstopped rfl
          unfold State.isStopped at hstop
          rw [hstop] at hnot
          exact absurd rfl hnot
      refine .cons ?_ hgoes rfl
      unfold State.tryCandidate
      split
      · split
        · exact openChannel_follows h hstopped _ _ _
        · exact scheduleReconnect_follows h hstopped _
      · exact scheduleReconnect_follows h hstopped _
  · exact follows_nil h hstopped

theorem connect_follows (h : s.WellKept) (baseUrl token : String) (fallbackUrls : List String)
    (opening : Opening) : Follows stopped (s.connect schemeOf baseUrl token fallbackUrls opening) := by
  have hfresh : (s.forServer baseUrl token fallbackUrls).WellKept := by
    have hclosed := h.closeCurrentChannel.cancelReconnect
    exact ⟨hclosed.openOnly, hclosed.referenced, hclosed.oneArmed⟩
  have hrest : Follows false ((s.forServer baseUrl token fallbackUrls).connectCandidate schemeOf none opening) :=
    connectCandidate_follows hfresh (fun hstop => absurd hstop Bool.false_ne_true) none opening
  exact ⟨hrest.kept, ⟨trivial, hrest.accepted⟩, hrest.stops⟩

theorem disconnect_follows (h : s.WellKept) : Follows stopped s.disconnect := by
  have hclosed := h.cancelReconnect.closeCurrentChannel
  exact ⟨⟨hclosed.openOnly, hclosed.referenced, hclosed.oneArmed⟩, ⟨trivial, trivial⟩, fun _ => rfl⟩

/-! ## The callbacks of channels -/

theorem dropChannel_kept (h : s.WellKept) (hcurrent : s.channel = some id)
    (hf : ∀ c, (f c).isOpen = false) : (s.dropChannel.withChannel id f).WellKept := by
  have hopen : s.OpenOnly (some id) := hcurrent ▸ h.openOnly
  exact ⟨openOnly_close hopen hf, h.referenced, h.oneArmed⟩

theorem channel_of_isCurrent (h : s.isCurrent c = true) : s.channel = some c.id := by
  unfold State.isCurrent at h
  rw [Bool.and_eq_true] at h
  exact beq_iff_eq.mp h.2

theorem onHandshakeFailed_follows (h : s.WellKept) (hstopped : stopped = true → s.isStopped = true)
    (error : String) (throws : Bool) : Follows stopped (s.onHandshakeFailed c error throws) := by
  unfold State.onHandshakeFailed
  split
  · rename_i hcurrent
    exact afterLoss_follows (dropChannel_kept h (channel_of_isCurrent hcurrent) fun _ => rfl) hstopped rfl _ _ _
  · exact follows_nil h hstopped

theorem onReady_follows (h : s.WellKept) (hstopped : stopped = true → s.isStopped = true)
    (thrown : Option (String × Bool)) : Follows stopped (s.onReady c thrown) := by
  unfold State.onReady
  split
  · have hconnected : State.WellKept { s with
        wasReady := true, backoff := s.backoff.reset, stableResetTimer := some (c.generation, c.id),
        currentEndpoint := some c.targetUrl, isUsingRelay := c.isRelay } :=
      ⟨h.openOnly, h.referenced, h.oneArmed⟩
    cases thrown with
    | none =>
      have hnil := follows_nil hconnected hstopped
      exact (hnil.cons (e := .onConnected) trivial rfl).cons trivial rfl
    | some => exact (onHandshakeFailed_follows hconnected hstopped _ _).cons trivial rfl
  · exact follows_nil h hstopped

theorem onError_follows (h : s.WellKept) (hstopped : stopped = true → s.isStopped = true) (error : String)
    (throws : Bool) : Follows stopped (s.onError c error throws) := by
  unfold State.onError
  split
  · rename_i hcurrent
    exact afterLoss_follows (dropChannel_kept h (channel_of_isCurrent hcurrent) fun _ => rfl) hstopped rfl _ _ _
  · exact follows_nil h hstopped

theorem onDone_follows (h : s.WellKept) (hid : c.id = id) (hstopped : stopped = true → s.isStopped = true)
    (throws : Bool) :
    Follows stopped ((s.withChannel id fun c => { c with listening := false, isOpen := false }).onDone c throws) := by
  unfold State.onDone
  split
  · rename_i hcurrent
    have hchannel : s.channel = some id := hid ▸ channel_of_isCurrent hcurrent
    have hkept := dropChannel_kept (f := fun c => { c with listening := false, isOpen := false }) h hchannel
      fun _ => rfl
    exact afterLoss_follows hkept hstopped rfl _ _ _
  · refine follows_nil (h.withChannel (fun _ => rfl) fun c hopen => ?_) hstopped
    cases hopen

theorem onReconnectTimer_follows (h : s.WellKept) (hstopped : stopped = true → s.isStopped = true)
    (timer : ReconnectTimer) (opening : Opening) : Follows stopped (s.onReconnectTimer schemeOf timer opening) := by
  have hfired : State.WellKept { s with armed := s.armed.filter (·.id ≠ timer.id) } := by
    refine ⟨h.openOnly, fun t ht => h.referenced t (mem_filter.mp ht).1, ?_⟩
    exact Nat.le_trans (length_filter_le _ _) h.oneArmed
  unfold State.onReconnectTimer
  split
  · exact connectCandidate_follows hfired hstopped _ _
  · exact follows_nil hfired hstopped

theorem channelOf_id (h : s.channelOf id = some c) : c.id = id := by
  have hfound := find?_some h
  exact beq_iff_eq.mp hfound

theorem step_follows {a : Action} {t : State} {fs : List Event} (h : s.WellKept)
    (hstopped : stopped = true → s.isStopped = true) (hstep : step schemeOf s a = some (t, fs)) :
    Follows stopped (t, fs) := by
  cases a with
  | connect baseUrl token fallbackUrls opening =>
    rw [← Option.some.inj hstep]
    exact connect_follows h baseUrl token fallbackUrls opening
  | disconnect =>
    rw [← Option.some.inj hstep]
    exact disconnect_follows h
  | ready _ thrown =>
    obtain ⟨c, hc, -, hr⟩ := guarded_eq_some hstep
    rw [← hr]
    exact onReady_follows (h.withChannel (f := fun c => { c with readyPending := false }) (fun _ => rfl)
      fun _ hopen => hopen) hstopped thrown
  | handshakeFailed _ error throws =>
    obtain ⟨c, hc, -, hr⟩ := guarded_eq_some hstep
    rw [← hr]
    exact onHandshakeFailed_follows (h.withChannel (f := fun c => { c with readyPending := false })
      (fun _ => rfl) fun _ hopen => hopen) hstopped error throws
  | message =>
    obtain ⟨c, hc, -, hr⟩ := guarded_eq_some hstep
    rw [← hr]
    have hnil := follows_nil h hstopped
    split
    · exact hnil.cons trivial rfl
    · exact hnil
  | done _ throws =>
    obtain ⟨c, hc, -, hr⟩ := guarded_eq_some hstep
    rw [← hr]
    exact onDone_follows h (channelOf_id hc) hstopped throws
  | error _ error throws =>
    obtain ⟨c, hc, -, hr⟩ := guarded_eq_some hstep
    rw [← hr]
    exact onError_follows (h.withChannel (f := fun c => { c with listening := false }) (fun _ => rfl)
      fun _ hopen => hopen) hstopped error throws
  | reconnectTimer _ opening =>
    obtain ⟨timer, -, hr⟩ := Option.bind_eq_some_iff.mp hstep
    have hpair : s.onReconnectTimer schemeOf timer opening = (t, fs) := Option.some.inj hr
    rw [← hpair]
    exact onReconnectTimer_follows h hstopped timer opening
  | stableResetTimer =>
    obtain ⟨captured, -, hr⟩ := Option.bind_eq_some_iff.mp hstep
    have hpair : (s.onStableReset captured, []) = (t, fs) := Option.some.inj hr
    rw [← hpair]
    unfold State.onStableReset
    split
    · exact follows_nil ⟨h.openOnly, h.referenced, h.oneArmed⟩ hstopped
    · exact follows_nil ⟨h.openOnly, h.referenced, h.oneArmed⟩ hstopped

theorem not_isCurrent (hid : c.id = id) (hother : s.channel ≠ some id) :
    ¬(s.withChannel id f).isCurrent c = true := by
  intro hcurrent
  have hchannel : s.channel = some c.id := channel_of_isCurrent hcurrent
  exact hother (hid ▸ hchannel)

theorem unaffected_of_other {a : Action} {t : State} {fs : List Event} (ha : a.channel? = some id)
    (hother : s.channel ≠ some id) (hstep : step schemeOf s a = some (t, fs)) : t.Unaffected s := by
  have hcases : ∃ f, t = s.withChannel id f ∨ t = s := by
    cases a with
    | ready =>
      cases ha
      obtain ⟨c, hc, -, hr⟩ := guarded_eq_some hstep
      have ht := congrArg Prod.fst hr
      unfold State.onReady at ht
      rw [if_neg (not_isCurrent (channelOf_id hc) hother)] at ht
      exact ⟨_, .inl ht.symm⟩
    | handshakeFailed =>
      cases ha
      obtain ⟨c, hc, -, hr⟩ := guarded_eq_some hstep
      have ht := congrArg Prod.fst hr
      unfold State.onHandshakeFailed at ht
      rw [if_neg (not_isCurrent (channelOf_id hc) hother)] at ht
      exact ⟨_, .inl ht.symm⟩
    | message =>
      obtain ⟨c, hc, -, hr⟩ := guarded_eq_some hstep
      have ht := congrArg Prod.fst hr
      exact ⟨fun c => c, .inr ht.symm⟩
    | done =>
      cases ha
      obtain ⟨c, hc, -, hr⟩ := guarded_eq_some hstep
      have ht := congrArg Prod.fst hr
      unfold State.onDone at ht
      rw [if_neg (not_isCurrent (channelOf_id hc) hother)] at ht
      exact ⟨_, .inl ht.symm⟩
    | error =>
      cases ha
      obtain ⟨c, hc, -, hr⟩ := guarded_eq_some hstep
      have ht := congrArg Prod.fst hr
      unfold State.onError at ht
      rw [if_neg (not_isCurrent (channelOf_id hc) hother)] at ht
      exact ⟨_, .inl ht.symm⟩
    | _ => simp [Action.channel?] at ha
  obtain ⟨f, rfl | rfl⟩ := hcases
  · exact ⟨rfl, rfl, rfl, rfl⟩
  · exact ⟨rfl, rfl, rfl, rfl⟩

/-- In every state that the service reaches the current channel is the only open one, the callbacks of the
others leave the connection and the pending reconnect alone, and one reconnect timer at most is armed; and a
service that was disconnected, or whose token was rejected, has tried and scheduled nothing before the next
`connect`. -/
theorem connection_laws {es : List Event} (h : (webSocketService schemeOf).Reach (fun _ _ _ => True) {} s es) :
    (∀ c ∈ s.channels, c.isOpen = true → s.channel = some c.id) ∧
    (∀ a id t fs, a.channel? = some id → s.channel ≠ some id → step schemeOf s a = some (t, fs) →
      t.Unaffected s) ∧
    reconnects.Accepts es ∧ s.armed.length ≤ 1 := by
  have hstart : State.WellKept {} := by
    refine ⟨fun c hc => absurd hc not_mem_nil, fun timer htimer => absurd htimer not_mem_nil, ?_⟩
    exact Nat.zero_le 1
  obtain ⟨haccepts, hkept, -⟩ := h.monitor_accepts reconnects
    (fun s _ stopped => s.WellKept ∧ (stopped = true → s.isStopped = true))
    ⟨hstart, nofun⟩ (by
      rintro s es a t fs ⟨hkept, hstopped⟩ - hstep
      have hfollows := step_follows hkept hstopped hstep
      exact ⟨hfollows.accepted, hfollows.kept, hfollows.stops⟩)
  exact ⟨hkept.openOnly, fun a id t fs ha hother hstep => unaffected_of_other ha hother hstep, haccepts,
    hkept.oneArmed⟩

/-- A connection is lost, the service reconnects, the old channel reports an error, and the service is
disconnected. -/
def lostAndFound : List Action :=
  [.connect "https://a" "t" [] .opened, .ready 0 none, .error 0 "reset" false, .reconnectTimer 0 .opened,
    .handshakeFailed 1 "timeout" false, .disconnect]

/-- The laws hold of a run in which a connection is lost and one fails. -/
theorem connection_laws_sample : ∃ s es,
    (webSocketService fun _ => some "wss").Reach (fun _ _ _ => True) {} s es ∧ Event.disconnect ∈ es ∧
    s.channels.length = 2 ∧ (∀ c ∈ s.channels, c.isOpen = true → s.channel = some c.id) ∧
    reconnects.Accepts es ∧ s.armed.length ≤ 1 := by
  have hrun : ((webSocketService fun _ => some "wss").exec (fun _ _ _ => true) {} [] lostAndFound).any
      (fun r => decide (.disconnect ∈ r.2 ∧ r.1.channels.length = 2)) = true := by decide +kernel
  obtain ⟨⟨s, es⟩, hexec, hshape⟩ := (Option.any_eq_true ..).mp hrun
  obtain ⟨hdisconnect, htwo⟩ := of_decide_eq_true hshape
  have hreach : (webSocketService fun _ => some "wss").Reach (fun _ _ _ => True) {} s es :=
    Machine.reach_of_exec (fun _ _ _ _ => trivial) hexec
  obtain ⟨hopen, -, haccepts, harmed⟩ := connection_laws hreach
  exact ⟨s, es, hreach, hdisconnect, htwo, hopen, haccepts, harmed⟩

end LigamentApps.WebSocketService
