import LigamentApps.LinkHost.ControlMessages

/-!
# The data channel of the Flutter worker

The peer with its data channel: every message is decoded and checked, and then `_executeInput` sees it. A text
that is typed by pasting waits for the clipboard, and a clipboard that is asked for has to be read, so that
the call to the injector or to the channel comes later. In every run, a message comes to the injector only
where it is one that may, and without control only the messages about screens, quality and chat do
anything. -/

namespace LigamentApps.LinkHost

open LinkHostRecorder List Option Bool

/-- What a peer with a data channel is made with. -/
structure ChannelSetup where
  peer : PeerSetup
  platform : Platform

/-- The peer with what its messages have left to be done. -/
structure ControlHost where
  peer : HostPeer
  started : Bool := false
  /-- The messages whose text is being written to the clipboard, to be pasted. -/
  pastes : List Json := []
  /-- The messages that wait for the clipboard to be read. -/
  clipboardReads : List Json := []

/-- What can be seen of the channel. -/
inductive ControlEvent
  /-- A ping is answered. -/
  | pong
  /-- A message makes a call. -/
  | calls (input : Json) (call : HostCall)

/-- What can happen to the peer and its channel. -/
inductive ControlAction
  | recorder (a : Action)
  | start (allowControl : Bool)
  /-- A message arrives, decoded unless it is binary or no JSON; `encodable` as in `observeControlInput`. -/
  | message (decoded : Option Json) (encodable : Bool)
  /-- The clipboard holds a text to be pasted, or does not take it. -/
  | pasted (index : ℕ) (ok : Bool)
  /-- The clipboard is read, or cannot be. -/
  | clipboardRead (index : ℕ) (text : Option String)
  | close

namespace ControlHost

variable (p : ChannelSetup) (s : ControlHost)

/-- `_executeInput`, with a message that has passed its gates. -/
def executed (input : Json) : ControlHost × List ControlEvent :=
  ({ s with
    pastes := if hasType input ["text_input"] && (pasteHotkey p.platform).isSome then s.pastes ++ [input] else s.pastes
    clipboardReads := if hasType input ["clipboard_get"] then s.clipboardReads ++ [input] else s.clipboardReads },
  (executeBranches p.platform p.peer.recorder.doubleText p.peer.policy input).map (.calls input))

def executeInput (input : Json) (encodable : Bool) : ControlHost × List ControlEvent :=
  if s.peer.blocks p.peer input then (s, [])
  else ({ s with peer := s.peer.observe p.peer input encodable } : ControlHost).executed p input

def onMessage (input : Json) (encodable : Bool) : ControlHost × List ControlEvent :=
  if s.peer.closed || !input.isObj then (s, [])
  else if hasType input ["ping"] then (s, [.pong])
  else if isValidInput p.peer.recorder.doubleText input then s.executeInput p input encodable
  else (s, [])

/-- `_handleTextInput` after the clipboard has the text. -/
def paste (input : Json) (ok : Bool) : List ControlEvent :=
  if ok then (pasteHotkey p.platform).toList.map fun hotkey => .calls input (.injector (.triggerHotkey hotkey))
  else []

/-- The answer to `clipboard_get`, once the clipboard is read. -/
def clipboardAnswer (input : Json) (text : Option String) : List ControlEvent :=
  match text with
  | some text =>
    if s.peer.closed || !p.peer.policy.allowClipboardOut || !s.peer.allowControl ||
      maxClipboardLength < utf16Length text
    then []
    else [.calls input (.sendControlJson (.obj [("type", .str "clipboard_data"), ("text", .str text)]))]
  | none => []

def step : ControlAction → Option (ControlHost × List ControlEvent)
  | .recorder a => (s.peer.step p.peer (.recorder a)).map fun (peer, _) => ({ s with peer }, [])
  | .start allowControl =>
    if s.started then none else some ({ s with peer := { s.peer with allowControl }, started := true }, [])
  | .message decoded encodes =>
    if s.started then
      match decoded with
      | some input => some (s.onMessage p input encodes)
      | none => some (s, [])
    else none
  | .pasted index ok => s.pastes[index]?.map fun input =>
    ({ s with pastes := s.pastes.eraseIdx index }, paste p input ok)
  | .clipboardRead index text => s.clipboardReads[index]?.map fun input =>
      ({ s with clipboardReads := s.clipboardReads.eraseIdx index }, s.clipboardAnswer p input text)
  | .close => some ({ s with peer := { s.peer with closed := true } }, [])

end ControlHost

/-- The peer with its channel as a machine. -/
def controlHost (p : ChannelSetup) : Machine ControlHost ControlAction ControlEvent := ⟨fun s a => s.step p a⟩

/-- A peer that was just made. -/
def ControlHost.create (clock : ℤ) (spool : LinkSpoolStorage) : ControlHost := { peer := .create clock spool }

/-- A message may come to the injector: it is a valid one, the policy allows it, and the recorder is ready for
it, which in a strict recording it is only with its first frame acknowledged. -/
structure InjectionAllowed (p : ChannelSetup) (s : ControlHost) (input : Json) : Prop where
  valid : isValidInput p.peer.recorder.doubleText input = true
  allowed : p.peer.policy.allows input s.peer.allowControl = true
  ready : recorderReady p.peer.recorder.config s.peer.recorder.firstFrameAcked = true

section Channel

variable {p : ChannelSetup} {s t : ControlHost} {a : ControlAction} {fs : List ControlEvent} {input : Json}
  {call : HostCall}

/-! ## Messages about screens, quality and chat -/

theorem not_injector_of_view (platform : Platform) (doubleText : ℚ → String) (policy : LinkSessionPolicy)
    (hview : hasType input viewTypes = true) (c : InjectorCall) :
    .injector c ∉ executeBranches platform doubleText policy input := by
  have hother : ∀ others : List String, (∀ type ∈ others, type ∉ viewTypes) → hasType input others = false :=
    fun others hdisjoint => not_hasType hdisjoint hview
  unfold executeBranches
  rw [hother ["mouse_move", "mouse_down", "mouse_up"] (by decide), hother ["wheel"] (by decide),
    hother ["key_down", "key_up"] (by decide), hother ["hotkey"] (by decide), hother ["text_input"] (by decide),
    hother ["reboot"] (by decide), hother ["block_input"] (by decide), hother ["clipboard_set"] (by decide)]
  simp only [false_eq_true, if_false]
  split
  · unfold executeChat
    split
    · simp
    · split
      · simp
      · simp
  split
  · simp
  split
  · split
    · simp
    · simp
  split
  · split
    · simp
    · simp [inputError]
  split
  · simp
  · simp

theorem InjectionAllowed.later (h : InjectionAllowed p s input)
    (hcontrol : t.peer.allowControl = s.peer.allowControl)
    (hfirst : s.peer.recorder.firstFrameAcked = true → t.peer.recorder.firstFrameAcked = true) :
    InjectionAllowed p t input := by
  refine ⟨h.valid, hcontrol ▸ h.allowed, ?_⟩
  have hready := h.ready
  unfold recorderReady at hready ⊢
  rw [or_eq_true] at hready ⊢
  exact hready.imp_right hfirst

theorem injectionAllowed_of_unblocked (hvalid : isValidInput p.peer.recorder.doubleText input = true)
    (hview : hasType input viewTypes = false) (hpasses : s.peer.blocks p.peer input = false) :
    InjectionAllowed p s input := by
  unfold HostPeer.blocks at hpasses
  rw [hview, or_eq_false_iff, or_eq_false_iff] at hpasses
  obtain ⟨⟨-, hallowed⟩, hready⟩ := hpasses
  rw [Bool.not_false, Bool.true_and] at hready
  exact ⟨hvalid, (not_eq_false' ..).mp hallowed, (not_eq_false' ..).mp hready⟩

theorem view_of_unblocked (hcontrol : s.peer.allowControl = false)
    (hpasses : s.peer.blocks p.peer input = false) : hasType input viewTypes = true := by
  unfold HostPeer.blocks at hpasses
  rw [or_eq_false_iff, or_eq_false_iff] at hpasses
  have hallowed := (not_eq_false' ..).mp hpasses.1.2
  rw [hcontrol] at hallowed
  exact LinkSessionPolicy.hasType_of_allows hallowed

theorem observe_keeps (s : HostPeer) (p : PeerSetup) (input : Json) (encodable : Bool) :
    (s.observe p input encodable).allowControl = s.allowControl ∧
      (s.recorder.firstFrameAcked = true → (s.observe p input encodable).recorder.firstFrameAcked = true) := by
  unfold HostPeer.observe
  split
  · have hstep : LinkHostRecorder.step p.recorder s.recorder (.observeControlInput input encodable) =
        some (s.recorder.observeControlInput p.recorder input encodable) := rfl
    exact ⟨rfl, step_keeps_firstFrame hstep⟩
  · exact ⟨rfl, id⟩

/-- What is left to be done for the messages is left only for those that may be injected. -/
structure Pending (p : ChannelSetup) (s : ControlHost) : Prop where
  pastes : ∀ input ∈ s.pastes, InjectionAllowed p s input ∧ hasType input viewTypes = false
  clipboardReads : ∀ input ∈ s.clipboardReads, s.peer.allowControl = true
  fresh : s.started = false → s.pastes = [] ∧ s.clipboardReads = []

theorem allowControl_of_allowed (h : InjectionAllowed p s input) (hview : hasType input viewTypes = false) :
    s.peer.allowControl = true := by
  by_contra hno
  rw [not_eq_true] at hno
  have hallowed := h.allowed
  rw [hno] at hallowed
  rw [LinkSessionPolicy.hasType_of_allows hallowed] at hview
  simp at hview

theorem Pending.later (h : Pending p s) (hcontrol : t.peer.allowControl = s.peer.allowControl)
    (hfirst : s.peer.recorder.firstFrameAcked = true → t.peer.recorder.firstFrameAcked = true)
    (hstarted : t.started = s.started) (hpastes : t.pastes ⊆ s.pastes)
    (hreads : t.clipboardReads ⊆ s.clipboardReads) :
    Pending p t where
  pastes := fun input hin =>
    ⟨(h.pastes input (hpastes hin)).1.later hcontrol hfirst, (h.pastes input (hpastes hin)).2⟩
  clipboardReads := fun input hin => hcontrol.trans (h.clipboardReads input (hreads hin))
  fresh := fun hno => by
    obtain ⟨hnoPastes, hnoReads⟩ := h.fresh (hstarted.symm.trans hno)
    rw [hnoPastes] at hpastes
    rw [hnoReads] at hreads
    exact ⟨subset_nil.mp hpastes, subset_nil.mp hreads⟩

theorem pending_executeInput (h : Pending p s) (hvalid : isValidInput p.peer.recorder.doubleText input = true)
    (hstarted : s.started = true) (encodable : Bool) : Pending p (s.executeInput p input encodable).1 := by
  unfold ControlHost.executeInput
  split
  · exact h
  · rename_i hpasses
    rw [not_eq_true] at hpasses
    obtain ⟨hcontrol, hfirst⟩ := observe_keeps s.peer p.peer input encodable
    have hnotView : ∀ types : List String, (∀ type ∈ viewTypes, type ∉ types) → hasType input types = true →
        hasType input viewTypes = false := fun types hdisjoint htype => not_hasType hdisjoint htype
    refine ⟨fun input' hin => ?_, fun input' hin => ?_, fun hno => absurd (hstarted.symm.trans hno) (by simp)⟩
    · have hold : ∀ input' ∈ s.pastes, InjectionAllowed p s input' ∧ hasType input' viewTypes = false := h.pastes
      have hnew : InjectionAllowed p s input' ∧ hasType input' viewTypes = false := by
        unfold ControlHost.executed at hin
        split at hin
        · rename_i htext
          rw [and_eq_true] at htext
          obtain hin | hin := mem_append.mp hin
          · exact hold input' hin
          · rw [mem_singleton.mp hin]
            have hview := hnotView ["text_input"] (by decide) htext.1
            exact ⟨injectionAllowed_of_unblocked hvalid hview hpasses, hview⟩
        · exact hold input' hin
      exact ⟨hnew.1.later hcontrol hfirst, hnew.2⟩
    · show (s.peer.observe p.peer input encodable).allowControl = true
      rw [hcontrol]
      unfold ControlHost.executed at hin
      dsimp only at hin
      split at hin
      · rename_i hclipboard
        obtain hin | hin := mem_append.mp hin
        · exact h.clipboardReads input' hin
        · have hview := hnotView ["clipboard_get"] (by decide) hclipboard
          exact allowControl_of_allowed (injectionAllowed_of_unblocked hvalid hview hpasses) hview
      · exact h.clipboardReads input' hin

theorem pending_step (h : Pending p s) (hstep : s.step p a = some (t, fs)) : Pending p t := by
  cases a with
  | recorder =>
    obtain ⟨⟨peer, es⟩, hpeer, hsame⟩ := map_eq_some_iff.mp hstep
    cases hsame
    unfold HostPeer.step at hpeer
    dsimp only at hpeer
    split at hpeer
    · obtain ⟨r, hr, hsame⟩ := map_eq_some_iff.mp hpeer
      cases hsame
      exact h.later rfl (step_keeps_firstFrame hr) rfl (fun _ => id) (fun _ => id)
    · simp at hpeer
  | start allowControl =>
    unfold ControlHost.step at hstep
    dsimp only at hstep
    split at hstep
    · simp at hstep
    · rename_i hno
      cases hstep
      obtain ⟨hpastes, hreads⟩ := h.fresh (eq_false_iff.mpr hno)
      refine ⟨fun input hin => ?_, fun input hin => ?_, nofun⟩
      · rw [show _ = [] from hpastes] at hin
        simp at hin
      · rw [show _ = [] from hreads] at hin
        simp at hin
  | message decoded encodable =>
    unfold ControlHost.step at hstep
    dsimp only at hstep
    split at hstep
    · rename_i hstarted
      split at hstep
      · rename_i input
        have ht : (s.onMessage p input encodable).1 = t := congrArg Prod.fst (Option.some.inj hstep)
        rw [← ht]
        unfold ControlHost.onMessage
        split
        · exact h
        split
        · exact h
        split
        · rename_i hvalid
          exact pending_executeInput h hvalid hstarted encodable
        · exact h
      · cases hstep
        exact h
    · simp at hstep
  | pasted =>
    obtain ⟨input, -, hsame⟩ := map_eq_some_iff.mp hstep
    cases hsame
    exact h.later rfl id rfl (eraseIdx_subset) (fun _ => id)
  | clipboardRead =>
    obtain ⟨input, -, hsame⟩ := map_eq_some_iff.mp hstep
    cases hsame
    exact h.later rfl id rfl (fun _ => id) (eraseIdx_subset)
  | close =>
    cases hstep
    exact h.later rfl id rfl (fun _ => id) (fun _ => id)

theorem pending_of_reach {clock : ℤ} {spool : LinkSpoolStorage} {es : List ControlEvent}
    (hrun : (controlHost p).Reach (fun _ _ _ => True) (.create clock spool) s es) : Pending p s :=
  hrun.invariant (fun s _ => Pending p s) ⟨by simp [ControlHost.create], by simp [ControlHost.create], fun _ =>
    ⟨rfl, rfl⟩⟩
    fun _ _ _ _ _ h _ hstep => pending_step h hstep

theorem of_message_calls {encodable : Bool} {input' : Json}
    (h : .calls input' call ∈ (s.onMessage p input encodable).2) :
    input' = input ∧ isValidInput p.peer.recorder.doubleText input = true ∧ s.peer.blocks p.peer input =
      false ∧ call ∈ executeBranches p.platform p.peer.recorder.doubleText p.peer.policy input := by
  unfold ControlHost.onMessage at h
  split at h
  · simp at h
  split at h
  · simp at h
  split at h
  · rename_i hvalid
    unfold ControlHost.executeInput at h
    split at h
    · simp at h
    · rename_i hpasses
      obtain ⟨call', hcall, hsame⟩ := List.mem_map.mp h
      cases hsame
      exact ⟨rfl, hvalid, eq_false_iff.mpr hpasses, hcall⟩
  · simp at h

theorem of_calls (h : Pending p s) (hstep : s.step p a = some (t, fs)) (hcall : .calls input call ∈ fs) :
    (isValidInput p.peer.recorder.doubleText input = true ∧ s.peer.blocks p.peer input = false ∧
      call ∈ executeBranches p.platform p.peer.recorder.doubleText p.peer.policy input) ∨
    (InjectionAllowed p s input ∧ hasType input viewTypes = false) ∨
    (s.peer.allowControl = true ∧ ∀ c, call ≠ .injector c) := by
  cases a with
  | recorder =>
    obtain ⟨⟨peer, es⟩, -, hsame⟩ := map_eq_some_iff.mp hstep
    cases hsame
    simp at hcall
  | start =>
    unfold ControlHost.step at hstep
    dsimp only at hstep
    split at hstep
    · simp at hstep
    · cases hstep
      simp at hcall
  | message decoded encodable =>
    unfold ControlHost.step at hstep
    dsimp only at hstep
    split at hstep
    · split at hstep
      · rename_i input'
        have hfs : (s.onMessage p input' encodable).2 = fs := congrArg Prod.snd (Option.some.inj hstep)
        rw [← hfs] at hcall
        obtain ⟨rfl, hvalid, hpasses, hin⟩ := of_message_calls hcall
        exact .inl ⟨hvalid, hpasses, hin⟩
      · cases hstep
        simp at hcall
    · simp at hstep
  | pasted =>
    obtain ⟨input', hinput, hsame⟩ := map_eq_some_iff.mp hstep
    cases hsame
    unfold ControlHost.paste at hcall
    split at hcall
    · obtain ⟨hotkey, -, hsame⟩ := List.mem_map.mp hcall
      cases hsame
      exact .inr (.inl (h.pastes _ (mem_of_getElem? hinput)))
    · simp at hcall
  | clipboardRead =>
    obtain ⟨input', hinput, hsame⟩ := map_eq_some_iff.mp hstep
    cases hsame
    refine .inr (.inr ⟨h.clipboardReads _ (mem_of_getElem? hinput), fun c hno => ?_⟩)
    subst hno
    unfold ControlHost.clipboardAnswer at hcall
    split at hcall
    · split at hcall
      · simp at hcall
      · simp at hcall
    · simp at hcall
  | close =>
    cases hstep
    simp at hcall

/-- In every run, whatever messages arrive, a message comes to the injector only where it may, in a strict
recording that is active with its first frame acknowledged; and without control, no message but those about
screens, quality and chat makes a call or changes anything. -/
theorem input_authorised {clock : ℤ} {spool : LinkSpoolStorage} {es : List ControlEvent}
    (hrun : (controlHost p).Reach (fun _ _ _ => True) (.create clock spool) s es)
    (hstep : (controlHost p).step s a = some (t, fs)) :
    (∀ input c, .calls input (.injector c) ∈ fs → InjectionAllowed p s input ∧
      (p.peer.recorder.config.isStrict = true → p.peer.recorder.config.isActive = true →
        s.peer.recorder.firstFrameAcked = true)) ∧
    (s.peer.allowControl = false →
      (∀ input call, .calls input call ∈ fs → hasType input viewTypes = true) ∧
      ∀ input encodable, a = .message (some input) encodable → hasType input viewTypes = false →
        t = s ∧ ∀ e ∈ fs, e = .pong) := by
  have hpending := pending_of_reach hrun
  constructor
  · intro input c hcall
    have hallowed : InjectionAllowed p s input := by
      obtain ⟨hvalid, hpasses, hin⟩ | ⟨hallowed, -⟩ | ⟨-, hnot⟩ := of_calls hpending hstep hcall
      · refine injectionAllowed_of_unblocked hvalid ?_ hpasses
        rw [← not_eq_true]
        exact fun hview => not_injector_of_view _ _ _ hview c hin
      · exact hallowed
      · exact absurd rfl (hnot c)
    refine ⟨hallowed, fun hstrict hactive => ?_⟩
    have hready := hallowed.ready
    have hmandatory : p.peer.recorder.config.mandatory = true := (and_eq_true_iff.mp hstrict).1
    unfold recorderReady at hready
    rw [hactive, hstrict, hmandatory] at hready
    simpa using hready
  · intro hcontrol
    refine ⟨fun input call hcall => ?_, fun input encodable ha hview => ?_⟩
    · obtain ⟨-, hpasses, -⟩ | ⟨hallowed, hview⟩ | ⟨hyes, -⟩ := of_calls hpending hstep hcall
      · exact view_of_unblocked hcontrol hpasses
      · cases hcontrol.symm.trans (allowControl_of_allowed hallowed hview)
      · cases hcontrol.symm.trans hyes
    · subst ha
      have hblocked : s.peer.blocks p.peer input = true := by
        by_contra hpasses
        rw [view_of_unblocked hcontrol (eq_false_iff.mpr hpasses)] at hview
        simp at hview
      have hreceived : s.step p (.message (some input) encodable) = some (t, fs) := hstep
      unfold ControlHost.step ControlHost.onMessage ControlHost.executeInput at hreceived
      dsimp only at hreceived
      rw [hblocked] at hreceived
      simp only [if_true, ite_self] at hreceived
      split at hreceived
      · split at hreceived
        · cases hreceived
          exact ⟨rfl, by simp⟩
        · split at hreceived
          · cases hreceived
            exact ⟨rfl, by simp⟩
          · cases hreceived
            exact ⟨rfl, by simp⟩
      · simp at hreceived

end Channel

/-- A strict recording on macOS. -/
def sampleChannel : ChannelSetup := ⟨samplePeer, .macOS⟩

def typedText : Json := .obj [("type", .str "text_input"), ("text", .str "a")]

/-- The first frame is acknowledged, and a text is typed. -/
def typesText : List ControlAction :=
  [.start true, .recorder .start, .recorder .timerFired, .recorder (.liveAnswered (.ok (sampleAck 1))),
    .message (some typedText) true]

/-- A text was to be pasted, and the next step pastes it. -/
def pastesAt : List ControlEvent → Option (ControlHost × List ControlEvent) → Bool
  | [.calls (.obj [("type", .str "text_input"), ("text", .str "a")]) (.setClipboard "a")],
    some (_, [.calls _ (.injector _)]) => true
  | _, _ => false

/-- A text that was typed comes to the injector once the clipboard has it, and is one that may. -/
theorem input_authorised_sample : ∃ s t fs input c,
    (controlHost sampleChannel).Reach (fun _ _ _ => True) (.create 0 { dir := leftover }) s
      [.calls typedText (.setClipboard "a")] ∧
    (controlHost sampleChannel).step s (.pasted 0 true) = some (t, fs) ∧ .calls input (.injector c) ∈ fs ∧
    InjectionAllowed sampleChannel s input ∧ s.peer.recorder.firstFrameAcked = true := by
  have hruns : ∃ r ∈ (controlHost sampleChannel).exec (fun _ _ _ => true)
    (.create 0 { dir := leftover }) [] typesText,
      pastesAt r.2 ((controlHost sampleChannel).step r.1 (.pasted 0 true)) = true := by decide +kernel
  obtain ⟨⟨s, es⟩, hexec, hshape⟩ := hruns
  have hrun := Machine.reach_of_exec (fun _ _ _ _ => trivial) hexec
  unfold pastesAt at hshape
  split at hshape
  · rename_i hes hstep
    subst hes
    have hall := input_authorised hrun hstep
    obtain ⟨hallowed, hfirst⟩ := hall.1 _ _ (mem_singleton.mpr rfl)
    exact ⟨_, _, _, _, _, hrun, hstep, mem_singleton.mpr rfl, hallowed, hfirst (by decide) (by decide)⟩
  · simp at hshape

end LigamentApps.LinkHost
