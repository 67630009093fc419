import LigamentApps.LinkHostRecorder.FirstFrame

/-!
# The gate for the operator's input

`LinkSessionPolicy` of `link_session_policy.dart` and the head of `_executeInput` of
`link_host_session.dart`: a control message is handled when the policy allows it and, unless it is about
screens, quality or chat, the recorder is ready. The session and its recorder are one machine. -/

namespace LigamentApps.LinkHost

open LinkHostRecorder

/-! ## The policy -/

/-- The flags of `LinkSessionPolicy` that `allows` reads. -/
structure LinkSessionPolicy where
  allowClipboardIn : Bool := false
  allowClipboardOut : Bool := false
  allowFileTransfer : Bool := false

/-- `LinkSessionPolicy.maxClipboardLength`. -/
def maxClipboardLength : ℕ := 65536

def hasType (input : Json) (types : List String) : Bool :=
  types.any fun type => (valueOf input "type").isStr type

/-- The messages that are no keyboard, mouse or clipboard control. -/
def viewTypes : List String :=
  ["screen_list", "get_screens", "switch_screen", "video_quality", "chat_message", "chat_sync",
    "chat_ack"]

/-- The messages about files. -/
def fileTypes : List String :=
  ["file_start", "file_chunk", "file_end", "fs_list", "fs_list_ack", "fs_download_start", "fs_delete",
    "fs_mkdir"]

/-- The messages that control needs no flag for. -/
def controlTypes : List String :=
  ["mouse_move", "mouse_down", "mouse_up", "wheel", "key_down", "key_up", "hotkey", "text_input",
    "block_input", "reboot"]

namespace LinkSessionPolicy

/-- `LinkSessionPolicy.fromWire`. -/
def fromWire (value : Option Json) : LinkSessionPolicy :=
  match value with
  | some (.obj members) =>
    { allowClipboardIn := flag (.obj members) "allow_clipboard_in"
      allowClipboardOut := flag (.obj members) "allow_clipboard_out"
      allowFileTransfer := flag (.obj members) "allow_file_transfer" }
  | _ => {}

def allows (p : LinkSessionPolicy) (input : Json) (allowControl : Bool) : Bool :=
  if hasType input viewTypes then true
  else if !allowControl then false
  else if hasType input ["clipboard_set"] then
    p.allowClipboardIn &&
      match input.get "text" with
      | some (.str text) => utf16Length text ≤ maxClipboardLength
      | _ => false
  else if hasType input ["clipboard_get"] then p.allowClipboardOut
  else if hasType input fileTypes then p.allowFileTransfer
  else hasType input controlTypes

theorem hasType_of_allows {p : LinkSessionPolicy} {input : Json} (h : p.allows input false = true) :
    hasType input viewTypes = true := by
  unfold allows at h
  split at h
  · assumption
  · simp at h

end LinkSessionPolicy

/-! ## The session -/

/-- What a session's peer is made with. -/
structure PeerSetup where
  recorder : Setup
  policy : LinkSessionPolicy

/-- The peer, with the recorder that it was given when the recording is active. -/
structure HostPeer where
  recorder : Recorder
  allowControl : Bool := false
  closed : Bool := false

/-- What can be seen of the peer: a message was handled. -/
inductive PeerEvent
  | handled (input : Json)

variable {es : List PeerEvent}

/-- What can happen to the peer. -/
inductive PeerAction
  /-- The recorder makes a step. -/
  | recorder (a : Action)
  /-- The peer is started, with or without control. -/
  | start (allowControl : Bool)
  /-- A control message arrives; `encodable` as in `observeControlInput`. -/
  | input (raw : Json) (encodable : Bool)
  | close

variable {Good : HostPeer → List PeerEvent → PeerAction → Prop}

namespace HostPeer

variable (p : PeerSetup) (s : HostPeer)

/-- The head of `_executeInput` returns. -/
def blocks (input : Json) : Bool :=
  s.closed || !p.policy.allows input s.allowControl ||
    (!hasType input viewTypes && !recorderReady p.recorder.config s.recorder.firstFrameAcked)

/-- The recorder observes what is handled, when there is one. -/
def observe (input : Json) (encodable : Bool) : HostPeer :=
  if p.recorder.config.isActive then
    { s with recorder := s.recorder.observeControlInput p.recorder input encodable }
  else s

def executeInput (input : Json) (encodable : Bool) : HostPeer × List PeerEvent :=
  if s.blocks p input then (s, []) else (s.observe p input encodable, [.handled input])

def step : PeerAction → Option (HostPeer × List PeerEvent)
  | .recorder a =>
    if p.recorder.config.isActive then
      (LinkHostRecorder.step p.recorder s.recorder a).map fun t => ({ s with recorder := t }, [])
    else none
  | .start allowControl => some ({ s with allowControl }, [])
  | .input raw encodable => some (s.executeInput p raw encodable)
  | .close => some ({ s with closed := true }, [])

end HostPeer

def hostPeer (p : PeerSetup) : Machine HostPeer PeerAction PeerEvent := ⟨fun s a => s.step p a⟩

/-- A peer that was just made, with a recorder over a spool with any content. -/
def HostPeer.create (clock : ℤ) (spool : LinkSpoolStorage) : HostPeer := { recorder := .create clock spool }

/-- The gate: the first frame is taken for durable only when the recorder service has acknowledged it,
and before that no message is handled but one about screens, quality or chat. -/
structure Gated (p : PeerSetup) (s : HostPeer) : Prop where
  flag : s.recorder.firstFrameAcked = true → FirstFrameDurable p.recorder s.recorder.log
  input : ∀ input, hasType input viewTypes = false → s.blocks p input = false →
    FirstFrameDurable p.recorder s.recorder.log

section Gate

variable {p : PeerSetup} {s t : HostPeer} {a : PeerAction} {fs : List PeerEvent}

theorem HostPeer.recorder_step (hstep : s.step p a = some (t, fs)) :
    t.recorder = s.recorder ∨ ∃ b, LinkHostRecorder.step p.recorder s.recorder b = some t.recorder := by
  cases a with
  | recorder b =>
    simp only [step, Option.ite_none_right_eq_some, Option.map_eq_some_iff, Prod.mk.injEq] at hstep
    obtain ⟨-, t', ht', rfl, -⟩ := hstep
    exact .inr ⟨b, ht'⟩
  | start | close =>
    simp only [step, Option.some.injEq, Prod.mk.injEq] at hstep
    obtain ⟨rfl, -⟩ := hstep
    exact .inl rfl
  | input raw encodable =>
    have hpair : s.executeInput p raw encodable = (t, fs) := Option.some.inj hstep
    unfold executeInput observe at hpair
    split at hpair
    · cases hpair
      exact .inl rfl
    split at hpair
    · cases hpair
      exact .inr ⟨.observeControlInput raw encodable, rfl⟩
    · cases hpair
      exact .inl rfl

theorem run_recorder (I : Recorder → Prop) {s₀ : HostPeer} (hstart : I s₀.recorder)
    (hstep : ∀ s b t, I s → LinkHostRecorder.step p.recorder s b = some t → I t)
    (hrun : (hostPeer p).Reach Good s₀ t es) : I t.recorder := by
  refine hrun.invariant (fun s _ => I s.recorder) hstart ?_
  intro s es a t fs hs _ hpeer
  rcases HostPeer.recorder_step hpeer with hsame | ⟨b, hrecorder⟩
  · rw [hsame]
    exact hs
  · exact hstep s.recorder b t.recorder hs hrecorder

theorem Gated.of_firstFrame (hstrict : p.recorder.config.isStrict = true)
    (hactive : p.recorder.config.isActive = true) (h : FirstFrame p.recorder s.recorder.toEvidence) :
    Gated p s := by
  refine ⟨h.flag, fun input hcontrol hpasses => h.flag ?_⟩
  have hmandatory : p.recorder.config.mandatory = true := (Bool.and_eq_true_iff.mp hstrict).1
  simp only [HostPeer.blocks, hcontrol, Bool.or_eq_false_iff, Bool.not_false, Bool.true_and,
    recorderReady, hstrict, hactive, hmandatory] at hpasses
  simpa using hpasses.2

end Gate

/-- A strict recording, and an operator with control. -/
def samplePeer : PeerSetup := ⟨sampleSetup "strict", {}⟩

def sampleKey : Json := .obj [("type", .str "key_down"), ("key", .str "a")]

/-- Over the chunk of an earlier process, the first frame is sent and acknowledged, and a key passes. -/
def keyAfterFrame : List PeerAction :=
  [.start true, .recorder .start, .recorder (.enqueueFrame (sampleFrame 1)), .recorder .timerFired,
    .input sampleKey true, .recorder (.liveAnswered (.ok (sampleAck 2))), .input sampleKey true]

end LigamentApps.LinkHost
