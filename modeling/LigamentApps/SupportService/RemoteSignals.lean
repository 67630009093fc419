import LigamentApps.SupportService.RemoteInput

/-!
# Signals of the support service

`handleRemoteSignal` of `support_service.dart`, and what its gate lets through to `handleRemoteInput`. -/

namespace LigamentApps.SupportService

open LinkHost LinkHostRecorder List

/-! ## The gate -/

def signalingAllowedTypes : List String :=
  ["screen_list", "switch_screen", "chat_message", "session_ended", "support_ended", "console_end"]

def dataChannelOnlyTypes : List String :=
  ["mouse_move", "mouse_down", "mouse_up", "mouse_click", "click", "wheel", "mouse_wheel", "key_down", "key_up",
    "block_input", "hotkey", "text_input", "clipboard_set", "clipboard_get", "file_start", "file_chunk", "file_end",
    "file_reject", "file_ack", "video_quality", "reboot", "input_control"]

/-- What `handleRemoteSignal` does. -/
inductive SignalCall
  /-- `handleRemoteInput` is called with this message. -/
  | remoteInput (input : Json)
  /-- The gate refuses the type. -/
  | blocked (type : Option String)
  | createDataChannel
  | setupDataChannel
  | attemptIceRestart (iceRestart : Bool)
  | setRemoteDescription (sdp type : Option String)
  | addCandidate (candidate : Json)
  | queueCandidate (candidate : Json)
  /-- An exception is logged. -/
  | failed

/-- `j['data']` where it is a map, and `j` itself otherwise. -/
def payloadOf (j : Json) : Json :=
  match j.get "data" with
  | some (.obj members) => .obj members
  | _ => j

/-- `payload['type']?.toString()`. -/
def directType (doubleText : ℚ → String) (payload : Json) : Option String :=
  (payload.getPresent "type").map (dartText doubleText)

/-- A message that asks for a new offer. -/
def handleRenegotiation (v : RemoteView) (answers : RemoteAnswers) (payload : Json) : List SignalCall :=
  (if v.dataChannelOpen then []
    else .createDataChannel :: if answers.dataChannelCreated then [.setupDataChannel] else [.failed]) ++
      [.attemptIceRestart (valueOf payload "iceRestart").isTrue]

/-- A message with a session description. -/
def handleDescription (v : RemoteView) (answers : RemoteAnswers) (doubleText : ℚ → String) (payload : Json) :
    List SignalCall :=
  match valueOf payload "sdp" with
  | .obj members =>
    let text := fun name => ((Json.obj members).getPresent name).map (dartText doubleText)
    .setRemoteDescription (text "sdp") (text "type") ::
      if !answers.descriptionSet then [.failed]
      else v.pendingCandidates.map fun c => if answers.peerStays then .addCandidate c else .failed
  | _ => [.failed]

def handleCandidate (answers : RemoteAnswers) (payload : Json) : List SignalCall :=
  match valueOf payload "candidate" with
  | .obj members =>
    if !isNullOr (fun index => isIntWithin (-2 ^ 63) (2 ^ 63 - 1) index)
      (valueOf (.obj members) "sdpMLineIndex") then [.failed]
    else if answers.remoteDescription.getD "" = "" then [.queueCandidate (.obj members)]
    else if answers.peerStays then [.addCandidate (.obj members)]
    else [.failed]
  | _ => [.failed]

/-- The messages of the peer connection. -/
def handlePeerSignal (v : RemoteView) (answers : RemoteAnswers) (doubleText : ℚ → String) (payload : Json) :
    List SignalCall :=
  if !v.hasPeer then []
  else if hasType payload ["request_offer", "renegotiate"] then handleRenegotiation v answers payload
  else if (payload.get "sdp").isSome then handleDescription v answers doubleText payload
  else if (payload.get "candidate").isSome then handleCandidate answers payload
  else []

def handleRemoteSignal (v : RemoteView) (answers : RemoteAnswers) (doubleText : ℚ → String) (signal : Json) :
    List SignalCall :=
  let payload := payloadOf signal
  if hasType payload ["chat_message"] then [.remoteInput payload]
  else if hasType payload ["input_control"] then
    let inputData := payloadOf payload
    match directType doubleText inputData with
    | some subType =>
      if signalingAllowedTypes.contains subType then [.remoteInput inputData] else [.blocked (some subType)]
    | none => [.blocked none]
  else if hasType payload ["screen_list", "switch_screen"] then [.remoteInput payload]
  else match directType doubleText payload with
    | some type =>
      if signalingAllowedTypes.contains type then [.remoteInput payload]
      else if dataChannelOnlyTypes.contains type then [.blocked (some type)]
      else handlePeerSignal v answers doubleText payload
    | none => handlePeerSignal v answers doubleText payload

/-! ## What gets through -/

/-- The messages with which `handleRemoteInput` is called. -/
def remoteInputs (calls : List SignalCall) : List Json :=
  calls.filterMap fun
    | .remoteInput input => some input
    | _ => none

/-- The message in its envelopes: a map under `data`, and one under the `data` of an `input_control`. -/
def messageOf (signal : Json) : Json :=
  if hasType (payloadOf signal) ["input_control"] then payloadOf (payloadOf signal) else payloadOf signal

/-- The signal carries a message of an allowed type. -/
def passesGate (doubleText : ℚ → String) (signal : Json) : Bool :=
  (directType doubleText (messageOf signal)).any signalingAllowedTypes.contains

/-- The sessions that a signal names, in any of its envelopes. -/
def sessionsOf (doubleText : ℚ → String) (signal : Json) : List String :=
  [signal, payloadOf signal, payloadOf (payloadOf signal)].filterMap fun j =>
    (j.getPresent "session_id").map (dartText doubleText)

/-- The signal names no session but the current one. -/
def ForCurrentSession (v : RemoteView) (doubleText : ℚ → String) (signal : Json) : Prop :=
  ∀ id ∈ sessionsOf doubleText signal, v.activeSessionId = some id

/-- What the signaling may do: call `handleRemoteInput` for allowed types and the current session alone, and
have it control nothing. -/
structure SignalGated (v : RemoteView) (answers : RemoteAnswers) (doubleText : ℚ → String)
    (signal : Json) : Prop where
  allowed : ∀ input ∈ remoteInputs (handleRemoteSignal v answers doubleText signal),
    ∃ type ∈ signalingAllowedTypes, inputType doubleText input = some type
  current : remoteInputs (handleRemoteSignal v answers doubleText signal) ≠ [] →
    ForCurrentSession v doubleText signal
  controlsNothing : ∀ input ∈ remoteInputs (handleRemoteSignal v answers doubleText signal),
    ∀ answers' call, call ∈ handleRemoteInput v answers' doubleText input → call.isControl = false

section Gate

variable {v : RemoteView} {answers : RemoteAnswers} {doubleText : ℚ → String} {signal payload : Json}

theorem remoteInputs_append (calls more : List SignalCall) :
    remoteInputs (calls ++ more) = remoteInputs calls ++ remoteInputs more := filterMap_append

theorem remoteInputs_handlePeerSignal : remoteInputs (handlePeerSignal v answers doubleText payload) = [] := by
  have hrenegotiation : remoteInputs (handleRenegotiation v answers payload) = [] := by
    unfold handleRenegotiation
    rw [remoteInputs_append]
    have hfirst : remoteInputs (if v.dataChannelOpen then []
        else .createDataChannel :: if answers.dataChannelCreated then [.setupDataChannel] else [.failed]) = [] := by
      split
      · rfl
      · split
        · rfl
        · rfl
    rw [hfirst]
    rfl
  have hdescription : remoteInputs (handleDescription v answers doubleText payload) = [] := by
    unfold handleDescription
    split
    · split
      · rfl
      · refine filterMap_eq_nil_iff.mpr fun call hcall => ?_
        obtain rfl | hcall := mem_cons.mp hcall
        · rfl
        · obtain ⟨c, -, rfl⟩ := mem_map.mp hcall
          cases answers.peerStays with
          | false | true => rfl
    · rfl
  have hcandidate : remoteInputs (handleCandidate answers payload) = [] := by
    unfold handleCandidate
    split
    · split
      · rfl
      · split
        · rfl
        · split
          · rfl
          · rfl
    · rfl
  unfold handlePeerSignal
  split
  · rfl
  · split
    · exact hrenegotiation
    · split
      · exact hdescription
      · split
        · exact hcandidate
        · rfl

theorem directType_of_hasType (doubleText : ℚ → String) {types : List String} (h : hasType payload types = true) :
    ∃ type ∈ types, directType doubleText payload = some type := by
  obtain ⟨type, htype, hvalue⟩ := type_of_hasType h
  refine ⟨type, htype, ?_⟩
  unfold valueOf at hvalue
  unfold directType Json.getPresent
  cases hget : payload.get "type" with
  | none =>
    rw [hget] at hvalue
    simp at hvalue
  | some t =>
    rw [hget] at hvalue
    obtain rfl : t = .str type := hvalue
    rfl

theorem inputType_of_directType {type : String} (h : directType doubleText payload = some type) :
    inputType doubleText payload = some type := by
  unfold directType at h
  unfold inputType
  cases hpresent : payload.getPresent "type" with
  | none =>
    rw [hpresent] at h
    simp at h
  | some =>
    rw [hpresent] at h
    exact h

theorem remoteInputs_handleRemoteSignal : remoteInputs (handleRemoteSignal v answers doubleText signal) =
    if passesGate doubleText signal then [messageOf signal] else [] := by
  unfold handleRemoteSignal passesGate messageOf
  dsimp only
  by_cases hchat : hasType (payloadOf signal) ["chat_message"] = true
  · have hcontrol : hasType (payloadOf signal) ["input_control"] = false := not_hasType (by decide) hchat
    obtain ⟨type, htype, hdirect⟩ := directType_of_hasType doubleText hchat
    obtain rfl : type = "chat_message" := mem_singleton.mp htype
    rw [if_pos hchat, hcontrol, if_neg Bool.false_ne_true, hdirect]
    rfl
  · rw [if_neg hchat]
    by_cases hcontrol : hasType (payloadOf signal) ["input_control"] = true
    · rw [if_pos hcontrol, if_pos hcontrol]
      cases hdirect : directType doubleText (payloadOf (payloadOf signal)) with
      | none => rfl
      | some subType =>
        show remoteInputs (if signalingAllowedTypes.contains subType then _ else _) =
          if signalingAllowedTypes.contains subType then _ else _
        split
        · rfl
        · rfl
    · rw [if_neg hcontrol, if_neg hcontrol]
      by_cases hscreen : hasType (payloadOf signal) ["screen_list", "switch_screen"] = true
      · obtain ⟨type, htype, hdirect⟩ := directType_of_hasType doubleText hscreen
        rw [if_pos hscreen, hdirect]
        simp only [mem_cons, not_mem_nil, or_false] at htype
        obtain rfl | rfl := htype
        · rfl
        · rfl
      · rw [if_neg hscreen]
        cases hdirect : directType doubleText (payloadOf signal) with
        | none => exact remoteInputs_handlePeerSignal
        | some type =>
          show remoteInputs (if signalingAllowedTypes.contains type then _ else _) =
            if signalingAllowedTypes.contains type then _ else _
          split
          · rfl
          · split
            · rfl
            · exact remoteInputs_handlePeerSignal

theorem handleRemoteInput_allowed {type : String} {input : Json} (htype : inputType doubleText input = some type)
    (hallowed : type ∈ signalingAllowedTypes) {call : RemoteCall}
    (hcall : call ∈ handleRemoteInput v answers doubleText input) : call.isControl = false := by
  unfold handleRemoteInput at hcall
  rw [htype] at hcall
  dsimp only at hcall
  split at hcall
  · cases hcall
  split at hcall
  · obtain rfl := mem_singleton.mp hcall
    rfl
  · rename_i hending
    split at hcall
    · cases hcall
    · -- The types that are left are of the screens and the chat.
      have hleft : type = "screen_list" ∨ type = "switch_screen" ∨ type = "chat_message" := by
        unfold signalingAllowedTypes at hallowed
        simp only [mem_cons, not_mem_nil, or_false] at hallowed
        obtain rfl | rfl | rfl | rfl | rfl | rfl := hallowed
        · exact .inl rfl
        · exact .inr (.inl rfl)
        · exact .inr (.inr rfl)
        all_goals exact absurd (by decide) hending
      have hbranch : ∀ call' ∈ remoteBranches v answers doubleText type input, call'.isControl = false := by
        unfold remoteBranches
        obtain rfl | rfl | rfl := hleft
        · intro call' hcall'
          obtain rfl := mem_singleton.mp hcall'
          rfl
        · intro call' hcall'
          simp only [reduceIte, String.reduceEq] at hcall'
          split at hcall'
          · obtain rfl := mem_singleton.mp hcall'
            rfl
          · cases hcall'
        · intro call' hcall'
          obtain rfl := mem_singleton.mp hcall'
          rfl
      have hclipboard : ["clipboard_set", "clipboard_get"].contains type = false := by
        obtain rfl | rfl | rfl := hleft
        all_goals decide
      rw [hclipboard, Bool.and_false, if_neg Bool.false_ne_true, mem_append, mem_append] at hcall
      obtain (hobserve | hsnapshot) | hcall := hcall
      · split at hobserve
        · obtain rfl := mem_singleton.mp hobserve
          rfl
        · cases hobserve
      · split at hsnapshot
        · obtain rfl := mem_singleton.mp hsnapshot
          rfl
        · cases hsnapshot
      · exact hbranch call hcall

/-- The signaling does no more than it may if and only if a signal with a message of an allowed type names no
other session. -/
theorem signal_gated_iff : SignalGated v answers doubleText signal ↔
    (passesGate doubleText signal = true → ForCurrentSession v doubleText signal) := by
  have hcalls : remoteInputs (handleRemoteSignal v answers doubleText signal) =
      if passesGate doubleText signal then [messageOf signal] else [] := remoteInputs_handleRemoteSignal
  constructor
  · intro hgated hpasses
    rw [if_pos hpasses] at hcalls
    exact hgated.current (by rw [hcalls]; exact cons_ne_nil _ _)
  · intro hcurrent
    by_cases hpasses : passesGate doubleText signal = true
    · have htype : ∃ type ∈ signalingAllowedTypes, inputType doubleText (messageOf signal) = some type := by
        obtain ⟨type, hdirect, hallowed⟩ := (Option.any_eq_true ..).mp hpasses
        exact ⟨type, contains_iff_mem.mp hallowed, inputType_of_directType hdirect⟩
      rw [if_pos hpasses] at hcalls
      refine ⟨fun input hinput => ?_, fun _ => hcurrent hpasses, fun input hinput answers' call hcall => ?_⟩
      · rw [hcalls] at hinput
        obtain rfl := mem_singleton.mp hinput
        exact htype
      · rw [hcalls] at hinput
        obtain rfl := mem_singleton.mp hinput
        obtain ⟨type, hallowed, htype⟩ := htype
        exact handleRemoteInput_allowed htype hallowed hcall
    · rw [if_neg hpasses] at hcalls
      refine ⟨fun input hinput => ?_, fun hsome => absurd hcalls hsome, fun input hinput => ?_⟩
      · rw [hcalls] at hinput
        cases hinput
      · rw [hcalls] at hinput
        cases hinput

/-- A signal of another session ends the current one. -/
theorem other_session_signal : ¬∀ (v : RemoteView) (answers : RemoteAnswers) (doubleText : ℚ → String)
    (signal : Json), SignalGated v answers doubleText signal := by
  intro hclaim
  have hgated := hclaim { activeSessionId := some "sess-2" } {} (fun _ => "")
    (.obj [("type", .str "support_signal"), ("session_id", .str "sess-1"),
      ("data", .obj [("type", .str "session_ended")])])
  have hcurrent := hgated.current (by decide) "sess-1" (by decide)
  exact absurd hcurrent (by decide)

end Gate

end LigamentApps.SupportService
