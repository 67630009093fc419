import LigamentApps.LinkHost.ControlMessages

/-!
# Remote input of the support service

`handleRemoteInput` of `support_service.dart`: what the service does with a message of the operator, from its
data channel or from the signaling. What the handlers of files, of the chat and of the screens do is theirs:
here they are calls. How Dart prints a number that is no integer is the parameter `doubleText`. -/

namespace LigamentApps.SupportService

open LinkHost LinkHostRecorder

/-! ## What the service is told -/

/-- What `handleRemoteInput` and `handleRemoteSignal` read of the service. -/
structure RemoteView where
  activeSessionId : Option String := none
  accessMode : String := "full_control"
  serviceHost : Bool := false
  /-- A `serviceInput` was given. -/
  hasServiceInput : Bool := false
  hasRecorder : Bool := false
  hasPeer : Bool := false
  dataChannelOpen : Bool := false
  currentScreenRect : Option Json := none
  pendingCandidates : List Json := []
  platform : Platform := .other

/-- Whether what is waited for succeeds, and what it gives. -/
structure RemoteAnswers where
  /-- `serviceInput` accepts the probe of the clipboard. -/
  probeAccepted : Bool := true
  /-- `serviceInput` accepts the input. -/
  inputAccepted : Bool := true
  /-- The position of the mouse is to be checked again. -/
  checkMouse : Bool := false
  /-- The last error of an input is old enough for another one. -/
  mayReportError : Bool := true
  dataChannelCreated : Bool := true
  descriptionSet : Bool := true
  /-- The peer is still there after a wait. -/
  peerStays : Bool := true
  /-- The type of the remote description. -/
  remoteDescription : Option String := none

/-- A call of the input injector. -/
inductive Injection
  | keyUnit (isDown : Bool) (unit : ℕ)
  | typeText (text : String)
  | moveMouse (x y : ℚ) (screenRect : Option Json)
  | mouseAction (action : String) (button : ℤ) (x y : ℚ) (screenRect : Option Json)
  | mouseWheel (deltaY : ℚ)
  | keyAction (action key : String) (keyCode : Option ℤ) (char : Option String)
  | setInputBlocked (blocked : Bool)
  | triggerHotkey (hotkey : String)

/-- What the service does on a message. -/
inductive RemoteCall
  | stopScreenSharing (reason : String)
  | observeControlInput (input : Json)
  | captureSnapshot
  | serviceInput (input : Json)
  | sendSignalOrData (message : Json)
  | sendScreenList
  | receiveChat (input : Json)
  | switchScreen (screenId : String)
  | setClipboard (text : String)
  | getClipboard
  | handleFile (input : Json)
  | systemMessage (text : String)
  | applyVideoBitrate (bitrate : ℤ)
  | handleRemoteReboot
  | inject (injection : Injection)

/-- The call gives the operator something to do with the pointer, the keyboard, the clipboard, files or the
machine. -/
def RemoteCall.isControl : RemoteCall → Bool
  | .serviceInput _ | .setClipboard _ | .getClipboard | .handleFile _ | .systemMessage _ | .applyVideoBitrate _
  | .handleRemoteReboot | .inject _ => true
  | _ => false

/-! ## The gates -/

def serviceHostCommandAllowed (type : String) : Bool :=
  ["screen_list", "switch_screen", "mouse_move", "mouse_down", "mouse_up", "mouse_click", "click", "wheel",
    "mouse_wheel", "key_down", "key_up", "block_input", "hotkey", "text_input", "clipboard_set", "clipboard_get",
    "session_ended", "support_ended", "console_end", "video_quality", "reboot", "file_start", "file_chunk",
    "file_end", "file_reject"].contains type

def endingTypes : List String := ["session_ended", "support_ended", "console_end"]

/-- The types that a viewer may send. -/
def viewerTypes : List String := ["screen_list", "chat_message", "switch_screen"]

variable (doubleText : ℚ → String)

variable (input : Json)

/-- `input['type'] ?? input['action']`, as a text. -/
def inputType : Option String :=
  ((input.getPresent "type").or (input.getPresent "action")).map (dartText doubleText)

/-- `(input[name] as num?)`, with a default for null, unless it throws. -/
def numOr (name : String) (otherwise : ℚ) : Option ℚ :=
  match valueOf input name with
  | .null => some otherwise
  | v => numOf v

/-- `(input[name] as num?)?.toInt()`, with a default for null, unless it throws. -/
def truncatedOr (name : String) (otherwise : ℤ) : Option ℤ :=
  (numOr input name otherwise).map fun q => Int.tdiv q.num q.den

/-! ## The branches -/

/-- The answer to an input that failed. Where the injector throws, the text of its error is left out. -/
def inputErrorMessage (type reason : String) : Json :=
  .obj [("type", .str "input_error"), ("command", .str type), ("reason", .str reason)]

/-- The answer to `block_input`. -/
def blockInputAck (blocked : Bool) : Json :=
  .obj [("type", .str "block_input_ack"), ("blocked", .bool blocked)]

/-- A text for the injector, up to the first wait. -/
def injectText (platform : Platform) (text : String) : List RemoteCall :=
  match platform with
  | .windows => (codeUnits text).flatMap fun unit => [.inject (.keyUnit true unit), .inject (.keyUnit false unit)]
  | .linux => [.inject (.typeText text)]
  | .macOS => [.setClipboard text, .inject (.triggerHotkey "cmd_v")]
  | .other => [.setClipboard text, .inject (.triggerHotkey "ctrl_v")]

/-- The rectangle that a message names. -/
def explicitRect : Option Json :=
  (input.get "screen_rect").filter Json.isObj

def injectButton (type : String) (input : Json) : Option (List RemoteCall) := do
  let button ← truncatedOr input "button" 0
  let x ← numOr input "x" 0
  let y ← numOr input "y" 0
  let action := if type = "mouse_down" then "down" else if type = "mouse_up" then "up" else "click"
  return [.inject (.mouseAction action button x y (explicitRect input))]

def injectKey (type : String) (input : Json) : Option (List RemoteCall) := do
  let code ← match valueOf input "keyCode" with
    | .null => some none
    | _ => (truncatedOr input "keyCode" 0).map some
  let action := if type = "key_down" then "down" else "up"
  return [.inject (.keyAction action (dartTextOr doubleText input "key" "") code
    ((input.getPresent "char").map (dartText doubleText)))]

/-- The switch over the types of input, unless it throws. -/
def injectInput (platform : Platform) (doubleText : ℚ → String) (type : String) (input : Json) :
    Option (List RemoteCall) :=
  if type = "text_input" then
    match valueOf input "text" with
    | .str text => some (if utf16Length text ≤ 4096 then injectText platform text else [])
    | _ => some []
  else if type = "mouse_move" then do
    let x ← numOr input "x" 0
    let y ← numOr input "y" 0
    return [.inject (.moveMouse x y (explicitRect input))]
  else if ["mouse_down", "mouse_up", "mouse_click", "click"].contains type then injectButton type input
  else if ["wheel", "mouse_wheel"].contains type then
    (numOr input "deltaY" 0).map fun delta => [.inject (.mouseWheel delta)]
  else if ["key_down", "key_up"].contains type then injectKey doubleText type input
  else if type = "block_input" then
    let blocked := (valueOf input "blocked").isTrue || (valueOf input "enabled").isTrue
    some [.inject (.setInputBlocked blocked), .sendSignalOrData (blockInputAck blocked)]
  else if type = "hotkey" then
    let hotkey := ((input.getPresent "action").or ((input.getPresent "hotkey").or (input.getPresent "key"))).map
      (dartText doubleText)
    some (if hotkey.getD "" ≠ "" then [.inject (.triggerHotkey (hotkey.getD ""))] else [])
  else some []

variable (v : RemoteView)

variable (answers : RemoteAnswers)

/-- The message that `serviceInput` is given. -/
def serviceMessage (type : String) (input : Json) : Json :=
  let rect := (input.getPresent "screen_rect").or v.currentScreenRect
  let members := match input with
    | .obj members => members
    | _ => []
  .obj (members ++ (if answers.checkMouse then [("ack", .bool true)] else []) ++ [("type", .str type)] ++
    (rect.map fun r => ("screen_rect", r)).toList)

def serviceHostInput (type : String) (input : Json) : List RemoteCall :=
  if !v.hasServiceInput then []
  else .serviceInput (serviceMessage v answers type input) ::
    if answers.inputAccepted then
      if type = "block_input" then [.sendSignalOrData (blockInputAck (valueOf input "blocked").isTrue)] else []
    else if type = "block_input" then
      [.sendSignalOrData (.obj [("type", .str "block_input_ack"), ("blocked", .bool false),
        ("error", .str "input_rejected")])]
    else if answers.mayReportError then [.sendSignalOrData (inputErrorMessage type "windows_input_rejected")]
    else []

/-- The bit rate that a message asks for, unless it throws. -/
def remoteBitrate : Option ℤ :=
  let quality := dartTextOr doubleText input "quality" "balanced"
  if quality = "best" then some 4000000
  else if quality = "low" then some 800000
  else truncatedOr input "bitrate" 2500000

/-- `handleRemoteInput` after its gates. -/
def remoteBranches (doubleText : ℚ → String) (type : String) (input : Json) : List RemoteCall :=
  if type = "screen_list" then [.sendScreenList]
  else if type = "chat_message" then [.receiveChat input]
  else if type = "switch_screen" then
    let id := dartTextOr doubleText input "screen_id" ""
    if id ≠ "" then [.switchScreen id] else []
  else if type = "clipboard_set" then
    let text := dartTextOr doubleText input "text" ""
    if utf16Length text ≤ 65536 then [.setClipboard text] else []
  else if type = "clipboard_get" then [.getClipboard]
  else if ["file_start", "file_chunk", "file_end"].contains type then [.handleFile input]
  else if type = "file_reject" then
    [.systemMessage ("⚠ Файл \"" ++ dartTextOr doubleText input "filename" "файл" ++ "\" не доставлен: " ++
      dartTextOr doubleText input "reason" "передача не удалась")]
  else if type = "video_quality" then
    ((remoteBitrate doubleText input).map RemoteCall.applyVideoBitrate).toList
  else if type = "reboot" then [.handleRemoteReboot]
  else if v.serviceHost then serviceHostInput v answers type input
  else match injectInput v.platform doubleText type input with
    | some calls => calls
    | none => if answers.mayReportError then [.sendSignalOrData (inputErrorMessage type "")] else []

def handleRemoteInput (doubleText : ℚ → String) (input : Json) : List RemoteCall :=
  match inputType doubleText input with
  | none => []
  | some type =>
    if v.serviceHost && !serviceHostCommandAllowed type then []
    else if endingTypes.contains type then [.stopScreenSharing "remote_ended"]
    else if trimLower v.accessMode = "view_only" && !viewerTypes.contains type then []
    else
      (if v.hasRecorder then [.observeControlInput input] else []) ++
        (if ["mouse_down", "key_down", "text_input"].contains type then [.captureSnapshot] else []) ++
          -- A service host asks first whether the clipboard may be used.
          if v.serviceHost && ["clipboard_set", "clipboard_get"].contains type then
            (if v.hasServiceInput then [.serviceInput (.obj [("type", .str "clipboard_probe")])] else []) ++
              if v.hasServiceInput && !answers.probeAccepted then
                [.sendSignalOrData (.obj [("type", .str "clipboard_error"), ("reason", .str "secure_desktop")])]
              else remoteBranches v answers doubleText type input
          else remoteBranches v answers doubleText type input

end LigamentApps.SupportService
