import LigamentApps.LinkHost.InputGate

/-!
# Control messages

The messages of the data channel as the Flutter worker checks them, `_isValidInput` and
`LinkKeyMessage.tryParse`, and what the branches of `_executeInput` do with a message that has passed. How
Dart prints a number that is no integer is the parameter `doubleText`. The debug log, its counters and the
snapshots for the recorder are left out. -/

namespace LigamentApps.LinkHost

open LinkHostRecorder

section Types

variable {input : Json} {types : List String}

theorem type_of_hasType (h : hasType input types = true) : ∃ type ∈ types, valueOf input "type" = .str type := by
  obtain ⟨type, htype, his⟩ := List.any_eq_true.mp h
  refine ⟨type, htype, ?_⟩
  cases hvalue : valueOf input "type" with
  | str =>
    rw [hvalue] at his
    exact congrArg Json.str (beq_iff_eq.mp his)
  | _ =>
    rw [hvalue] at his
    simp [Json.isStr] at his

theorem hasType_eq {type : String} (hvalue : valueOf input "type" = .str type) (types : List String) :
    hasType input types = types.any fun other => type == other := by
  unfold hasType
  rw [hvalue]
  rfl

theorem not_hasType {others : List String} (hdisjoint : ∀ type ∈ others, type ∉ types)
    (h : hasType input types = true) : hasType input others = false := by
  obtain ⟨type, htype, hvalue⟩ := type_of_hasType h
  rw [hasType_eq hvalue]
  refine List.any_eq_false.mpr fun other hother hsame => ?_
  rw [beq_iff_eq] at hsame
  exact hdisjoint other hother (hsame ▸ htype)

end Types

/-- The value is a `num`. -/
def numOf : Json → Option ℚ
  | .int n => some n
  | .dec q => some q
  | _ => none

/-- The value is an `int` between two bounds. -/
def isIntWithin (lo hi : ℤ) : Json → Bool
  | .int n => lo ≤ n && n ≤ hi
  | _ => false

/-- The value is a `String` that is not empty. -/
def isText : Json → Bool
  | .str s => s ≠ ""
  | _ => false

/-- The value is a `String` of at most this many code units. -/
def isTextWithin (limit : ℕ) : Json → Bool
  | .str s => utf16Length s ≤ limit
  | _ => false

/-- The value is null, or passes the check. -/
def isNullOr (check : Json → Bool) : Json → Bool
  | .null => true
  | v => check v

/-- The value is a `num` between zero and one. -/
def isUnit (v : Json) : Bool := (numOf v).any fun q => 0 ≤ q && q ≤ 1

/-- `input[name] ?? input[other]`. -/
def valueOr (input : Json) (name other : String) : Json := (input.getPresent name).getD (valueOf input other)

def maxFileTransferBytes : ℤ := 1024 * 1024 * 1024

/-- `LinkKeyMessage`, without the key code, which nothing is told. -/
structure LinkKeyMessage where
  isDown : Bool
  key : String
  char : Option String

/-- `LinkKeyMessage.tryParse`. -/
def LinkKeyMessage.tryParse (input : Json) : Option LinkKeyMessage :=
  match valueOf input "key" with
  | .str key =>
    if hasType input ["key_down", "key_up"] && key ≠ "" && utf16Length key ≤ 64 &&
        isNullOr (isIntWithin 0 0x1fffffffffffff) (valueOf input "keyCode") &&
        isNullOr (isTextWithin 64) (valueOf input "char") then
      some ⟨hasType input ["key_down"], key, (valueOf input "char").str?⟩
    else none
  | _ => none

def isValidPointer (input : Json) : Bool :=
  isUnit (valueOf input "x") && isUnit (valueOf input "y") &&
    (hasType input ["mouse_move"] || isIntWithin 0 2 (valueOf input "button"))

/-- A text that is not empty and not too long. -/
def isValidText (text : Json) : Bool := isText text && isTextWithin 4096 text

/-- A chat message: white space alone is none. -/
def isValidChat (text : Json) : Bool :=
  match text with
  | .str s => s.toList.any (!isDartSpace ·) && utf16Length s ≤ 4096
  | _ => false

/-- A quality that has a name, or a bit rate. -/
def isValidQuality (input : Json) : Bool :=
  ["best", "balanced", "low", "high", "medium"].any (valueOf input "quality").isStr ||
    isIntWithin 100000 20000000 (valueOf input "bitrate")

def isValidFileStart (input : Json) : Bool :=
  isText (valueOr input "transfer_id" "id") && isText (valueOf input "filename") &&
    isNullOr (isIntWithin 0 maxFileTransferBytes) (valueOf input "size") &&
      isNullOr (isIntWithin 1 65536) (valueOf input "total_chunks")

def isValidFileChunk (input : Json) : Bool :=
  isText (valueOr input "transfer_id" "id") && isIntWithin 0 (2 ^ 63 - 1) (valueOf input "chunk_index") &&
    isText (valueOf input "data")

def isValidInput (doubleText : ℚ → String) (input : Json) : Bool :=
  if hasType input ["ping", "pong"] then true
  else if hasType input ["chat_message"] then isValidChat (valueOf input "text")
  else if hasType input ["chat_sync"] then (valueOf input "messages").arr?.isSome
  else if hasType input ["chat_ack"] then true
  else if hasType input ["mouse_move", "mouse_down", "mouse_up"] then isValidPointer input
  else if hasType input ["wheel"] then
    (numOf (valueOf input "deltaY")).any fun delta => -1200 ≤ delta && delta ≤ 1200
  else if hasType input ["key_down", "key_up"] then (LinkKeyMessage.tryParse input).isSome
  else if hasType input ["hotkey"] then isText (valueOf input "action")
  else if hasType input ["screen_list", "get_screens"] then true
  else if hasType input ["switch_screen"] then
    (input.getPresent "screen_id").any fun id => dartText doubleText id ≠ ""
  else if hasType input ["clipboard_set"] then isTextWithin 65536 (valueOf input "text")
  else if hasType input ["clipboard_get"] then true
  else if hasType input ["block_input"] then
    match valueOf input "blocked" with
    | .bool _ => true
    | _ => false
  else if hasType input ["text_input"] then isValidText (valueOf input "text")
  else if hasType input ["video_quality"] then isValidQuality input
  else if hasType input ["reboot"] then true
  else if hasType input ["file_start"] then isValidFileStart input
  else if hasType input ["file_chunk"] then isValidFileChunk input
  else if hasType input ["file_end"] then isText (valueOr input "transfer_id" "id")
  else if hasType input ["fs_list"] then isNullOr (fun v => v.str?.isSome) (valueOf input "path")
  else if hasType input ["fs_download_start"] then isText (valueOr input "remote_path" "path")
  else if hasType input ["fs_delete"] then isText (valueOf input "path")
  else if hasType input ["fs_mkdir"] then isText (valueOf input "path") && isText (valueOf input "name")
  else false

inductive Platform
  | windows
  | macOS
  | linux
  | other
  deriving DecidableEq

/-- The calls of `InputInjector` that a message makes. -/
inductive InjectorCall
  | moveMouse (x y : ℚ)
  /-- With the action `down` or `up`. -/
  | mouseAction (isDown : Bool) (button : ℤ) (x y : ℚ)
  | mouseWheel (deltaY : ℚ)
  | keyAction (isDown : Bool) (key : String) (char : Option String)
  /-- `keyAction` whose key and character are one code unit of a text. -/
  | keyUnit (isDown : Bool) (unit : ℕ)
  | triggerHotkey (hotkey : String)
  | setInputBlocked (blocked : Bool)

inductive HostCall
  | injector (call : InjectorCall)
  | sendControlJson (message : Json)
  /-- `onChatMessageReceived`. -/
  | receiveChat (message : Json)
  | sendScreenList
  | switchScreen (screenId : String)
  /-- The bit rate of the video. -/
  | setBitrate (bitrate : ℤ)
  | remoteReboot
  /-- The handler of a message about files. -/
  | handleFile (input : Json)
  | setClipboard (text : String)
  /-- A text is given to `xdotool`. -/
  | typeText (text : String)

def codeUnits (text : String) : List ℕ :=
  text.toList.flatMap fun c =>
    if c.toNat < 0x10000 then [c.toNat]
    else [0xD800 + (c.toNat - 0x10000) / 0x400, 0xDC00 + (c.toNat - 0x10000) % 0x400]

/-- `_handleTextInput` up to its first wait. -/
def handleTextInput (platform : Platform) (text : String) : List HostCall :=
  match platform with
  | .windows => (codeUnits text).flatMap fun unit =>
      [.injector (.keyUnit true unit), .injector (.keyUnit false unit)]
  | .linux => [.typeText text]
  | .macOS | .other => [.setClipboard text]

/-- The hotkey with which `_handleTextInput` goes on after its wait, where it has one. -/
def pasteHotkey : Platform → Option String
  | .macOS => some "cmd_v"
  | .other => some "ctrl_v"
  | .windows | .linux => none

/-- The bit rate of `_handleVideoQuality`, unless it throws. -/
def bitrateOf (doubleText : ℚ → String) (input : Json) : Option ℤ :=
  let quality := dartTextOr doubleText input "quality" "balanced"
  if quality = "best" ∨ quality = "high" then some 4000000
  else if quality = "low" then some 800000
  else match valueOf input "bitrate" with
    | .null => some 2500000
    | .int n => some n
    | .dec q => some (Int.tdiv q.num q.den)
    | _ => none

/-- The answer to a message whose branch throws. -/
def inputError : HostCall := .sendControlJson (.obj [("type", .str "input_error")])

def executePointer (input : Json) : List HostCall :=
  match numOf (valueOf input "x"), numOf (valueOf input "y"), valueOf input "button" with
  | some x, some y, button =>
    if hasType input ["mouse_move"] then [.injector (.moveMouse x y)]
    else match button with
      | .int n => [.injector (.mouseAction (hasType input ["mouse_down"]) n x y)]
      | _ => [inputError]
  | _, _, _ => [inputError]

def executeChat (input : Json) : List HostCall :=
  if hasType input ["chat_message"] then
    [.sendControlJson (.obj [("type", .str "chat_ack"), ("id", valueOf input "id"),
      ("client_id", valueOf input "client_id")]), .receiveChat input]
  else if hasType input ["chat_sync"] then
    (((valueOf input "messages").arr?.getD []).filter Json.isObj).map .receiveChat
  else []

/-- `_executeInput` after its gates. -/
def executeBranches (platform : Platform) (doubleText : ℚ → String) (policy : LinkSessionPolicy)
    (input : Json) : List HostCall :=
  if hasType input ["chat_message", "chat_sync", "chat_ack"] then executeChat input
  else if hasType input ["mouse_move", "mouse_down", "mouse_up"] then executePointer input
  else if hasType input ["wheel"] then
    match numOf (valueOf input "deltaY") with
    | some delta => [.injector (.mouseWheel delta)]
    | none => [inputError]
  else if hasType input ["key_down", "key_up"] then
    match LinkKeyMessage.tryParse input with
    | some m => [.injector (.keyAction m.isDown m.key m.char)]
    | none => []
  else if hasType input ["hotkey"] then
    match valueOf input "action" with
    | .str action => [.injector (.triggerHotkey action)]
    | _ => [inputError]
  else if hasType input ["text_input"] then handleTextInput platform (dartTextOr doubleText input "text" "")
  else if hasType input ["screen_list", "get_screens"] then [.sendScreenList]
  else if hasType input ["switch_screen"] then
    match input.getPresent "screen_id" with
    | some id => [.switchScreen (dartText doubleText id)]
    | none => []
  else if hasType input ["video_quality"] then
    match bitrateOf doubleText input with
    | some bitrate => [.setBitrate bitrate]
    | none => [inputError]
  else if hasType input ["reboot"] then [.remoteReboot]
  else if hasType input ["file_start", "file_chunk", "file_end", "fs_list", "fs_download_start", "fs_delete",
      "fs_mkdir"] then [.handleFile input]
  else if hasType input ["clipboard_set"] then
    let text := dartTextOr doubleText input "text" ""
    if utf16Length text ≤ maxClipboardLength && policy.allowClipboardIn then [.setClipboard text] else []
  else if hasType input ["block_input"] then
    [.injector (.setInputBlocked ((valueOf input "blocked").isTrue)),
      .sendControlJson (.obj [("type", .str "block_input_ack"),
        ("blocked", .bool (valueOf input "blocked").isTrue)])]
  else []

end LigamentApps.LinkHost
