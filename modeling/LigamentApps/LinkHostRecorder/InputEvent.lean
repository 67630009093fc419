import LigamentApps.LinkHost.RecordingConfig
import LigamentApps.LinkHostRecorder.Items

/-!
# What is recorded of the operator's input

`LinkHostRecorder.sanitizeInputEvent`: the event that a control message leaves in the archive, without
typed text, passwords and the contents of the clipboard. -/

namespace LigamentApps.LinkHostRecorder

open LinkHost

def allowedNonPrintableKeys : List String :=
  ["enter", "return", "tab", "escape", "esc", "backspace", "delete", "insert", "home", "end",
    "pageup", "page up", "pagedown", "page down", "arrowup", "arrow up", "arrowdown", "arrow down",
    "arrowleft", "arrow left", "arrowright", "arrow right", "up", "down", "left", "right", "space",
    "capslock", "caps lock", "numlock", "num lock", "scrolllock", "scroll lock", "f1", "f2", "f3",
    "f4", "f5", "f6", "f7", "f8", "f9", "f10", "f11", "f12", "control", "ctrl", "control left",
    "control right", "ctrl left", "ctrl right", "alt", "alt left", "alt right", "shift",
    "shift left", "shift right", "meta", "meta left", "meta right", "win", "super"]

/-- `text.length`: the UTF-16 code units of a string. -/
def utf16Length (s : String) : ℕ := (s.toList.map fun c => if c.toNat < 0x10000 then 1 else 2).sum

/-- Dart's `trim` and `toLowerCase` of a key's name. Apart from the ASCII letters, the Kelvin sign is
the one letter whose lower case can stand in a name of `allowedNonPrintableKeys`. -/
def keyNameOf (s : String) : String :=
  trimLower (String.ofList (s.toList.map fun c => if c.toNat = 0x212A then 'k' else c))

/-- `raw[name]`, null where it is missing. -/
def valueOf (raw : Json) (name : String) : Json := (raw.get name).getD .null

/-- The member `name: raw[name]` of a map, left out where it is null. -/
def optionalMember (raw : Json) (name : String) : List (String × Json) :=
  match raw.getPresent name with
  | some v => [(name, v)]
  | none => []

/-- The metadata of a file transfer message. -/
def fileTransferMetadata (raw : Json) (type : String) : Json :=
  .obj ([("stage", .str type),
      ("transfer_id", (raw.getPresent "transfer_id").getD (valueOf raw "id"))] ++
    ["filename", "size", "dest_dir", "checksum", "ok", "reason"].flatMap (optionalMember raw))

variable (doubleText : ℚ → String)

/-- The name of the key that a `key_down` message names. -/
def pressedKeyName (raw : Json) : String :=
  if dartTextOr doubleText raw "key" "" = " " ∨ dartTextOr doubleText raw "char" "" = " " then "space"
  else keyNameOf (dartTextOr doubleText raw "key" "")

/-- The type and the metadata of the event that a key leaves. -/
def keyDownEvent (keyName : String) : Option (String × Json) :=
  if keyName = "" then none
  else if allowedNonPrintableKeys.contains keyName then
    some ("special_key", .obj [("action", .str "key_down"), ("key", .str keyName)])
  else some ("key_input", .obj [("action", .str "key_down")])

/-- The type and the metadata of the event that a hotkey leaves. -/
def hotkeyEvent (action : String) : Option (String × Json) :=
  if action = "" then none else some ("hotkey", .obj [("action", .str action)])

/-- The type and the metadata of the event that a control message leaves, if it leaves any. -/
def inputEventOf (raw : Json) : Option (String × Json) :=
  match dartTextOr doubleText raw "type" "" with
  | "mouse_down" => some ("mouse_click", .obj [("action", .str "mouse_down"),
      ("button", valueOf raw "button"), ("x", valueOf raw "x"), ("y", valueOf raw "y")])
  | "mouse_up" => some ("mouse_click", .obj [("action", .str "mouse_up"),
      ("button", valueOf raw "button"), ("x", valueOf raw "x"), ("y", valueOf raw "y")])
  | "wheel" => some ("mouse_wheel", .obj [("delta_y", valueOf raw "deltaY")])
  | "hotkey" => hotkeyEvent (dartTextOr doubleText raw "action" "")
  | "key_down" => keyDownEvent (pressedKeyName doubleText raw)
  | "text_input" => some ("text_input",
      .obj [("length", .int (utf16Length (dartTextOr doubleText raw "text" "")))])
  | "clipboard_set" => some ("clipboard_meta",
      .obj [("direction", .str "operator_to_host"), ("content_redacted", .bool true)])
  | "clipboard_get" => some ("clipboard_meta",
      .obj [("direction", .str "host_to_operator"), ("content_redacted", .bool true)])
  | "switch_screen" => some ("screen_switch", .obj [("screen_id", valueOf raw "screen_id")])
  | "block_input" => some ("block_input", .obj [("blocked", .bool (flag raw "blocked"))])
  | "reboot" => some ("remote_reboot", .obj [])
  | "file_start" => some ("file_transfer_meta", fileTransferMetadata raw "file_start")
  | "file_end" => some ("file_transfer_meta", fileTransferMetadata raw "file_end")
  | "file_ack" => some ("file_transfer_meta", fileTransferMetadata raw "file_ack")
  | "file_reject" => some ("file_transfer_meta", fileTransferMetadata raw "file_reject")
  | _ => none

/-- `sanitizeInputEvent`, with the number that `observeControlInput` gives the event. -/
def sanitizeInputEvent (raw : Json) (occurredAt : ℤ) (seq : ℕ) : Option Event :=
  (inputEventOf doubleText raw).map fun (eventType, metadata) =>
    { seq, eventType, source := "remote_operator", occurredAt, metadata }

theorem keyDownEvent_ne_marker (keyName : String) : ∀ r ∈ keyDownEvent keyName, r.1 ≠ "gap_marker" := by
  unfold keyDownEvent
  split
  · simp
  split <;> simp

theorem hotkeyEvent_ne_marker (action : String) : ∀ r ∈ hotkeyEvent action, r.1 ≠ "gap_marker" := by
  unfold hotkeyEvent
  split <;> simp

theorem inputEventOf_ne_marker (raw : Json) : ∀ r ∈ inputEventOf doubleText raw, r.1 ≠ "gap_marker" := by
  unfold inputEventOf
  split
  case h_4 => exact hotkeyEvent_ne_marker _
  case h_5 => exact keyDownEvent_ne_marker _
  all_goals simp

theorem sanitizeInputEvent_spec {doubleText : ℚ → String} {raw : Json} {occurredAt : ℤ} {seq : ℕ}
    {e : Event} (h : sanitizeInputEvent doubleText raw occurredAt seq = some e) :
    e.seq = seq ∧ e.isGapMarker = false := by
  obtain ⟨r, hr, rfl⟩ := Option.map_eq_some_iff.mp h
  have hne := inputEventOf_ne_marker doubleText raw r hr
  exact ⟨rfl, by simpa [Event.isGapMarker] using hne⟩

end LigamentApps.LinkHostRecorder
