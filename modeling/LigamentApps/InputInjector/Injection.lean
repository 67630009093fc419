import LigamentApps.LinkHost.ControlMessages

/-!
# The input injector

`mouseAction`, `keyAction` and `releaseAllPressed` of `InputInjector` of `input_injector.dart` on every
platform: what they inject, and the sets of what is pressed. Texts are lists of UTF-16 code units, and how
Dart changes the case of letters is the parameter `Casing`. Where the pointer goes is left out, save that a
rectangle without an area makes the computation throw; what `xdotool` is told counts as injected in that
order. -/

namespace LigamentApps.InputInjector

open LinkHost (Platform codeUnits)

/-! ## What is injected -/

inductive MouseButton
  | left
  | middle
  | right
  | xButton1
  | xButton2
  deriving DecidableEq

/-- What an injected event presses or releases. -/
inductive Pressable
  | button (b : MouseButton)
  /-- A virtual key of Windows. -/
  | vk (code : ℕ)
  | macKey (code : ℕ)
  /-- A character that Windows is given as such. -/
  | unicode (codeUnit : ℕ)
  /-- A key of `xdotool`, by its name. -/
  | named (arg : List ℕ)
  deriving DecidableEq

inductive InputEvent
  | down (k : Pressable)
  | up (k : Pressable)
  /-- The call throws. -/
  | threw
  deriving DecidableEq

/-- The platform, and which functions of the system were found. -/
structure Desktop where
  web : Bool := false
  platform : Platform
  cgEventCreateMouseEvent : Bool := true
  cgEventCreateKeyboardEvent : Bool := true
  cgEventPost : Bool := true
  cfRelease : Bool := true
  winMouseEvent : Bool := true
  winKeybdEvent : Bool := true
  nativeSendMouse : Bool := true
  nativeSendVk : Bool := true
  nativeSendUnicode : Bool := true

/-- `toLowerCase` and `toUpperCase` of texts. -/
structure Casing where
  toLowerCase : List ℕ → List ℕ
  toUpperCase : List ℕ → List ℕ

/-- The area of a `ScreenRect`. -/
structure ScreenRect where
  width : ℤ
  height : ℤ

/-- The point in a rectangle can be computed: the limits of `clamp` are in order. -/
def ScreenRect.isUsable (r : ScreenRect) : Bool := 0 < r.width && 0 < r.height

def buttonOf (button : ℤ) : MouseButton :=
  if button = 2 then .right
  else if button = 1 then .middle
  else if button = 3 then .xButton1
  else if button = 4 then .xButton2
  else .left

/-! ## The names of keys -/

variable (casing : Casing)

variable (key : List ℕ)

def normalizeKeyName : List ℕ :=
  (casing.toLowerCase key).filter fun unit => unit ≠ 32 && unit ≠ 95 && unit ≠ 45

/-- The names of `_isControlKeyName`. -/
def controlKeyNames : List String :=
  ["enter", "return", "tab", "backspace", "delete", "del", "escape", "esc", "control", "ctrl", "controlleft",
    "ctrlleft", "controlright", "ctrlright", "alt", "altleft", "altright", "shift", "shiftleft",
      "shiftright", "meta",
    "win", "arrowleft", "arrowright", "arrowup", "arrowdown", "left", "right", "up", "down", "capslock",
      "home", "end",
    "pageup", "pagedown", "insert"]

def isControlKeyName : Bool :=
  controlKeyNames.any fun name => codeUnits name = normalizeKeyName casing key

/-- The names of `_mapToMacKeyCode`. -/
def macKeyNames : List (String × ℕ) :=
  [("enter", 36), ("return", 36), ("tab", 48), ("space", 49), ("", 49), ("backspace", 51), ("delete", 51),
    ("forwarddelete", 117), ("escape", 53), ("esc", 53), ("command", 55), ("meta", 55), ("metaleft", 55),
    ("commandleft", 55), ("metaright", 54), ("commandright", 54), ("shift", 56), ("shiftleft", 56),
      ("shiftright", 60),
    ("option", 58), ("alt", 58), ("altleft", 58), ("optionleft", 58), ("altright", 61), ("optionright", 61),
    ("control", 59), ("ctrl", 59), ("controlleft", 59), ("ctrlleft", 59), ("controlright", 62), ("ctrlright", 62),
    ("capslock", 57), ("arrowleft", 123), ("left", 123), ("arrowright", 124), ("right", 124), ("arrowdown", 125),
    ("down", 125), ("arrowup", 126), ("up", 126), ("home", 115), ("end", 119), ("pageup", 116), ("pagedown", 121),
    ("a", 0), ("s", 1), ("d", 2), ("f", 3), ("h", 4), ("g", 5), ("z", 6), ("x", 7), ("c", 8), ("v", 9), ("b", 11),
    ("q", 12), ("w", 13), ("e", 14), ("r", 15), ("y", 16), ("t", 17), ("1", 18), ("2", 19), ("3", 20), ("4", 21),
    ("6", 22), ("5", 23), ("equal", 24), ("9", 25), ("7", 26), ("minus", 27), ("8", 28), ("0", 29), ("o", 31),
    ("u", 32), ("i", 34), ("p", 35), ("l", 37), ("j", 38), ("k", 40), ("m", 46), ("n", 45)]

/-- The codes of the letters from A to Z. -/
def macLetters : List ℕ :=
  [0, 11, 8, 2, 14, 3, 5, 4, 34, 38, 40, 37, 46, 45, 31, 35, 12, 15, 1, 17, 32, 9, 13, 7, 16, 6]

def mapToMacKeyCode (code : Option ℤ) : Option ℕ :=
  match code.filter (0 < ·) with
  | some c => some c.toNat
  | none =>
    match macKeyNames.find? fun entry => codeUnits entry.1 = normalizeKeyName casing key with
    | some entry => some entry.2
    | none =>
      if key.length = 1 then
        let cu := (casing.toUpperCase key).headD 0
        if 65 ≤ cu ∧ cu ≤ 90 then macLetters[cu - 65]? else none
      else none

/-- The names of `_mapToWinKeyCode`. -/
def winKeyNames : List (String × ℕ) :=
  [("enter", 0x0D), ("return", 0x0D), ("tab", 0x09), ("space", 0x20), ("", 0x20), ("backspace", 0x08),
    ("delete", 0x2E), ("del", 0x2E), ("escape", 0x1B), ("esc", 0x1B), ("control", 0x11), ("ctrl", 0x11),
    ("controlleft", 0x11), ("ctrlleft", 0x11), ("controlright", 0x11), ("ctrlright", 0x11), ("alt", 0x12),
    ("altleft", 0x12), ("menu", 0x12), ("altright", 0x12), ("shift", 0x10), ("shiftleft", 0x10),
      ("shiftright", 0x10),
    ("meta", 0x5B), ("win", 0x5B), ("windows", 0x5B), ("metaleft", 0x5B), ("winleft", 0x5B), ("metaright", 0x5C),
    ("winright", 0x5C), ("arrowleft", 0x25), ("left", 0x25), ("arrowright", 0x27), ("right", 0x27),
      ("arrowup", 0x26),
    ("up", 0x26), ("arrowdown", 0x28), ("down", 0x28), ("capslock", 0x14), ("home", 0x24), ("end", 0x23),
    ("pageup", 0x21), ("pagedown", 0x22), ("insert", 0x2D), ("f1", 0x70), ("f2", 0x71), ("f3", 0x72), ("f4", 0x73),
    ("f5", 0x74), ("f6", 0x75), ("f7", 0x76), ("f8", 0x77), ("f9", 0x78), ("f10", 0x79), ("f11", 0x7A),
      ("f12", 0x7B)]

/-- The code of a text of one unit, where it is below 128. -/
def asciiCode (text : List ℕ) : Option ℕ :=
  if text.length = 1 then (some ((casing.toUpperCase text).headD 0)).filter (· ≤ 127) else none

def mapToWinKeyCode (code : Option ℤ) : ℕ :=
  match code.filter (0 < ·) with
  | some c => c.toNat
  | none =>
    let clean := normalizeKeyName casing key
    match winKeyNames.find? fun entry => codeUnits entry.1 = clean with
    | some entry => entry.2
    | none => ((asciiCode casing key).or (asciiCode casing clean)).getD 0

/-! ## The sets -/

/-- `Set.add`. -/
def withElement {α : Type} [DecidableEq α] (l : List α) (x : α) : List α := if x ∈ l then l else l ++ [x]

/-- `Set.remove`. -/
def withoutElement {α : Type} [DecidableEq α] (l : List α) (x : α) : List α := l.filter (· ≠ x)

/-- The sets of what is pressed, and the last rectangle of the mouse. -/
structure Injector where
  pressedMouseButtons : List ℤ := []
  pressedWinKeyCodes : List ℕ := []
  pressedMacKeyCodes : List ℕ := []
  lastScreenRect : Option ScreenRect := none

/-- What `mouseAction` notes before it injects. -/
def Injector.noted (s : Injector) (action : String) (button : ℤ) (screenRect : Option ScreenRect) : Injector :=
  { s with
    lastScreenRect := screenRect,
    pressedMouseButtons :=
      if action = "down" then withElement s.pressedMouseButtons button
      else if action = "up" then withoutElement s.pressedMouseButtons button
      else s.pressedMouseButtons }

namespace Desktop

variable (d : Desktop)

/-- The platform has a branch of its own. -/
def hasMouse : Bool := d.platform ≠ .other

/-- The function that presses a button is there. -/
def canClick : Bool :=
  match d.platform with
  | .macOS => d.cgEventCreateMouseEvent && d.cgEventPost && d.cfRelease
  | .windows => d.nativeSendMouse || d.winMouseEvent
  | .linux => true
  | .other => false

/-- The function that presses a key of macOS is there. -/
def canPressMac : Bool := d.cgEventCreateKeyboardEvent && d.cgEventPost && d.cfRelease

/-- A key of macOS is pressed or released; its code has 16 bits. -/
def macEvent (isDown : Bool) (code : ℕ) : List InputEvent :=
  if d.canPressMac then [if isDown then .down (.macKey (code % 65536)) else .up (.macKey (code % 65536))] else []

/-- The key that is pressed by a code: the function of the application takes 16 bits of it, `keybd_event`
8. -/
def vkOf (code : ℕ) : Pressable := .vk (if d.nativeSendVk then code % 65536 else code % 256)

/-- A virtual key is pressed or released, where a function for it is there. -/
def vkEvent (isDown : Bool) (code : ℕ) : List InputEvent :=
  if d.nativeSendVk || d.winKeybdEvent then [if isDown then .down (d.vkOf code) else .up (d.vkOf code)] else []

def mouseEvents (action : String) (button : ℤ) : List InputEvent :=
  if d.canClick then
    if action = "down" then [.down (.button (buttonOf button))]
    else if action = "up" then [.up (.button (buttonOf button))]
    else [.down (.button (buttonOf button)), .up (.button (buttonOf button))]
  else []

def mouseAction (s : Injector) (action : String) (button : ℤ) (screenRect : Option ScreenRect) :
    Injector × List InputEvent :=
  if d.web then (s, [])
  else if d.hasMouse then
    (s.noted action button screenRect,
      if screenRect.all ScreenRect.isUsable then d.mouseEvents action button else [.threw])
  else (s.noted action button screenRect, [])

/-- `keyAction` on macOS. -/
def macKeyAction (casing : Casing) (s : Injector) (isDown : Bool) (key : List ℕ) (keyCode : Option ℤ) :
    Injector × List InputEvent :=
  match mapToMacKeyCode casing key keyCode with
  | some macCode =>
    if d.canPressMac then
      ({ s with
          pressedMacKeyCodes :=
            if isDown then withElement s.pressedMacKeyCodes macCode else withoutElement s.pressedMacKeyCodes macCode },
        d.macEvent isDown macCode)
    else (s, [])
  | none => (s, [])

/-- The character of a key on Windows: the one that is given, or the key itself where it is one unit long. -/
def textChar (key : List ℕ) (char : Option (List ℕ)) : Option (List ℕ) :=
  (char.filter (· ≠ [])).or (if key.length = 1 then some key else none)

/-- `keyAction` on Windows. -/
def winKeyAction (casing : Casing) (s : Injector) (isDown : Bool) (key : List ℕ) (keyCode : Option ℤ)
    (char : Option (List ℕ)) : Injector × List InputEvent :=
  match (textChar key char).filter fun _ => !isControlKeyName casing key && d.nativeSendUnicode with
  | some text =>
    let codeUnit := text.headD 0
    (s, [if isDown then .down (.unicode codeUnit) else .up (.unicode codeUnit)])
  | none =>
    let winCode := mapToWinKeyCode casing key keyCode
    if winCode = 0 then (s, [])
    else
      ({ s with
          pressedWinKeyCodes :=
            if isDown then withElement s.pressedWinKeyCodes winCode else withoutElement s.pressedWinKeyCodes winCode },
        d.vkEvent isDown winCode)

def keyAction (casing : Casing) (s : Injector) (action : String) (key : List ℕ) (keyCode : Option ℤ)
    (char : Option (List ℕ)) : Injector × List InputEvent :=
  let isDown : Bool := action = "down"
  if d.web then (s, [])
  else
    match d.platform with
    | .macOS => d.macKeyAction casing s isDown key keyCode
    | .windows => d.winKeyAction casing s isDown key keyCode char
    | .linux =>
      let arg := (char.filter (· ≠ [])).getD key
      (s, [if isDown then .down (.named arg) else .up (.named arg)])
    | .other => (s, [])

/-- The loop of `releaseAllPressed` over the buttons: each is released where the mouse was last. -/
def releaseButtons : Injector → List ℤ → Injector × List InputEvent
  | s, [] => (s, [])
  | s, button :: buttons =>
    let r := d.mouseAction s "up" button s.lastScreenRect
    if .threw ∈ r.2 then r
    else
      let r' := releaseButtons r.1 buttons
      (r'.1, r.2 ++ r'.2)

def releaseAllPressed (s : Injector) : Injector × List InputEvent :=
  if d.web then (s, [])
  else
    let r := d.releaseButtons s s.pressedMouseButtons
    if .threw ∈ r.2 then r
    else
      let released := { r.1 with pressedMouseButtons := [] }
      match d.platform with
      | .windows =>
        ({ released with pressedWinKeyCodes := [] }, r.2 ++ released.pressedWinKeyCodes.flatMap (d.vkEvent false))
      | .macOS =>
        ({ released with pressedMacKeyCodes := [] }, r.2 ++ released.pressedMacKeyCodes.flatMap (d.macEvent false))
      | _ => (released, r.2)

/-- macOS may fail to create an event, which is then not posted: `created` says of each event of a call
whether it was. -/
def posted (created : ℕ → Bool) (es : List InputEvent) : List InputEvent :=
  if d.platform = .macOS then (es.zipIdx.filter fun e => e.1 = .threw || created e.2).map Prod.fst else es

end Desktop

/-- The calls of the injector, with the events that macOS creates. -/
inductive InjectorAction
  | mouseAction (action : String) (button : ℤ) (screenRect : Option ScreenRect) (created : ℕ → Bool)
  | keyAction (action : String) (key : List ℕ) (keyCode : Option ℤ) (char : Option (List ℕ)) (created : ℕ → Bool)
  | releaseAllPressed (created : ℕ → Bool)

def step (d : Desktop) (s : Injector) : InjectorAction → Option (Injector × List InputEvent)
  | .mouseAction action button screenRect created =>
    let r := d.mouseAction s action button screenRect
    some (r.1, d.posted created r.2)
  | .keyAction action key keyCode char created =>
    let r := d.keyAction casing s action key keyCode char
    some (r.1, d.posted created r.2)
  | .releaseAllPressed created =>
    let r := d.releaseAllPressed s
    some (r.1, d.posted created r.2)

def injector (d : Desktop) : Machine Injector InjectorAction InputEvent := ⟨step casing d⟩

end LigamentApps.InputInjector
