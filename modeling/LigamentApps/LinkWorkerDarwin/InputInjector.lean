import LigamentApps.LinkWorkerDarwin.Models
import Mathlib.Data.Rat.Floor

/-!
# The data channel of the native macOS worker

`InputInjector.swift` and the message dispatch of `WebRTCBridge.swift`: what a message on the control
channel posts as events of Core Graphics. -/

namespace LigamentApps.LinkWorkerDarwin

structure DisplayBounds where
  x : ℚ := 0
  y : ℚ := 0
  width : ℚ := 1920
  height : ℚ := 1080

inductive MouseButton
  | left
  | right
  | center
  deriving DecidableEq

/-- What a mouse event says. -/
inductive MouseKind
  | moved
  | dragged
  | down
  | up
  deriving DecidableEq

/-- An event posted to the system. -/
inductive CGEvent
  | mouse (kind : MouseKind) (x y : ℚ) (button : MouseButton)
  /-- The wheel was turned by some lines. -/
  | scroll (ticks : ℤ)
  | key (code : ℤ) (down : Bool)
  /-- A key event that carries a text. -/
  | unicode (text : String) (down : Bool)
  deriving DecidableEq

/-- The state of `InputInjector`. -/
structure InputInjector where
  isLeftMouseDown : Bool := false
  isRightMouseDown : Bool := false

namespace InputInjector

variable (inj : InputInjector)

def moveMouse (normX normY : ℚ) (bounds : DisplayBounds) : InputInjector × List CGEvent :=
  let px := bounds.x + normX * bounds.width
  let py := bounds.y + normY * bounds.height
  (inj, [if inj.isLeftMouseDown then .mouse .dragged px py .left
    else if inj.isRightMouseDown then .mouse .dragged px py .right
    else .mouse .moved px py .left])

/-- The button that a number names. -/
def buttonOf (button : ℤ) : MouseButton :=
  if button = 1 then .right else if button = 2 then .center else .left

/-- The injector after a button was pressed or released. -/
def setDown (button : ℤ) (down : Bool) : InputInjector :=
  { isLeftMouseDown := if button = 0 then down else inj.isLeftMouseDown
    isRightMouseDown := if button = 1 then down else inj.isRightMouseDown }

def mouseAction (action : String) (button : ℤ) (normX normY : ℚ)
    (bounds : DisplayBounds) : InputInjector × List CGEvent :=
  let px := bounds.x + normX * bounds.width
  let py := bounds.y + normY * bounds.height
  let pressed := action = "down" ∨ action = "click"
  let released := action = "up" ∨ action = "click"
  let pressedInj := if pressed then inj.setDown button true else inj
  (if released then pressedInj.setDown button false else pressedInj,
    (if pressed then [.mouse .down px py (buttonOf button)] else []) ++
      if released then [.mouse .up px py (buttonOf button)] else [])

/-- Swift's `rounded()`, which rounds halves away from zero. -/
def rounded (q : ℚ) : ℤ := if 0 ≤ q then ⌊q + 1 / 2⌋ else ⌈q - 1 / 2⌉

def mouseWheel (deltaY : ℚ) : InputInjector × List CGEvent :=
  let ticks := max (-50) (min 50 (rounded (-deltaY)))
  (inj, if ticks = 0 then [] else [.scroll ticks])

def keyAction (macKeyCode : ℤ) (isDown : Bool) : InputInjector × List CGEvent :=
  (inj, [.key macKeyCode isDown])

def insertText (text : String) : InputInjector × List CGEvent :=
  (inj, [.unicode text true, .unicode text false])

end InputInjector

/-- What a message asks of the injector. -/
inductive InputRequest
  | moveMouse (x y : ℚ)
  | mouseAction (action : String) (button : ℤ) (x y : ℚ)
  | mouseWheel (deltaY : ℚ)
  | keyAction (macKeyCode : ℤ) (isDown : Bool)
  | insertText (text : String)

/-- The dispatch of `dataChannel(_:didReceiveMessageWith:)` on the message's type and fields. -/
def inputRequest (json : Json) : Option InputRequest := do
  guard json.isObj
  let type ← (← json.get "type").str?
  if type = "mouse_move" then
    return .moveMouse (← asDouble (← json.get "x")) (← asDouble (← json.get "y"))
  else if type = "mouse_action" then
    return .mouseAction (← (← json.get "action").str?) (← asInt (← json.get "button"))
      (← asDouble (← json.get "x")) (← asDouble (← json.get "y"))
  else if type = "mouse_wheel" then
    return .mouseWheel (← asDouble (← json.get "delta_y"))
  else if type = "key_action" then
    return .keyAction (← asUInt16 (← json.get "mac_key_code")) (← asBool (← json.get "is_down"))
  else if type = "text_input" then
    return .insertText (← (← json.get "text").str?)
  else none

def InputInjector.serve (inj : InputInjector) (bounds : DisplayBounds) :
    InputRequest → InputInjector × List CGEvent
  | .moveMouse x y => inj.moveMouse x y bounds
  | .mouseAction action button x y => inj.mouseAction action button x y bounds
  | .mouseWheel deltaY => inj.mouseWheel deltaY
  | .keyAction macKeyCode isDown => inj.keyAction macKeyCode isDown
  | .insertText text => inj.insertText text

/-- Serving the request posts something: it is no wheel turn of less than half a line, and no button
action other than the three known ones. -/
def InputRequest.posts : InputRequest → Bool
  | .mouseAction action .. => action = "down" || action = "up" || action = "click"
  | .mouseWheel deltaY => InputInjector.rounded (-deltaY) ≠ 0
  | .moveMouse .. | .keyAction .. | .insertText _ => true

/-- A message on the control channel; `trusted` is `isAccessibilityTrusted`. A message that is binary
or no JSON is `none`. -/
def InputInjector.receive (inj : InputInjector) (bounds : DisplayBounds) (message : Option Json)
    (trusted : Bool) : InputInjector × List CGEvent :=
  match message.bind inputRequest with
  | none => (inj, [])
  | some request => if trusted then inj.serve bounds request else (inj, [])

theorem InputInjector.serve_eq_nil_iff (inj : InputInjector) (bounds : DisplayBounds)
    (request : InputRequest) : (inj.serve bounds request).2 = [] ↔ request.posts = false := by
  cases request with
  | mouseAction action =>
    by_cases hdown : action = "down"
    · simp [serve, mouseAction, InputRequest.posts, hdown]
    by_cases hup : action = "up"
    · simp [serve, mouseAction, InputRequest.posts, hup]
    by_cases hclick : action = "click"
    · simp [serve, mouseAction, InputRequest.posts, hclick]
    · simp [serve, mouseAction, InputRequest.posts, hdown, hup, hclick]
  | mouseWheel deltaY =>
    have hclamp : max (-50) (min 50 (rounded (-deltaY))) = 0 ↔ rounded (-deltaY) = 0 := by omega
    simp [serve, mouseWheel, InputRequest.posts, hclamp]
  | moveMouse => simp [serve, moveMouse, InputRequest.posts]
  | keyAction => simp [serve, keyAction, InputRequest.posts]
  | insertText => simp [serve, insertText, InputRequest.posts]

/-- The message asks, of a trusted worker, for an input that posts something. -/
def asksInput (message : Option Json) (trusted : Bool) : Bool :=
  trusted && (message.bind inputRequest).any InputRequest.posts

theorem InputInjector.receive_eq_nil_iff (inj : InputInjector) (bounds : DisplayBounds)
    (message : Option Json) (trusted : Bool) :
    (inj.receive bounds message trusted).2 = [] ↔ asksInput message trusted = false := by
  unfold receive asksInput
  cases message.bind inputRequest with
  | none => simp
  | some request =>
    cases trusted with
    | false => simp
    | true => simpa using inj.serve_eq_nil_iff bounds request

end LigamentApps.LinkWorkerDarwin
