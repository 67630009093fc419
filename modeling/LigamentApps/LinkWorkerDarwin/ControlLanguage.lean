import LigamentApps.LinkHost.ControlMessages
import LigamentApps.LinkWorkerDarwin.Enforcement

/-!
# The control language of the two workers

What a control message asks of the injector, as `_executeInput` of the Flutter worker and as the data channel
of the native macOS worker read it; and the buttons and keys that the events of the native worker leave
down. -/

namespace LigamentApps.LinkWorkerDarwin

open LinkHost LinkHostRecorder List Option

variable {name : String} {v : Json}

/-! ## What is asked for -/

inductive KeyName
  | named (key : String) (char : Option String)
  | code (code : ℤ)

/-- An input that is asked of an injector, at positions between zero and one. -/
inductive ControlInput
  | move (x y : ℚ)
  | button (isDown : Bool) (b : MouseButton) (x y : ℚ)
  | wheel (deltaY : ℚ)
  | key (isDown : Bool) (key : KeyName)
  | text (text : String)

/-- The messages of pointer, buttons, wheel, keys and text. -/
def inputTypes : List String :=
  ["mouse_move", "mouse_down", "mouse_up", "wheel", "key_down", "key_up", "text_input"]

/-- The Flutter worker accepts the message as one of pointer, buttons, wheel, keys or text. -/
def acceptsInput (doubleText : ℚ → String) (input : Json) : Bool :=
  hasType input inputTypes && isValidInput doubleText input

/-- A button of the Flutter worker's `mouseAction`: 0 is left, 1 middle, 2 right. -/
def flutterButton (button : ℤ) : MouseButton :=
  if button = 2 then .right else if button = 1 then .center else .left

def MouseButton.number : MouseButton → ℤ
  | .left => 0
  | .center => 1
  | .right => 2

/-- What `_executeInput` asks for, of a message that it accepts. -/
def flutterInput (input : Json) : Option ControlInput :=
  if hasType input ["mouse_move", "mouse_down", "mouse_up"] then do
    let x ← numOf (valueOf input "x")
    let y ← numOf (valueOf input "y")
    if hasType input ["mouse_move"] then return .move x y
    else match valueOf input "button" with
      | .int button => return .button (hasType input ["mouse_down"]) (flutterButton button) x y
      | _ => none
  else if hasType input ["wheel"] then (numOf (valueOf input "deltaY")).map .wheel
  else if hasType input ["key_down", "key_up"] then
    (LinkKeyMessage.tryParse input).map fun m => .key m.isDown (.named m.key m.char)
  else if hasType input ["text_input"] then (valueOf input "text").str?.map .text
  else none

/-- The calls with which the Flutter worker injects what is asked for. -/
def ControlInput.calls (platform : Platform) : ControlInput → List HostCall
  | .move x y => [.injector (.moveMouse x y)]
  | .button isDown b x y => [.injector (.mouseAction isDown b.number x y)]
  | .wheel deltaY => [.injector (.mouseWheel deltaY)]
  | .key isDown (.named k char) => [.injector (.keyAction isDown k char)]
  | .key _ (.code _) => []
  | .text t => handleTextInput platform t

/-- What a request of the native worker asks for. -/
def InputRequest.inputs : InputRequest → List ControlInput
  | .moveMouse x y => [.move x y]
  | .mouseAction action button x y =>
    (if action = "down" ∨ action = "click" then [.button true (InputInjector.buttonOf button) x y] else []) ++
      if action = "up" ∨ action = "click" then [.button false (InputInjector.buttonOf button) x y] else []
  | .mouseWheel deltaY => [.wheel deltaY]
  | .keyAction macKeyCode isDown => [.key isDown (.code macKeyCode)]
  | .insertText text => [.text text]

/-- The messages of a run on the control channel, with whether the worker was trusted. -/
def messagesOf (as : List Action) : List (Option Json × Bool) :=
  as.filterMap fun
    | .message message trusted => some (message, trusted)
    | _ => none

/-- The requests that the native worker serves. -/
def requestsOf (messages : List (Option Json × Bool)) : List InputRequest :=
  messages.filterMap fun (message, trusted) => if trusted then message.bind inputRequest else none

/-- What the Flutter worker asks for, of all messages. -/
def flutterInputs (messages : List (Option Json × Bool)) : List ControlInput :=
  messages.filterMap fun (message, _) => message.bind flutterInput

/-! ## What is down -/

/-- A button or a key. -/
inductive Pressable
  | button (b : MouseButton)
  | key (code : ℤ)
  deriving DecidableEq

/-- What an event says of a button or a key: it is pressed, or released. -/
def CGEvent.presses (x : Pressable) : CGEvent → Option Bool
  | .mouse .down _ _ b => if x = .button b then some true else none
  | .mouse .up _ _ b => if x = .button b then some false else none
  | .key code down => if x = .key code then some down else none
  | _ => none

/-- What serving a request leaves of a button or a key. -/
def InputRequest.presses (x : Pressable) : InputRequest → Option Bool
  | .mouseAction action button _ _ =>
    if x = .button (InputInjector.buttonOf button) then
      if action = "up" ∨ action = "click" then some false else if action = "down" then some true else none
    else none
  | .keyAction macKeyCode isDown => if x = .key macKeyCode then some isDown else none
  | _ => none

/-- The last word on a button or a key, given what each item of a list says and what was so before. -/
def lastSaid {α : Type} (tells : α → Option Bool) (before : Bool) (items : List α) : Bool :=
  items.foldl (fun down item => (tells item).getD down) before

/-- The events posted to the system in a run. -/
def postedOf (es : List Event) : List CGEvent :=
  es.filterMap fun
    | .injected e => some e
    | _ => none

/-- The session is over: the worker has heard of it, or the channel is closed, which it takes no notice of. -/
def State.sessionEnded (s : State) (channelClosed : Bool) : Bool :=
  channelClosed || s.shuttingDown || match s.pc with
    | .stopCapture | .exited => true
    | _ => false

/-- The two workers have one control language in a run of the native one: of messages that the Flutter worker
accepts it injects the same, and when the session is over it leaves nothing down. -/
structure OneLanguage (doubleText : ℚ → String) (as : List Action) (es : List Event) (ended : Bool) : Prop where
  same : (∀ m ∈ messagesOf as, ∃ input, m = (some input, true) ∧ acceptsInput doubleText input = true) →
    (requestsOf (messagesOf as)).flatMap InputRequest.inputs = flutterInputs (messagesOf as)
  released : ended = true → ∀ x, lastSaid (CGEvent.presses x) false (postedOf es) = false

section Flutter

variable {doubleText : ℚ → String} {input : Json}

/-! ## The Flutter worker -/

theorem type_of_acceptsInput (h : acceptsInput doubleText input = true) : ∃ type ∈ inputTypes,
    valueOf input "type" = .str type ∧ isValidInput doubleText input = true := by
  unfold acceptsInput at h
  rw [Bool.and_eq_true] at h
  obtain ⟨type, htype, hvalue⟩ := type_of_hasType h.1
  exact ⟨type, htype, hvalue, h.2⟩

theorem num_of_isUnit (h : isUnit v = true) : ∃ q, numOf v = some q := by
  unfold isUnit at h
  cases hq : numOf v with
  | none =>
    rw [hq] at h
    simp at h
  | some q => exact ⟨q, rfl⟩

theorem int_of_isIntWithin {lo hi : ℤ} (h : isIntWithin lo hi v = true) : ∃ n, v = .int n ∧ lo ≤ n ∧ n ≤ hi := by
  cases v with
  | int n =>
    unfold isIntWithin at h
    rw [Bool.and_eq_true, decide_eq_true_eq, decide_eq_true_eq] at h
    exact ⟨n, rfl, h⟩
  | _ => simp [isIntWithin] at h

theorem number_flutterButton {n : ℤ} (h : 0 ≤ n ∧ n ≤ 2) : (flutterButton n).number = n := by
  unfold flutterButton
  split
  · rename_i htwo
    exact htwo.symm
  · split
    · rename_i hone
      exact hone.symm
    · show (0 : ℤ) = n
      omega

theorem calls_button (platform : Platform) {isDown : Bool} {n : ℤ} {x y : ℚ} (h : 0 ≤ n ∧ n ≤ 2) :
    ControlInput.calls platform (.button isDown (flutterButton n) x y) =
        [.injector (.mouseAction isDown n x y)] := by
  show [HostCall.injector (.mouseAction isDown (flutterButton n).number x y)] = _
  rw [number_flutterButton h]

theorem str_of_isText (h : isText v = true) : ∃ text, v = .str text := by
  cases v with
  | str text => exact ⟨text, rfl⟩
  | _ => simp [isText] at h

theorem dartTextOr_of_str {text : String} (h : valueOf input name = .str text) (otherwise : String) :
    dartTextOr doubleText input name otherwise = text := by
  have hmember : input.get name = some (.str text) := by
    unfold valueOf at h
    cases hget : input.get name with
    | none =>
      rw [hget] at h
      simp at h
    | some =>
      rw [hget] at h
      exact congrArg some h
  unfold dartTextOr Json.getPresent
  rw [hmember]
  rfl

theorem executes_flutterInput (platform : Platform) (policy : LinkSessionPolicy)
    (h : acceptsInput doubleText input = true) : ∃ i, flutterInput input = some i ∧
      executeBranches platform doubleText policy input = i.calls platform := by
  obtain ⟨type, htype, hvalue, hvalid⟩ := type_of_acceptsInput h
  unfold isValidInput at hvalid
  unfold flutterInput executeBranches executePointer
  simp only [hasType_eq hvalue] at hvalid ⊢
  unfold inputTypes at htype
  simp only [mem_cons, not_mem_nil, or_false] at htype
  -- A pointer message has its position, and a button message its button too.
  have hpointer : isValidPointer input = true → ∃ x y, numOf (valueOf input "x") = some x ∧
      numOf (valueOf input "y") = some y ∧
        (hasType input ["mouse_move"] = true ∨ ∃ n, valueOf input "button" = .int n ∧ 0 ≤ n ∧ n ≤ 2) := by
    intro hpointer
    unfold isValidPointer at hpointer
    rw [Bool.and_eq_true, Bool.and_eq_true, Bool.or_eq_true] at hpointer
    obtain ⟨⟨hx, hy⟩, hbutton⟩ := hpointer
    obtain ⟨x, hx⟩ := num_of_isUnit hx
    obtain ⟨y, hy⟩ := num_of_isUnit hy
    exact ⟨x, y, hx, hy, hbutton.imp id int_of_isIntWithin⟩
  obtain rfl | rfl | rfl | rfl | rfl | rfl | rfl := htype
  · obtain ⟨x, y, hx, hy, -⟩ := hpointer hvalid
    rw [hx, hy]
    exact ⟨.move x y, rfl, rfl⟩
  · obtain ⟨x, y, hx, hy, hmove | ⟨n, hn, hbounds⟩⟩ := hpointer hvalid
    · rw [hasType_eq hvalue] at hmove
      cases hmove
    · rw [hx, hy, hn]
      exact ⟨.button true (flutterButton n) x y, rfl, (calls_button platform hbounds).symm⟩
  · obtain ⟨x, y, hx, hy, hmove | ⟨n, hn, hbounds⟩⟩ := hpointer hvalid
    · rw [hasType_eq hvalue] at hmove
      cases hmove
    · rw [hx, hy, hn]
      exact ⟨.button false (flutterButton n) x y, rfl, (calls_button platform hbounds).symm⟩
  · have hwheel : (numOf (valueOf input "deltaY")).any (fun delta => -1200 ≤ delta && delta ≤ 1200) = true := hvalid
    cases hdelta : numOf (valueOf input "deltaY") with
    | none =>
      rw [hdelta] at hwheel
      simp at hwheel
    | some delta => exact ⟨.wheel delta, rfl, rfl⟩
  · have hkey : (LinkKeyMessage.tryParse input).isSome = true := hvalid
    obtain ⟨m, hm⟩ := isSome_iff_exists.mp hkey
    rw [hm]
    exact ⟨.key m.isDown (.named m.key m.char), rfl, rfl⟩
  · have hkey : (LinkKeyMessage.tryParse input).isSome = true := hvalid
    obtain ⟨m, hm⟩ := isSome_iff_exists.mp hkey
    rw [hm]
    exact ⟨.key m.isDown (.named m.key m.char), rfl, rfl⟩
  · have htext : isValidText (valueOf input "text") = true := hvalid
    obtain ⟨text, htext⟩ := str_of_isText (Bool.and_eq_true_iff.mp htext).1
    rw [dartTextOr_of_str htext, htext]
    exact ⟨.text text, rfl, rfl⟩

end Flutter

/-! ## The native worker -/

section Native

variable {doubleText : ℚ → String} {input : Json} {x : Pressable}

/-- The messages that both workers know. -/
def sharedTypes : List String := ["mouse_move", "text_input"]

theorem get_of_valueOf (h : valueOf input name = v) (hv : v ≠ .null) : input.get name = some v := by
  unfold valueOf at h
  cases hget : input.get name with
  | none =>
    rw [hget] at h
    exact absurd h.symm hv
  | some =>
    rw [hget] at h
    exact congrArg some h

theorem isObj_of_get (h : input.get name = some v) : input.isObj = true := by
  cases input with
  | obj => rfl
  | _ => simp [Json.get] at h

theorem asDouble_of_numOf {q : ℚ} (h : numOf (valueOf input name) = some q) :
    ∃ v, input.get name = some v ∧ asDouble v = some q := by
  cases hv : valueOf input name with
  | int | dec =>
    rw [hv] at h
    exact ⟨_, get_of_valueOf hv (by simp), h⟩
  | _ =>
    rw [hv] at h
    simp [numOf] at h

/-- Of the messages that the Flutter worker accepts, the native one asks its injector for the same, if it
knows them, and otherwise for nothing. -/
theorem inputRequest_of_accepts (h : acceptsInput doubleText input = true) :
    (hasType input sharedTypes = true ∧ ∃ r i, inputRequest input = some r ∧ flutterInput input = some i ∧
      r.inputs = [i]) ∨
      hasType input sharedTypes = false ∧ inputRequest input = none := by
  obtain ⟨type, htype, hvalue, hvalid⟩ := type_of_acceptsInput h
  have hget : input.get "type" = some (.str type) := get_of_valueOf hvalue (by simp)
  have hobj := isObj_of_get hget
  unfold isValidInput at hvalid
  unfold inputRequest flutterInput sharedTypes
  simp only [hasType_eq hvalue] at hvalid ⊢
  rw [hobj, hget]
  unfold inputTypes at htype
  simp only [mem_cons, not_mem_nil, or_false] at htype
  obtain rfl | rfl | rfl | rfl | rfl | rfl | rfl := htype
  · have hpointer : isValidPointer input = true := hvalid
    unfold isValidPointer at hpointer
    rw [Bool.and_eq_true, Bool.and_eq_true] at hpointer
    obtain ⟨x, hx⟩ := num_of_isUnit hpointer.1.1
    obtain ⟨y, hy⟩ := num_of_isUnit hpointer.1.2
    obtain ⟨v, hgetX, hv⟩ := asDouble_of_numOf hx
    obtain ⟨w, hgetY, hw⟩ := asDouble_of_numOf hy
    refine .inl ⟨rfl, .moveMouse x y, .move x y, ?_, ?_, rfl⟩
    · rw [hgetX, hgetY]
      show (do return InputRequest.moveMouse (← asDouble v) (← asDouble w)) = _
      rw [hv, hw]
      rfl
    · rw [hx, hy]
      rfl
  · exact .inr ⟨rfl, rfl⟩
  · exact .inr ⟨rfl, rfl⟩
  · exact .inr ⟨rfl, rfl⟩
  · exact .inr ⟨rfl, rfl⟩
  · exact .inr ⟨rfl, rfl⟩
  · have htext : isValidText (valueOf input "text") = true := hvalid
    obtain ⟨text, htext⟩ := str_of_isText (Bool.and_eq_true_iff.mp htext).1
    refine .inl ⟨rfl, .insertText text, .text text, ?_, ?_, rfl⟩
    · rw [get_of_valueOf htext (by simp)]
      rfl
    · rw [htext]
      rfl

/-- A message is one that both workers know. -/
def knownToBoth (m : Option Json × Bool) : Bool := m.1.any fun input => hasType input sharedTypes

theorem same_inputs_iff {messages : List (Option Json × Bool)}
    (haccepts : ∀ m ∈ messages, ∃ input, m = (some input, true) ∧ acceptsInput doubleText input = true) :
    (requestsOf messages).flatMap InputRequest.inputs = flutterInputs messages ↔
      ∀ m ∈ messages, knownToBoth m = true := by
  have hcounts : (flutterInputs messages).length = messages.length ∧
      ((requestsOf messages).flatMap InputRequest.inputs).length = (messages.filter knownToBoth).length ∧
      ((∀ m ∈ messages, knownToBoth m = true) →
        (requestsOf messages).flatMap InputRequest.inputs = flutterInputs messages) := by
    induction messages with
    | nil => exact ⟨rfl, rfl, fun _ => rfl⟩
    | cons m rest ih =>
      obtain ⟨input, rfl, haccept⟩ := haccepts m mem_cons_self
      obtain ⟨hflutter, hnative, hsame⟩ := ih fun m hm => haccepts m (mem_cons_of_mem _ hm)
      obtain ⟨i, hi, -⟩ := executes_flutterInput .macOS {} haccept
      have hflutterCons : flutterInputs ((some input, true) :: rest) = i :: flutterInputs rest :=
        filterMap_cons_some hi
      obtain ⟨hshared, r, i', hr, hi', hinputs⟩ | ⟨hshared, hnone⟩ := inputRequest_of_accepts haccept
      · obtain rfl : i' = i := Option.some.inj (hi'.symm.trans hi)
        have hnativeCons : requestsOf ((some input, true) :: rest) = r :: requestsOf rest := filterMap_cons_some hr
        have hfilter : ((some input, true) :: rest).filter knownToBoth = (some input, true) :: rest.filter
          knownToBoth :=
          filter_cons_of_pos hshared
        rw [hflutterCons, hnativeCons, hfilter, flatMap_cons, hinputs]
        refine ⟨congrArg (· + 1) hflutter, congrArg (· + 1) hnative, fun hall => ?_⟩
        exact congrArg (i' :: ·) (hsame fun m hm => hall m (mem_cons_of_mem _ hm))
      · have hnativeCons : requestsOf ((some input, true) :: rest) = requestsOf rest := filterMap_cons_none hnone
        have hfilter : ((some input, true) :: rest).filter knownToBoth = rest.filter knownToBoth :=
          filter_cons_of_neg (by rw [show knownToBoth (some input, true) = false from hshared]; simp)
        rw [hflutterCons, hnativeCons, hfilter]
        refine ⟨congrArg (· + 1) hflutter, hnative, fun hall => ?_⟩
        have hknown := hall _ mem_cons_self
        rw [show knownToBoth (some input, true) = false from hshared] at hknown
        simp at hknown
  obtain ⟨hflutter, hnative, hsame⟩ := hcounts
  refine ⟨fun heq => ?_, hsame⟩
  have hlength : (messages.filter knownToBoth).length = messages.length := by rw [← hnative, heq, hflutter]
  exact length_filter_eq_length_iff.mp hlength

/-! ## What the native worker leaves down -/

theorem lastSaid_serve (inj : InputInjector) (bounds : DisplayBounds) (r : InputRequest) (before : Bool) :
    lastSaid (CGEvent.presses x) before (inj.serve bounds r).2 = (r.presses x).getD before := by
  cases r with
  | moveMouse =>
    show ((CGEvent.presses x _).getD before) = before
    split
    · rfl
    · split
      · rfl
      · rfl
  | mouseAction action button mx my =>
    by_cases hx : x = .button (InputInjector.buttonOf button)
    · by_cases hdown : action = "down"
      · simp [InputInjector.serve, InputInjector.mouseAction, lastSaid, CGEvent.presses, InputRequest.presses,
          hx, hdown]
      by_cases hup : action = "up"
      · simp [InputInjector.serve, InputInjector.mouseAction, lastSaid, CGEvent.presses,
          InputRequest.presses, hx, hup]
      by_cases hclick : action = "click"
      · simp [InputInjector.serve, InputInjector.mouseAction, lastSaid, CGEvent.presses, InputRequest.presses,
          hx, hclick]
      · simp [InputInjector.serve, InputInjector.mouseAction, lastSaid, InputRequest.presses, hdown, hup, hclick]
    · -- every event of the action is one of another button
      have hdown : CGEvent.presses x (.mouse .down (bounds.x + mx * bounds.width)
          (bounds.y + my * bounds.height) (InputInjector.buttonOf button)) = none := if_neg hx
      have hup : CGEvent.presses x (.mouse .up (bounds.x + mx * bounds.width) (bounds.y + my * bounds.height)
          (InputInjector.buttonOf button)) = none := if_neg hx
      have hnone : (InputRequest.mouseAction action button mx my).presses x = none := if_neg hx
      rw [hnone]
      unfold InputInjector.serve InputInjector.mouseAction
      dsimp only
      split
      · split
        · simp [lastSaid, hdown, hup]
        · simp [lastSaid, hdown]
      · split
        · simp [lastSaid, hup]
        · rfl
  | mouseWheel =>
    show lastSaid _ before (if _ then [] else [_]) = before
    split
    · rfl
    · rfl
  | keyAction | insertText => rfl

theorem lastSaid_append {α : Type} {tells : α → Option Bool} {before : Bool} {items more : List α} :
    lastSaid tells before (items ++ more) = lastSaid tells (lastSaid tells before items) more := foldl_append

theorem postedOf_append (es fs : List Event) : postedOf (es ++ fs) = postedOf es ++ postedOf fs := filterMap_append

theorem postedOf_injected (posts : List CGEvent) : postedOf (posts.map .injected) = posts := by
  unfold postedOf
  rw [filterMap_map]
  exact filterMap_some

theorem postedOf_unruled {es : List Event} (h : ∀ e ∈ es, Unruled e = true) : postedOf es = [] := by
  refine filterMap_eq_nil_iff.mpr fun e he => ?_
  have hunruled := h e he
  cases e with
  | injected => simp [Unruled] at hunruled
  | _ => rfl

theorem lastSaid_step {s t : State} {a : Action} {fs : List Event} (hstep : step s a = some (t, fs))
    (before : Bool) : lastSaid (CGEvent.presses x) before (postedOf fs) =
      lastSaid (InputRequest.presses x) before (requestsOf (messagesOf [a])) := by
  have hother : (∀ message trusted, a ≠ .message message trusted) → postedOf fs = [] ∧ messagesOf [a] = [] := by
    intro hno
    constructor
    · cases step_effect s hstep with
      | unruled hunruled => exact postedOf_unruled hunruled
      | accepted | acked => rfl
      | streamed _ rest _ hrest =>
        have hnone : postedOf rest = [] := postedOf_unruled hrest
        exact hnone
      | injected message trusted => exact absurd rfl (hno message trusted)
    · cases a with
      | message message trusted => exact absurd rfl (hno message trusted)
      | _ => rfl
  by_cases hmessage : ∃ message trusted, a = .message message trusted
  · obtain ⟨message, trusted, rfl⟩ := hmessage
    unfold step at hstep
    dsimp only at hstep
    split at hstep
    · have hfs : (s.receive message trusted).2 = fs := congrArg Prod.snd (Option.some.inj hstep)
      have hposted : postedOf fs = (s.injector.receive s.targetDisplayBounds message trusted).2 := by
        rw [← hfs]
        exact postedOf_injected _
      rw [hposted]
      have hrequests : requestsOf (messagesOf [.message message trusted]) =
          (if trusted then message.bind inputRequest else none).toList := by
        show [(message, trusted)].filterMap _ = _
        cases trusted with
        | false => rfl
        | true => cases hrequest : message.bind inputRequest <;> simp [hrequest]
      rw [hrequests]
      unfold InputInjector.receive
      cases hrequest : message.bind inputRequest with
      | none => cases trusted <;> rfl
      | some r =>
        cases trusted with
        | false => rfl
        | true => exact lastSaid_serve s.injector s.targetDisplayBounds r before
    · simp at hstep
  · obtain ⟨hposted, hnone⟩ := hother fun message trusted ha => hmessage ⟨message, trusted, ha⟩
    rw [hposted, hnone]
    rfl

theorem requestsOf_cons (a : Action) (as : List Action) :
    requestsOf (messagesOf (a :: as)) = requestsOf (messagesOf [a]) ++ requestsOf (messagesOf as) := by
  unfold requestsOf messagesOf
  rw [← filterMap_append, ← filterMap_append, singleton_append]

theorem lastSaid_path {s t : State} {as : List Action} {es : List Event} (hrun : workerCoordinator.Path s as t es)
    (before : Bool) : lastSaid (CGEvent.presses x) before (postedOf es) =
      lastSaid (InputRequest.presses x) before (requestsOf (messagesOf as)) := by
  induction hrun generalizing before with
  | nil => rfl
  | @cons _ _ _ a as _ _ hstep _ ih =>
    rw [postedOf_append, lastSaid_append, lastSaid_step hstep, ih, ← lastSaid_append, ← requestsOf_cons a as]

/-- In a run of the native worker the two workers have one control language if and only if, where all its
messages are ones that the Flutter worker accepts, they are moves and texts alone, and, where the session is
over, the messages themselves release what they have pressed. What the Flutter worker asks for is what
`_executeInput` injects. -/
theorem one_language_iff {frame : Json} {s : State} {as : List Action} {es : List Event} (channelClosed : Bool)
    (hrun : workerCoordinator.Path (.start frame) as s es) :
    (OneLanguage doubleText as es (s.sessionEnded channelClosed) ↔
      ((∀ m ∈ messagesOf as, ∃ input, m = (some input, true) ∧ acceptsInput doubleText input = true) →
        ∀ m ∈ messagesOf as, knownToBoth m = true) ∧
      (s.sessionEnded channelClosed = true →
        ∀ x, lastSaid (InputRequest.presses x) false (requestsOf (messagesOf as)) = false)) ∧
    ∀ platform policy input, acceptsInput doubleText input = true → ∃ i, flutterInput input = some i ∧
      executeBranches platform doubleText policy input = i.calls platform := by
  refine ⟨⟨fun hone => ?_, ?_⟩, fun platform policy input => executes_flutterInput platform policy⟩
  · refine ⟨fun haccepts => (same_inputs_iff haccepts).mp (hone.same haccepts), fun hended x => ?_⟩
    rw [← lastSaid_path hrun]
    exact hone.released hended x
  · rintro ⟨hknown, hreleased⟩
    refine ⟨fun haccepts => (same_inputs_iff haccepts).mpr (hknown haccepts), fun hended x => ?_⟩
    rw [lastSaid_path hrun]
    exact hreleased hended x

/-- A message of the control channel that moves the pointer. -/
def moveMessage : Json := .obj [("type", .str "mouse_move"), ("x", .dec (1 / 2)), ("y", .int 1)]

/-- A message with which the Flutter worker presses the left button. -/
def downMessage : Json := .obj [("type", .str "mouse_down"), ("x", .int 0), ("y", .int 0), ("button", .int 0)]

/-- A message of the control channel with a text. -/
def textMessage : Json := .obj [("type", .str "text_input"), ("text", .str "yes")]

/-- The steps of a session in which these messages arrive and that then is over. -/
def inOneSession (messages : List Json) : List Action :=
  answering ++ Action.channelOpened "link-control-v1" :: messages.map (fun m => Action.message (some m) true) ++
    [Action.disconnected]

/-- The pointer is moved, a text is typed and the pointer is moved again by both workers, and nothing is
down. -/
theorem one_language_sample : ∃ s es, workerCoordinator.Path (.start (offerFrame "unattended" false "control"))
      (inOneSession [moveMessage, textMessage, moveMessage]) s es ∧ s.sessionEnded false = true ∧
    (∀ m ∈ [moveMessage, textMessage], acceptsInput (fun _ => "") m = true) ∧
    OneLanguage (fun _ => "") (inOneSession [moveMessage, textMessage, moveMessage]) es (s.sessionEnded false) := by
  have hrun : (workerCoordinator.exec (fun _ _ _ => true) (.start (offerFrame "unattended" false "control")) []
      (inOneSession [moveMessage, textMessage, moveMessage])).any (fun r => r.1.sessionEnded false) = true := by
    decide +kernel
  obtain ⟨⟨s, es⟩, hexec, hended⟩ := (Option.any_eq_true ..).mp hrun
  obtain ⟨_, rfl, hpath⟩ := Machine.path_of_exec _ hexec
  refine ⟨s, _, hpath, hended, by decide +kernel, (one_language_iff false hpath).1.mpr ⟨?_, fun _ x => rfl⟩⟩
  exact fun _ => by decide +kernel

/-- The native worker does not know a message with which the Flutter worker presses a button. -/
theorem other_language : ¬∀ (doubleText : ℚ → String) (frame : Json) (s : State) (as : List Action)
    (es : List Event) (channelClosed : Bool), workerCoordinator.Path (.start frame) as s es →
    OneLanguage doubleText as es (s.sessionEnded channelClosed) := by
  intro hclaim
  have hrun : (workerCoordinator.exec (fun _ _ _ => true) (.start (offerFrame "unattended" false "control")) []
      (inOneSession [downMessage])).isSome = true := by decide +kernel
  obtain ⟨⟨s, es⟩, hexec⟩ := isSome_iff_exists.mp hrun
  obtain ⟨_, rfl, hpath⟩ := Machine.path_of_exec _ hexec
  have hsame := (hclaim (fun _ => "") _ s _ _ false hpath).same (by
    intro m hm
    obtain rfl : m = (some downMessage, true) := mem_singleton.mp hm
    exact ⟨downMessage, rfl, by decide +kernel⟩)
  have hcount : ((requestsOf (messagesOf (inOneSession [downMessage]))).flatMap InputRequest.inputs).length ≠
      (flutterInputs (messagesOf (inOneSession [downMessage]))).length := by decide +kernel
  exact hcount (congrArg List.length hsame)

end Native

end LigamentApps.LinkWorkerDarwin
