import LigamentApps.ByteStream.Frames
import LigamentApps.LinkAgent.SessionWorkerBroker
import LigamentApps.LinkHost.OfferAgreement

/-!
# The Unix transport of the worker

`_UnixLinkHostTransport` of `link_host_session.dart` as far as it receives, the timer of `runLinkHostWorker`
that takes its frames, and the queue of signals that the broker of `session_worker.go` sends over the socket.
The socket gives the bytes in chunks of any lengths. What `jsonDecode` makes of a frame is an input. -/

namespace LigamentApps.LinkHost

open ByteStream

/-! ## The transport -/

/-- `_UnixLinkHostTransport`, with the number of its waiters. -/
structure UnixTransport where
  buffer : List UInt8 := []
  frames : List (List UInt8) := []
  waiters : ℕ := 0
  failure : Option String := none
  deriving DecidableEq

/-- What a call of `receive` gets. -/
inductive Received
  | frame (bytes : List UInt8)
  | error (failure : String)

namespace UnixTransport

/-- `_fail`, with what the waiters get. -/
def fail (s : UnixTransport) (error : String) : UnixTransport × List Received :=
  if s.failure ≠ none then (s, [])
  else ({ s with failure := some error, waiters := 0 }, List.replicate s.waiters (.error error))

/-- The loop of `_onData`; it takes a frame in each round. -/
def takeFrames : ℕ → UnixTransport → UnixTransport × List Received
  | 0, s => (s, [])
  | fuel + 1, s =>
    if s.buffer.length < 4 then (s, [])
    else if headerLength s.buffer = 0 ∨ linkHostFrameLimit < headerLength s.buffer then
      s.fail "Invalid Link worker frame size"
    else if s.buffer.length < headerLength s.buffer + 4 then (s, [])
    else
      let frame := (s.buffer.take (headerLength s.buffer + 4)).drop 4
      let next := { s with buffer := s.buffer.drop (headerLength s.buffer + 4) }
      if 0 < s.waiters then
        let r := takeFrames fuel { next with waiters := s.waiters - 1 }
        (r.1, .frame frame :: r.2)
      else if s.frames.length < 8 then takeFrames fuel { next with frames := s.frames ++ [frame] }
      else next.fail "Too many queued Link worker frames"

/-- `_onData`, with what the waiters get. -/
def onData (s : UnixTransport) (chunk : List UInt8) : UnixTransport × List Received :=
  if (linkHostFrameLimit + 4) * 8 < s.buffer.length + chunk.length then
    s.fail "Link worker receive buffer exceeds limit"
  else takeFrames (s.buffer ++ chunk).length { s with buffer := s.buffer ++ chunk }

/-- `receive`; without a result it waits. -/
def receive (s : UnixTransport) : UnixTransport × Option Received :=
  match s.frames with
  | frame :: rest => ({ s with frames := rest }, some (.frame frame))
  | [] =>
    match s.failure with
    | some failure => (s, some (.error failure))
    | none => ({ s with waiters := s.waiters + 1 }, none)

end UnixTransport

/-! ## The worker -/

/-- What the worker makes of a frame. -/
inductive FrameContent (M : Type)
  /-- `utf8.decode` throws. -/
  | malformed
  /-- `jsonDecode` throws, or it is no map. -/
  | noMap
  | message (m : M)

/-- Where the callback of the timer is. -/
inductive Polling
  | no
  /-- It waits for `receive`. -/
  | receiving
  /-- It waits for `session.receive`. -/
  | handling
  deriving DecidableEq

/-- The queue of the broker, the bytes in the socket, and the worker. -/
structure UnixWorker where
  outbound : List (List UInt8)
  stream : List UInt8 := []
  transport : UnixTransport := {}
  polling : Polling := .no
  closed : Bool := false
  deriving DecidableEq

/-- What happens. -/
inductive UnixAction
  /-- The broker takes a signal from the queue, and sends it. -/
  | sends
  /-- The socket gives a chunk. -/
  | arrives (count : ℕ)
  /-- The timer fires. -/
  | ticks
  /-- `session.receive` returns. -/
  | handled

/-- The worker hands a message to `LinkHostSession.receive`. -/
inductive UnixEvent (M : Type)
  | receives (message : M)

/-- The state after a part of a step, with its events. -/
abbrev UnixOutcome (M : Type) := UnixWorker × List (UnixEvent M)

namespace UnixWorker

variable {M : Type} (content : List UInt8 → FrameContent M)

variable (s : UnixWorker)

/-- The callback goes on with what `receive` gives. -/
def goesOn : Received → UnixOutcome M
  | .error _ => ({ s with polling := .no, closed := true }, [])
  | .frame bytes =>
    if bytes = [] then ({ s with polling := .no }, [])
    else
      match content bytes with
      | .malformed => ({ s with polling := .no, closed := true }, [])
      | .noMap => ({ s with polling := .no }, [])
      | .message m => ({ s with polling := .handling }, [.receives m])

/-- The waiters get something; the callback, which runs once at a time, is the only one who waits. -/
def waiterGets : List Received → UnixOutcome M
  | [] => (s, [])
  | result :: _ => s.goesOn content result

/-- The timer fires. -/
def ticks : UnixOutcome M :=
  if s.polling ≠ .no ∨ s.closed = true then (s, [])
  else
    let r := s.transport.receive
    match r.2 with
    | none => ({ s with transport := r.1, polling := .receiving }, [])
    | some result => { s with transport := r.1 }.goesOn content result

def step : UnixAction → Option (UnixOutcome M)
  | .sends =>
    match s.outbound with
    | [] => none
    | frame :: rest => some ({ s with outbound := rest, stream := s.stream ++ frameBytes frame }, [])
  | .arrives count =>
    if 0 < count ∧ count ≤ s.stream.length then
      let r := s.transport.onData (s.stream.take count)
      some ({ s with stream := s.stream.drop count, transport := r.1 }.waiterGets content r.2)
    else none
  | .ticks => some (s.ticks content)
  | .handled => if s.polling = .handling then some ({ s with polling := .no }, []) else none

end UnixWorker

/-- The transport of signals as a machine. -/
def unixWorker {M : Type} (content : List UInt8 → FrameContent M) : Machine UnixWorker UnixAction (UnixEvent M) :=
  ⟨UnixWorker.step content⟩

/-- A signal that the broker queues: a frame that `Send` takes, and that is a map. -/
structure Signal {M : Type} (content : List UInt8 → FrameContent M) where
  frame : List UInt8
  message : M
  positive : 0 < frame.length
  limited : frame.length ≤ linkHostFrameLimit
  reads : content frame = .message message

def queuedSignals {M : Type} {content : List UInt8 → FrameContent M} (signals : List (Signal content)) :
    UnixWorker :=
  { outbound := signals.map (·.frame) }

end LigamentApps.LinkHost
