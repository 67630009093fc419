import LigamentApps.LinkHost.Bootstrap
import LigamentApps.Machine.Trace

/-!
# What a host program may do

The rules of the Flutter worker, told by events that any host program for a session can emit: an
answer that accepts, a captured frame handed to the peer, and an injected input. Its bootstrap and
`LinkHostSession.start` let a session begin only for a valid offer and, where the offer asks for the
local user, after the local consent and an authorised decision on it; `LinkSessionPolicy.allows`
passes input only with control; and `isRecorderReady` holds input back until a strict recording has
its first frame durable. -/

namespace LigamentApps.LinkHost

/-- What can be seen of a host program, with its injected inputs in `ι`. -/
inductive HostEvent (ι : Type)
  /-- The local user granted the session or refused it. -/
  | consent (granted : Bool)
  /-- The server decided on the host's own consent request. -/
  | decision (authorized : Bool)
  /-- The recorder service acknowledged what it was sent. -/
  | ack (firstFrameAcked : Bool)
  /-- A `session_answer` frame was sent. -/
  | answered (accepted : Bool) (reason : Option String)
  /-- A captured frame was handed to the peer. -/
  | streamed
  /-- An input was injected. -/
  | injected (input : ι)
  /-- A candidate of the operator was added to the peer. -/
  | candidateAdded
  /-- A `signal` frame with a local candidate was sent. -/
  | candidateSent
  /-- A `session_terminate` frame was sent. -/
  | terminated (reason : String)
  /-- A frame was sent to the recorder service. -/
  | recorded
  deriving DecidableEq

/-- What the rules look back on. -/
structure Granted where
  /-- The local user granted the session. -/
  consented : Bool := false
  /-- The server authorised it. -/
  authorized : Bool := false
  /-- The first recorded frame is durable. -/
  firstFrameAcked : Bool := false

def Granted.next {ι : Type} (g : Granted) : HostEvent ι → Granted
  | .consent granted => { g with consented := g.consented || granted }
  | .decision authorized => { g with authorized := g.authorized || (g.consented && authorized) }
  | .ack firstFrameAcked => { g with firstFrameAcked := g.firstFrameAcked || firstFrameAcked }
  | _ => g

variable (doubleText : ℚ → String)

/-- The session may begin: the offer passes the Flutter worker's checks, and where it asks for the
local user there are a local consent and an authorised decision. -/
def MayHost (offer : Json) (g : Granted) : Prop :=
  ∃ o, bootstrap doubleText offer = some o ∧ o.startable = true ∧
    (o.attended = true → g.consented = true ∧ g.authorized = true)

/-- Input may be injected: the session may begin, the offer gives control, and the recorder does not
hold input back. -/
def MayInject (offer : Json) (g : Granted) : Prop :=
  ∃ o, bootstrap doubleText offer = some o ∧ o.startable = true ∧
    (o.attended = true → g.consented = true ∧ g.authorized = true) ∧
    o.allowControl = true ∧ recorderReady o.recording g.firstFrameAcked = true

instance (doubleText : ℚ → String) (offer : Json) (g : Granted) :
    Decidable (MayHost doubleText offer g) :=
  inferInstanceAs (Decidable (∃ o, bootstrap doubleText offer = some o ∧ _))

instance (doubleText : ℚ → String) (offer : Json) (g : Granted) :
    Decidable (MayInject doubleText offer g) :=
  inferInstanceAs (Decidable (∃ o, bootstrap doubleText offer = some o ∧ _))

def HostRule {ι : Type} (offer : Json) (g : Granted) :
    HostEvent ι → Prop
  | .answered true _ | .streamed => MayHost doubleText offer g
  | .injected _ => MayInject doubleText offer g
  | _ => True

instance {ι : Type} (doubleText : ℚ → String) (offer : Json) (g : Granted) :
    ∀ e : HostEvent ι, Decidable (HostRule doubleText offer g e)
  | .answered true _ | .streamed => inferInstanceAs (Decidable (MayHost doubleText offer g))
  | .injected _ => inferInstanceAs (Decidable (MayInject doubleText offer g))
  | .answered false _ | .consent _ | .decision _ | .ack _ | .candidateAdded | .candidateSent
  | .terminated _ | .recorded => .isTrue trivial

def hostRules (ι : Type) (doubleText : ℚ → String) (offer : Json) : Monitor Granted (HostEvent ι) :=
  ⟨{}, Granted.next, HostRule doubleText offer⟩

instance {ι : Type} (doubleText : ℚ → String) (offer : Json) (g : Granted) (e : HostEvent ι) :
    Decidable ((hostRules ι doubleText offer).Ok g e) :=
  inferInstanceAs (Decidable (HostRule doubleText offer g e))

end LigamentApps.LinkHost
