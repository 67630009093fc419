import LigamentApps.LinkHost.RecordingConfig
import LigamentApps.Text.Uuid

/-!
# The offer as the Flutter worker reads it

What `_runConnectedLinkHostWorker`, the constructor of `LinkHostSession` and the head of
`LinkHostSession.start` check of the offer before the peer is started. -/

namespace LigamentApps.LinkHost

/-- The offer after the checks of the bootstrap. -/
structure HostOffer where
  sessionId : String
  accessMode : String
  accessType : String
  /-- The number of digits that the local user is to enter. -/
  confirmationDigits : ℤ
  sdp : String
  /-- The number of ICE servers. -/
  iceServers : ℕ
  recording : LinkRecordingConfig

def maxOfferSdpBytes : ℕ := 256 * 1024

/-- The bound on the number of ICE servers. -/
def maxIceServers : ℕ := 32

/-- The check of `operator_name`: missing, or a text of at most 128 characters. -/
def operatorNameOk (offer : Json) : Bool :=
  match offer.getPresent "operator_name" with
  | none => true
  | some (.str name) => name.length ≤ 128
  | some _ => false

/-- The check of `ice_servers`: missing, or a list of at most `maxIceServers` maps; the result is
their number. -/
def iceServerCount (offer : Json) : Option ℕ :=
  match offer.getPresent "ice_servers" with
  | none => some 0
  | some (.arr servers) =>
    if servers.length ≤ maxIceServers ∧ servers.all Json.isObj then some servers.length else none
  | some _ => none

/-- The number of digits to enter: a number other than 2, 3, 4 and 6 is refused where the local
user is asked, and otherwise without meaning. -/
def confirmationDigitsOf (offer : Json) (attended : Bool) : Option ℤ :=
  match (offer.getPresent "confirmation_digits").getD (.int 6) with
  | .int n => if attended ∧ n ≠ 2 ∧ n ≠ 3 ∧ n ≠ 4 ∧ n ≠ 6 then none else some n
  | _ => if attended then none else some 0

/-- The check of `confirmation_required`: it says what the access type says. -/
def confirmationRequiredOk (required : Json) (attended : Bool) : Bool :=
  match required with
  | .bool b => b == attended
  | _ => false

/-- The bootstrap of the Flutter worker, up to the construction of its session. -/
def bootstrap (doubleText : ℚ → String) (decoded : Json) : Option HostOffer := do
  let kind ← decoded.get "type"
  let offer ← decoded.get "payload"
  let sessionId ← (← offer.get "session_id").str?
  let accessMode ← (← offer.get "access_mode").str?
  let accessType ← (← offer.get "access_type").str?
  let confirmationRequired ← offer.get "confirmation_required"
  let sdp ← (← offer.get "sdp").str?
  let iceServers ← iceServerCount offer
  let confirmationDigits ← confirmationDigitsOf offer (accessType = "attended")
  guard (kind.isStr "session_offer" ∧ offer.isObj)
  guard (accessType = "attended" ∨ accessType = "unattended")
  guard (confirmationRequiredOk confirmationRequired (accessType = "attended"))
  guard (operatorNameOk offer)
  -- `LinkHostSession._uuid` and the check of the access mode in the constructor.
  guard (isUuid sessionId ∧ (accessMode = "view" ∨ accessMode = "control"))
  return {
    sessionId, accessMode, accessType, confirmationDigits, sdp, iceServers
    recording := LinkRecordingConfig.fromWire doubleText (offer.get "recording") }

namespace HostOffer

/-- The local user is to be asked. -/
def attended (o : HostOffer) : Bool := o.accessType = "attended"

def allowControl (o : HostOffer) : Bool :=
  o.accessMode = "control" || o.accessMode = "full_control"

/-- A media line of the SDP begins with this text. -/
def hasMediaLine (o : HostOffer) (head : String) : Bool :=
  (o.sdp.toList.splitOn '\n').any fun line => head.toList.isPrefixOf line

/-- The checks of `LinkHostSession.start` on the SDP and the ICE servers. -/
def startable (o : HostOffer) : Bool :=
  o.sdp ≠ "" && o.sdp.utf8ByteSize ≤ maxOfferSdpBytes && o.iceServers ≤ maxIceServers &&
    o.hasMediaLine "m=video " && (!o.allowControl || o.hasMediaLine "m=application ")

end HostOffer

end LigamentApps.LinkHost
