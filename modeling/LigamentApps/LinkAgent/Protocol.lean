import LigamentApps.Text.Json
import LigamentApps.Text.Uuid

/-!
# The offers that the agent forwards

`DecodeOffer` of `protocol.go`. Go's decoder takes a member whose name differs from the field's only
by case, leaves a field as it is for a null, and refuses a member of another type. The limits on raw
parts of the message count bytes of its text: `size` is the number of bytes that a part takes. -/

namespace LigamentApps.LinkAgent

/-- A character of a member's name as Go compares it with a field's name: besides the capital letters, two
characters beyond ASCII fold to `s` and `k`. -/
def goFold (c : Char) : Char :=
  if c = '\u017f' then 's' else if c = '\u212a' then 'k' else c.toLower

variable (j : Json)

/-- The members that Go decodes into the field of this name, in their order. -/
def goMembers (name : String) : List Json :=
  match j with
  | .obj members => (members.filter fun m => m.1.toList.map goFold == name.toList).map Prod.snd
  | _ => []

/-- A field of type `json.RawMessage`: the last member. -/
def goField (name : String) : Option Json := (goMembers j name).getLast?

/-- A field of a scalar type: the last member that is no null, where all must have the type. -/
def goScalar {α : Type} (value? : Json → Option α) (zero : α) (j : Json) (name : String) : Option α :=
  (goMembers j name).foldl (fun field v => field.bind fun x => match v with
    | .null => some x
    | v => value? v) (some zero)

/-- A field of type `string`. -/
def goString (name : String) : Option String := goScalar Json.str? "" j name

structure Envelope where
  type : String
  sessionId : String
  payload : Option Json
  signal : Option Json

/-- The decoding of `Envelope`. -/
def decodeEnvelope : Option Envelope := do
  guard j.isObj
  return ⟨← goString j "type", ← goString j "session_id", goField j "payload", goField j "signal"⟩

structure SessionOffer where
  sessionId : String
  operatorId : String
  operatorName : String
  sessionKind : String
  accessType : String
  desktopScope : String
  accessMode : String
  sdp : String
  iceServers : Option Json
  relayUrl : String
  relayToken : String
  dlp : Option Json
  recording : Option Json

/-- The decoding of `SessionOffer`. -/
def decodeSessionOffer : Option SessionOffer := do
  guard j.isObj
  return {
    sessionId := ← goString j "session_id"
    operatorId := ← goString j "operator_id"
    operatorName := ← goString j "operator_name"
    sessionKind := ← goString j "session_kind"
    accessType := ← goString j "access_type"
    desktopScope := ← goString j "desktop_scope"
    accessMode := ← goString j "access_mode"
    sdp := ← goString j "sdp"
    iceServers := goField j "ice_servers"
    relayUrl := ← goString j "relay_url"
    relayToken := ← goString j "relay_token"
    dlp := goField j "dlp"
    recording := goField j "recording" }

def validUUID (value : String) : Bool := isUuid value

/-- The checks of `DecodeOffer` on a decoded offer. -/
def SessionOffer.valid (size : Json → ℕ) (o : SessionOffer) : Bool :=
  validUUID o.sessionId && validUUID o.operatorId && o.operatorName.utf8ByteSize ≤ 512 &&
    (o.accessMode = "view" || o.accessMode = "control") &&
    (o.accessType = "attended" || o.accessType = "unattended") &&
    (o.desktopScope = "" || o.desktopScope = "interactive" || o.desktopScope = "system_console") &&
    (o.desktopScope ≠ "system_console" || o.accessType = "unattended") &&
    o.sdp ≠ "" && o.sdp.utf8ByteSize ≤ 256 * 1024 &&
    o.dlp.any (fun j => size j ≤ 16 * 1024) && o.iceServers.all (fun j => size j ≤ 64 * 1024) &&
    o.relayToken.utf8ByteSize ≤ 4 * 1024 && o.recording.all fun j => size j ≤ 16 * 1024

def decodeOffer (size : Json → ℕ) (message : Json) : Option SessionOffer := do
  let envelope ← decodeEnvelope message
  let payload ← envelope.payload
  guard (envelope.type = "session_offer")
  let offer ← decodeSessionOffer payload
  guard (offer.valid size)
  return offer

end LigamentApps.LinkAgent
