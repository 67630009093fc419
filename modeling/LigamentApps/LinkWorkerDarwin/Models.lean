import LigamentApps.Text.Json

/-!
# The frames of the native macOS worker

`Models.swift`: the session offer as `JSONDecoder` reads it, and the casts of `JSONSerialization`'s
values that the worker uses. An optional property is `nil` where its member is missing or null, and a
member of another type fails the whole decoding. -/

namespace LigamentApps.LinkWorkerDarwin

/-- The range of Swift's `Int`. -/
def inInt64 (n : ℤ) : Bool := -2 ^ 63 ≤ n && n < 2 ^ 63

/-- `decodeIfPresent` of a property: what `decode` makes of the member, `nil` where it is missing or
null, and a failure where `decode` refuses it. -/
def decodeIfPresent {α : Type} (decode : Json → Option α) (container : Json) (name : String) : Option (Option α) :=
  match container.getPresent name with
  | none => some none
  | some v => (decode v).map some

/-- A `Bool`. -/
def decodeBool : Json → Option Bool
  | .bool b => some b
  | _ => none

/-- An `Int`. -/
def decodeInt : Json → Option ℤ
  | .int n => if inInt64 n then some n else none
  | .dec q => if q.den = 1 ∧ inInt64 q.num then some q.num else none
  | _ => none

structure RecordingConfig where
  enabled : Option Bool
  ingestUrl : Option String
  ingestToken : Option String
  profile : Option String
  epoch : Option ℤ

variable (j : Json)

/-- The decoding of `RecordingConfig`. -/
def decodeRecordingConfig : Option RecordingConfig := do
  guard j.isObj
  return {
    enabled := ← decodeIfPresent decodeBool j "enabled"
    ingestUrl := ← decodeIfPresent Json.str? j "ingest_url"
    ingestToken := ← decodeIfPresent Json.str? j "ingest_token"
    profile := ← decodeIfPresent Json.str? j "profile"
    epoch := ← decodeIfPresent decodeInt j "epoch" }

/-- A list of maps, whose values `AnyCodable` takes as they are. -/
def decodeIceServers : Json → Option (List Json)
  | .arr servers => if servers.all Json.isObj then some servers else none
  | _ => none

structure SessionOfferPayload where
  sessionId : Option String
  sdp : Option String
  iceServers : Option (List Json)
  accessMode : Option String
  accessType : Option String
  desktopScope : Option String
  operatorId : Option String
  operatorName : Option String
  confirmationDigits : Option ℤ
  confirmationRequired : Option Bool
  recording : Option RecordingConfig
  relayUrl : Option String
  relayToken : Option String

/-- The decoding of `SessionOfferPayload`. -/
def decodeSessionOfferPayload : Option SessionOfferPayload := do
  guard j.isObj
  return {
    sessionId := ← decodeIfPresent Json.str? j "session_id"
    sdp := ← decodeIfPresent Json.str? j "sdp"
    iceServers := ← decodeIfPresent decodeIceServers j "ice_servers"
    accessMode := ← decodeIfPresent Json.str? j "access_mode"
    accessType := ← decodeIfPresent Json.str? j "access_type"
    desktopScope := ← decodeIfPresent Json.str? j "desktop_scope"
    operatorId := ← decodeIfPresent Json.str? j "operator_id"
    operatorName := ← decodeIfPresent Json.str? j "operator_name"
    confirmationDigits := ← decodeIfPresent decodeInt j "confirmation_digits"
    confirmationRequired := ← decodeIfPresent decodeBool j "confirmation_required"
    recording := ← decodeIfPresent decodeRecordingConfig j "recording"
    relayUrl := ← decodeIfPresent Json.str? j "relay_url"
    relayToken := ← decodeIfPresent Json.str? j "relay_token" }

structure SessionOfferEnvelope where
  type : Option String
  sessionId : Option String
  payload : SessionOfferPayload

/-- `SessionOfferEnvelope.init(from:)`: a payload that does not decode is looked for in the envelope
itself. -/
def decodeSessionOfferEnvelope : Option SessionOfferEnvelope := do
  guard j.isObj
  let payload ← ((j.get "payload").bind decodeSessionOfferPayload).orElse
    fun _ => decodeSessionOfferPayload j
  return ⟨(j.get "type").bind Json.str?, (j.get "session_id").bind Json.str?, payload⟩

def SessionOfferEnvelope.effectiveSessionId (envelope : SessionOfferEnvelope) : String :=
  match envelope.sessionId with
  | some s => if s = "" then envelope.payload.sessionId.getD "" else s
  | none => envelope.payload.sessionId.getD ""

/-- `as? Double` of a value of `JSONSerialization`. Every integer is taken, also one beyond 2^53 that is
no `Double`. -/
def asDouble : Json → Option ℚ
  | .int n => some n
  | .dec q => some q
  | .bool b => some (if b then 1 else 0)
  | _ => none

/-- `as?` of a value of `JSONSerialization` to an integer type with the given bounds. -/
def asInteger (lo hi : ℤ) (j : Json) : Option ℤ :=
  match asDouble j with
  | some q => if q.den = 1 ∧ lo ≤ q.num ∧ q.num ≤ hi then some q.num else none
  | none => none

def asInt : Option ℤ := asInteger (-2 ^ 63) (2 ^ 63 - 1) j

def asInt32 : Option ℤ := asInteger (-2 ^ 31) (2 ^ 31 - 1) j

def asUInt16 : Option ℤ := asInteger 0 (2 ^ 16 - 1) j

/-- `as? Bool` of a value of `JSONSerialization`: a number counts where it is 0 or 1. -/
def asBool : Option Bool :=
  match asInteger 0 1 j with
  | some n => some (n = 1)
  | none => none

end LigamentApps.LinkWorkerDarwin
