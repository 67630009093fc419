import LigamentApps.Text.Json

/-!
# The recording configuration

`LinkRecordingConfig` of `link_host_recorder.dart`: the recording part of a session offer as the
host reads it. Durations are in milliseconds. How Dart prints a number that is no integer is the
parameter `doubleText`. -/

namespace LigamentApps.LinkHost

/-- The white space that Dart's `trim` removes. -/
def isDartSpace (c : Char) : Bool :=
  (9 ≤ c.toNat && c.toNat ≤ 13) || (0x2000 ≤ c.toNat && c.toNat ≤ 0x200A) ||
    [0x20, 0x85, 0xA0, 0x1680, 0x2028, 0x2029, 0x202F, 0x205F, 0x3000, 0xFEFF].contains c.toNat

/-- Dart's `trim` and then `toLowerCase`, which is exact on the letters of the words that the
configuration knows. -/
def trimLower (s : String) : String :=
  let kept := ((s.toList.dropWhile isDartSpace).reverse.dropWhile isDartSpace).reverse
  String.ofList (kept.map Char.toLower)

mutual

/-- `toString` of a decoded JSON value. -/
def dartText (doubleText : ℚ → String) : Json → String
  | .null => "null"
  | .bool b => if b then "true" else "false"
  | .int n => toString n
  | .dec q => doubleText q
  | .str s => s
  | .arr xs => "[" ++ dartTexts doubleText xs ++ "]"
  | .obj members => "\x7b" ++ dartMembers doubleText members ++ "\x7d"

/-- The elements of a list, with commas between them. -/
def dartTexts (doubleText : ℚ → String) : List Json → String
  | [] => ""
  | [x] => dartText doubleText x
  | x :: y :: xs => dartText doubleText x ++ ", " ++ dartTexts doubleText (y :: xs)

/-- The members of a map, with commas between them. -/
def dartMembers (doubleText : ℚ → String) : List (String × Json) → String
  | [] => ""
  | [(k, x)] => k ++ ": " ++ dartText doubleText x
  | (k, x) :: y :: xs => k ++ ": " ++ dartText doubleText x ++ ", " ++ dartMembers doubleText (y :: xs)

end

/-- `raw[name]?.toString() ?? otherwise`. -/
def dartTextOr (doubleText : ℚ → String) (raw : Json) (name otherwise : String) : String :=
  match raw.getPresent name with
  | some v => dartText doubleText v
  | none => otherwise

/-- `raw[name] is int ? raw[name] : otherwise`. -/
def intOr (raw : Json) (name : String) (otherwise : ℤ) : ℤ :=
  match raw.get name with
  | some (.int n) => n
  | _ => otherwise

/-- `raw[name] == true`. -/
def flag (raw : Json) (name : String) : Bool :=
  match raw.get name with
  | some v => v.isTrue
  | none => false

structure LinkRecordingConfig where
  contractVersion : String := "v1"
  enabled : Bool := false
  mandatory : Bool := false
  requireFirstFrame : Bool := false
  effectiveMode : String := "exclude"
  aiAllowed : Bool := false
  policyReason : String := ""
  ingestUrl : String := ""
  ingestToken : String := ""
  epoch : ℤ := 1
  leaseTtl : ℕ := 45000
  maxAckLag : ℕ := 30000
  maxQueueBytes : ℕ := 64 * 1024 * 1024
  failurePolicy : String := "strict"
  spoolEnabled : Bool := false
  maxSpoolBytes : ℤ := 1024 * 1024 * 1024
  profile : String := "balanced"

namespace LinkRecordingConfig

/-- `isActive`: there is something to record, and somewhere to send it. -/
def isActive (cfg : LinkRecordingConfig) : Bool :=
  cfg.enabled && cfg.effectiveMode ≠ "exclude" && cfg.ingestUrl ≠ ""

def isStrict (cfg : LinkRecordingConfig) : Bool := cfg.mandatory && cfg.failurePolicy = "strict"

/-- The profile that a text of the offer names. -/
def profileOf (text : String) : String :=
  if text = "high_fidelity" ∨ text = "detailed" then "high_fidelity"
  else if text = "low_bandwidth" ∨ text = "eco" then "low_bandwidth"
  else "balanced"

/-- The effective mode of an offer's recording part. -/
def modeOf (raw : Json) : String :=
  match raw.get "effective_mode" with
  | some (.str mode) => mode
  | _ => if flag raw "enabled" then "record_only" else "exclude"

/-- The failure policy of an offer's recording part. -/
def failurePolicyOf (raw : Json) : String :=
  match raw.get "failure_policy" with
  | some (.str policy) => trimLower policy
  | _ => "resilient"

/-- A number of seconds, kept between two bounds, in milliseconds. -/
def clampSeconds (n lo hi : ℤ) : ℕ := (max lo (min hi n)).toNat * 1000

/-- `LinkRecordingConfig.fromWire`. -/
def fromWire (doubleText : ℚ → String) (value : Option Json) : LinkRecordingConfig :=
  match value with
  | some (.obj members) =>
    let raw := Json.obj members
    let enabled := flag raw "enabled"
    let mandatory := flag raw "mandatory"
    let mode := modeOf raw
    { contractVersion := dartTextOr doubleText raw "contract_version" "v1"
      enabled := enabled && mode ≠ "exclude"
      mandatory := enabled && mandatory && mode ≠ "exclude"
      requireFirstFrame := enabled && (flag raw "require_first_frame" || mandatory)
      effectiveMode := mode
      aiAllowed := flag raw "ai_allowed" && mode = "record+AI"
      policyReason := dartTextOr doubleText raw "policy_reason" ""
      ingestUrl := dartTextOr doubleText raw "ingest_url" ""
      ingestToken := dartTextOr doubleText raw "ingest_token" ""
      epoch := intOr raw "epoch" 1
      leaseTtl := clampSeconds (intOr raw "lease_ttl_seconds" 45) 10 300
      maxAckLag := clampSeconds (intOr raw "max_ack_lag_seconds" 30) 5 180
      failurePolicy := failurePolicyOf raw
      spoolEnabled :=
        match raw.get "spool_enabled" with
        | some (.bool b) => b
        | _ => true
      maxSpoolBytes := intOr raw "max_spool_bytes" (1024 * 1024 * 1024)
      profile := profileOf (trimLower (dartTextOr doubleText raw "profile" "balanced")) }
  | _ => {}

end LinkRecordingConfig

/-- The host lets input through: nothing is recorded, the first frame is not required, the recording
is not strict, or its first frame is durable. -/
def recorderReady (cfg : LinkRecordingConfig) (firstFrameAcked : Bool) : Bool :=
  !cfg.isActive || (!cfg.mandatory && !cfg.requireFirstFrame) || !cfg.isStrict || firstFrameAcked

end LigamentApps.LinkHost
