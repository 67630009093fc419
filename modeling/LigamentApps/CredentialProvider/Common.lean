import Mathlib.Algebra.Ring.Nat
import LigamentApps.Text.Search

/-!
# Texts, configuration and answer fields of the credential provider

The parts of `common.h` that a logon decision reads: the wide strings of the tile and their
comparison without regard to case, the configuration record with its list of bypass accounts, and
the functions that take a field out of the body of a server's answer. Wide strings are lists of
UTF-16 units and bodies are lists of bytes, as in the source. -/

namespace LigamentApps.CredentialProvider

open LigamentApps.Text

/-- A `std::wstring`: its UTF-16 units. -/
abbrev WString := List UInt16

/-- A `std::string`: its bytes. -/
abbrev Bytes := List UInt8

def utf16Units (c : Char) : WString :=
  if c.toNat < 0x10000 then [c.toNat.toUInt16]
  else [(0xD800 + (c.toNat - 0x10000) / 0x400).toUInt16,
    (0xDC00 + (c.toNat - 0x10000) % 0x400).toUInt16]

/-- A wide string literal `L"…"`. -/
def wide (s : String) : WString := s.toList.flatMap utf16Units

/-- A narrow string literal of ASCII characters. -/
def ascii (s : String) : Bytes := s.toList.map fun c => c.toNat.toUInt8

def backslash : UInt16 := 0x5C

def slash : UInt16 := 0x2F

def atSign : UInt16 := 0x40

/-- `towlower` in the C locale, which the library runs in: it changes only the letters `A`–`Z`. -/
def towlower (c : UInt16) : UInt16 := if 0x41 ≤ c ∧ c ≤ 0x5A then c + 0x20 else c

/-- `_wcsicmp(a, b) == 0`: the strings are equal up to the case of their letters. -/
def WcsICmpEq (a b : WString) : Prop := a.map towlower = b.map towlower

instance (a b : WString) : Decidable (WcsICmpEq a b) :=
  inferInstanceAs (Decidable (a.map towlower = b.map towlower))

/-- What `Config::LoadFromRegistry` reads and a logon uses. -/
structure Config where
  serverUrl : WString
  /-- Whether `ServerURL` is set and acceptable. -/
  serverUrlConfigured : Bool
  fallbackRelayUrl : WString
  rdp2faEnabled : Bool
  console2faEnabled : Bool
  elevation2faEnabled : Bool
  fido2Enabled : Bool
  /-- `DefaultFactor`: 0 push, 1 passkey, 2 one-time code. -/
  defaultFactor : ℤ
  /-- `PushTimeoutSeconds`. -/
  pushTimeoutSec : ℤ
  failClose : Bool
  allowHttp : Bool
  /-- `BypassAccounts`, split and trimmed. -/
  bypassAccounts : List WString

/-- The values a `Config` has before the registry is read. -/
def Config.default : Config where
  serverUrl := []
  serverUrlConfigured := false
  fallbackRelayUrl := []
  rdp2faEnabled := false
  console2faEnabled := false
  elevation2faEnabled := false
  fido2Enabled := true
  defaultFactor := 0
  pushTimeoutSec := 45
  failClose := true
  allowHttp := false
  bypassAccounts := []

variable (username : WString)

/-- The first step of the cleaning in `IsBypassAccount`: what follows the last slash or backslash,
unless it is the last unit, and whether there was one. -/
def cutSlash : WString × Bool :=
  match cutLast (fun c => c == backslash || c == slash) username with
  | some (_, rest) => if rest = [] then (username, false) else (rest, true)
  | none => (username, false)

/-- The cleaning in `IsBypassAccount`: the name cut after its last slash and before its first at
sign, and whether either was there. -/
def cleanUser : WString × Bool :=
  match cutFirst (· == atSign) (cutSlash username).1 with
  | some (before, _) => (before, true)
  | none => cutSlash username

/-- `Config::IsBypassAccount`. -/
def Config.isBypassAccount (cfg : Config) (username domain : WString) : Bool :=
  if username = [] ∨ cfg.bypassAccounts = [] then false
  else
    cfg.bypassAccounts.any fun acc =>
      decide (WcsICmpEq acc username) ||
      (!(cleanUser username).2 && decide (WcsICmpEq acc (cleanUser username).1)) ||
      (!domain.isEmpty &&
        (decide (WcsICmpEq acc (domain ++ backslash :: (cleanUser username).1)) ||
          decide (WcsICmpEq acc ((cleanUser username).1 ++ atSign :: domain))))

variable (json key : Bytes)

/-- The text after the first occurrence of the quoted key and the first colon behind it. -/
def afterKey : Option Bytes := do
  let (_, rest) ← cutSub (0x22 :: key ++ [0x22]) json
  let (_, rest) ← cutFirst (· == 0x3A) rest
  return rest

/-- `ExtractJsonString`: what stands between the next two quotes after the key, or nothing. -/
def extractJsonString : Bytes :=
  (do
    let rest ← afterKey json key
    let (_, rest) ← cutFirst (· == 0x22) rest
    let (value, _) ← cutFirst (· == 0x22) rest
    return value).getD []

/-- `ExtractJsonBool`: the text `true` occurs after the key, before the next comma, closing brace
or line break. -/
def extractJsonBool : Bool :=
  match afterKey json key with
  | none => false
  | some rest =>
    match findSub (ascii "true") rest, findFirst (fun c => c == 0x2C || c == 0x7D || c == 0x0A) rest with
    | some truePos, some commaPos => truePos < commaPos
    | some _, none => true
    | none, _ => false

/-- `ExtractJsonInt` with the fallback 0: the digits after the key and blanks, as `atoi` reads
them, which stops at the largest `int`. -/
def extractJsonInt : ℕ :=
  match afterKey json key with
  | none => 0
  | some rest =>
    let digits := (rest.dropWhile fun c => c == 0x20 || c == 0x09).takeWhile
      fun c => 0x30 ≤ c && c ≤ 0x39
    min (digits.foldl (fun n c => 10 * n + (c - 0x30).toNat) 0) (2 ^ 31 - 1)

/-- The bypass check succeeds exactly on an entry that equals the name, the cleaned name where the
name had no domain in it, or the cleaned name joined with the domain in either form. -/
theorem isBypassAccount_iff (cfg : Config) (username domain : WString) : cfg.isBypassAccount username domain =
      true ↔ username ≠ [] ∧ ∃ acc ∈ cfg.bypassAccounts,
        WcsICmpEq acc username ∨
        ((cleanUser username).2 = false ∧ WcsICmpEq acc (cleanUser username).1) ∨
        (domain ≠ [] ∧ (WcsICmpEq acc (domain ++ backslash :: (cleanUser username).1) ∨
          WcsICmpEq acc ((cleanUser username).1 ++ atSign :: domain))) := by
  unfold Config.isBypassAccount
  by_cases hu : username = []
  · simp [hu]
  by_cases hl : cfg.bypassAccounts = []
  · simp [hl]
  simp only [hu, hl, or_self, if_false, List.any_eq_true, Bool.or_eq_true, Bool.and_eq_true,
    Bool.not_eq_true', decide_eq_true_eq, List.isEmpty_eq_false_iff, ne_eq, not_false_eq_true,
    true_and, or_assoc]

theorem cleanUser_of_not_hadDomain (h : (cleanUser username).2 = false) : (cleanUser username).1 = username := by
  unfold cleanUser cutSlash at *
  split at h
  · simp at h
  · split at h
    · split at h
      · rename_i hrest
        simp only [hrest, if_true]
      · simp at h
    · rfl

example : (Config.isBypassAccount { Config.default with bypassAccounts := [wide "CORP\\bob"] }
    (wide "Bob") (wide "corp")) = true := by decide

example : extractJsonString (ascii "\x7b\"ok\":false,\"error\":\"locked\"\x7d") (ascii "error") =
    ascii "locked" := by decide

end LigamentApps.CredentialProvider
