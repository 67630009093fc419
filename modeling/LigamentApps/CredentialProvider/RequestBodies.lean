import LigamentApps.CredentialProvider.HttpApiClient
import LigamentApps.Text.JsonReading
import Mathlib.Tactic.IntervalCases

/-!
# What the request bodies say

The bodies that `HttpApiClient.cpp` and `rdp_gate.cpp` put together by hand, each the concatenation of the
source with its escaped and unescaped parts. `Says body members` is that a JSON reader finds exactly these
members in the body, with exactly these values.

Every part that `EscapeJson` has passed through says what it was (`stringText_escapeJson`). The challenge id
of a poll is the one part that is neither made of digits nor escaped. -/

namespace LigamentApps.CredentialProvider

open LigamentApps.Text List Bool

variable {members : List (String × Bytes)} {body t : Bytes} (highPart lowPart : UInt32) (n : ℕ)

/-- A narrow string literal, in UTF-8. -/
def narrow (s : String) : Bytes := s.toList.flatMap fun c => utf8 c.toNat

/-- The table `hex` of `EscapeJson`, and what `%x` prints. -/
def hexDigit (n : ℕ) : UInt8 := if n < 10 then (0x30 + n).toUInt8 else (0x57 + n).toUInt8

/-- The body of the loop in `EscapeJson`. -/
def escapeJsonByte (c : UInt8) : Bytes :=
  if c = 0x22 then ascii "\\\""
  else if c = 0x5C then ascii "\\\\"
  else if c = 0x08 then ascii "\\b"
  else if c = 0x0C then ascii "\\f"
  else if c = 0x0A then ascii "\\n"
  else if c = 0x0D then ascii "\\r"
  else if c = 0x09 then ascii "\\t"
  else if c < 0x20 then ascii "\\u00" ++ [hexDigit (c.toNat / 16), hexDigit (c.toNat % 16)]
  else [c]

def escapeJson (str : Bytes) : Bytes := str.flatMap escapeJsonByte

theorem escapeJsonByte_control (hn : n < 0x20) :
    (∃ c, escapeJsonByte n.toUInt8 = [0x5C, c] ∧ escaped c = some n.toUInt8) ∨
      ∃ a b, escapeJsonByte n.toUInt8 = [0x5C, 0x75, 0x30, 0x30, a, b] ∧ hexUnit 0x30 0x30 a b = some n ∧
        utf8 n = [n.toUInt8] := by
  interval_cases n <;> first | exact .inl ⟨_, rfl, rfl⟩ | exact .inr ⟨_, _, rfl, rfl, rfl⟩

theorem escapeJsonByte_plain {c : UInt8} (h : isPlain c = true) : escapeJsonByte c = [c] := by
  simp only [isPlain, and_eq_true, decide_eq_true_eq, bne_iff_ne] at h
  obtain ⟨⟨hle, hquote⟩, hslash⟩ := h
  have hcontrol : ¬c < 0x20 := UInt8.not_lt.mpr hle
  have hne : ∀ b : UInt8, b < 0x20 → c ≠ b := fun b hb h => hcontrol (h ▸ hb)
  simp only [escapeJsonByte, hquote, hslash, hcontrol, if_false, hne 0x08 (by decide), hne 0x0C (by decide),
    hne 0x0A (by decide), hne 0x0D (by decide), hne 0x09 (by decide)]

theorem stringText_escapeJsonByte (c : UInt8) {v : Bytes} (h : StringText t v) :
    StringText (escapeJsonByte c ++ t) (c :: v) := by
  by_cases hquote : c = 0x22
  · subst hquote
    exact .escape (by decide) h
  by_cases hslash : c = 0x5C
  · subst hslash
    exact .escape (by decide) h
  by_cases hcontrol : c < 0x20
  · have hn : c.toNat < 0x20 := hcontrol
    have hc : c.toNat.toUInt8 = c := by simp
    rcases escapeJsonByte_control c.toNat hn with ⟨e, hbyte, he⟩ | ⟨a, b, hbyte, hunit, hutf⟩
    · rw [hc] at hbyte he
      rw [hbyte]
      exact .escape he h
    · rw [hc] at hbyte hutf
      rw [hbyte]
      have hsmall : isHigh c.toNat = false ∧ isLow c.toNat = false := by
        simp only [isHigh, isLow, and_eq_false_iff, decide_eq_false_iff_not]
        omega
      have hread := StringText.unit hunit hsmall h
      rw [hutf] at hread
      exact hread
  · have hplain : isPlain c = true := by
      simp only [isPlain, and_eq_true, decide_eq_true_eq, bne_iff_ne]
      exact ⟨⟨UInt8.not_lt.mp hcontrol, hquote⟩, hslash⟩
    rw [escapeJsonByte_plain hplain]
    exact .plain hplain h

theorem stringText_escapeJson (str : Bytes) : StringText (escapeJson str) str := by
  induction str with
  | nil => exact .nil
  | cons c _ ih => exact stringText_escapeJsonByte c ih

/-- `SessionEndpointInfo`, as far as the bodies carry it. -/
structure SessionEndpointInfo where
  clientIp : Bytes
  clientName : Bytes
  hostName : Bytes
  hostIp : Bytes
  service : Bytes
  clientDesc : Bytes

def SessionEndpointInfo.applyServiceBase (ep : SessionEndpointInfo) (base : Bytes) : SessionEndpointInfo :=
  if base = [] then ep
  else
    { ep with
      service := base ++ ascii " (" ++ (if ep.hostName = [] then narrow "Устройство" else ep.hostName) ++ ascii ")" }

/-- The end of three bodies, the fields of the endpoint. -/
def endpointTail (ep : SessionEndpointInfo) : Bytes :=
  ascii "\",\"service\":\"" ++ escapeJson ep.service ++ ascii "\",\"client\":\"" ++ escapeJson ep.clientDesc ++
    ascii "\",\"host\":\"" ++ escapeJson ep.hostName ++ ascii "\",\"client_ip\":\"" ++ escapeJson ep.clientIp ++
    ascii "\",\"host_ip\":\"" ++ escapeJson ep.hostIp ++ ascii "\",\"client_name\":\"" ++
    escapeJson ep.clientName ++ ascii "\",\"computer_name\":\"" ++ escapeJson ep.hostName ++ ascii "\"\x7d"

section Bodies

variable (wideToUtf8 : WString → Bytes)

/-- The start of four bodies, the user name and the password, before the rest. -/
def credentialsBody (username password : WString) (rest : Bytes) : Bytes :=
  ascii "\x7b\"username\":\"" ++ escapeJson (wideToUtf8 username) ++ ascii "\",\"password\":\"" ++
    escapeJson (wideToUtf8 password) ++ rest

variable (ep : SessionEndpointInfo)

/-- The body of `StartPush`. -/
def startPushBody (username password : WString) : Bytes :=
  credentialsBody wideToUtf8 username password (endpointTail ep)

/-- The body of `WebAuthnBegin`. -/
def webAuthnBeginBody (username password : WString) : Bytes :=
  credentialsBody wideToUtf8 username password (endpointTail ep)

/-- The body of `VerifyCombined` for Core. -/
def verifyCombinedBody (username password code : WString) : Bytes :=
  credentialsBody wideToUtf8 username password
    (ascii "\",\"code\":\"" ++ escapeJson (wideToUtf8 code) ++ endpointTail ep)

/-- The body of `VerifyCombined` for the relay. -/
def relayBody (username password code : WString) : Bytes :=
  credentialsBody wideToUtf8 username password
    (ascii "\",\"totp_code\":\"" ++ escapeJson (wideToUtf8 code) ++ ascii "\"\x7d")

/-- The body of `PollStatus`. -/
def pollStatusBody (challengeId : WString) : Bytes :=
  ascii "\x7b\"challenge_id\":\"" ++ wideToUtf8 challengeId ++ ascii "\"\x7d"

end Bodies

/-- `%08x`: so many hexadecimal digits of a number, the lowest last. -/
def hexText : ℕ → ℕ → Bytes
  | 0, _ => []
  | k + 1, n => hexText k (n / 16) ++ [hexDigit (n % 16)]

/-- `CurrentLogonIdHex`, of the logon's identifier. -/
def logonIdHex (highPart lowPart : UInt32) : Bytes := hexText 8 highPart.toNat ++ hexText 8 lowPart.toNat

/-- The request of `QueryAssertionNonce`. -/
def queryAssertionNonceBody (logonId usernameUtf8 userSid : Bytes) : Bytes :=
  ascii "\x7b\"logon_id\":\"" ++ logonId ++ ascii "\",\"username\":\"" ++ escapeJson usernameUtf8 ++
    ascii "\",\"user_sid\":\"" ++ escapeJson userSid ++ ascii "\"\x7d"

/-- The body of `CheckRdpMfaSatisfied`. -/
def checkRdpMfaSatisfiedBody (wideToUtf8 : WString → Bytes) (nonce : Bytes) (computerName : WString)
    (logonId : Bytes) (username : WString) (userSid : Bytes) : Bytes :=
  ascii "\x7b\"nonce\":\"" ++ escapeJson nonce ++ ascii "\",\"machine\":\"" ++ escapeJson (wideToUtf8 computerName) ++
    ascii "\"" ++ ascii ",\"logon_id\":\"" ++ logonId ++ ascii "\"" ++ ascii ",\"username\":\"" ++
    escapeJson (wideToUtf8 username) ++ ascii "\"" ++ ascii ",\"user_sid\":\"" ++ escapeJson userSid ++ ascii "\"\x7d"

/-- Members whose values are texts. -/
def textMembers (members : List (String × Bytes)) : List (Bytes × JsonTree) :=
  members.map fun m => (ascii m.1, .string m.2)

/-- A JSON reader finds these members in the body, in this order, and no others. -/
def Says (body : Bytes) (members : List (String × Bytes)) : Prop :=
  ObjectText body (textMembers members) ∧ ∀ ms, ObjectText body ms → ms = textMembers members

theorem says_iff : Says body members ↔ ObjectText body (textMembers members) :=
  ⟨fun h => h.1, fun h => ⟨h, fun _ h' => h'.unique h⟩⟩

/-- The members of an object whose names are plain, each written as its name and its text. -/
def membersBody : List (String × Bytes) → Bytes
  | [] => []
  | [m] => 0x22 :: (ascii m.1 ++ 0x22 :: 0x3A :: 0x22 :: (m.2 ++ [0x22]))
  | m :: ms => 0x22 :: (ascii m.1 ++ 0x22 :: 0x3A :: 0x22 :: (m.2 ++ 0x22 :: 0x2C :: membersBody ms))

/-- Each text is written for the value of the member of the same name. -/
inductive WrittenFor : List (String × Bytes) → List (String × Bytes) → Prop
  | nil : WrittenFor [] []
  | cons {name : String} {t v : Bytes} {ts vs : List (String × Bytes)}
    (hname : ∀ b ∈ ascii name, isPlain b = true) (h : StringText t v) (hs : WrittenFor ts vs) :
    WrittenFor ((name, t) :: ts) ((name, v) :: vs)

theorem membersText_of_writtenFor {ts vs : List (String × Bytes)} (h : WrittenFor ts vs) (hne : ts ≠ []) :
    MembersText (membersBody ts) (textMembers vs) := by
  have hblank : Blank [] := by simp [Blank]
  induction h with
  | nil => exact absurd rfl hne
  | @cons name t v ts vs hname h hs ih =>
    have hn := stringText_plain hname
    have hv : ValueText (0x22 :: t ++ [0x22]) (.string v) := .string h
    cases hs with
    | nil =>
      have hlast := MembersText.last hblank hn hblank hblank hv hblank
      simpa [membersBody, textMembers] using hlast
    | cons =>
      have hcons := MembersText.cons hblank hn hblank hblank hv hblank (ih (by simp))
      simpa [membersBody, textMembers] using hcons

theorem says_of_writtenFor {ts vs : List (String × Bytes)} (h : WrittenFor ts vs) (hne : ts ≠ [])
    (hbody : body = 0x7B :: (membersBody ts ++ [0x7D])) : Says body vs := by
  rw [says_iff]
  refine ⟨[], body, [], by simp, by simp [Blank], by simp [Blank], ?_⟩
  rw [hbody]
  exact .object (membersText_of_writtenFor h hne)

def escapedMembers (members : List (String × Bytes)) : List (String × Bytes) :=
  members.map fun m => (m.1, escapeJson m.2)

theorem writtenFor_escaped (hnames : ∀ name ∈ members.map Prod.fst, (ascii name).all isPlain = true) :
    WrittenFor (escapedMembers members) members := by
  induction members with
  | nil => exact .nil
  | cons m _ ih =>
    have hrest := ih fun name hname => hnames name (mem_cons_of_mem m.1 hname)
    exact .cons (all_eq_true.mp (hnames m.1 mem_cons_self)) (stringText_escapeJson m.2) hrest

theorem says_of_escaped (hnames : ∀ name ∈ members.map Prod.fst, (ascii name).all isPlain = true)
    (hne : members ≠ []) (hbody : body = 0x7B :: (membersBody (escapedMembers members) ++ [0x7D])) :
    Says body members :=
  says_of_writtenFor (writtenFor_escaped hnames) (by simpa [escapedMembers] using hne) hbody

/-- The members that the endpoint adds to a body. -/
def endpointMembers (ep : SessionEndpointInfo) : List (String × Bytes) :=
  [("service", ep.service), ("client", ep.clientDesc), ("host", ep.hostName), ("client_ip", ep.clientIp),
    ("host_ip", ep.hostIp), ("client_name", ep.clientName), ("computer_name", ep.hostName)]

section Says

variable (wideToUtf8 : WString → Bytes)

/-- The names of `credentialsBody`, before those of the rest. -/
def credentialsMembers (username password : WString) (rest : List (String × Bytes)) : List (String × Bytes) :=
  ("username", wideToUtf8 username) :: ("password", wideToUtf8 password) :: rest

theorem credentialsBody_endpoint_says (ep : SessionEndpointInfo) (username password : WString) :
    Says (credentialsBody wideToUtf8 username password (endpointTail ep))
      (credentialsMembers wideToUtf8 username password (endpointMembers ep)) := by
  have hnames : ∀ name ∈ ["username", "password", "service", "client", "host", "client_ip", "host_ip",
      "client_name", "computer_name"], (ascii name).all isPlain = true := by decide
  refine says_of_escaped hnames (by simp [credentialsMembers]) ?_
  simp only [credentialsBody, endpointTail, credentialsMembers, endpointMembers, escapedMembers, map_cons,
    map_nil, membersBody, append_assoc, cons_append]
  rfl

theorem verifyCombinedBody_says (ep : SessionEndpointInfo) (username password code : WString) :
    Says (verifyCombinedBody wideToUtf8 ep username password code)
      (credentialsMembers wideToUtf8 username password (("code", wideToUtf8 code) :: endpointMembers ep)) := by
  have hnames : ∀ name ∈ ["username", "password", "code", "service", "client", "host", "client_ip", "host_ip",
      "client_name", "computer_name"], (ascii name).all isPlain = true := by decide
  refine says_of_escaped hnames (by simp [credentialsMembers]) ?_
  simp only [verifyCombinedBody, credentialsBody, endpointTail, credentialsMembers, endpointMembers,
    escapedMembers, map_cons, map_nil, membersBody, append_assoc, cons_append]
  rfl

theorem relayBody_says (username password code : WString) : Says (relayBody wideToUtf8 username password code)
      (credentialsMembers wideToUtf8 username password [("totp_code", wideToUtf8 code)]) := by
  have hnames : ∀ name ∈ ["username", "password", "totp_code"], (ascii name).all isPlain = true := by decide
  refine says_of_escaped hnames (by simp [credentialsMembers]) ?_
  simp only [relayBody, credentialsBody, credentialsMembers, escapedMembers, map_cons, map_nil, membersBody,
    append_assoc, cons_append]
  rfl

end Says

theorem hexDigit_plain (hn : n < 16) : isPlain (hexDigit n) = true := by
  interval_cases n <;> rfl

theorem hexText_plain (k n : ℕ) : ∀ b ∈ hexText k n, isPlain b = true := by
  induction k generalizing n with
  | zero => simp [hexText]
  | succ _ ih =>
    intro b hb
    simp only [hexText, mem_append, mem_singleton] at hb
    rcases hb with hb | rfl
    · exact ih _ b hb
    · exact hexDigit_plain _ (Nat.mod_lt n (by decide))

theorem logonIdHex_plain : ∀ b ∈ logonIdHex highPart lowPart, isPlain b = true := by
  intro b hb
  rcases mem_append.mp hb with hb | hb
  exacts [hexText_plain _ _ b hb, hexText_plain _ _ b hb]

theorem escapeJson_plain (h : ∀ b ∈ t, isPlain b = true) : escapeJson t = t := by
  induction t with
  | nil => rfl
  | cons c _ ih =>
    have hrest := ih fun b hb => h b (mem_cons_of_mem c hb)
    rw [escapeJson] at hrest ⊢
    rw [flatMap_cons, escapeJsonByte_plain (h c mem_cons_self), hrest]
    rfl

theorem queryAssertionNonceBody_says (usernameUtf8 userSid : Bytes) :
    Says (queryAssertionNonceBody (logonIdHex highPart lowPart) usernameUtf8 userSid)
      [("logon_id", logonIdHex highPart lowPart), ("username", usernameUtf8), ("user_sid", userSid)] := by
  have hnames : ∀ name ∈ ["logon_id", "username", "user_sid"], (ascii name).all isPlain = true := by decide
  refine says_of_escaped hnames (by simp) ?_
  simp only [queryAssertionNonceBody, escapedMembers, map_cons, map_nil, membersBody, append_assoc,
    cons_append, escapeJson_plain (logonIdHex_plain highPart lowPart)]
  rfl

theorem checkRdpMfaSatisfiedBody_says (wideToUtf8 : WString → Bytes) (nonce : Bytes) (computerName : WString)
    (highPart lowPart : UInt32) (username : WString) (userSid : Bytes) :
    Says (checkRdpMfaSatisfiedBody wideToUtf8 nonce computerName (logonIdHex highPart lowPart) username userSid)
      [("nonce", nonce), ("machine", wideToUtf8 computerName), ("logon_id", logonIdHex highPart lowPart),
        ("username", wideToUtf8 username), ("user_sid", userSid)] := by
  have hnames : ∀ name ∈ ["nonce", "machine", "logon_id", "username", "user_sid"],
      (ascii name).all isPlain = true := by decide
  refine says_of_escaped hnames (by simp) ?_
  simp only [checkRdpMfaSatisfiedBody, escapedMembers, map_cons, map_nil, membersBody, append_assoc,
    cons_append, escapeJson_plain (logonIdHex_plain highPart lowPart)]
  rfl

theorem objectText_single {name v : Bytes} (h : ObjectText body [(name, .string v)]) :
    ∃ w w₀ n w₁ w₂ u w₃ w₄, body = w ++ 0x7B :: (w₀ ++ 0x22 :: (n ++ 0x22 :: (w₁ ++ 0x3A :: (w₂ ++ 0x22 ::
      (u ++ 0x22 :: (w₃ ++ 0x7D :: w₄)))))) ∧ Blank w ∧ Blank w₀ ∧ StringText n name ∧ Blank w₁ ∧ Blank w₂ ∧
      Blank w₃ ∧ Blank w₄ ∧ StringText u v := by
  obtain ⟨w, text, w₄, rfl, hw, hw₄, hvalue⟩ := h
  cases hvalue with
  | object hmembers =>
    cases hmembers with
    | @last w₀ n _ w₁ w₂ _ w₃ _ hw₀ hn hw₁ hw₂ hv hw₃ =>
      obtain ⟨u, rfl, hu⟩ := string_of_valueText hv
      exact ⟨w, w₀, n, w₁, w₂, u, w₃, w₄, by simp, hw, hw₀, hn, hw₁, hw₂, hw₃, hw₄, hu⟩
    | cons _ _ _ _ _ _ hs => cases hs

theorem blank_nil_of_append_eq {w t' : Bytes} {b c : UInt8} (hw : Blank w) (hb : isBlank b = false)
    (heq : t ++ c :: w = t' ++ [b]) : w = [] ∧ t = t' ∧ c = b := by
  rcases eq_nil_or_concat w with rfl | ⟨w', x, rfl⟩
  · obtain ⟨rfl, hc⟩ := append_inj' heq rfl
    exact ⟨rfl, rfl, (List.cons.inj hc).1⟩
  · have hlast : (t ++ c :: w') ++ [x] = t' ++ [b] := by simpa using heq
    have hx : [x] = [b] := (append_inj' hlast rfl).2
    have hblank := hw x (by simp)
    rw [(List.cons.inj hx).1, hb] at hblank
    cases hblank

theorem pollStatusBody_says_iff (wideToUtf8 : WString → Bytes) (challengeId : WString) (v : Bytes) :
    Says (pollStatusBody wideToUtf8 challengeId) [("challenge_id", v)] ↔ StringText (wideToUtf8 challengeId) v := by
  have hname : ∀ b ∈ ascii "challenge_id", isPlain b = true := all_eq_true.mp (by decide)
  constructor
  · intro h
    obtain ⟨w, w₀, n, w₁, w₂, u, w₃, w₄, hbody, hw, hw₀, hn, hw₁, hw₂, hw₃, hw₄, hu⟩ := objectText_single h.1
    have hnil : Blank [] := by simp [Blank]
    have hstart : ([] : Bytes) ++ 0x7B :: ([] ++ 0x22 :: (ascii "challenge_id" ++ 0x22 :: ([] ++ 0x3A :: ([] ++ 0x22 ::
        (wideToUtf8 challengeId ++ [0x22, 0x7D]))))) = _ := hbody
    -- up to the value the two readings agree, token by token
    obtain ⟨-, -, hopen⟩ := blank_unique hnil hw (by decide) (by decide) hstart
    obtain ⟨-, -, hquote⟩ := blank_unique hnil hw₀ (by decide) (by decide) hopen
    obtain ⟨-, -, hcolon⟩ := (stringText_plain hname).unique hn hquote
    obtain ⟨-, -, hspace⟩ := blank_unique hnil hw₁ (by decide) (by decide) hcolon
    obtain ⟨-, -, hvalue⟩ := blank_unique hnil hw₂ (by decide) (by decide) hspace
    -- and behind it nothing is left for blanks
    have hend : (u ++ 0x22 :: w₃) ++ 0x7D :: w₄ = (wideToUtf8 challengeId ++ [0x22]) ++ [0x7D] := by
      simpa using hvalue.symm
    obtain ⟨rfl, hlast, -⟩ := blank_nil_of_append_eq hw₄ (by decide) hend
    obtain ⟨rfl, rfl, -⟩ := blank_nil_of_append_eq hw₃ (by decide) hlast
    exact hu
  · intro h
    refine says_of_writtenFor (.cons hname h .nil) (by simp) ?_
    simp only [pollStatusBody, membersBody, append_assoc, cons_append]
    rfl

theorem stringText_self_iff : StringText t t ↔ ∀ b ∈ t, isPlain b = true :=
  ⟨fun h => (h.plain_of_length_le le_rfl).2, stringText_plain⟩

/-- What a logon sends: the texts of the user, the machine's description of itself, and the server's answer
that named the challenge. -/
structure Requests where
  username : WString
  password : WString
  code : WString
  endpoint : SessionEndpointInfo
  serviceBase : Bytes
  computerName : WString
  highPart : UInt32
  lowPart : UInt32
  userSid : Bytes
  nonce : Bytes
  response : Bytes

namespace Requests

/-- The endpoint's description as the bodies carry it. -/
def ep (q : Requests) : SessionEndpointInfo := q.endpoint.applyServiceBase q.serviceBase

/-- The challenge id out of the server's answer. -/
def challengeId (P : Platform) (q : Requests) : WString :=
  P.utf8ToWide (extractJsonString q.response (ascii "challenge_id"))

/-- Every body says what it is meant to say. -/
structure SayWhatWasTyped (P : Platform) (wideToUtf8 : WString → Bytes) (q : Requests) : Prop where
  startPush : Says (startPushBody wideToUtf8 q.ep q.username q.password)
    (credentialsMembers wideToUtf8 q.username q.password (endpointMembers q.ep))
  webAuthnBegin : Says (webAuthnBeginBody wideToUtf8 q.ep q.username q.password)
    (credentialsMembers wideToUtf8 q.username q.password (endpointMembers q.ep))
  verifyCombined : Says (verifyCombinedBody wideToUtf8 q.ep q.username q.password q.code)
    (credentialsMembers wideToUtf8 q.username q.password (("code", wideToUtf8 q.code) :: endpointMembers q.ep))
  relay : Says (relayBody wideToUtf8 q.username q.password q.code)
    (credentialsMembers wideToUtf8 q.username q.password [("totp_code", wideToUtf8 q.code)])
  pollStatus : Says (pollStatusBody wideToUtf8 (q.challengeId P)) [("challenge_id", wideToUtf8 (q.challengeId P))]
  queryAssertionNonce : Says
    (queryAssertionNonceBody (logonIdHex q.highPart q.lowPart) (wideToUtf8 q.username) q.userSid)
    [("logon_id", logonIdHex q.highPart q.lowPart), ("username", wideToUtf8 q.username), ("user_sid", q.userSid)]
  checkRdpMfaSatisfied : Says
    (checkRdpMfaSatisfiedBody wideToUtf8 q.nonce q.computerName (logonIdHex q.highPart q.lowPart) q.username q.userSid)
    [("nonce", q.nonce), ("machine", wideToUtf8 q.computerName), ("logon_id", logonIdHex q.highPart q.lowPart),
      ("username", wideToUtf8 q.username), ("user_sid", q.userSid)]

/-- The bodies say what was typed exactly when the challenge id has no quote, backslash or control character
in it. -/
theorem sayWhatWasTyped_iff (P : Platform) (wideToUtf8 : WString → Bytes) (q : Requests) :
    q.SayWhatWasTyped P wideToUtf8 ↔ ∀ b ∈ wideToUtf8 (q.challengeId P), isPlain b = true := by
  constructor
  · intro h
    exact stringText_self_iff.mp ((pollStatusBody_says_iff wideToUtf8 _ _).mp h.pollStatus)
  · intro h
    exact
      { startPush := credentialsBody_endpoint_says wideToUtf8 q.ep q.username q.password
        webAuthnBegin := credentialsBody_endpoint_says wideToUtf8 q.ep q.username q.password
        verifyCombined := verifyCombinedBody_says wideToUtf8 q.ep q.username q.password q.code
        relay := relayBody_says wideToUtf8 q.username q.password q.code
        pollStatus := (pollStatusBody_says_iff wideToUtf8 _ _).mpr (stringText_self_iff.mpr h)
        queryAssertionNonce := queryAssertionNonceBody_says q.highPart q.lowPart (wideToUtf8 q.username) q.userSid
        checkRdpMfaSatisfied := checkRdpMfaSatisfiedBody_says wideToUtf8 q.nonce q.computerName q.highPart q.lowPart
          q.username q.userSid }

/-- The conversions of Windows on ASCII texts. -/
def asciiPlatform : Platform where
  crackUrl _ := none
  utf8ToWide str := str.map fun b => b.toNat.toUInt16

/-- A user whose challenge the server named with an escaped quote in it. -/
def quotedChallenge : Requests where
  username := wide "bob"
  password := wide "secret"
  code := wide "123456"
  endpoint := ⟨[], [], [], [], [], []⟩
  serviceBase := []
  computerName := wide "PC"
  highPart := 0
  lowPart := 0x3E7
  userSid := ascii "S-1-5-18"
  nonce := ascii "00ff"
  response := ascii "\x7b\"challenge_id\":\"a\\\"b\"\x7d"

/-- The challenge id ends at the escaped quote, and its backslash escapes the closing quote of the poll's
body. -/
theorem quotedChallenge_not_said :
    ¬quotedChallenge.SayWhatWasTyped asciiPlatform fun units => units.map fun u => u.toNat.toUInt8 := by
  rw [sayWhatWasTyped_iff]
  decide

end Requests

end LigamentApps.CredentialProvider
