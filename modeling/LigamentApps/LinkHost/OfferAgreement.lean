import LigamentApps.LinkAgent.WorkerFrames
import LigamentApps.LinkHost.Bootstrap
import LigamentApps.Text.Binary64

/-!
# Two readings of one offer

The broker checks an offer in Go and hands its bytes, or what `updateOfferEpoch` makes of them, to the worker,
which checks them again in Dart. Which of the accepted offers, and with them all their rewritings, the worker
can open a session for, reading what the broker has read. -/

namespace LigamentApps.LinkHost

open LinkAgent

variable {payload message : Json} {s : String}

/-- The desktop scope of `LinkSessionPolicy.fromWire`, which throws where the scope of the map is no
string. -/
def desktopScopeOf (dlp : Option Json) (desktopScope : Option String) : Option String :=
  match dlp with
  | some (.obj members) =>
    match (Json.obj members).getPresent "desktop_scope" with
    | none => some (desktopScope.getD "interactive")
    | some (.str scope) => some scope
    | some _ => none
  | _ => some (desktopScope.getD "interactive")

/-- The start of a recorder with an insecure ingest is a violation, which it reports to the session. -/
def ingestOk (isSecureIngestUri : String → Bool) (recording : LinkRecordingConfig) : Bool :=
  !recording.isActive || !recording.isStrict || isSecureIngestUri recording.ingestUrl

/-- The desktop scope that the worker is to have. -/
def scopeOf (doubleText : ℚ → String) (offer : Json) : Option String :=
  desktopScopeOf (offer.get "dlp") ((offer.getPresent "desktop_scope").map (dartText doubleText))

/-- `_runConnectedLinkHostWorker` up to its session, with the desktop scope. -/
def openSession (isSecureIngestUri : String → Bool) (doubleText : ℚ → String) (decoded : Json) :
    Option (HostOffer × String) := do
  let o ← bootstrap doubleText decoded
  -- A violation is reported to a variable that has no session yet, and reading that throws.
  guard (ingestOk isSecureIngestUri o.recording)
  let scope ← scopeOf doubleText (← decoded.get "payload")
  return (o, scope)

/-- The text of a frame: its decoded value, in which Go has replaced what is malformed, whether it is
well-formed UTF-8, and its length in bytes and in UTF-16 units. -/
structure FrameText where
  json : Json
  wellFormed : Bool
  bytes : ℕ
  units : ℕ
  units_le_bytes : units ≤ bytes

/-- `linkHostFrameLimit` of the launcher and `_linkHostFrameLimit` of the worker. -/
def linkHostFrameLimit : ℕ := 512 * 1024

/-- A frame that the launcher is given for an accepted offer: the offer, or what `updateOfferEpoch` makes of
it. -/
def Handed (f g : FrameText) : Prop :=
  g = f ∨ ∃ epoch, g.json = updateOfferEpoch binary64 f.json epoch ∧ g.wellFormed = true

/-- The worker opens a session for a frame that it has received. -/
def opens (isSecureIngestUri : String → Bool) (doubleText : ℚ → String) (f : FrameText) :
    Option (HostOffer × String) :=
  if f.wellFormed && f.units ≤ linkHostFrameLimit then openSession isSecureIngestUri doubleText f.json else none

/-- A desktop scope, which is the interactive one where the text is empty. -/
def effectiveScope (scope : String) : String := if scope = "" then "interactive" else scope

/-- The worker opens a session, for the session, the access and the desktop scope that the broker has read. -/
def Agrees (isSecureIngestUri : String → Bool) (doubleText : ℚ → String) (offer : SessionOffer)
    (f : FrameText) : Prop :=
  ∃ o scope, opens isSecureIngestUri doubleText f = some (o, scope) ∧ o.sessionId = offer.sessionId ∧
    o.accessMode = offer.accessMode ∧ o.accessType = offer.accessType ∧
    effectiveScope scope = effectiveScope offer.desktopScope

/-- The desktop scope in the `dlp` of an offer, where a null counts as missing. -/
def dlpScope (payload : Json) : Option Json := (payload.get "dlp").bind (·.getPresent "desktop_scope")

/-- The payload is one for both sides: its members with exactly these names are what the broker has read of
them in any case, the confirmation is the one of the access type, and what only the worker reads has the type
it needs. -/
structure PayloadForBoth (isSecureIngestUri : String → Bool) (doubleText : ℚ → String) (offer : SessionOffer)
    (payload : Json) : Prop where
  sessionId : payload.get "session_id" = some (.str offer.sessionId)
  accessMode : payload.get "access_mode" = some (.str offer.accessMode)
  accessType : payload.get "access_type" = some (.str offer.accessType)
  confirmationRequired : payload.get "confirmation_required" = some (.bool (offer.accessType = "attended"))
  confirmationDigits : offer.accessType = "attended" →
    ∃ n ∈ [(2 : ℤ), 3, 4, 6], (payload.getPresent "confirmation_digits").getD (.int 6) = .int n
  operatorName : operatorNameOk payload = true
  iceServers : (iceServerCount payload).isSome = true
  sdp : ∃ sdp, payload.get "sdp" = some (.str sdp)
  ingest : ingestOk isSecureIngestUri (.fromWire doubleText (payload.get "recording")) = true
  /-- A desktop scope in the `dlp` is the one that the broker has read beside it. -/
  scope : ∃ scope, ((dlpScope payload).or (payload.getPresent "desktop_scope")).getD (.str "interactive") =
    .str scope ∧ effectiveScope scope = effectiveScope offer.desktopScope

structure ForBoth (isSecureIngestUri : String → Bool) (doubleText : ℚ → String) (offer : SessionOffer)
    (f : FrameText) : Prop where
  wellFormed : f.wellFormed = true
  type : f.json.get "type" = some (.str "session_offer")
  payload : ∃ members, f.json.get "payload" = some (.obj members) ∧
    PayloadForBoth isSecureIngestUri doubleText offer (.obj members)

section Reading

variable {isSecureIngestUri : String → Bool} {doubleText : ℚ → String} {size : Json → ℕ} {offer : SessionOffer}
  {f g : FrameText}

theorem valid_of_decodeOffer (h : decodeOffer size message = some offer) : offer.valid size = true := by
  unfold decodeOffer at h
  simp only [Option.bind_eq_bind, Option.bind_eq_some_iff, guard, Option.pure_def] at h
  obtain ⟨envelope, -, payload, -, _, -, decoded, -, _, hvalid, hsame⟩ := h
  split at hvalid
  · cases hsame
    assumption
  · simp at hvalid

theorem checks_of_decodeOffer (h : decodeOffer size message = some offer) :
    isUuid offer.sessionId = true ∧ (offer.accessMode = "view" ∨ offer.accessMode = "control") ∧
      (offer.accessType = "attended" ∨ offer.accessType = "unattended") := by
  have hvalid := valid_of_decodeOffer h
  unfold SessionOffer.valid at hvalid
  simp only [Bool.and_eq_true, Bool.or_eq_true, decide_eq_true_eq] at hvalid
  obtain ⟨⟨⟨⟨⟨⟨⟨⟨⟨⟨⟨⟨hid, -⟩, -⟩, hmode⟩, htype⟩, -⟩, -⟩, -⟩, -⟩, -⟩, -⟩, -⟩, -⟩ := hvalid
  exact ⟨hid, hmode, htype⟩

/-- A text that begins as no word of an offer and as no URL does. -/
def BeginsOtherwise (s : String) : Prop :=
  ∃ c, s.toList.head? = some c ∧ c ≠ 'h' ∧ c ≠ 'H' ∧ c ≠ 'i' ∧ c ≠ 's'

theorem beginsOtherwise_digit {c : Char} (hhead : s.toList.head? = some c)
    (hc : c.isDigit = true ∨ c = '-') : BeginsOtherwise s := by
  refine ⟨c, hhead, ?_⟩
  obtain hdigit | rfl := hc
  · refine ⟨?_, ?_, ?_, ?_⟩
    -- none of the four letters is a digit
    all_goals
      rintro rfl
      cases hdigit
  · decide

theorem beginsOtherwise_int (n : ℤ) : BeginsOtherwise (toString n) := by
  cases n with
  | ofNat n =>
    have htext : (toString (Int.ofNat n)).toList = Nat.toDigits 10 n := Nat.toList_repr
    obtain ⟨c, rest, hdigits⟩ := List.exists_cons_of_ne_nil (Nat.toDigits_ne_nil (n := n))
    have hc : c.isDigit = true :=
      Nat.isDigit_of_mem_toDigits (by norm_num) le_rfl (hdigits ▸ List.mem_cons_self)
    refine beginsOtherwise_digit (c := c) ?_ (.inl hc)
    rw [htext, hdigits]
    rfl
  | negSucc n =>
    refine beginsOtherwise_digit ?_ (.inr rfl)
    have htext : toString (Int.negSucc n) = "-" ++ Nat.repr (n + 1) := rfl
    rw [htext, String.toList_append]
    rfl

theorem beginsOtherwise_of_not_str (hdouble : ∀ q, BeginsOtherwise (doubleText q))
    {j : Json} (hj : ∀ s, j ≠ .str s) : BeginsOtherwise (dartText doubleText j) := by
  cases j with
  | str s => exact absurd rfl (hj s)
  | null => exact ⟨'n', by simp [dartText], by decide⟩
  | bool b =>
    cases b with
    | false => exact ⟨'f', by simp [dartText], by decide⟩
    | true => exact ⟨'t', by simp [dartText], by decide⟩
  | int n => exact beginsOtherwise_int n
  | dec q => exact hdouble q
  | arr =>
    refine ⟨'[', ?_, by decide⟩
    unfold dartText
    rw [String.toList_append, String.toList_append]
    rfl
  | obj =>
    refine ⟨'\x7b', ?_, by decide⟩
    unfold dartText
    rw [String.toList_append, String.toList_append]
    rfl

theorem BeginsOtherwise.ne (h : BeginsOtherwise s) : s ≠ "" ∧ s ≠ "interactive" ∧ s ≠ "system_console" := by
  obtain ⟨c, hhead, hc⟩ := h
  refine ⟨?_, ?_, ?_⟩
  · rintro rfl
    simp at hhead
  · rintro rfl
    exact hc.2.2.1 (Option.some.inj hhead).symm
  · rintro rfl
    exact hc.2.2.2 (Option.some.inj hhead).symm

theorem BeginsOtherwise.insecure
    (hscheme : ∀ s, isSecureIngestUri s = true → s.toList.head? = some 'h' ∨ s.toList.head? = some 'H')
    (h : BeginsOtherwise s) : isSecureIngestUri s = false := by
  obtain ⟨c, hhead, hlower, hupper, -⟩ := h
  rw [← Bool.not_eq_true]
  intro hsecure
  obtain hfirst | hfirst := hscheme s hsecure
  · exact hlower (Option.some.inj (hhead.symm.trans hfirst))
  · exact hupper (Option.some.inj (hhead.symm.trans hfirst))

theorem guard_eq_some {p : Prop} [Decidable p] {u : Unit} (h : (guard p : Option Unit) = some u) : p := by
  unfold guard at h
  split at h
  · assumption
  · simp at h

theorem str_of_str? {j : Json} (h : j.str? = some s) : j = .str s := by
  cases j with
  | str => exact congrArg Json.str (Option.some.inj h)
  | _ => simp [Json.str?] at h

theorem confirmationRequiredOk_iff {required : Json} {attended : Bool} :
    confirmationRequiredOk required attended = true ↔ required = .bool attended := by
  cases required with
  | bool =>
    unfold confirmationRequiredOk
    rw [beq_iff_eq, Json.bool.injEq]
  | _ => simp [confirmationRequiredOk]

theorem confirmationDigitsOf_iff {attended : Bool} :
    (confirmationDigitsOf payload attended).isSome = true ↔ (attended = true →
      ∃ n ∈ [(2 : ℤ), 3, 4, 6], (payload.getPresent "confirmation_digits").getD (.int 6) = .int n) := by
  unfold confirmationDigitsOf
  cases (payload.getPresent "confirmation_digits").getD (.int 6) with
  | int n =>
    dsimp only
    cases attended with
    | false => simp
    | true =>
      by_cases hn : n = 2 ∨ n = 3 ∨ n = 4 ∨ n = 6
      · rw [if_neg (by omega)]
        simp [hn]
      · rw [if_pos (by simp; omega)]
        simpa using hn
  | _ => cases attended <;> simp

theorem of_bootstrap {decoded : Json} {o : HostOffer} (h : bootstrap doubleText decoded = some o) :
    ∃ members, decoded.get "type" = some (.str "session_offer") ∧ decoded.get "payload" =
      some (.obj members) ∧ (Json.obj members).get "session_id" = some (.str o.sessionId) ∧
      (Json.obj members).get "access_mode" = some (.str o.accessMode) ∧
      (Json.obj members).get "access_type" = some (.str o.accessType) ∧
      (Json.obj members).get "confirmation_required" = some (.bool (o.accessType = "attended")) ∧
      confirmationDigitsOf (.obj members) (o.accessType = "attended") = some o.confirmationDigits ∧
      operatorNameOk (.obj members) = true ∧ (iceServerCount (.obj members)).isSome = true ∧
      (∃ sdp, (Json.obj members).get "sdp" = some (.str sdp)) ∧
      o.recording = .fromWire doubleText ((Json.obj members).get "recording") := by
  obtain ⟨kind, hkind, h⟩ := Option.bind_eq_some_iff.mp h
  obtain ⟨payload, hpayload, h⟩ := Option.bind_eq_some_iff.mp h
  obtain ⟨id, hid, h⟩ := Option.bind_eq_some_iff.mp h
  obtain ⟨sessionId, hsession, h⟩ := Option.bind_eq_some_iff.mp h
  obtain ⟨mode, hmode, h⟩ := Option.bind_eq_some_iff.mp h
  obtain ⟨accessMode, haccessMode, h⟩ := Option.bind_eq_some_iff.mp h
  obtain ⟨type, htype, h⟩ := Option.bind_eq_some_iff.mp h
  obtain ⟨accessType, haccessType, h⟩ := Option.bind_eq_some_iff.mp h
  obtain ⟨required, hrequired, h⟩ := Option.bind_eq_some_iff.mp h
  obtain ⟨text, htext, h⟩ := Option.bind_eq_some_iff.mp h
  obtain ⟨sdp, hsdp, h⟩ := Option.bind_eq_some_iff.mp h
  obtain ⟨iceServers, hice, h⟩ := Option.bind_eq_some_iff.mp h
  obtain ⟨digits, hdigits, h⟩ := Option.bind_eq_some_iff.mp h
  obtain ⟨_, hkindOk, h⟩ := Option.bind_eq_some_iff.mp h
  obtain ⟨_, htypeOk, h⟩ := Option.bind_eq_some_iff.mp h
  obtain ⟨_, hrequiredOk, h⟩ := Option.bind_eq_some_iff.mp h
  obtain ⟨_, hname, h⟩ := Option.bind_eq_some_iff.mp h
  obtain ⟨_, huuid, h⟩ := Option.bind_eq_some_iff.mp h
  cases h
  obtain ⟨hkindStr, hobj⟩ := guard_eq_some hkindOk
  have hisType : kind = .str "session_offer" := by
    cases kind with
    | str => exact congrArg Json.str (beq_iff_eq.mp hkindStr)
    | _ => simp [Json.isStr] at hkindStr
  have hisObj : ∃ members, payload = .obj members := by
    cases payload with
    | obj members => exact ⟨members, rfl⟩
    | _ => simp [Json.isObj] at hobj
  obtain ⟨members, rfl⟩ := hisObj
  refine ⟨members, hisType ▸ hkind, hpayload, ?_, ?_, ?_, ?_, hdigits, guard_eq_some hname, ?_, ⟨sdp, ?_⟩, rfl⟩
  · rw [hid, str_of_str? hsession]
  · rw [hmode, str_of_str? haccessMode]
  · rw [htype, str_of_str? haccessType]
  · rw [hrequired, confirmationRequiredOk_iff.mp (guard_eq_some hrequiredOk)]
  · rw [hice]
    rfl
  · rw [htext, str_of_str? hsdp]

theorem bootstrap_of_forBoth (hoffer : isUuid offer.sessionId = true ∧
      (offer.accessMode = "view" ∨ offer.accessMode = "control") ∧
      (offer.accessType = "attended" ∨ offer.accessType = "unattended"))
    {decoded : Json} {members : List (String × Json)} (htype : decoded.get "type" = some (.str "session_offer"))
    (hpayload : decoded.get "payload" = some (.obj members))
    (h : PayloadForBoth isSecureIngestUri doubleText offer (.obj members)) :
    ∃ o, bootstrap doubleText decoded = some o ∧ o.sessionId = offer.sessionId ∧ o.accessMode = offer.accessMode ∧
      o.accessType = offer.accessType ∧ o.recording =
          .fromWire doubleText ((Json.obj members).get "recording") := by
  obtain ⟨sdp, hsdp⟩ := h.sdp
  obtain ⟨count, hcount⟩ := Option.isSome_iff_exists.mp h.iceServers
  have hdigits : (confirmationDigitsOf (.obj members) (offer.accessType = "attended")).isSome = true :=
    confirmationDigitsOf_iff.mpr fun hattended => h.confirmationDigits (of_decide_eq_true hattended)
  obtain ⟨digits, hdigits⟩ := Option.isSome_iff_exists.mp hdigits
  refine ⟨⟨offer.sessionId, offer.accessMode, offer.accessType, digits, sdp, count,
    .fromWire doubleText ((Json.obj members).get "recording")⟩, ?_, rfl, rfl, rfl, rfl⟩
  have hguard : ∀ {p : Prop} [Decidable p], p → (guard p : Option Unit) = some () := fun hp => if_pos hp
  -- the members in the order in which the bootstrap reads them
  refine Option.bind_eq_some_iff.mpr ⟨_, htype, ?_⟩
  refine Option.bind_eq_some_iff.mpr ⟨_, hpayload, ?_⟩
  refine Option.bind_eq_some_iff.mpr ⟨_, h.sessionId, ?_⟩
  refine Option.bind_eq_some_iff.mpr ⟨_, rfl, ?_⟩
  refine Option.bind_eq_some_iff.mpr ⟨_, h.accessMode, ?_⟩
  refine Option.bind_eq_some_iff.mpr ⟨_, rfl, ?_⟩
  refine Option.bind_eq_some_iff.mpr ⟨_, h.accessType, ?_⟩
  refine Option.bind_eq_some_iff.mpr ⟨_, rfl, ?_⟩
  refine Option.bind_eq_some_iff.mpr ⟨_, h.confirmationRequired, ?_⟩
  refine Option.bind_eq_some_iff.mpr ⟨_, hsdp, ?_⟩
  refine Option.bind_eq_some_iff.mpr ⟨_, rfl, ?_⟩
  refine Option.bind_eq_some_iff.mpr ⟨_, hcount, ?_⟩
  refine Option.bind_eq_some_iff.mpr ⟨_, hdigits, ?_⟩
  -- and the checks
  refine Option.bind_eq_some_iff.mpr ⟨_, hguard ⟨beq_self_eq_true _, rfl⟩, ?_⟩
  refine Option.bind_eq_some_iff.mpr ⟨_, hguard hoffer.2.2, ?_⟩
  refine Option.bind_eq_some_iff.mpr ⟨_, hguard (confirmationRequiredOk_iff.mpr rfl), ?_⟩
  refine Option.bind_eq_some_iff.mpr ⟨_, hguard h.operatorName, ?_⟩
  refine Option.bind_eq_some_iff.mpr ⟨_, hguard ⟨hoffer.1, hoffer.2.1⟩, ?_⟩
  rfl

theorem scope_of_decodeOffer (h : decodeOffer size message = some offer) :
    offer.desktopScope = "" ∨ offer.desktopScope = "interactive" ∨ offer.desktopScope = "system_console" := by
  have hvalid := valid_of_decodeOffer h
  unfold SessionOffer.valid at hvalid
  simp only [Bool.and_eq_true, Bool.or_eq_true, decide_eq_true_eq] at hvalid
  obtain ⟨⟨⟨⟨⟨⟨⟨⟨-, hscope⟩, -⟩, -⟩, -⟩, -⟩, -⟩, -⟩, -⟩ := hvalid
  exact or_assoc.mp hscope

theorem scopeOf_of_dlpScope {v : Json} (h : dlpScope payload = some v) : scopeOf doubleText payload = v.str? := by
  obtain ⟨dlp, hdlp, hv⟩ := Option.bind_eq_some_iff.mp h
  have hobj : ∃ members, dlp = .obj members := by
    by_contra hnot
    unfold Json.getPresent at hv
    rw [get_of_not_obj hnot] at hv
    simp at hv
  obtain ⟨members, rfl⟩ := hobj
  unfold scopeOf desktopScopeOf
  rw [hdlp]
  dsimp only
  rw [hv]
  cases v <;> rfl

theorem scopeOf_of_dlpScope_none (h : dlpScope payload = none) : scopeOf doubleText payload =
      some (((payload.getPresent "desktop_scope").map (dartText doubleText)).getD "interactive") := by
  unfold scopeOf desktopScopeOf
  split
  · rename_i members hdlp
    have hnone : (Json.obj members).getPresent "desktop_scope" = none := by
      unfold dlpScope at h
      rw [hdlp] at h
      exact h
    rw [hnone]
  · rfl

theorem scope_of_scopeOf
    (hdouble : ∀ q, BeginsOtherwise (doubleText q))
    (hknown : offer.desktopScope = "" ∨ offer.desktopScope = "interactive" ∨ offer.desktopScope = "system_console")
    {scope : String} (hscope : scopeOf doubleText payload = some scope)
    (hsame : effectiveScope scope = effectiveScope offer.desktopScope) :
    ((dlpScope payload).or (payload.getPresent "desktop_scope")).getD (.str "interactive") = .str scope := by
  cases hdlp : dlpScope payload with
  | some =>
    rw [scopeOf_of_dlpScope hdlp] at hscope
    exact str_of_str? hscope
  | none =>
    rw [scopeOf_of_dlpScope_none hdlp] at hscope
    rw [Option.none_or]
    cases hown : payload.getPresent "desktop_scope" with
    | none =>
      rw [hown] at hscope
      exact congrArg Json.str (Option.some.inj hscope)
    | some v =>
      rw [hown] at hscope
      have htext : dartText doubleText v = scope := Option.some.inj hscope
      by_cases hstr : ∃ s, v = .str s
      · obtain ⟨s, rfl⟩ := hstr
        rw [← htext]
        simp [dartText]
      · -- no other value has the text of a scope
        exfalso
        obtain ⟨hempty, hinteractive, hconsole⟩ :=
          (beginsOtherwise_of_not_str hdouble fun s hs => hstr ⟨s, hs⟩).ne
        rw [htext] at hempty hinteractive hconsole
        unfold effectiveScope at hsame
        rw [if_neg hempty] at hsame
        obtain hoffer | hoffer | hoffer := hknown
        · rw [if_pos hoffer] at hsame
          exact hinteractive hsame
        · rw [hoffer] at hsame
          exact hinteractive hsame
        · rw [hoffer] at hsame
          exact hconsole hsame

theorem scopeOf_of_scope {scope : String}
    (h : ((dlpScope payload).or (payload.getPresent "desktop_scope")).getD (.str "interactive") = .str scope) :
    scopeOf doubleText payload = some scope := by
  cases hdlp : dlpScope payload with
  | some v =>
    rw [hdlp, Option.some_or] at h
    have hv : v = .str scope := h
    rw [scopeOf_of_dlpScope hdlp, hv]
    rfl
  | none =>
    rw [hdlp, Option.none_or] at h
    rw [scopeOf_of_dlpScope_none hdlp]
    cases hown : payload.getPresent "desktop_scope" with
    | none =>
      rw [hown] at h
      exact congrArg some (Json.str.inj h)
    | some v =>
      rw [hown] at h
      have hv : v = .str scope := h
      rw [hv]
      simp [dartText]

theorem forBoth_of_agrees
    (hdouble : ∀ q, BeginsOtherwise (doubleText q))
    (haccepted : decodeOffer size message = some offer) (h : Agrees isSecureIngestUri doubleText offer f) :
    ForBoth isSecureIngestUri doubleText offer f := by
  obtain ⟨o, scope, hopens, hid, hmode, htype, hscope⟩ := h
  unfold opens at hopens
  split at hopens
  · rename_i hread
    rw [Bool.and_eq_true] at hread
    obtain ⟨o', hbootstrap, hopens⟩ := Option.bind_eq_some_iff.mp hopens
    obtain ⟨_, hingest, hopens⟩ := Option.bind_eq_some_iff.mp hopens
    obtain ⟨payload, hpayload, hopens⟩ := Option.bind_eq_some_iff.mp hopens
    obtain ⟨scope', hscopeOf, hopens⟩ := Option.bind_eq_some_iff.mp hopens
    obtain ⟨rfl, rfl⟩ := Prod.mk.inj (Option.some.inj hopens)
    obtain ⟨members, hkind, hpayload', hsession, haccessMode, haccessType, hrequired, hdigits, hname, hice,
      hsdp, hrecording⟩ := of_bootstrap hbootstrap
    cases hpayload.symm.trans hpayload'
    have hscopes := scope_of_scopeOf hdouble (scope_of_decodeOffer haccepted) hscopeOf hscope
    rw [htype] at hrequired hdigits
    exact {
      wellFormed := hread.1
      type := hkind
      payload := ⟨members, hpayload, {
        sessionId := hid ▸ hsession
        accessMode := hmode ▸ haccessMode
        accessType := htype ▸ haccessType
        confirmationRequired := hrequired
        confirmationDigits := fun hattended =>
          confirmationDigitsOf_iff.mp (Option.isSome_of_eq_some hdigits) (decide_eq_true hattended)
        operatorName := hname
        iceServers := hice
        sdp := hsdp
        ingest := hrecording ▸ guard_eq_some hingest
        scope := ⟨scope', hscopes, hscope⟩ }⟩ }
  · simp at hopens

theorem agrees_of_forBoth (haccepted : decodeOffer size message = some offer)
    (hsize : g.bytes ≤ linkHostFrameLimit) (h : ForBoth isSecureIngestUri doubleText offer g) :
    Agrees isSecureIngestUri doubleText offer g := by
  obtain ⟨members, hpayload, hboth⟩ := h.payload
  obtain ⟨o, hbootstrap, hid, hmode, htype, hrecording⟩ :=
    bootstrap_of_forBoth (checks_of_decodeOffer haccepted) h.type hpayload hboth
  obtain ⟨scope, hscopes, hsame⟩ := hboth.scope
  refine ⟨o, scope, ?_, hid, hmode, htype, hsame⟩
  have hingest : ingestOk isSecureIngestUri o.recording = true := hrecording ▸ hboth.ingest
  have hunits : g.units ≤ linkHostFrameLimit := g.units_le_bytes.trans hsize
  unfold opens openSession
  rw [if_pos (by rw [h.wellFormed, Bool.true_and]; exact decide_eq_true hunits), hbootstrap, hpayload]
  simp only [Option.bind_eq_bind, Option.bind_some, hingest, guard, if_true, scopeOf_of_scope hscopes]
  rfl

end Reading

end LigamentApps.LinkHost
