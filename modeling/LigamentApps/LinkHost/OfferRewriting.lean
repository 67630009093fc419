import LigamentApps.LinkHost.OfferAgreement
import LigamentApps.Text.JsonSize

/-!
# What a new epoch leaves of an offer

A worker that is started again is handed the offer as Go has read and written it, with another epoch. What
both sides read of it stays; with it, the offers from which every worker opens its session. -/

namespace LigamentApps.LinkHost

open LinkAgent List Option

section Rewriting

variable {isSecureIngestUri : String → Bool} {doubleText : ℚ → String} {size : Json → ℕ} {offer : SessionOffer}
  {f g : FrameText}

/-! ## Copies -/

/-- A value as Go writes it, but for the member of one name. -/
def CopyBut (other : String) (v w : Json) : Prop :=
  ∀ name, name ≠ other → (v.get name = none ∧ w.get name = none) ∨
    ∃ x x', v.get name = some x ∧ remarshal binary64 x = some x' ∧ w.get name = some x'

theorem copyBut_of_remarshal {v w : Json} (h : remarshal binary64 v = some w) (other : String) :
    CopyBut other v w := by
  intro name _
  cases hget : v.get name with
  | none =>
    refine .inl ⟨rfl, ?_⟩
    rw [get_of_remarshal binary64 h, hget]
    rfl
  | some x =>
    obtain ⟨x', hx, hw⟩ := get_written binary64 h hget
    exact .inr ⟨x, x', rfl, hx, hw⟩

theorem copyBut_setMember {v y : Json} {members : List (String × Json)} (h : remarshal binary64 v = some (.obj members))
    (other : String) : CopyBut other v (setMember other y members) := by
  intro name hname
  rw [get_setMember, if_neg hname]
  exact copyBut_of_remarshal h other name hname

namespace CopyBut

variable {other name : String} {v w : Json}

theorem get_str (h : CopyBut other v w) (hname : name ≠ other)
    {s : String} (hget : v.get name = some (.str s)) : w.get name = some (.str s) := by
  obtain ⟨hnone, -⟩ | ⟨x, x', hx, hwritten, hw⟩ := h name hname
  · rw [hnone] at hget
    simp at hget
  · cases hx.symm.trans hget
    rw [hw]
    exact hwritten.symm

theorem get_bool (h : CopyBut other v w) (hname : name ≠ other)
    {b : Bool} (hget : v.get name = some (.bool b)) : w.get name = some (.bool b) := by
  obtain ⟨hnone, -⟩ | ⟨x, x', hx, hwritten, hw⟩ := h name hname
  · rw [hnone] at hget
    simp at hget
  · cases hx.symm.trans hget
    rw [hw]
    exact hwritten.symm

theorem getPresent_none (h : CopyBut other v w) (hname : name ≠ other) (hget : v.getPresent name = none) :
    w.getPresent name = none := by
  unfold Json.getPresent at hget ⊢
  obtain ⟨-, hnone⟩ | ⟨x, x', hx, hwritten, hw⟩ := h name hname
  · rw [hnone]
  · rw [hx] at hget
    cases x with
    | null =>
      cases hwritten
      rw [hw]
    | _ => simp at hget

theorem getPresent_some (h : CopyBut other v w)
    (hname : name ≠ other) {x : Json} (hget : v.getPresent name = some x) :
    ∃ x', remarshal binary64 x = some x' ∧ w.get name = some x' := by
  have hgot : v.get name = some x := by
    unfold Json.getPresent at hget
    split at hget
    · simp at hget
    · exact hget
  obtain ⟨hnone, -⟩ | ⟨y, y', hy, hwritten, hw⟩ := h name hname
  · rw [hnone] at hgot
    simp at hgot
  · cases hy.symm.trans hgot
    exact ⟨y', hwritten, hw⟩

theorem getPresent_str (h : CopyBut other v w) (hname : name ≠ other) {s : String}
    (hget : v.getPresent name = some (.str s)) : w.getPresent name = some (.str s) := by
  obtain ⟨x', hwritten, hw⟩ := h.getPresent_some hname hget
  cases hwritten
  unfold Json.getPresent
  rw [hw]

end CopyBut

theorem str?_of_remarshal {x x' : Json} (h : remarshal binary64 x = some x') : x'.str? = x.str? := by
  cases x with
  | null | bool | str => exact congrArg Json.str? (Option.some.inj h).symm
  | obj =>
    obtain ⟨members', rfl, -⟩ := remarshal_obj binary64 h
    rfl
  | arr =>
    obtain ⟨xs', -, rfl⟩ := map_eq_some_iff.mp h
    rfl
  | int =>
    obtain ⟨q, -, rfl⟩ := map_eq_some_iff.mp h
    unfold goNumber
    split <;> rfl
  | dec =>
    obtain ⟨q', -, rfl⟩ := map_eq_some_iff.mp h
    unfold goNumber
    split <;> rfl

theorem isTrue_of_remarshal {x x' : Json} (h : remarshal binary64 x = some x') : x'.isTrue = x.isTrue := by
  cases x with
  | null | bool | str => exact congrArg Json.isTrue (Option.some.inj h).symm
  | obj =>
    obtain ⟨members', rfl, -⟩ := remarshal_obj binary64 h
    rfl
  | arr =>
    obtain ⟨xs', -, rfl⟩ := map_eq_some_iff.mp h
    rfl
  | int =>
    obtain ⟨q, -, rfl⟩ := map_eq_some_iff.mp h
    unfold goNumber
    split <;> rfl
  | dec =>
    obtain ⟨q', -, rfl⟩ := map_eq_some_iff.mp h
    unfold goNumber
    split <;> rfl

theorem isObj_of_remarshal {x x' : Json} (h : remarshal binary64 x = some x') (hobj : x.isObj = true) :
    x'.isObj = true := by
  cases x with
  | obj =>
    obtain ⟨members', rfl, -⟩ := remarshal_obj binary64 h
    rfl
  | _ => simp [Json.isObj] at hobj

theorem remarshalAll_isObj :
    ∀ (xs : List Json) {xs' : List Json}, remarshalAll binary64 xs = some xs' → xs.all Json.isObj = true →
      xs'.length = xs.length ∧ xs'.all Json.isObj = true
  | [], xs', h, _ => by
    cases h
    exact ⟨rfl, rfl⟩
  | x :: xs, _, h, hall => by
    obtain ⟨x', hx, h⟩ := bind_eq_some_iff.mp h
    obtain ⟨xs', hxs, h⟩ := bind_eq_some_iff.mp h
    cases h
    rw [all_cons, Bool.and_eq_true] at hall
    obtain ⟨hlength, hobjs⟩ := remarshalAll_isObj xs hxs hall.2
    refine ⟨congrArg (· + 1) hlength, ?_⟩
    rw [all_cons, isObj_of_remarshal hx hall.1, hobjs]
    rfl

/-! ### The members of a payload -/

section Copy

variable {other : String} {v w : Json}

theorem operatorNameOk_of_copy (h : CopyBut other v w) (hother : "operator_name" ≠ other)
    (hok : operatorNameOk v = true) : operatorNameOk w = true := by
  unfold operatorNameOk at hok
  split at hok
  · rename_i hnone
    unfold operatorNameOk
    rw [h.getPresent_none hother hnone]
  · rename_i name hname
    unfold operatorNameOk
    rw [h.getPresent_str hother hname]
    exact hok
  · cases hok

theorem iceServerCount_of_copy (h : CopyBut other v w) (hother : "ice_servers" ≠ other)
    (hok : (iceServerCount v).isSome = true) : (iceServerCount w).isSome = true := by
  unfold iceServerCount at hok
  split at hok
  · rename_i hnone
    unfold iceServerCount
    rw [h.getPresent_none hother hnone]
    rfl
  · rename_i servers hservers
    split at hok
    · rename_i hlist
      obtain ⟨x', hwritten, hw⟩ := h.getPresent_some hother hservers
      obtain ⟨servers', hall, rfl⟩ := map_eq_some_iff.mp hwritten
      obtain ⟨hlength, hobjs⟩ := remarshalAll_isObj servers hall hlist.2
      unfold iceServerCount Json.getPresent
      rw [hw]
      dsimp only
      rw [if_pos ⟨hlength.trans_le hlist.1, hobjs⟩]
      rfl
    · simp at hok
  · simp at hok

theorem digits_of_copy (h : CopyBut other v w) (hother : "confirmation_digits" ≠ other) {n : ℤ}
    (hn : n ∈ [(2 : ℤ), 3, 4, 6]) (hget : (v.getPresent "confirmation_digits").getD (.int 6) = .int n) :
    (w.getPresent "confirmation_digits").getD (.int 6) = .int n := by
  cases hv : v.getPresent "confirmation_digits" with
  | none =>
    rw [hv] at hget
    rw [h.getPresent_none hother hv]
    exact hget
  | some x =>
    rw [hv] at hget
    obtain rfl : x = .int n := hget
    obtain ⟨x', hwritten, hw⟩ := h.getPresent_some hother hv
    have hsmall : n.natAbs < 10 := by
      simp only [mem_cons, not_mem_nil, or_false] at hn
      omega
    have hdouble : binary64 (n : ℚ) = some (n : ℚ) := binary64_intCast (by rw [Int.abs_eq_natAbs]; omega)
    have hx : x' = .int n := by
      unfold remarshal at hwritten
      rw [hdouble] at hwritten
      cases hwritten
      unfold goNumber
      rw [if_pos ⟨Rat.den_intCast n, by rw [Rat.num_intCast]; omega⟩, Rat.num_intCast]
    unfold Json.getPresent
    rw [hw, hx]
    rfl

theorem dlpScope_of_copy (h : CopyBut other v w) (hother : "dlp" ≠ other) :
    (dlpScope v = none → dlpScope w = none) ∧ ∀ scope, dlpScope v = some (.str scope) →
      dlpScope w = some (.str scope) := by
  unfold dlpScope
  obtain ⟨hnone, hw⟩ | ⟨x, x', hx, hwritten, hw⟩ := h "dlp" hother
  · rw [hnone, hw]
    exact ⟨fun _ => rfl, nofun⟩
  · rw [hx, hw]
    have hcopy : CopyBut "" x x' := copyBut_of_remarshal hwritten ""
    exact ⟨fun hnone => hcopy.getPresent_none (by decide) hnone,
      fun scope hscope => hcopy.getPresent_str (by decide) hscope⟩

theorem scope_of_copy (h : CopyBut other v w) (hdlp : "dlp" ≠ other)
    (hown : "desktop_scope" ≠ other) {scope : String}
    (hscope : ((dlpScope v).or (v.getPresent "desktop_scope")).getD (.str "interactive") = .str scope) :
    ((dlpScope w).or (w.getPresent "desktop_scope")).getD (.str "interactive") = .str scope := by
  obtain ⟨hnone, hsome⟩ := dlpScope_of_copy h hdlp
  cases hv : dlpScope v with
  | some x =>
    rw [hv] at hscope
    obtain rfl : x = .str scope := hscope
    rw [hsome scope hv]
    rfl
  | none =>
    rw [hv, none_or] at hscope
    rw [hnone hv, none_or]
    cases hget : v.getPresent "desktop_scope" with
    | none =>
      rw [hget] at hscope
      rw [h.getPresent_none hown hget]
      exact hscope
    | some x =>
      rw [hget] at hscope
      obtain rfl : x = .str scope := hscope
      rw [h.getPresent_str hown hget]
      rfl

/-! ### The recording -/

theorem flag_of_copy (h : CopyBut other v w) {name : String} (hname : name ≠ other) :
    flag w name = flag v name := by
  unfold flag
  obtain ⟨hnone, hw⟩ | ⟨x, x', hx, hwritten, hw⟩ := h name hname
  · rw [hnone, hw]
  · rw [hx, hw]
    exact isTrue_of_remarshal hwritten

theorem strOf_of_copy (h : CopyBut other v w) {name : String} (hname : name ≠ other) :
    (w.get name).bind Json.str? = (v.get name).bind Json.str? := by
  obtain ⟨hnone, hw⟩ | ⟨x, x', hx, hwritten, hw⟩ := h name hname
  · rw [hnone, hw]
  · rw [hx, hw]
    exact str?_of_remarshal hwritten

theorem modeOf_eq (raw : Json) : LinkRecordingConfig.modeOf raw =
    ((raw.get "effective_mode").bind Json.str?).getD (if flag raw "enabled" then "record_only" else "exclude") := by
  unfold LinkRecordingConfig.modeOf
  cases raw.get "effective_mode" with
  | none => rfl
  | some x => cases x <;> rfl

theorem failurePolicyOf_eq (raw : Json) : LinkRecordingConfig.failurePolicyOf raw =
    (((raw.get "failure_policy").bind Json.str?).map trimLower).getD "resilient" := by
  unfold LinkRecordingConfig.failurePolicyOf
  cases raw.get "failure_policy" with
  | none => rfl
  | some x => cases x <;> rfl

theorem ingestUrl_of_copy (hdouble : ∀ q, BeginsOtherwise (doubleText q))
    (h : CopyBut other v w) (hother : "ingest_url" ≠ other) :
    dartTextOr doubleText w "ingest_url" "" = dartTextOr doubleText v "ingest_url" "" ∨
      BeginsOtherwise (dartTextOr doubleText v "ingest_url" "") := by
  unfold dartTextOr
  cases hv : v.getPresent "ingest_url" with
  | none =>
    refine .inl ?_
    rw [h.getPresent_none hother hv]
  | some x =>
    by_cases hstr : ∃ s, x = .str s
    · obtain ⟨s, rfl⟩ := hstr
      refine .inl ?_
      rw [h.getPresent_str hother hv]
    · exact .inr (beginsOtherwise_of_not_str hdouble fun s hs => hstr ⟨s, hs⟩)

theorem ingestOk_of_copy (hdouble : ∀ q, BeginsOtherwise (doubleText q))
    (hscheme : ∀ s, isSecureIngestUri s = true → s.toList.head? = some 'h' ∨ s.toList.head? = some 'H')
    {recording recording' : List (String × Json)} (h : CopyBut "epoch" (.obj recording) (.obj recording'))
    (hok : ingestOk isSecureIngestUri (.fromWire doubleText (some (.obj recording))) = true) :
    ingestOk isSecureIngestUri (.fromWire doubleText (some (.obj recording'))) = true := by
  have henabled : flag (.obj recording') "enabled" = flag (.obj recording) "enabled" := flag_of_copy h (by decide)
  have hmandatory : flag (.obj recording') "mandatory" = flag (.obj recording) "mandatory" :=
    flag_of_copy h (by decide)
  have hmode : LinkRecordingConfig.modeOf (.obj recording') = LinkRecordingConfig.modeOf (.obj recording) := by
    rw [modeOf_eq, modeOf_eq, strOf_of_copy h (by decide), henabled]
  have hpolicy : LinkRecordingConfig.failurePolicyOf (.obj recording') =
      LinkRecordingConfig.failurePolicyOf (.obj recording) := by
    rw [failurePolicyOf_eq, failurePolicyOf_eq, strOf_of_copy h (by decide)]
  unfold ingestOk LinkRecordingConfig.isActive LinkRecordingConfig.isStrict LinkRecordingConfig.fromWire at hok ⊢
  simp only [henabled, hmandatory, hmode, hpolicy]
  obtain hsame | hother := ingestUrl_of_copy hdouble h (by decide)
  · simp only [hsame]
    exact hok
  · -- there was no session to begin with, if one was needed
    have hempty := hother.ne.1
    have hinsecure := hother.insecure hscheme
    simp only [Bool.or_eq_true, Bool.not_eq_true', Bool.and_eq_false_iff, decide_eq_false_iff_not, hinsecure,
      Bool.false_eq_true, or_false, hempty, ne_eq, not_false_eq_true, not_true] at hok ⊢
    tauto

end Copy

/-! ## The agreement -/

theorem updated_frame {frame : Json} {epoch : ℕ} (hchanged : updateOfferEpoch binary64 frame epoch ≠ frame) :
    ∃ payload recording members recording', frame.get "payload" = some payload ∧
      payload.get "recording" = some (.obj recording) ∧
        CopyBut "payload" frame (updateOfferEpoch binary64 frame epoch) ∧
      (updateOfferEpoch binary64 frame epoch).get "payload" = some (.obj members) ∧
      CopyBut "recording" payload (.obj members) ∧ (Json.obj members).get "recording" = some (.obj recording') ∧
      CopyBut "epoch" (.obj recording) (.obj recording') := by
  generalize hupdated : updateOfferEpoch binary64 frame epoch = updated at hchanged ⊢
  unfold updateOfferEpoch at hupdated
  split at hupdated
  · rename_i env hwritten
    split at hupdated
    · rename_i payload' hpayload'
      split at hupdated
      · rename_i written hwrittenRecording
        have hget := get_of_remarshal binary64 hwritten "payload"
        rw [hpayload'] at hget
        obtain ⟨payload, hpayload, hwrittenPayload⟩ := bind_eq_some_iff.mp hget.symm
        have hgetRecording := get_of_remarshal binary64 hwrittenPayload "recording"
        rw [hwrittenRecording] at hgetRecording
        obtain ⟨before, hbefore, hwrittenBefore⟩ := bind_eq_some_iff.mp hgetRecording.symm
        obtain ⟨recording, rfl⟩ := obj_of_remarshal binary64 hwrittenBefore
        rw [← hupdated]
        have hinner : CopyBut "epoch" (.obj recording) (setMember "epoch" (.int epoch) written) :=
          copyBut_setMember hwrittenBefore "epoch"
        have hmiddle : CopyBut "recording" payload
            (setMember "recording" (setMember "epoch" (.int epoch) written) payload') :=
          copyBut_setMember hwrittenPayload "recording"
        refine ⟨payload, recording, _, _, hpayload, hbefore, copyBut_setMember hwritten "payload", ?_,
          hmiddle, ?_, hinner⟩
        · rw [get_setMember, if_pos rfl]
          rfl
        · exact (get_setMember "recording" "recording" _ payload').trans (if_pos rfl)
      · exact absurd hupdated.symm hchanged
    · exact absurd hupdated.symm hchanged
  · exact absurd hupdated.symm hchanged

theorem forBoth_handed (hdouble : ∀ q, BeginsOtherwise (doubleText q))
    (hscheme : ∀ s, isSecureIngestUri s = true → s.toList.head? = some 'h' ∨ s.toList.head? = some 'H')
    (h : ForBoth isSecureIngestUri doubleText offer f) (hg : Handed f g) :
    ForBoth isSecureIngestUri doubleText offer g := by
  obtain rfl | ⟨epoch, hjson, hwell⟩ := hg
  · exact h
  by_cases hchanged : updateOfferEpoch binary64 f.json epoch = f.json
  · -- Go could not read the frame, or found no recording in it
    rw [hchanged] at hjson
    exact ⟨hwell, hjson ▸ h.type, hjson ▸ h.payload⟩
  obtain ⟨payload, recording, members, recording', hpayload, hrecording, hframe, hpayload', hcopy,
    hrecording', hrec⟩ := updated_frame hchanged
  obtain ⟨before, hbefore, hboth⟩ := h.payload
  cases hpayload.symm.trans hbefore
  obtain ⟨scope, hscope, hsame⟩ := hboth.scope
  obtain ⟨sdp, hsdp⟩ := hboth.sdp
  rw [← hjson] at hframe hpayload'
  have hingest := hboth.ingest
  rw [hrecording] at hingest
  exact {
    wellFormed := hwell
    type := hframe.get_str (by decide) h.type
    payload := ⟨members, hpayload', {
      sessionId := hcopy.get_str (by decide) hboth.sessionId
      accessMode := hcopy.get_str (by decide) hboth.accessMode
      accessType := hcopy.get_str (by decide) hboth.accessType
      confirmationRequired := hcopy.get_bool (by decide) hboth.confirmationRequired
      confirmationDigits := fun hattended =>
        have ⟨n, hn, hdigits⟩ := hboth.confirmationDigits hattended
        ⟨n, hn, digits_of_copy hcopy (by decide) hn hdigits⟩
      operatorName := operatorNameOk_of_copy hcopy (by decide) hboth.operatorName
      iceServers := iceServerCount_of_copy hcopy (by decide) hboth.iceServers
      sdp := ⟨sdp, hcopy.get_str (by decide) hsdp⟩
      ingest := by
        rw [hrecording']
        exact ingestOk_of_copy hdouble hscheme hrec hingest
      scope := ⟨scope, scope_of_copy hcopy (by decide) (by decide) hscope, hsame⟩ }⟩ }

/-- For an offer that the broker has accepted, the worker opens a session from every frame that the launcher
may be given for it, reading what the broker has read, exactly when the offer is one for both sides. -/
theorem accepted_offers_open
    (hdouble : ∀ q, BeginsOtherwise (doubleText q))
    (hscheme : ∀ s, isSecureIngestUri s = true → s.toList.head? = some 'h' ∨ s.toList.head? = some 'H')
    (haccepted : decodeOffer size f.json = some offer) (hsize : f.bytes ≤ linkHostFrameLimit) :
    (∀ g, Handed f g → g.bytes ≤ linkHostFrameLimit → Agrees isSecureIngestUri doubleText offer g) ↔
      ForBoth isSecureIngestUri doubleText offer f := by
  constructor
  · intro hall
    exact forBoth_of_agrees hdouble haccepted (hall f (.inl rfl) hsize)
  · intro hboth g hg hfits
    exact agrees_of_forBoth haccepted hfits (forBoth_handed hdouble hscheme hboth hg)

end Rewriting

/-! ### Two offers -/

/-- An unattended offer with a strict recording, and these members besides. -/
def unattendedOffer (confirmation : List (String × Json)) : Json :=
  .obj [("type", .str "session_offer"), ("payload", .obj ([
    ("session_id", .str "00000000-0000-0000-0000-000000000001"),
    ("operator_id", .str "00000000-0000-0000-0000-000000000002"), ("access_type", .str "unattended"),
    ("access_mode", .str "control"), ("sdp", .str "v=0"), ("dlp", .obj []),
    ("recording", .obj [("enabled", .bool true), ("mandatory", .bool true), ("failure_policy", .str "strict"),
      ("ingest_url", .str "https://recorder/")])] ++ confirmation))]

/-- Its text is all ASCII. -/
def unattendedFrame (confirmation : List (String × Json)) : FrameText :=
  let bytes := (unattendedOffer confirmation).bytes fun _ => "0.5"
  ⟨unattendedOffer confirmation, true, bytes, bytes, le_rfl⟩

/-- An offer that says that no confirmation is required opens its session in every worker. -/
theorem accepted_offers_open_sample : ∃ offer, decodeOffer (Json.bytes fun _ => "0.5")
        (unattendedFrame [("confirmation_required", .bool false)]).json = some offer ∧
      ∀ g, Handed (unattendedFrame [("confirmation_required", .bool false)]) g → g.bytes ≤ linkHostFrameLimit →
        Agrees (fun uri => "https://".toList.isPrefixOf uri.toList) (fun _ => "0.5") offer g := by
  have hdecoded : (decodeOffer (Json.bytes fun _ => "0.5")
      (unattendedFrame [("confirmation_required", .bool false)]).json).any (fun offer =>
        offer.sessionId = "00000000-0000-0000-0000-000000000001" ∧ offer.accessMode = "control" ∧
          offer.accessType = "unattended" ∧ offer.desktopScope = "") = true := by
    decide +kernel
  obtain ⟨offer, haccepted, hread⟩ := (Option.any_eq_true _ _).mp hdecoded
  obtain ⟨hid, hmode, htype, hscope⟩ := of_decide_eq_true hread
  refine ⟨offer, haccepted, (accepted_offers_open (fun _ => ⟨'0', by decide⟩) ?_ haccepted
    (by decide +kernel)).mpr ?_⟩
  · intro uri huri
    refine .inl ?_
    obtain ⟨rest, hrest⟩ := isPrefixOf_iff_prefix.mp huri
    rw [← hrest]
    rfl
  · exact {
      wellFormed := rfl
      type := rfl
      payload := ⟨_, rfl, {
        sessionId := by rw [hid]; rfl
        accessMode := by rw [hmode]; rfl
        accessType := by rw [htype]; rfl
        confirmationRequired := by rw [htype]; rfl
        confirmationDigits := fun hattended => absurd (htype.symm.trans hattended) (by decide)
        operatorName := rfl
        iceServers := rfl
        sdp := ⟨_, rfl⟩
        ingest := by decide +kernel
        scope := ⟨"interactive", rfl, by rw [hscope]; rfl⟩ }⟩ }

/-- The broker accepts an offer that does not say whether a confirmation is required, and no worker opens a
session for it. -/
theorem offer_without_confirmation :
    ∃ offer, decodeOffer (Json.bytes fun _ => "0.5") (unattendedFrame []).json = some offer ∧
      (unattendedFrame []).bytes ≤ linkHostFrameLimit ∧
      opens (fun uri => "https://".toList.isPrefixOf uri.toList) (fun _ => "0.5") (unattendedFrame []) = none := by
  have hdecoded : (decodeOffer (Json.bytes fun _ => "0.5") (unattendedFrame []).json).isSome = true :=
    by decide +kernel
  obtain ⟨offer, haccepted⟩ := isSome_iff_exists.mp hdecoded
  refine ⟨offer, haccepted, by decide +kernel, ?_⟩
  have hnone : (opens (fun uri => "https://".toList.isPrefixOf uri.toList) (fun _ => "0.5")
      (unattendedFrame [])).isNone = true := by decide +kernel
  exact isNone_iff_eq_none.mp hnone

end LigamentApps.LinkHost
