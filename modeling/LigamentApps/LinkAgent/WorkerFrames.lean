import LigamentApps.LinkAgent.Protocol

/-!
# The frames between the broker and a worker

`validWorkerResponse`, `updateOfferEpoch` and the answers of `session_worker.go` and `protocol.go`, on decoded
frames. -/

namespace LigamentApps.LinkAgent

open List Option

variable {written v : Json} (name other : String) (members : List (String × Json))

/-- A field of type `bool`. -/
def goBool (j : Json) (name : String) : Option Bool :=
  goScalar (fun v => match v with
    | .bool b => some b
    | _ => none) false j name

/-- Go decodes a null into a struct as it decodes an object without members. -/
def goStruct : Json → Bool
  | .null | .obj _ => true
  | _ => false

/-! ## What a worker may send -/

/-- The reasons of a `session_terminate`, besides those that begin with `recorder_`. -/
def terminateReasons : List String :=
  ["host_local_disconnect", "peer_failed", "host_media_failed", "signaling_failed", "tail_lost",
    "host_worker_failed", "host_screen_capture_unavailable", "host_ready_timeout", "host_ui_unavailable",
    "host_consent_denied", "number_matching_failed", "number_matching_required", "invalid_offer",
    "invalid_offer_media", "candidate_queue_full", "session_ended", "user_closed", "ended_by_server"]

/-- A worker may end its session for this reason. -/
def terminateReasonOk (reason : String) : Bool :=
  terminateReasons.contains reason || "recorder_".toList.isPrefixOf reason.toList

/-- The check of a `session_terminate`. -/
def terminateOk (payload : Json) (sessionID : String) : Bool :=
  goStruct payload && goString payload "session_id" == some sessionID &&
    (goString payload "reason").any terminateReasonOk

def maxSessionSDPBytes : ℕ := 256 * 1024

/-- The bound on the bytes of a signal. -/
def maxSessionICEServersSize : ℕ := 64 * 1024

/-- The check of a `session_answer`. -/
def answerOk (payload : Json) (sessionID : String) : Bool :=
  goStruct payload && goString payload "session_id" == some sessionID &&
    (goBool payload "accepted").any fun accepted =>
      (goString payload "sdp").any fun sdp =>
        !accepted || (sdp ≠ "" && sdp.utf8ByteSize ≤ maxSessionSDPBytes)

/-- The check of a `signal`. -/
def candidateOk (size : Json → ℕ) (signal : Json) : Bool :=
  size signal ≤ maxSessionICEServersSize && goStruct signal && (goField signal "candidate").isSome

def validWorkerResponse (size : Json → ℕ) (frame : Json) (sessionID : String) : Bool :=
  size frame ≤ 512 * 1024 && match decodeEnvelope frame with
    | none => false
    | some envelope =>
      envelope.sessionId = sessionID &&
        if envelope.type = "session_terminate" then envelope.payload.any fun p => terminateOk p sessionID
        else if envelope.type = "session_answer" then envelope.payload.any fun p => answerOk p sessionID
        else envelope.type = "signal" && envelope.signal.any (candidateOk size)

variable (frame : Json)

def frameType : String := ((decodeEnvelope frame).map Envelope.type).getD ""

def framePayload : Json := ((decodeEnvelope frame).bind Envelope.payload).getD .null

/-- The frame accepts the session, or an offer within it. -/
def isAccepting : Bool :=
  frameType frame = "session_answer" && goBool (framePayload frame) "accepted" == some true

/-- The frame is a terminal outcome: the end of the session, or an answer that refuses it, which the answer of
the consent stage does not. -/
def isTerminal : Bool :=
  frameType frame = "session_terminate" ||
    frameType frame = "session_answer" && goBool (framePayload frame) "accepted" == some false &&
      goString (framePayload frame) "stage" != some "consent"

/-! ## The epoch of an offer -/

/-- How Go writes a number that it has read as a `float64`. The digits are exact here; those of Go are the
fewest that read back as the same `float64`. -/
def goNumber (q : ℚ) : Json :=
  if q.den = 1 ∧ q.num.natAbs < 10 ^ 21 then .int q.num else .dec q

/-- A new member of a Go map, whose members `Marshal` writes in the order of their names. -/
def goInsert (name : String) (v : Json) : List (String × Json) → List (String × Json)
  | [] => [(name, v)]
  | (other, w) :: rest =>
    if name < other then (name, v) :: (other, w) :: rest else (other, w) :: goInsert name v rest

mutual

/-- What `Marshal` writes of a value that `Unmarshal` has read into an `any`; `float64` rounds a number, if it
is in range. -/
def remarshal (float64 : ℚ → Option ℚ) : Json → Option Json
  | .null => some .null
  | .bool b => some (.bool b)
  | .int n => (float64 n).map goNumber
  | .dec q => (float64 q).map goNumber
  | .str s => some (.str s)
  | .arr xs => (remarshalAll float64 xs).map .arr
  | .obj members => (remarshalMembers float64 members).map .obj

def remarshalAll (float64 : ℚ → Option ℚ) : List Json → Option (List Json)
  | [] => some []
  | x :: xs => do return (← remarshal float64 x) :: (← remarshalAll float64 xs)

/-- Of two members with one name the later one stays. -/
def remarshalMembers (float64 : ℚ → Option ℚ) : List (String × Json) → Option (List (String × Json))
  | [] => some []
  | (name, v) :: rest => do
    let v' ← remarshal float64 v
    let rest' ← remarshalMembers float64 rest
    return if rest'.any (·.1 = name) then rest' else goInsert name v' rest'

end

/-- A member of a Go map is set. -/
def setMember (name : String) (v : Json) (members : List (String × Json)) : Json :=
  .obj (goInsert name v (members.filter (·.1 ≠ name)))

variable (float64 : ℚ → Option ℚ)

def updateOfferEpoch (frame : Json) (epoch : ℕ) : Json :=
  match remarshal float64 frame with
  | some (.obj env) =>
    match (Json.obj env).get "payload" with
    | some (.obj payload) =>
      match (Json.obj payload).get "recording" with
      | some (.obj recording) =>
        setMember "payload" (setMember "recording" (setMember "epoch" (.int epoch) recording) payload) env
      | _ => frame
    | _ => frame
  | _ => frame

/-- The recording epoch that a worker reads from its offer, if there is a recording: it is 1 unless the offer
has an integer. -/
def handedEpoch (frame : Json) : Option ℤ :=
  match (frame.get "payload").bind (·.get "recording") with
  | some (.obj members) =>
    match (Json.obj members).get "epoch" with
    | some (.int n) => some n
    | _ => some 1
  | _ => none

/-! ### Members -/

theorem get_cons (v : Json) (rest : List (String × Json)) : (Json.obj ((other, v) :: rest)).get name =
      ((Json.obj rest).get name).or (if name = other then some v else none) := by
  unfold Json.get
  dsimp only
  rw [reverse_cons, lookup_append, lookup_cons, lookup_nil]
  by_cases hname : name = other
  · rw [if_pos hname, hname, beq_self_eq_true]
  · rw [if_neg hname, beq_eq_false_iff_ne.mpr hname]

theorem get_goInsert (v : Json) (members : List (String × Json))
    (hnew : (Json.obj members).get other = none) :
    (Json.obj (goInsert other v members)).get name =
      if name = other then some v else (Json.obj members).get name := by
  induction members with
  | nil =>
    unfold goInsert
    rw [get_cons]
    rfl
  | cons m rest ih =>
    obtain ⟨first, w⟩ := m
    rw [get_cons, or_eq_none_iff] at hnew
    have hother : other ≠ first := fun hsame => by
      rw [if_pos hsame] at hnew
      exact absurd hnew.2 (by simp)
    unfold goInsert
    split
    · rw [get_cons, get_cons]
      by_cases hname : name = other
      · have hrest : (Json.obj rest).get name = none := by
          rw [hname]
          exact hnew.1
        rw [if_pos hname, if_pos hname, hrest, if_neg (by rw [hname]; exact hother)]
        rfl
      · rw [if_neg hname, if_neg hname, or_none]
    · rw [get_cons, get_cons, ih hnew.1]
      by_cases hname : name = other
      · rw [if_pos hname, if_pos hname]
        rfl
      · rw [if_neg hname, if_neg hname]

theorem get_filter_ne : (Json.obj (members.filter (·.1 ≠ other))).get name =
      if name = other then none else (Json.obj members).get name := by
  induction members with
  | nil =>
    split
    · rfl
    · rfl
  | cons m rest ih =>
    obtain ⟨first, w⟩ := m
    by_cases hfirst : first = other
    · have hskip : ((first, w) :: rest).filter (·.1 ≠ other) = rest.filter (·.1 ≠ other) :=
        filter_cons_of_neg (by simpa using hfirst)
      rw [hskip, ih, get_cons]
      by_cases hname : name = other
      · rw [if_pos hname, if_pos hname]
      · rw [if_neg hname, if_neg hname, if_neg (by rw [hfirst]; exact hname), or_none]
    · have hkeep : ((first, w) :: rest).filter (·.1 ≠ other) = (first, w) :: rest.filter (·.1 ≠ other) :=
        filter_cons_of_pos (by simpa using hfirst)
      rw [hkeep, get_cons, get_cons, ih]
      by_cases hname : name = other
      · rw [if_pos hname, if_pos hname, if_neg (by rw [hname]; exact fun h => hfirst h.symm)]
        rfl
      · rw [if_neg hname, if_neg hname]

theorem get_setMember (v : Json) (members : List (String × Json)) :
    (setMember other v members).get name = if name = other then some v else (Json.obj members).get name := by
  have hnew : (Json.obj (members.filter (·.1 ≠ other))).get other = none := by
    rw [get_filter_ne, if_pos rfl]
  unfold setMember
  rw [get_goInsert name other v _ hnew, get_filter_ne]
  split
  · rfl
  · rfl

theorem any_name_iff : members.any (·.1 = name) = true ↔ (Json.obj members).get name ≠ none := by
  induction members with
  | nil => exact ⟨nofun, fun h => absurd rfl h⟩
  | cons m rest ih =>
    obtain ⟨first, w⟩ := m
    have hor : ((Json.obj rest).get name).or (if name = first then some w else none) = none ↔
        (Json.obj rest).get name = none ∧ ¬ name = first := by
      rw [or_eq_none_iff]
      by_cases hname : name = first
      · rw [if_pos hname]
        simp [hname]
      · rw [if_neg hname]
        simp [hname]
    rw [get_cons, any_cons, Bool.or_eq_true, ih, decide_eq_true_eq, ne_eq, ne_eq, hor]
    constructor
    · rintro (hsame | hrest) ⟨hnone, hother⟩
      · exact hother hsame.symm
      · exact hrest hnone
    · intro hnot
      by_cases hsame : first = name
      · exact .inl hsame
      · exact .inr fun hnone => hnot ⟨hnone, fun h => hsame h.symm⟩

theorem remarshal_of_get (float64 : ℚ → Option ℚ) :
    ∀ (members : List (String × Json)) {written : List (String × Json)},
      remarshalMembers float64 members = some written → ∀ {name : String} {x : Json},
        (Json.obj members).get name = some x → (remarshal float64 x).isSome = true
  | [], _, _, _, _, hx => absurd hx (by simp [Json.get])
  | (first, v) :: rest, written, h, name, x, hx => by
    obtain ⟨v', hv, h⟩ := bind_eq_some_iff.mp h
    obtain ⟨rest', hrest, -⟩ := bind_eq_some_iff.mp h
    rw [get_cons] at hx
    cases hlater : (Json.obj rest).get name with
    | some =>
      rw [hlater] at hx
      cases hx
      exact remarshal_of_get float64 rest hrest hlater
    | none =>
      rw [hlater, none_or] at hx
      split at hx
      · cases hx
        rw [hv]
        rfl
      · simp at hx

theorem get_remarshalMembers (float64 : ℚ → Option ℚ) :
    ∀ (members : List (String × Json)) {written : List (String × Json)},
      remarshalMembers float64 members = some written → ∀ name,
        (Json.obj written).get name = ((Json.obj members).get name).bind (remarshal float64)
  | [], written, h, name => by
    cases h
    rfl
  | (first, v) :: rest, written, h, name => by
    obtain ⟨v', hv, h⟩ := bind_eq_some_iff.mp h
    obtain ⟨rest', hrest, h⟩ := bind_eq_some_iff.mp h
    have hwritten : (if rest'.any (·.1 = first) then rest' else goInsert first v' rest') = written :=
      Option.some.inj h
    have ih := get_remarshalMembers float64 rest hrest
    rw [get_cons, ← hwritten]
    by_cases hthere : rest'.any (·.1 = first) = true
    · -- a later member of the name counts
      rw [if_pos hthere, ih name]
      by_cases hname : name = first
      · have hsome := (any_name_iff first rest').mp hthere
        rw [ih first] at hsome
        rw [if_pos hname, hname]
        cases hlater : (Json.obj rest).get first with
        | none =>
          rw [hlater] at hsome
          exact absurd rfl hsome
        | some => rfl
      · rw [if_neg hname, or_none]
    · have hnone : (Json.obj rest').get first = none :=
        not_not.mp fun hsome => hthere ((any_name_iff first rest').mpr hsome)
      rw [if_neg hthere, get_goInsert name first v' rest' hnone, ih name]
      by_cases hname : name = first
      · rw [if_pos hname, if_pos hname, hname]
        cases hlater : (Json.obj rest).get first with
        | none => exact hv.symm
        | some =>
          have hwritable := remarshal_of_get float64 rest hrest hlater
          rw [ih first, hlater, bind_some] at hnone
          rw [hnone] at hwritable
          cases hwritable
      · rw [if_neg hname, if_neg hname, or_none]

theorem remarshal_obj {members : List (String × Json)}
    (h : remarshal float64 (.obj members) = some written) :
    ∃ members', written = .obj members' ∧ remarshalMembers float64 members = some members' := by
  obtain ⟨members', hmembers, rfl⟩ := map_eq_some_iff.mp h
  exact ⟨members', rfl, hmembers⟩

theorem obj_of_remarshal {members' : List (String × Json)}
    (h : remarshal float64 v = some (.obj members')) : ∃ members, v = .obj members := by
  cases v with
  | obj members => exact ⟨members, rfl⟩
  | null | bool | str => simp [remarshal] at h
  | arr =>
    obtain ⟨xs', -, hsame⟩ := map_eq_some_iff.mp h
    simp at hsame
  | int =>
    obtain ⟨q, -, hsame⟩ := map_eq_some_iff.mp h
    unfold goNumber at hsame
    split at hsame
    · simp at hsame
    · simp at hsame
  | dec =>
    obtain ⟨q', -, hsame⟩ := map_eq_some_iff.mp h
    unfold goNumber at hsame
    split at hsame
    · simp at hsame
    · simp at hsame

theorem get_of_not_obj (h : ¬ ∃ members, v = .obj members) (name : String) : v.get name = none := by
  cases v with
  | obj members => exact absurd ⟨members, rfl⟩ h
  | _ => rfl

theorem get_of_remarshal (h : remarshal float64 v = some written) (name : String) :
    written.get name = (v.get name).bind (remarshal float64) := by
  by_cases hobj : ∃ members, v = .obj members
  · obtain ⟨members, rfl⟩ := hobj
    obtain ⟨members', rfl, hmembers⟩ := remarshal_obj float64 h
    exact get_remarshalMembers float64 members hmembers name
  · have hwritten : ¬ ∃ members, written = .obj members := fun ⟨members, hsame⟩ =>
      hobj (obj_of_remarshal float64 (hsame ▸ h))
    rw [get_of_not_obj hobj, get_of_not_obj hwritten]
    rfl

theorem get_written {x : Json} (h : remarshal float64 v = some written)
    {name : String} (hx : v.get name = some x) :
    ∃ x', remarshal float64 x = some x' ∧ written.get name = some x' := by
  have hget := get_of_remarshal float64 h name
  rw [hx, bind_some] at hget
  have hobj : ∃ members, v = .obj members := by
    by_contra hnot
    rw [get_of_not_obj hnot] at hx
    simp at hx
  obtain ⟨members, rfl⟩ := hobj
  obtain ⟨members', rfl, hmembers⟩ := remarshal_obj float64 h
  obtain ⟨x', hx'⟩ := isSome_iff_exists.mp (remarshal_of_get float64 members hmembers hx)
  exact ⟨x', hx', hget.trans hx'⟩

theorem obj_written {x : Json} {name : String} (hx : v.get name = some x)
    (h : remarshal float64 v = some written) : ∃ members, written = .obj members := by
  have hobj : ∃ members, v = .obj members := by
    by_contra hnot
    rw [get_of_not_obj hnot] at hx
    simp at hx
  obtain ⟨members, rfl⟩ := hobj
  obtain ⟨members', hsame, -⟩ := remarshal_obj float64 h
  exact ⟨members', hsame⟩

theorem handedEpoch_updateOfferEpoch {float64 : ℚ → Option ℚ} {frame : Json} (epoch : ℕ)
    (hreads : (remarshal float64 frame).isSome = true) (hrecording : (handedEpoch frame).isSome = true) :
    handedEpoch (updateOfferEpoch float64 frame epoch) = some epoch := by
  obtain ⟨written, hwritten⟩ := isSome_iff_exists.mp hreads
  have hrec : ∃ payload recording, frame.get "payload" = some payload ∧
      payload.get "recording" = some (.obj recording) := by
    unfold handedEpoch at hrecording
    split at hrecording
    · rename_i recording hsome
      obtain ⟨payload, hpayload, hrec⟩ := bind_eq_some_iff.mp hsome
      exact ⟨payload, recording, hpayload, hrec⟩
    · cases hrecording
  obtain ⟨payload, recording, hpayload, hrec⟩ := hrec
  obtain ⟨env, rfl⟩ := obj_written float64 hpayload hwritten
  obtain ⟨payload', hpayload', hgetPayload⟩ := get_written float64 hwritten hpayload
  obtain ⟨members, rfl⟩ := obj_written float64 hrec hpayload'
  obtain ⟨recording', hrecording', hgetRecording⟩ := get_written float64 hpayload' hrec
  obtain ⟨recMembers, rfl, -⟩ := remarshal_obj float64 hrecording'
  have hupdated : updateOfferEpoch float64 frame epoch =
      setMember "payload" (setMember "recording" (setMember "epoch" (.int epoch) recMembers) members) env := by
    unfold updateOfferEpoch
    rw [hwritten]
    dsimp only
    rw [hgetPayload]
    dsimp only
    rw [hgetRecording]
  let recording' := goInsert "epoch" (.int epoch) (recMembers.filter (·.1 ≠ "epoch"))
  have hinner : ((updateOfferEpoch float64 frame epoch).get "payload").bind (·.get "recording") =
      some (.obj recording') := by
    rw [hupdated, get_setMember, if_pos rfl, bind_some, get_setMember, if_pos rfl]
    rfl
  have hepoch : (Json.obj recording').get "epoch" = some (.int epoch) :=
    (get_setMember "epoch" "epoch" (.int epoch) recMembers).trans (if_pos rfl)
  unfold handedEpoch
  rw [hinner]
  dsimp only
  rw [hepoch]
  rfl

theorem handedEpoch_updateOfferEpoch_none {float64 : ℚ → Option ℚ} {frame : Json} (epoch : ℕ)
    (hnone : handedEpoch frame = none) : handedEpoch (updateOfferEpoch float64 frame epoch) = none := by
  unfold updateOfferEpoch
  split
  · rename_i env hwritten
    split
    · rename_i payload hpayload
      split
      · rename_i recording hrecording
        exfalso
        have hget := get_of_remarshal float64 hwritten "payload"
        rw [hpayload] at hget
        obtain ⟨p, hp, hp'⟩ := bind_eq_some_iff.mp hget.symm
        have hget' := get_of_remarshal float64 hp' "recording"
        rw [hrecording] at hget'
        obtain ⟨r, hr, hr'⟩ := bind_eq_some_iff.mp hget'.symm
        obtain ⟨members, rfl⟩ := obj_of_remarshal float64 hr'
        unfold handedEpoch at hnone
        rw [hp, bind_some, hr] at hnone
        dsimp only at hnone
        split at hnone
        · simp at hnone
        · simp at hnone
      · exact hnone
    · exact hnone
  · exact hnone

end LigamentApps.LinkAgent
