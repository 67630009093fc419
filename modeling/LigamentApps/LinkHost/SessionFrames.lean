import LigamentApps.LinkHost.SessionSteps
import LigamentApps.Text.JsonSize

/-!
# The frames of a session and the check of the broker

Which frames of a session `validWorkerResponse` lets through, and that a session whose signals are maps and
whose candidates are short sends no other. -/

namespace LigamentApps.LinkHost

open LinkAgent List

variable {size : Json → ℕ} {f : HostFrame} (id reason : String)

/-! ## Fields of a frame -/

/-- The names of the members of the frames, and of the fields that are read from them. -/
def frameNames : List String :=
  ["type", "session_id", "payload", "signal", "candidate", "stage", "accepted", "consent_granted",
    "confirmation_code", "consent_nonce", "sdp", "reason"]

theorem mem_frameNames (name : String) : name ∈ frameNames ↔ name ∈
    ["type", "session_id", "payload", "signal", "candidate", "stage", "accepted", "consent_granted",
      "confirmation_code",
      "consent_nonce", "sdp", "reason"] := Iff.rfl

theorem frameNames_apart : ∀ other ∈ frameNames, ∀ name ∈ frameNames,
    (other.toList.map goFold == name.toList) = decide (other = name) := by
  decide +kernel

theorem goMembers_cons {other name : String} (hother : other ∈ frameNames) (hname : name ∈ frameNames)
    (v : Json) (rest : List (String × Json)) : goMembers (.obj ((other, v) :: rest)) name =
      if other = name then v :: goMembers (.obj rest) name else goMembers (.obj rest) name := by
  have happly : (other.toList.map goFold == name.toList) = decide (other = name) :=
    frameNames_apart other hother name hname
  unfold goMembers
  dsimp only
  rw [filter_cons, happly]
  by_cases hsame : other = name
  · rw [if_pos (decide_eq_true hsame), if_pos hsame]
    rfl
  · rw [if_neg (fun h => hsame (of_decide_eq_true h)), if_neg hsame]

theorem goMembers_none (name : String) : goMembers (.obj []) name = [] := rfl

theorem decodeEnvelope_answer (members : List (String × Json)) : decodeEnvelope (sessionAnswer id members) =
      some ⟨"session_answer", id, some (.obj (("session_id", .str id) :: members)), none⟩ := by
  unfold decodeEnvelope sessionAnswer goString goField goScalar
  simp only [goMembers_cons, goMembers_none, mem_frameNames, mem_cons, String.reduceEq, true_or, or_true,
    if_true, if_false]
  rfl

theorem decodeEnvelope_terminates : decodeEnvelope ((HostFrame.terminates reason).toJson id) =
      some ⟨"session_terminate", id, some (.obj [("session_id", .str id), ("reason", .str reason)]), none⟩ := by
  unfold decodeEnvelope HostFrame.toJson goString goField goScalar
  simp only [goMembers_cons, goMembers_none, mem_frameNames, mem_cons, String.reduceEq, true_or, or_true,
    if_true, if_false]
  rfl

theorem decodeEnvelope_candidate (c : Json) :
    decodeEnvelope ((HostFrame.candidate c).toJson id) = some ⟨"signal", id, none, some (candidateSignal c)⟩ := by
  unfold decodeEnvelope HostFrame.toJson goString goField goScalar
  simp only [goMembers_cons, goMembers_none, mem_frameNames, mem_cons, String.reduceEq, true_or, or_true,
    if_true, if_false]
  rfl

/-! ## The check -/

/-- What the check of the broker is about, besides the size of the frame. -/
def HostFrame.Ok (size : Json → ℕ) : HostFrame → Prop
  | .consent _ _ | .refuses _ => True
  | .accepts _ sdp | .renegotiates sdp => sdpOk sdp = true
  | .terminates reason => terminateReasonOk reason = true
  | .candidate c => size (candidateSignal c) ≤ maxSessionICEServersSize

theorem valid_answer (size : Json → ℕ) (id : String) (members : List (String × Json)) :
    validWorkerResponse size (sessionAnswer id members) id = true ↔
      size (sessionAnswer id members) ≤ 512 * 1024 ∧
        answerOk (.obj (("session_id", .str id) :: members)) id = true := by
  unfold validWorkerResponse
  rw [decodeEnvelope_answer, Bool.and_eq_true, decide_eq_true_eq]
  simp

theorem answerOk_accepting (b : Bool) (sdp : String) :
    answerOk (.obj [("session_id", .str id), ("accepted", .bool true), ("consent_granted", .bool b),
      ("sdp", .str sdp)]) id = sdpOk sdp := by
  unfold answerOk goString goBool goScalar sdpOk
  simp only [goMembers_cons, goMembers_none, mem_frameNames, mem_cons, String.reduceEq, true_or, or_true,
    if_true, if_false]
  simp [goStruct, Json.str?]
  rfl

theorem answerOk_refusing :
    answerOk (.obj [("session_id", .str id), ("accepted", .bool false), ("reason", .str reason)]) id = true := by
  unfold answerOk goString goBool goScalar
  simp only [goMembers_cons, goMembers_none, mem_frameNames, mem_cons, String.reduceEq, true_or, or_true,
    if_true, if_false]
  simp [goStruct, Json.str?]

theorem answerOk_consent (code nonce : String) :
    answerOk (.obj [("session_id", .str id), ("stage", .str "consent"), ("accepted", .bool false),
      ("consent_granted", .bool true), ("confirmation_code", .str code),
        ("consent_nonce", .str nonce)]) id = true := by
  unfold answerOk goString goBool goScalar
  simp only [goMembers_cons, goMembers_none, mem_frameNames, mem_cons, String.reduceEq, true_or, or_true,
    if_true, if_false]
  simp [goStruct, Json.str?]

theorem terminateOk_terminates :
    terminateOk (.obj [("session_id", .str id), ("reason", .str reason)]) id = terminateReasonOk reason := by
  unfold terminateOk goString goScalar
  simp only [goMembers_cons, goMembers_none, mem_frameNames, mem_cons, String.reduceEq, true_or, or_true,
    if_true, if_false]
  simp [goStruct, Json.str?]

theorem candidateOk_candidate (size : Json → ℕ) (c : Json) :
    candidateOk size (candidateSignal c) = decide (size (candidateSignal c) ≤ maxSessionICEServersSize) := by
  have hfield : goField (candidateSignal c) "candidate" = some c := by
    unfold goField candidateSignal
    simp only [goMembers_cons, goMembers_none, mem_frameNames, mem_cons, String.reduceEq, true_or, or_true,
      if_true, if_false]
    rfl
  unfold candidateOk
  rw [hfield]
  simp [goStruct, candidateSignal]

theorem valid_frame (size : Json → ℕ) (id : String) (f : HostFrame) :
    validWorkerResponse size (f.toJson id) id = true ↔ size (f.toJson id) ≤ 512 * 1024 ∧ f.Ok size := by
  cases f with
  | consent =>
    refine (valid_answer size id _).trans (and_congr_right fun _ => ?_)
    rw [answerOk_consent]
    exact iff_of_true rfl trivial
  | accepts | renegotiates =>
    refine (valid_answer size id _).trans (and_congr_right fun _ => ?_)
    rw [answerOk_accepting]
    exact Iff.rfl
  | refuses =>
    refine (valid_answer size id _).trans (and_congr_right fun _ => ?_)
    rw [answerOk_refusing]
    exact iff_of_true rfl trivial
  | terminates =>
    unfold validWorkerResponse
    rw [decodeEnvelope_terminates, Bool.and_eq_true, decide_eq_true_eq]
    simp [terminateOk_terminates, HostFrame.Ok]
  | candidate =>
    unfold validWorkerResponse
    rw [decodeEnvelope_candidate, Bool.and_eq_true, decide_eq_true_eq]
    simp [candidateOk_candidate, HostFrame.Ok]

/-! ## The frames of a session -/

section Session

variable {σ : SessionSetup} {s t : LinkHostSession} {a : SessionAction} {es fs : List SessionEvent}
  {reason : Option String}

theorem sends_reject {r : String} (h : .sends f ∈ (s.reject r).2) : s.closed = false ∧ s.rejecting = .no ∧
      (s.ready = false ∧ f = .refuses r ∨ s.ready = true ∧ r ≠ "invalid_session_scope" ∧ f = .terminates r) := by
  unfold LinkHostSession.reject at h
  split at h
  · rename_i hfirst
    unfold LinkHostSession.rejectOnce at h
    split at h
    · simp at h
    · rename_i hopen
      split at h
      · rename_i hready
        split at h
        · simp at h
        · rename_i hscope
          refine ⟨Bool.not_eq_true _ ▸ hopen, hfirst, .inr ⟨hready, hscope, ?_⟩⟩
          simpa using h
      · rename_i hready
        refine ⟨Bool.not_eq_true _ ▸ hopen, hfirst, .inl ⟨Bool.not_eq_true _ ▸ hready, ?_⟩⟩
        simpa using h
  · simp at h

/-- The phase of `start` that goes with the flags of the session. -/
structure Consistent (s : LinkHostSession) : Prop where
  idle : s.started = false → s.phase = .idle
  ready : s.ready = true → s.phase = .over ∨ ∃ candidates, s.phase = .applying candidates

theorem consistent_shut (h : Consistent s) : Consistent s.shut := by
  unfold LinkHostSession.shut
  split
  · exact h
  · exact ⟨h.idle, h.ready⟩

theorem consistent_reject (h : Consistent s) (r : String) : Consistent (s.reject r).1 := by
  unfold LinkHostSession.reject LinkHostSession.rejectOnce
  split
  · split
    · exact ⟨h.idle, h.ready⟩
    · split
      · split
        · exact consistent_shut ⟨h.idle, h.ready⟩
        · exact ⟨h.idle, h.ready⟩
      · exact ⟨h.idle, h.ready⟩
  · exact h

theorem not_ready_of_phase (h : Consistent s) (hwaits : s.phase ≠ .over)
    (hnot : ∀ candidates, s.phase ≠ .applying candidates) :
    s.ready = false := by
  rw [← Bool.not_eq_true]
  intro hready
  obtain hover | ⟨candidates, happlying⟩ := h.ready hready
  · exact hwaits hover
  · exact hnot candidates happlying

theorem started_of_phase (h : Consistent s) (hwaits : s.phase ≠ .idle) : s.started = true := by
  rw [← Bool.not_eq_false]
  exact fun hfresh => hwaits (h.idle hfresh)

theorem consistent_acts (h : Consistent s) (hact : Acts σ s a t es reason) : Consistent t := by
  have hfresh : s.started = false ∧ s.closed = false → s.ready = false := fun hnew =>
    not_ready_of_phase h (by simp [h.idle hnew.1]) (by simp [h.idle hnew.1])
  cases hact with
  | asks hnew => exact ⟨nofun, fun hready => absurd (hfresh hnew) (by simpa using hready)⟩
  | refusesAtOnce => exact ⟨nofun, fun _ => .inl rfl⟩
  | startsAtOnce hnew =>
    exact ⟨nofun, fun hready => absurd (hfresh hnew) (by simpa using hready)⟩
  | asked hphase | startsAuthorized hphase | accepts hphase =>
    have hready := not_ready_of_phase h (by simp [hphase]) (by simp [hphase])
    have hstarted := started_of_phase h (by simp [hphase])
    exact ⟨fun hno => absurd hstarted (by simpa using hno), fun hyes => absurd hready (by simpa using hyes)⟩
  | readied hphase | applied hphase =>
    have hstarted := started_of_phase h (by simp [hphase])
    unfold LinkHostSession.apply
    split
    · exact ⟨fun hno => absurd hstarted (by simpa using hno), fun _ => .inl rfl⟩
    · exact ⟨fun hno => absurd hstarted (by simpa using hno), fun _ => .inr ⟨_, rfl⟩⟩
  | refuses hphase =>
    have hstarted := started_of_phase h fun hidle => by simp [hidle, StartPhase.waits] at hphase
    exact ⟨fun hno => absurd hstarted (by simpa using hno), fun _ => .inl rfl⟩
  | abandons hphase =>
    have hstarted : s.started = true := by
      obtain ⟨args, hphase⟩ | hphase := hphase
      · exact started_of_phase h (by simp [hphase])
      · exact started_of_phase h (by simp [hphase])
    exact ⟨fun hno => absurd hstarted (by simpa using hno), fun _ => .inl rfl⟩
  | decides =>
    unfold LinkHostSession.decide
    split
    · exact ⟨h.idle, h.ready⟩
    · exact h
  | closes => exact consistent_shut h
  | renegotiates | candidate => exact ⟨h.idle, h.ready⟩
  | rejected => exact consistent_shut ⟨h.idle, h.ready⟩
  | outside hsame =>
    constructor
    · rw [hsame.started, hsame.phase]
      exact h.idle
    · rw [hsame.ready, hsame.phase]
      exact h.ready

theorem step_cases (h : s.step σ a = some (t, fs)) : ∃ u es reason, Acts σ s a u es reason ∧
      (reason = none ∧ t = u ∧ fs = es ∨ ∃ r, reason = some r ∧ t = (u.reject r).1 ∧
        fs = es ++ (u.reject r).2) := by
  obtain ⟨⟨u, es, reason⟩, hact, h⟩ := Option.map_eq_some_iff.mp h
  refine ⟨u, es, reason, acts_of_act hact, ?_⟩
  cases reason with
  | none =>
    cases h
    exact .inl ⟨rfl, rfl, rfl⟩
  | some r =>
    cases h
    exact .inr ⟨r, rfl, rfl, rfl⟩

theorem consistent_step (h : Consistent s) (hstep : s.step σ a = some (t, fs)) : Consistent t := by
  obtain ⟨u, es, reason, hact, ⟨-, rfl, -⟩ | ⟨r, -, rfl, -⟩⟩ := step_cases hstep
  · exact consistent_acts h hact
  · exact consistent_reject (consistent_acts h hact) r

/-- A step that can go wrong: a broken signal while the session is ready and goes on, or a long candidate. -/
def Regular (size : Json → ℕ) (σ : SessionSetup) (s : LinkHostSession) : SessionAction → Prop
  | .receive frame =>
    s.ready = true → s.closed = false → s.rejecting = .no → brokenSignal σ frame = false
  | .peerCandidate c => size ((HostFrame.candidate c).toJson σ.sessionId) ≤ 512 * 1024 →
      size (candidateSignal c) ≤ maxSessionICEServersSize
  | _ => True

theorem ok_of_acts (hgood : Regular size σ s a) (hact : Acts σ s a t es reason) (hf : .sends f ∈ es)
    (hsize : size (f.toJson σ.sessionId) ≤ 512 * 1024) : f.Ok size := by
  cases hact with
  | asks =>
    obtain rfl : f = _ := by simpa using hf
    exact trivial
  | accepts _ _ hsdp | renegotiates _ hsdp =>
    obtain rfl : f = _ := by simpa using hf
    exact hsdp
  | candidate =>
    obtain rfl : f = _ := by simpa using hf
    exact hgood hsize
  | closes _ hbefore =>
    obtain hf | hf := mem_append.mp hf
    · obtain ⟨frame, hframe, -⟩ := hbefore _ hf
      simp at hframe
    · split at hf
      · simp at hf
      · simp at hf
  | outside _ hes =>
    obtain ⟨frame, hframe, -⟩ := hes _ hf
    simp at hframe
  | _ => simp at hf

theorem ok_of_reason (hinv : Consistent s) (hgood : Regular size σ s a) {r : String}
    (hact : Acts σ s a t es (some r)) (hready : t.ready = true) (hopen : t.closed = false)
    (hfirst : t.rejecting = .no) (hscope : r ≠ "invalid_session_scope") : terminateReasonOk r = true := by
  cases hact with
  | refusesAtOnce hnew =>
    have hno := not_ready_of_phase hinv (by simp [hinv.idle hnew.1]) (by simp [hinv.idle hnew.1])
    exact absurd hno (by simpa using hready)
  | refuses _ hwhy =>
    obtain rfl | ⟨args, hwhere⟩ | ⟨args, hwhere, -⟩ := hwhy
    · decide
    · exact absurd (not_ready_of_phase hinv (by simp [hwhere]) (by simp [hwhere])) (by simpa using hready)
    · exact absurd (not_ready_of_phase hinv (by simp [hwhere]) (by simp [hwhere])) (by simpa using hready)
  | outside hsame _ hreason =>
    obtain ⟨-, hok | hscope' | ⟨-, -, frame, rfl, hbroken⟩⟩ := hreason r rfl
    · exact hok
    · exact absurd hscope' hscope
    · rw [hsame.ready] at hready
      rw [hsame.closed] at hopen
      rw [hsame.rejecting] at hfirst
      exact absurd hbroken (by rw [hgood hready hopen hfirst]; exact Bool.false_ne_true)

theorem ok_of_step (hinv : Consistent s) (hgood : Regular size σ s a) (hstep : s.step σ a = some (t, fs))
    (hf : .sends f ∈ fs) (hsize : size (f.toJson σ.sessionId) ≤ 512 * 1024) : f.Ok size := by
  obtain ⟨u, es, reason, hact, ⟨-, -, rfl⟩ | ⟨r, rfl, -, rfl⟩⟩ := step_cases hstep
  · exact ok_of_acts hgood hact hf hsize
  · obtain hf | hf := mem_append.mp hf
    · exact ok_of_acts hgood hact hf hsize
    · obtain ⟨hopen, hfirst, ⟨-, rfl⟩ | ⟨hready, hscope, rfl⟩⟩ := sends_reject hf
      · exact trivial
      · exact ok_of_reason hinv hgood hact hready hopen hfirst hscope

/-- In a run in which no signal is broken once the session is ready, and no candidate is too long, the broker
lets every frame through that fits the transport. -/
theorem session_frames_valid {size : Json → ℕ} {s : LinkHostSession} {es : List SessionEvent}
    (hrun : (linkHostSession σ).Reach (fun s _ a => Regular size σ s a) {} s es) :
    ∀ f, .sends f ∈ es → size (f.toJson σ.sessionId) ≤ 512 * 1024 →
      validWorkerResponse size (f.toJson σ.sessionId) σ.sessionId = true := by
  have hinv := hrun.invariant
    (fun s es => Consistent s ∧ ∀ f, .sends f ∈ es → size (f.toJson σ.sessionId) ≤ 512 * 1024 → f.Ok size)
    ⟨⟨fun _ => rfl, fun h => absurd h (by simp)⟩, nofun⟩ ?_
  · intro f hf hsize
    exact (valid_frame size σ.sessionId f).mpr ⟨hsize, hinv.2 f hf hsize⟩
  · rintro s es a t fs ⟨hcons, hok⟩ hgood hstep
    refine ⟨consistent_step hcons hstep, fun f hf hsize => ?_⟩
    obtain hf | hf := mem_append.mp hf
    · exact hok f hf hsize
    · exact ok_of_step hcons hgood hstep hf hsize

end Session

/-! ### A session that becomes ready -/

/-- A session that shows its screen. -/
def viewSession : SessionSetup := ⟨"00000000-0000-0000-0000-000000000001", "view"⟩

/-- The session becomes ready without anybody's consent. -/
def becomesReady : List SessionAction :=
  [.start ⟨"m=video 9", 0, false, false, "", ""⟩, .peerStarts (.answer "v=0"), .answerSent true]

/-- A frame whose signal is a number. -/
def numberSignal : Json :=
  .obj [("type", .str "signal"), ("session_id", .str viewSession.sessionId), ("signal", .int 5)]

/-- The bytes of a frame as Dart writes it. -/
def wireSize : Json → ℕ := Json.bytes fun _ => "0.5"

/-- A step that is regular, as far as it can be evaluated. -/
def regularStep (σ : SessionSetup) : SessionAction → Bool
  | .receive frame => !brokenSignal σ frame
  | .peerCandidate c => wireSize (candidateSignal c) ≤ maxSessionICEServersSize
  | _ => true

theorem regular_of_regularStep {σ : SessionSetup} {s : LinkHostSession} {a : SessionAction}
    (h : regularStep σ a = true) : Regular wireSize σ s a := by
  cases a with
  | receive => exact fun _ _ _ => by simpa [regularStep] using h
  | peerCandidate => exact fun _ => of_decide_eq_true h
  | _ => exact trivial

/-- A session that becomes ready, sends a candidate and is disconnected sends three frames, which the broker
lets through. -/
theorem session_frames_valid_sample : ∃ s es, (linkHostSession viewSession).Reach (fun _ _ _ => True)
    {} s es ∧ (es.length = 4 ∧ ∀ f, .sends f ∈ es → wireSize (f.toJson viewSession.sessionId) ≤ 512 * 1024 →
      validWorkerResponse wireSize (f.toJson viewSession.sessionId) viewSession.sessionId = true) := by
  have hexec : ∃ e ∈ (linkHostSession viewSession).exec (fun _ _ a => regularStep viewSession a) {} []
      (becomesReady ++ [.peerCandidate (.obj [("candidate", .str "candidate:1")]), .reject .localDisconnect]),
      e.2.length = 4 := by
    decide +kernel
  obtain ⟨⟨s, es⟩, hexec, hlength⟩ := hexec
  have hrun : (linkHostSession viewSession).Reach (fun s _ a => Regular wireSize viewSession s a) {} s es :=
    Machine.reach_of_exec (fun _ _ _ => regular_of_regularStep) hexec
  exact ⟨s, es, hrun.mono fun _ _ _ _ => trivial, hlength, session_frames_valid hrun⟩

/-- The first of these events is a frame that is not too large, and that the agent does not take. -/
def violates : List SessionEvent → Bool
  | .sends f :: _ => wireSize (f.toJson viewSession.sessionId) ≤ 512 * 1024 &&
    !validWorkerResponse wireSize (f.toJson viewSession.sessionId) viewSession.sessionId
  | _ => false

/-- A session that is ready ends itself on a signal that is no map, with a frame that the broker takes for a
violation of the protocol. -/
theorem session_ends_with_violation : ∃ s es f, (linkHostSession viewSession).Reach (fun _ _ _ => True)
    {} s es ∧ .sends f ∈ es ∧ wireSize (f.toJson viewSession.sessionId) ≤ 512 * 1024 ∧
      validWorkerResponse wireSize (f.toJson viewSession.sessionId) viewSession.sessionId = false := by
  have hexec : ∃ e ∈ (linkHostSession viewSession).exec (fun _ _ _ => true) {} []
      (becomesReady ++ [.receive numberSignal]),
      violates e.2.reverse = true := by
    decide +kernel
  obtain ⟨⟨s, es⟩, hexec, hlast⟩ := hexec
  have hrun : (linkHostSession viewSession).Reach (fun _ _ _ => True) {} s es :=
    Machine.reach_of_exec (fun _ _ _ _ => trivial) hexec
  generalize hreversed : es.reverse = last at hlast
  unfold violates at hlast
  split at hlast
  · rename_i f rest
    rw [Bool.and_eq_true, decide_eq_true_eq, Bool.not_eq_true'] at hlast
    refine ⟨s, es, f, hrun, ?_, hlast⟩
    rw [← mem_reverse, hreversed]
    exact mem_cons_self
  · cases hlast

end LigamentApps.LinkHost
