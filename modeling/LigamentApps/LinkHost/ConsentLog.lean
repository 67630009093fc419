import LigamentApps.LinkHost.AnswerProtocol

/-!
# What a session has asked and been told

The log of a session's events as far as the consent goes: what the server was asked, what it decided in time,
and how the start ended. The media peer starts once, and only after a decision that carries the session's own
nonce. -/

namespace LigamentApps.LinkHost

open List Option

/-- What a frame decides on the consent with this nonce. -/
def decisionOf (σ : SessionSetup) (nonce : String) (frame : Json) : Option Bool :=
  if consentDecision σ frame && (frame.get "signal").any (memberIs · "consent_nonce" nonce) then
    some ((frame.get "signal").any fun signal => (signal.get "authorized").any Json.isTrue)
  else none

/-- What a trace says about the consent. -/
structure ConsentLog where
  /-- The code and the nonce of the answer of the consent stage. -/
  asked : Option (String × String) := none
  /-- The first decision with that nonce, before the start is given up. -/
  decision : Option Bool := none
  /-- The start has refused what it was called with. -/
  refused : Bool := false
  /-- Something else has rejected or closed the session. -/
  ended : Bool := false
  peer : Bool := false

def ConsentLog.next (σ : SessionSetup) (k : ConsentLog) : SessionEvent → ConsentLog
  | .sends (.consent code nonce) => { k with asked := some (code, nonce) }
  | .sends (.refuses r) => if r ∈ startReasons then { k with refused := true } else { k with ended := true }
  | .sends (.terminates _) | .closes => { k with ended := true }
  | .startsPeer => { k with peer := true }
  | .receives frame =>
    { k with decision := k.decision.or (k.asked.bind fun asked =>
        if k.refused then none else decisionOf σ asked.2 frame) }
  | _ => k

/-- The media peer is started once, and where the consent is required, only after the decision that grants
it. -/
def consentRules (σ : SessionSetup) (required : Bool) : Monitor ConsentLog SessionEvent where
  start := {}
  next := .next σ
  Ok k
    | .startsPeer => k.peer = false ∧ (required = true → k.decision = some true)
    | _ => True

/-- `start` asks the server, when it is called with these. -/
def StartArgs.asks (args : StartArgs) : Bool :=
  args.confirmationRequired && args.consentGranted && startCodeOk args.confirmationCode

section Session

variable {σ : SessionSetup} {s t : LinkHostSession} {k : ConsentLog} {a : SessionAction} {args : StartArgs}
  {fs : List SessionEvent} {reason : Option String}

/-- A session that has not been started. -/
structure Fresh (s : LinkHostSession) (k : ConsentLog) : Prop where
  consistent : Consistent s
  started : s.started = false
  peerStarted : s.peerStarted = false
  log : k.asked = none ∧ k.decision = none ∧ k.refused = false ∧ k.peer = false
  ended : s.rejecting ≠ .no ∨ s.closed = true → k.ended = true

/-- A session that waits for the decision of the server. -/
structure Waiting (args : StartArgs) (s : LinkHostSession) (k : ConsentLog) : Prop where
  phase : s.phase = .consentSend args ∨ s.phase = .authorizing args
  asked : k.asked = some (args.confirmationCode, args.nonce)
  going : k.refused = false ∧ k.peer = false
  decision : s.authorization = some k.decision
  nonce : k.decision = none → s.consentNonce = some args.nonce
  ended : s.rejecting ≠ .no ∨ s.closed = true → k.ended = true

structure InPeer (s : LinkHostSession) (k : ConsentLog) : Prop where
  peer : k.peer = true
  phase : (∀ args, s.phase ≠ .consentSend args ∧ s.phase ≠ .authorizing args)

/-- A session whose start is over without a peer: something else has ended it, or the offer is not one to
start with, or the server has not granted the consent in time. -/
structure Refused (σ : SessionSetup) (args : StartArgs) (s : LinkHostSession) (k : ConsentLog) : Prop where
  phase : s.phase = .over
  why : k.ended = true ∨ k.refused = true ∧ (startable σ args = false ∨ k.decision ≠ some true)

/-- A session that was started with these arguments. -/
structure Began (σ : SessionSetup) (args : StartArgs) (s : LinkHostSession) (k : ConsentLog) : Prop where
  consistent : Consistent s
  asked : args.asks = true → k.asked = some (args.confirmationCode, args.nonce)
  stage : Waiting args s k ∨ InPeer s k ∨ Refused σ args s k

/-! ## Events that do not matter -/

theorem decision_after_frame (frame : Json) : (k.next σ (.receives frame)).decision =
    k.decision.or (k.asked.bind fun asked => if k.refused then none else decisionOf σ asked.2 frame) := rfl

theorem after_otherFrames (hother : OtherFrames σ fs) : fs.foldl (ConsentLog.next σ) k = k := by
  induction fs with
  | nil => rfl
  | cons e fs ih =>
    obtain ⟨frame, rfl, hframe⟩ := hother _ mem_cons_self
    have hsame : k.next σ (.receives frame) = k := by
      have hnone : ∀ nonce, decisionOf σ nonce frame = none := fun nonce => by
        unfold decisionOf
        rw [hframe, Bool.false_and]
        rfl
      unfold ConsentLog.next
      simp only [hnone, ite_self, bind_fun_none, or_none]
    rw [foldl_cons, hsame]
    exact ih fun e he => hother e (mem_cons_of_mem _ he)

theorem accepts_of_no_peer {required : Bool} (hnone : .startsPeer ∉ fs) :
    (consentRules σ required).AcceptsFrom k fs := by
  induction fs generalizing k with
  | nil => trivial
  | cons e _ ih =>
    refine ⟨?_, ih fun h => hnone (mem_cons_of_mem _ h)⟩
    cases e with
    | startsPeer => exact absurd mem_cons_self hnone
    | _ => trivial

theorem not_startsPeer_of_otherFrames (hother : OtherFrames σ fs) : .startsPeer ∉ fs := fun h => by
  obtain ⟨frame, hframe, -⟩ := hother _ h
  simp at hframe

theorem ended_after (hended : k.ended = true) : (fs.foldl (ConsentLog.next σ) k).ended = true := by
  induction fs generalizing k with
  | nil => exact hended
  | cons e fs ih =>
    refine ih ?_
    unfold ConsentLog.next
    split
    · exact hended
    · split
      · exact hended
      · rfl
    · rfl
    · rfl
    · exact hended
    · exact hended
    · exact hended

/-! ## Rejections -/

/-- What `_reject` does: nothing, to a session that is rejected already; or nothing to be seen, to one that is
closed; or it ends one that is ready; or it refuses. -/
theorem reject_cases (s : LinkHostSession) (r : String) : (s.reject r = (s, []) ∧ s.rejecting ≠ .no) ∨
      ∃ t es, s.reject r = (t, es) ∧ t.phase = s.phase ∧ t.started = s.started ∧ t.authorization = s.authorization ∧
        t.consentNonce = s.consentNonce ∧ t.peerStarted = s.peerStarted ∧ t.rejecting ≠ .no ∧
        (es = [] ∧ (s.closed = true ∨ s.ready = true) ∨ es = [.sends (.terminates r)] ∧ s.ready = true ∨
          es = [.sends (.refuses r)]) := by
  unfold LinkHostSession.reject
  split
  · refine .inr ⟨(s.rejectOnce r).1, (s.rejectOnce r).2, rfl, ?_⟩
    unfold LinkHostSession.rejectOnce
    split
    · rename_i hclosed
      exact ⟨rfl, rfl, rfl, rfl, rfl, by simp, .inl ⟨rfl, .inl hclosed⟩⟩
    · split
      · rename_i hopen hready
        split
        · have hshut : ({ s with rejecting := .done } : LinkHostSession).shut =
              { s with rejecting := .done, closed := true, timerArmed := false, pendingCandidates := [] } :=
                if_neg hopen
          rw [hshut]
          exact ⟨rfl, rfl, rfl, rfl, rfl, by simp, .inl ⟨rfl, .inr hready⟩⟩
        · exact ⟨rfl, rfl, rfl, rfl, rfl, by simp, .inr (.inl ⟨rfl, hready⟩)⟩
      · exact ⟨rfl, rfl, rfl, rfl, rfl, by simp, .inr (.inr rfl)⟩
  · rename_i hlater
    exact .inl ⟨rfl, hlater⟩

theorem not_startsPeer_reject (s : LinkHostSession) (r : String) : .startsPeer ∉ (s.reject r).2 := by
  obtain ⟨hsame, -⟩ | ⟨t, es, hreject, -, -, -, -, -, -, hes⟩ := reject_cases s r
  · rw [hsame]
    simp
  · rw [hreject]
    obtain ⟨rfl, -⟩ | ⟨rfl, -⟩ | rfl := hes
    all_goals simp

theorem log_after_reject (s : LinkHostSession) (r : String) : let k' := (s.reject r).2.foldl (ConsentLog.next σ) k
    k'.asked = k.asked ∧ k'.decision = k.decision ∧ k'.peer = k.peer ∧ (k.ended = true → k'.ended = true) ∧
      (k.refused = true → k'.refused = true) := by
  obtain ⟨hsame, -⟩ | ⟨t, es, hreject, -, -, -, -, -, -, hes⟩ := reject_cases s r
  · rw [hsame]
    exact ⟨rfl, rfl, rfl, id, id⟩
  · rw [hreject]
    obtain ⟨rfl, -⟩ | ⟨rfl, -⟩ | rfl := hes
    · exact ⟨rfl, rfl, rfl, id, id⟩
    · exact ⟨rfl, rfl, rfl, fun _ => rfl, id⟩
    · simp only [foldl_cons, foldl_nil, ConsentLog.next]
      split
      · exact ⟨rfl, rfl, rfl, id, fun _ => rfl⟩
      · exact ⟨rfl, rfl, rfl, fun _ => rfl, id⟩

theorem ended_after_reject (r : String) (hready : s.ready = false)
    (hended : s.rejecting ≠ .no ∨ s.closed = true → k.ended = true) :
    let k' := (s.reject r).2.foldl (ConsentLog.next σ) k
    (r ∉ startReasons → k'.ended = true ∧ k'.refused = k.refused) ∧ (k'.ended = true ∨ k'.refused = true) ∧
      (k'.ended = true ∨ s.closed = false) := by
  obtain ⟨hsame, hlater⟩ | ⟨t, es, hreject, -, -, -, -, -, -, hes⟩ := reject_cases s r
  · have hk := hended (.inl hlater)
    rw [hsame]
    exact ⟨fun _ => ⟨hk, rfl⟩, .inl hk, .inl hk⟩
  · rw [hreject]
    obtain ⟨rfl, hclosed | hyes⟩ | ⟨rfl, hyes⟩ | rfl := hes
    · have hk := hended (.inr hclosed)
      exact ⟨fun _ => ⟨hk, rfl⟩, .inl hk, .inl hk⟩
    · exact absurd hready (by rw [hyes]; simp)
    · exact absurd hready (by rw [hyes]; simp)
    · have hclosed : k.ended = true ∨ s.closed = false := by
        cases hc : s.closed with
        | true => exact .inl (hended (.inr hc))
        | false => exact .inr rfl
      simp only [foldl_cons, foldl_nil, ConsentLog.next]
      split
      · rename_i hin
        exact ⟨fun hnot => absurd hin hnot, .inr rfl, hclosed⟩
      · exact ⟨fun _ => ⟨rfl, rfl⟩, .inl rfl, .inl rfl⟩

theorem phase_reject (s : LinkHostSession) (r : String) : (s.reject r).1.phase = s.phase ∧
    (s.reject r).1.started = s.started ∧ (s.reject r).1.authorization = s.authorization ∧
    (s.reject r).1.consentNonce = s.consentNonce ∧ (s.reject r).1.peerStarted = s.peerStarted := by
  obtain ⟨hsame, -⟩ | ⟨t, es, hreject, hphase, hstarted, hauth, hnonce, hpeer, -⟩ := reject_cases s r
  · rw [hsame]
    exact ⟨rfl, rfl, rfl, rfl, rfl⟩
  · rw [hreject]
    exact ⟨hphase, hstarted, hauth, hnonce, hpeer⟩

theorem fresh_reject (h : Fresh s k) {r : String} (hr : r ∉ startReasons) :
    Fresh (s.reject r).1 ((s.reject r).2.foldl (ConsentLog.next σ) k) := by
  have hidle := h.consistent.idle h.started
  have hready := not_ready_of_phase h.consistent (by simp [hidle]) (by simp [hidle])
  obtain ⟨hasked, hdecision, hpeer, -, -⟩ := log_after_reject (σ := σ) s r
  obtain ⟨hend, -, -⟩ := ended_after_reject (σ := σ) r hready h.ended
  obtain ⟨hended, hrefused⟩ := hend hr
  exact {
    consistent := consistent_reject h.consistent r
    started := (phase_reject s r).2.1.trans h.started
    peerStarted := (phase_reject s r).2.2.2.2.trans h.peerStarted
    log := ⟨hasked.trans h.log.1, hdecision.trans h.log.2.1, hrefused.trans h.log.2.2.1, hpeer.trans h.log.2.2.2⟩
    ended := fun _ => hended }

theorem waiting_unready (hcons : Consistent s) (h : Waiting args s k) : s.ready = false := by
  obtain hphase | hphase := h.phase
  · exact not_ready_of_phase hcons (by simp [hphase]) (by simp [hphase])
  · exact not_ready_of_phase hcons (by simp [hphase]) (by simp [hphase])

theorem began_reject (h : Began σ args s k) {r : String} (hr : r ∉ startReasons) :
    Began σ args (s.reject r).1 ((s.reject r).2.foldl (ConsentLog.next σ) k) := by
  obtain ⟨hasked, hdecision, hpeer, hended, hrefused⟩ := log_after_reject (σ := σ) s r
  obtain ⟨hphase, -, hauth, hnonce, -⟩ := phase_reject s r
  refine ⟨consistent_reject h.consistent r, fun hasks => hasked.trans (h.asked hasks), ?_⟩
  obtain hwaiting | hin | hover := h.stage
  · obtain ⟨hend, -, -⟩ := ended_after_reject (σ := σ) r (waiting_unready h.consistent hwaiting) hwaiting.ended
    obtain ⟨hend, hgoing⟩ := hend hr
    refine .inl ⟨?_, hasked.trans hwaiting.asked,
      ⟨hgoing.trans hwaiting.going.1, hpeer.trans hwaiting.going.2⟩, ?_, ?_, fun _ => hend⟩
    · rw [hphase]
      exact hwaiting.phase
    · rw [hauth, hdecision]
      exact hwaiting.decision
    · rw [hnonce, hdecision]
      exact hwaiting.nonce
  · refine .inr (.inl ⟨hpeer.trans hin.peer, ?_⟩)
    rw [hphase]
    exact hin.phase
  · refine .inr (.inr ⟨hphase.trans hover.phase, ?_⟩)
    obtain hwhy | ⟨hwhy, hbecause⟩ := hover.why
    · exact .inl (hended hwhy)
    · rw [hdecision]
      exact .inr ⟨hrefused hwhy, hbecause⟩

theorem refused_reject (hcons : Consistent s) (h : Waiting args s k) {r : String}
    (hwhy : r ∉ startReasons ∨ k.decision ≠ some true ∨ s.closed = true ∨ startable σ args = false) :
    Refused σ args (({ s with phase := .over } : LinkHostSession).reject r).1
      ((({ s with phase := .over } : LinkHostSession).reject r).2.foldl (ConsentLog.next σ) k) := by
  have hunready : s.ready = false := waiting_unready hcons h
  have hready : ({ s with phase := .over } : LinkHostSession).ready = false := hunready
  obtain ⟨-, hdecision, -, -, -⟩ := log_after_reject (σ := σ) ({ s with phase := .over } : LinkHostSession) r
  obtain ⟨hend, heither, hopen⟩ := ended_after_reject (σ := σ) r hready h.ended
  refine ⟨(phase_reject _ r).1, ?_⟩
  obtain hr | hno | hclosed | hoffer := hwhy
  · exact .inl (hend hr).1
  · rw [hdecision]
    exact heither.imp id fun hrefused => ⟨hrefused, .inr hno⟩
  · obtain hyes | hno := hopen
    · exact .inl hyes
    · exact absurd hclosed (by rw [show s.closed = false from hno]; exact Bool.false_ne_true)
  · exact heither.imp id fun hrefused => ⟨hrefused, .inl hoffer⟩

theorem after_closes {before : List SessionEvent} (hbefore : OtherFrames σ before) (es : List SessionEvent) :
    (before ++ es).foldl (ConsentLog.next σ) k = es.foldl (ConsentLog.next σ) k := by
  rw [foldl_append, after_otherFrames hbefore]

theorem log_after_close (s : LinkHostSession) :
    let k' := (if s.closed then [] else [SessionEvent.closes]).foldl (ConsentLog.next σ) k
    k'.asked = k.asked ∧ k'.decision = k.decision ∧ k'.peer = k.peer ∧ k'.refused = k.refused ∧
      (k.ended = true → k'.ended = true) ∧ (s.closed = true ∨ k'.ended = true) := by
  cases hclosed : s.closed with
  | true => exact ⟨rfl, rfl, rfl, rfl, id, .inl rfl⟩
  | false => exact ⟨rfl, rfl, rfl, rfl, fun _ => rfl, .inr rfl⟩

theorem shut_kept (s : LinkHostSession) : s.shut.phase = s.phase ∧ s.shut.started = s.started ∧
    s.shut.authorization = s.authorization ∧ s.shut.consentNonce = s.consentNonce ∧
      s.shut.peerStarted = s.peerStarted := by
  unfold LinkHostSession.shut
  split
  · exact ⟨rfl, rfl, rfl, rfl, rfl⟩
  · exact ⟨rfl, rfl, rfl, rfl, rfl⟩

theorem fresh_acts (h : Fresh s k) (hact : Acts σ s a t fs reason) (hother : ∀ args, a ≠ .start args) :
    Fresh t (fs.foldl (ConsentLog.next σ) k) := by
  have hcons := consistent_acts h.consistent hact
  have hidle := h.consistent.idle h.started
  cases hact with
  | asks | refusesAtOnce | startsAtOnce => exact absurd rfl (hother _)
  | asked hphase | startsAuthorized hphase | accepts hphase | readied hphase | applied hphase =>
    cases hidle.symm.trans hphase
  | refuses hphase => simp [hidle, StartPhase.waits] at hphase
  | abandons hphase =>
    obtain ⟨args, hphase⟩ | hphase := hphase
    · cases hidle.symm.trans hphase
    · cases hidle.symm.trans hphase
  | @decides frame signal =>
    have hsame : k.next σ (.receives frame) = k := by
      have hdecision : (k.next σ (.receives frame)).decision = k.decision := by
        rw [decision_after_frame, h.log.1, bind_none, or_none]
      exact congrArg (fun d => { k with decision := d }) hdecision
    rw [foldl_cons, hsame, foldl_nil]
    unfold LinkHostSession.decide at hcons ⊢
    split
    · rename_i hmatch
      rw [if_pos hmatch] at hcons
      exact ⟨hcons, h.started, h.peerStarted, h.log, h.ended⟩
    · exact h
  | closes _ hbefore =>
    rw [after_closes hbefore]
    obtain ⟨hasked, hdecision, hpeer, hrefused, hended, heither⟩ := log_after_close (σ := σ) s
    exact {
      consistent := hcons
      started := (shut_kept s).2.1.trans h.started
      peerStarted := (shut_kept s).2.2.2.2.trans h.peerStarted
      log := ⟨hasked.trans h.log.1, hdecision.trans h.log.2.1, hrefused.trans h.log.2.2.1, hpeer.trans h.log.2.2.2⟩
      ended := fun _ => heither.elim (fun hclosed => hended (h.ended (.inr hclosed))) id }
  | renegotiates | candidate => exact ⟨hcons, h.started, h.peerStarted, h.log, h.ended⟩
  | rejected hsending =>
    have hk := h.ended (.inl (by rw [hsending]; simp))
    exact ⟨hcons, (shut_kept _).2.1.trans h.started, (shut_kept _).2.2.2.2.trans h.peerStarted, h.log, fun _ => hk⟩
  | outside hsame hes =>
    rw [after_otherFrames hes]
    refine ⟨hcons, hsame.started.trans h.started, hsame.peerStarted.trans h.peerStarted, h.log, ?_⟩
    rw [hsame.rejecting, hsame.closed]
    exact h.ended

theorem waiting_decides (h : Waiting args s k) {frame : Json} {signal : List (String × Json)}
    (hsession : memberIs frame "session_id" σ.sessionId = true) (hsignal : frame.get "signal" = some (.obj signal))
    (hkind : memberIs frame "type" "signal" = true ∧ memberIs (.obj signal) "type" "consent_decision" = true) :
    Waiting args (s.decide (.obj signal)) (k.next σ (.receives frame)) := by
  have hdecision : ∀ nonce, decisionOf σ nonce frame = if memberIs (.obj signal) "consent_nonce" nonce =
      true then some (((Json.obj signal).get "authorized").any Json.isTrue) else none := fun nonce => by
    unfold decisionOf consentDecision
    rw [hsession, hkind.1, hsignal, any_some, hkind.2, any_some, any_some]
    rfl
  have hlog : (k.next σ (.receives frame)).decision = k.decision.or
      (if memberIs (.obj signal) "consent_nonce" args.nonce = true then
        some (((Json.obj signal).get "authorized").any Json.isTrue) else none) := by
    rw [decision_after_frame, h.asked, bind_some, if_neg (by rw [h.going.1]; exact Bool.false_ne_true),
      hdecision]
  unfold LinkHostSession.decide
  cases hk : k.decision with
  | none =>
    have hauth : s.authorization = some none := hk ▸ h.decision
    have hnonce := h.nonce hk
    rw [hk, none_or] at hlog
    rw [hauth, hnonce, decide_eq_true rfl, Bool.true_and, any_some]
    split
    · rename_i hmatch
      rw [if_pos hmatch] at hlog
      exact ⟨h.phase, h.asked, h.going, congrArg some hlog.symm, fun hno => absurd (hlog.symm.trans hno) (by simp),
        h.ended⟩
    · rename_i hmatch
      rw [if_neg hmatch] at hlog
      exact ⟨h.phase, h.asked, h.going, hauth.trans (congrArg some hlog.symm), fun _ => hnonce, h.ended⟩
  | some b =>
    have hauth : s.authorization = some (some b) := hk ▸ h.decision
    rw [hk, some_or] at hlog
    have hno : ¬ (decide (s.authorization = some none) &&
        s.consentNonce.any (memberIs (.obj signal) "consent_nonce")) = true := by simp [hauth]
    rw [if_neg hno]
    exact ⟨h.phase, h.asked, h.going, hauth.trans (congrArg some hlog.symm),
      fun hnone => absurd (hlog.symm.trans hnone) (by simp), h.ended⟩

theorem inPeer_of_phase (hpeer : k.peer = true) (hphase : t.phase = .answerSend ∨ t.phase = .over ∨
    (∃ args, t.phase = .peerStart args) ∨ ∃ candidates, t.phase = .applying candidates) : InPeer t k := by
  refine ⟨hpeer, fun args => ?_⟩
  obtain hphase | hphase | ⟨args', hphase⟩ | ⟨candidates, hphase⟩ := hphase
  all_goals simp [hphase]

theorem apply_phase (u : LinkHostSession) (candidates : List Json) :
    (u.apply candidates).phase = .over ∨ ∃ candidates', (u.apply candidates).phase = .applying candidates' := by
  unfold LinkHostSession.apply
  split
  · exact .inl rfl
  · exact .inr ⟨_, rfl⟩

theorem Began.peer_of_phase (h : Began σ args s k) (hover : s.phase ≠ .over)
    (hno : ∀ args, s.phase ≠ .consentSend args ∧ s.phase ≠ .authorizing args) : k.peer = true := by
  obtain hwaiting | hin | hrefused := h.stage
  · obtain hphase | hphase := hwaiting.phase
    · exact absurd hphase (hno args).1
    · exact absurd hphase (hno args).2
  · exact hin.peer
  · exact absurd hrefused.phase hover

theorem Began.waiting_of_phase (h : Began σ args s k) {args' : StartArgs}
    (hphase : s.phase = .consentSend args' ∨ s.phase = .authorizing args') : Waiting args s k := by
  obtain hwaiting | hin | hrefused := h.stage
  · exact hwaiting
  · exact absurd hphase (not_or.mpr (hin.phase args'))
  · obtain hphase | hphase := hphase
    · cases hrefused.phase.symm.trans hphase
    · cases hrefused.phase.symm.trans hphase

/-- The log and the state agree from the start of a session on. -/
theorem began_acts (h : Began σ args s k) (hact : Acts σ s a t fs reason) (hother : ∀ args, a ≠ .start args)
    (hgoes : ∀ r, reason = some r → s.phase.waits = true → t.phase = s.phase) :
    Began σ args t (fs.foldl (ConsentLog.next σ) k) := by
  have hcons := consistent_acts h.consistent hact
  cases hact with
  | asks | refusesAtOnce | startsAtOnce => exact absurd rfl (hother _)
  | @asked args' hphase =>
    have hwaiting := h.waiting_of_phase (.inl hphase)
    obtain rfl : args' = args := by
      obtain hsame | hsame := hwaiting.phase
      · exact StartPhase.consentSend.inj (hphase.symm.trans hsame)
      · cases hphase.symm.trans hsame
    exact ⟨hcons, h.asked, .inl ⟨.inr rfl, hwaiting.asked, hwaiting.going, hwaiting.decision, hwaiting.nonce,
      hwaiting.ended⟩⟩
  | startsAuthorized => exact ⟨hcons, h.asked, .inr (.inl ⟨rfl, fun args => by simp⟩)⟩
  | accepts hphase =>
    have hpeer := h.peer_of_phase (by simp [hphase]) (by simp [hphase])
    exact ⟨hcons, h.asked, .inr (.inl (inPeer_of_phase hpeer (.inl rfl)))⟩
  | readied hphase | applied hphase =>
    have hpeer := h.peer_of_phase (by simp [hphase]) (by simp [hphase])
    refine ⟨hcons, h.asked, .inr (.inl (inPeer_of_phase hpeer ?_))⟩
    exact (apply_phase _ _).elim (fun hover => .inr (.inl hover)) fun happlying => .inr (.inr (.inr happlying))
  | refuses hphase =>
    have hsame := hgoes _ rfl hphase
    exact absurd hphase (by rw [← hsame]; simp [StartPhase.waits])
  | abandons hphase =>
    have hpeer : k.peer = true := by
      obtain ⟨args', hphase⟩ | hphase := hphase
      · exact h.peer_of_phase (by simp [hphase]) (by simp [hphase])
      · exact h.peer_of_phase (by simp [hphase]) (by simp [hphase])
    exact ⟨hcons, h.asked, .inr (.inl (inPeer_of_phase hpeer (.inr (.inl rfl))))⟩
  | @decides frame signal hopen hsession hsignal hkind =>
    refine ⟨hcons, h.asked, ?_⟩
    have hphase : (s.decide (.obj signal)).phase = s.phase := by
      unfold LinkHostSession.decide
      split
      · rfl
      · rfl
    -- a decision counts while it is waited for, and not afterwards
    obtain hwaiting | hin | hrefused := h.stage
    · exact .inl (waiting_decides hwaiting hsession hsignal hkind)
    · refine .inr (.inl ⟨hin.peer, ?_⟩)
      rw [hphase]
      exact hin.phase
    · refine .inr (.inr ⟨hphase.trans hrefused.phase, ?_⟩)
      obtain hended | ⟨hrefused', hwhy⟩ := hrefused.why
      · exact .inl hended
      · -- a decision after the refusal does not count
        have hlate : (k.next σ (.receives frame)).decision = k.decision := by
          simp only [decision_after_frame, hrefused', if_true, bind_fun_none, or_none]
        refine .inr ⟨hrefused', ?_⟩
        rw [foldl_cons, foldl_nil, hlate]
        exact hwhy
  | closes _ hbefore =>
    rw [after_closes hbefore]
    obtain ⟨hasked, hdecision, hpeer, hrefused, hended, heither⟩ := log_after_close (σ := σ) s
    obtain ⟨hphase, -, hauth, hnonce, -⟩ := shut_kept s
    refine ⟨hcons, fun hasks => hasked.trans (h.asked hasks), ?_⟩
    obtain hwaiting | hin | hover := h.stage
    · refine .inl ⟨?_, hasked.trans hwaiting.asked,
        ⟨hrefused.trans hwaiting.going.1, hpeer.trans hwaiting.going.2⟩, ?_, ?_,
        fun _ => heither.elim (fun hclosed => hended (hwaiting.ended (.inr hclosed))) id⟩
      · rw [hphase]
        exact hwaiting.phase
      · rw [hauth, hdecision]
        exact hwaiting.decision
      · rw [hnonce, hdecision]
        exact hwaiting.nonce
    · refine .inr (.inl ⟨hpeer.trans hin.peer, ?_⟩)
      rw [hphase]
      exact hin.phase
    · refine .inr (.inr ⟨hphase.trans hover.phase, ?_⟩)
      rw [hrefused, hdecision]
      exact hover.why.imp hended id
  | renegotiates | candidate =>
    refine ⟨hcons, h.asked, h.stage.imp (fun hw => ?_)
      (.imp (fun hp => ⟨hp.peer, hp.phase⟩) fun hr => ⟨hr.phase, hr.why⟩)⟩
    exact ⟨hw.phase, hw.asked, hw.going, hw.decision, hw.nonce, hw.ended⟩
  | rejected hsending =>
    obtain ⟨hphase, -, hauth, hnonce, -⟩ := shut_kept ({ s with rejecting := .done } : LinkHostSession)
    refine ⟨hcons, h.asked, ?_⟩
    obtain hwaiting | hin | hover := h.stage
    · have hk := hwaiting.ended (.inl (by rw [hsending]; simp))
      refine .inl ⟨?_, hwaiting.asked, hwaiting.going, hauth.trans hwaiting.decision,
        fun hnone => hnonce.trans (hwaiting.nonce hnone), fun _ => hk⟩
      rw [hphase]
      exact hwaiting.phase
    · refine .inr (.inl ⟨hin.peer, ?_⟩)
      rw [hphase]
      exact hin.phase
    · exact .inr (.inr ⟨hphase.trans hover.phase, hover.why⟩)
  -- what comes from outside leaves the stage as it was
  | outside hsame hes =>
    rw [after_otherFrames hes]
    refine ⟨hcons, h.asked, ?_⟩
    obtain hwaiting | hin | hover := h.stage
    · refine .inl ⟨?_, hwaiting.asked, hwaiting.going, hsame.authorization.trans hwaiting.decision,
        fun hnone => hsame.consentNonce.trans (hwaiting.nonce hnone), ?_⟩
      · rw [hsame.phase]
        exact hwaiting.phase
      · rw [hsame.rejecting, hsame.closed]
        exact hwaiting.ended
    · refine .inr (.inl ⟨hin.peer, ?_⟩)
      rw [hsame.phase]
      exact hin.phase
    · exact .inr (.inr ⟨hsame.phase.trans hover.phase, hover.why⟩)

theorem accepts_closes {required : Bool} {before : List SessionEvent} (hbefore : OtherFrames σ before) :
    (consentRules σ required).AcceptsFrom k (before ++ if s.closed then [] else [.closes]) := by
  refine accepts_of_no_peer fun hin => ?_
  obtain hin | hin := mem_append.mp hin
  · exact not_startsPeer_of_otherFrames hbefore hin
  · split at hin
    · simp at hin
    · simp at hin

theorem accepts_of_acts (h : Began σ args s k) (hact : Acts σ s a t fs reason)
    (hother : ∀ args, a ≠ .start args) : (consentRules σ args.confirmationRequired).AcceptsFrom k fs := by
  cases hact with
  | asks | refusesAtOnce | startsAtOnce => exact absurd rfl (hother _)
  | startsAuthorized hphase hdecision =>
    have hwaiting := h.waiting_of_phase (.inr hphase)
    have hgranted : k.decision = some true := Option.some.inj (hwaiting.decision.symm.trans hdecision)
    exact ⟨⟨hwaiting.going.2, fun _ => hgranted⟩, trivial⟩
  | closes _ hbefore => exact accepts_closes hbefore
  | outside _ hes => exact accepts_of_no_peer (not_startsPeer_of_otherFrames hes)
  | _ => exact accepts_of_no_peer (by simp)

theorem accepts_reject {required : Bool} {r : String} (h : (consentRules σ required).AcceptsFrom k fs) :
    (consentRules σ required).AcceptsFrom k (fs ++ (t.reject r).2) :=
  ((consentRules σ required).acceptsFrom_append k fs _).mpr ⟨h, accepts_of_no_peer (not_startsPeer_reject t r)⟩

theorem began_step (h : Began σ args s k) (hstep : s.step σ a = some (t, fs))
    (hother : ∀ args, a ≠ .start args) : Began σ args t (fs.foldl (ConsentLog.next σ) k) ∧
      (consentRules σ args.confirmationRequired).AcceptsFrom k fs := by
  obtain ⟨u, es, reason, hact, ⟨rfl, rfl, rfl⟩ | ⟨r, rfl, rfl, rfl⟩⟩ := step_cases hstep
  · exact ⟨began_acts h hact hother nofun, accepts_of_acts h hact hother⟩
  · refine ⟨?_, accepts_reject (accepts_of_acts h hact hother)⟩
    rw [foldl_append]
    cases hact with
    | refusesAtOnce => exact absurd rfl (hother _)
    | refuses hphase hwhy =>
      have hcons : Consistent ({ s with phase := .over } : LinkHostSession) :=
        consistent_acts h.consistent (.refuses (σ := σ) (a := a) hphase hwhy)
      have hasked := (log_after_reject (σ := σ) (k := k) ({ s with phase := .over } : LinkHostSession) r).1
      refine ⟨consistent_reject hcons r, fun hasks => hasked.trans (h.asked hasks), ?_⟩
      obtain hwaiting | hin | hover := h.stage
      · refine .inr (.inr (refused_reject h.consistent hwaiting ?_))
        obtain rfl | ⟨args', hwhere⟩ | ⟨args', hwhere, hwhy⟩ := hwhy
        · exact .inl (by decide)
        · obtain hphase' | hphase' := hwaiting.phase
          · cases hwhere.symm.trans hphase'
          · cases hwhere.symm.trans hphase'
        · obtain rfl : args' = args := by
            obtain hphase' | hphase' := hwaiting.phase
            · cases hwhere.symm.trans hphase'
            · exact StartPhase.authorizing.inj (hwhere.symm.trans hphase')
          obtain hno | hclosed | hoffer := hwhy
          · refine .inr (.inl fun hgranted => hno ?_)
            rw [hwaiting.decision, hgranted]
          · exact .inr (.inr (.inl hclosed))
          · exact .inr (.inr (.inr hoffer))
      · have hpeer := (log_after_reject (σ := σ) (k := k) ({ s with phase := .over } : LinkHostSession) r).2.2.1
        refine .inr (.inl (inPeer_of_phase (hpeer.trans hin.peer) (.inr (.inl (phase_reject _ r).1))))
      · exact absurd hphase (by rw [hover.phase]; simp [StartPhase.waits])
    | outside hsame hes hreason =>
      have hbegan := began_acts h (.outside (σ := σ) hsame hes hreason) hother fun _ _ _ => hsame.phase
      exact began_reject hbegan (hreason r rfl).1

theorem fresh_step (h : Fresh s k) (hstep : s.step σ a = some (t, fs)) (hother : ∀ args, a ≠ .start args)
    (required : Bool) : Fresh t (fs.foldl (ConsentLog.next σ) k) ∧ (consentRules σ required).AcceptsFrom k fs := by
  have hidle := h.consistent.idle h.started
  obtain ⟨u, es, reason, hact, hrest⟩ := step_cases hstep
  have haccepts : (consentRules σ required).AcceptsFrom k es := by
    cases hact with
    | startsAtOnce => exact absurd rfl (hother _)
    | startsAuthorized hphase => cases hidle.symm.trans hphase
    | closes _ hbefore => exact accepts_closes hbefore
    | outside _ hes => exact accepts_of_no_peer (not_startsPeer_of_otherFrames hes)
    | _ => exact accepts_of_no_peer (by simp)
  have hfresh := fresh_acts h hact hother
  obtain ⟨rfl, rfl, rfl⟩ | ⟨r, rfl, rfl, rfl⟩ := hrest
  · exact ⟨hfresh, haccepts⟩
  · refine ⟨?_, accepts_reject haccepts⟩
    rw [foldl_append]
    refine fresh_reject hfresh ?_
    cases hact with
    | refusesAtOnce => exact absurd rfl (hother _)
    | refuses hphase => exact absurd hphase (by rw [hidle]; simp [StartPhase.waits])
    | outside _ _ hreason => exact (hreason r rfl).1

theorem fresh_start (h : Fresh s k) (hopen : s.closed = false) (args : StartArgs) :
    let r := LinkHostSession.conclude (s.start σ args)
    Began σ args r.1 (r.2.foldl (ConsentLog.next σ) k) ∧
      (consentRules σ args.confirmationRequired).AcceptsFrom k r.2 := by
  have hidle := h.consistent.idle h.started
  have hunready := not_ready_of_phase h.consistent (by simp [hidle]) (by simp [hidle])
  have hcons : ∀ {u es reason}, s.start σ args = (u, es, reason) → Consistent u := fun hgoes =>
    consistent_acts h.consistent (acts_start ⟨h.started, hopen⟩ hgoes)
  obtain ⟨hrequired, hgranted, hcode, hgoes⟩ | ⟨r, hr, hwhy, hgoes⟩ | ⟨hrequired, hoffer, hgoes⟩ :=
    start_cases (σ := σ) args
  · have hdecision : (k.next σ (.sends (.consent args.confirmationCode args.nonce))).decision = none := h.log.2.1
    refine ⟨?_, ?_⟩
    · rw [hgoes]
      refine ⟨hcons hgoes, fun _ => rfl, .inl ⟨.inl rfl, rfl, h.log.2.2, ?_, fun _ => rfl, h.ended⟩⟩
      exact congrArg some hdecision.symm
    · rw [hgoes]
      exact accepts_of_no_peer (by simp [LinkHostSession.conclude])
  · refine ⟨?_, ?_⟩
    · rw [hgoes]
      obtain ⟨-, hdecision, -, -, -⟩ := log_after_reject (σ := σ)
        ({ s with started := true, timerArmed := true, phase := .over } : LinkHostSession) r
      obtain ⟨-, heither, -⟩ := ended_after_reject (σ := σ)
        (s := { s with started := true, timerArmed := true, phase := .over }) r hunready h.ended
      refine ⟨consistent_reject (hcons hgoes) r, fun hasks => ?_, .inr (.inr ⟨(phase_reject _ r).1, ?_⟩)⟩
      · unfold StartArgs.asks at hasks
        simp only [Bool.and_eq_true] at hasks
        obtain ⟨-, hno⟩ | ⟨hno, -⟩ := hwhy
        · exact absurd ⟨hasks.1.2, hasks.2⟩ hno
        · exact absurd hasks.1.1 (by rw [hno]; exact Bool.false_ne_true)
      · refine heither.imp id fun hrefused => ⟨hrefused, .inr ?_⟩
        exact fun hgranted => absurd (hdecision.symm.trans hgranted) (by simp [h.log.2.1])
    · rw [hgoes]
      exact accepts_of_no_peer (not_startsPeer_reject _ r)
  · refine ⟨?_, ?_⟩
    · rw [hgoes]
      refine ⟨hcons hgoes, fun hasks => ?_, .inr (.inl ⟨rfl, fun args' => by simp [LinkHostSession.conclude]⟩)⟩
      unfold StartArgs.asks at hasks
      rw [hrequired] at hasks
      simp at hasks
    · rw [hgoes]
      exact ⟨⟨h.log.2.2.2, fun hyes => absurd hyes (by rw [hrequired]; exact Bool.false_ne_true)⟩, trivial⟩

end Session

end LigamentApps.LinkHost
