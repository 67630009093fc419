import LigamentApps.LinkHost.SessionFrames
import LigamentApps.Machine.Past

/-!
# The answers of a session

A session gives one verdict on its offer, and accepts nothing after it has begun to reject. The runs that keep
to this are those in which nothing rejects the session while its answer is being sent, and no answer of the
peer arrives while a rejection is. -/

namespace LigamentApps.LinkHost

open List Option Bool

/-- The frame is the verdict that accepts the offer. -/
def HostFrame.isAcceptance : HostFrame → Bool
  | .accepts _ _ => true
  | _ => false

/-- The frame is the verdict that refuses the offer. -/
def HostFrame.isRefusal : HostFrame → Bool
  | .refuses _ => true
  | _ => false

/-- The frame rejects the offer, or ends the session. -/
def HostFrame.isEnding : HostFrame → Bool
  | .refuses _ | .terminates _ => true
  | _ => false

/-- A frame of this kind has begun to be sent. -/
def Sent (kind : HostFrame → Bool) (es : List SessionEvent) : Prop := ∃ f, .sends f ∈ es ∧ kind f = true

/-- What may be sent after other events: a verdict that accepts, if there is none and no rejection; an answer
to a later offer, if there is no rejection; a verdict that refuses, if there is none. -/
def Allowed (before : List SessionEvent) : SessionEvent → Prop
  | .sends (.accepts _ _) => ¬ Sent HostFrame.isAcceptance before ∧ ¬ Sent HostFrame.isEnding before
  | .sends (.renegotiates _) => ¬ Sent HostFrame.isEnding before
  | .sends (.refuses _) => ¬ Sent HostFrame.isAcceptance before ∧ ¬ Sent HostFrame.isRefusal before
  | _ => True

/-- The code of an action calls `_reject`. -/
def LinkHostSession.rejects (σ : SessionSetup) (s : LinkHostSession) (a : SessionAction) : Bool :=
  (s.act σ a).any fun d => d.2.2.isSome

/-- An answer of the peer arrives that is one to be sent. -/
def SessionAction.answers : SessionAction → Bool
  | .peerStarts (.answer sdp) | .renegotiated (some sdp) => sdpOk sdp
  | _ => false

/-- In a session that is open, nothing rejects it while its answer is being sent, and no answer of the peer
arrives while a rejection is. -/
def Orderly (σ : SessionSetup) (s : LinkHostSession) (a : SessionAction) : Prop :=
  s.closed = false → (s.phase = .answerSend → s.rejecting = .no → s.rejects σ a = false) ∧
    (s.rejecting ≠ .no → a.answers = false)

/-! ## What has been sent -/

section Sent

variable {kind : HostFrame → Bool} {es fs : List SessionEvent}

theorem sent_append : Sent kind (es ++ fs) ↔ Sent kind es ∨ Sent kind fs := by
  constructor
  · rintro ⟨f, hf, hkind⟩
    obtain hf | hf := mem_append.mp hf
    · exact .inl ⟨f, hf, hkind⟩
    · exact .inr ⟨f, hf, hkind⟩
  · rintro (⟨f, hf, hkind⟩ | ⟨f, hf, hkind⟩)
    · exact ⟨f, mem_append_left _ hf, hkind⟩
    · exact ⟨f, mem_append_right _ hf, hkind⟩

theorem not_sent_nil : ¬ Sent kind [] := fun ⟨_, hf, _⟩ => absurd hf (by simp)

theorem sent_frame {f : HostFrame} : Sent kind [.sends f] ↔ kind f = true := by
  constructor
  · rintro ⟨g, hg, hkind⟩
    obtain rfl : g = f := by simpa using hg
    exact hkind
  · exact fun hkind => ⟨f, mem_singleton.mpr rfl, hkind⟩

theorem not_sent_of_none (h : ∀ f, .sends f ∉ es) : ¬ Sent kind es := fun ⟨f, hf, _⟩ => h f hf

theorem ending_of_refusal (h : Sent HostFrame.isRefusal es) : Sent HostFrame.isEnding es := by
  obtain ⟨f, hf, hkind⟩ := h
  refine ⟨f, hf, ?_⟩
  cases f <;> first | rfl | simp [HostFrame.isRefusal] at hkind

end Sent

/-! ## The state and what has been sent -/

section Session

variable {σ : SessionSetup} {s t : LinkHostSession} {a : SessionAction} {es fs : List SessionEvent}
  {reason : Option String}

structure Remembers (s : LinkHostSession) (es : List SessionEvent) : Prop where
  consistent : Consistent s
  rejecting : Sent HostFrame.isEnding es → s.rejecting ≠ .no
  /-- A rejection that goes on has sent its frame, and one that is done has closed the session. -/
  ending : s.closed = false → s.rejecting ≠ .no → Sent HostFrame.isEnding es
  accepted : Sent HostFrame.isAcceptance es →
    s.phase = .answerSend ∨ s.phase = .over ∨ ∃ candidates, s.phase = .applying candidates
  answering : s.phase = .answerSend → Sent HostFrame.isAcceptance es

/-- An answer has made the session ready, or is being sent, unless something went wrong. -/
def Readied (s : LinkHostSession) (es : List SessionEvent) : Prop :=
  Sent HostFrame.isAcceptance es → s.ready = false → s.closed = false → s.rejecting = .no → s.phase = .answerSend

theorem remembers_fresh : Remembers {} [] where
  consistent := ⟨fun _ => rfl, nofun⟩
  rejecting h := absurd h not_sent_nil
  ending _ h := absurd rfl h
  accepted h := absurd h not_sent_nil
  answering h := absurd h (by simp)

theorem Remembers.silent (h : Remembers s es) (hsilent : ∀ f, .sends f ∉ fs) : Remembers s (es ++ fs) := by
  have hsame : ∀ kind, Sent kind (es ++ fs) ↔ Sent kind es := fun kind =>
    sent_append.trans (or_iff_left (not_sent_of_none hsilent))
  exact {
    consistent := h.consistent
    rejecting := by rw [hsame]; exact h.rejecting
    ending := by rw [hsame]; exact h.ending
    accepted := by rw [hsame]; exact h.accepted
    answering := by rw [hsame]; exact h.answering }

theorem Remembers.neutral (h : Remembers s es) {f : HostFrame} (haccept : f.isAcceptance = false)
    (hend : f.isEnding = false) : Remembers s (es ++ [.sends f]) := by
  have hacc : Sent HostFrame.isAcceptance (es ++ [.sends f]) ↔ Sent HostFrame.isAcceptance es :=
    sent_append.trans (or_iff_left fun h => absurd (sent_frame.mp h) (by rw [haccept]; exact Bool.false_ne_true))
  have hending : Sent HostFrame.isEnding (es ++ [.sends f]) ↔ Sent HostFrame.isEnding es :=
    sent_append.trans (or_iff_left fun h => absurd (sent_frame.mp h) (by rw [hend]; exact Bool.false_ne_true))
  exact {
    consistent := h.consistent
    rejecting := by rw [hending]; exact h.rejecting
    ending := by rw [hending]; exact h.ending
    accepted := by rw [hacc]; exact h.accepted
    answering := by rw [hacc]; exact h.answering }

theorem Remembers.shut (h : Remembers s es) : Remembers s.shut es := by
  unfold LinkHostSession.shut
  split
  · exact h
  · exact {
      consistent := ⟨h.consistent.idle, h.consistent.ready⟩
      rejecting := h.rejecting
      ending := nofun
      accepted := h.accepted
      answering := h.answering }

theorem Remembers.unaccepted (h : Remembers s es) (hphase : s.phase ≠ .answerSend) (hover : s.phase ≠ .over)
    (happlying : ∀ candidates, s.phase ≠ .applying candidates) : ¬ Sent HostFrame.isAcceptance es := by
  intro hsent
  obtain hwhere | hwhere | ⟨candidates, hwhere⟩ := h.accepted hsent
  · exact hphase hwhere
  · exact hover hwhere
  · exact happlying candidates hwhere

theorem Remembers.moves (h : Remembers s es) (hnone : ¬ Sent HostFrame.isAcceptance es) (hcons : Consistent t)
    (hclosed : t.closed = s.closed) (hrejecting : t.rejecting = s.rejecting) (hphase : t.phase ≠ .answerSend) :
    Remembers t es where
  consistent := hcons
  rejecting := by rw [hrejecting]; exact h.rejecting
  ending := by rw [hclosed, hrejecting]; exact h.ending
  accepted hsent := absurd hsent hnone
  answering hwhere := absurd hwhere hphase

theorem Remembers.reject (h : Remembers s es) (r : String) :
    Remembers (s.reject r).1 (es ++ (s.reject r).2) ∧ (s.reject r).1.rejecting ≠ .no := by
  unfold LinkHostSession.reject
  split
  · unfold LinkHostSession.rejectOnce
    split
    · rename_i hclosed
      refine ⟨.silent ?_ nofun, by simp⟩
      exact {
        consistent := ⟨h.consistent.idle, h.consistent.ready⟩
        rejecting := fun _ => by simp
        ending := fun hopen => absurd hclosed (by simpa using hopen)
        accepted := h.accepted
        answering := h.answering }
    · rename_i hopen
      have hsends : ∀ f : HostFrame, f.isEnding = true → f.isAcceptance = false →
          Remembers ({ s with rejecting := .sending } : LinkHostSession) (es ++ [.sends f]) := by
        intro f hend haccept
        have hacc : Sent HostFrame.isAcceptance (es ++ [.sends f]) ↔ Sent HostFrame.isAcceptance es :=
          sent_append.trans (or_iff_left fun h => absurd (sent_frame.mp h)
            (by rw [haccept]; exact Bool.false_ne_true))
        exact {
          consistent := ⟨h.consistent.idle, h.consistent.ready⟩
          rejecting := fun _ => by simp
          ending := fun _ _ => sent_append.mpr (.inr (sent_frame.mpr hend))
          accepted := by rw [hacc]; exact h.accepted
          answering := by rw [hacc]; exact h.answering }
      split
      · split
        · have hdone : (({ s with rejecting := .done } : LinkHostSession).shut) =
              { s with rejecting := .done, closed := true, timerArmed := false, pendingCandidates := [] } :=
                if_neg hopen
          rw [hdone]
          refine ⟨.silent ?_ nofun, by simp⟩
          exact {
            consistent := ⟨h.consistent.idle, h.consistent.ready⟩
            rejecting := fun _ => by simp
            ending := nofun
            accepted := h.accepted
            answering := h.answering }
        · exact ⟨hsends _ rfl rfl, by simp⟩
      · exact ⟨hsends _ rfl rfl, by simp⟩
  · rename_i hlater
    exact ⟨h.silent nofun, hlater⟩

theorem silent_receives (hes : OtherFrames σ es) (f : HostFrame) : .sends f ∉ es := fun hf => by
  obtain ⟨frame, hframe, -⟩ := hes _ hf
  simp at hframe

/-- The state remembers what was sent, through every step. -/
theorem remembers_acts (h : Remembers s es) (hact : Acts σ s a t fs reason) : Remembers t (es ++ fs) := by
  have hcons := consistent_acts h.consistent hact
  have hfresh : s.started = false ∧ s.closed = false → ¬ Sent HostFrame.isAcceptance es := fun hnew => by
    have hidle := h.consistent.idle hnew.1
    exact h.unaccepted (by simp [hidle]) (by simp [hidle]) (by simp [hidle])
  cases hact with
  | asks hnew =>
    exact (h.moves (hfresh hnew) hcons rfl rfl (by simp)).neutral rfl rfl
  | refusesAtOnce hnew | startsAtOnce hnew =>
    exact (h.moves (hfresh hnew) hcons rfl rfl (by simp)).silent nofun
  | asked hphase | startsAuthorized hphase =>
    have hnone := h.unaccepted (by simp [hphase]) (by simp [hphase]) (by simp [hphase])
    exact (h.moves hnone hcons rfl rfl (by simp)).silent nofun
  -- the acceptance goes out: nothing of the kind was sent before
  | @accepts args sdp hphase hopen hsdp =>
    have hending : Sent HostFrame.isEnding (es ++ [.sends (.accepts args.consentGranted sdp)]) ↔
        Sent HostFrame.isEnding es :=
      sent_append.trans (or_iff_left fun hsent => absurd (sent_frame.mp hsent) (by simp [HostFrame.isEnding]))
    exact {
      consistent := hcons
      rejecting := by rw [hending]; exact h.rejecting
      ending := by rw [hending]; exact h.ending
      accepted := fun _ => .inl rfl
      answering := fun _ => sent_append.mpr (.inr (sent_frame.mpr rfl)) }
  -- the candidates that waited for the answer are applied
  | readied =>
    rw [append_nil]
    have hwhere : ∀ u : LinkHostSession, (u.apply s.pendingCandidates).phase ≠ .answerSend ∧
        ((u.apply s.pendingCandidates).phase = .over ∨
          ∃ candidates, (u.apply s.pendingCandidates).phase = .applying candidates) := fun u => by
      unfold LinkHostSession.apply
      split
      · exact ⟨by simp, .inl rfl⟩
      · exact ⟨by simp, .inr ⟨_, rfl⟩⟩
    have hkept : ∀ u : LinkHostSession, (u.apply s.pendingCandidates).closed = u.closed ∧
        (u.apply s.pendingCandidates).rejecting = u.rejecting := fun u => by
      unfold LinkHostSession.apply
      split
      · exact ⟨rfl, rfl⟩
      · exact ⟨rfl, rfl⟩
    exact {
      consistent := hcons
      rejecting := by rw [(hkept _).2]; exact h.rejecting
      ending := by rw [(hkept _).1, (hkept _).2]; exact h.ending
      accepted := fun _ => .inr (hwhere _).2
      answering := fun hsame => absurd hsame (hwhere _).1 }
  | @applied candidates hphase =>
    rw [append_nil]
    unfold LinkHostSession.apply at hcons ⊢
    split
    · rename_i hempty
      rw [if_pos hempty] at hcons
      exact ⟨hcons, h.rejecting, h.ending, fun _ => .inr (.inl rfl), nofun⟩
    · rename_i hmore
      rw [if_neg hmore] at hcons
      exact ⟨hcons, h.rejecting, h.ending, fun _ => .inr (.inr ⟨_, rfl⟩), nofun⟩
  | refuses | abandons =>
    rw [append_nil]
    exact ⟨hcons, h.rejecting, h.ending, fun _ => .inr (.inl rfl), nofun⟩
  | decides =>
    refine .silent ?_ nofun
    unfold LinkHostSession.decide at hcons ⊢
    split
    · rename_i hmatch
      rw [if_pos hmatch] at hcons
      exact ⟨hcons, h.rejecting, h.ending, h.accepted, h.answering⟩
    · exact h
  | closes _ hbefore =>
    refine h.shut.silent fun f hf => ?_
    obtain hf | hf := mem_append.mp hf
    · exact silent_receives hbefore f hf
    · split at hf
      · simp at hf
      · simp at hf
  | renegotiates | candidate =>
    exact Remembers.neutral ⟨hcons, h.rejecting, h.ending, h.accepted, h.answering⟩ rfl rfl
  | rejected hsending =>
    rw [append_nil]
    unfold LinkHostSession.shut at hcons ⊢
    split
    · rename_i hclosed
      rw [if_pos hclosed] at hcons
      exact ⟨hcons, fun _ => by simp, fun hopen => absurd hclosed (by simpa using hopen), h.accepted, h.answering⟩
    · rename_i hopen
      rw [if_neg hopen] at hcons
      exact ⟨hcons, fun _ => by simp, nofun, h.accepted, h.answering⟩
  | outside hsame hes =>
    refine .silent ?_ (silent_receives hes)
    exact {
      consistent := hcons
      rejecting := by rw [hsame.rejecting]; exact h.rejecting
      ending := by rw [hsame.closed, hsame.rejecting]; exact h.ending
      accepted := by rw [hsame.phase]; exact h.accepted
      answering := by rw [hsame.phase]; exact h.answering }

theorem act_answers (h : s.act σ a = some (t, fs, reason)) (hopen : s.closed = false)
    (hanswers : a.answers = true) :
    ∃ f, fs = [.sends f] ∧ ((∃ granted sdp, f = .accepts granted sdp) ∨ ∃ sdp, f = .renegotiates sdp) := by
  unfold SessionAction.answers at hanswers
  split at hanswers
  · unfold LinkHostSession.act LinkHostSession.peerResult at h
    dsimp only at h
    split at h
    · rw [if_neg (by rw [hopen]; exact Bool.false_ne_true), hanswers] at h
      cases h
      exact ⟨_, rfl, .inl ⟨_, _, rfl⟩⟩
    · simp at h
  · unfold LinkHostSession.act at h
    dsimp only at h
    split at h
    · simp at h
    · rw [filter_some, if_pos (by rw [hopen, hanswers]; rfl)] at h
      cases h
      exact ⟨_, rfl, .inr ⟨_, rfl⟩⟩
  · cases hanswers

theorem allowed_of_silent (hsilent : ∀ f, .sends f ∉ fs) :
    EachAfter (fun before e => Allowed (es ++ before) e) fs := by
  rintro fs₁ e fs₂ rfl
  cases e with
  | sends f => exact absurd (mem_append_right fs₁ mem_cons_self) (hsilent f)
  | _ => exact trivial

theorem allowed_one {e : SessionEvent} : EachAfter (fun before e => Allowed (es ++ before) e) [e] ↔
    Allowed es e := by
  rw [eachAfter_singleton, append_nil]

theorem allowed_of_acts (h : Remembers s es) (hact : Acts σ s a t fs reason)
    (hlate : s.closed = false → s.rejecting ≠ .no → a.answers = false) :
    EachAfter (fun before e => Allowed (es ++ before) e) fs := by
  have hending : s.closed = false → a.answers = true → ¬ Sent HostFrame.isEnding es :=
      fun hopen hanswers hsent => by
    have hno := hlate hopen (h.rejecting hsent)
    exact absurd hanswers (by rw [hno]; exact Bool.false_ne_true)
  cases hact with
  | asks | candidate => exact allowed_one.mpr trivial
  | accepts hphase hopen hsdp =>
    have hnone := h.unaccepted (by simp [hphase]) (by simp [hphase]) (by simp [hphase])
    exact allowed_one.mpr ⟨hnone, hending hopen hsdp⟩
  | renegotiates hopen hsdp => exact allowed_one.mpr (hending hopen hsdp)
  | closes _ hbefore =>
    refine allowed_of_silent fun f hf => ?_
    obtain hf | hf := mem_append.mp hf
    · exact silent_receives hbefore f hf
    · split at hf
      · simp at hf
      · simp at hf
  | outside _ hes => exact allowed_of_silent (silent_receives hes)
  | _ => exact allowed_of_silent nofun

theorem late_of_allowed (h : Remembers s es) (hact : s.act σ a = some (t, fs, reason))
    (hallowed : EachAfter (fun before e => Allowed (es ++ before) e) fs) (hopen : s.closed = false)
    (hrejecting : s.rejecting ≠ .no) : a.answers = false := by
  rw [← not_eq_true]
  intro hanswers
  have hsent := h.ending hopen hrejecting
  obtain ⟨f, rfl, ⟨granted, sdp, rfl⟩ | ⟨sdp, rfl⟩⟩ := act_answers hact hopen hanswers
  · exact (allowed_one.mp hallowed).2 hsent
  · exact allowed_one.mp hallowed hsent

theorem acts_before_reject {r : String} (hact : Acts σ s a t fs (some r)) :
    t.ready = s.ready ∧ t.closed = s.closed ∧ t.rejecting = s.rejecting ∧ ∀ f, .sends f ∉ fs := by
  cases hact with
  | refusesAtOnce | refuses => exact ⟨rfl, rfl, rfl, nofun⟩
  | outside hsame hes => exact ⟨hsame.ready, hsame.closed, hsame.rejecting, silent_receives hes⟩

theorem reject_unready {r : String} (hready : s.ready = false) (hopen : s.closed = false)
    (hfirst : s.rejecting = .no) : (s.reject r).2 = [.sends (.refuses r)] := by
  unfold LinkHostSession.reject LinkHostSession.rejectOnce
  rw [if_pos hfirst, if_neg (by rw [hopen]; exact Bool.false_ne_true),
    if_neg (by rw [hready]; exact Bool.false_ne_true)]

theorem reject_events (r : String) : (∀ f, .sends f ∉ (s.reject r).2) ∨
    (s.reject r).2 = [.sends (.terminates r)] ∨ s.ready = false ∧ s.closed = false ∧ s.rejecting = .no := by
  unfold LinkHostSession.reject
  split
  · rename_i hfirst
    unfold LinkHostSession.rejectOnce
    split
    · exact .inl nofun
    · rename_i hopen
      split
      · split
        · exact .inl nofun
        · exact .inr (.inl rfl)
      · rename_i hready
        exact .inr (.inr ⟨not_eq_true _ ▸ hready, not_eq_true _ ▸ hopen, hfirst⟩)
  · exact .inl nofun

theorem allowed_reject_iff {r : String} (h : Remembers s es) (hr : Readied s es) (hact : Acts σ s a t fs (some r)) :
    EachAfter (fun before e => Allowed (es ++ fs ++ before) e) (t.reject r).2 ↔
      ¬ (s.closed = false ∧ s.phase = .answerSend ∧ s.rejecting = .no) := by
  obtain ⟨hready, hclosed, hrejecting, hsilent⟩ := acts_before_reject hact
  have hsame : ∀ kind, Sent kind (es ++ fs) ↔ Sent kind es := fun kind =>
    sent_append.trans (or_iff_left (not_sent_of_none hsilent))
  constructor
  · rintro hallowed ⟨hopen, hphase, hfirst⟩
    have hunready := not_ready_of_phase h.consistent (by simp [hphase]) (by simp [hphase])
    rw [reject_unready (hready.trans hunready) (hclosed.trans hopen) (hrejecting.trans hfirst)] at hallowed
    exact (allowed_one.mp hallowed).1 ((hsame _).mpr (h.answering hphase))
  · intro hnot
    obtain hnone | hends | ⟨hunready, hopen, hfirst⟩ := reject_events r
    · exact allowed_of_silent hnone
    · rw [hends]
      exact allowed_one.mpr trivial
    · rw [reject_unready hunready hopen hfirst]
      refine allowed_one.mpr ⟨fun haccepted => ?_, fun hrefused => ?_⟩
      · -- an answer that is neither being sent nor has made the session ready
        have hphase := hr ((hsame _).mp haccepted) (hready ▸ hunready) (hclosed ▸ hopen) (hrejecting ▸ hfirst)
        exact hnot ⟨hclosed ▸ hopen, hphase, hrejecting ▸ hfirst⟩
      · exact h.rejecting (ending_of_refusal ((hsame _).mp hrefused)) (hrejecting ▸ hfirst)

theorem readied_acts (h : Remembers s es) (hr : Readied s es) (hact : Acts σ s a t fs none) :
    Readied t (es ++ fs) := by
  have hkept : (∀ f, .sends f ∉ fs) → ∀ {u : LinkHostSession}, u.phase = s.phase → u.ready = s.ready →
      u.closed = s.closed → u.rejecting = s.rejecting → Readied u (es ++ fs) := by
    intro hsilent u hphase hready hclosed hrejecting hsent
    have hbefore := (sent_append.mp hsent).resolve_right (not_sent_of_none hsilent)
    rw [hphase, hready, hclosed, hrejecting]
    exact hr hbefore
  have hneutral : ∀ {f : HostFrame}, fs = [.sends f] → f.isAcceptance = false →
      Sent HostFrame.isAcceptance (es ++ fs) → Sent HostFrame.isAcceptance es := by
    rintro f rfl hf hsent
    refine (sent_append.mp hsent).resolve_right fun h => ?_
    exact absurd (sent_frame.mp h) (by rw [hf]; exact Bool.false_ne_true)
  have hunsent : ¬ Sent HostFrame.isAcceptance es → (∀ f, .sends f ∉ fs) → ∀ u : LinkHostSession,
    Readied u (es ++ fs) :=
    fun hnone hsilent u hsent => absurd ((sent_append.mp hsent).resolve_right (not_sent_of_none hsilent)) hnone
  have hclosedAll : ∀ u : LinkHostSession, u.closed = true → Readied u (es ++ fs) := fun u hu _ _ hopen =>
    absurd hu (by rw [hopen]; exact Bool.false_ne_true)
  cases hact with
  | asks hnew =>
    have hidle := h.consistent.idle hnew.1
    intro hsent
    exact absurd (hneutral rfl rfl hsent) (h.unaccepted (by simp [hidle]) (by simp [hidle]) (by simp [hidle]))
  | startsAtOnce hnew =>
    have hidle := h.consistent.idle hnew.1
    exact hunsent (h.unaccepted (by simp [hidle]) (by simp [hidle]) (by simp [hidle]))
      nofun _
  | asked hphase | startsAuthorized hphase =>
    exact hunsent (h.unaccepted (by simp [hphase]) (by simp [hphase]) (by simp [hphase]))
      nofun _
  | accepts => exact fun _ _ _ _ => rfl
  | readied =>
    intro _ hready
    refine absurd hready ?_
    unfold LinkHostSession.apply
    split
    · simp
    · simp
  | applied hphase =>
    intro hsent hready hopen hfirst
    have hsent' := (sent_append.mp hsent).resolve_right not_sent_nil
    have hbefore : s.phase = .answerSend := by
      refine hr hsent' ?_ ?_ ?_
      all_goals
        unfold LinkHostSession.apply at hready hopen hfirst
        split at hready
        all_goals
          rename_i hcase
          simp only [hcase] at hopen hfirst
          assumption
    simp [hphase] at hbefore
  | abandons _ hclosed => exact hclosedAll _ hclosed
  | decides =>
    refine hkept nofun ?_ ?_ ?_ ?_
    all_goals
      unfold LinkHostSession.decide
      split
      · rfl
      · rfl
  | closes before hbefore | rejected hsending =>
    refine hclosedAll _ ?_
    unfold LinkHostSession.shut
    split
    · assumption
    · rfl
  | renegotiates | candidate =>
    intro hsent hready hopen hfirst
    exact hr (hneutral rfl rfl hsent) hready hopen hfirst
  | outside hsame hes => exact hkept (silent_receives hes) hsame.phase hsame.ready hsame.closed hsame.rejecting

theorem allowed_step_iff (h : Remembers s es) (hr : Readied s es) (hstep : s.step σ a = some (t, fs)) :
    (Remembers t (es ++ fs) ∧ Readied t (es ++ fs)) ∧
      (EachAfter (fun before e => Allowed (es ++ before) e) fs ↔ Orderly σ s a) := by
  obtain ⟨⟨u, us, reason⟩, hact, hstep⟩ := map_eq_some_iff.mp hstep
  have hacts := acts_of_act hact
  have hrejects : s.rejects σ a = reason.isSome := by
    unfold LinkHostSession.rejects
    rw [hact]
    rfl
  unfold Orderly
  rw [hrejects]
  cases reason with
  | none =>
    cases hstep
    refine ⟨⟨remembers_acts h hacts, readied_acts h hr hacts⟩, ?_⟩
    constructor
    · exact fun hallowed hopen => ⟨fun _ _ => rfl, late_of_allowed h hact hallowed hopen⟩
    · exact fun horderly => allowed_of_acts h hacts fun hopen => (horderly hopen).2
  | some r =>
    cases hstep
    have hrec := (remembers_acts h hacts).reject r
    rw [append_assoc] at hrec
    refine ⟨⟨hrec.1, fun _ _ _ hfirst => absurd hfirst hrec.2⟩, ?_⟩
    have hrejection := allowed_reject_iff h hr hacts
    simp only [append_assoc] at hrejection
    rw [eachAfter_append_iff, hrejection]
    constructor
    · rintro ⟨hallowed, hnot⟩ hopen
      refine ⟨fun hphase hfirst => absurd ⟨hopen, hphase, hfirst⟩ hnot, late_of_allowed h hact hallowed hopen⟩
    · intro horderly
      refine ⟨allowed_of_acts h hacts fun hopen => (horderly hopen).2, ?_⟩
      rintro ⟨hopen, hphase, hfirst⟩
      exact absurd ((horderly hopen).1 hphase hfirst) (by simp)

end Session

/-- In a run of a session, everything that it sends is allowed exactly when every step is orderly. -/
theorem answers_allowed_iff {σ : SessionSetup} {t : LinkHostSession} {as : List SessionAction} {es : List SessionEvent}
    (hrun : (linkHostSession σ).Path {} as t es) :
    EachAfter Allowed es ↔ (linkHostSession σ).Every (fun s _ a => Orderly σ s a) {} [] as := by
  have hnone : Readied {} [] := fun h => absurd h not_sent_nil
  have hiff := hrun.eachAfter_iff (fun s es => Remembers s es ∧ Readied s es)
    (fun _ _ _ _ _ hinv hstep => allowed_step_iff hinv.1 hinv.2 hstep) [] ⟨remembers_fresh, hnone⟩
  exact hiff

/-! ### Two sessions -/

/-- A step that is orderly, as far as it can be evaluated. -/
def orderlyStep (σ : SessionSetup) (s : LinkHostSession) (a : SessionAction) : Bool :=
  s.closed || (if s.rejecting = .no then
    match s.phase with
    | .answerSend => !s.rejects σ a
    | _ => true
    else !a.answers)

theorem orderly_of_orderlyStep {σ : SessionSetup} {s : LinkHostSession} {a : SessionAction}
    (h : orderlyStep σ s a = true) : Orderly σ s a := by
  intro hopen
  unfold orderlyStep at h
  rw [hopen, Bool.false_or] at h
  constructor
  · intro hphase hfirst
    rw [if_pos hfirst, hphase] at h
    exact not_eq_true' .. ▸ h
  · intro hrejecting
    rw [if_neg hrejecting] at h
    exact not_eq_true' .. ▸ h

def laterOffer : Json :=
  .obj [("type", .str "signal"), ("session_id", .str viewSession.sessionId),
    ("signal", .obj [("type", .str "offer"), ("sdp", .str "v=0")])]

/-- A session that becomes ready, answers a later offer and is disconnected keeps to the protocol. -/
theorem answers_allowed_sample : ∃ t es,
    (linkHostSession viewSession).Path {} (becomesReady ++ [.receive laterOffer, .renegotiated (some "v=0"),
      .reject .localDisconnect, .rejectSent]) t es ∧ es.length = 5 ∧ EachAfter Allowed es := by
  have hexec : ∃ e ∈ (linkHostSession viewSession).exec (fun s _ a => orderlyStep viewSession s a) {} []
      (becomesReady ++ [.receive laterOffer, .renegotiated (some "v=0"), .reject .localDisconnect, .rejectSent]),
      e.2.length = 5 := by
    decide +kernel
  obtain ⟨⟨t, es⟩, hexec, hlength⟩ := hexec
  obtain ⟨gs, rfl, hpath⟩ := Machine.path_of_exec _ hexec
  exact ⟨t, es, hpath, hlength, (answers_allowed_iff hpath).mpr
    (Machine.every_of_exec (fun _ _ _ => orderly_of_orderlyStep) _ hexec)⟩

/-- At last a session that was accepted is refused. -/
def refusesAccepted : List SessionEvent → Bool
  | [_, .sends (.accepts _ _), .sends (.refuses _)] => true
  | _ => false

/-- A session whose answer is still being sent when its time is over refuses the offer that it has
accepted. -/
theorem accepted_session_refused : ∃ t es, (linkHostSession viewSession).Path {}
    [.start ⟨"m=video 9", 0, false, false, "", ""⟩, .peerStarts (.answer "v=0"), .readyTimeout] t es ∧
    ¬ EachAfter Allowed es := by
  have hexec : ∃ e ∈ (linkHostSession viewSession).exec (fun _ _ _ => true) {} []
      [.start ⟨"m=video 9", 0, false, false, "", ""⟩, .peerStarts (.answer "v=0"), .readyTimeout],
      refusesAccepted e.2 = true := by
    decide +kernel
  obtain ⟨⟨t, es⟩, hexec, hsent⟩ := hexec
  obtain ⟨gs, rfl, hpath⟩ := Machine.path_of_exec _ hexec
  refine ⟨t, es, hpath, fun hall => ?_⟩
  unfold refusesAccepted at hsent
  split at hsent
  · rename_i first granted sdp reason hes
    have hlast := hall [first, .sends (.accepts granted sdp)] _ [] hes
    exact hlast.1 ⟨_, mem_cons_of_mem _ mem_cons_self, rfl⟩
  · cases hsent

end LigamentApps.LinkHost
