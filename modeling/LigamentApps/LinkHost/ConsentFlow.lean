import LigamentApps.LinkHost.ConsentLog
import LigamentApps.LinkHost.LinkHostWorker
import LigamentApps.LinkHost.OfferAgreement

/-!
# The consent of the local user

In every run of a worker, the media peer starts once, and where the offer asks for the consent, only after the
decision that grants it. Whether every code that the user may enter is sent to the server and leads to the
start of the media is a matter of the offer: of its number of digits, and of its SDP. -/

namespace LigamentApps.LinkHost

open List Option

variable {code : String} {args : StartArgs} (ui : LinkHostWorkerState) (gs : List SessionEvent)

def sessionEvents (es : List WorkerEvent) : List SessionEvent :=
  es.filterMap fun
    | .session e => some e
    | .approves _ => none

/-- The log of a worker's run. -/
def consentLog (o : HostOffer) (es : List WorkerEvent) : ConsentLog :=
  (consentRules o.setup o.attended).after (sessionEvents es)

/-- The way of the consent in a run: the rules of the peer are kept; a code that was taken is sent to the
server, and a decision that grants the consent starts the media, unless something else has ended the session
or the code that does so is still to go on. -/
structure ConsentFlow (o : HostOffer) (w : HostWorker) (es : List WorkerEvent) : Prop where
  rules : (consentRules o.setup o.attended).Accepts (sessionEvents es)
  sent : ∀ code, .approves code ∈ es →
    (consentLog o es).ended = true ∨ (∃ nonce, (consentLog o es).asked = some (code, nonce)) ∨
      ∀ nonce, (w.step o (.consentEnds false nonce)).isSome = true
  starts : o.attended = true → (consentLog o es).decision = some true →
    (consentLog o es).ended = true ∨ (consentLog o es).peer = true ∨
      (∃ args, w.session.phase = .consentSend args) ∨ (w.step o (.session (.authorizationEnds false))).isSome = true

section Worker

variable {o : HostOffer} {w w' : HostWorker} {es fs : List WorkerEvent}

theorem sessionEvents_append (es fs : List WorkerEvent) :
    sessionEvents (es ++ fs) = sessionEvents es ++ sessionEvents fs := filterMap_append

theorem sessionEvents_session : sessionEvents (gs.map .session) = gs := by
  unfold sessionEvents
  rw [filterMap_map]
  exact filterMap_some

theorem consentLog_append (es fs : List WorkerEvent) :
    consentLog o (es ++ fs) = (sessionEvents fs).foldl (ConsentLog.next o.setup) (consentLog o es) := by
  unfold consentLog
  rw [sessionEvents_append, Monitor.after_append]
  rfl

theorem approves_append_session {gs : List SessionEvent} :
    .approves code ∈ es ++ gs.map .session ↔ .approves code ∈ es := by
  simp

/-- The user has approved with this code, and nothing has come between. -/
structure Approved (o : HostOffer) (ui : LinkHostWorkerState) (ended : Bool) (code : String) : Prop where
  consent : ui.consent = some (some true)
  entered : ui.confirmationCode = code
  ok : approveCodeOk code = true ∧ (code.length : ℤ) = o.confirmationDigits
  goes : ended = true ∨ ui.phase ≠ .closing ∧ ui.phase ≠ .awaitingConsent

/-- The arguments with which a worker has started its session. -/
structure StartedWith (o : HostOffer) (args : StartArgs) (es : List WorkerEvent) : Prop where
  required : args.confirmationRequired = o.attended
  offer : args.offerSdp = o.sdp ∧ args.iceServers = o.iceServers
  approved : ∀ code, .approves code ∈ es → o.attended = true ∧ args.consentGranted = true ∧
    args.confirmationCode = code ∧
    approveCodeOk code = true ∧ (code.length : ℤ) = o.confirmationDigits

structure AwaitsConsent (o : HostOffer) (w : HostWorker) (answer : Option Bool) (es : List WorkerEvent) : Prop where
  attended : o.attended = true
  fresh : Fresh w.session (consentLog o es)
  digits : w.ui.confirmationDigits = o.confirmationDigits
  asking : w.ui.consent = some none → w.ui.phase = .awaitingConsent
  answer : ∀ granted, answer = some granted → granted = false ∧ w.ui.consent = none
  approved : ∀ code, .approves code ∈ es → Approved o w.ui (consentLog o es).ended code

/-- What holds of a worker, by where it is. -/
def WorkerOk (o : HostOffer) (w : HostWorker) (es : List WorkerEvent) : Prop :=
  match w.main with
  | .begins => Fresh w.session (consentLog o es) ∧ w.session.closed = false ∧ w.session.rejecting = .no ∧
      w.ui.consent = none ∧ ∀ code, .approves code ∉ es
  | .consent answer => AwaitsConsent o w answer es
  | .decided =>
    Fresh w.session (consentLog o es) ∧ (consentLog o es).ended = true ∨
      w.ui.consent ≠ some none ∧ ∃ args, StartedWith o args es ∧ Began o.setup args w.session (consentLog o es)

/-! ## The steps of the user -/

theorem completeConsent_consent (granted : Bool) : (ui.completeConsent granted).consent ≠ some none ∧
      (ui.completeConsent granted).confirmationCode = ui.confirmationCode ∧
      (ui.completeConsent granted).confirmationDigits = ui.confirmationDigits ∧
      (ui.completeConsent granted).phase = ui.phase ∧
      (ui.consent ≠ some none → (ui.completeConsent granted).consent = ui.consent) ∧
      (ui.consent = some none → (ui.completeConsent granted).consent = some (some granted)) := by
  unfold LinkHostWorkerState.completeConsent
  split
  · rename_i hpending
    exact ⟨by simp, rfl, rfl, rfl, fun hno => absurd hpending hno, fun _ => rfl⟩
  · rename_i hother
    exact ⟨hother, rfl, rfl, rfl, fun _ => rfl, fun hpending => absurd hpending hother⟩

/-- What an action of the user's window leaves of a consent: it is completed, or as it was. -/
structure UiKeeps (ui ui' : LinkHostWorkerState) : Prop where
  digits : ui'.confirmationDigits = ui.confirmationDigits
  asking : (ui.consent = some none → ui.phase = .awaitingConsent) → ui'.consent = some none →
    ui'.phase = .awaitingConsent
  unasked : ui.consent = none → ui'.consent = none
  answered : ui.consent ≠ some none → ui'.consent ≠ some none
  approved : ui.consent = some (some true) → ui'.consent = some (some true) ∧
    ui'.confirmationCode = ui.confirmationCode

/-- An approval that nothing has come between stays one. -/
def UiGoes (ui ui' : LinkHostWorkerState) : Prop :=
  ui.consent = some (some true) → ui.phase ≠ .closing ∧ ui.phase ≠ .awaitingConsent →
    ui'.phase ≠ .closing ∧ ui'.phase ≠ .awaitingConsent

theorem uiKeeps_refl : UiKeeps ui ui := ⟨rfl, id, id, id, fun h => ⟨h, rfl⟩⟩

theorem uiKeeps_denyConsent : UiKeeps ui ui.denyConsent ∧ UiGoes ui ui.denyConsent := by
  unfold LinkHostWorkerState.denyConsent
  split
  · rename_i hasking
    unfold LinkHostWorkerState.asking at hasking
    rw [Bool.and_eq_true, decide_eq_true_eq, decide_eq_true_eq] at hasking
    refine ⟨⟨rfl, nofun, fun h => ?_, fun _ => by simp, fun h => ?_⟩, fun h => ?_⟩
    all_goals exact absurd (hasking.2.symm.trans h) (by simp)
  · exact ⟨uiKeeps_refl ui, fun _ => id⟩

theorem uiKeeps_markConsentUiUnavailable :
    UiKeeps ui ui.markConsentUiUnavailable ∧ UiGoes ui ui.markConsentUiUnavailable := by
  obtain ⟨hdone, hcode, hdigits, hphase, hother, -⟩ :=
    completeConsent_consent ({ ui with consentUiAvailable := false } : LinkHostWorkerState) false
  unfold LinkHostWorkerState.markConsentUiUnavailable
  dsimp only
  split
  · rename_i hawaiting
    refine ⟨⟨hdigits, fun _ h => absurd h hdone, fun h => ?_, fun _ => hdone, fun h => ?_⟩, fun h hgoes => ?_⟩
    · exact (hother (by simp [h])).trans h
    · exact ⟨(hother (by simp [h])).trans h, hcode⟩
    · exact absurd (hphase.symm.trans hawaiting) hgoes.2
  · refine ⟨⟨hdigits, fun _ h => absurd h hdone, fun h => ?_, fun _ => hdone, fun h => ?_⟩, fun h hgoes => ?_⟩
    · exact (hother (by simp [h])).trans h
    · exact ⟨(hother (by simp [h])).trans h, hcode⟩
    · rw [hphase]
      exact hgoes

theorem uiKeeps_requestDisconnect : UiKeeps ui ui.requestDisconnect := by
  obtain ⟨hdone, hcode, hdigits, -, hother, -⟩ := completeConsent_consent ui false
  unfold LinkHostWorkerState.requestDisconnect
  split
  · exact uiKeeps_refl ui
  · refine ⟨hdigits, fun _ h => absurd h hdone, fun h => ?_, fun _ => hdone, fun h => ?_⟩
    · exact (hother (by simp [h])).trans h
    · exact ⟨(hother (by simp [h])).trans h, hcode⟩

theorem uiKeeps_markActive {ui : LinkHostWorkerState} (hdone : ui.consent ≠ some none) :
    UiKeeps ui ui.markActive ∧ UiGoes ui ui.markActive := by
  unfold LinkHostWorkerState.markActive
  split
  · exact ⟨⟨rfl, fun _ h => absurd h hdone, id, id, fun h => ⟨h, rfl⟩⟩, fun _ _ => by simp⟩
  · exact ⟨uiKeeps_refl ui, fun _ => id⟩

theorem Approved.keeps {ui ui' : LinkHostWorkerState} {ended : Bool} (h : Approved o ui ended code)
    (hkeeps : UiKeeps ui ui') {ended' : Bool} (hended : ended = true → ended' = true)
    (hgoes : ended' = true ∨ UiGoes ui ui') : Approved o ui' ended' code := by
  obtain ⟨hconsent, hcode⟩ := hkeeps.approved h.consent
  refine ⟨hconsent, hcode.trans h.entered, h.ok, ?_⟩
  obtain hyes | hgoes := hgoes
  · exact .inl hyes
  · exact h.goes.imp hended (hgoes h.consent)

/-! ## The steps of the worker -/

theorem workerOk_ui (h : WorkerOk o w es) {ui : LinkHostWorkerState} (hkeeps : UiKeeps w.ui ui)
    (hgoes : UiGoes w.ui ui) :
    WorkerOk o { w with ui } es := by
  unfold WorkerOk at h ⊢
  dsimp only
  split at h
  · exact ⟨h.1, h.2.1, h.2.2.1, hkeeps.unasked h.2.2.2.1, h.2.2.2.2⟩
  · exact {
      attended := h.attended
      fresh := h.fresh
      digits := hkeeps.digits.trans h.digits
      asking := hkeeps.asking h.asking
      answer := fun granted hanswer => ⟨(h.answer granted hanswer).1, hkeeps.unasked (h.answer granted hanswer).2⟩
      approved := fun code hcode => (h.approved code hcode).keeps hkeeps id (.inr hgoes) }
  · exact h.imp id fun hbegan => ⟨hkeeps.answered hbegan.1, hbegan.2⟩

theorem workerOk_approve (h : WorkerOk o w es) (code : String) :
    WorkerOk o { w with ui := w.ui.approveConsent code }
      (es ++ if w.ui.takesCode code then [.approves code] else []) := by
  by_cases htakes : w.ui.takesCode code = true
  · unfold LinkHostWorkerState.approveConsent
    rw [if_pos htakes, if_pos htakes]
    unfold LinkHostWorkerState.takesCode LinkHostWorkerState.asking at htakes
    simp only [Bool.and_eq_true, decide_eq_true_eq] at htakes
    obtain ⟨⟨⟨hphase, hpending⟩, hok⟩, hdigits⟩ := htakes
    have hlog : consentLog o (es ++ [.approves code]) = consentLog o es := consentLog_append es _
    have hcodes : ∀ code', .approves code' ∈ es ++ [WorkerEvent.approves code] →
      .approves code' ∈ es ∨ code' = code :=
      fun code' hin => by simpa using hin
    unfold WorkerOk at h ⊢
    dsimp only
    rw [hlog]
    split at h
    · cases h.2.2.2.1.symm.trans hpending
    · refine {
        attended := h.attended
        fresh := by
          rw [hlog]
          exact h.fresh
        digits := h.digits
        asking := nofun
        answer := fun granted hanswer => absurd ((h.answer granted hanswer).2.symm.trans hpending) (by simp)
        approved := fun code' hin => ?_ }
      obtain hin | rfl := hcodes code' hin
      · cases (h.approved code' hin).consent.symm.trans hpending
      · exact ⟨rfl, rfl, ⟨hok, hdigits.trans h.digits⟩, .inr (by simp)⟩
    · obtain hended | ⟨hdone, -⟩ := h
      · exact .inl hended
      · exact absurd hpending hdone
  · unfold LinkHostWorkerState.approveConsent
    rw [if_neg htakes, if_neg htakes, append_nil]
    exact h

theorem log_after_session :
    consentLog o (es ++ gs.map .session) = gs.foldl (ConsentLog.next o.setup) (consentLog o es) := by
  rw [consentLog_append, sessionEvents_session]

theorem StartedWith.append (h : StartedWith o args es) (gs : List SessionEvent) :
    StartedWith o args (es ++ gs.map .session) :=
  ⟨h.required, h.offer, fun code hin => h.approved code (approves_append_session.mp hin)⟩

theorem workerOk_session (h : WorkerOk o w es) {a : SessionAction} {t : LinkHostSession} {gs : List SessionEvent}
    (hstep : w.session.step o.setup a = some (t, gs)) (hother : ∀ args, a ≠ .start args)
    (hmain : w.main ≠ .begins) :
    WorkerOk o { w with session := t } (es ++ gs.map .session) ∧
      (consentRules o.setup o.attended).AcceptsFrom (consentLog o es) gs := by
  have hlog : consentLog o (es ++ gs.map .session) = gs.foldl (ConsentLog.next o.setup) (consentLog o es) :=
    log_after_session gs
  unfold WorkerOk at h ⊢
  dsimp only
  rw [hlog]
  split at h
  · rename_i hbegins
    exact absurd hbegins hmain
  · obtain ⟨hfresh, haccepts⟩ := fresh_step h.fresh hstep hother o.attended
    refine ⟨{
      attended := h.attended
      fresh := by
        rw [hlog]
        exact hfresh
      digits := h.digits
      asking := h.asking
      answer := h.answer
      approved := fun code hin => ?_ }, haccepts⟩
    rw [hlog]
    exact (h.approved code (approves_append_session.mp hin)).keeps (uiKeeps_refl _) ended_after (.inr fun _ => id)
  · obtain ⟨hfresh, hended⟩ | ⟨hdone, args, hargs, hbegan⟩ := h
    · obtain ⟨hfresh', haccepts⟩ := fresh_step hfresh hstep hother o.attended
      exact ⟨.inl ⟨hfresh', ended_after hended⟩, haccepts⟩
    · obtain ⟨hbegan', haccepts⟩ := began_step hbegan hstep hother
      rw [hargs.required] at haccepts
      exact ⟨.inr ⟨hdone, args, hargs.append gs, hbegan'⟩, haccepts⟩

theorem fresh_worker_reject (h : Fresh w.session (consentLog o es)) (call : RejectCall) :
    Fresh (w.reject call).1.session (consentLog o (es ++ (w.reject call).2)) ∧
      (consentLog o (es ++ (w.reject call).2)).ended = true ∧
      (consentRules o.setup o.attended).AcceptsFrom (consentLog o es) (sessionEvents (w.reject call).2) := by
  have hidle := h.consistent.idle h.started
  have hunready := not_ready_of_phase h.consistent (by simp [hidle]) (by simp [hidle])
  have hcall := (reason_of_call call).1
  unfold HostWorker.reject
  rw [log_after_session, sessionEvents_session]
  exact ⟨fresh_reject h hcall, ((ended_after_reject _ hunready h.ended).1 hcall).1,
    accepts_of_no_peer (not_startsPeer_reject _ _)⟩

theorem approves_reject {call : RejectCall} :
    .approves code ∈ es ++ (w.reject call).2 ↔ .approves code ∈ es := approves_append_session

theorem workerOk_proceed (granted : Bool) (nonce : String) (hfresh : Fresh w.session (consentLog o es))
    (happroved : ∀ code, .approves code ∈ es → o.attended = true ∧ Approved o w.ui (consentLog o es).ended code)
    (hdone : granted = true ∨ o.attended = false → w.ui.consent ≠ some none) :
    WorkerOk o (w.proceed o granted nonce).1 (es ++ (w.proceed o granted nonce).2) ∧
      (consentRules o.setup o.attended).AcceptsFrom (consentLog o es)
        (sessionEvents (w.proceed o granted nonce).2) := by
  unfold HostWorker.proceed
  dsimp only
  split
  · split
    · rename_i hclosed
      rw [append_nil]
      exact ⟨.inl ⟨hfresh, hfresh.ended (.inr hclosed)⟩, trivial⟩
    · generalize (if (o.attended && !w.ui.consentUiAvailable) = true then RejectCall.uiUnavailable
        else RejectCall.consentDenied) = call
      obtain ⟨hfresh', hended, haccepts⟩ := fresh_worker_reject hfresh call
      exact ⟨.inl ⟨hfresh', hended⟩, haccepts⟩
  · rename_i hgoes
    simp only [Bool.or_eq_true, decide_eq_true_eq, Bool.and_eq_true, Bool.not_eq_true', not_or, not_and,
      Bool.not_eq_true, Bool.not_eq_false] at hgoes
    obtain ⟨⟨hopen, -⟩, hgranted⟩ := hgoes
    have hargs : ({ w with main := .decided } : HostWorker).startArgs o granted nonce = w.startArgs o granted
      nonce := rfl
    have hstep : w.session.step o.setup (.start (w.startArgs o granted nonce)) =
        some (LinkHostSession.conclude (w.session.start o.setup (w.startArgs o granted nonce))) := by
      unfold LinkHostSession.step LinkHostSession.act
      dsimp only
      rw [if_neg (by rw [hfresh.started, hopen]; exact Bool.false_ne_true)]
      rfl
    obtain ⟨hbegan, haccepts⟩ := fresh_start (σ := o.setup) hfresh hopen (w.startArgs o granted nonce)
    rw [hargs, hstep, getD_some, sessionEvents_session]
    refine ⟨.inr ⟨?_, w.startArgs o granted nonce, ?_, ?_⟩, haccepts⟩
    · refine hdone ?_
      cases hattended : o.attended with
      | false => exact .inr rfl
      | true => exact .inl (hgranted hattended)
    · refine .append ⟨rfl, ⟨rfl, rfl⟩, fun code hin => ?_⟩ _
      obtain ⟨hattended, hcode⟩ := happroved code hin
      exact ⟨hattended, hgranted hattended, hcode.entered, hcode.ok⟩
    · rw [log_after_session]
      exact hbegan

theorem workerOk_consentEnds {answer : Option Bool} (h : AwaitsConsent o w answer es) {timedOut granted : Bool}
    {ui : LinkHostWorkerState} (hanswer : w.consentAnswer answer timedOut = some (granted, ui)) (nonce : String) :
    WorkerOk o (({ w with ui } : HostWorker).proceed o granted nonce).1
        (es ++ (({ w with ui } : HostWorker).proceed o granted nonce).2) ∧
      (consentRules o.setup o.attended).AcceptsFrom (consentLog o es)
        (sessionEvents (({ w with ui } : HostWorker).proceed o granted nonce).2) := by
  have hui : UiKeeps w.ui ui ∧ UiGoes w.ui ui := by
    unfold HostWorker.consentAnswer at hanswer
    split at hanswer
    · cases hanswer
      exact ⟨uiKeeps_refl _, fun _ => id⟩
    · cases hanswer
      exact ⟨uiKeeps_refl _, fun _ => id⟩
    · split at hanswer
      · cases hanswer
        exact ⟨uiKeeps_refl _, fun _ => id⟩
      · split at hanswer
        · cases hanswer
          exact uiKeeps_denyConsent _
        · simp at hanswer
  have hgranted : granted = true → w.ui.consent = some (some true) := by
    rintro rfl
    unfold HostWorker.consentAnswer at hanswer
    split at hanswer
    · cases hanswer
      exact absurd (h.answer true rfl).1 (by simp)
    · rename_i hconsent
      cases hanswer
      exact hconsent
    · split at hanswer
      · exact absurd (Prod.mk.inj (Option.some.inj hanswer)).1 (by simp)
      · split at hanswer
        · exact absurd (Prod.mk.inj (Option.some.inj hanswer)).1 (by simp)
        · simp at hanswer
  refine workerOk_proceed _ nonce h.fresh (fun code hin =>
    ⟨h.attended, (h.approved code hin).keeps hui.1 id (.inr hui.2)⟩) ?_
  rintro (hyes | hno)
  · rw [(hui.1.approved (hgranted hyes)).1]
    simp
  · exact absurd h.attended (by rw [hno]; exact Bool.false_ne_true)

theorem workerOk_begin (hmain : w.main = .begins) (h : WorkerOk o w es) :
    WorkerOk o (w.begin o).1 (es ++ (w.begin o).2) ∧
      (consentRules o.setup o.attended).AcceptsFrom (consentLog o es) (sessionEvents (w.begin o).2) := by
  unfold WorkerOk at h
  rw [hmain] at h
  obtain ⟨hfresh, -, -, -, hnone⟩ := h
  obtain ⟨hdigits, hunasked, hfresh₁, hnone₁, haccepts⟩ : (w.shown o).1.ui.confirmationDigits =
    o.confirmationDigits ∧
      (w.shown o).1.ui.consent = none ∧ Fresh (w.shown o).1.session (consentLog o (es ++ (w.shown o).2)) ∧
        (∀ code, .approves code ∉ es ++ (w.shown o).2) ∧
        (consentRules o.setup o.attended).AcceptsFrom (consentLog o es) (sessionEvents (w.shown o).2) := by
    unfold HostWorker.shown
    dsimp only
    split
    · obtain ⟨hfresh', -, haccepts'⟩ := fresh_worker_reject
        hfresh .localDisconnect
      exact ⟨rfl, rfl, hfresh', fun code hin => hnone code (approves_reject.mp hin), haccepts'⟩
    · exact ⟨rfl, rfl, by rw [append_nil]; exact hfresh, by simpa using hnone, trivial⟩
  unfold HostWorker.begin
  dsimp only
  generalize (w.shown o).1 = w₁ at *
  generalize (w.shown o).2 = fs at *
  cases hattended : o.attended with
  | true =>
    rw [if_pos rfl]
    refine ⟨?_, hattended ▸ haccepts⟩
    have hawaits : AwaitsConsent o { w₁ with ui := w₁.ui.awaitConsent.1, main := .consent w₁.ui.awaitConsent.2 }
        w₁.ui.awaitConsent.2 (es ++ fs) := by
      unfold LinkHostWorkerState.awaitConsent
      rw [hunasked]
      split
      · exact ⟨hattended, hfresh₁, hdigits, fun hask => absurd (hunasked.symm.trans hask) (by simp),
          fun granted hgranted => ⟨(Option.some.inj hgranted).symm, hunasked⟩,
            fun code hin => absurd hin (hnone₁ code)⟩
      · exact ⟨hattended, hfresh₁, hdigits, fun _ => rfl, nofun,
          fun code hin => absurd hin (hnone₁ code)⟩
    exact hawaits
  | false =>
    rw [if_neg Bool.false_ne_true]
    have hdone : false = true ∨ o.attended = false → w₁.ui.consent ≠ some none := fun _ => by
      rw [hunasked]
      simp
    obtain ⟨hok, haccepts'⟩ := workerOk_proceed false "" hfresh₁ (fun code hin => absurd hin (hnone₁ code)) hdone
    rw [append_assoc] at hok
    refine ⟨hok, ?_⟩
    rw [sessionEvents_append, Monitor.acceptsFrom_append]
    rw [consentLog_append, hattended] at haccepts'
    exact ⟨hattended ▸ haccepts, haccepts'⟩

theorem workerOk_disconnect (h : WorkerOk o w es) (hmain : w.main ≠ .begins) :
    let r := ({ w with ui := w.ui.requestDisconnect } : HostWorker).reject .localDisconnect
    WorkerOk o r.1 (es ++ r.2) ∧
      (consentRules o.setup o.attended).AcceptsFrom (consentLog o es) (sessionEvents r.2) := by
  have hkeeps := uiKeeps_requestDisconnect w.ui
  have hmain' : (({ w with ui := w.ui.requestDisconnect } : HostWorker).reject .localDisconnect).1.main =
    w.main := rfl
  unfold WorkerOk at h ⊢
  dsimp only
  rw [hmain']
  split at h
  · rename_i hbegins
    exact absurd hbegins hmain
  · obtain ⟨hfresh, hended, haccepts⟩ :=
      fresh_worker_reject h.fresh .localDisconnect
    refine ⟨{
      attended := h.attended
      fresh := hfresh
      digits := hkeeps.digits.trans h.digits
      asking := hkeeps.asking h.asking
      answer := fun granted hanswer => ⟨(h.answer granted hanswer).1, hkeeps.unasked (h.answer granted hanswer).2⟩
      approved := fun code hin => ?_ }, haccepts⟩
    exact (h.approved code (approves_reject.mp hin)).keeps hkeeps (fun _ => hended) (.inl hended)
  · obtain ⟨hfresh, -⟩ | ⟨hdone, args, hargs, hbegan⟩ := h
    · obtain ⟨hfresh', hended, haccepts⟩ :=
        fresh_worker_reject hfresh .localDisconnect
      exact ⟨.inl ⟨hfresh', hended⟩, haccepts⟩
    · unfold HostWorker.reject
      rw [log_after_session, sessionEvents_session]
      exact ⟨.inr ⟨hkeeps.answered hdone, args, hargs.append _, began_reject hbegan (reason_of_call _).1⟩,
        accepts_of_no_peer (not_startsPeer_reject _ _)⟩

/-- A step of the worker keeps to the rules of the consent. -/
theorem workerOk_step (h : WorkerOk o w es) {a : WorkerAction} (hstep : w.step o a = some (w', fs)) :
    WorkerOk o w' (es ++ fs) ∧
      (consentRules o.setup o.attended).AcceptsFrom (consentLog o es) (sessionEvents fs) := by
  cases a with
  | begins =>
    unfold HostWorker.step at hstep
    dsimp only at hstep
    split at hstep
    · rename_i hmain
      obtain ⟨rfl, rfl⟩ := Prod.mk.inj (Option.some.inj hstep)
      exact workerOk_begin hmain h
    · simp at hstep
  | consentEnds timedOut nonce =>
    unfold HostWorker.step at hstep
    dsimp only at hstep
    split at hstep
    · rename_i answer hmain
      obtain ⟨⟨granted, ui⟩, hanswer, hstep⟩ := map_eq_some_iff.mp hstep
      obtain ⟨rfl, rfl⟩ := Prod.mk.inj hstep
      unfold WorkerOk at h
      rw [hmain] at h
      exact workerOk_consentEnds h hanswer nonce
    · simp at hstep
  | approve code =>
    cases hstep
    refine ⟨workerOk_approve h code, ?_⟩
    split
    · exact trivial
    · exact trivial
  | deny =>
    cases hstep
    rw [append_nil]
    exact ⟨workerOk_ui h (uiKeeps_denyConsent _).1 (uiKeeps_denyConsent _).2, trivial⟩
  | uiUnavailable =>
    cases hstep
    rw [append_nil]
    exact ⟨workerOk_ui h (uiKeeps_markConsentUiUnavailable _).1 (uiKeeps_markConsentUiUnavailable _).2, trivial⟩
  | requestDisconnect =>
    unfold HostWorker.step at hstep
    dsimp only at hstep
    split at hstep
    · rename_i hmain
      cases hstep
      rw [append_nil]
      refine ⟨?_, trivial⟩
      unfold WorkerOk at h ⊢
      rw [hmain] at h
      rw [hmain]
      exact ⟨h.1, h.2.1, h.2.2.1, (uiKeeps_requestDisconnect w.ui).unasked h.2.2.2.1, h.2.2.2.2⟩
    · rename_i hmain
      split at hstep
      · cases hstep
        rw [append_nil]
        exact ⟨h, trivial⟩
      · cases hstep
        exact workerOk_disconnect h hmain
  | markActive =>
    unfold HostWorker.step at hstep
    dsimp only at hstep
    split at hstep
    · rename_i hpeer
      cases hstep
      rw [append_nil]
      -- a session whose peer is started has been started, and so no consent is pending
      have hdone : w.ui.consent ≠ some none := by
        unfold WorkerOk at h
        split at h
        · exact absurd hpeer (by rw [h.1.peerStarted]; exact Bool.false_ne_true)
        · exact absurd hpeer (by rw [h.fresh.peerStarted]; exact Bool.false_ne_true)
        · obtain ⟨hfresh, -⟩ | ⟨hdone, -⟩ := h
          · exact absurd hpeer (by rw [hfresh.peerStarted]; exact Bool.false_ne_true)
          · exact hdone
      exact ⟨workerOk_ui h (uiKeeps_markActive hdone).1 (uiKeeps_markActive hdone).2, trivial⟩
    · simp at hstep
  | session a =>
    unfold HostWorker.step at hstep
    dsimp only at hstep
    split at hstep
    · simp at hstep
    · simp at hstep
    · rename_i hstart hmain
      obtain ⟨⟨t, gs⟩, hsession, hstep⟩ := map_eq_some_iff.mp hstep
      cases hstep
      rw [sessionEvents_session]
      exact workerOk_session h hsession hstart hmain

theorem workerOk_of_reach (hrun : (hostWorker o).Reach (fun _ _ _ => True) {} w es) :
    WorkerOk o w es ∧ (consentRules o.setup o.attended).Accepts (sessionEvents es) := by
  refine hrun.invariant (fun w es => WorkerOk o w es ∧
    (consentRules o.setup o.attended).Accepts (sessionEvents es)) ?_ ?_
  · refine ⟨⟨⟨⟨fun _ => rfl, nofun⟩, rfl, rfl, ⟨rfl, rfl, rfl, rfl⟩, ?_⟩, rfl, rfl,
      rfl, by simp⟩, trivial⟩
    rintro (hno | hno)
    · exact absurd rfl hno
    · simp at hno
  · rintro w es a w' fs ⟨hok, haccepts⟩ - hstep
    obtain ⟨hok', haccepts'⟩ := workerOk_step hok hstep
    refine ⟨hok', ?_⟩
    rw [sessionEvents_append, Monitor.accepts_append]
    exact ⟨haccepts, haccepts'⟩

/-- In every run, whatever the offer, the media peer is started once, and only after the consent if one is
required. -/
theorem peer_after_consent (o : HostOffer) (as : List WorkerAction) : (hostWorker o).Every
      (fun _ es _ => (consentRules o.setup o.attended).Accepts (sessionEvents es)) {} [] as :=
  Machine.every_of_reach (fun hrun => (workerOk_of_reach hrun).2) as .start

/-! ## The way of a code -/

theorem startable_eq (h : args.offerSdp = o.sdp ∧ args.iceServers = o.iceServers) :
    startable o.setup args = o.startable := by
  unfold startable offerSizeOk mediaOk HostOffer.startable HostOffer.hasMediaLine HostOffer.allowControl hasMediaLine
    HostOffer.setup
  rw [h.1, h.2]
  simp only [Bool.and_assoc]

theorem startCodeOk_of_approveCodeOk (hok : approveCodeOk code = true) (hfour : code.length ≠ 4) :
    startCodeOk code = true := by
  unfold approveCodeOk at hok
  unfold startCodeOk
  rw [Bool.and_eq_true] at hok ⊢
  refine ⟨hok.1, ?_⟩
  have hlength := hok.2
  simp only [contains_cons, contains_nil, Bool.or_false, Bool.or_eq_true, beq_iff_eq] at hlength ⊢
  omega

theorem code_sent (hok : WorkerOk o w es) (hfour : o.confirmationDigits ≠ 4) (hin : .approves code ∈ es) :
    (consentLog o es).ended = true ∨ (∃ nonce, (consentLog o es).asked = some (code, nonce)) ∨
      ∀ nonce, (w.step o (.consentEnds false nonce)).isSome = true := by
  unfold WorkerOk at hok
  split at hok
  · exact absurd hin (hok.2.2.2.2 code)
  · rename_i answer hmain
    have hconsent := (hok.approved code hin).consent
    have hnone : answer = none := by
      cases answer with
      | none => rfl
      | some granted => cases (hok.answer granted rfl).2.symm.trans hconsent
    have hanswer : w.consentAnswer answer false = some (true, w.ui) := by
      unfold HostWorker.consentAnswer
      rw [hnone, hconsent]
    refine .inr (.inr fun nonce => ?_)
    unfold HostWorker.step
    rw [hmain]
    dsimp only
    rw [hanswer]
    rfl
  · obtain ⟨-, hended⟩ | ⟨-, args, hargs, hbegan⟩ := hok
    · exact .inl hended
    · obtain ⟨hattended, hgranted, hentered, hcode, hdigits⟩ := hargs.approved code hin
      have hstartCode : startCodeOk args.confirmationCode = true :=
        startCodeOk_of_approveCodeOk (hentered ▸ hcode) fun hno => hfour (by rw [← hdigits, ← hentered, hno]; rfl)
      have hasks : args.asks = true := by
        unfold StartArgs.asks
        rw [hargs.required, hattended, hgranted, hstartCode]
        rfl
      exact .inr (.inl ⟨args.nonce, hentered ▸ hbegan.asked hasks⟩)

theorem goes_on_of_granted (hmain : w.main = .decided) (hphase : w.session.phase = .authorizing args)
    (hauth : w.session.authorization = some (some true)) :
    (w.step o (.session (.authorizationEnds false))).isSome = true := by
  have hdecision : w.session.decision false = some true := by
    unfold LinkHostSession.decision
    rw [hauth]
  unfold HostWorker.step LinkHostSession.step LinkHostSession.act
  rw [hmain]
  rw [hphase]
  dsimp only
  rw [hdecision]
  rfl

theorem granted_starts (hok : WorkerOk o w es) (hstartable : o.startable = true)
    (hgranted : (consentLog o es).decision = some true) :
    (consentLog o es).ended = true ∨ (consentLog o es).peer = true ∨
      (∃ args, w.session.phase = .consentSend args) ∨
        (w.step o (.session (.authorizationEnds false))).isSome = true := by
  unfold WorkerOk at hok
  split at hok
  · cases hok.1.log.2.1.symm.trans hgranted
  · cases hok.fresh.log.2.1.symm.trans hgranted
  · rename_i hmain
    obtain ⟨hfresh, -⟩ | ⟨-, args, hargs, hbegan⟩ := hok
    · cases hfresh.log.2.1.symm.trans hgranted
    · obtain hwaiting | hin | hrefused := hbegan.stage
      · obtain hphase | hphase := hwaiting.phase
        · exact .inr (.inr (.inl ⟨args, hphase⟩))
        · have hauth : w.session.authorization = some (some true) :=
            hwaiting.decision.trans (congrArg some hgranted)
          exact .inr (.inr (.inr (goes_on_of_granted hmain hphase hauth)))
      · exact .inr (.inl hin.peer)
      · obtain hended | ⟨-, hoffer | hno⟩ := hrefused.why
        · exact .inl hended
        · rw [startable_eq hargs.offer, hstartable] at hoffer
          simp at hoffer
        · exact absurd hgranted hno

theorem consentFlow_of_offer (hoffer : o.attended = true → o.confirmationDigits ≠ 4 ∧ o.startable = true)
    (hrun : (hostWorker o).Reach (fun _ _ _ => True) {} w es) : ConsentFlow o w es := by
  obtain ⟨hok, hrules⟩ := workerOk_of_reach hrun
  refine ⟨hrules, fun code hin => ?_, fun hattended => granted_starts hok (hoffer hattended).2⟩
  by_cases hattended : o.attended = true
  · exact code_sent hok (hoffer hattended).1 hin
  · -- there is no code to take where the user is not asked
    unfold WorkerOk at hok
    split at hok
    · exact absurd hin (hok.2.2.2.2 code)
    · exact absurd hok.attended hattended
    · obtain ⟨-, hended⟩ | ⟨-, args, hargs, -⟩ := hok
      · exact .inl hended
      · exact absurd (hargs.approved code hin).1 hattended

/-! ### A code that is approved -/

/-- The worker that waits for the consent. -/
def asked (o : HostOffer) : HostWorker :=
  { ui := { phase := .awaitingConsent, consent := some none, confirmationDigits := o.confirmationDigits }
    main := .consent none }

theorem reach_asked (hattended : o.attended = true) : (hostWorker o).Reach (fun _ _ _ => True) {} (asked o) [] := by
  have hstep : (hostWorker o).step {} .begins = some (asked o, []) := by
    show HostWorker.step o {} .begins = _
    unfold HostWorker.step HostWorker.begin HostWorker.shown
    simp [hattended, LinkHostWorkerState.showSession, LinkHostWorkerState.awaitConsent, asked]
  exact Machine.Reach.start.step trivial hstep

def started (o : HostOffer) (code : String) : HostWorker × List SessionEvent :=
  let w := { asked o with
    ui := { (asked o).ui with phase := .connecting, consent := some (some true), confirmationCode := code } }
  let (s, es) := LinkHostSession.conclude (({} : LinkHostSession).start o.setup (w.startArgs o true "n"))
  ({ w with session := s, ui := { w.ui with confirmationCode := "" }, main := .decided }, es)

theorem reach_started (hattended : o.attended = true) (hcode : approveCodeOk code = true)
    (hdigits : (code.length : ℤ) = o.confirmationDigits) :
    (hostWorker o).Reach (fun _ _ _ => True) {} (started o code).1
      (.approves code :: (started o code).2.map .session) := by
  have htakes : (asked o).ui.takesCode code = true := by
    simp [LinkHostWorkerState.takesCode, LinkHostWorkerState.asking, asked, hcode, hdigits]
  have happrove : (hostWorker o).step (asked o) (.approve code) =
      some ({ asked o with ui := (asked o).ui.approveConsent code }, [.approves code]) := by
    show HostWorker.step o (asked o) (.approve code) = _
    unfold HostWorker.step
    dsimp only
    rw [if_pos htakes]
  have hgoes : (hostWorker o).step { asked o with ui := (asked o).ui.approveConsent code } (.consentEnds false "n") =
      some ((started o code).1, (started o code).2.map .session) := by
    have happroved : (asked o).ui.approveConsent code =
        { (asked o).ui with confirmationCode := code, consent := some (some true), phase := .connecting } :=
      if_pos htakes
    rw [happroved]
    unfold hostWorker HostWorker.step HostWorker.proceed
    simp [asked, HostWorker.consentAnswer, hattended, started, LinkHostSession.step, LinkHostSession.act,
      HostWorker.startArgs]
  exact ((reach_asked hattended).step trivial happrove).step trivial hgoes

theorem not_consentFlow_of_code (hattended : o.attended = true) (code : String)
    (hstart : startCodeOk code = false) :
    (started o code).2 = [.sends (.refuses "number_matching_required")] ∧
      ¬ ConsentFlow o (started o code).1 (.approves code :: (started o code).2.map .session) := by
  have hevents : (started o code).2 = [.sends (.refuses "number_matching_required")] := by
    simp [started, LinkHostSession.start, HostWorker.startArgs, asked, hattended, hstart,
      LinkHostSession.refuse, LinkHostSession.conclude, LinkHostSession.reject, LinkHostSession.rejectOnce]
  have hlog : consentLog o (.approves code :: (started o code).2.map .session) = { refused := true } := by
    rw [hevents]
    rfl
  refine ⟨hevents, fun hflow => ?_⟩
  obtain hended | ⟨nonce, hasked⟩ | hgoes := hflow.sent code mem_cons_self
  · rw [hlog] at hended
    simp at hended
  · rw [hlog] at hasked
    simp at hasked
  · exact absurd (hgoes "n") (by simp [HostWorker.step, started])

/-- The signal of the server that grants the consent with the nonce of `reach_started`. -/
def grantedSignal : Json :=
  .obj [("type", .str "consent_decision"), ("consent_nonce", .str "n"), ("authorized", .bool true)]

/-- Its frame. -/
def granted (o : HostOffer) : Json :=
  .obj [("type", .str "signal"), ("session_id", .str o.sessionId), ("signal", grantedSignal)]

theorem granted_members (o : HostOffer) : memberIs (granted o) "session_id" o.setup.sessionId = true ∧
    memberIs (granted o) "type" "signal" = true ∧ (granted o).get "signal" = some grantedSignal :=
  ⟨beq_self_eq_true o.sessionId, rfl, rfl⟩

theorem decisionOf_granted (o : HostOffer) : decisionOf o.setup "n" (granted o) = some true := by
  obtain ⟨hsession, htype, hsignal⟩ := granted_members o
  unfold decisionOf consentDecision
  rw [hsession, htype, hsignal]
  rfl

/-- The arguments of `reach_started`. -/
def startedArgs (o : HostOffer) (code : String) : StartArgs := ⟨o.sdp, o.iceServers, true, o.attended, code, "n"⟩

/-- The worker that has started its session, with a session like this. -/
def withSession (o : HostOffer) (phase : StartPhase) (authorization : Option Bool) (nonce : Option String) :
    HostWorker :=
  { ui := { phase := .connecting, consent := some (some true), confirmationDigits := o.confirmationDigits }
    session := {
      started := true, timerArmed := true, phase, authorization := some authorization, consentNonce := nonce }
    main := .decided }

theorem step_session {a : SessionAction} {t : LinkHostSession} {gs : List SessionEvent}
    (hstep : w.session.step o.setup a = some (t, gs)) (hmain : w.main = .decided)
    (hother : ∀ args, a ≠ .start args) :
    (hostWorker o).step w (.session a) = some ({ w with session := t }, gs.map .session) := by
  show HostWorker.step o w (.session a) = _
  unfold HostWorker.step
  rw [hmain]
  cases a with
  | start args => exact absurd rfl (hother args)
  | _ =>
    dsimp only
    rw [hstep]
    rfl

theorem not_consentFlow_of_unstartable (hattended : o.attended = true) (hcode : startCodeOk code = true)
    (htakes : approveCodeOk code = true) (hdigits : (code.length : ℤ) = o.confirmationDigits)
    (hstart : o.startable = false) :
    ¬ ∀ w es, (hostWorker o).Reach (fun _ _ _ => True) {} w es → ConsentFlow o w es := fun hall => by
  have hstarted : started o code =
      (withSession o (.consentSend (startedArgs o code)) none (some "n"), [.sends (.consent code "n")]) := by
    simp [started, LinkHostSession.start, HostWorker.startArgs, asked, hattended, hcode,
      LinkHostSession.conclude, withSession, startedArgs]
  have hrun := reach_started hattended htakes hdigits
  rw [hstarted] at hrun
  have hsent : (hostWorker o).step (withSession o (.consentSend (startedArgs o code)) none (some "n"))
      (.session (.consentSent true)) = some (withSession o (.authorizing (startedArgs o code)) none (some "n"),
        []) := rfl
  have hdecided : (hostWorker o).step (withSession o (.authorizing (startedArgs o code)) none (some "n"))
      (.session (.receive (granted o))) =
        some (withSession o (.authorizing (startedArgs o code)) (some true) none,
          [.session (.receives (granted o))]) := by
    obtain ⟨hsession, htype, hsignal⟩ := granted_members o
    have hreceive : (withSession o (.authorizing (startedArgs o code)) none (some "n")).session.receive o.setup
      (granted o) =
        ((withSession o (.authorizing (startedArgs o code)) (some true) none).session,
          [.receives (granted o)], none) := by
      unfold LinkHostSession.receive LinkHostSession.receiveFrame
      rw [hsession, htype, hsignal]
      rfl
    have hstep : (withSession o (.authorizing (startedArgs o code)) none (some "n")).session.step o.setup
        (.receive (granted o)) = some ((withSession o (.authorizing (startedArgs o code)) (some true) none).session,
          [.receives (granted o)]) := by
      unfold LinkHostSession.step LinkHostSession.act
      dsimp only
      rw [hreceive]
      rfl
    exact step_session hstep rfl (by simp)
  obtain ⟨r, hr, hrefuses⟩ : ∃ r ∈ startReasons,
      (hostWorker o).step (withSession o (.authorizing (startedArgs o code)) (some true) none)
        (.session (.authorizationEnds false)) = some ({ withSession o .over (some true) none with
          session := { (withSession o .over (some true) none).session with rejecting := .sending } },
            [.session (.sends (.refuses r))]) := by
    obtain ⟨hyes, -⟩ | ⟨-, r, hr, hrefuses⟩ := startPeer_cases (σ := o.setup)
      (s := (withSession o (.authorizing (startedArgs o code)) (some true) none).session) (startedArgs o code)
    · rw [startable_eq ⟨rfl, rfl⟩, hstart] at hyes
      simp at hyes
    · refine ⟨r, hr, ?_⟩
      have hauthorized : (withSession o (.authorizing (startedArgs o code)) (some true) none).session.step o.setup
          (.authorizationEnds false) = some (LinkHostSession.conclude
            ((withSession o (.authorizing (startedArgs o code)) (some true) none).session.startPeer o.setup
              (startedArgs o code))) := rfl
      rw [hrefuses] at hauthorized
      exact step_session hauthorized rfl
        (by simp)
  have hall' := hall _ _ (((hrun.step trivial hsent).step trivial hdecided).step trivial hrefuses)
  have hasks := decisionOf_granted o
  have hlog : consentLog o (.approves code :: [SessionEvent.sends (.consent code "n")].map .session ++ [] ++
      [.session (.receives (granted o))] ++ [.session (.sends (.refuses r))]) =
        { asked := some (code, "n"), decision := some true, refused := true } := by
    simp [consentLog, sessionEvents, Monitor.after, consentRules, ConsentLog.next, hasks, hr]
  obtain hended | hpeer | ⟨args, hphase⟩ | hgoes := hall'.starts hattended (by rw [hlog])
  · rw [hlog] at hended
    simp at hended
  · rw [hlog] at hpeer
    simp at hpeer
  · simp [withSession] at hphase
  · simp [HostWorker.step, withSession, LinkHostSession.step, LinkHostSession.act] at hgoes

theorem digits_of_bootstrap {decoded : Json} {doubleText : ℚ → String} (hoffer : bootstrap doubleText decoded = some o)
    (hattended : o.attended = true) : o.confirmationDigits ∈ [(2 : ℤ), 3, 4, 6] := by
  obtain ⟨members, -, -, -, -, -, -, hdigits, -⟩ := of_bootstrap hoffer
  unfold HostOffer.attended at hattended
  rw [hattended] at hdigits
  obtain ⟨n, hn, hmember⟩ := confirmationDigitsOf_iff.mp (isSome_of_eq_some hdigits) rfl
  have hsame : confirmationDigitsOf (.obj members) true = some n := by
    unfold confirmationDigitsOf
    rw [hmember]
    refine if_neg fun hno => ?_
    simp only [mem_cons, not_mem_nil, or_false] at hn
    omega
  rw [Option.some.inj (hdigits.symm.trans hsame)]
  exact hn

/-- In every run of a worker that was started with an offer, the peer is started once and with a consent where
it is required, and every code that is taken is sent and leads to the media once it is authorized, if and only
if the offer of an attended session does not ask for four digits and is one that `start` takes. -/
theorem consent_flow_iff {doubleText : ℚ → String} {decoded : Json} (hoffer : bootstrap doubleText decoded = some o) :
    (∀ w es, (hostWorker o).Reach (fun _ _ _ => True) {} w es → ConsentFlow o w es) ↔
      (o.attended = true → o.confirmationDigits ≠ 4 ∧ o.startable = true) := by
  refine ⟨fun hall hattended => ?_, fun hgood w es => consentFlow_of_offer hgood⟩
  have hdigits := digits_of_bootstrap hoffer hattended
  have hfour : o.confirmationDigits ≠ 4 := fun hno =>
    (not_consentFlow_of_code hattended "1234" (by decide +kernel)).2
      (hall _ _ (reach_started hattended (by decide +kernel) hno.symm))
  refine ⟨hfour, ?_⟩
  by_contra hunstartable
  rw [Bool.not_eq_true] at hunstartable
  obtain ⟨code, hstart, htakes, hlength⟩ : ∃ code, startCodeOk code = true ∧ approveCodeOk code = true ∧
      (code.length : ℤ) = o.confirmationDigits := by
    simp only [mem_cons, not_mem_nil, or_false] at hdigits
    obtain hn | hn | hn | hn := hdigits
    · exact ⟨"12", by decide +kernel, by decide +kernel, hn.symm⟩
    · exact ⟨"123", by decide +kernel, by decide +kernel, hn.symm⟩
    · exact absurd hn hfour
    · exact ⟨"123456", by decide +kernel, by decide +kernel, hn.symm⟩
  exact not_consentFlow_of_unstartable hattended hstart htakes hlength hunstartable hall

end Worker

/-- An attended offer that asks for this many digits. -/
def digitsFrame (digits : ℤ) : Json :=
  .obj [("type", .str "session_offer"), ("payload", .obj [
    ("session_id", .str "00000000-0000-0000-0000-000000000001"), ("access_type", .str "attended"),
    ("access_mode", .str "view"), ("sdp", .str "m=video 9"), ("confirmation_required", .bool true),
    ("confirmation_digits", .int digits)])]

/-- As the bootstrap has read it. -/
def digitsOffer (digits : ℤ) : HostOffer where
  sessionId := "00000000-0000-0000-0000-000000000001"
  accessMode := "view"
  accessType := "attended"
  confirmationDigits := digits
  sdp := "m=video 9"
  iceServers := 0
  recording := LinkRecordingConfig.fromWire (fun _ => "0.5") none

/-- Of an offer that asks for six digits, every run has the way of the consent. -/
theorem consent_flow_sample : bootstrap (fun _ => "0.5") (digitsFrame 6) = some (digitsOffer 6) ∧
    ∀ w es, (hostWorker (digitsOffer 6)).Reach (fun _ _ _ => True) {} w es → ConsentFlow (digitsOffer 6) w es := by
  have hoffer : bootstrap (fun _ => "0.5") (digitsFrame 6) = some (digitsOffer 6) := rfl
  exact ⟨hoffer, (consent_flow_iff hoffer).mpr fun _ => ⟨by decide, by decide +kernel⟩⟩

/-- Of an offer that asks for four digits, the code that the user enters is taken, and refused by `start`. -/
theorem four_digits_refused : bootstrap (fun _ => "0.5") (digitsFrame 4) = some (digitsOffer 4) ∧
    ∃ w es, (hostWorker (digitsOffer 4)).Reach (fun _ _ _ => True) {} w es ∧
      es = [.approves "1234", .session (.sends (.refuses "number_matching_required"))] ∧
      ¬ ConsentFlow (digitsOffer 4) w es := by
  obtain ⟨hevents, hflow⟩ := not_consentFlow_of_code (o := digitsOffer 4) (by decide) "1234" (by decide +kernel)
  refine ⟨rfl, _, _, reach_started (by decide) (by decide +kernel) (by decide +kernel), ?_, hflow⟩
  rw [hevents]
  rfl

end LigamentApps.LinkHost
