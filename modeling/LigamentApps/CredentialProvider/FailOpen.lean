import LigamentApps.CredentialProvider.Bypass
import LigamentApps.CredentialProvider.SecondFactor

/-!
# Letting a user in without an answer

With `FailClose` off, `GetSerialization` hands out credentials whose push or code could not be
decided. The sign of a missing answer is the error text `network_error`, and error texts also come
out of the servers' answers. `transportOnly` is the demand that only a missing answer lets the user
in; `PlainAnswers` says what the answers must not say for it, and `fail_open_transport_only` is the
result about runs. -/

namespace LigamentApps.CredentialProvider

/-! ## The demand -/

/-- The answers on which a code may be accepted: Core's confirmation, or the relay's where Core gave
no answer or one with a status of the range 5xx. -/
def CodeAccepted (core relay : Option HttpResponse) : Prop :=
  (∃ r, core = some r ∧ r.confirms = true) ∨
    ((∀ c, core = some c → 500 ≤ c.statusCode ∧ c.statusCode < 600) ∧
      ∃ q, relay = some q ∧ q.confirms = true)

/-- The ledger's job is for these credentials, and its start call received no answer, neither from
Core nor from the relay. -/
def Ledger.Unreached (ledger : Ledger) (creds : Credentials) : Prop :=
  ∃ j, ledger = some j ∧ j.creds = creds ∧ j.request = some (none, none)

/-- What the rule for missing answers demands of an event: a code is approved only on `CodeAccepted`
answers, credentials are handed out under the second factor only with an approval for them, and
without one only where `FailClose` is off and their own job received no answer. -/
def TransportOnlyOk (P : Platform) (ledger : Ledger) : Event → Prop
  | .approved (.otp core relay) => CodeAccepted core relay
  | .approved why => why.Justified P
  | .serialized creds branch failClose _ =>
    (branch.needsApproval = true → ledger.Approved creds) ∧
      (branch = .failOpen → failClose = false ∧ ledger.Unreached creds)
  | _ => True

/-- The demand as a monitor of the ledger. -/
def transportOnly (P : Platform) : Monitor Ledger Event := ⟨none, Ledger.next, TransportOnlyOk P⟩

instance (core relay : Option HttpResponse) : Decidable (CodeAccepted core relay) :=
  inferInstanceAs (Decidable (_ ∨ _ ∧ _))

instance (ledger : Ledger) (creds : Credentials) : Decidable (ledger.Approved creds) :=
  inferInstanceAs (Decidable (∃ j, ledger = some j ∧ j.creds = creds ∧ j.approval.isSome = true))

instance (ledger : Ledger) (creds : Credentials) : Decidable (ledger.Unreached creds) :=
  inferInstanceAs (Decidable (∃ j, ledger = some j ∧ j.creds = creds ∧
    j.request = some (none, none)))

instance (P : Platform) (ledger : Ledger) : ∀ e, Decidable (TransportOnlyOk P ledger e)
  | .approved (.otp core relay) => inferInstanceAs (Decidable (CodeAccepted core relay))
  | .approved (.gate answer) => inferInstanceAs (Decidable ((Approval.gate answer).Justified P))
  | .approved (.poll answer) => inferInstanceAs (Decidable ((Approval.poll answer).Justified P))
  | .serialized creds branch failClose _ =>
    inferInstanceAs (Decidable ((branch.needsApproval = true → ledger.Approved creds) ∧
      (branch = .failOpen → failClose = false ∧ ledger.Unreached creds)))
  | .scenario _ | .started .. | .request .. | .reset | .autoLogon _ | .returned _ => .isTrue trivial

instance (P : Platform) (ledger : Ledger) (e : Event) : Decidable ((transportOnly P).Ok ledger e) :=
  inferInstanceAs (Decidable (TransportOnlyOk P ledger e))

/-! ## What the answers must not say -/

/-- The answers to the start call of a job of this kind, under a value of `FailClose`: where a
missing answer lets the user in, the answer that decides a push or a code does not claim to be
missing; and no relay confirms a code that Core answered with a status above the range 5xx. -/
def PlainAnswers (failClose : Bool) (kind : WorkerJob) (core relay : Option HttpResponse) : Prop :=
  (failClose = false → kind ≠ .webAuthnBegin →
      ∀ r, decidingAnswer core relay = some r → ¬r.ClaimsNetworkError kind) ∧
    ∀ c, core = some c → ∀ q, relay = some q → q.confirms = true → c.statusCode < 600

/-- A step in which the servers' answers to the start call, if it is made, are plain. -/
def Plain (P : Platform) (s : State) (a : Action) : Prop :=
  ∀ r, s.answers P a = some r → PlainAnswers s.config.failClose s.currentMode.job r.1 r.2

/-- The job of the ledger received plain answers, if its start call was made. -/
def Ledger.Plain (failClose : Bool) (ledger : Ledger) : Prop :=
  ∀ j, ledger = some j → ∀ core relay, j.request = some (core, relay) →
    PlainAnswers failClose j.kind core relay

instance (r : HttpResponse) (kind : WorkerJob) : Decidable (r.ClaimsNetworkError kind) :=
  inferInstanceAs (Decidable (_ ∧ _))

instance (failClose : Bool) (kind : WorkerJob) (core relay : Option HttpResponse) :
    Decidable (PlainAnswers failClose kind core relay) :=
  inferInstanceAs (Decidable (_ ∧ _))

instance (P : Platform) (s : State) (a : Action) : Decidable (Plain P s a) :=
  inferInstanceAs (Decidable (∀ r, s.answers P a = some r → _))

section Events

variable {P : Platform} {failClose : Bool} {ledger : Ledger}

theorem JobRecord.Unanswered.unreached {j : JobRecord} (h : j.Unanswered)
    (hplain : ∀ core relay, j.request = some (core, relay) →
      PlainAnswers false j.kind core relay) : j.request = some (none, none) := by
  obtain ⟨hkind, core, relay, hreq, hanswer⟩ := h
  have hclaims := (hplain core relay hreq).1 rfl hkind
  have hnone : decidingAnswer core relay = none := by
    rcases hanswer with hnone | ⟨r, hr, hclaim⟩
    · exact hnone
    · exact absurd hclaim (hclaims r hr)
  have hboth : relay = none ∧ core = none := by
    simpa [decidingAnswer] using hnone
  rw [hreq, hboth.1, hboth.2]

theorem CodeConfirmed.accepted {kind : WorkerJob} {core relay : Option HttpResponse}
    (h : CodeConfirmed core relay) (hplain : PlainAnswers failClose kind core relay) :
    CodeAccepted core relay := by
  rcases h with hcore | ⟨hun, q, hq, hconf⟩
  · exact .inl hcore
  · refine .inr ⟨fun c hc => ⟨?_, hplain.2 c hc q hq hconf⟩, q, hq, hconf⟩
    rw [hc] at hun
    simpa [coreUnavailable] using hun

/-- An event that is no start call, and which lets a user in without an answer only under the given
value of `FailClose`. -/
def Event.CallFree (failClose : Bool) : Event → Prop
  | .request .. => False
  | .serialized _ branch fc _ => branch = .failOpen → fc = failClose
  | _ => True

theorem Ledger.Plain.next (h : ledger.Plain failClose) {e : Event} (he : e.CallFree failClose) :
    (Ledger.next ledger e).Plain failClose := by
  cases e with
  | request => exact absurd he id
  | scenario cpus => simp [Ledger.next, Ledger.Plain]
  | started =>
    intro j hj core relay hreq
    cases hj
    simp at hreq
  | approved =>
    intro j hj core relay hreq
    obtain ⟨j₀, hj₀, rfl⟩ := Option.map_eq_some_iff.mp hj
    exact h j₀ hj₀ core relay hreq
  | serialized creds branch fc finished =>
    intro j hj core relay hreq
    unfold Ledger.next at hj
    dsimp only at hj
    split at hj
    · obtain ⟨j₀, hj₀, rfl⟩ := Option.map_eq_some_iff.mp hj
      exact h j₀ hj₀ core relay hreq
    · exact h j hj core relay hreq
  | _ => exact h

theorem transportOnlyOk_of_ok {e : Event} (hok : Ledger.Ok P ledger e) (he : e.CallFree failClose)
    (h : ledger.Plain failClose) : TransportOnlyOk P ledger e := by
  cases e with
  | approved why =>
    obtain ⟨hjust, j, hj, hown⟩ := hok
    cases why with
    | otp core relay => exact CodeConfirmed.accepted hjust (h j hj core relay hown)
    | gate | poll => exact hjust
  | serialized =>
    refine ⟨hok.1, fun hbranch => ?_⟩
    obtain ⟨hfc, j, hj, hcreds, hun⟩ := hok.2 hbranch
    have hclose : failClose = false := (he hbranch).symm.trans hfc
    subst hclose
    exact ⟨hfc, j, hj, hcreds, hun.unreached fun core relay hreq => h j hj core relay hreq⟩
  | _ => trivial

theorem transportOnly_events {es : List Event} (hok : (ledgerMonitor P).AcceptsFrom ledger es)
    (hes : ∀ e ∈ es, e.CallFree failClose) (h : ledger.Plain failClose) :
    (transportOnly P).AcceptsFrom ledger es ∧ (es.foldl Ledger.next ledger).Plain failClose := by
  induction es generalizing ledger with
  | nil => exact ⟨trivial, h⟩
  | cons e es ih =>
    have he := hes e (List.mem_cons_self ..)
    obtain ⟨hacc, hplain⟩ := ih hok.2 (fun e he => hes e (List.mem_cons_of_mem _ he)) (h.next he)
    exact ⟨⟨transportOnlyOk_of_ok hok.1 he h, hacc⟩, hplain⟩

theorem callFree_of_quiet {e : Event} (h : e.IsQuiet failClose = true) : e.CallFree failClose := by
  cases e with
  | request => simp [Event.IsQuiet] at h
  | serialized =>
    intro _
    simpa using (Bool.and_eq_true_iff.mp h).2
  | _ => trivial

end Events

section Steps

variable {P : Platform} {s t : State} {ledger : Ledger} {a : Action} {es : List Event}

theorem Effect.callFree {answers : Option (Option HttpResponse × Option HttpResponse)}
    (h : Effect answers s t es) :
    (∀ e ∈ es, e.CallFree s.config.failClose) ∨
      ∃ core relay, es = [.request core relay] ∧ answers = some (core, relay) ∧
        ∃ input cfg, s.thread = some (.begin input cfg) := by
  cases h with
  | quiet hes => exact .inl fun e he => callFree_of_quiet (hes e he)
  | request core relay hans _ hp => exact .inr ⟨core, relay, rfl, hans, hp⟩
  | approved | reset | scenario => exact .inl (by simp [Event.CallFree])
  | handedOut _ branch _ _ _ hb =>
    have hbranch : branch ≠ .failOpen := by
      rintro rfl
      simp [Branch.needsApproval] at hb
    exact .inl (by simp [Event.CallFree, hbranch])
  | started _ _ hes =>
    refine .inl fun e he => ?_
    rcases List.mem_cons.mp he with rfl | he
    · trivial
    · exact callFree_of_quiet (hes e he)

theorem config_step (h : Bound P s ledger) (hs : step P s a = some (t, es)) :
    t.config = s.config ∨ es.foldl Ledger.next ledger = none := by
  by_cases ha : a.keepsName = true
  · exact .inl (step_sameName hs ha).2
  · cases a with
    | setStringValue field =>
      cases field with
      | username => exact .inl (setStringValue_nextName hs).2
      | password | otpCode => exact absurd rfl ha
    | setUsageScenario cpus cfg isRemote isUacPrompt =>
      unfold step at hs
      dsimp only at hs
      split at hs
      · refine rel_of_step (fun t es => t.config = s.config ∨ es.foldl .next ledger = none)
          hs ?_
        unfold State.setUsageScenario
        by_cases hsame : s.scenario = cpus
        · rw [if_pos hsame]
          split
          · split
            · rename_i hnew
              have hcr : s.created = false := hnew.resolve_right (not_not.mpr hsame)
              exact .inr (h.fresh hcr).2.2.2
            · exact .inl rfl
          · exact .inl rfl
        · right
          rw [if_neg hsame]
          split
          · rw [if_pos (.inr hsame)]
            rfl
          · rfl
      · cases hs
    | _ => exact absurd rfl ha

theorem transportOnly_step (h : Bound P s ledger) (hplain : ledger.Plain s.config.failClose)
    (ha : Plain P s a) (hs : step P s a = some (t, es))
    (hok : (ledgerMonitor P).AcceptsFrom ledger es) :
    (transportOnly P).AcceptsFrom ledger es ∧
      (es.foldl Ledger.next ledger).Plain t.config.failClose := by
  have hstep : (transportOnly P).AcceptsFrom ledger es ∧
      (es.foldl .next ledger).Plain s.config.failClose := by
    rcases (step_move s h hs).1.callFree with hfree | ⟨core, relay, rfl, hans, input, cfg, hp⟩
    · exact transportOnly_events hok hfree hplain
    · -- The start call is that of the ledger's job, whose kind is the mode's.
      obtain ⟨-, -, j, rfl, -, hkind, -, -⟩ := h.running _ hp (by simp)
      refine ⟨⟨trivial, trivial⟩, ?_⟩
      intro j' hj' core' relay' hreq
      cases hj'
      cases hreq
      rw [hkind]
      exact ha (core, relay) hans
  rcases config_step h hs with hcfg | hnone
  · rw [hcfg]
    exact hstep
  · refine ⟨hstep.1, ?_⟩
    rw [hnone]
    intro j hj
    simp at hj

end Steps

/-- In every run whose steps are all careful and whose servers' answers are all plain, a code is
approved only on Core's confirmation, or on the relay's where Core gave no answer or a 5xx; and
credentials that are neither on the bypass list nor approved are handed out only where `FailClose`
is off and their own job received no answer at all. -/
theorem fail_open_transport_only (P : Platform) {t : State} {es : List Event}
    (h : (tile P).Reach (fun s _ a => Careful s a ∧ Plain P s a) {} t es) :
    (transportOnly P).Accepts es := by
  have hrun := h.monitor_accepts (transportOnly P)
    (fun s _ ledger => Bound P s ledger ∧ ledger.Plain s.config.failClose)
    ⟨bound_start P, by simp [Ledger.Plain, transportOnly]⟩ ?_
  · exact hrun.1
  intro s es a t fs hinv hgood hs
  generalize (transportOnly P).after es = ledger at hinv ⊢
  obtain ⟨hbound, hplain⟩ := hinv
  obtain ⟨hok, hbound'⟩ := bound_step hbound hgood.1 hs
  obtain ⟨hacc, hplain'⟩ := transportOnly_step hbound hplain hgood.2 hs hok
  exact ⟨hacc, hbound', hplain'⟩

/-- The same configuration, which lets the user in without an answer. -/
def failOpenConfig : Config := { consoleConfig with failClose := false }

/-- The steps of the worker up to the result of the start call, and the submission after it. -/
def answerPush (core : Option HttpResponse) : List Action :=
  [.worker {}, .worker {}, .worker {}, .worker { core := core }, .worker {},
   .getSerialization true, .ui true, .ui true]

/-- Core refuses the push with status 401 and the error text `network_error`; the credentials are
handed out as if Core had not answered. -/
theorem refusal_lets_in : ¬∀ (P : Platform) (t : State) (es : List Event),
      (tile P).Reach (fun _ _ _ => True) {} t es → (transportOnly P).Accepts es := by
  intro hclaim
  have hrun : ((tile asciiPlatform).exec (fun _ _ _ => true) {} []
      (submitAlice failOpenConfig ++
        answerPush (some ⟨401, ascii "\x7b\"error\":\"network_error\"\x7d"⟩))).any
      (fun r => decide ¬(transportOnly asciiPlatform).Accepts r.2) = true := by decide
  obtain ⟨⟨t, es⟩, hexec, hviolated⟩ := (Option.any_eq_true ..).mp hrun
  exact of_decide_eq_true hviolated
    (hclaim asciiPlatform t es (Machine.reach_of_exec (fun _ _ _ _ => trivial) hexec))

/-- Without an answer of Core the credentials are handed out, where `FailClose` is off. -/
theorem fail_open_transport_only_alice :
    ∃ t es, (tile asciiPlatform).Reach (fun s _ a => Careful s a ∧ Plain asciiPlatform s a) {} t es ∧
      Event.serialized ⟨wide "alice", [], wide "p"⟩ .failOpen false true ∈ es ∧
      (transportOnly asciiPlatform).Accepts es := by
  have hrun : ((tile asciiPlatform).exec
      (fun s _ a => decide (Careful s a ∧ Plain asciiPlatform s a)) {} []
      (submitAlice failOpenConfig ++ answerPush none)).any
      (fun r => decide (.serialized ⟨wide "alice", [], wide "p"⟩ .failOpen false true
        ∈ r.2)) = true := by decide
  obtain ⟨⟨t, es⟩, hexec, hmem⟩ := (Option.any_eq_true ..).mp hrun
  have hreach := Machine.reach_of_exec (fun _ _ _ => of_decide_eq_true) hexec
  exact ⟨t, es, hreach, of_decide_eq_true hmem, fail_open_transport_only asciiPlatform hreach⟩

end LigamentApps.CredentialProvider
