import LigamentApps.LinkAgent.Protocol
import LigamentApps.LinkWorkerDarwin.WorkerCoordinator

/-!
# What the native worker enforces of the offer

The native worker looks at nothing of the offer but its SDP, its ICE servers and its recording part,
and asks nobody. So it keeps the rules of `HostRules.lean` exactly in the runs in which nothing
happens that the rules forbid: `host_rules_iff` names these steps by what arrives, for every offer and
every order of events. -/

namespace LigamentApps.LinkWorkerDarwin

open LinkHost LinkAgent

/-- The offer may be hosted without asking anybody: it passes the Flutter worker's checks, and is
unattended. -/
def HostsUnasked (doubleText : ℚ → String) (frame : Json) : Prop :=
  ∃ o, bootstrap doubleText frame = some o ∧ o.startable = true ∧ o.attended = false

/-- The offer moreover lets input through: it gives control, and its recording does not hold input
back. -/
def TakesInput (doubleText : ℚ → String) (frame : Json) (firstFrameAcked : Bool) : Prop :=
  ∃ o, bootstrap doubleText frame = some o ∧ o.startable = true ∧ o.attended = false ∧
    o.allowControl = true ∧ recorderReady o.recording firstFrameAcked = true

/-- The recorder service acknowledges a first frame. -/
def acksFirstFrame : Event → Bool
  | .ack firstFrameAcked => firstFrameAcked
  | _ => false

/-- The recorder service has acknowledged a first frame. -/
def ackSeen (es : List Event) : Bool := es.any acksFirstFrame

/-- What happens is nothing that the rules forbid: the answer is ready, or a frame is captured, only
for an offer that may be hosted without asking; and a message that asks for input arrives only where
the offer moreover lets input through. -/
def Harmless (doubleText : ℚ → String) (frame : Json) (s : State) (es : List Event) :
    Action → Prop
  | .localDescriptionSet ok written => ok = true ∧ written = true → HostsUnasked doubleText frame
  | .videoFrame _ => s.peerConnection = true → HostsUnasked doubleText frame
  | .message message trusted =>
    asksInput message trusted = true → TakesInput doubleText frame (ackSeen es)
  | _ => True

section Rules

variable (doubleText : ℚ → String) (frame : Json) {g : Granted}

theorem mayHost_iff (h : g.consented = false) : MayHost doubleText frame g ↔ HostsUnasked doubleText frame := by
  simp [MayHost, HostsUnasked, h]

theorem mayInject_iff (h : g.consented = false) :
    MayInject doubleText frame g ↔ TakesInput doubleText frame g.firstFrameAcked := by
  simp [MayInject, TakesInput, h]

/-- Events of which the rules demand nothing, and which grant nothing. -/
def Unruled : Event → Bool
  | .answered accepted _ => !accepted
  | .candidateAdded | .candidateSent | .terminated _ | .recorded => true
  | _ => false

theorem acksFirstFrame_of_unruled {e : Event} (h : Unruled e = true) : acksFirstFrame e = false := by
  cases e with
  | ack => cases h
  | _ => rfl

theorem accepts_unruled {es : List Event} (h : ∀ e ∈ es, Unruled e = true) :
    (hostRules CGEvent doubleText frame).AcceptsFrom g es ∧ es.foldl Granted.next g = g := by
  induction es generalizing g with
  | nil => exact ⟨trivial, rfl⟩
  | cons e _ ih =>
    have he := h e (List.mem_cons_self ..)
    have hrest := ih (g := g) fun e he => h e (List.mem_cons_of_mem _ he)
    cases e with
    | answered accepted =>
      have hno : accepted = false := by simpa [Unruled] using he
      subst hno
      exact ⟨⟨trivial, hrest.1⟩, hrest.2⟩
    | candidateAdded | candidateSent | terminated | recorded => exact ⟨⟨trivial, hrest.1⟩, hrest.2⟩
    | _ => cases he

theorem accepts_injected (inputs : List CGEvent) :
    ((hostRules CGEvent doubleText frame).AcceptsFrom g (inputs.map .injected) ↔
        (inputs ≠ [] → MayInject doubleText frame g)) ∧
      (inputs.map HostEvent.injected).foldl Granted.next g = g := by
  induction inputs with
  | nil => exact ⟨⟨fun _ h => absurd rfl h, fun _ => trivial⟩, rfl⟩
  | cons _ _ ih =>
    refine ⟨⟨fun h _ => h.1, fun h => ⟨h (by simp), ?_⟩⟩, ih.2⟩
    exact ih.1.mpr fun _ => h (by simp)

end Rules

section Steps

variable (s : State)

theorem decodeOffer_unruled (frame : Json) : ∀ e ∈ (s.decodeOffer frame).2, Unruled e = true := by
  unfold State.decodeOffer
  split
  · simp
  split <;> simp

theorem captureStarted_unruled (bounds : Option DisplayBounds) :
    ∀ e ∈ (s.captureStarted bounds).2, Unruled e = true := by
  unfold State.captureStarted
  split
  · simp [Unruled]
  split <;> simp [Unruled]

theorem remoteDescriptionSet_unruled (ok : Bool) : ∀ e ∈ (s.remoteDescriptionSet ok).2, Unruled e = true := by
  unfold State.remoteDescriptionSet
  split
  · simp [Unruled]
  · simp [State.answerFailed, Unruled]

theorem addCandidate_unruled (candidate : Candidate) : ∀ e ∈ (s.addCandidate candidate).2, Unruled e = true := by
  unfold State.addCandidate
  split
  · split <;> simp [Unruled]
  · simp

theorem readFrame_unruled (frame : Option Json) : ∀ e ∈ (s.readFrame frame).2, Unruled e = true := by
  unfold State.readFrame
  split
  · simp
  split
  · simp
  split
  · exact addCandidate_unruled s _
  split <;> simp

/-- What a step emits is nothing that the rules look at, or it is an accepting answer, a captured
frame, the inputs of a message, or an acknowledgement. -/
inductive Effect (s : State) : Action → List Event → Prop
  | unruled {a : Action} {es : List Event} : (∀ e ∈ es, Unruled e = true) →
      (∀ doubleText frame fs, Harmless doubleText frame s fs a) → Effect s a es
  | accepted : Effect s (.localDescriptionSet true true) [.answered true none]
  | streamed (record : Bool) (rest : List Event) : s.peerConnection = true →
      (∀ e ∈ rest, Unruled e = true) → Effect s (.videoFrame record) (.streamed :: rest)
  | injected (message : Option Json) (trusted : Bool) : Effect s (.message message trusted)
      ((s.injector.receive s.targetDisplayBounds message trusted).2.map .injected)
  | acked (firstFrameAcked : Bool) :
      Effect s (.recorderAnswered firstFrameAcked) [.ack firstFrameAcked]

/-- What one step of the worker can do. -/
theorem step_effect {a : Action} {t : State} {es : List Event} (h : step s a = some (t, es)) : Effect s a es := by
  have hnone : ∀ {p : Prop}, (none : Option (State × List Event)) = some (t, es) → p :=
    fun hn => absurd hn.symm (Option.some_ne_none _)
  -- most steps emit nothing that the policy rules on
  have hquiet : ∀ {r : State × List Event}, some r = some (t, es) →
      (∀ e ∈ r.2, Unruled e = true) → (∀ doubleText frame fs, Harmless doubleText frame s fs a) →
      Effect s a es := by
    intro r hr hes hharmless
    exact .unruled (rel_of_step (fun _ es => ∀ e ∈ es, Unruled e = true) hr hes) hharmless
  unfold step at h
  cases a with
  | decode =>
    dsimp only at h
    split at h
    · exact hquiet h (decodeOffer_unruled s _) fun _ _ _ => trivial
    · exact hnone h
  | captureStarted =>
    dsimp only at h
    split at h
    · exact hquiet h (captureStarted_unruled s _) fun _ _ _ => trivial
    · exact hnone h
  | remoteDescriptionSet =>
    dsimp only at h
    split at h
    · exact hquiet h (remoteDescriptionSet_unruled s _) fun _ _ _ => trivial
    · exact hnone h
  | answerCreated ok =>
    dsimp only at h
    split at h
    · refine hquiet h ?_ fun _ _ _ => trivial
      cases ok <;> simp [State.answerFailed, Unruled]
    · exact hnone h
  | localDescriptionSet ok written =>
    dsimp only at h
    split at h
    · by_cases hdone : ok = true ∧ written = true
      · obtain ⟨rfl, rfl⟩ := hdone
        rw [← (Prod.mk.inj (Option.some.inj h)).2]
        exact .accepted
      · have hfail : (ok && written) = false := by simpa using hdone
        rw [hfail] at h
        exact hquiet h (by simp [State.answerFailed, Unruled]) fun _ _ _ hboth => absurd hboth hdone
    · exact hnone h
  | captureStopped =>
    dsimp only at h
    split at h
    · exact hquiet h (by simp) fun _ _ _ => trivial
    split at h
    · exact hquiet h (by simp) fun _ _ _ => trivial
    · exact hnone h
  | frameRead =>
    dsimp only at h
    split at h
    · exact hquiet h (readFrame_unruled s _) fun _ _ _ => trivial
    · exact hnone h
  | readFailed | captureResumed | channelOpened =>
    dsimp only at h
    split at h
    · exact hquiet h (by simp) fun _ _ _ => trivial
    · exact hnone h
  | videoFrame record =>
    dsimp only at h
    split at h
    · have hrest : ∀ e ∈ (if record && s.records then [.recorded] else [] : List Event),
          Unruled e = true := by
        split <;> simp [Unruled]
      by_cases hpeer : s.peerConnection = true
      · rw [← (Prod.mk.inj (Option.some.inj h)).2]
        simp only [hpeer, if_true]
        exact .streamed record _ hpeer hrest
      · refine hquiet h ?_ fun _ _ _ hp => absurd hp hpeer
        simpa [State.feedVideoFrame, hpeer] using hrest
    · exact hnone h
  | captureFailed | candidateGenerated | disconnected =>
    dsimp only at h
    split at h
    · exact hquiet h (by simp [Unruled]) fun _ _ _ => trivial
    · exact hnone h
  | message message trusted =>
    dsimp only at h
    split at h
    · rw [← (Prod.mk.inj (Option.some.inj h)).2]
      exact .injected message trusted
    · exact hnone h
  | recorderAnswered firstFrameAcked =>
    dsimp only at h
    split at h
    · rw [← (Prod.mk.inj (Option.some.inj h)).2]
      exact .acked firstFrameAcked
    · exact hnone h

end Steps

section Result

variable (doubleText : ℚ → String) (frame : Json)

/-- What the native worker's run has granted: nobody is ever asked, and the first frame is durable
once the recorder service said so. -/
structure Unasked (g : Granted) (es : List Event) : Prop where
  consented : g.consented = false
  authorized : g.authorized = false
  firstFrameAcked : g.firstFrameAcked = ackSeen es

theorem step_accepts_iff {s t : State} {a : Action} {es fs : List Event}
    (hinv : Unasked ((hostRules CGEvent doubleText frame).after es) es)
    (hs : step s a = some (t, fs)) :
    Unasked ((hostRules CGEvent doubleText frame).after (es ++ fs)) (es ++ fs) ∧
      ((hostRules CGEvent doubleText frame).AcceptsFrom
          ((hostRules CGEvent doubleText frame).after es) fs ↔
        Harmless doubleText frame s es a) := by
  rw [Monitor.after_append]
  generalize (hostRules CGEvent doubleText frame).after es = g at hinv ⊢
  obtain ⟨hconsent, hauth, hack⟩ := hinv
  have hkeep : fs.foldl Granted.next g = g → (∀ e ∈ fs, acksFirstFrame e = false) →
      Unasked (fs.foldl .next g) (es ++ fs) := by
    intro hsame hno
    rw [hsame]
    refine ⟨hconsent, hauth, ?_⟩
    have hany : fs.any acksFirstFrame = false := by simpa using hno
    rw [hack, ackSeen, ackSeen, List.any_append, hany, Bool.or_false]
  cases step_effect s hs with
  | unruled hes hharmless =>
    obtain ⟨hacc, hsame⟩ := accepts_unruled doubleText frame hes
    exact ⟨hkeep hsame fun e he => acksFirstFrame_of_unruled (hes e he),
      iff_of_true hacc (hharmless doubleText frame es)⟩
  | accepted =>
    refine ⟨hkeep rfl (by simp [acksFirstFrame]), ?_⟩
    show MayHost doubleText frame g ∧ True ↔ (true = true ∧ true = true → HostsUnasked doubleText frame)
    rw [mayHost_iff doubleText frame hconsent]
    simp
  | streamed _ _ hpeer hrest =>
    obtain ⟨hacc, hsame⟩ := accepts_unruled doubleText frame hrest
    refine ⟨hkeep hsame ?_, ?_⟩
    · intro e he
      rcases List.mem_cons.mp he with rfl | he
      · rfl
      · exact acksFirstFrame_of_unruled (hrest e he)
    · show MayHost doubleText frame g ∧ _ ↔ (s.peerConnection = true → HostsUnasked doubleText frame)
      rw [mayHost_iff doubleText frame hconsent]
      exact ⟨fun h _ => h.1, fun h => ⟨h hpeer, hacc⟩⟩
  | injected message trusted =>
    obtain ⟨hacc, hsame⟩ := accepts_injected doubleText frame
      (s.injector.receive s.targetDisplayBounds message trusted).2
    refine ⟨hkeep hsame (by simp [acksFirstFrame]), ?_⟩
    have hasks : (s.injector.receive s.targetDisplayBounds message trusted).2 ≠ [] ↔
        asksInput message trusted = true := by
      rw [Ne, InputInjector.receive_eq_nil_iff, Bool.not_eq_false]
    rw [hacc, hasks, mayInject_iff doubleText frame hconsent, hack]
    rfl
  | acked firstFrameAcked =>
    refine ⟨⟨hconsent, hauth, ?_⟩, iff_of_true ⟨trivial, trivial⟩ trivial⟩
    show (g.firstFrameAcked || firstFrameAcked) = ackSeen (es ++ [.ack firstFrameAcked])
    rw [hack, ackSeen, ackSeen, List.any_append]
    simp [acksFirstFrame]

/-- For every offer and every run of the native worker on it: the run keeps the Flutter worker's rules
exactly when in each of its steps what happens is harmless. -/
theorem host_rules_iff {as : List Action} {t : State} {es : List Event}
    (h : workerCoordinator.Path (.start frame) as t es) :
    (hostRules CGEvent doubleText frame).Accepts es ↔
      workerCoordinator.Every (Harmless doubleText frame) (.start frame) [] as :=
  h.accepts_iff (hostRules CGEvent doubleText frame) Unasked
    (fun _ _ _ _ _ hinv hs => step_accepts_iff doubleText frame hinv hs) [] ⟨rfl, rfl, rfl⟩

end Result

/-- An offer as the broker forwards it, with an access type, whether the local user is to be asked, and
an access mode. -/
def offerFrame (accessType : String) (confirmationRequired : Bool) (accessMode : String) : Json :=
  .obj [("type", .str "session_offer"), ("payload", .obj [
    ("session_id", .str "00000000-0000-0000-0000-000000000001"),
    ("operator_id", .str "00000000-0000-0000-0000-000000000002"),
    ("access_type", .str accessType), ("access_mode", .str accessMode),
    ("confirmation_required", .bool confirmationRequired), ("confirmation_digits", .int 2),
    ("sdp", .str "v=0\nm=video 9\nm=application 9"), ("dlp", .obj [])])]

/-- The steps that lead to an accepting answer. -/
def answering : List Action :=
  [.decode, .captureStarted (some {}), .remoteDescriptionSet true, .answerCreated true,
   .localDescriptionSet true true]

/-- The native worker accepts an attended offer although nobody was asked. -/
theorem attended_accepted_unasked : ¬∀ (doubleText : ℚ → String) (size : Json → ℕ) (frame : Json)
    (offer : SessionOffer)
      (as : List Action) (t : State) (es : List Event), decodeOffer size frame = some offer →
      workerCoordinator.Path (.start frame) as t es →
      (hostRules CGEvent doubleText frame).Accepts es := by
  intro hclaim
  have hforwarded : (decodeOffer (fun _ => 0) (offerFrame "attended" true "control")).isSome = true := by
    decide
  obtain ⟨offer, hoffer⟩ := Option.isSome_iff_exists.mp hforwarded
  have hrun : (workerCoordinator.exec (fun _ _ _ => true) (.start (offerFrame "attended" true "control"))
      [] answering).any (fun r => decide ¬(hostRules CGEvent (fun _ => "")
        (offerFrame "attended" true "control")).Accepts r.2) = true := by decide
  obtain ⟨⟨t, es⟩, hexec, hviolated⟩ := (Option.any_eq_true ..).mp hrun
  obtain ⟨_, rfl, hpath⟩ := Machine.path_of_exec answering hexec
  exact of_decide_eq_true hviolated (hclaim _ _ _ offer answering t es hoffer hpath)

/-- On an unattended offer with control and no recording the native worker answers, streams and
injects a text, as the Flutter worker may. -/
theorem host_rules_iff_unattended : ∃ t es, workerCoordinator.Path (.start (offerFrame "unattended" false "control"))
        (answering ++ [.videoFrame true, .channelOpened "link-control-v1",
          .message (some (.obj [("type", .str "text_input"), ("text", .str "a")])) true]) t es ∧
      HostEvent.injected (.unicode "a" true) ∈ es ∧
      (hostRules CGEvent (fun _ => "") (offerFrame "unattended" false "control")).Accepts es ∧
      workerCoordinator.Every (Harmless (fun _ => "") (offerFrame "unattended" false "control"))
        (.start (offerFrame "unattended" false "control")) []
        (answering ++ [.videoFrame true, .channelOpened "link-control-v1",
          .message (some (.obj [("type", .str "text_input"), ("text", .str "a")])) true]) := by
  have hrun : (workerCoordinator.exec (fun _ _ _ => true)
      (.start (offerFrame "unattended" false "control")) []
      (answering ++ [.videoFrame true, .channelOpened "link-control-v1",
        .message (some (.obj [("type", .str "text_input"), ("text", .str "a")])) true])).any
      (fun r => decide (.injected (.unicode "a" true) ∈ r.2 ∧
        (hostRules CGEvent (fun _ => "") (offerFrame "unattended" false "control")).Accepts r.2))
      = true := by decide
  obtain ⟨⟨t, es⟩, hexec, hgood⟩ := (Option.any_eq_true ..).mp hrun
  obtain ⟨hmem, hacc⟩ := of_decide_eq_true hgood
  obtain ⟨_, rfl, hpath⟩ := Machine.path_of_exec _ hexec
  exact ⟨t, es, hpath, hmem, hacc, (host_rules_iff _ _ hpath).mp hacc⟩

end LigamentApps.LinkWorkerDarwin
