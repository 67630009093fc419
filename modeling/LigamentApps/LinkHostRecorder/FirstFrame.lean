import LigamentApps.LinkHostRecorder.TailFlush

/-!
# The first frame

`_firstFrameAcked` opens the gate for the operator's input. The answer to a batch of the queue sets it
where it says so; the answer to a chunk sets it whatever it says. A strict recorder opens no spool of its
own accord, and so drains no chunk. -/

namespace LigamentApps.LinkHostRecorder

open LinkHost List

variable {s : Recorder} {beside drops : Prop} {u : Setup} {a : Action} {c : Cycle}

/-- The recorder service has acknowledged a first frame of this session. -/
def FirstFrameDurable (u : Setup) (log : List Report) : Prop :=
  ∃ b ack, .acked b ack ∈ log ∧ ack.firstFrameAcked = true ∧ b.sessionId = u.sessionId

theorem FirstFrameDurable.append {log : List Report} (h : FirstFrameDurable u log) (rs : List Report) :
    FirstFrameDurable u (log ++ rs) := by
  obtain ⟨b, ack, hmem, hfirst, hsession⟩ := h
  exact ⟨b, ack, mem_append_left _ hmem, hfirst, hsession⟩

/-- Before the first frame is durable, a chunk's answer acknowledges the first frame of this session. -/
def ConfirmsFirst (u : Setup) (s : Recorder) (a : Action) : Prop :=
  ∀ c name b ack, s.flush = .sendingChunk c name b → a = .chunkAnswered (.ok ack) →
    s.firstFrameAcked = true ∨ ack.firstFrameAcked = true ∧ b.sessionId = u.sessionId

/-- Where `_firstFrameAcked` comes from. -/
structure FirstFrame (u : Setup) (v : Evidence) : Prop where
  flag : v.firstFrameAcked = true → FirstFrameDurable u v.log
  sending : ∀ c b t, v.flush = .sending c b t → b.sessionId = u.sessionId
  removing : ∀ c name b ack, v.flush = .removing c name (some (b, ack)) → FirstFrameDurable u v.log

namespace FirstFrame

variable {u : Setup} {v w : Evidence}

theorem congr (h : FirstFrame u v) (rs : List Report) (hlog : w.log = v.log ++ rs)
    (hflag : w.firstFrameAcked = v.firstFrameAcked)
    (hsending : ∀ c b t, w.flush = .sending c b t → v.flush = .sending c b t)
    (hremoving : ∀ c name b ack, w.flush = .removing c name (some (b, ack)) →
      v.flush = .removing c name (some (b, ack))) : FirstFrame u w where
  flag := by
    rw [hflag, hlog]
    exact fun hacked => (h.flag hacked).append rs
  sending := fun c b t hphase => h.sending c b t (hsending c b t hphase)
  removing := by
    rw [hlog]
    exact fun c name b ack hphase => (h.removing c name b ack (hremoving c name b ack hphase)).append rs

theorem turn (h : FirstFrame u v) (hturn : Turn u v c w) : FirstFrame u w := by
  cases hturn with
  | listing | selecting => exact h.congr [] (append_nil _).symm rfl (by simp) (by simp)

theorem calm (h : FirstFrame u v) (hmove : Calm u drops beside v w) : FirstFrame u w := by
  cases hmove with
  | acceptFrame | acceptEvent | merge | violation | stopReturned =>
    exact h.congr [_] rfl rfl (fun _ _ _ => id) (fun _ _ _ _ => id)
  | refuse isFrame =>
    cases isFrame
    · exact h.congr [_] rfl rfl (fun _ _ _ => id) (fun _ _ _ _ => id)
    · exact h.congr [_] rfl rfl (fun _ _ _ => id) (fun _ _ _ _ => id)
  | mark => exact h.congr [_, _, _] rfl rfl (fun _ _ _ => id) (fun _ _ _ _ => id)
  | freeze | forget | take | spillNothing =>
    exact h.congr [] (append_nil _).symm rfl (fun _ _ _ => id) (fun _ _ _ _ => id)
  | round _ _ _ _ _ hturn => exact h.turn hturn
  | send c sentAt _ _ =>
    constructor
    case flag => exact fun hacked => (h.flag hacked).append _
    case sending =>
      intro c' b t hphase
      cases hphase
      rfl
    case removing => simp
  | _ => exact h.congr [] (append_nil _).symm rfl (by simp) (by simp)

theorem head (h : FirstFrame u s.toEvidence) (hconfirms : ConfirmsFirst u s a) (hmove : Head u s a w) :
    FirstFrame u w := by
  -- The log after a chunk's answer holds an acknowledged first frame.
  have hchunk : ∀ {c name b ack}, s.flush = .sendingChunk c name b → a = .chunkAnswered (.ok ack) →
      FirstFrameDurable u (s.log ++ [.acked b ack]) := by
    intro c name b ack hflush ha
    rcases hconfirms c name b ack hflush ha with hacked | ⟨hfirst, hsession⟩
    · exact (h.flag hacked).append _
    · exact ⟨b, ack, mem_append_right _ (mem_singleton.mpr rfl), hfirst, hsession⟩
  -- So does the log after a live answer that sets the flag.
  have hlive : ∀ {c b t ack}, s.flush = .sending c b t →
      s.firstFrameAcked = true ∨ ack.firstFrameAcked = true →
      FirstFrameDurable u (s.log ++ [.acked b ack]) := by
    intro c b t ack hflush hfirst
    rcases hfirst with hacked | hacked
    · exact (h.flag hacked).append _
    · exact ⟨b, ack, mem_append_right _ (mem_singleton.mpr rfl), hacked, h.sending c b t hflush⟩
  cases hmove with
  | none => exact h
  | spillEnsured | spillChecked | spillFailed | spillSettled =>
    exact h.congr [] (append_nil _).symm rfl (fun _ _ _ => id) (fun _ _ _ _ => id)
  | spillWritten => exact h.congr [_] rfl rfl (fun _ _ _ => id) (fun _ _ _ _ => id)
  | chunkRead => exact h.congr [_] rfl rfl (by simp) (by simp)
  | chunkAcked ack hflush _ =>
    constructor
    case flag => exact fun _ => hchunk hflush rfl
    case sending => simp
    case removing => exact fun _ _ _ _ _ => hchunk hflush rfl
  | chunkUnacked ack hflush _ =>
    constructor
    case flag => exact fun _ => hchunk hflush rfl
    case sending => simp
    case removing => simp
  | @chunkRemoved c name answer ok hflush =>
    constructor
    case flag =>
      intro hacked
      rcases Bool.or_eq_true_iff.mp hacked with hbefore | hsome
      · exact h.flag hbefore
      · obtain ⟨⟨b, ack⟩, rfl⟩ := Option.isSome_iff_exists.mp hsome
        exact h.removing c name b ack hflush
    case sending => simp
    case removing => simp
  | liveUnsettled ack first hflush hfirst =>
    constructor
    case flag => exact fun hacked => hlive hflush (hfirst hacked)
    case sending => exact h.sending
    case removing => exact fun c name b ack hphase => (h.removing c name b ack hphase).append _
  | liveSettled ack hflush _ =>
    constructor
    case flag => exact fun hacked => hlive hflush (Bool.or_eq_true_iff.mp hacked)
    case sending => exact h.sending
    case removing => exact fun c name b ack hphase => (h.removing c name b ack hphase).append _
  | flushContinued _ _ hturn => exact h.turn hturn
  | _ => exact h.congr [] (append_nil _).symm rfl (by simp) (by simp)

theorem create (clock : ℤ) (spool : LinkSpoolStorage) : FirstFrame u (Recorder.create clock spool).toEvidence where
  flag := by simp [Recorder.create]
  sending := by simp [Recorder.create]
  removing := by simp [Recorder.create]

theorem step {s t : Recorder} {a : Action} (h : FirstFrame u s.toEvidence) (hconfirms : ConfirmsFirst u s a)
    (hstep : LinkHostRecorder.step u s a = some t) : FirstFrame u t.toEvidence := by
  obtain ⟨w, hw, hcalmly⟩ := step_moves hstep
  exact hcalmly.preserves (fun _ _ hv hmove => hv.calm hmove) (h.head hconfirms hw)

end FirstFrame

/-! ## The flag stays -/

theorem Calm.firstFrameAcked {v w : Evidence} (h : Calm u drops beside v w) :
    w.firstFrameAcked = v.firstFrameAcked := by
  cases h with
  | round _ _ _ _ _ hturn =>
    cases hturn with
    | listing | selecting => rfl
  | refuse isFrame =>
    cases isFrame with
    | false | true => rfl
  | _ => rfl

theorem Calmly.firstFrameAcked {v w : Evidence} (h : Calmly u drops beside v w) :
    w.firstFrameAcked = v.firstFrameAcked :=
  h.preserves (fun _ _ hx hmove => hmove.firstFrameAcked.trans hx)
    rfl

theorem Recorder.keeps_liveAnswered {b : Batch} {sentAt : ℕ} {ack : BatchAck}
    (h : s.firstFrameAcked = true) : (s.liveAnswered u c b sentAt (.ok ack)).firstFrameAcked = true := by
  have hnoted : ∀ t : Recorder, t.firstFrameAcked = true → (t.noteLiveAck ack).firstFrameAcked = true :=
      fun t ht => by
    show (t.firstFrameAcked || ack.firstFrameAcked) = true
    rw [ht, Bool.true_or]
  have hcalm : ∀ {v w : Evidence}, Calmly u True True v w → w.firstFrameAcked = v.firstFrameAcked := fun hmoves =>
    hmoves.firstFrameAcked
  have hstop : ∀ t : Recorder, t.firstFrameAcked = true →
    ∀ r, (t.triggerMandatoryStop u r).firstFrameAcked = true :=
    fun t ht r => (hcalm (t.calmly_triggerMandatoryStop u r)).trans ht
  unfold liveAnswered liveAcked
  dsimp only
  split
  · exact h
  split
  · refine hstop _ ?_ _
    exact hnoted _ h
  · exact hnoted _ h
  · have hsettled : ∀ t : Recorder, t.firstFrameAcked = true → (t.settleAcked u b ack).firstFrameAcked = true := by
      intro t ht
      have hforgot : ∀ r : Recorder, r.firstFrameAcked = true → r.forgetMarker.firstFrameAcked = true := fun r hr =>
        (hcalm (r.calmly_forgetMarker u)).trans hr
      refine (hcalm (Recorder.calmly_materializeLossMarker u _)).trans (hforgot _ ?_)
      split
      · exact ht
      · exact ht
    refine (hcalm (Recorder.calmly_checkFirstFrame u _ _)).trans (hsettled _ ?_)
    exact hnoted _ h

theorem step_keeps_firstFrame {t : Recorder} (hstep : step u s a = some t) (h : s.firstFrameAcked = true) :
    t.firstFrameAcked = true := by
  obtain ⟨w, hhead, hcalmly⟩ := step_moves hstep
  have hcalm : t.firstFrameAcked = w.firstFrameAcked := hcalmly.firstFrameAcked
  cases hhead with
  | @liveUnsettled c b sentAt ack first hflush _ =>
    cases stepsTo hstep
    exact Recorder.keeps_liveAnswered h
  | chunkUnacked => exact hcalm
  | chunkRemoved =>
    rw [hcalm]
    rw [h, Bool.true_or]
  | liveSettled ack =>
    rw [hcalm]
    show (s.firstFrameAcked || ack.firstFrameAcked) = true
    rw [h, Bool.true_or]
  | flushContinued _ _ hturn =>
    rw [hcalm]
    cases hturn with
    | listing | selecting => exact h
  | _ => exact hcalm.trans h

/-! ## A strict recorder -/

/-- The spool was not opened, and no spill holds anything. -/
structure Unopened (v : Evidence) : Prop where
  closed : v.spool.initialized = false
  empty : v.spool.pendingCount = 0
  unheld : v.spill.batch = none
  undrained : v.flush.drains = false

namespace Unopened

variable {u : Setup} {v w : Evidence}

theorem hasNoChunks (h : Unopened v) : v.spool.hasPendingChunks = false := by
  simp [LinkSpoolStorage.hasPendingChunks, h.empty]

theorem congr (h : Unopened v) (hspool : w.spool = v.spool) (hspill : w.spill.batch = none)
    (hflush : w.flush.drains = false) : Unopened w := by
  refine ⟨?_, ?_, hspill, hflush⟩
  · rw [hspool]
    exact h.closed
  · rw [hspool]
    exact h.empty

theorem turn (h : Unopened v) (hturn : Turn u v c w) : Unopened w := by
  cases hturn with
  | listing hknows => simp [Evidence.knowsChunks, h.hasNoChunks] at hknows
  | selecting => exact h.congr rfl h.unheld rfl

theorem calm (h : Unopened v) (hstrict : u.config.isStrict = true) (hmove : Calm u drops beside v w) :
    Unopened w := by
  cases hmove with
  | take _ _ hspills =>
    rw [hstrict, h.hasNoChunks] at hspills
    simp at hspills
  | merge =>
    refine h.congr rfl ?_ h.undrained
    have hnone := h.unheld
    show (v.spill.setMetadata _).batch = none
    cases hspill : v.spill <;> simp_all [SpillPhase.setMetadata, SpillPhase.batch]
  | refuse isFrame => cases isFrame <;> exact h.congr rfl h.unheld h.undrained
  | spillNothing => exact h.congr rfl rfl h.undrained
  | round _ _ _ _ _ hturn => exact h.turn hturn
  | awaitSpill | insecure | settle | send | returned =>
    exact h.congr rfl h.unheld rfl
  | _ => exact h.congr rfl h.unheld h.undrained

theorem head (h : Unopened s.toEvidence) (hmove : Head u s a w) : Unopened w := by
  have hunheld := h.unheld
  have hundrained := h.undrained
  cases hmove with
  | none => exact h
  | spillEnsured _ hspill | spillChecked _ hspill | spillWritten hspill =>
    simp [hspill, SpillPhase.batch] at hunheld
  | spillFailed hspill => cases hunheld.symm.trans hspill
  | spillSettled => exact h.congr rfl rfl hundrained
  | chunkListed hflush | nothingListed hflush | chunkRead hflush | chunkUnreadable hflush
  | chunkAcked _ hflush | chunkUnacked _ hflush | chunkRemoved _ hflush =>
    simp [hflush, FlushPhase.drains] at hundrained
  | liveUnsettled | liveSettled => exact h.congr rfl hunheld hundrained
  | flushContinued _ _ hturn => exact h.turn hturn
  | flushSettled => exact h.congr rfl hunheld rfl

theorem step {s t : Recorder} {a : Action} (h : Unopened s.toEvidence) (hstrict : u.config.isStrict = true)
    (hstep : LinkHostRecorder.step u s a = some t) : Unopened t.toEvidence := by
  obtain ⟨w, hw, hcalmly⟩ := step_moves hstep
  exact hcalmly.preserves (fun _ _ hv hmove => hv.calm hstrict hmove) (h.head hw)

theorem confirmsFirst (h : Unopened s.toEvidence) (a : Action) : ConfirmsFirst u s a := by
  intro c name b ack hflush _
  have hundrained := h.undrained
  rw [hflush] at hundrained
  simp [FlushPhase.drains] at hundrained

theorem create (clock : ℤ) (dir : SpoolDir) : Unopened (Recorder.create clock { dir }).toEvidence :=
  ⟨rfl, rfl, rfl, rfl⟩

end Unopened

end LigamentApps.LinkHostRecorder
