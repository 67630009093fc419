import LigamentApps.LinkHostRecorder.StepMoves

/-!
# What a step reports

A step adds to the log and takes nothing from it. The last of its reports is that `stop` returns true
only where the tail is flushed. -/

namespace LigamentApps.LinkHostRecorder

section Reports

variable {u : Setup} {drops beside : Prop} {v w : Evidence}

theorem TailFlushed.congr (h : TailFlushed u v) (hframes : w.pendingFrames = v.pendingFrames)
    (hevents : w.pendingEvents = v.pendingEvents) (hlostFrames : w.droppedFrames = v.droppedFrames)
    (hlostEvents : w.droppedEvents = v.droppedEvents) (hspool : w.spool = v.spool) : TailFlushed u w where
  queueEmpty := by
    have hempty := h.queueEmpty
    unfold Evidence.queueEmpty at *
    rw [hframes, hevents]
    exact hempty
  noFramesLost := hlostFrames.trans h.noFramesLost
  noEventsLost := hlostEvents.trans h.noEventsLost
  noChunks := by
    have hnone := h.noChunks
    unfold Evidence.knowsChunks at *
    rw [hspool]
    exact hnone

theorem Calm.reports (hmove : Calm u drops beside v w) :
    w.log = v.log ∧ (u.config.enabled = true → TailFlushed u v → TailFlushed u w) ∨
      ∃ rs r, w.log = v.log ++ (rs ++ [r]) ∧
        (r = .stopReturned true → u.config.enabled = true → TailFlushed u w) := by
  have hquiet : ∀ {w : Evidence}, w.log = v.log → w.pendingFrames = v.pendingFrames →
      w.pendingEvents = v.pendingEvents → w.droppedFrames = v.droppedFrames →
      w.droppedEvents = v.droppedEvents → w.spool = v.spool →
      w.log = v.log ∧ (u.config.enabled = true → TailFlushed u v → TailFlushed u w) :=
    fun hlog hframes hevents hlostFrames hlostEvents hspool =>
      ⟨hlog, fun _ h => h.congr hframes hevents hlostFrames hlostEvents hspool⟩
  cases hmove with
  | acceptFrame f => exact .inr ⟨[], .accepted (.frame f), rfl, by simp⟩
  | acceptEvent e => exact .inr ⟨[], .accepted (.event e), rfl, by simp⟩
  | refuse isFrame =>
    refine .inr ⟨[], .refused isFrame, ?_, by simp⟩
    cases isFrame <;> rfl
  | mark f m =>
    exact .inr ⟨[.accepted (.frame f), .accepted (.event m)], .marker m, rfl, by simp⟩
  | merge previous => exact .inr ⟨[], .marker (v.mergedMarker previous), rfl, by simp⟩
  | violation reason => exact .inr ⟨[], .violation reason, rfl, by simp⟩
  | stopReturned result hflushed =>
    refine .inr ⟨[], .stopReturned result, rfl, fun hresult hon => ?_⟩
    exact (hflushed (by simpa using hresult) hon).congr rfl rfl rfl rfl rfl
  | send c =>
    exact .inr ⟨[], .sent true (v.liveBatch u c.upperSeq) v.spool.dir.batches, rfl, by simp⟩
  | take _ hne =>
    refine .inl ⟨rfl, fun _ hflushed => ?_⟩
    rw [hflushed.queueEmpty] at hne
    simp at hne
  | round _ _ _ _ _ hturn => cases hturn <;> exact .inl (hquiet rfl rfl rfl rfl rfl rfl)
  | _ => exact .inl (hquiet rfl rfl rfl rfl rfl rfl)

theorem Calmly.reports (h : Calmly u drops beside v w) : ∃ rs, w.log = v.log ++ rs ∧
      (rs.getLast? = some (.stopReturned true) → u.config.enabled = true → TailFlushed u w) := by
  induction h with
  | refl => exact ⟨[], (List.append_nil _).symm, by simp⟩
  | tail _ hmove ih =>
    obtain ⟨rs, hrs, hlast⟩ := ih
    rcases hmove.reports with ⟨hsame, hquiet⟩ | ⟨rs', r, hmore, hreturned⟩
    · exact ⟨rs, hsame.trans hrs, fun hreturned hon => hquiet hon (hlast hreturned hon)⟩
    · refine ⟨rs ++ (rs' ++ [r]), by rw [hmore, hrs, List.append_assoc], fun hr hon => ?_⟩
      rw [← List.append_assoc, List.getLast?_concat] at hr
      exact hreturned (Option.some.inj hr) hon

theorem Head.reports {s : Recorder} {a : Action} (hmove : Head u s a w) :
    ∃ rs, w.log = s.log ++ rs ∧ rs.getLast? ≠ some (.stopReturned true) := by
  cases hmove with
  | spillWritten | chunkRead | chunkAcked | chunkUnacked | liveUnsettled
  | liveSettled => exact ⟨_, rfl, by simp⟩
  | flushContinued _ _ hturn => cases hturn <;> exact ⟨[], (List.append_nil _).symm, by simp⟩
  | _ => exact ⟨[], (List.append_nil _).symm, by simp⟩

theorem log_step {s t : Recorder} {a : Action} (hstep : step u s a = some t) : ∃ rs, t.log = s.log ++ rs := by
  obtain ⟨w, hhead, hcalmly⟩ := step_moves hstep
  obtain ⟨rs, hw, -⟩ := hhead.reports
  obtain ⟨rs', ht, -⟩ := hcalmly.reports
  exact ⟨rs ++ rs', by rw [ht, hw, List.append_assoc]⟩

theorem Calm.log_prefix (hmove : Calm u drops beside v w) : ∃ rs, w.log = v.log ++ rs := by
  rcases hmove.reports with ⟨hsame, -⟩ | ⟨rs, r, hmore, -⟩
  · exact ⟨[], by rw [hsame, List.append_nil]⟩
  · exact ⟨rs ++ [r], hmore⟩

end Reports

end LigamentApps.LinkHostRecorder
