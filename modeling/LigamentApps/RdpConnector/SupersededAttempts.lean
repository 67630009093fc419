import LigamentApps.RdpConnector.AttemptOrder

/-!
# Attempts that are superseded

An attempt whose generation or session is not the current one should leave the service alone once a newer
attempt is there. It does so exactly if it fails at no await whose failure goes to `_fail` without a check,
and if its `_finish` comes to its end when the phase is closed already. In the runs that keep to this every
tunnel is the one of the current session. -/

namespace LigamentApps.RdpConnector

namespace RdpConnectorService

variable (s : RdpConnectorService)

/-- The continuation of an outdated attempt changes nothing that a newer one has. -/
def Inert (platform : Platform) (a : RdpAction) : Prop :=
  ∀ n, s.stale a = some n → n + 1 < s.started → ∀ t ∈ s.step platform a, t.view = s.view

/-- Every tunnel is the one of the current session. -/
def NoOrphan : Prop := ∀ n, s.tunnel n = true → s.session = some n

/-- No two tunnels are live. -/
def OneTunnel : Prop := ∀ n m, s.tunnel n = true → s.tunnel m = true → n = m

/-- Outdated attempts are inert, no tunnel is orphaned, and no two are live. -/
def Isolated (platform : Platform) (a : RdpAction) : Prop :=
  s.Inert platform a ∧ ∀ t ∈ s.step platform a, t.NoOrphan ∧ t.OneTunnel

variable {s}

theorem NoOrphan.oneTunnel (h : s.NoOrphan) : s.OneTunnel := by
  intro n m hn hm
  have hsame : some n = some m := (h n hn).symm.trans (h m hm)
  exact Option.some.inj hsame

variable {platform : Platform}

theorem Orderly.noOrphan (h : s.Orderly) : s.NoOrphan := fun n hn => (h.tunnel n hn).1

theorem view_finished_iff (h : s.Orderly) (n : ℕ) (reason : EndReason) :
    (s.resumeFinish n (.listener reason)).view = s.view ↔ reason ≠ .expired ∧ s.phase = .closed := by
  have hview : (closeGrantQuietly n (s.modify n fun a => { a with finishing := none })).view = s.view := by
    unfold closeGrantQuietly
    split <;> rfl
  unfold resumeFinish
  dsimp only
  generalize closeGrantQuietly n (s.modify n fun a => { a with finishing := none }) = u at hview
  by_cases hreason : reason = .expired
  · rw [if_pos hreason, view_fail]
    have hgeneration : u.connectGeneration = s.connectGeneration := congrArg ServiceView.connectGeneration hview
    constructor
    · intro hsame
      have hnext := congrArg ServiceView.connectGeneration hsame
      rw [hgeneration] at hnext
      exact absurd hnext (Nat.succ_ne_self _)
    · exact fun hguard => absurd hreason hguard.1
  · rw [if_neg hreason]
    have hclosed : (u.setPhase .closed).view = ⟨.closed, none, u.view.connectGeneration, u.view.session⟩ := rfl
    rw [hclosed, hview]
    constructor
    · intro hsame
      exact ⟨hreason, (congrArg ServiceView.phase hsame).symm⟩
    · rintro ⟨-, hphase⟩
      have hshown := h.shown (by rw [hphase]; decide)
      unfold view
      rw [hphase, hshown]

theorem finish_outdated {n : ℕ} (hsession : s.session ≠ some n) (reason : EndReason) : s.finish n reason = s :=
  if_pos hsession

/-- A superseded attempt changes nothing of the current one exactly where its step is guarded. -/
theorem inert_iff (h : s.Orderly) (a : RdpAction) : s.Inert platform a ↔ s.Guarded a := by
  have hother : ∀ {n k : ℕ}, (if s.session ≠ some k then some k else none) = some n →
      k = n ∧ s.session ≠ some k := by
    intro n k hstale
    split at hstale
    · rename_i hsession
      exact ⟨Option.some.inj hstale, hsession⟩
    · cases hstale
  refine forall_congr' fun n => forall_congr' fun hstale => forall_congr' fun hnewer => ?_
  cases a with
  | connect | connectBridge | close | setHandler => cases hstale
  | resumes k reply =>
    obtain ⟨stage, hstage, hout⟩ := Option.bind_eq_some_iff.mp hstale
    split at hout
    · rename_i houtdated
      obtain rfl := Option.some.inj hout
      have hstep : s.step platform (.resumes k reply) =
          some (resumeAttempt k stage reply (s.modify k fun a => { a with stage := none })) := by
        show ((s.attempts k).stage.map _) = _
        rw [hstage]
        rfl
      have hstill : (s.modify k fun a => { a with stage := none }).outdated k stage = true := by
        rw [← houtdated]
        unfold outdated
        rw [attempts_modify_self]
        rfl
      rw [hstep, hstage]
      constructor
      · intro hinert next hnext
        obtain rfl := Option.some.inj hnext
        cases hfails : stage.failsUnchecked reply with
        | false => rfl
        | true =>
          obtain ⟨failure, hview⟩ :=
            resumeAttempt_unchecked hfails
          have hsame := hinert _ rfl
          rw [hview] at hsame
          have hgeneration := congrArg ServiceView.connectGeneration hsame
          exact absurd hgeneration (Nat.succ_ne_self _)
      · intro hchecked t ht
        obtain rfl := Option.some.inj ht
        exact resumeAttempt_outdated hstill (hchecked stage rfl)
    · cases hout
  | finishes k =>
    obtain ⟨rfl, -⟩ := hother hstale
    constructor
    · intro hinert reason hfinishing
      have hview := hinert (s.resumeFinish k (.listener reason)) (by
        show ((s.attempts k).finishing.map _) = _
        rw [hfinishing]
        rfl)
      exact (view_finished_iff h k reason).mp hview
    · intro hguard t ht
      obtain ⟨finishing, hfinishing, rfl⟩ := Option.map_eq_some_iff.mp ht
      cases finishing with
      | ws => rfl
      | listener reason => exact (view_finished_iff h k reason).mpr (hguard reason hfinishing)
  | ttlFires k =>
    obtain ⟨-, hsession⟩ := hother hstale
    refine iff_of_true (fun t ht => ?_) trivial
    unfold step at ht
    dsimp only at ht
    split at ht
    · obtain rfl := Option.some.inj ht
      unfold ttlFires
      split
      · exact (congrArg view (finish_outdated (s := s.modify k (.drop .grantTtl)) hsession .expired)).trans rfl
      · rfl
    · cases ht
  | clientExits k =>
    obtain ⟨-, hsession⟩ := hother hstale
    refine iff_of_true (fun t ht => ?_) trivial
    unfold step at ht
    dsimp only at ht
    split at ht
    · obtain rfl := Option.some.inj ht
      unfold clientExits
      split
      · exact (congrArg view (finish_outdated (s := s.modify k (.drop .mstsc)) hsession .mstscExited)).trans rfl
      · rfl
    · cases ht
  | transportEnds =>
    obtain ⟨-, hsession⟩ := hother hstale
    refine iff_of_true (fun t ht => ?_) trivial
    unfold step at ht
    dsimp only at ht
    split at ht
    · cases ht
      exact congrArg view (finish_outdated hsession _)
    · cases ht

theorem isolated_iff (h : s.Orderly) (a : RdpAction) : s.Isolated platform a ↔ s.Guarded a := by
  constructor
  · exact fun hisolated => (inert_iff h a).mp hisolated.1
  · intro hguarded
    refine ⟨(inert_iff h a).mpr hguarded, fun t ht => ?_⟩
    have horphan := (orderly_step h hguarded ht).noOrphan
    exact ⟨horphan, horphan.oneTunnel⟩

theorem orderly_start : ({} : RdpConnectorService).Orderly := by
  refine ⟨?_, ?_, nofun, nofun, fun _ => rfl, fun _ _ => ⟨rfl, rfl, fun _ => ⟨rfl, rfl⟩⟩, nofun, ?_⟩
  · intro n m _ hm
    exact absurd hm (Nat.not_lt_zero m)
  · intro n hn
    exact absurd hn (Nat.not_lt_zero n)
  · intro n hsome
    exact absurd rfl hsome

end RdpConnectorService

/-- In every run the steps are isolated exactly if they are guarded: if no outdated attempt fails at an await
whose failure is not checked, nor comes to the end of its `_finish` with something to say, while there is a
newer attempt. -/
theorem superseded_inert_iff (platform : Platform) (as : List RdpAction) :
    (rdpMachine platform).Every (fun s _ a => s.Isolated platform a) {} [] as ↔
      (rdpMachine platform).Every (fun s _ a => s.Guarded a) {} [] as := by
  refine Machine.every_iff (fun (s : RdpConnectorService) _ => s.Orderly) ?_
    (fun s _ a h => RdpConnectorService.isolated_iff h a) as {} []
    RdpConnectorService.orderly_start
  intro s _ a t _ h hguarded hstep
  obtain ⟨u, hu, heq⟩ := Option.map_eq_some_iff.mp hstep
  cases heq
  exact RdpConnectorService.orderly_step h hguarded hu

/-- An attempt awaits its grant when it is cancelled, and another begins. The grant of the first is refused
when the second has its session, which it loses. -/
theorem refused_grant_ends_newer :
    ¬∀ platform as, (rdpMachine platform).Every (fun s _ a => s.Isolated platform a) {} [] as := by
  intro h
  let platform : Platform := ⟨true, true⟩
  let refused : RdpAction := .resumes 0 { error := some "403" }
  let as : List RdpAction := [.connect, .resumes 0 {}, .close, .connect, .resumes 1 {},
    .resumes 1 { grant := some { grantId := "g", token := "t" } }]
  have hcheck : ((rdpMachine platform).exec (fun _ _ _ => true) {} [] as).any (fun r =>
      r.1.stale refused = some 0 && r.1.started = 2 && r.1.session = some 1 &&
        (r.1.step platform refused).any fun t => t.session = none) = true := by
    decide +kernel
  obtain ⟨s, es, hpath, hs⟩ := Machine.path_of_check hcheck
  simp only [Bool.and_eq_true, decide_eq_true_eq, Option.any_eq_true] at hs
  obtain ⟨⟨⟨hstale, hstarted⟩, hsession⟩, t, hstep, hlost⟩ := hs
  have hisolated := (h platform (as ++ [refused])).good hpath
  have hnewer : 0 + 1 < s.started := by
    rw [hstarted]
    exact Nat.lt_succ_self 1
  have hview := hisolated.1 0 hstale hnewer t hstep
  have hsame : t.session = s.session := congrArg ServiceView.session hview
  rw [hlost, hsession] at hsame
  cases hsame

end LigamentApps.RdpConnector
