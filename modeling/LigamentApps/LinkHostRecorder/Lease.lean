import LigamentApps.LinkHostRecorder.Clocks
import LigamentApps.LinkHostRecorder.SpillFailure

/-!
# The lease

An ACK leases the recording to the host from the moment its batch was sent. The answer to a batch of the
queue takes the round trip off the time it is given; the answer to a chunk does not, and where it gives no
time, the lease starts again. An ACK without `lease_ttl_ms` leases until its `lease_expires_at`. -/

namespace LigamentApps.LinkHostRecorder

open LinkHost

/-- The lease is over, at a time of the stopwatch. -/
def Recorder.LeaseOverAt (s : Recorder) (time : ℕ) : Prop :=
  ∃ ttl, s.leaseTtl = some ttl ∧
    ttl ≤ (match s.leaseStartedAt with | some start => time - start | none => 0 : ℕ)

/-- The recorder with what the service can know: when the batch in flight was sent, and when the lease of
the last ACK that the recorder took a lease from is over for the service, on the stopwatch. -/
structure Leased where
  recorder : Recorder
  sentAt : ℕ := 0
  granted : Option ℤ := none

/-- When the batch in flight was sent, after a step. -/
def sentAfter (sentAt : ℕ) (a : Action) (t : Recorder) : ℕ :=
  match a, t.flush with
  | .chunkRead _, .sendingChunk _ _ _ => t.elapsed
  | _, .sending _ _ time => time
  | _, _ => sentAt

/-- When the lease of an ACK is over for the service, the millisecond included that the code rounds; 0 where
it leases nothing. -/
def leaseEnd (s : Leased) (ack : BatchAck) : ℤ :=
  match ack.leaseTtlMs with
  | some ms => if 0 < ms then s.sentAt + ms * 1000 + 1000 else 0
  | none =>
    if s.recorder.clock < ack.leaseExpiresAt then s.recorder.elapsed + (ack.leaseExpiresAt - s.recorder.clock) else 0

/-- The answer to a batch of the queue is refused, since it lacks the `lease_ttl_ms` of the contract. -/
def lacksLease (u : Setup) (a : Action) (ack : BatchAck) : Bool :=
  match a with
  | .liveAnswered _ => ack.leaseTtlMs.isNone && u.config.mandatory && u.config.contractVersion ≠ "v1"
  | _ => false

def grantedAfter (u : Setup) (s : Leased) (a : Action) : Option ℤ :=
  match processedAck s.recorder a with
  | some ack => if lacksLease u a ack then s.granted else some (leaseEnd s ack)
  | none => s.granted

/-- The recorder with its lease, as a machine. -/
def leased (u : Setup) : Machine Leased Action Empty :=
  ⟨fun s a => (step u s.recorder a).map fun t => (⟨t, sentAfter s.sentAt a t, grantedAfter u s a⟩, [])⟩

/-- From the time on at which the lease of the last ACK is over for the service, it is over for the host. -/
def LeaseSafe (s : Leased) : Prop :=
  ∀ ends, s.granted = some ends → ∀ time, s.recorder.elapsed ≤ time → ends ≤ time → s.recorder.LeaseOverAt time

/-- A chunk's ACK that leases time by `lease_ttl_ms` is processed at most a millisecond after the chunk was
sent; one that leases none, or none any more by `lease_expires_at`, finds no time on the lease. -/
def ChunkLease (s : Leased) (ack : BatchAck) : Prop :=
  match ack.leaseTtlMs with
  | some ms =>
    (0 < ms ∧ s.recorder.elapsed ≤ s.sentAt + 1000) ∨
      (ms ≤ 0 ∧ ack.leaseExpiresAt ≤ s.recorder.clock ∧ ∃ ttl ≤ 0, s.recorder.leaseTtl = some ttl)
  | none => s.recorder.clock < ack.leaseExpiresAt ∨ ∃ ttl ≤ 0, s.recorder.leaseTtl = some ttl

/-- `ChunkLease` of the chunk's ACK that a step processes. -/
def KeepsLease (s : Leased) (a : Action) : Prop :=
  ∀ ack, processedAck s.recorder a = some ack → (∀ answer, a ≠ .liveAnswered answer) → ChunkLease s ack

structure LeaseKept (s : Leased) : Prop where
  safe : LeaseSafe s
  sending : ∀ c b time, s.recorder.flush = .sending c b time → s.sentAt = time

section Lease

variable {u : Setup} {s : Leased} {t : Recorder} {a : Action}

theorem LeaseSafe.of_same (h : LeaseSafe s) (hgranted : grantedAfter u s a = s.granted)
    (httl : t.leaseTtl = s.recorder.leaseTtl) (hstart : t.leaseStartedAt = s.recorder.leaseStartedAt)
    (helapsed : s.recorder.elapsed ≤ t.elapsed) : LeaseSafe ⟨t, sentAfter s.sentAt a t, grantedAfter u s a⟩ := by
  intro ends hafter time htime hover
  have hbefore : s.granted = some ends := hgranted.symm.trans hafter
  obtain ⟨ttl, hbeforeTtl, hle⟩ := h ends hbefore time (helapsed.trans htime) hover
  refine ⟨ttl, httl.trans hbeforeTtl, ?_⟩
  rw [hstart]
  exact hle

theorem granted_same (hnone : processedAck s.recorder a = none) : grantedAfter u s a = s.granted := by
  unfold grantedAfter
  rw [hnone]

/-- The lease is over once it has no time, whenever it was started. -/
theorem Recorder.LeaseOverAt.of_nonpos {r : Recorder} {ttl : ℤ} (hzero : ttl ≤ 0)
    (httl : r.leaseTtl = some ttl) (time : ℕ) : r.LeaseOverAt time :=
  ⟨ttl, httl, Int.le_trans hzero (Int.natCast_nonneg _)⟩

/-- The lease is over once its time has passed since it was started. -/
theorem Recorder.LeaseOverAt.of_le {r : Recorder} {ttl : ℤ} {start time : ℕ} (httl : r.leaseTtl = some ttl)
    (hstart : r.leaseStartedAt = some start) (hle : ttl ≤ (time - start : ℕ)) : r.LeaseOverAt time := by
  refine ⟨ttl, httl, ?_⟩
  rw [hstart]
  exact hle

theorem leaseSafe_live {c : Cycle} {b : Batch} {sentAt : ℕ} {ack : BatchAck} {ttl : Option ℤ}
    {start : Option ℕ} (h : LeaseSafe s) (hflush : s.recorder.flush = .sending c b sentAt)
      (hsent : s.sentAt = sentAt)
    (hwatermark : ¬ (0 < ack.ackHighWatermarkSeq ∧ ack.ackHighWatermarkSeq < s.recorder.ackedSeq))
    (hlease : match s.recorder.liveLease u ack (s.recorder.elapsed - sentAt) with
      | .granted span => ttl = some span ∧ start = some s.recorder.elapsed
      | .expired => ttl = some 0 ∧ start = s.recorder.leaseStartedAt
      | .missing => ttl = s.recorder.leaseTtl ∧ start = s.recorder.leaseStartedAt)
    (httl : t.leaseTtl = ttl) (hstart : t.leaseStartedAt = start)
    (helapsed : t.elapsed = s.recorder.elapsed) :
    LeaseSafe ⟨t, sentAfter s.sentAt (.liveAnswered (.ok ack)) t, grantedAfter u s (.liveAnswered (.ok ack))⟩ := by
  have hprocessed : processedAck s.recorder (.liveAnswered (.ok ack)) = some ack := by
    simp only [processedAck, hflush, if_neg hwatermark]
  by_cases hlacks : lacksLease u (.liveAnswered (.ok ack)) ack = true
  · -- The answer is refused, and the lease of before stays.
    have hmissing : s.recorder.liveLease u ack (s.recorder.elapsed - sentAt) = .missing := by
      simp only [lacksLease, Bool.and_eq_true, Option.isNone_iff_eq_none] at hlacks
      obtain ⟨⟨hnone, hmandatory⟩, hcontract⟩ := hlacks
      simp only [Recorder.liveLease, hnone, hmandatory, hcontract, Bool.and_self, if_true]
    rw [hmissing] at hlease
    refine h.of_same ?_ (httl.trans hlease.1) (hstart.trans hlease.2) helapsed.ge
    simp only [grantedAfter, hprocessed, if_pos hlacks]
  intro ends hgranted time htime hover
  simp only [grantedAfter, hprocessed, if_neg hlacks, Option.some.injEq] at hgranted
  subst hgranted
  change t.elapsed ≤ time at htime
  rw [helapsed] at htime
  unfold leaseEnd at hover
  unfold Recorder.liveLease at hlease
  cases hms : ack.leaseTtlMs with
  | some ms =>
    simp only [hms] at hlease hover
    split at hlease
    · rename_i span hspan
      obtain ⟨rfl, rfl⟩ := hlease
      split at hspan
      · simp at hspan
      split at hspan
      · simp at hspan
      obtain rfl := Recorder.LeaseOutcome.granted.inj hspan
      rename_i hpos _
      rw [if_pos (by omega), hsent] at hover
      exact .of_le httl hstart (by omega)
    · exact .of_nonpos (Int.le_refl 0) (httl.trans hlease.1) time
    · rename_i hmissing
      split at hmissing
      · simp at hmissing
      · split at hmissing <;> simp at hmissing
  | none =>
    have hlacks' : (u.config.mandatory && u.config.contractVersion ≠ "v1") = false := by
      simpa [lacksLease, hms] using hlacks
    simp only [hms, hlacks', Bool.false_eq_true, if_false] at hlease hover
    obtain ⟨rfl, rfl⟩ := hlease
    refine .of_le httl hstart ?_
    split at hover
    · omega
    · omega

theorem leaseSafe_chunk {ack : BatchAck} (hprocessed : processedAck s.recorder a = some ack)
    (hchunk : ∀ answer, a ≠ .liveAnswered answer) (hlease : ChunkLease s ack)
    (httl : t.leaseTtl = s.recorder.chunkLease ack) (hstart : t.leaseStartedAt = some s.recorder.elapsed)
    (helapsed : t.elapsed = s.recorder.elapsed) :
    LeaseSafe ⟨t, sentAfter s.sentAt a t, grantedAfter u s a⟩ := by
  have hlacks : lacksLease u a ack = false := by
    cases a with
    | liveAnswered answer => exact absurd rfl (hchunk answer)
    | _ => rfl
  intro ends hgranted time htime hover
  simp only [grantedAfter, hprocessed, hlacks, Bool.false_eq_true, if_false, Option.some.injEq] at hgranted
  subst hgranted
  change t.elapsed ≤ time at htime
  rw [helapsed] at htime
  unfold leaseEnd at hover
  unfold ChunkLease at hlease
  unfold Recorder.chunkLease at httl
  cases hms : ack.leaseTtlMs with
  | some ms =>
    simp only [hms] at hlease hover httl
    rcases hlease with ⟨hpos, hsoon⟩ | ⟨hnone, hexpired, ttl, hzero, hold⟩
    · rw [if_pos hpos] at httl hover
      exact .of_le httl hstart (by omega)
    · rw [if_neg (by omega), if_neg (by omega)] at httl
      exact .of_nonpos hzero (httl.trans hold) time
  | none =>
    simp only [hms] at hlease hover httl
    by_cases hlater : s.recorder.clock < ack.leaseExpiresAt
    · rw [if_pos hlater] at httl hover
      exact .of_le httl hstart (by omega)
    · obtain ⟨ttl, hzero, hold⟩ := hlease.resolve_left hlater
      rw [if_neg hlater] at httl
      exact .of_nonpos hzero (httl.trans hold) time

theorem LeaseSafe.step (h : LeaseKept s) (hkeeps : KeepsLease s a)
    (hstep : LinkHostRecorder.step u s.recorder a = some t) :
    LeaseSafe ⟨t, sentAfter s.sentAt a t, grantedAfter u s a⟩ := by
  have hticks := step_ticks hstep
  generalize hclocks : t.clocks = clocks at hticks
  have httl := congrArg Clocks.leaseTtl hclocks
  have hstart := congrArg Clocks.leaseStartedAt hclocks
  have helapsed := congrArg Clocks.elapsed hclocks
  cases hticks with
  | same _ hnone => exact h.safe.of_same (granted_same hnone) httl hstart helapsed.ge
  | tick => exact h.safe.of_same rfl httl hstart ((Nat.le_add_right ..).trans helapsed.ge)
  | chunkUnacked ack hflush =>
    have hprocessed : processedAck s.recorder (.chunkAnswered (.ok ack)) = some ack := by
      simp only [processedAck, hflush]
      exact if_neg (by omega)
    exact leaseSafe_chunk hprocessed (by simp) (hkeeps ack hprocessed (by simp)) httl hstart helapsed
  | chunkRemoved ack ok hflush =>
    have hprocessed : processedAck s.recorder (.chunkRemoved ok) = some ack := by
      simp only [processedAck, hflush]
    exact leaseSafe_chunk hprocessed (by simp) (hkeeps ack hprocessed (by simp)) httl hstart helapsed
  | liveAcked _ _ _ hflush hwatermark hlease =>
    exact leaseSafe_live h.safe hflush (h.sending _ _ _ hflush) hwatermark hlease httl hstart helapsed

theorem LeaseKept.step (h : LeaseKept s) (hkeeps : KeepsLease s a)
    (hstep : LinkHostRecorder.step u s.recorder a = some t) :
    LeaseKept ⟨t, sentAfter s.sentAt a t, grantedAfter u s a⟩ where
  safe := .step h hkeeps hstep
  sending := by
    intro c b time hflush
    change t.flush = .sending c b time at hflush
    unfold sentAfter
    rw [hflush]
    cases a <;> rfl

theorem run_leaseKept {clock : ℤ} {spool : LinkSpoolStorage} {r : Leased} {es : List Empty}
    (hrun : (leased u).Reach (fun s _ a => KeepsLease s a) ⟨.create clock spool, 0, none⟩ r es) :
    LeaseKept r := by
  refine hrun.invariant (fun s _ => LeaseKept s) ⟨by simp [LeaseSafe], by simp [Recorder.create]⟩ ?_
  intro s es a r fs hs hkeeps hstep
  obtain ⟨t, ht, hpair⟩ := Option.map_eq_some_iff.mp hstep
  cases hpair
  exact hs.step hkeeps ht

end Lease

/-- A chunk is answered so many microseconds after it was sent, with a lease of 45 seconds. -/
def answeringAfter (delay : ℕ) : List Action :=
  spilling ++ [.spillWritten true, .timerFired, .chunksListed [spoolName 1], .chunkRead true,
    .tick delay delay, .chunkAnswered (.ok (sampleAck 4)), .chunkRemoved true]

theorem answeringLate_extends :
    ∃ r ∈ (leased (sampleSetup "resilient")).exec (fun _ _ _ => true) ⟨sampleRecorder, 0, none⟩ []
        (answeringAfter 10000000),
      r.1.granted = some 45001000 ∧ r.1.recorder.elapsed = 10000000 ∧
        r.1.recorder.leaseTtl = some 45000000 ∧ r.1.recorder.leaseStartedAt = some 10000000 := by
  decide +kernel

/-- The lease of a chunk's answer goes on when it is over for the service. -/
theorem chunk_lease_outlives : ¬ ∀ (r : Leased) (es : List Empty),
      (leased (sampleSetup "resilient")).Reach (fun _ _ _ => True) ⟨sampleRecorder, 0, none⟩ r es →
      LeaseSafe r := by
  intro hclaim
  obtain ⟨⟨r, es⟩, hexec, hgranted, helapsed, httl, hstart⟩ := answeringLate_extends
  have hsafe := hclaim r es (Machine.reach_of_exec (fun _ _ _ _ => trivial) hexec)
  have hlater : r.recorder.elapsed ≤ 46000000 := helapsed.le.trans (by decide)
  obtain ⟨ttl, httl', hle⟩ := hsafe 45001000 hgranted 46000000 hlater (by decide)
  change r.recorder.leaseTtl = some 45000000 at httl
  change r.recorder.leaseStartedAt = some 10000000 at hstart
  cases httl.symm.trans httl'
  rw [hstart] at hle
  cases hle

/-- In every run in which each chunk's ACK meets `ChunkLease`, the host's lease is over when the service's
is. -/
theorem lease_safe {u : Setup} {clock : ℤ} {spool : LinkSpoolStorage} {r : Leased} {es : List Empty}
    (hrun : (leased u).Reach (fun s _ a => KeepsLease s a) ⟨.create clock spool, 0, none⟩ r es) :
    LeaseSafe r :=
  (run_leaseKept hrun).safe

/-- An ACK of the queue, or a chunk's ACK that leases time and comes at once. -/
def answersSoon (s : Leased) (a : Action) : Bool :=
  match a, processedAck s.recorder a with
  | .liveAnswered _, _ | _, none => true
  | _, some ack => ack.leaseTtlMs.any (0 < ·) && s.recorder.elapsed ≤ s.sentAt + 1000

theorem KeepsLease.of_answersSoon {s : Leased} {a : Action} (h : answersSoon s a = true) : KeepsLease s a := by
  intro ack hprocessed hchunk
  unfold answersSoon at h
  rw [hprocessed] at h
  cases a with
  | liveAnswered answer => exact absurd rfl (hchunk answer)
  | _ =>
    simp only [Bool.and_eq_true, Option.any_eq_true, decide_eq_true_eq] at h
    obtain ⟨⟨ms, hms, hpos⟩, hsoon⟩ := h
    simp only [ChunkLease, hms]
    exact .inl ⟨hpos, hsoon⟩

/-- A chunk is answered half a millisecond after it was sent, then a batch of the queue after two seconds. -/
theorem lease_safe_sample : ∃ r : Leased,
    r.granted = some 45001500 ∧ r.recorder.leaseTtl = some 43000000 ∧ LeaseSafe r := by
  have hanswered : ∃ r ∈ (leased (sampleSetup "resilient")).exec (fun s _ a => answersSoon s a)
      ⟨sampleRecorder, 0, none⟩ []
      (answeringAfter 500 ++ [.flushContinued, .flushSettled, .enqueueFrame (sampleFrame 1),
        .flushAndVerifyHealth, .tick 2000000 2000000, .liveAnswered (.ok (sampleAck 5))]),
      r.1.granted = some 45001500 ∧ r.1.recorder.leaseTtl = some 43000000 := by decide +kernel
  obtain ⟨⟨r, es⟩, hexec, hgranted, httl⟩ := hanswered
  exact ⟨r, hgranted, httl, lease_safe (Machine.reach_of_exec (fun _ _ _ h => .of_answersSoon h) hexec)⟩

end LigamentApps.LinkHostRecorder
