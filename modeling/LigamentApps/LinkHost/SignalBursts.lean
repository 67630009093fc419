import LigamentApps.LinkHost.UnixTransport

/-!
# Bursts of signals

When all signals that the broker has queued come to the session: once, in their order, and without a failure
of the transport. -/

namespace LigamentApps.LinkHost

open ByteStream LinkAgent List Option

variable {M : Type} {content : List UInt8 → FrameContent M} {signals : List (Signal content)}

/-! ## What is asked of the worker -/

/-- The message that is handed over. -/
def UnixEvent.message : UnixEvent M → M
  | .receives m => m

/-- The worker can go on until every signal is handed over. -/
def UnixWorker.CanComplete (signals : List (Signal content)) (s : UnixWorker) (es : List (UnixEvent M)) : Prop :=
  ∃ as t fs, (unixWorker content).Path s as t fs ∧
    (es ++ fs).map UnixEvent.message = signals.map Signal.message

/-- The transport has not failed, the signals were handed over in their order so far, and the others can
be. -/
structure UnixWorker.HandsOver (signals : List (Signal content)) (s : UnixWorker)
    (es : List (UnixEvent M)) : Prop where
  works : s.transport.failure = none
  ordered : es.map UnixEvent.message <+: signals.map Signal.message
  completes : s.CanComplete signals es

/-- The step keeps the signals. -/
def UnixWorker.GetsThrough (signals : List (Signal content)) (s : UnixWorker) (es : List (UnixEvent M))
    (a : UnixAction) : Prop :=
  ∀ t fs, s.step content a = some (t, fs) → t.HandsOver signals (es ++ fs)

/-- There is space for the chunk: in the buffer, and among the waiters and the queue for the frames that it
completes. -/
def UnixWorker.Fits (s : UnixWorker) : UnixAction → Prop
  | .arrives count => 0 < count → count ≤ s.stream.length →
    s.transport.buffer.length + count ≤ (linkHostFrameLimit + 4) * 8 ∧
      s.transport.frames.length + wholeFrames (s.transport.buffer.length + count)
        (s.transport.buffer ++ s.stream.take count) ≤ 8 + s.transport.waiters
  | _ => True

/-! ## The loop of `_onData` -/

/-- The length of the payload is one of those that are taken. -/
def Sized (frames : List (List UInt8)) : Prop :=
  ∀ data ∈ frames, 0 < data.length ∧ data.length ≤ linkHostFrameLimit

theorem Sized.short {frames : List (List UInt8)} (h : Sized frames) : ∀ data ∈ frames, data.length < 2 ^ 32 := by
  intro data hdata
  have hle := (h data hdata).2
  unfold linkHostFrameLimit at hle
  omega

theorem failure_fail (s : UnixTransport) (error : String) : (s.fail error).1.failure ≠ none := by
  unfold UnixTransport.fail
  split
  · assumption
  · exact some_ne_none error

/-- The loop of `_onData` stops: at a bad header with a failure. -/
def UnixTransport.stops (s : UnixTransport) : UnixTransport × List Received :=
  if BadHeader linkHostFrameLimit s.buffer then s.fail "Invalid Link worker frame size" else (s, [])

theorem takeFrames_stops {s : UnixTransport} (fuel : ℕ) (h : ¬ IsWhole linkHostFrameLimit s.buffer) :
    s.takeFrames (fuel + 1) = s.stops := by
  unfold UnixTransport.stops
  rw [UnixTransport.takeFrames]
  by_cases hshort : s.buffer.length < 4
  · have hnone : ¬ BadHeader linkHostFrameLimit s.buffer := fun hb => Nat.not_lt.mpr hb.1 hshort
    rw [if_pos hshort, if_neg hnone]
  · rw [if_neg hshort]
    by_cases hbad : headerLength s.buffer = 0 ∨ linkHostFrameLimit < headerLength s.buffer
    · have hheader : BadHeader linkHostFrameLimit s.buffer := ⟨Nat.le_of_not_lt hshort, hbad⟩
      rw [if_pos hbad, if_pos hheader]
    · have hless : s.buffer.length < headerLength s.buffer + 4 := by
        unfold IsWhole at h
        omega
      rw [if_neg hbad, if_pos hless, if_neg fun hb => hbad hb.2]

/-- The bytes are taken in one go: whole frames to the waiters and into the queue, and then the loop stops. -/
def UnixTransport.gets (s : UnixTransport) (bytes : List UInt8) : UnixTransport × List Received :=
  let split := splitFrames linkHostFrameLimit bytes
  let r := UnixTransport.stops
    ⟨split.2, s.frames ++ split.1.drop s.waiters, s.waiters - split.1.length, s.failure⟩
  (r.1, (split.1.take s.waiters).map .frame ++ r.2)

theorem gets_left {s : UnixTransport} (h : ¬ IsWhole linkHostFrameLimit s.buffer) : s.gets s.buffer = s.stops := by
  unfold UnixTransport.gets
  rw [splitFrames_left h]
  dsimp only
  rw [drop_nil, append_nil, take_nil]
  rfl

theorem takeFrames_split : ∀ (fuel : ℕ) (s : UnixTransport), s.buffer.length ≤ fuel →
    s.frames.length + (splitFrames linkHostFrameLimit s.buffer).1.length ≤ 8 + s.waiters →
    s.takeFrames fuel = s.gets s.buffer := by
  intro fuel
  induction fuel with
  | zero =>
    intro s hfuel _
    have hnil : s.buffer = [] := length_eq_zero_iff.mp (Nat.le_zero.mp hfuel)
    have hleft : ¬ IsWhole linkHostFrameLimit s.buffer := by
      rw [hnil]
      decide
    have hheader : ¬ BadHeader linkHostFrameLimit s.buffer := by
      rw [hnil]
      decide
    rw [gets_left hleft, UnixTransport.stops, if_neg hheader]
    rfl
  | succ fuel ih =>
    intro s hfuel hfit
    by_cases h : IsWhole linkHostFrameLimit s.buffer
    · have hmore : (s.buffer.drop (headerLength s.buffer + 4)).length ≤ fuel := by
        rw [length_drop]
        omega
      unfold UnixTransport.gets
      rw [splitFrames_whole h] at hfit ⊢
      rw [length_cons] at hfit
      obtain ⟨hpos, hle, hwhole⟩ := h
      rw [UnixTransport.takeFrames, if_neg (by omega), if_neg (by omega), if_neg (by omega)]
      by_cases hwaits : 0 < s.waiters
      · obtain ⟨n, hn⟩ := Nat.exists_eq_succ_of_ne_zero (Nat.pos_iff_ne_zero.mp hwaits)
        rw [if_pos hwaits, ih _ hmore (by dsimp only; omega)]
        dsimp only
        rw [hn, Nat.succ_sub_one, drop_succ_cons, take_succ_cons, length_cons, Nat.succ_sub_succ]
        rfl
      · have hnone : s.waiters = 0 := Nat.eq_zero_of_not_pos hwaits
        rw [if_neg hwaits, if_pos (by omega),
          ih _ hmore (by dsimp only; rw [length_append, length_singleton]; omega)]
        unfold UnixTransport.gets
        dsimp only
        rw [hnone, drop_zero, drop_zero, append_assoc, Nat.zero_sub, Nat.zero_sub]
        rfl
    · rw [takeFrames_stops fuel h, gets_left h]

theorem takeFrames_fails : ∀ (fuel : ℕ) (s : UnixTransport), s.buffer.length ≤ fuel →
    BadHeader linkHostFrameLimit (splitFrames linkHostFrameLimit s.buffer).2 ∨ s.frames.length ≤ 8 ∧
      8 + s.waiters < s.frames.length + (splitFrames linkHostFrameLimit s.buffer).1.length →
    (s.takeFrames fuel).1.failure ≠ none := by
  intro fuel
  induction fuel with
  | zero =>
    intro s hfuel hfails
    have hnil : s.buffer = [] := length_eq_zero_iff.mp (Nat.le_zero.mp hfuel)
    have hleft : ¬ IsWhole linkHostFrameLimit s.buffer := by
      rw [hnil]
      decide
    rw [splitFrames_left hleft, hnil, length_nil] at hfails
    obtain hbad | ⟨hframes, hfull⟩ := hfails
    · cases hbad.1
    · omega
  | succ fuel ih =>
    intro s hfuel hfails
    by_cases h : IsWhole linkHostFrameLimit s.buffer
    · have hmore : (s.buffer.drop (headerLength s.buffer + 4)).length ≤ fuel := by
        rw [length_drop]
        omega
      rw [splitFrames_whole h, length_cons] at hfails
      obtain ⟨hpos, hle, hwhole⟩ := h
      rw [UnixTransport.takeFrames, if_neg (by omega), if_neg (by omega), if_neg (by omega)]
      dsimp only
      split
      · exact ih _ hmore (hfails.imp_right fun hfull => by dsimp only; omega)
      · split
        · have hlength : (s.frames ++ [(s.buffer.take (headerLength s.buffer + 4)).drop 4]).length =
            s.frames.length + 1 := length_append
          exact ih _ hmore (hfails.imp_right fun hfull => by dsimp only; omega)
        · exact failure_fail _ _
    · rw [splitFrames_left h, length_nil] at hfails
      rw [takeFrames_stops fuel h, UnixTransport.stops, if_pos (hfails.resolve_right (by omega))]
      exact failure_fail _ _

variable {s : UnixTransport} {tail : List UInt8}

def signalFrames (signals : List (Signal content)) : List (List UInt8) := signals.map Signal.frame

theorem sized_signalFrames (signals : List (Signal content)) : Sized (signalFrames signals) := by
  intro data hdata
  obtain ⟨signal, -, rfl⟩ := List.mem_map.mp hdata
  exact ⟨signal.positive, signal.limited⟩

theorem sized_append (whole more : List (Signal content)) : Sized (signalFrames whole ++ signalFrames more) := by
  have hall := sized_signalFrames (whole ++ more)
  unfold signalFrames at hall ⊢
  rwa [map_append] at hall

/-- The invariant: the signals are those that were handed over, those that wait in the queue of the transport,
and those whose frames are still to come, the first of them in part. -/
structure Underway (signals : List (Signal content)) (s : UnixWorker) (es : List (UnixEvent M))
    (done waiting left : List (Signal content)) : Prop where
  parts : signals = done ++ (waiting ++ left)
  received : es.map UnixEvent.message = done.map Signal.message
  frames : s.transport.frames = signalFrames waiting
  bytes : s.transport.buffer ++ (s.stream ++ framesBytes s.outbound) = framesBytes (signalFrames left)
  part : IsPart s.transport.buffer (signalFrames left)
  works : s.transport.failure = none
  opened : s.closed = false
  space : waiting.length ≤ 8
  polling : s.polling = .receiving ∧ s.transport.waiters = 1 ∧ waiting = [] ∨
    s.polling ≠ .receiving ∧ s.transport.waiters = 0

variable {w t : UnixWorker} {es fs : List (UnixEvent M)} {done waiting : List (Signal content)}
  {rest : List (Signal content)}

theorem Underway.length_frames (h : Underway signals w es done waiting rest) :
    w.transport.frames.length = waiting.length := by
  rw [h.frames]
  exact length_map ..

theorem goesOn_signal (w : UnixWorker) (signal : Signal content) :
    w.goesOn content (.frame signal.frame) = ({ w with polling := .handling }, [.receives signal.message]) := by
  have hne : signal.frame ≠ [] := length_pos_iff.mp signal.positive
  unfold UnixWorker.goesOn
  dsimp only
  rw [if_neg hne, signal.reads]

theorem transport_goesOn (w : UnixWorker) (result : Received) :
    (w.goesOn content result).1.transport = w.transport := by
  unfold UnixWorker.goesOn
  split
  · rfl
  · split
    · rfl
    · split <;> rfl

theorem transport_waiterGets (w : UnixWorker) (results : List Received) :
    (w.waiterGets content results).1.transport = w.transport := by
  cases results with
  | nil => rfl
  | cons result => exact transport_goesOn w result

theorem underway_sends {frame : List UInt8} {frames : List (List UInt8)} (h : Underway signals w es done waiting rest)
    (hout : w.outbound = frame :: frames) :
    Underway signals { w with outbound := frames, stream := w.stream ++ frameBytes frame } es done waiting rest := by
  refine { h with bytes := ?_ }
  have hbytes := h.bytes
  rw [hout, framesBytes_cons] at hbytes
  rw [append_assoc]
  exact hbytes

theorem Underway.chunk (h : Underway signals w es done waiting rest) (count : ℕ) :
    ∃ (whole more : List (Signal content)) (tail : List UInt8), rest = whole ++ more ∧
      w.transport.buffer ++ w.stream.take count = framesBytes (signalFrames whole) ++ tail ∧
      tail ++ (w.stream.drop count ++ framesBytes w.outbound) = framesBytes (signalFrames more) ∧
      IsPart tail (signalFrames more) := by
  have hbytes : w.transport.buffer ++ w.stream.take count ++ (w.stream.drop count ++ framesBytes w.outbound) =
      framesBytes (signalFrames rest) := by
    rw [append_assoc, ← append_assoc (w.stream.take count), take_append_drop]
    exact h.bytes
  obtain ⟨whole, more, tail, hframes, hchunk, hleft, hpart⟩ := exists_whole _ hbytes
  obtain ⟨whole', more', rfl, rfl, rfl⟩ := map_eq_append_iff.mp hframes
  exact ⟨whole', more', tail, rfl, hchunk, hleft, hpart⟩

theorem wholeFrames_chunk {whole more : List (Signal content)} {bytes : List UInt8} (fuel : ℕ)
    (hchunk : bytes = framesBytes (signalFrames whole) ++ tail) (hpart : IsPart tail (signalFrames more))
    (hfuel : bytes.length ≤ fuel) :
    wholeFrames fuel bytes = whole.length ∧ whole.length ≤ fuel := by
  have hsized := sized_append whole more
  have hlength : (signalFrames whole).length = whole.length := length_map ..
  have hle : whole.length ≤ fuel := by
    have hbytes := length_framesBytes_le (signalFrames whole)
    rw [hchunk, length_append] at hfuel
    omega
  rw [hchunk, wholeFrames_append fuel hsized.short hpart (hlength ▸ hle)]
  exact ⟨hlength, hle⟩

/-- How much the worker has before it: each signal is sent, comes, is taken and is handled. -/
def UnixWorker.work (w : UnixWorker) (waiting left : List (Signal content)) : ℕ :=
  w.outbound.length + 3 * left.length + 2 * waiting.length + if w.polling = .handling then 1 else 0

/-! ## A chunk -/

theorem arrives_of_step {count : ℕ} (hstep : w.step content (.arrives count) = some (t, fs)) :
    0 < count ∧ count ≤ w.stream.length ∧
      (t, fs) = { w with stream := w.stream.drop count, transport := (w.transport.onData (w.stream.take count)).1
        }.waiterGets content (w.transport.onData (w.stream.take count)).2 := by
  obtain ⟨⟨hpos, hle⟩, heq⟩ := ite_none_right_eq_some.mp hstep
  exact ⟨hpos, hle, (Option.some.inj heq).symm⟩

theorem splitFrames_chunk {chunk : List UInt8} {whole more : List (Signal content)}
    (hchunk : s.buffer ++ chunk = framesBytes (signalFrames whole) ++ tail)
    (hpart : IsPart tail (signalFrames more)) :
    splitFrames linkHostFrameLimit (s.buffer ++ chunk) = (signalFrames whole, tail) := by
  rw [hchunk, splitFrames_part (by decide) hpart (sized_append whole more)]

theorem onData_fit {chunk : List UInt8} {whole more : List (Signal content)}
    (hspace : s.buffer.length + chunk.length ≤ (linkHostFrameLimit + 4) * 8)
    (hchunk : s.buffer ++ chunk = framesBytes (signalFrames whole) ++ tail)
    (hpart : IsPart tail (signalFrames more)) (hfit : s.frames.length + whole.length ≤ 8 + s.waiters) :
    s.onData chunk = (⟨tail, s.frames ++ (signalFrames whole).drop s.waiters, s.waiters - whole.length, s.failure⟩,
      ((signalFrames whole).take s.waiters).map .frame) := by
  have hsplit := splitFrames_chunk hchunk hpart
  have hlength : (signalFrames whole).length = whole.length := length_map ..
  have hwaits := (hpart.waits (by decide) (sized_signalFrames more)).2
  unfold UnixTransport.onData
  rw [if_neg (by omega), takeFrames_split _ { s with buffer := s.buffer ++ chunk } le_rfl
    (by rw [hsplit, hlength]; exact hfit)]
  unfold UnixTransport.gets
  rw [hsplit]
  dsimp only
  rw [UnixTransport.stops, if_neg hwaits, append_nil, hlength]

theorem onData_full {chunk : List UInt8} {whole more : List (Signal content)}
    (hchunk : s.buffer ++ chunk = framesBytes (signalFrames whole) ++ tail)
    (hpart : IsPart tail (signalFrames more))
    (hframes : s.frames.length ≤ 8) (hfull : (linkHostFrameLimit + 4) * 8 < s.buffer.length + chunk.length ∨
      8 + s.waiters < s.frames.length + whole.length) : (s.onData chunk).1.failure ≠ none := by
  have hsplit := splitFrames_chunk hchunk hpart
  have hlength : (signalFrames whole).length = whole.length := length_map ..
  unfold UnixTransport.onData
  by_cases hspace : (linkHostFrameLimit + 4) * 8 < s.buffer.length + chunk.length
  · rw [if_pos hspace]
    exact failure_fail _ _
  · rw [if_neg hspace]
    have hmany := hfull.resolve_left hspace
    exact takeFrames_fails _ { s with buffer := s.buffer ++ chunk } le_rfl
      (.inr ⟨hframes, by rw [hsplit, hlength]; exact hmany⟩)

/-- A chunk that fits hands on its whole frames and keeps the rest. -/
theorem underway_arrives {count : ℕ} (h : Underway signals w es done waiting rest)
    (hfits : w.Fits (.arrives count)) (hstep : w.step content (.arrives count) = some (t, fs)) :
    ∃ done' waiting' rest', Underway signals t (es ++ fs) done' waiting' rest' ∧
      t.work waiting' rest' + wholeFrames (w.transport.buffer.length + count)
        (w.transport.buffer ++ w.stream.take count) ≤ w.work waiting rest := by
  obtain ⟨hpos, hle, heq⟩ := arrives_of_step hstep
  obtain ⟨hspace, hfit⟩ := hfits hpos hle
  obtain ⟨whole, more, tail, rfl, hchunk, hleft, hpart⟩ := h.chunk count
  have htake : (w.stream.take count).length = count := length_take_of_le hle
  have hwhole := (wholeFrames_chunk _ hchunk hpart le_rfl).1
  rw [length_append, htake] at hwhole
  rw [hwhole] at hfit ⊢
  rw [onData_fit (htake.symm ▸ hspace) hchunk hpart hfit] at heq
  rw [h.length_frames] at hfit
  obtain ⟨hreceiving, hwaits, rfl⟩ | ⟨hno, hnone⟩ := h.polling
  · rw [hwaits] at heq hfit
    cases whole with
    | nil =>
      cases heq
      refine ⟨done, [], more, ⟨h.parts, ?_, ?_, hleft, hpart, h.works, h.opened, Nat.zero_le 8,
        .inl ⟨hreceiving, rfl, rfl⟩⟩, le_rfl⟩
      · rw [append_nil]
        exact h.received
      · show w.transport.frames ++ [] = _
        rw [append_nil]
        exact h.frames
    | cons signal whole =>
      -- The first frame goes to the one who waits.
      have hgets := goesOn_signal ({ w with
        stream := w.stream.drop count
        transport := ⟨tail, w.transport.frames ++ signalFrames whole, 1 - (whole.length + 1), w.transport.failure⟩ }) signal
      obtain ⟨rfl, rfl⟩ := Prod.mk.inj (heq.trans hgets)
      refine ⟨done ++ [signal], whole, more, ⟨?_, ?_, ?_, hleft, hpart, h.works, h.opened, ?_,
        .inr ⟨by simp, ?_⟩⟩, ?_⟩
      · rw [h.parts, append_assoc]
        rfl
      · rw [map_append, map_append, h.received]
        rfl
      · rw [h.frames]
        rfl
      · rw [length_nil, length_cons] at hfit
        omega
      · show 1 - (whole.length + 1) = 0
        omega
      · unfold UnixWorker.work
        rw [hreceiving]
        simp only [length_append, length_cons, length_nil, if_true]
        omega
  · rw [hnone] at heq hfit
    cases heq
    refine ⟨done, waiting ++ whole, more, ⟨?_, ?_, ?_, hleft, hpart, h.works, h.opened, ?_, .inr ⟨hno, ?_⟩⟩, ?_⟩
    · rw [append_assoc]
      exact h.parts
    · rw [append_nil]
      exact h.received
    · rw [h.frames]
      exact map_append.symm
    · rw [length_append]
      omega
    · exact Nat.zero_sub _
    · unfold UnixWorker.work
      simp only [length_append]
      omega

theorem failure_of_not_fits {count : ℕ} (h : Underway signals w es done waiting rest)
    (hfull : ¬w.Fits (.arrives count)) :
    ∃ t fs, w.step content (.arrives count) = some (t, fs) ∧ t.transport.failure ≠ none := by
  obtain ⟨hpos, hfull⟩ := Classical.not_imp.mp hfull
  obtain ⟨hle, hfull⟩ := Classical.not_imp.mp hfull
  obtain ⟨whole, more, tail, rfl, hchunk, -, hpart⟩ := h.chunk count
  have htake : (w.stream.take count).length = count := length_take_of_le hle
  have hwhole := (wholeFrames_chunk _ hchunk hpart le_rfl).1
  rw [length_append, htake] at hwhole
  rw [hwhole] at hfull
  have hfails := onData_full hchunk hpart (h.length_frames.trans_le h.space) (by rw [htake]; omega)
  have hstep : w.step content (.arrives count) =
      some ({ w with stream := w.stream.drop count, transport := (w.transport.onData (w.stream.take count)).1
        }.waiterGets content (w.transport.onData (w.stream.take count)).2) := if_pos ⟨hpos, hle⟩
  refine ⟨_, _, hstep, fun hnone => hfails ?_⟩
  exact (congrArg UnixTransport.failure (transport_waiterGets _ _)).symm.trans hnone

/-! ## The other steps -/

theorem underway_ticks_nil (h : Underway signals w es done [] rest) (hno : w.polling = .no) :
    w.ticks content = ({ w with
      transport := { w.transport with waiters := w.transport.waiters + 1 }, polling := .receiving }, []) ∧
      Underway signals (w.ticks content).1 (es ++ (w.ticks content).2) done [] rest := by
  obtain ⟨hreceiving, -⟩ | ⟨-, hnone⟩ := h.polling
  · cases hno.symm.trans hreceiving
  have hframes : w.transport.frames = [] := h.frames
  have hticks : w.ticks content = ({ w with
      transport := { w.transport with waiters := w.transport.waiters + 1 }, polling := .receiving }, []) := by
    unfold UnixWorker.ticks UnixTransport.receive
    rw [if_neg (by simp [hno, h.opened])]
    simp only [hframes, h.works]
  rw [hticks, append_nil]
  refine ⟨rfl, h.parts, h.received, h.frames, h.bytes, h.part, h.works, h.opened, h.space, .inl ⟨rfl, ?_, rfl⟩⟩
  rw [hnone]

theorem underway_ticks_cons {signal : Signal content} (h : Underway signals w es done (signal :: waiting) rest)
    (hno : w.polling = .no) :
    w.ticks content = ({ w with
      transport := { w.transport with frames := signalFrames waiting }, polling := .handling },
        [.receives signal.message]) ∧
      Underway signals (w.ticks content).1 (es ++ (w.ticks content).2) (done ++ [signal]) waiting rest := by
  obtain ⟨hreceiving, -⟩ | ⟨-, hnone⟩ := h.polling
  · cases hno.symm.trans hreceiving
  have hframes : w.transport.frames = signal.frame :: signalFrames waiting := h.frames
  have hticks : w.ticks content = ({ w with
      transport := { w.transport with frames := signalFrames waiting }, polling := .handling },
        [.receives signal.message]) := by
    unfold UnixWorker.ticks UnixTransport.receive
    rw [if_neg (by simp [hno, h.opened]), hframes]
    exact goesOn_signal _ signal
  rw [hticks]
  refine ⟨rfl, ?_, ?_, rfl, h.bytes, h.part, h.works, h.opened, Nat.le_of_succ_le h.space, .inr ⟨by simp, hnone⟩⟩
  · rw [append_assoc]
    exact h.parts
  · rw [map_append, map_append, h.received]
    rfl

theorem underway_ticks (h : Underway signals w es done waiting rest) :
    ∃ done waiting rest, Underway signals (w.ticks content).1 (es ++ (w.ticks content).2) done waiting rest := by
  by_cases hno : w.polling = .no
  · cases waiting with
    | nil => exact ⟨_, _, _, (underway_ticks_nil h hno).2⟩
    | cons => exact ⟨_, _, _, (underway_ticks_cons h hno).2⟩
  · have hbusy : w.ticks content = (w, []) := if_pos (.inl hno)
    rw [hbusy, append_nil]
    exact ⟨done, waiting, rest, h⟩

theorem underway_handled (h : Underway signals w es done waiting rest) (hhandling : w.polling = .handling) :
    Underway signals { w with polling := .no } es done waiting rest := by
  refine { h with polling := .inr ⟨by simp, ?_⟩ }
  obtain ⟨hreceiving, -⟩ | ⟨-, hnone⟩ := h.polling
  · cases hhandling.symm.trans hreceiving
  · exact hnone

theorem underway_of_step {a : UnixAction} (h : Underway signals w es done waiting rest) (hfits : w.Fits a)
    (hstep : w.step content a = some (t, fs)) : ∃ done waiting rest,
      Underway signals t (es ++ fs) done waiting rest := by
  cases a with
  | sends =>
    unfold UnixWorker.step at hstep
    dsimp only at hstep
    split at hstep
    · simp at hstep
    · rename_i frame frames hout
      cases hstep
      rw [append_nil]
      exact ⟨done, waiting, rest, underway_sends h hout⟩
  | arrives =>
    obtain ⟨done', waiting', rest', hunder, -⟩ := underway_arrives h hfits hstep
    exact ⟨done', waiting', rest', hunder⟩
  | ticks =>
    have heq : w.ticks content = (t, fs) := Option.some.inj hstep
    have hticks := underway_ticks h
    rw [heq] at hticks
    exact hticks
  | handled =>
    obtain ⟨hhandling, heq⟩ := ite_none_right_eq_some.mp hstep
    cases heq
    rw [append_nil]
    exact ⟨done, waiting, rest, underway_handled h hhandling⟩

/-! ## Going on to the end -/

theorem canComplete_of_step {a : UnixAction} (hstep : w.step content a = some (t, fs))
    (h : t.CanComplete signals (es ++ fs)) : w.CanComplete signals es := by
  obtain ⟨as, u, gs, hpath, hall⟩ := h
  rw [append_assoc] at hall
  exact ⟨a :: as, u, fs ++ gs, .cons hstep hpath, hall⟩

theorem exists_arrives {signal : Signal content} (h : Underway signals w es done [] (signal :: rest))
    (hout : w.outbound = []) : ∃ count, w.Fits (.arrives count) ∧ 0 < count ∧ count ≤ w.stream.length ∧
      wholeFrames (w.transport.buffer.length + count) (w.transport.buffer ++ w.stream.take count) = 1 := by
  obtain ⟨more, hmore, hframe⟩ : ∃ more, more ≠ [] ∧ frameBytes signal.frame = w.transport.buffer ++ more := h.part
  have hstream : w.stream = more ++ framesBytes (signalFrames rest) := by
    have hbytes : w.transport.buffer ++ (w.stream ++ []) = frameBytes signal.frame ++ framesBytes
      (signalFrames rest) := by
      have hall := h.bytes
      rw [hout] at hall
      exact hall
    rw [append_nil, hframe, append_assoc] at hbytes
    exact append_cancel_left hbytes
  have htake : w.stream.take more.length = more := by
    rw [hstream]
    exact take_left
  have hlength : w.transport.buffer.length + more.length = signal.frame.length + 4 := by
    rw [← length_append, ← hframe, length_frameBytes]
  have hone : wholeFrames (w.transport.buffer.length + more.length)
      (w.transport.buffer ++ w.stream.take more.length) = 1 := by
    have hchunk : w.transport.buffer ++ w.stream.take more.length = framesBytes (signalFrames [signal]) ++ [] := by
      rw [htake, ← hframe]
      exact (append_nil _).symm.trans (congrArg (· ++ []) (append_nil _).symm)
    refine (wholeFrames_chunk _ hchunk (isPart_nil (signalFrames rest)) ?_).1
    rw [htake, length_append]
  refine ⟨more.length, fun _ _ => ⟨?_, ?_⟩, length_pos_iff.mpr hmore, ?_, hone⟩
  · have hlimited := signal.limited
    omega
  · have hnone : w.transport.frames.length = 0 := h.length_frames
    rw [hone]
    omega
  · rw [hstream, length_append]
    omega

theorem exists_progress (h : Underway signals w es done waiting rest) (hleft : waiting ≠ [] ∨ rest ≠ []) :
    ∃ a t fs done' waiting' rest', w.step content a = some (t, fs) ∧
      Underway signals t (es ++ fs) done' waiting' rest' ∧ t.work waiting' rest' < w.work waiting rest := by
  cases waiting with
  | cons _ waiting =>
    cases hpolling : w.polling with
    | no =>
      obtain ⟨hticks, hunder⟩ := underway_ticks_cons h hpolling
      rw [hticks] at hunder
      refine ⟨.ticks, _, _, _, _, _, congrArg some hticks, hunder, ?_⟩
      unfold UnixWorker.work
      rw [hpolling, length_cons, if_pos rfl, if_neg (by simp)]
      show w.outbound.length + 3 * rest.length + 2 * waiting.length + 1 < _
      omega
    | receiving =>
      obtain ⟨-, -, hnil⟩ | ⟨hno, -⟩ := h.polling
      · simp at hnil
      · exact absurd hpolling hno
    | handling =>
      have hunder := underway_handled h hpolling
      rw [← append_nil es] at hunder
      refine ⟨.handled, _, _, _, _, _, if_pos hpolling, hunder, ?_⟩
      unfold UnixWorker.work
      rw [hpolling, if_pos rfl, if_neg (by simp)]
      exact Nat.lt_succ_self _
  | nil =>
    cases rest with
    | nil => exact absurd rfl (hleft.resolve_left fun hnil => hnil rfl)
    | cons =>
      cases hout : w.outbound with
      | cons frame frames =>
        have hunder := underway_sends h hout
        rw [← append_nil es] at hunder
        have hstep : w.step content .sends =
            some ({ w with outbound := frames, stream := w.stream ++ frameBytes frame }, []) := by
          unfold UnixWorker.step
          rw [hout]
        refine ⟨.sends, _, _, _, _, _, hstep, hunder, ?_⟩
        unfold UnixWorker.work
        simp only [hout, length_cons]
        omega
      | nil =>
        obtain ⟨count, hfits, hpos, hle, hone⟩ := exists_arrives h hout
        have hstep : w.step content (.arrives count) =
            some ({ w with stream := w.stream.drop count, transport := (w.transport.onData (w.stream.take count)).1
              }.waiterGets content (w.transport.onData (w.stream.take count)).2) := if_pos ⟨hpos, hle⟩
        obtain ⟨done', waiting', rest', hunder, hless⟩ := underway_arrives h hfits hstep
        rw [hone] at hless
        exact ⟨.arrives count, _, _, done', waiting', rest', hstep, hunder, hless⟩

theorem canComplete_of_underway : ∀ (n : ℕ) (w : UnixWorker) (es : List (UnixEvent M))
    (done waiting rest : List (Signal content)), Underway signals w es done waiting rest →
      w.work waiting rest = n → w.CanComplete signals es := by
  intro n
  induction n using Nat.strong_induction_on with
  | _ n ih =>
    intro w es done waiting rest h hwork
    by_cases hleft : waiting ≠ [] ∨ rest ≠ []
    · obtain ⟨a, t, fs, done', waiting', rest', hstep, hunder, hless⟩ := exists_progress h hleft
      exact canComplete_of_step hstep (ih _ (hwork ▸ hless) t (es ++ fs) done' waiting' rest' hunder rfl)
    · obtain ⟨hwaiting, hrest⟩ := not_or.mp hleft
      have hall := h.parts
      rw [not_not.mp hwaiting, not_not.mp hrest, append_nil, append_nil] at hall
      refine ⟨[], w, [], .nil w, ?_⟩
      rw [append_nil, h.received, hall]

/-! ## The bursts that get through -/

theorem handsOver_of_underway (h : Underway signals w es done waiting rest) : w.HandsOver signals es := by
  refine ⟨h.works, ?_, canComplete_of_underway _ w es done waiting rest h rfl⟩
  rw [h.received, h.parts, map_append]
  exact prefix_append _ _

theorem getsThrough_iff (h : Underway signals w es done waiting rest) (a : UnixAction) :
    w.GetsThrough signals es a ↔ w.Fits a := by
  constructor
  · intro hgets
    by_contra hfull
    cases a with
    | arrives =>
      obtain ⟨t, fs, hstep, hfails⟩ := failure_of_not_fits h hfull
      exact hfails (hgets t fs hstep).works
    | sends | ticks | handled => exact hfull trivial
  · intro hfits t fs hstep
    obtain ⟨_, _, _, hunder⟩ := underway_of_step h hfits hstep
    exact handsOver_of_underway hunder

theorem underway_queued (signals : List (Signal content)) :
    Underway signals (queuedSignals signals) [] [] [] signals :=
  ⟨rfl, rfl, rfl, rfl, isPart_nil _, rfl, rfl, Nat.zero_le 8, .inr ⟨by simp [queuedSignals], rfl⟩⟩

/-- For every list of signals and every run, the signals come to the session once and in order, and the
transport does not fail, if and only if there is space for every chunk. -/
theorem bursts_get_through_iff (signals : List (Signal content)) (as : List UnixAction) :
    (unixWorker content).Every (UnixWorker.GetsThrough signals) (queuedSignals signals) [] as ↔
      (unixWorker content).Every (fun w _ a => w.Fits a) (queuedSignals signals) [] as := by
  refine Machine.every_iff (fun w es => ∃ done waiting rest, Underway signals w es done waiting rest) ?_ ?_ as _ []
    ⟨_, _, _, underway_queued signals⟩
  · intro w es a t fs h hfits hstep
    obtain ⟨done, waiting, rest, h⟩ := h
    exact underway_of_step h hfits hstep
  · intro w es a h
    obtain ⟨done, waiting, rest, h⟩ := h
    exact getsThrough_iff h a

/-- An object without members. -/
def shortSignal : Signal (M := List UInt8) .message := ⟨[0x7b, 0x7d], [0x7b, 0x7d], by decide, by decide, rfl⟩

def nineFrames : List UInt8 := framesBytes (List.replicate 9 [0x7b, 0x7d])

/-- Nine signals come in one chunk before the timer fires. -/
def nineAtOnce : List UnixAction := List.replicate 9 .sends ++ [.arrives 54]

/-- Nine signals in one chunk make the transport fail. -/
theorem nine_signals_fail : ¬∀ (M : Type) (content : List UInt8 → FrameContent M)
    (signals : List (Signal content)) (as : List UnixAction), signals.length ≤ maxQueuedWorkerSignals →
      (unixWorker content).Every (UnixWorker.GetsThrough signals) (queuedSignals signals) [] as := by
  intro hclaim
  have hrun : ((unixWorker FrameContent.message).exec (fun _ _ _ => true)
      (queuedSignals (List.replicate 9 shortSignal)) [] (List.replicate 9 .sends)).any
      (fun r => decide (r.1 = { outbound := [], stream := nineFrames })) = true := by decide +kernel
  have hfails : ((unixWorker (FrameContent.message)).step
      { outbound := [], stream := nineFrames } (.arrives 54)).any
      (fun r => decide (r.1.transport.failure = some "Too many queued Link worker frames")) = true :=
        by decide +kernel
  obtain ⟨⟨w, es⟩, hexec, hshape⟩ := (Option.any_eq_true ..).mp hrun
  obtain rfl := of_decide_eq_true hshape
  obtain ⟨⟨t, fs⟩, hstep, hfailure⟩ := (Option.any_eq_true ..).mp hfails
  obtain ⟨_, rfl, hpath⟩ := Machine.path_of_exec _ hexec
  have hgets := Machine.Every.good hpath (hclaim _ _ (List.replicate 9 shortSignal) nineAtOnce (by decide))
  cases (hgets t fs hstep).works.symm.trans (of_decide_eq_true hfailure)

end LigamentApps.LinkHost
