import LigamentApps.LinkHost.SignalBursts

/-!
# The frames between the agent and the worker

`Send` and `Receive` of `session_worker_unix.go` against the transport of the worker, in both directions: what
comes is what was sent, wherever the reads cut the bytes. -/

namespace LigamentApps.LinkHost

open ByteStream List

/-! ## The agent -/

/-- `writeUnixWorkerBytes`: what gets into the socket, and whether all does. The counts are what the calls of
`Write` return; after the last of them `Write` fails. -/
def writeUnixWorkerBytes : List ℕ → List UInt8 → List UInt8 × Bool
  | _, [] => ([], true)
  | [], _ => ([], false)
  | written :: counts, payload =>
    if written = 0 then ([], false)
    else
      let rest := writeUnixWorkerBytes counts (payload.drop written)
      (payload.take written ++ rest.1, rest.2)

/-- A call of `Send`, with the counts of the writes of the header and of the frame. -/
structure UnixSend where
  frame : List UInt8
  headerWrites : List ℕ
  frameWrites : List ℕ

/-- `Send`: what gets into the socket, and whether it succeeds. -/
def UnixSend.send (a : UnixSend) : List UInt8 × Bool :=
  if a.frame.length = 0 ∨ linkHostFrameLimit < a.frame.length then ([], false)
  else
    let header := writeUnixWorkerBytes a.headerWrites (frameHeader a.frame.length)
    if header.2 then
      let body := writeUnixWorkerBytes a.frameWrites a.frame
      (header.1 ++ body.1, body.2)
    else header

/-- `io.ReadFull` of a number of bytes, with the chunks that the socket still gives. -/
def readFull : ℕ → List (List UInt8) → Option (List UInt8 × List (List UInt8))
  | 0, chunks => some ([], chunks)
  | _ + 1, [] => none
  | n + 1, chunk :: chunks =>
    if n + 1 < chunk.length then some (chunk.take (n + 1), chunk.drop (n + 1) :: chunks)
    else (readFull (n + 1 - chunk.length) chunks).map fun r => (chunk ++ r.1, r.2)

/-- What `Receive` fails with: `read worker frame header`, `worker IPC frame length is invalid`, or
`read worker frame`. -/
inductive ReceiveError
  | header
  | length
  | frame

/-- `Receive`, with the chunks that the socket still gives. -/
def unixReceive (chunks : List (List UInt8)) : Except ReceiveError (List UInt8 × List (List UInt8)) :=
  match readFull 4 chunks with
  | none => .error .header
  | some (header, chunks) =>
    if headerLength header = 0 ∨ linkHostFrameLimit < headerLength header then .error .length
    else
      match readFull (headerLength header) chunks with
      | none => .error .frame
      | some r => .ok r

/-- `Receive` again and again until it fails, with its error. -/
def unixReceives : ℕ → List (List UInt8) → List (List UInt8) × Option ReceiveError
  | 0, _ => ([], none)
  | fuel + 1, chunks =>
    match unixReceive chunks with
    | .error e => ([], some e)
    | .ok (frame, rest) =>
      let r := unixReceives fuel rest
      (frame :: r.1, r.2)

/-! ## The worker -/

/-- `send`: the packet for the socket, if it does not throw. -/
def UnixTransport.send (s : UnixTransport) (payload : List UInt8) : Option (List UInt8) :=
  if s.failure ≠ none then none
  else if payload = [] ∨ linkHostFrameLimit < payload.length then none
  else some (frameHeader payload.length ++ payload)

/-- What happens to the transport: the socket gives a chunk, or the worker calls `receive`. -/
inductive TransportAction
  | data (chunk : List UInt8)
  | receive
  deriving DecidableEq

/-- One step, with what the calls of `receive` get. -/
def UnixTransport.step (s : UnixTransport) : TransportAction → UnixTransport × List Received
  | .data chunk => s.onData chunk
  | .receive => (s.receive.1, s.receive.2.toList)

def UnixTransport.run : UnixTransport → List TransportAction → UnixTransport × List Received
  | s, [] => (s, [])
  | s, a :: as =>
    let rest := UnixTransport.run (s.step a).1 as
    (rest.1, (s.step a).2 ++ rest.2)

/-- Each step of the run is as asked. -/
def UnixTransport.Keeps (P : UnixTransport → TransportAction → Prop) : UnixTransport → List TransportAction → Prop
  | _, [] => True
  | s, a :: as => P s a ∧ UnixTransport.Keeps P (s.step a).1 as

/-- The consumer keeps up with the cap of the frames: those that a chunk completes go to waiters, or into the
queue. -/
def UnixTransport.FramesFit (s : UnixTransport) : TransportAction → Prop
  | .data chunk => s.failure = none →
    s.frames.length + (splitFrames linkHostFrameLimit (s.buffer ++ chunk)).1.length ≤ 8 + s.waiters
  | .receive => True

/-- Moreover, the chunk fits in the buffer. -/
def UnixTransport.Fits (s : UnixTransport) (a : TransportAction) : Prop :=
  s.FramesFit a ∧
    ∀ chunk, a = .data chunk → s.failure = none → s.buffer.length + chunk.length ≤ (linkHostFrameLimit + 4) * 8

def chunkBytes (as : List TransportAction) : List UInt8 :=
  (as.map fun a => match a with | .data chunk => chunk | .receive => []).flatten

/-- How often `receive` was called. -/
def receives (as : List TransportAction) : ℕ := as.count .receive

/-- The frames among what the calls of `receive` got. -/
def framesOf (results : List Received) : List (List UInt8) :=
  results.filterMap fun r => match r with | .frame bytes => some bytes | .error _ => none

/-- The calls of `receive` get the frames in their order, the rest of them is in the queue, and the transport
has failed with the error or not. -/
def Gives (frames : List (List UInt8)) (failure : Option String) (as : List TransportAction) : Prop :=
  framesOf (UnixTransport.run {} as).2 = frames.take (receives as) ∧
    (UnixTransport.run {} as).1.frames = frames.drop (receives as) ∧ (UnixTransport.run {} as).1.failure = failure

/-! ## What is written -/

theorem writeUnixWorkerBytes_done : ∀ {counts : List ℕ} {payload : List UInt8},
    (writeUnixWorkerBytes counts payload).2 = true → (writeUnixWorkerBytes counts payload).1 = payload
  | counts, [], _ => by cases counts <;> rfl
  | [], _ :: _, h => by cases h
  | written :: counts, b :: payload, h => by
    unfold writeUnixWorkerBytes at h ⊢
    by_cases hzero : written = 0
    · rw [if_pos hzero] at h
      cases h
    · rw [if_neg hzero] at h ⊢
      dsimp only at h ⊢
      rw [writeUnixWorkerBytes_done h, take_append_drop]

theorem UnixSend.send_done {a : UnixSend} (h : a.send.2 = true) :
    (0 < a.frame.length ∧ a.frame.length ≤ linkHostFrameLimit) ∧ a.send.1 = frameBytes a.frame := by
  unfold UnixSend.send at h ⊢
  by_cases hsize : a.frame.length = 0 ∨ linkHostFrameLimit < a.frame.length
  · rw [if_pos hsize] at h
    cases h
  · rw [if_neg hsize] at h ⊢
    by_cases hheader : (writeUnixWorkerBytes a.headerWrites (frameHeader a.frame.length)).2 = true
    · rw [if_pos hheader] at h ⊢
      refine ⟨by omega, ?_⟩
      dsimp only
      rw [writeUnixWorkerBytes_done hheader, writeUnixWorkerBytes_done h]
      rfl
    · rw [if_neg hheader] at h
      exact absurd h hheader

theorem UnixTransport.send_done {s : UnixTransport} {payload packet : List UInt8} (h : s.send payload = some packet) :
    (0 < payload.length ∧ payload.length ≤ linkHostFrameLimit) ∧ packet = frameBytes payload := by
  unfold UnixTransport.send at h
  split at h
  · cases h
  · split at h
    · cases h
    next hsize =>
      cases h
      have hpos := length_pos_iff.mpr fun hnil => hsize (.inl hnil)
      exact ⟨⟨hpos, Nat.le_of_not_lt fun hlt => hsize (.inr hlt)⟩, rfl⟩

theorem sends_done : ∀ {payloads packets : List (List UInt8)},
    payloads.map (UnixTransport.send {}) = packets.map some →
      Sized payloads ∧ packets.flatten = framesBytes payloads
  | [], [], _ => ⟨fun _ h => absurd h not_mem_nil, rfl⟩
  | payload :: payloads, packet :: packets, h => by
    obtain ⟨hsend, hsends⟩ := List.cons.inj h
    obtain ⟨hsized, hpacket⟩ := UnixTransport.send_done hsend
    obtain ⟨hall, hpackets⟩ := sends_done hsends
    refine ⟨forall_mem_cons.mpr ⟨hsized, hall⟩, ?_⟩
    rw [flatten_cons, hpacket, hpackets]
    rfl

theorem splitFrames_sent {frames : List (List UInt8)} (h : Sized frames) :
    splitFrames linkHostFrameLimit (framesBytes frames) = (frames, []) := by
  have hsplit := splitFrames_part (by decide) (isPart_nil []) ((append_nil frames).symm ▸ h)
  rwa [append_nil] at hsplit

/-! ## What the agent reads -/

theorem readFull_flatten : ∀ (n : ℕ) (chunks : List (List UInt8)),
    (chunks.flatten.length < n → readFull n chunks = none) ∧
      (n ≤ chunks.flatten.length → ∃ rest, readFull n chunks = some (chunks.flatten.take n, rest) ∧
        rest.flatten = chunks.flatten.drop n)
  | 0, chunks => ⟨fun h => absurd h (Nat.not_lt_zero _), fun _ => ⟨chunks, by rw [readFull, take_zero], rfl⟩⟩
  | _ + 1, [] => ⟨fun _ => by rw [readFull], fun h => absurd h (Nat.not_succ_le_zero _)⟩
  | n + 1, chunk :: chunks => by
    obtain ⟨hnone, hsome⟩ := readFull_flatten (n + 1 - chunk.length) chunks
    rw [flatten_cons, length_append, readFull]
    by_cases hlt : n + 1 < chunk.length
    · rw [if_pos hlt, take_append_of_le_length hlt.le, drop_append_of_le_length hlt.le]
      exact ⟨fun h => by omega, fun _ => ⟨_, rfl, rfl⟩⟩
    · rw [if_neg hlt, take_append, drop_append, take_of_length_le (Nat.le_of_not_lt hlt),
        drop_of_length_le (Nat.le_of_not_lt hlt)]
      refine ⟨fun h => ?_, fun h => ?_⟩
      · rw [hnone (by omega)]
        rfl
      · obtain ⟨rest, hread, hrest⟩ := hsome (by omega)
        exact ⟨rest, by rw [hread]; rfl, hrest⟩

/-- Why `Receive` fails at the rest of the bytes. -/
def endError (tail : List UInt8) : ReceiveError :=
  if BadHeader linkHostFrameLimit tail then .length else if tail.length < 4 then .header else .frame

theorem headerLength_take {bytes : List UInt8} (h : 4 ≤ bytes.length) :
    headerLength (bytes.take 4) = headerLength bytes := by
  have hfour : 4 ≤ (bytes.take 4).length := by
    rw [length_take]
    omega
  rw [← headerLength_append hfour (bytes.drop 4), take_append_drop]

theorem unixReceive_left {chunks : List (List UInt8)} (h : ¬ IsWhole linkHostFrameLimit chunks.flatten) :
    unixReceive chunks = .error (endError chunks.flatten) := by
  obtain ⟨hnone, hsome⟩ := readFull_flatten 4 chunks
  unfold unixReceive endError
  by_cases hshort : chunks.flatten.length < 4
  · rw [hnone hshort, if_neg fun hb => Nat.not_lt.mpr hb.1 hshort, if_pos hshort]
  · have hfour := Nat.le_of_not_lt hshort
    obtain ⟨rest, hread, hrest⟩ := hsome hfour
    rw [hread]
    dsimp only
    rw [headerLength_take hfour]
    by_cases hbad : headerLength chunks.flatten = 0 ∨ linkHostFrameLimit < headerLength chunks.flatten
    · have hheader : BadHeader linkHostFrameLimit chunks.flatten := ⟨hfour, hbad⟩
      rw [if_pos hbad, if_pos hheader]
    · have hless : rest.flatten.length < headerLength chunks.flatten := by
        rw [hrest, length_drop]
        unfold IsWhole at h
        omega
      rw [if_neg hbad, if_neg fun hb => hbad hb.2, if_neg hshort, (readFull_flatten _ rest).1 hless]

theorem unixReceive_whole {chunks : List (List UInt8)} (h : IsWhole linkHostFrameLimit chunks.flatten) :
    ∃ rest, unixReceive chunks =
        .ok ((chunks.flatten.take (headerLength chunks.flatten + 4)).drop 4, rest) ∧
      rest.flatten = chunks.flatten.drop (headerLength chunks.flatten + 4) := by
  obtain ⟨hpos, hle, hwhole⟩ := h
  have hfour : 4 ≤ chunks.flatten.length := (Nat.le_add_left 4 _).trans hwhole
  obtain ⟨rest, hread, hrest⟩ := (readFull_flatten 4 chunks).2 hfour
  have hbody : headerLength chunks.flatten ≤ rest.flatten.length := by
    rw [hrest, length_drop]
    omega
  obtain ⟨last, hlast, hdrop⟩ := (readFull_flatten _ rest).2 hbody
  refine ⟨last, ?_, ?_⟩
  · unfold unixReceive
    rw [hread]
    dsimp only
    rw [headerLength_take hfour, if_neg (by omega), hlast, hrest, drop_take, Nat.add_sub_cancel]
  · rw [hdrop, hrest, drop_drop, Nat.add_comm]

theorem unixReceives_split : ∀ (fuel : ℕ) (chunks : List (List UInt8)),
    (splitFrames linkHostFrameLimit chunks.flatten).1.length < fuel →
      unixReceives fuel chunks = ((splitFrames linkHostFrameLimit chunks.flatten).1,
        some (endError (splitFrames linkHostFrameLimit chunks.flatten).2))
  | fuel + 1, chunks, hfuel => by
    rw [unixReceives]
    by_cases h : IsWhole linkHostFrameLimit chunks.flatten
    · obtain ⟨rest, hreceive, hrest⟩ := unixReceive_whole h
      rw [splitFrames_whole h] at hfuel ⊢
      rw [← hrest] at hfuel ⊢
      rw [hreceive]
      dsimp only
      rw [unixReceives_split fuel rest (Nat.lt_of_succ_lt_succ hfuel)]
    · rw [unixReceive_left h, splitFrames_left h]

/-! ## What the worker reads -/

theorem onData_split {s : UnixTransport} {chunk : List UInt8} (hworks : s.failure = none)
    (hfit : s.Fits (.data chunk)) : s.onData chunk = s.gets (s.buffer ++ chunk) := by
  unfold UnixTransport.onData
  rw [if_neg (Nat.not_lt.mpr (hfit.2 chunk rfl hworks))]
  exact takeFrames_split _ { s with buffer := s.buffer ++ chunk } le_rfl (hfit.1 hworks)

/-- The invariant of a run over the frames and the rest of the bytes so far: as many frames are handed over as
were asked for, and the others wait; at a bad header the transport has failed. -/
structure Carried (split : List (List UInt8) × List UInt8) (asked : ℕ) (s : UnixTransport)
    (results : List Received) : Prop where
  handed : framesOf results = split.1.take asked
  queued : s.frames = split.1.drop asked
  good : ¬ BadHeader linkHostFrameLimit split.2 →
    s.buffer = split.2 ∧ s.waiters = asked - split.1.length ∧ s.failure = none
  bad : BadHeader linkHostFrameLimit split.2 →
    BadHeader linkHostFrameLimit s.buffer ∧ s.failure = some "Invalid Link worker frame size"

variable {s : UnixTransport} {split : List (List UInt8) × List UInt8} {asked : ℕ} {results : List Received}

theorem framesOf_append (results more : List Received) :
    framesOf (results ++ more) = framesOf results ++ framesOf more :=
  filterMap_append ..

theorem framesOf_frames (frames : List (List UInt8)) : framesOf (frames.map .frame) = frames := by
  unfold framesOf
  rw [filterMap_map]
  exact filterMap_some

theorem framesOf_errors (n : ℕ) (error : String) : framesOf (List.replicate n (.error error)) = [] :=
  filterMap_eq_nil_iff.mpr fun r hr => by rw [eq_of_mem_replicate hr]

theorem fail_failed {failure : String} (h : s.failure = some failure) (error : String) :
    s.fail error = (s, []) := by
  unfold UnixTransport.fail
  rw [h]
  exact if_pos (Option.some_ne_none _)

/-- After a bad header nothing more is taken. -/
theorem onData_bad {failure : String} (hheader : BadHeader linkHostFrameLimit s.buffer)
    (hfailed : s.failure = some failure) (chunk : List UInt8) :
    ∃ t, s.onData chunk = (t, []) ∧ t.frames = s.frames ∧ t.failure = s.failure ∧
      BadHeader linkHostFrameLimit t.buffer := by
  unfold UnixTransport.onData
  split
  · exact ⟨s, fail_failed hfailed _, rfl, rfl, hheader⟩
  · have hlonger := hheader.append chunk
    refine ⟨{ s with buffer := s.buffer ++ chunk }, ?_, rfl, rfl, hlonger⟩
    obtain ⟨fuel, hfuel⟩ : ∃ fuel, (s.buffer ++ chunk).length = fuel + 1 :=
      Nat.exists_eq_add_one.mpr (Nat.lt_of_lt_of_le (by decide) hlonger.1)
    rw [hfuel, takeFrames_stops fuel hlonger.not_isWhole, UnixTransport.stops, if_pos hlonger]
    exact fail_failed (show { s with buffer := s.buffer ++ chunk }.failure = _ from hfailed) _

theorem Carried.data (h : Carried split asked s results) (chunk : List UInt8) (hfit : s.Fits (.data chunk)) :
    Carried (split.1 ++ (splitFrames linkHostFrameLimit (split.2 ++ chunk)).1,
        (splitFrames linkHostFrameLimit (split.2 ++ chunk)).2) asked
      (s.onData chunk).1 (results ++ (s.onData chunk).2) := by
  by_cases hbad : BadHeader linkHostFrameLimit split.2
  · obtain ⟨hheader, hfailed⟩ := h.bad hbad
    have hmore := hbad.append chunk
    obtain ⟨t, hdata, hframes, hfailure, hbuffer⟩ := onData_bad hheader hfailed chunk
    rw [hdata, splitFrames_left hmore.not_isWhole, append_nil, append_nil]
    exact ⟨h.handed, hframes.trans h.queued, fun hgood => absurd hmore hgood,
      fun _ => ⟨hbuffer, hfailure.trans hfailed⟩⟩
  · obtain ⟨hbuffer, hwaiters, hworks⟩ := h.good hbad
    rw [onData_split hworks hfit, UnixTransport.gets, hbuffer]
    dsimp only
    generalize splitFrames linkHostFrameLimit (split.2 ++ chunk) = next
    have hqueued : s.frames ++ next.1.drop s.waiters = (split.1 ++ next.1).drop asked := by
      rw [h.queued, hwaiters, drop_append]
    have hhanded : framesOf results ++ next.1.take s.waiters = (split.1 ++ next.1).take asked := by
      rw [h.handed, hwaiters, take_append]
    unfold UnixTransport.stops
    by_cases hnext : BadHeader linkHostFrameLimit next.2
    · rw [if_pos hnext, UnixTransport.fail, if_neg fun hfailed => hfailed hworks]
      refine ⟨?_, hqueued, fun hgood => absurd hnext hgood, fun _ => ⟨hnext, rfl⟩⟩
      rw [framesOf_append, framesOf_append, framesOf_frames, framesOf_errors, append_nil]
      exact hhanded
    · rw [if_neg hnext]
      refine ⟨?_, hqueued, fun _ => ⟨rfl, ?_, hworks⟩, fun hb => absurd hb hnext⟩
      · rw [framesOf_append, append_nil, framesOf_frames]
        exact hhanded
      · rw [length_append, hwaiters, Nat.sub_sub]

theorem Carried.receive (h : Carried split asked s results) :
    Carried split (asked + 1) s.receive.1 (results ++ s.receive.2.toList) := by
  unfold UnixTransport.receive
  have hqueued := h.queued
  split
  next frame rest hframes =>
    rw [hframes] at hqueued
    have hat : split.1[asked]? = some frame := by
      rw [← head?_drop, ← hqueued]
      rfl
    refine ⟨?_, ?_, fun hgood => ?_, h.bad⟩
    · rw [framesOf_append, h.handed, take_add_one, hat]
      rfl
    · rw [← drop_drop, ← hqueued]
      rfl
    · obtain ⟨hbuffer, hwaiters, hworks⟩ := h.good hgood
      have hlt := (List.getElem?_eq_some_iff.mp hat).1
      exact ⟨hbuffer, by dsimp only; omega, hworks⟩
  next hframes =>
    rw [hframes] at hqueued
    have hall := drop_eq_nil_iff.mp hqueued.symm
    have htake : split.1.take (asked + 1) =
        split.1.take asked := by
      rw [take_of_length_le hall, take_of_length_le (Nat.le_succ_of_le hall)]
    have hdrop : split.1.drop (asked + 1) = [] :=
      drop_of_length_le (Nat.le_succ_of_le hall)
    split
    next failure hfailed =>
      refine ⟨?_, hframes.trans hdrop.symm, fun hgood => ?_, h.bad⟩
      · rw [framesOf_append, htake, h.handed]
        exact append_nil _
      · have hworks := (h.good hgood).2.2
        rw [hfailed] at hworks
        cases hworks
    next hworks =>
      refine ⟨?_, hframes.trans hdrop.symm, fun hgood => ?_, fun hbad => ?_⟩
      · rw [htake, ← h.handed]
        exact congrArg framesOf (append_nil _)
      · obtain ⟨hbuffer, hwaiters, -⟩ := h.good hgood
        exact ⟨hbuffer, by dsimp only; omega, hworks⟩
      · have hfailed := (h.bad hbad).2
        rw [hworks] at hfailed
        cases hfailed

theorem Carried.run : ∀ {bytes : List UInt8} {asked : ℕ} {s : UnixTransport} {results : List Received}
    (as : List TransportAction), Carried (splitFrames linkHostFrameLimit bytes) asked s results →
    s.Keeps UnixTransport.Fits as →
    Carried (splitFrames linkHostFrameLimit (bytes ++ chunkBytes as)) (asked + receives as) (s.run as).1
      (results ++ (s.run as).2)
  | bytes, asked, s, results, [], h, _ => by
    have hbytes : bytes ++ chunkBytes [] = bytes := append_nil bytes
    have hresults : results ++ (s.run []).2 = results := append_nil results
    rw [hbytes, hresults]
    exact h
  | bytes, asked, s, results, .data chunk :: as, h, hkeeps => by
    have hbytes : bytes ++ chunkBytes (.data chunk :: as) = bytes ++ chunk ++ chunkBytes as :=
      (append_assoc _ _ _).symm
    have hresults : results ++ (s.run (.data chunk :: as)).2 =
        results ++ (s.onData chunk).2 ++ ((s.onData chunk).1.run as).2 := (append_assoc _ _ _).symm
    have hdata := h.data chunk hkeeps.1
    rw [← splitFrames_append] at hdata
    rw [hbytes, hresults]
    have hasked : receives (.data chunk :: as) = receives as := count_cons_of_ne TransportAction.noConfusion
    rw [hasked]
    exact .run as hdata hkeeps.2
  | bytes, asked, s, results, .receive :: as, h, hkeeps => by
    have hresults : results ++ (s.run (.receive :: as)).2 =
        results ++ s.receive.2.toList ++ (s.receive.1.run as).2 := (append_assoc _ _ _).symm
    have hasked : asked + receives (.receive :: as) = asked + 1 + receives as := by
      unfold receives
      rw [count_cons_self, Nat.add_assoc, Nat.add_comm 1]
    rw [hresults, hasked]
    exact .run as h.receive hkeeps.2

theorem carried_run {as : List TransportAction} (hkeeps : UnixTransport.Keeps UnixTransport.Fits {} as) :
    Carried (splitFrames linkHostFrameLimit (chunkBytes as)) (receives as) (UnixTransport.run {} as).1
      (UnixTransport.run {} as).2 := by
  have hstart : Carried (splitFrames linkHostFrameLimit []) 0 {} [] := by
    rw [splitFrames_left (by decide)]
    exact ⟨rfl, rfl, fun _ => ⟨rfl, rfl, rfl⟩, nofun⟩
  have hrun := hstart.run as hkeeps
  rwa [Nat.zero_add] at hrun

theorem gives_of_keeps {as : List TransportAction} (hkeeps : UnixTransport.Keeps UnixTransport.Fits {} as) :
    Gives (splitFrames linkHostFrameLimit (chunkBytes as)).1
      (if BadHeader linkHostFrameLimit (splitFrames linkHostFrameLimit (chunkBytes as)).2 then
        some "Invalid Link worker frame size" else none) as := by
  have h := carried_run hkeeps
  refine ⟨h.handed, h.queued, ?_⟩
  split
  next hbad => exact (h.bad hbad).2
  next hgood => exact (h.good hgood).2.2

/-! ## Across the socket -/

/-- Either side gets what the other sends, frame by frame and in the order. Of any bytes, wherever the reads
cut them, it gets the frames that they begin with, and at a header of zero or above the limit it fails. -/
theorem frames_cross : (∀ (sends : List UnixSend) (as : List TransportAction), (∀ a ∈ sends, a.send.2 = true) →
      chunkBytes as = (sends.map (·.send.1)).flatten → UnixTransport.Keeps UnixTransport.Fits {} as →
      Gives (sends.map (·.frame)) none as) ∧
    (∀ (payloads packets chunks : List (List UInt8)) (fuel : ℕ),
      payloads.map (UnixTransport.send {}) = packets.map some → chunks.flatten = packets.flatten →
      payloads.length < fuel → unixReceives fuel chunks = (payloads, some .header)) ∧
    (∀ as : List TransportAction, UnixTransport.Keeps UnixTransport.Fits {} as →
      Gives (splitFrames linkHostFrameLimit (chunkBytes as)).1
        (if BadHeader linkHostFrameLimit (splitFrames linkHostFrameLimit (chunkBytes as)).2 then
          some "Invalid Link worker frame size" else none) as) ∧
    (∀ (s : UnixTransport) (chunk : List UInt8),
      BadHeader linkHostFrameLimit (splitFrames linkHostFrameLimit (s.buffer ++ chunk)).2 →
      (s.onData chunk).1.failure ≠ none) ∧
    ∀ (fuel : ℕ) (chunks : List (List UInt8)),
      (splitFrames linkHostFrameLimit chunks.flatten).1.length < fuel →
      unixReceives fuel chunks = ((splitFrames linkHostFrameLimit chunks.flatten).1,
        some (endError (splitFrames linkHostFrameLimit chunks.flatten).2)) := by
  refine ⟨?_, ?_, fun as => gives_of_keeps, ?_, unixReceives_split⟩
  · intro sends as hsent hbytes hkeeps
    have hframes : (sends.map (·.send.1)).flatten = framesBytes (sends.map (·.frame)) := by
      unfold framesBytes
      rw [map_map]
      exact congrArg List.flatten (map_congr_left fun a ha => (UnixSend.send_done (hsent a ha)).2)
    have hsized : Sized (sends.map (·.frame)) := by
      intro data hdata
      obtain ⟨a, ha, rfl⟩ := mem_map.mp hdata
      exact (UnixSend.send_done (hsent a ha)).1
    have hgives := gives_of_keeps hkeeps
    rw [hbytes, hframes, splitFrames_sent hsized] at hgives
    rwa [if_neg (show ¬ BadHeader linkHostFrameLimit [] by decide)] at hgives
  · intro payloads packets chunks fuel hsent hbytes hfuel
    obtain ⟨hsized, hpackets⟩ := sends_done hsent
    have hsplit := splitFrames_sent hsized
    rw [← hpackets, ← hbytes] at hsplit
    have hreceives := unixReceives_split fuel chunks
    rw [hsplit] at hreceives
    exact hreceives hfuel
  · intro s chunk hbad
    unfold UnixTransport.onData
    split
    · exact failure_fail _ _
    · exact takeFrames_fails _ { s with buffer := s.buffer ++ chunk } le_rfl (.inl hbad)

/-- Two frames whose headers are cut, each taken by its own `receive`. -/
theorem frames_cross_sample :
    Gives [[7], [8, 9]] none [.data [0, 0], .receive, .data [0, 1, 7, 0, 0], .receive, .data [0, 2, 8, 9]] := by
  have hpart : splitFrames linkHostFrameLimit [0, 0] = ([], [0, 0]) := splitFrames_left (by decide)
  have hfirst : splitFrames linkHostFrameLimit [0, 0, 0, 1, 7, 0, 0] = ([[7]], [0, 0]) := by
    rw [splitFrames_whole (by decide), splitFrames_left (by decide)]
    rfl
  have hsecond : splitFrames linkHostFrameLimit [0, 0, 0, 2, 8, 9] = ([[8, 9]], []) := by
    rw [splitFrames_whole (by decide), splitFrames_left (by decide)]
    rfl
  refine frames_cross.1 [⟨[7], [3, 1], [1]⟩, ⟨[8, 9], [4], [1, 1]⟩] _ (by decide) rfl ⟨⟨fun _ => ?_, ?_⟩,
    ⟨trivial, ?_⟩, ⟨fun _ => ?_, ?_⟩, ⟨trivial, ?_⟩, ⟨fun _ => ?_, ?_⟩, trivial⟩
  · show 0 + (splitFrames linkHostFrameLimit [0, 0]).1.length ≤ 8
    rw [hpart]
    decide
  · intro chunk hchunk _
    cases hchunk
    decide
  · intro chunk hchunk
    cases hchunk
  · show 0 + (splitFrames linkHostFrameLimit [0, 0, 0, 1, 7, 0, 0]).1.length ≤ 9
    rw [hfirst]
    decide
  · intro chunk hchunk _
    cases hchunk
    decide
  · intro chunk hchunk
    cases hchunk
  · show 0 + (splitFrames linkHostFrameLimit [0, 0, 0, 2, 8, 9]).1.length ≤ 9
    rw [hsecond]
    decide
  · intro chunk hchunk _
    cases hchunk
    decide

theorem writeUnixWorkerBytes_once {payload : List UInt8} (h : 0 < payload.length) :
    writeUnixWorkerBytes [payload.length] payload = (payload, true) := by
  obtain ⟨b, rest, rfl⟩ := exists_cons_of_length_pos h
  unfold writeUnixWorkerBytes
  rw [if_neg (Nat.ne_of_gt h), drop_length, take_length]
  exact Prod.ext (append_nil _) rfl

theorem length_framesBytes_replicate (n : ℕ) (data : List UInt8) :
    (framesBytes (List.replicate n data)).length = n * (data.length + 4) := by
  induction n with
  | zero => exact (Nat.zero_mul _).symm
  | succ n ih =>
    rw [replicate_succ, framesBytes_cons, length_append, length_frameBytes, ih, Nat.succ_mul, Nat.add_comm]

/-- Nine frames of the greatest size in one read: the first is waited for, the others fit in the queue, and
yet the read is above the limit of the buffer. -/
theorem big_read_rejected : ¬ ∀ (sends : List UnixSend)
    (as : List TransportAction), (∀ a ∈ sends, a.send.2 = true) →
      chunkBytes as = (sends.map (·.send.1)).flatten → UnixTransport.Keeps UnixTransport.FramesFit {} as →
      Gives (sends.map (·.frame)) none as := by
  intro hall
  obtain ⟨big, hbig⟩ : ∃ big : List UInt8, big.length = linkHostFrameLimit :=
    ⟨List.replicate linkHostFrameLimit 0, length_replicate⟩
  have hsend : (⟨big, [4], [big.length]⟩ : UnixSend).send = (frameBytes big, true) := by
    unfold UnixSend.send
    have hheader : writeUnixWorkerBytes [4] (frameHeader big.length) = (frameHeader big.length, true) := rfl
    dsimp only
    rw [if_neg (by rw [hbig]; decide), writeUnixWorkerBytes_once (by rw [hbig]; decide), hheader]
    rfl
  have hsized : Sized (List.replicate 9 big) := by
    intro data hdata
    rw [eq_of_mem_replicate hdata, hbig]
    decide
  have hlength : (framesBytes (List.replicate 9 big)).length = 9 * (linkHostFrameLimit + 4) := by
    rw [length_framesBytes_replicate, hbig]
  have hfails := (hall (List.replicate 9 ⟨big, [4], [big.length]⟩) [.receive,
    .data (framesBytes (List.replicate 9 big))]
    (fun a ha => by rw [eq_of_mem_replicate ha, hsend])
    (by rw [map_replicate, hsend]; exact append_nil _)
    ⟨trivial, fun _ => by
      show 0 + (splitFrames linkHostFrameLimit (framesBytes (List.replicate 9 big))).1.length ≤ 9
      rw [splitFrames_sent hsized, length_replicate, Nat.zero_add], trivial⟩).2.2
  have hdata : ({ waiters := 1 } : UnixTransport).onData (framesBytes (List.replicate 9 big)) =
      UnixTransport.fail { waiters := 1 } "Link worker receive buffer exceeds limit" :=
    if_pos (by rw [hlength]; decide)
  have hnone : (({ waiters := 1 } : UnixTransport).onData (framesBytes (List.replicate 9 big))).1.failure = none :=
    hfails
  rw [hdata] at hnone
  cases hnone

end LigamentApps.LinkHost
