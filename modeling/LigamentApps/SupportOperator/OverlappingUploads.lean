import LigamentApps.Machine.Trace

/-!
# Uploads that overlap

`_sendFileViaDataChannel`, `_cancelActiveFileTransfer` and the handlers of `file_ack` and `file_reject` of
`support_operator_screen.dart`, await by await, for any number of uploads at once: the file panel checks
`_isSendingFile` before it opens the file picker, the file manager's button looks whether a transfer is
active, and both hash the file before the upload begins. The uploads share one slot for the current transfer
and one for the completer of its answer.

The screen stays mounted. The contents of the chunks, the progress and the notices are left out. -/

namespace LigamentApps.SupportOperator.Uploads

open Option

/-- Where an upload stands. -/
inductive Stage
  /-- `file.open`. -/
  | opening
  /-- `raf.read` of a chunk. -/
  | reading (chunk : ℕ)
  /-- The back pressure after a chunk. -/
  | pausing (chunk : ℕ)
  /-- `raf.close` after the last chunk. -/
  | closing
  /-- `raf.close` after a cancellation. -/
  | leaving
  /-- `raf.close` after an exception. -/
  | failing
  /-- The answer, of the completer that was in the slot. -/
  | waiting (completer : ℕ)
  | finished
  deriving DecidableEq

inductive Status
  | sending
  | waitingAck
  | completed
  | error
  | cancelled

/-- A `_ConsoleFileTransfer` with the state of its function. -/
structure Upload where
  /-- The milliseconds in `transferId`. -/
  id : ℕ
  totalChunks : ℕ
  isCancelled : Bool
  status : Status
  stage : Stage

structure State where
  /-- The uploads by the order of their beginnings. -/
  uploads : ℕ → Option Upload
  count : ℕ
  isSendingFile : Bool
  currentSendingTransfer : Option ℕ
  /-- `_currentFileAckCompleter`, by the upload that made it. -/
  currentFileAckCompleter : Option ℕ
  /-- What the completers are completed with. -/
  results : ℕ → Option Bool
  channelOpen : Bool

def State.start : State := ⟨fun _ => none, 0, false, none, none, fun _ => none, true⟩

/-- The types of the messages of an upload. -/
inductive Message
  | fileStart
  | fileChunk (chunk : ℕ)
  | fileEnd
  | fileReject
  deriving DecidableEq

inductive Event
  | started (u id : ℕ)
  | sends (u : ℕ) (message : Message)
  | cancels (u : ℕ)
  /-- An answer for the transfer with this id comes. -/
  | answers (id : ℕ) (ok : Bool)
  /-- The entry of the list shows that the transfer is completed, or that it failed. -/
  | shows (u : ℕ) (ok : Bool)
  /-- The upload ends with a notice that it is completed, or that it failed. -/
  | reports (u : ℕ) (ok : Bool)
  /-- The upload ends without a notice. -/
  | leaves (u : ℕ)
  deriving DecidableEq

inductive Action
  | begins (id totalChunks : ℕ)
  /-- What the upload awaits is there. -/
  | goesOn (u : ℕ)
  /-- The file cannot be opened or read. -/
  | fileFails (u : ℕ)
  /-- No answer came for 45 s. -/
  | timesOut (u : ℕ)
  | cancel (u : ℕ)
  | fileAck (id : ℕ) (ok : Bool)
  | fileReject (id : ℕ)
  | channelCloses

namespace State

variable (s : State)

def put (u : ℕ) (x : Upload) : State := { s with uploads := Function.update s.uploads u (some x) }

/-- The `finally` of the upload. -/
def finish (u : ℕ) (x : Upload) : State :=
  { s.put u { x with stage := .finished } with isSendingFile := false, currentSendingTransfer := none }

/-- The end of the upload after its answer, or after an exception. -/
def report (u : ℕ) (x : Upload) (ok : Bool) : State × List Event :=
  (s.finish u { x with status := if ok then .completed else .error }, [.reports u ok])

/-- The head of the loop over the chunks, the only place that looks for a cancellation. -/
def loopHead (u : ℕ) (x : Upload) (chunk : ℕ) : State × List Event :=
  if x.totalChunks ≤ chunk then (s.put u { x with stage := .closing }, [])
  else if x.isCancelled then (s.put u { x with stage := .leaving, status := .cancelled }, [.sends u .fileReject])
  else (s.put u { x with stage := .reading chunk }, [])

/-- `_sendFileViaDataChannel`, up to its first await after the hash. -/
def begins (id totalChunks : ℕ) : State × List Event :=
  let x : Upload := ⟨id, totalChunks, false, .sending, .opening⟩
  let s' : State := { s.put s.count x with
    count := s.count + 1
    isSendingFile := true
    currentSendingTransfer := some s.count
    currentFileAckCompleter := some s.count
    results := Function.update s.results s.count none }
  if s.channelOpen then (s', [.started s.count id, .sends s.count .fileStart])
  else ((s'.report s.count x false).1, .started s.count id :: (s'.report s.count x false).2)

/-- An upload goes on to its next await. -/
def goesOn (u : ℕ) (x : Upload) : Option (State × List Event) :=
  match x.stage with
  | .opening => some (s.loopHead u x 0)
  | .reading chunk =>
    if s.channelOpen then
      if chunk % 4 = 0 then some (s.put u { x with stage := .pausing chunk }, [.sends u (.fileChunk chunk)])
      else some ((s.loopHead u x (chunk + 1)).1, .sends u (.fileChunk chunk) :: (s.loopHead u x (chunk + 1)).2)
    else some (s.put u { x with stage := .failing }, [])
  | .pausing chunk => some (s.loopHead u x (chunk + 1))
  | .closing =>
    if s.channelOpen then
      some (s.put u { x with status := .waitingAck, stage := .waiting (s.currentFileAckCompleter.getD u) },
        [.sends u .fileEnd])
    else some (s.report u x false)
  | .leaving => some (s.finish u x, [.leaves u])
  | .failing => some (s.report u x false)
  | .waiting completer => (s.results completer).map fun ok => s.report u x ok
  | .finished => none

/-- `_cancelActiveFileTransfer`. -/
def cancel (u : ℕ) (x : Upload) : State :=
  { s.put u { x with isCancelled := true, status := .cancelled } with
    isSendingFile := false, currentSendingTransfer := none }

/-- The first entry of the list with this id: the list has the newest first. -/
def findEntry (id : ℕ) : ℕ → Option ℕ
  | 0 => none
  | n + 1 => if (s.uploads n).any (fun x => x.id == id) then some n else findEntry id n

/-- The completer's part of the handlers of an answer. -/
def complete (id : ℕ) (ok : Bool) : State :=
  match s.currentSendingTransfer.bind s.uploads, s.currentFileAckCompleter with
  | some x, some c => if x.id = id ∧ s.results c = none
    then { s with results := Function.update s.results c (some ok) } else s
  | _, _ => s

/-- The handlers of `file_ack` and `file_reject`; a rejection is an answer that is not ok. -/
def answer (id : ℕ) (ok : Bool) : State × List Event :=
  match s.findEntry id s.count with
  | none => (s.complete id ok, [.answers id ok])
  | some u =>
    match s.uploads u with
    | none => (s.complete id ok, [.answers id ok])
    | some x =>
      ((s.complete id ok).put u { x with status := if ok then .completed else .error },
        [.answers id ok, .shows u ok])

end State

def uploads : Machine State Action Event where
  step s
    | .begins id totalChunks => some (s.begins id totalChunks)
    | .goesOn u => (s.uploads u).bind fun x => s.goesOn u x
    | .fileFails u => (s.uploads u).bind fun x =>
      match x.stage with
      | .opening => some (s.report u x false)
      | .reading _ => some (s.put u { x with stage := .failing }, [])
      | _ => none
    | .timesOut u => (s.uploads u).bind fun x =>
      match x.stage with
      | .waiting completer => if s.results completer = none then some (s.report u x false) else none
      | _ => none
    | .cancel u => (s.uploads u).bind fun x =>
      if s.currentSendingTransfer = some u then some (s.cancel u x, [.cancels u]) else none
    | .fileAck id ok => some (s.answer id ok)
    | .fileReject id => some (s.answer id false)
    | .channelCloses => some ({ s with channelOpen := false }, [])

/-! ## What is asked of the uploads -/

/-- What is known of an upload from the outside. -/
structure Entry where
  id : ℕ
  cancelled : Bool
  /-- The first answer that came for it while it ran. -/
  verdict : Option Bool
  running : Bool

abbrev Ledger := ℕ → Option Entry

/-- The answer goes to the uploads that run with this id and have none. -/
def Entry.answered (e : Entry) (id : ℕ) (ok : Bool) : Entry :=
  if e.id = id ∧ e.running = true ∧ e.verdict = none then { e with verdict := some ok } else e

def Ledger.next (k : Ledger) : Event → Ledger
  | .started u id => Function.update k u (some ⟨id, false, none, true⟩)
  | .cancels u => Function.update k u ((k u).map fun e => { e with cancelled := true })
  | .answers id ok => fun u => (k u).map fun e => e.answered id ok
  | .reports u _ => Function.update k u ((k u).map fun e => { e with running := false })
  | .leaves u => Function.update k u ((k u).map fun e => { e with running := false })
  | .sends _ _ => k
  | .shows _ _ => k

/-- Completed is what was answered ok in time and not cancelled. -/
def Entry.Completed (e : Entry) : Prop := e.verdict = some true ∧ e.cancelled = false

instance (e : Entry) : Decidable e.Completed := inferInstanceAs (Decidable (_ ∧ _))

/-- A transfer is reported and shown as completed only where it is, and a notice says so where it is; only a
cancelled one ends without a notice, and none that is cancelled sends its `file_end`. -/
def Lawful (k : Ledger) : Event → Prop
  | .sends u .fileEnd => ∀ e ∈ k u, e.cancelled = false
  | .shows u ok => ok = true → ∀ e ∈ k u, e.Completed
  | .reports u ok => ∀ e ∈ k u, ok = true ↔ e.Completed
  | .leaves u => ∀ e ∈ k u, e.cancelled = true
  | _ => True

def ownResults : Monitor Ledger Event where
  start _ := none
  next := Ledger.next
  Ok := Lawful

instance (k : Ledger) : ∀ event, Decidable (Lawful k event)
  | .sends u .fileEnd => inferInstanceAs (Decidable (∀ e ∈ k u, e.cancelled = false))
  | .shows u ok => inferInstanceAs (Decidable (ok = true → ∀ e ∈ k u, e.Completed))
  | .reports u ok => inferInstanceAs (Decidable (∀ e ∈ k u, ok = true ↔ e.Completed))
  | .leaves u => inferInstanceAs (Decidable (∀ e ∈ k u, e.cancelled = true))
  | .sends _ .fileStart | .sends _ (.fileChunk _) | .sends _ .fileReject | .started _ _ | .cancels _ | .answers _ _ =>
    inferInstanceAs (Decidable True)

instance (k : Ledger) (event : Event) : Decidable (ownResults.Ok k event) :=
  inferInstanceAs (Decidable (Lawful k event))

/-- The upload will look for a cancellation once more, or ends anyway. -/
def Upload.ChecksAhead (x : Upload) : Prop :=
  match x.stage with
  | .opening => 0 < x.totalChunks
  | .reading chunk => chunk + 1 < x.totalChunks
  | .pausing chunk => chunk + 1 < x.totalChunks
  | .leaving => True
  | .failing => True
  | _ => False

/-- The upload fails when it goes on. -/
def Upload.FailsNext (x : Upload) (channelOpen : Bool) : Prop :=
  x.stage = .failing ∨ x.stage = .closing ∧ channelOpen = false

/-- An upload begins only when no other runs, with a new id. One is cancelled only while it will look for it,
or while it waits without an answer. An ok comes only for an upload that runs, or is completed, and was not
cancelled and not answered otherwise; and what was answered ok does not fail later. -/
def Proper (s : State) (es : List Event) : Action → Prop
  | .begins id _ => ∀ u x, s.uploads u = some x → x.stage = .finished ∧ x.id ≠ id
  | .cancel u => ∀ x, s.uploads u = some x →
      x.ChecksAhead ∨ (∃ completer, x.stage = .waiting completer) ∧ s.results u = none
  | .fileAck id ok => ok = true → ∀ u e, ownResults.after es u = some e → e.id = id →
      e.cancelled = false ∧ (e.running = true ∧ e.verdict ≠ some false ∨ e.verdict = some true)
  | .goesOn u => ∀ x, s.uploads u = some x → x.FailsNext s.channelOpen → x.isCancelled = false →
    s.results u ≠ some true
  | .fileFails u => ∀ x, s.uploads u = some x → x.stage = .opening → x.isCancelled = false → s.results u ≠ some true
  | _ => True

/-- The state of an upload and what is known of it agree; one that runs is the newest and has the slots for
itself. -/
structure Fits (s : State) (u : ℕ) (x : Upload) (e : Entry) : Prop where
  id : e.id = x.id
  cancelled : e.cancelled = x.isCancelled
  running : e.running = true ↔ x.stage ≠ .finished
  newest : x.stage ≠ .finished → u + 1 = s.count
  current : x.stage ≠ .finished → s.currentSendingTransfer = if x.isCancelled then none else some u
  completer : x.stage ≠ .finished → s.currentFileAckCompleter = some u
  verdict : x.stage ≠ .finished → x.isCancelled = false → s.results u = e.verdict
  waiting : ∀ completer, x.stage = .waiting completer → completer = u
  checked : x.isCancelled = true → x.stage ≠ .finished →
    x.ChecksAhead ∨ (∃ completer, x.stage = .waiting completer) ∧ s.results u ≠ some true
  left : x.stage = .leaving → x.isCancelled = true

structure Inv (s : State) (k : Ledger) : Prop where
  unborn : ∀ u, s.count ≤ u → s.uploads u = none
  unknown : ∀ u, s.uploads u = none → k u = none
  fits : ∀ u x, s.uploads u = some x → ∃ e, k u = some e ∧ Fits s u x e
  current : ∀ u, s.currentSendingTransfer = some u →
    ∃ x, s.uploads u = some x ∧ x.stage ≠ .finished ∧ x.isCancelled = false
  distinct : ∀ u v x y, s.uploads u = some x → s.uploads v = some y → x.id = y.id → u = v

variable {s s' t : State} {k k' : Ledger} {u : ℕ} {x x' : Upload} {e e' : Entry} {es fs : List Event}

theorem ownResults_single (event : Event) : ownResults.AcceptsFrom k [event] ↔ Lawful k event := by
  simp [Monitor.AcceptsFrom, ownResults]

theorem put_self : (s.put u x).uploads u = some x := Function.update_self ..

theorem put_other {v : ℕ} (hne : v ≠ u) : (s.put u x).uploads v = s.uploads v := Function.update_of_ne hne ..

theorem Fits.of_over (h : Fits s u x e) (hover : x.stage = .finished) : Fits s' u x e :=
  ⟨h.id, h.cancelled, h.running, fun hrun => absurd hover hrun, fun hrun => absurd hover hrun,
    fun hrun => absurd hover hrun, fun hrun => absurd hover hrun, h.waiting,
      fun _ hrun => absurd hover hrun, h.left⟩

theorem Inv.over_of_ne (h : Inv s k) (hx : s.uploads u = some x) (hrun : x.stage ≠ .finished)
    {v : ℕ} {y : Upload} (hy : s.uploads v = some y) (hne : v ≠ u) : y.stage = .finished := by
  by_contra hrunning
  obtain ⟨_, -, hfitsX⟩ := h.fits u x hx
  obtain ⟨_, -, hfitsY⟩ := h.fits v y hy
  have hu := hfitsX.newest hrun
  have hv := hfitsY.newest hrunning
  omega

theorem Inv.step (h : Inv s k) (hx : s.uploads u = some x) (hrun : x.stage ≠ .finished)
    (huploads : s'.uploads = Function.update s.uploads u (some x')) (hcount : s'.count = s.count)
    (hid : x'.id = x.id) (hledger : k' = Function.update k u (some e')) (hfits : Fits s' u x' e')
    (hcurrent : ∀ v, s'.currentSendingTransfer = some v → v = u ∧ x'.stage ≠ .finished ∧ x'.isCancelled = false) :
    Inv s' k' := by
  have hsame : s'.uploads u = some x' := by rw [huploads, Function.update_self]
  have hother : ∀ v, v ≠ u → s'.uploads v = s.uploads v := fun v hne => by rw [huploads, Function.update_of_ne hne]
  have hborn : u < s.count := by
    by_contra hle
    cases (h.unborn u (Nat.not_lt.mp hle)).symm.trans hx
  have hids : ∀ v y, s'.uploads v = some y → ∃ z, s.uploads v = some z ∧ z.id = y.id := by
    intro v y hy
    by_cases hne : v = u
    · subst hne
      cases hsame.symm.trans hy
      exact ⟨x, hx, hid.symm⟩
    · exact ⟨y, (hother v hne).symm.trans hy, rfl⟩
  refine ⟨?_, ?_, ?_, ?_, ?_⟩
  · intro v hv
    have hne : v ≠ u := by omega
    rw [hother v hne]
    exact h.unborn v (hcount ▸ hv)
  · intro v hv
    have hne : v ≠ u := by
      rintro rfl
      rw [hsame] at hv
      exact some_ne_none _ hv
    rw [hledger, Function.update_of_ne hne]
    exact h.unknown v ((hother v hne).symm.trans hv)
  · intro v y hy
    by_cases hne : v = u
    · subst hne
      cases hsame.symm.trans hy
      exact ⟨e', by rw [hledger, Function.update_self], hfits⟩
    · rw [hother v hne] at hy
      obtain ⟨e₀, he₀, hfits₀⟩ := h.fits v y hy
      refine ⟨e₀, by rw [hledger, Function.update_of_ne hne, he₀], hfits₀.of_over ?_⟩
      exact h.over_of_ne hx hrun hy hne
  · intro v hv
    obtain ⟨rfl, hrun', hopen⟩ := hcurrent v hv
    exact ⟨x', hsame, hrun', hopen⟩
  · intro v w y z hy hz hsameId
    obtain ⟨y', hy', hidY⟩ := hids v y hy
    obtain ⟨z', hz', hidZ⟩ := hids w z hz
    exact h.distinct v w y' z' hy' hz' (by rw [hidY, hidZ, hsameId])

/-! ### One upload goes on -/

theorem Fits.move (h : Fits s u x e) (hrun : x.stage ≠ .finished) {stage : Stage} {status : Status}
    (hover : stage ≠ .finished) (hwait : ∀ completer, stage ≠ .waiting completer)
    (hahead : x.isCancelled = true → Upload.ChecksAhead { x with stage := stage, status := status })
    (hleft : stage = .leaving → x.isCancelled = true) :
    Fits (s.put u { x with stage := stage, status := status }) u { x with stage := stage, status := status } e :=
  ⟨h.id, h.cancelled, iff_of_true (h.running.mpr hrun) hover, fun _ => h.newest hrun, fun _ => h.current hrun,
    fun _ => h.completer hrun, fun _ => h.verdict hrun, fun completer heq => absurd heq (hwait completer),
    fun hcancelled _ => .inl (hahead hcancelled), hleft⟩

theorem Fits.current_put (h : Fits s u x e) (hrun : x.stage ≠ .finished) {v : ℕ}
    (hv : s.currentSendingTransfer = some v) : v = u ∧ x.isCancelled = false := by
  rw [h.current hrun] at hv
  split_ifs at hv with hcancelled
  exact ⟨(Option.some.inj hv).symm, by simpa using hcancelled⟩

theorem Inv.move (h : Inv s k) (hx : s.uploads u = some x) (he : k u = some e) (hfits : Fits s u x e)
    (hrun : x.stage ≠ .finished) {stage : Stage} {status : Status} (hover : stage ≠ .finished)
    (hwait : ∀ completer, stage ≠ .waiting completer)
    (hahead : x.isCancelled = true → Upload.ChecksAhead { x with stage := stage, status := status })
    (hleft : stage = .leaving → x.isCancelled = true) :
    Inv (s.put u { x with stage := stage, status := status }) k := by
  refine h.step hx hrun rfl rfl rfl ?_ (hfits.move hrun hover hwait hahead hleft) ?_
  · rw [← he, Function.update_eq_self]
  · intro v hv
    obtain ⟨hvu, hopen⟩ := hfits.current_put hrun hv
    exact ⟨hvu, hover, hopen⟩

theorem loopHead_ok (h : Inv s k) (hx : s.uploads u = some x) (he : k u = some e) (hfits : Fits s u x e)
    (hrun : x.stage ≠ .finished) {chunk : ℕ} (hahead : x.isCancelled = true → chunk < x.totalChunks) :
    ownResults.AcceptsFrom k (s.loopHead u x chunk).2 ∧
      Inv (s.loopHead u x chunk).1 ((s.loopHead u x chunk).2.foldl Ledger.next k) := by
  unfold State.loopHead
  split_ifs with hend hcancelled
  · refine ⟨trivial, h.move hx he hfits hrun (by simp) (by simp) (fun hcancelled => ?_) ?_⟩
    · exact absurd (hahead hcancelled) (Nat.not_lt.mpr hend)
    · simp
  · exact ⟨⟨trivial, trivial⟩, h.move hx he hfits hrun (by simp) (by simp) (fun _ => trivial) fun _ => hcancelled⟩
  · exact ⟨trivial, h.move hx he hfits hrun (by simp) (by simp) (fun hyes => absurd hyes hcancelled) (by simp)⟩

theorem Inv.finish (h : Inv s k) (hx : s.uploads u = some x) (he : k u = some e) (hfits : Fits s u x e)
    (hrun : x.stage ≠ .finished) {status : Status} :
    Inv (s.finish u { x with status := status })
      (Function.update k u ((k u).map fun e => { e with running := false })) := by
  have hover : Fits (s.finish u { x with status := status }) u { x with status := status, stage := .finished }
      { e with running := false } :=
    ⟨hfits.id, hfits.cancelled, by simp, fun hrun' => absurd rfl hrun', fun hrun' => absurd rfl hrun',
      fun hrun' => absurd rfl hrun', fun hrun' => absurd rfl hrun', by simp,
        fun _ hrun' => absurd rfl hrun', by simp⟩
  refine h.step hx hrun rfl rfl rfl ?_ hover ?_
  · rw [he, map_some]
  · intro v hv
    simp [State.finish] at hv

theorem report_ok (h : Inv s k) (hx : s.uploads u = some x) (he : k u = some e) (hfits : Fits s u x e)
    (hrun : x.stage ≠ .finished) {ok : Bool} (hok : ok = true ↔ e.Completed) :
    ownResults.AcceptsFrom k (s.report u x ok).2 ∧
      Inv (s.report u x ok).1 ((s.report u x ok).2.foldl Ledger.next k) := by
  refine ⟨(ownResults_single _).mpr ?_, h.finish hx he hfits hrun⟩
  intro e' he'
  cases he.symm.trans he'
  exact hok

theorem Fits.not_completed (hfits : Fits s u x e) (hrun : x.stage ≠ .finished)
    (hunanswered : x.isCancelled = false → s.results u ≠ some true) : false = true ↔ e.Completed := by
  refine iff_of_false Bool.false_ne_true ?_
  rintro ⟨hverdict, hopen⟩
  rw [hfits.cancelled] at hopen
  exact hunanswered hopen ((hfits.verdict hrun hopen).trans hverdict)

theorem chunk_ok {chunk : ℕ} {rest : List Event} {end' : State}
    (h : ownResults.AcceptsFrom k rest ∧ Inv end' (rest.foldl Ledger.next k)) :
    ownResults.AcceptsFrom k (.sends u (.fileChunk chunk) :: rest) ∧
      Inv end' ((Event.sends u (.fileChunk chunk) :: rest).foldl Ledger.next k) := ⟨⟨trivial, h.1⟩, h.2⟩

/-- An upload that goes on keeps the law and the invariant. -/
theorem goesOn_ok (h : Inv s k) (hx : s.uploads u = some x) (hstep : s.goesOn u x = some (t, fs))
    (hproper : x.FailsNext s.channelOpen → x.isCancelled = false → s.results u ≠ some true) :
    ownResults.AcceptsFrom k fs ∧ Inv t (fs.foldl Ledger.next k) := by
  obtain ⟨e, he, hfits⟩ := h.fits u x hx
  have hchecked := hfits.checked
  have hnotWaiting : ∀ {P : Prop}, (∀ completer, x.stage ≠ .waiting completer) →
      P ∨ (∃ completer, x.stage = .waiting completer) ∧ s.results u ≠ some true → P :=
    fun hno hor => hor.resolve_right fun hwait => hno _ hwait.1.choose_spec
  unfold State.goesOn at hstep
  cases hstage : x.stage with
  | opening =>
    have hrun : x.stage ≠ .finished := by simp [hstage]
    simp only [hstage, Option.some.injEq] at hstep
    have hahead : x.isCancelled = true → 0 < x.totalChunks := fun hcancelled => by
      have hahead := hnotWaiting (by simp [hstage]) (hchecked hcancelled hrun)
      rwa [Upload.ChecksAhead, hstage] at hahead
    have hok := loopHead_ok h hx he hfits hrun hahead
    rw [hstep] at hok
    exact hok
  | reading chunk =>
    have hrun : x.stage ≠ .finished := by simp [hstage]
    have hahead : x.isCancelled = true → chunk + 1 < x.totalChunks := fun hcancelled => by
      have hahead := hnotWaiting (by simp [hstage]) (hchecked hcancelled hrun)
      rwa [Upload.ChecksAhead, hstage] at hahead
    simp only [hstage] at hstep
    split_ifs at hstep with hopen hpause
    · cases hstep
      exact chunk_ok ⟨trivial, h.move hx he hfits hrun (by simp) (by simp) hahead (by simp)⟩
    · cases hstep
      exact chunk_ok (loopHead_ok h hx he hfits hrun hahead)
    · cases hstep
      exact ⟨trivial, h.move hx he hfits hrun (by simp) (by simp) (fun _ => trivial) (by simp)⟩
  | pausing chunk =>
    have hrun : x.stage ≠ .finished := by simp [hstage]
    simp only [hstage, Option.some.injEq] at hstep
    have hahead : x.isCancelled = true → chunk + 1 < x.totalChunks := fun hcancelled => by
      have hahead := hnotWaiting (by simp [hstage]) (hchecked hcancelled hrun)
      rwa [Upload.ChecksAhead, hstage] at hahead
    have hok := loopHead_ok h hx he hfits hrun hahead
    rw [hstep] at hok
    exact hok
  | closing =>
    have hrun : x.stage ≠ .finished := by simp [hstage]
    -- no cancelled upload comes here
    have hopen' : x.isCancelled = false := by
      by_contra hcancelled
      have hahead := hnotWaiting (by simp [hstage]) (hchecked (by simpa using hcancelled) hrun)
      rw [Upload.ChecksAhead, hstage] at hahead
      exact hahead
    simp only [hstage] at hstep
    split_ifs at hstep with hopen
    · cases hstep
      rw [hfits.completer hrun, getD_some]
      have hsends : Lawful k (.sends u .fileEnd) := by
        intro e' he'
        cases he.symm.trans he'
        rw [hfits.cancelled, hopen']
      refine ⟨(ownResults_single _).mpr hsends, ?_⟩
      let x' : Upload := { x with status := .waitingAck, stage := .waiting u }
      have hwaits : Fits (s.put u x') u x' e :=
        ⟨hfits.id, hfits.cancelled, iff_of_true (hfits.running.mpr hrun) (by simp [x']), fun _ => hfits.newest hrun,
          fun _ => hfits.current hrun, fun _ => hfits.completer hrun, fun _ => hfits.verdict hrun,
          fun completer heq => (Stage.waiting.inj heq).symm,
          fun hcancelled _ => absurd (hopen'.symm.trans hcancelled) Bool.false_ne_true, by simp [x']⟩
      refine h.step hx hrun rfl rfl rfl ?_ hwaits ?_
      · exact (Function.update_eq_self_iff.mpr he.symm).symm
      · intro v hv
        obtain ⟨hvu, -⟩ := hfits.current_put hrun hv
        exact ⟨hvu, by simp, hopen'⟩
    · have hok := report_ok h hx he hfits hrun (hfits.not_completed hrun
        (hproper (.inr ⟨hstage, by simpa using hopen⟩)))
      rw [Option.some.inj hstep] at hok
      exact hok
  | leaving =>
    have hrun : x.stage ≠ .finished := by simp [hstage]
    simp only [hstage, Option.some.injEq, Prod.mk.injEq] at hstep
    obtain ⟨rfl, rfl⟩ := hstep
    refine ⟨(ownResults_single _).mpr ?_, h.finish hx he hfits hrun⟩
    intro e' he'
    cases he.symm.trans he'
    rw [hfits.cancelled, hfits.left hstage]
  | failing =>
    have hrun : x.stage ≠ .finished := by simp [hstage]
    simp only [hstage] at hstep
    have hok := report_ok h hx he hfits hrun (hfits.not_completed hrun (hproper (Or.inl hstage)))
    rw [Option.some.inj hstep] at hok
    exact hok
  | waiting completer =>
    have hrun : x.stage ≠ .finished := by simp [hstage]
    obtain rfl := hfits.waiting completer hstage
    simp only [hstage] at hstep
    obtain ⟨ok, hresult, hreport⟩ := map_eq_some_iff.mp hstep
    have hcompleted : ok = true ↔ e.Completed := by
      by_cases hcancelled : x.isCancelled = true
      · rcases hchecked hcancelled hrun with hahead | ⟨-, hnot⟩
        · rw [Upload.ChecksAhead, hstage] at hahead
          exact hahead.elim
        · refine iff_of_false (fun hok => hnot (hok ▸ hresult)) fun hdone => ?_
          rw [Entry.Completed, hfits.cancelled, hcancelled] at hdone
          exact Bool.noConfusion hdone.2
      · have hopen : x.isCancelled = false := by simpa using hcancelled
        rw [Entry.Completed, ← hfits.verdict hrun hopen, hresult, hfits.cancelled, hopen]
        simp
    have hok := report_ok h hx he hfits hrun hcompleted
    rw [hreport] at hok
    exact hok
  | finished => simp [hstage] at hstep

theorem fileFails_ok (h : Inv s k) (hx : s.uploads u = some x)
    (hrun : x.stage = .opening ∨ ∃ chunk, x.stage = .reading chunk)
    (hproper : x.stage = .opening → x.isCancelled = false → s.results u ≠ some true) :
    (x.stage = .opening → ownResults.AcceptsFrom k (s.report u x false).2 ∧
      Inv (s.report u x false).1 ((s.report u x false).2.foldl Ledger.next k)) ∧
    Inv (s.put u { x with stage := .failing }) k := by
  obtain ⟨e, he, hfits⟩ := h.fits u x hx
  have hrunning : x.stage ≠ .finished := by
    rcases hrun with hstage | ⟨chunk, hstage⟩ <;> simp [hstage]
  refine ⟨fun hstage => report_ok h hx he hfits hrunning (hfits.not_completed hrunning (hproper hstage)), ?_⟩
  exact h.move hx he hfits hrunning (by simp) (by simp) (fun _ => trivial) (by simp)

theorem timesOut_ok (h : Inv s k) (hx : s.uploads u = some x)
    {completer : ℕ} (hstage : x.stage = .waiting completer) (hresult : s.results completer = none) :
    ownResults.AcceptsFrom k (s.report u x false).2 ∧
      Inv (s.report u x false).1 ((s.report u x false).2.foldl Ledger.next k) := by
  obtain ⟨e, he, hfits⟩ := h.fits u x hx
  obtain rfl := hfits.waiting completer hstage
  have hrun : x.stage ≠ .finished := by simp [hstage]
  exact report_ok h hx he hfits hrun (hfits.not_completed hrun fun _ => by simp [hresult])

theorem cancel_ok (h : Inv s k) (hx : s.uploads u = some x) (hcurrent : s.currentSendingTransfer = some u)
    (hproper : x.ChecksAhead ∨ (∃ completer, x.stage = .waiting completer) ∧ s.results u = none) :
    ownResults.AcceptsFrom k [.cancels u] ∧ Inv (s.cancel u x) ([Event.cancels u].foldl Ledger.next k) := by
  refine ⟨⟨trivial, trivial⟩, ?_⟩
  obtain ⟨e, he, hfits⟩ := h.fits u x hx
  obtain ⟨x₀, hx₀, hrun, -⟩ := h.current u hcurrent
  cases hx.symm.trans hx₀
  have hcancelled : Fits (s.cancel u x) u { x with isCancelled := true, status := .cancelled }
      { e with cancelled := true } := by
    refine ⟨hfits.id, rfl, hfits.running, hfits.newest, fun _ => rfl, hfits.completer, fun _ hopen => ?_,
      hfits.waiting, fun _ _ => ?_, fun _ => rfl⟩
    · simp at hopen
    · rcases hproper with hahead | ⟨hwait, hresult⟩
      · exact Or.inl hahead
      · exact Or.inr ⟨hwait, by simp [State.cancel, State.put, hresult]⟩
  refine h.step hx hrun rfl rfl rfl ?_ hcancelled ?_
  · simp only [List.foldl_cons, List.foldl_nil, Ledger.next, he, map_some]
  · intro v hv
    simp [State.cancel] at hv

/-! ### Answers -/

theorem findEntry_some {id n : ℕ} (h : s.findEntry id n = some u) : ∃ x, s.uploads u = some x ∧ x.id = id := by
  induction n with
  | zero => simp [State.findEntry] at h
  | succ _ ih =>
    unfold State.findEntry at h
    split_ifs at h with hid
    · cases h
      obtain ⟨x, hx, hxid⟩ := (any_eq_true ..).mp hid
      exact ⟨x, hx, by simpa using hxid⟩
    · exact ih h

theorem complete_slots (s : State) (id : ℕ) (ok : Bool) : (s.complete id ok).uploads = s.uploads ∧
    (s.complete id ok).count = s.count ∧ (s.complete id ok).currentSendingTransfer =
    s.currentSendingTransfer ∧ (s.complete id ok).currentFileAckCompleter = s.currentFileAckCompleter := by
  unfold State.complete
  split
  · split_ifs <;> exact ⟨rfl, rfl, rfl, rfl⟩
  · exact ⟨rfl, rfl, rfl, rfl⟩

theorem complete_results (h : Fits s u x e) (hx : s.uploads u = some x) (hrun : x.stage ≠ .finished)
    (hopen : x.isCancelled = false) (id : ℕ) (ok : Bool) :
    (s.complete id ok).results u = (e.answered id ok).verdict := by
  have hcurrent : s.currentSendingTransfer.bind s.uploads = some x := by
    rw [h.current hrun, hopen]
    exact hx
  have hverdict := h.verdict hrun hopen
  have hrunning := h.running.mpr hrun
  simp only [State.complete, hcurrent, h.completer hrun, Entry.answered]
  by_cases hmatch : x.id = id ∧ s.results u = none
  · rw [if_pos hmatch, if_pos ⟨h.id.trans hmatch.1, hrunning, hverdict ▸ hmatch.2⟩]
    simp
  · rw [if_neg hmatch, if_neg fun hyes => hmatch ⟨h.id ▸ hyes.1, hverdict.trans hyes.2.2⟩]
    exact hverdict

theorem complete_cancelled (h : Fits s u x e) (hrun : x.stage ≠ .finished) (hcancelled : x.isCancelled = true)
    (id : ℕ) (ok : Bool) : s.complete id ok = s := by
  have hcurrent : s.currentSendingTransfer = none := by
    rw [h.current hrun, if_pos hcancelled]
  simp [State.complete, hcurrent]

theorem answered_fields (e : Entry) (id : ℕ) (ok : Bool) : (e.answered id ok).id = e.id ∧
    (e.answered id ok).cancelled = e.cancelled ∧ (e.answered id ok).running = e.running := by
  unfold Entry.answered
  split_ifs <;> exact ⟨rfl, rfl, rfl⟩

theorem Fits.answered (h : Fits s u x e) (hx : s.uploads u = some x) (id : ℕ) (ok : Bool) :
    Fits (s.complete id ok) u x (e.answered id ok) := by
  obtain ⟨-, hcount, hcurrent, hcompleter⟩ := complete_slots s id ok
  obtain ⟨hid, hcancelled, hrunning⟩ := answered_fields e id ok
  refine ⟨hid.trans h.id, hcancelled.trans h.cancelled, ?_, ?_, ?_, ?_, ?_, h.waiting, ?_, h.left⟩
  · rw [hrunning]
    exact h.running
  · rw [hcount]
    exact h.newest
  · rw [hcurrent]
    exact h.current
  · rw [hcompleter]
    exact h.completer
  · exact fun hrun hopen => complete_results h hx hrun hopen id ok
  · intro hcancel hrun
    rw [complete_cancelled h hrun hcancel id ok]
    exact h.checked hcancel hrun

theorem Inv.answered (h : Inv s k) (id : ℕ) (ok : Bool) : Inv (s.complete id ok) (k.next (.answers id ok)) := by
  obtain ⟨huploads, hcount, hcurrent, -⟩ := complete_slots s id ok
  refine ⟨?_, ?_, ?_, ?_, ?_⟩
  · rw [huploads, hcount]
    exact h.unborn
  · intro u hu
    rw [huploads] at hu
    simp [Ledger.next, h.unknown u hu]
  · intro u x hx
    rw [huploads] at hx
    obtain ⟨e, he, hfits⟩ := h.fits u x hx
    exact ⟨e.answered id ok, by simp [Ledger.next, he], hfits.answered hx id ok⟩
  · rw [huploads, hcurrent]
    exact h.current
  · rw [huploads]
    exact h.distinct

theorem Inv.shows (h : Inv s k) (hx : s.uploads u = some x) (status : Status) :
    Inv (s.put u { x with status := status }) k := by
  have hback : ∀ v y, (s.put u { x with status := status }).uploads v = some y → ∃ z, s.uploads v = some z ∧
      y = { z with status := y.status } := by
    intro v y hy
    by_cases hne : v = u
    · subst hne
      rw [put_self] at hy
      cases hy
      exact ⟨x, hx, rfl⟩
    · rw [put_other hne] at hy
      exact ⟨y, hy, rfl⟩
  refine ⟨?_, ?_, ?_, ?_, ?_⟩
  · intro v hv
    have hne : v ≠ u := by
      rintro rfl
      cases (h.unborn v hv).symm.trans hx
    rw [put_other hne]
    exact h.unborn v hv
  · intro v hv
    by_cases hne : v = u
    · subst hne
      simp [State.put] at hv
    · rw [put_other hne] at hv
      exact h.unknown v hv
  · intro v y hy
    obtain ⟨z, hz, hyz⟩ := hback v y hy
    obtain ⟨e, he, hfits⟩ := h.fits v z hz
    rw [hyz]
    exact ⟨e, he, hfits.id, hfits.cancelled, hfits.running, hfits.newest, hfits.current, hfits.completer,
      hfits.verdict, hfits.waiting, hfits.checked, hfits.left⟩
  · intro v hv
    obtain ⟨y, hy, hrun, hopen⟩ := h.current v hv
    by_cases hne : v = u
    · subst hne
      cases hx.symm.trans hy
      exact ⟨{ x with status := status }, by simp [State.put], hrun, hopen⟩
    · exact ⟨y, by rw [put_other hne, hy], hrun, hopen⟩
  · intro v w y z hy hz hid
    obtain ⟨y', hy', hyy⟩ := hback v y hy
    obtain ⟨z', hz', hzz⟩ := hback w z hz
    rw [hyy, hzz] at hid
    exact h.distinct v w y' z' hy' hz' hid

theorem answer_ok (h : Inv s k) (id : ℕ) (ok : Bool) (hproper : ok = true → ∀ u e, k u = some e → e.id = id →
      e.cancelled = false ∧ (e.running = true ∧ e.verdict ≠ some false ∨ e.verdict = some true)) :
    ownResults.AcceptsFrom k (s.answer id ok).2 ∧
        Inv (s.answer id ok).1 ((s.answer id ok).2.foldl Ledger.next k) := by
  have hinv := h.answered id ok
  unfold State.answer
  cases hfind : s.findEntry id s.count with
  | none => exact ⟨⟨trivial, trivial⟩, hinv⟩
  | some u =>
    obtain ⟨x, hx, hid⟩ := findEntry_some hfind
    obtain ⟨e, he, hfits⟩ := h.fits u x hx
    simp only [hx]
    refine ⟨⟨trivial, ?_, trivial⟩, ?_⟩
    · rintro rfl e' he'
      have hknown : k.next (.answers id true) u = some (e.answered id true) := by simp [Ledger.next, he]
      cases hknown.symm.trans he'
      obtain ⟨hopen, hverdict⟩ := hproper rfl u e he (hfits.id.trans hid)
      refine ⟨?_, (answered_fields e id true).2.1.trans hopen⟩
      unfold Entry.answered
      rcases hverdict with ⟨hrun, hnot⟩ | hdone
      · split_ifs with hfirst
        · rfl
        · cases hv : e.verdict with
          | none => exact absurd ⟨hfits.id.trans hid, hrun, hv⟩ hfirst
          | some ok =>
            cases ok with
            | true => rfl
            | false => exact absurd hv hnot
      · rw [if_neg (by rw [hdone]; simp)]
        exact hdone
    · have hx' : (s.complete id ok).uploads u = some x := by rw [(complete_slots s id ok).1, hx]
      exact hinv.shows hx' _

/-! ### Beginnings -/

theorem Inv.begins (h : Inv s k) (hproper : ∀ v y, s.uploads v = some y → y.stage = .finished ∧ y.id ≠ x.id)
    (hx : x.isCancelled = false ∧ x.stage = .opening)
      (huploads : s'.uploads = Function.update s.uploads s.count (some x))
    (hcount : s'.count = s.count + 1) (hcurrent : s'.currentSendingTransfer = some s.count)
    (hcompleter : s'.currentFileAckCompleter = some s.count) (hresults : s'.results s.count = none) :
    Inv s' (k.next (.started s.count x.id)) := by
  have hsame : s'.uploads s.count = some x := by rw [huploads, Function.update_self]
  have hother : ∀ v, v ≠ s.count → s'.uploads v = s.uploads v := fun v hne => by
    rw [huploads, Function.update_of_ne hne]
  refine ⟨?_, ?_, ?_, ?_, ?_⟩
  · intro v hv
    rw [hcount] at hv
    have hne : v ≠ s.count := by omega
    rw [hother v hne]
    exact h.unborn v (by omega)
  · intro v hv
    have hne : v ≠ s.count := by
      rintro rfl
      rw [hsame] at hv
      exact some_ne_none _ hv
    rw [Ledger.next, Function.update_of_ne hne]
    exact h.unknown v ((hother v hne).symm.trans hv)
  · intro v y hy
    by_cases hne : v = s.count
    · subst hne
      cases hsame.symm.trans hy
      refine ⟨⟨x.id, false, none, true⟩, by rw [Ledger.next, Function.update_self], rfl, hx.1.symm, ?_, fun _ =>
        hcount.symm,
        fun _ => ?_, fun _ => hcompleter, fun _ _ => hresults, ?_, ?_, ?_⟩
      · simp [hx.2]
      · rw [hcurrent, hx.1]
        rfl
      · simp [hx.2]
      · exact fun hcancelled => absurd (hx.1.symm.trans hcancelled) Bool.false_ne_true
      · simp [hx.2]
    · rw [hother v hne] at hy
      obtain ⟨e, he, hfits⟩ := h.fits v y hy
      exact ⟨e, by rw [Ledger.next, Function.update_of_ne hne, he], hfits.of_over (hproper v y hy).1⟩
  · intro v hv
    cases hcurrent.symm.trans hv
    exact ⟨x, hsame, by simp [hx.2], hx.1⟩
  · intro v w y z hy hz hid
    by_cases hv : v = s.count
    · by_cases hw : w = s.count
      · rw [hv, hw]
      · subst hv
        cases hsame.symm.trans hy
        rw [hother w hw] at hz
        exact absurd hid.symm (hproper w z hz).2
    · rw [hother v hv] at hy
      by_cases hw : w = s.count
      · subst hw
        cases hsame.symm.trans hz
        exact absurd hid (hproper v y hy).2
      · rw [hother w hw] at hz
        exact h.distinct v w y z hy hz hid

theorem begins_ok (h : Inv s k) {id : ℕ} (totalChunks : ℕ)
    (hproper : ∀ u x, s.uploads u = some x → x.stage = .finished ∧ x.id ≠ id) :
    ownResults.AcceptsFrom k (s.begins id totalChunks).2 ∧
      Inv (s.begins id totalChunks).1 ((s.begins id totalChunks).2.foldl Ledger.next k) := by
  let x : Upload := ⟨id, totalChunks, false, .sending, .opening⟩
  let s' : State := { s.put s.count x with
    count := s.count + 1
    isSendingFile := true
    currentSendingTransfer := some s.count
    currentFileAckCompleter := some s.count
    results := Function.update s.results s.count none }
  have hinv : Inv s' (k.next (.started s.count id)) :=
    h.begins (x := x) hproper ⟨rfl, rfl⟩ rfl rfl rfl rfl (Function.update_self ..)
  have hx : s'.uploads s.count = some x := put_self
  unfold State.begins
  split_ifs with hopen
  · exact ⟨⟨trivial, trivial, trivial⟩, hinv⟩
  · -- the first message cannot be sent
    obtain ⟨e, he, hfits⟩ := hinv.fits s.count x hx
    have hrun : x.stage ≠ .finished := by simp [x]
    have hnone : false = true ↔ e.Completed := hfits.not_completed hrun fun _ => by simp [s']
    obtain ⟨haccepts, hinv'⟩ := report_ok hinv hx he hfits hrun hnone
    exact ⟨⟨trivial, haccepts⟩, hinv'⟩

/-- Every proper step keeps the law and the invariant. -/
theorem step_ok {a : Action} (h : Inv s (ownResults.after es)) (hproper : Proper s es a)
    (hstep : uploads.step s a = some (t, fs)) :
    ownResults.AcceptsFrom (ownResults.after es) fs ∧ Inv t (fs.foldl ownResults.next (ownResults.after es)) := by
  cases a with
  | begins _ totalChunks =>
    have hok := begins_ok h totalChunks hproper
    rw [Option.some.inj hstep] at hok
    exact hok
  | goesOn =>
    obtain ⟨x, hx, hrun⟩ := bind_eq_some_iff.mp hstep
    exact goesOn_ok h hx hrun (hproper x hx)
  | fileFails =>
    obtain ⟨x, hx, hrun⟩ := bind_eq_some_iff.mp hstep
    cases hstage : x.stage with
    | opening =>
      rw [hstage] at hrun
      have hok := (fileFails_ok h hx (Or.inl hstage) (hproper x hx)).1 hstage
      rw [Option.some.inj hrun] at hok
      exact hok
    | reading chunk =>
      rw [hstage] at hrun
      cases hrun
      exact ⟨trivial, (fileFails_ok h hx (.inr ⟨chunk, hstage⟩) (hproper x hx)).2⟩
    | pausing | closing | leaving | failing | waiting | finished =>
      rw [hstage] at hrun
      simp at hrun
  | timesOut =>
    obtain ⟨x, hx, hrun⟩ := bind_eq_some_iff.mp hstep
    cases hstage : x.stage with
    | waiting =>
      simp only [hstage] at hrun
      split_ifs at hrun with hresult
      have hok := timesOut_ok h hx hstage hresult
      rw [Option.some.inj hrun] at hok
      exact hok
    | opening | reading | pausing | closing | leaving | failing | finished =>
      rw [hstage] at hrun
      simp at hrun
  | cancel =>
    obtain ⟨x, hx, hrun⟩ := bind_eq_some_iff.mp hstep
    split_ifs at hrun with hcurrent
    cases hrun
    exact cancel_ok h hx hcurrent (hproper x hx)
  | fileAck id ok =>
    have hok := answer_ok h id ok hproper
    rw [Option.some.inj hstep] at hok
    exact hok
  | fileReject id =>
    have hok := answer_ok h id false nofun
    rw [Option.some.inj hstep] at hok
    exact hok
  | channelCloses =>
    cases hstep
    refine ⟨trivial, h.unborn, h.unknown, fun u x hx => ?_, h.current, h.distinct⟩
    obtain ⟨e, he, hfits⟩ := h.fits u x hx
    exact ⟨e, he, hfits.id, hfits.cancelled, hfits.running, hfits.newest, hfits.current, hfits.completer,
      hfits.verdict, hfits.waiting, hfits.checked, hfits.left⟩

theorem inv_start : Inv .start ownResults.start := by
  have hnone : ∀ u, State.start.uploads u = none := fun _ => rfl
  refine ⟨fun u _ => hnone u, fun _ _ => rfl, fun u _ hx => ?_, fun _ hu => ?_, fun u _ _ _ hx => ?_⟩
  · cases (hnone u).symm.trans hx
  · cases (rfl : State.start.currentSendingTransfer = none).symm.trans hu
  · cases (hnone u).symm.trans hx

theorem inv_of_proper (h : uploads.Reach Proper .start t es) :
    ownResults.Accepts es ∧ Inv t (ownResults.after es) :=
  h.monitor_accepts ownResults (fun s _ k => Inv s k) inv_start
    fun _ _ _ _ _ hinv hproper hstep => step_ok hinv hproper hstep

/-- In every run whose steps are all proper, the results of the uploads are their own. -/
theorem ownResults_of_proper (h : uploads.Reach Proper .start t es) : ownResults.Accepts es := (inv_of_proper h).1

theorem Inv.only_first (h : Inv s k) (hcount : s.count = 1) (hne : u ≠ 0) : s.uploads u = none ∧ k u = none := by
  have hx : s.uploads u = none := h.unborn u (by omega)
  exact ⟨hx, h.unknown u hx⟩

/-- A file of two chunks is sent and acknowledged, then a second one is cancelled after its first chunk. -/
theorem twoUploads_own : ownResults.Accepts
    ([.started 0 7, .sends 0 .fileStart, .sends 0 (.fileChunk 0), .sends 0 (.fileChunk 1), .sends 0 .fileEnd,
        .answers 7 true, .shows 0 true, .reports 0 true] ++
      [.started 1 8, .sends 1 .fileStart, .cancels 1, .sends 1 (.fileChunk 0), .sends 1 .fileReject,
          .leaves 1]) := by
  have hbegun : uploads.Reach Proper .start _ [.started 0 7, .sends 0 .fileStart] :=
    Machine.Reach.start.step (a := Action.begins 7 2) (fun _ _ hx => absurd hx (by simp [State.start])) rfl
  have hreading := hbegun.step (a := Action.goesOn 0) (fun _ _ _ _ => by decide) rfl
  have hfirst := hreading.step (a := Action.goesOn 0) (fun _ _ _ _ => by decide) rfl
  have hsecond := hfirst.step (a := Action.goesOn 0) (fun _ _ _ _ => by decide) rfl
  have hclosing := hsecond.step (a := Action.goesOn 0) (fun _ _ _ _ => by decide) rfl
  have hwaiting := hclosing.step (a := Action.goesOn 0) (fun _ _ _ _ => by decide) rfl
  have hanswered := hwaiting.step (a := Action.fileAck 7 true) (fun _ u e he _ => by
    by_cases hu : u = 0
    · subst hu
      cases he
      exact ⟨rfl, .inl ⟨rfl, by decide⟩⟩
    · cases ((inv_of_proper hwaiting).2.only_first rfl hu).2.symm.trans he) rfl
  have hover := hanswered.step (a := Action.goesOn 0) (fun x hx hfails => by
    cases hx
    rcases hfails with hfails | hfails
    · cases hfails
    · exact absurd hfails.1 (by decide)) rfl
  -- the second upload has an id of its own, and the first one is over
  have hnext := hover.step (a := Action.begins 8 2) (fun u x hx => by
    by_cases hu : u = 0
    · subst hu
      cases hx
      exact ⟨rfl, by decide⟩
    · cases ((inv_of_proper hover).2.only_first rfl hu).1.symm.trans hx) rfl
  have hopened := hnext.step (a := Action.goesOn 1) (fun _ _ _ _ => by decide) rfl
  have hcancelled := hopened.step (a := Action.cancel 1) (fun x hx => by
    cases hx
    exact .inl (by decide : 0 + 1 < 2)) rfl
  have hsent := hcancelled.step (a := Action.goesOn 1) (fun _ _ _ _ => by decide) rfl
  have hleaving := hsent.step (a := Action.goesOn 1) (fun _ _ _ _ => by decide) rfl
  exact ownResults_of_proper (hleaving.step (a := Action.goesOn 1) (fun _ _ _ _ => by decide) rfl)

/-- A second upload begins while the first one runs, and only the second is acknowledged. -/
def overlapping : List Action :=
  [.begins 1 0, .goesOn 0, .begins 2 0, .goesOn 0, .goesOn 1, .goesOn 1, .fileAck 2 true, .goesOn 0]

/-- The first upload waits for the second one's completer, and is reported as completed. -/
theorem overlapping_reported : ∃ t es, uploads.Path .start overlapping t es ∧ Event.reports 0 true ∈ es ∧
    Event.answers 1 true ∉ es ∧ ¬ownResults.Accepts es := by
  have hcheck : (uploads.exec (fun _ _ _ => true) .start [] overlapping).any (fun r =>
      decide (.reports 0 true ∈ r.2 ∧ .answers 1 true ∉ r.2 ∧ ¬ownResults.Accepts r.2)) = true := by decide
  obtain ⟨t, es, hpath, hbad⟩ := Machine.path_of_check hcheck
  exact ⟨t, es, hpath, of_decide_eq_true hbad⟩

end LigamentApps.SupportOperator.Uploads
