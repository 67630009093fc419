import LigamentApps.Machine.Completion
import LigamentApps.SupportOperator.FileDownload

/-!
# The round trip of a download

When the operator saves the bytes of a file that the host sends, and acknowledges it. -/

namespace LigamentApps.SupportOperator

open LinkHost LinkHostRecorder SupportService List Option

variable {wait : EndWait} {c : ComputerAction} {message : Json} {rest : List Json} {k : ℕ}
  (bytes : List UInt8) (d : Files)

/-! ## What is asked of a download -/

/-- The operator has nothing left to do for an earlier file. -/
structure OperatorDownloads.AtRest (s : OperatorDownloads) : Prop where
  starts : s.starts = []
  downloads : s.downloads = []
  endings : s.endings = []
  sinks : ∀ sink ∈ s.sinks, sink.isDone = true

/-- A file is saved, or an answer is sent. -/
def DownloadEvent.isResult : DownloadEvent → Bool
  | .saves _ _ _ => true
  | .sends _ => true
  | _ => false

/-- The bytes are saved once, where there was no file before, there is no part file, and the answer is ok. -/
def Downloaded (before : OperatorDownloads) (id : String) (bytes : List UInt8) (s : DownloadState)
    (es : List DownloadEvent) : Prop :=
  ∃ sink path, (before.files.part path).content = none ∧
    es.filter DownloadEvent.isResult = [.saves sink path bytes, .sends (fileAck id true)] ∧
      (s.operator.files.part path).content = some bytes ∧ (s.operator.files.part (partPath path)).content = none

/-- A chunk or a last message that comes is not lost: its download takes it. -/
def NotLost (w : DownloadWorld) (dirPath : String) (s : DownloadState) (_ : List DownloadEvent)
    (a : TransferAction) : Prop :=
  a = .delivers → ∀ message rest, s.channel = message :: rest →
    hasType message ["file_chunk", "file_end"] = true → ∀ t fs, s.step w dirPath a = some (t, fs) → fs ≠ []

/-- No message comes while the operator waits for the directory of a file. -/
def timely (s : DownloadState) : TransferAction → Bool
  | .delivers => s.channel.isEmpty || s.operator.starts.isEmpty
  | _ => true

variable {w : DownloadWorld} {dirPath : String} {before operator : OperatorDownloads} {s t : DownloadState}
  {es fs : List DownloadEvent} {file : HostFile w} {i : ℕ} {path : String} {sink : FileSink String}

/-! ## The messages -/

def HostFile.checksum (file : HostFile w) : String := hexText (w.sha256 file.bytes)

def HostFile.filename (file : HostFile w) : String := w.lastSegment file.path

def HostFile.startMessage (file : HostFile w) : Json :=
  downloadStart file.id file.filename file.bytes.length (totalChunksOf file.bytes.length)

/-- The messages of the file from a chunk on. -/
abbrev HostFile.messagesFrom (file : HostFile w) (i : ℕ) : List Json :=
  SupportOperator.messagesFrom file.id file.checksum file.bytes i

abbrev HostFile.chunkMessage (file : HostFile w) (i : ℕ) : Json :=
  fileChunk file.id i (Base64.encode (chunkOf file.bytes i))

theorem readAt_chunk (i : ℕ) : readAt bytes (i * chunkSize) = chunkOf bytes i := by
  have hlength : (bytes.drop (i * chunkSize)).length = bytes.length - i * chunkSize := length_drop
  unfold readAt chunkOf
  rw [← hlength, ← take_eq_take_min]

theorem chunkOf_full {bytes : List UInt8} (hi : i + 1 < totalChunksOf bytes.length) :
    (chunkOf bytes i).length = chunkSize := by
  have hlt := lt_of_lt_totalChunksOf hi
  rw [Nat.add_mul, Nat.one_mul] at hlt
  unfold chunkOf
  rw [length_take, length_drop]
  omega

theorem readChunks_end {bytes : List UInt8} {sentBytes : ℕ} (hend : bytes.length ≤ sentBytes) :
    readChunks bytes sentBytes = [] := by
  unfold readChunks
  rw [if_neg (by omega)]

theorem readChunks_from (bytes : List UInt8) : ∀ left i : ℕ, i + left = totalChunksOf bytes.length →
    readChunks bytes (i * chunkSize) = (List.range' i left).map (chunkOf bytes)
  | 0, i, htotal => by
    have hend := le_totalChunksOf bytes.length
    rw [← htotal, Nat.add_zero] at hend
    exact readChunks_end hend
  | left + 1, i, htotal => by
    have hlt : i < totalChunksOf bytes.length := by omega
    have hmore := lt_of_lt_totalChunksOf hlt
    have hrest := readChunks_from bytes left (i + 1) (by omega)
    have hnext : readChunks bytes (i * chunkSize + (chunkOf bytes i).length) = readChunks bytes
      ((i + 1) * chunkSize) := by
      by_cases hlast : i + 1 < totalChunksOf bytes.length
      · rw [chunkOf_full hlast, Nat.add_mul, Nat.one_mul]
      · -- The last chunk ends where the file ends.
        have htotal' : i + 1 = totalChunksOf bytes.length := by omega
        have hlength := chunkOf_length bytes i
        have hwhole := le_totalChunksOf bytes.length
        have hbefore : (bytes.take (i * chunkSize)).length ≤ i * chunkSize := length_take_le _ _
        rw [htotal', take_totalChunksOf] at hlength
        rw [← htotal'] at hwhole
        rw [readChunks_end (by omega), readChunks_end hwhole]
    rw [readChunks, if_pos hmore, readAt_chunk, if_neg (chunkOf_ne_nil hlt), hnext, hrest, range'_succ,
      map_cons]

theorem flatten_readChunks : (readChunks bytes 0).flatten = bytes := by
  have hread := readChunks_from bytes (totalChunksOf bytes.length) 0 (Nat.zero_add _)
  rw [Nat.zero_mul, ← range_eq_range'] at hread
  rw [hread, ← flatMap_def, flatMap_chunkOf, take_totalChunksOf]

theorem mapIdx_readChunks {α : Type} (f : ℕ → List UInt8 → α) :
    (readChunks bytes 0).mapIdx f = (List.range' 0 (totalChunksOf bytes.length)).map fun i =>
      f i (chunkOf bytes i) := by
  have hread := readChunks_from bytes (totalChunksOf bytes.length) 0 (Nat.zero_add _)
  rw [Nat.zero_mul] at hread
  rw [hread]
  refine ext_getElem (by simp) fun i _ _ => ?_
  simp

theorem start_sends (operator : OperatorDownloads) (file : HostFile w) :
    (DownloadState.start operator file).unsent = file.startMessage :: file.messagesFrom 0 := by
  have hpath : dartTextOr w.doubleText (downloadRequest file.path file.id) "remote_path"
      (dartTextOr w.doubleText (downloadRequest file.path file.id) "path" "") = file.path := rfl
  have hid : dartTextOr w.doubleText (downloadRequest file.path file.id) "transfer_id" ("dl_" ++ toString w.hostNow) =
      file.id := rfl
  have hallowed : ¬(file.path = "" ∨ w.allowFileTransfer = false) := by
    rw [file.allowed]
    simp [file.named]
  have hfits := file.fits
  unfold DownloadState.start DownloadWorld.handleFsDownloadStart
  rw [hpath, hid, if_neg hallowed, file.found]
  dsimp only
  rw [if_neg (by omega), mapIdx_readChunks, flatten_readChunks]
  rfl

/-! ## The operator while the file comes -/

/-- The call of `_handleIncomingFileStart`. -/
def HostFile.call (file : HostFile w) (dirPath : String) : StartCall where
  id := file.id
  filename := file.filename
  totalSize := file.bytes.length
  totalChunks := totalChunksOf file.bytes.length
  checksum := none
  declared := some file.bytes.length
  dirPath := dirPath

/-- The download after the first chunks. -/
def HostFile.download (file : HostFile w) (path : String) (sink i : ℕ) : OperatorDownload where
  id := file.id
  totalSize := file.bytes.length
  totalChunks := totalChunksOf file.bytes.length
  expectedChecksum := none
  targetPath := path
  sink := sink
  hashed := file.bytes.take (i * chunkSize)
  receivedBytes := (file.bytes.take (i * chunkSize)).length
  receivedChunks := i

/-- The operator, who was at rest before, has the first chunks of the file, and its sink has their bytes. -/
structure Receiving (before : OperatorDownloads) (file : HostFile w) (path : String) (i : ℕ)
    (sink : FileSink String) (operator : OperatorDownloads) : Prop where
  free : (before.files.part path).content = none
  starts : operator.starts = []
  downloads : operator.downloads = [file.download path before.sinks.length i]
  endings : operator.endings = []
  sinks : operator.sinks = before.sinks ++ [sink]
  part : sink.file = partPath path
  goesOn : sink.closing = false
  notDone : sink.isDone = false
  has : sink.Has operator.files.part (file.bytes.take (i * chunkSize))

/-- The call of `_handleIncomingFileEnd` for the whole file. -/
def HostFile.ending (file : HostFile w) (path : String) (sink : ℕ) (wait : EndWait) : EndCall :=
  ⟨file.download path sink (totalChunksOf file.bytes.length), some file.checksum, wait⟩

/-- The operator has the whole file, and comes to its end. -/
structure Finishing (before : OperatorDownloads) (file : HostFile w) (path : String) (wait : EndWait)
    (sink : FileSink String) (operator : OperatorDownloads) : Prop where
  free : (before.files.part path).content = none
  starts : operator.starts = []
  downloads : operator.downloads = []
  endings : operator.endings = [file.ending path before.sinks.length wait]
  sinks : operator.sinks = before.sinks ++ [sink]
  part : sink.file = partPath path
  closing : sink.closing = true
  notFailed : sink.handle ≠ .failed
  closed : wait = .renaming → sink.handle = .closed
  has : sink.Has operator.files.part file.bytes

theorem receive_start (hrest : before.AtRest) : before.handleMessage w.toOperatorWorld file.startMessage dirPath =
    ({ before with starts := [file.call dirPath] }, []) := by
  have hid : transferId w.doubleText file.startMessage = file.id := rfl
  have hsize : truncatedOr file.startMessage "size" 0 = some (file.bytes.length : ℤ) :=
    congrArg some (Int.tdiv_one _)
  have hchunks : truncatedOr file.startMessage "total_chunks" 1 = some (totalChunksOf file.bytes.length : ℤ) :=
    congrArg some (Int.tdiv_one _)
  have hfits := file.fits
  have haccepted : ¬(file.id = "" ∨ maxFileTransferBytes < (file.bytes.length : ℤ)) := by
    intro hrefused
    obtain hempty | hlong := hrefused
    · exact file.identified hempty
    · omega
  have hbranch : before.handleMessage w.toOperatorWorld file.startMessage dirPath =
      before.handleFileStart w.toOperatorWorld file.startMessage dirPath := rfl
  rw [hbranch]
  unfold OperatorDownloads.handleFileStart
  rw [hid, hsize, hchunks]
  dsimp only
  rw [if_neg haccepted, hrest.starts]
  rfl

theorem receive_lost (hrest : before.AtRest) (i : ℕ) (checksum : String) (starts : List StartCall) :
    ({ before with starts } : OperatorDownloads).handleMessage w.toOperatorWorld (file.chunkMessage i) dirPath =
        ({ before with starts }, []) ∧
      ({ before with starts } : OperatorDownloads).handleMessage w.toOperatorWorld (fileEnd file.id checksum) dirPath =
        ({ before with starts }, []) := by
  constructor
  · have hbranch : ({ before with starts } : OperatorDownloads).handleMessage w.toOperatorWorld (file.chunkMessage i)
      dirPath =
        ({ before with starts } : OperatorDownloads).handleFileChunk w.toOperatorWorld (file.chunkMessage i) := rfl
    rw [hbranch]
    rw [hrest.downloads]
    rfl
  · have hbranch : ({ before with starts } : OperatorDownloads).handleMessage w.toOperatorWorld
      (fileEnd file.id checksum)
        dirPath = ({ before with starts } : OperatorDownloads).handleFileEnd w.toOperatorWorld
          (fileEnd file.id checksum) :=
      rfl
    rw [hbranch]
    rw [hrest.downloads]
    rfl

theorem resolve_free (w : OperatorWorld) (d : Files) (dirPath filename : String) :
    ∃ path, w.resolve d dirPath filename = some path ∧ (d.part path).content = none := by
  obtain ⟨path, hpath, hnew⟩ := exists_resolved
    { doubleText := w.doubleText, now := 0, sha256 := w.sha256, channelOpen := true, separator := w.separator
      downloadsDir := dirPath, existing := d.existing, writable := fun _ => true } dirPath filename
  refine ⟨path, hpath, ?_⟩
  cases hcontent : (d.part path).content with
  | none => rfl
  | some content =>
    have hsome : (d.part path).content.isSome = true := by rw [hcontent]; rfl
    exact absurd (mem_filter.mpr ⟨d.complete path hsome, hsome⟩) hnew

theorem register_receives (hrest : before.AtRest)
    (hregister : ({ before with starts := [file.call dirPath] } : OperatorDownloads).register w.toOperatorWorld 0
      (file.call dirPath) true = (operator, fs)) :
    ∃ path sink, Receiving before file path 0 sink operator ∧ fs.filter DownloadEvent.isResult = [] ∧
      sinkRank sink = 2 := by
  obtain ⟨path, hresolve, hfree⟩ := resolve_free w.toOperatorWorld before.files dirPath file.filename
  have hresolve' : w.toOperatorWorld.resolve before.files (file.call dirPath).dirPath (file.call dirPath).filename =
      some path := hresolve
  have hnothing : file.bytes.take (0 * chunkSize) = [] := by rw [Nat.zero_mul, take_zero]
  unfold OperatorDownloads.register at hregister
  rw [if_pos rfl, hresolve'] at hregister
  cases hregister
  refine ⟨path, { file := partPath path }, ⟨hfree, rfl, ?_, hrest.endings, rfl, rfl, rfl, rfl, ?_⟩, rfl, rfl⟩
  · rw [hrest.downloads]
    unfold HostFile.download
    rw [hnothing]
    rfl
  · rw [hnothing]
    rfl

theorem receive_chunk (h : Receiving before file path i sink operator) (hi : i < totalChunksOf file.bytes.length) :
    operator.handleMessage w.toOperatorWorld (file.chunkMessage i) dirPath =
      ({ operator with
        downloads := [file.download path before.sinks.length (i + 1)]
        sinks := before.sinks ++ [{ sink with pending := sink.pending ++ chunkOf file.bytes i }] },
      [.takes before.sinks.length i (chunkOf file.bytes i)]) := by
  have hread : transferId w.doubleText (file.chunkMessage i) = file.id := rfl
  have hdata : dartTextOr w.doubleText (file.chunkMessage i) "data" "" = Base64.encode (chunkOf file.bytes i) := rfl
  have hindex : truncatedOr (file.chunkMessage i) "chunk_index" (-1) = some (i : ℤ) :=
    congrArg some (Int.tdiv_one _)
  have hbranch : operator.handleMessage w.toOperatorWorld (file.chunkMessage i) dirPath =
      operator.handleFileChunk w.toOperatorWorld (file.chunkMessage i) := rfl
  have hfind : operator.downloads.find? (·.id = file.id) = some (file.download path before.sinks.length i) := by
    rw [h.downloads]
    exact find?_cons_of_pos (decide_eq_true rfl)
  have hlength := chunkOf_length file.bytes i
  rw [hbranch]
  unfold OperatorDownloads.handleFileChunk
  dsimp only
  rw [hread, hdata, hindex, hfind]
  dsimp only
  rw [if_neg (Base64.encode_ne_empty (chunkOf_ne_nil hi)), Base64.decode_encode]
  unfold OperatorDownloads.addChunk HostFile.download
  dsimp only
  rw [h.downloads, h.sinks, modify_last, hlength, take_chunkOf]
  unfold HostFile.download
  rw [map_cons, map_nil, if_pos rfl]
  rfl

theorem receive_end (h : Receiving before file path (totalChunksOf file.bytes.length) sink operator) :
    operator.handleMessage w.toOperatorWorld (fileEnd file.id file.checksum) dirPath =
      ({ operator with
        downloads := [], endings := [file.ending path before.sinks.length .closing]
        sinks := before.sinks ++ [{ sink with closing := true }] },
      [.ends before.sinks.length (some file.checksum)]) := by
  have hread : transferId w.doubleText (fileEnd file.id file.checksum) = file.id := rfl
  have hsum : checksumOf w.doubleText (fileEnd file.id file.checksum) = some file.checksum := rfl
  have hbranch : operator.handleMessage w.toOperatorWorld (fileEnd file.id file.checksum) dirPath =
      operator.handleFileEnd w.toOperatorWorld (fileEnd file.id file.checksum) := rfl
  have hfind : operator.downloads.find? (·.id = file.id) =
      some (file.download path before.sinks.length (totalChunksOf file.bytes.length)) := by
    rw [h.downloads]
    exact find?_cons_of_pos (decide_eq_true rfl)
  have hnone : operator.downloads.filter (·.id ≠ file.id) = [] := by
    rw [h.downloads]
    exact filter_eq_nil_iff.mpr fun d hd hid => of_decide_eq_true hid (mem_singleton.mp hd ▸ rfl)
  have hsink : (file.download path before.sinks.length
    (totalChunksOf file.bytes.length)).sink = before.sinks.length := rfl
  rw [hbranch]
  unfold OperatorDownloads.handleFileEnd
  dsimp only
  rw [hread, hfind]
  dsimp only
  rw [hnone, hsum, h.endings, hsink, h.sinks, modify_last]
  rfl

/-! ## The computer of the operator -/

section Computer

variable {later : OperatorDownloads} {gs : List DownloadEvent} {a : ComputerAction}

/-- A sink of the operator has done something, and has not failed. -/
structure OperatorMoves (operator later : OperatorDownloads) (j : ℕ) (sink next : FileSink String) : Prop where
  moves : SinkMoves j sink next operator.sinks later.sinks operator.files.part later.files.part
  notFailed : next.handle ≠ .failed
  starts : later.starts = operator.starts
  downloads : later.downloads = operator.downloads
  endings : later.endings = operator.endings

theorem computer_moves {w : OperatorWorld} (hstep : operator.step w a.downloadAction = some (later, gs)) :
    (gs = [] ∧ ∃ j sink next, OperatorMoves operator later j sink next) ∨ (∃ k, a = .startGoesOn k) ∨
      (∃ k, a = .endGoesOn k) ∨ ∃ k, a = .endRenames k := by
  cases a with
  | startGoesOn k => exact .inr (.inl ⟨k, rfl⟩)
  | sinkOpens | sinkWrites | sinkCloses =>
    obtain ⟨sink, next, _, _, heq, hmoves, hok⟩ := sinkFile_turns rfl hstep
    cases heq
    exact .inl ⟨rfl, _, sink, next, hmoves, hok rfl, rfl, rfl, rfl⟩
  | endGoesOn k => exact .inr (.inr (.inl ⟨k, rfl⟩))
  | endRenames k => exact .inr (.inr (.inr ⟨k, rfl⟩))

theorem computer_waits {w : OperatorWorld} (hrest : before.AtRest) {starts : List StartCall}
    (hstep : ({ before with starts } : OperatorDownloads).step w a.downloadAction = some (later, gs)) :
    ∃ k, a = .startGoesOn k := by
  have hends : ∀ k : ℕ, before.endings[k]? = none := by
    intro k
    rw [hrest.endings]
    rfl
  obtain ⟨-, j, sink, next, hmoves⟩ | hstart | ⟨k, rfl⟩ | ⟨k, rfl⟩ := computer_moves hstep
  · have hdone := hrest.sinks sink (mem_of_getElem? hmoves.moves.found)
    cases hdone.symm.trans hmoves.moves.busy
  · exact hstart
  · obtain ⟨ending, hk, -⟩ := bind_eq_some_iff.mp hstep
    cases (hends k).symm.trans hk
  · obtain ⟨ending, hk, -⟩ := bind_eq_some_iff.mp hstep
    cases (hends k).symm.trans hk

theorem computer_atRest (hrest : before.AtRest) (w : OperatorWorld) (a : ComputerAction) :
    before.step w a.downloadAction = none := by
  cases hstep : before.step w a.downloadAction with
  | none => rfl
  | some r =>
    have hsame : ({ before with starts := before.starts } : OperatorDownloads).step w a.downloadAction =
      some r := hstep
    obtain ⟨k, rfl⟩ := computer_waits hrest hsame
    obtain ⟨call, hk, -⟩ := map_eq_some_iff.mp hstep
    rw [hrest.starts] at hk
    simp at hk

end Computer

/-! ## The stages of a download -/

/-- How much a call of `_handleIncomingFileEnd` has still to do. -/
def waitRank : EndWait → ℕ
  | .closing => 2
  | .renaming => 1

/-- Nothing is saved and nothing is sent. -/
abbrev NoResult (es : List DownloadEvent) : Prop := es.filter DownloadEvent.isResult = []

/-- What is known of a download, with what is still to be done. -/
inductive Stage (dirPath : String) (before : OperatorDownloads) (file : HostFile w) :
    ℕ → DownloadState → List DownloadEvent → Prop
  | begins {s : DownloadState} {es : List DownloadEvent}
      (hleft : s.channel ++ s.unsent = file.startMessage :: file.messagesFrom 0) (hoperator : s.operator = before)
      (hnone : NoResult es) : Stage dirPath before file (weight s.unsent s.channel) s es
  | waits {s : DownloadState} {es : List DownloadEvent} (hleft : s.channel ++ s.unsent = file.messagesFrom 0)
      (hoperator : s.operator = { before with starts := [file.call dirPath] }) (hnone : NoResult es) :
      Stage dirPath before file (weight s.unsent s.channel + 3) s es
  | takes {s : DownloadState} {es : List DownloadEvent} {path : String} {i : ℕ} {sink : FileSink String}
      (hleft : s.channel ++ s.unsent = file.messagesFrom i) (hi : i ≤ totalChunksOf file.bytes.length)
      (hreceiving : Receiving before file path i sink s.operator) (hnone : NoResult es) :
      Stage dirPath before file (weight s.unsent s.channel + sinkRank sink) s es
  | ends {s : DownloadState} {es : List DownloadEvent} {path : String} {wait : EndWait} {sink : FileSink String}
      (hchannel : s.channel = []) (hunsent : s.unsent = [])
      (hfinishing : Finishing before file path wait sink s.operator) (hnone : NoResult es) :
      Stage dirPath before file (sinkRank sink + waitRank wait) s es
  | done {s : DownloadState} {es : List DownloadEvent} (hchannel : s.channel = []) (hunsent : s.unsent = [])
      (hrest : s.operator.AtRest) (hdownloaded : Downloaded before file.id file.bytes s es) :
      Stage dirPath before file 0 s es

theorem noResult_append (hnone : NoResult es) (hmore : NoResult fs) : NoResult (es ++ fs) := by
  unfold NoResult
  rw [filter_append, hnone, hmore]
  rfl

theorem received_left {left : List Json} (h : s.channel = message :: rest)
    (hleft : s.channel ++ s.unsent = left) : left = message :: (rest ++ s.unsent) := by
  rw [← hleft, h]
  rfl

section Steps

variable {a : TransferAction} {n : ℕ}

theorem download_sends (hstep : s.step w dirPath .sends = some (t, fs)) : ∃ message rest, s.unsent =
    message :: rest ∧ t = { s with unsent := rest, channel := s.channel ++ [message] } ∧ fs = [] := by
  unfold DownloadState.step at hstep
  dsimp only at hstep
  split at hstep
  · rename_i message rest hunsent
    cases hstep
    exact ⟨message, rest, hunsent, rfl, rfl⟩
  · simp at hstep

theorem download_delivers (hstep : s.step w dirPath .delivers = some (t, fs)) : ∃ message rest,
    s.channel = message :: rest ∧
    t = { s with channel := rest, operator := t.operator } ∧
      s.operator.handleMessage w.toOperatorWorld message dirPath = (t.operator, fs) := by
  unfold DownloadState.step at hstep
  dsimp only at hstep
  split at hstep
  · rename_i message rest hchannel
    obtain ⟨⟨operator, gs⟩, hoperator, heq⟩ := map_eq_some_iff.mp hstep
    cases heq
    exact ⟨message, rest, hchannel, rfl, Option.some.inj hoperator⟩
  · simp at hstep

theorem download_computes (hstep : s.step w dirPath (.computer c) = some (t, fs)) :
    t = { s with operator := t.operator } ∧
      s.operator.step w.toOperatorWorld c.downloadAction = some (t.operator, fs) := by
  obtain ⟨⟨operator, gs⟩, hoperator, heq⟩ := map_eq_some_iff.mp hstep
  cases heq
  exact ⟨rfl, hoperator⟩

theorem sends_eq (hunsent : s.unsent = message :: rest) :
    s.step w dirPath .sends = some ({ s with unsent := rest, channel := s.channel ++ [message] }, []) := by
  unfold DownloadState.step
  rw [hunsent]

theorem delivers_eq (hchannel : s.channel = message :: rest)
    (hhandles : s.operator.handleMessage w.toOperatorWorld message dirPath = (operator, fs)) :
    s.step w dirPath .delivers = some ({ s with channel := rest, operator }, fs) := by
  unfold DownloadState.step
  rw [hchannel]
  show (some (s.operator.handleMessage w.toOperatorWorld message dirPath)).map _ = _
  rw [hhandles]
  rfl

theorem computes_eq (hoperates : s.operator.step w.toOperatorWorld c.downloadAction = some (operator, fs)) :
    s.step w dirPath (.computer c) = some ({ s with operator }, fs) := by
  unfold DownloadState.step DownloadState.operates
  dsimp only
  rw [hoperates]
  rfl

theorem download_emptied (hchannel : s.channel = []) (hunsent : s.unsent = []) :
    s.step w dirPath .sends = none ∧ s.step w dirPath .delivers = none := by
  unfold DownloadState.step
  rw [hchannel, hunsent]
  exact ⟨rfl, rfl⟩

theorem download_path {later : DownloadState} {gs : List DownloadEvent} {as : List TransferAction}
    (hstep : s.step w dirPath a = some (later, fs)) (hpath : (download w dirPath).Path later as t gs) :
    (download w dirPath).Path s (a :: as) t (fs ++ gs) := .cons hstep hpath

theorem stage_begins (hrest : before.AtRest) (hleft : s.channel ++ s.unsent = file.startMessage :: file.messagesFrom 0)
    (hoperator : s.operator = before) (hnone : NoResult es) (hstep : s.step w dirPath a = some (t, fs)) :
    ∃ m < weight s.unsent s.channel, Stage dirPath before file m t (es ++ fs) := by
  cases a with
  | sends =>
    obtain ⟨message, rest, hunsent, rfl, rfl⟩ := download_sends hstep
    rw [hunsent] at hleft ⊢
    rw [append_nil]
    have hsent := (sends_left s.channel rest message).trans hleft
    exact ⟨_, weight_sends message rest s.channel,
      .begins (s := { s with unsent := rest, channel := s.channel ++ [message] }) hsent hoperator hnone⟩
  | delivers =>
    obtain ⟨message, rest, hchannel, ht, hhandles⟩ := download_delivers hstep
    obtain ⟨rfl, hrestLeft⟩ := List.cons.inj (received_left hchannel hleft)
    have hweight := weight_delivers file.startMessage s.unsent rest
    rw [hoperator, receive_start hrest] at hhandles
    obtain ⟨hnext, rfl⟩ := Prod.mk.inj hhandles
    rw [hchannel, ← hweight, append_nil]
    refine ⟨weight s.unsent rest + 3, by omega, ?_⟩
    rw [ht]
    exact .waits (s := { s with channel := rest, operator := t.operator }) hrestLeft.symm hnext.symm hnone
  | computer =>
    obtain ⟨-, hoperates⟩ := download_computes hstep
    rw [hoperator, computer_atRest hrest] at hoperates
    simp at hoperates

theorem stage_waits (hrest : before.AtRest) (hleft : s.channel ++ s.unsent = file.messagesFrom 0)
    (hoperator : s.operator = { before with starts := [file.call dirPath] }) (hnone : NoResult es)
    (htimely : timely s a = true) (hstep : s.step w dirPath a = some (t, fs)) :
    ∃ m < weight s.unsent s.channel + 3, Stage dirPath before file m t (es ++ fs) := by
  cases a with
  | sends =>
    obtain ⟨message, rest, hunsent, rfl, rfl⟩ := download_sends hstep
    rw [hunsent] at hleft ⊢
    rw [append_nil]
    have hsent := (sends_left s.channel rest message).trans hleft
    exact ⟨_, Nat.add_lt_add_right (weight_sends message rest s.channel) 3,
      .waits (s := { s with unsent := rest, channel := s.channel ++ [message] }) hsent hoperator hnone⟩
  | delivers =>
    obtain ⟨message, rest, hchannel, -⟩ := download_delivers hstep
    unfold timely at htimely
    rw [hchannel, hoperator] at htimely
    simp at htimely
  | computer =>
    obtain ⟨ht, hoperates⟩ := download_computes hstep
    rw [hoperator] at hoperates
    obtain ⟨k, rfl⟩ := computer_waits hrest hoperates
    obtain ⟨call, hk, heq⟩ := map_eq_some_iff.mp hoperates
    cases k with
    | zero =>
      cases hk
      obtain ⟨path, sink, hreceiving, hmore, hrank⟩ := register_receives hrest heq
      rw [ht]
      refine ⟨weight s.unsent s.channel + sinkRank sink, by omega, ?_⟩
      exact .takes (s := { s with operator := t.operator }) hleft (Nat.zero_le _) hreceiving
        (noResult_append hnone hmore)
    | succ => simp at hk

theorem takes_delivers (hleft : s.channel ++ s.unsent = file.messagesFrom i)
    (hi : i ≤ totalChunksOf file.bytes.length)
    (hreceiving : Receiving before file path i sink s.operator) (hnone : NoResult es)
    (hstep : s.step w dirPath .delivers = some (t, fs)) :
    fs ≠ [] ∧ ∃ m < weight s.unsent s.channel + sinkRank sink, Stage dirPath before file m t (es ++ fs) := by
  obtain ⟨message, rest, hchannel, ht, hhandles⟩ := download_delivers hstep
  have hweight := weight_delivers message s.unsent rest
  rw [← hchannel] at hweight
  obtain hlt | heq := Nat.lt_or_eq_of_le hi
  · replace hleft := hleft.trans (messagesFrom_lt hlt)
    obtain ⟨rfl, hrest⟩ := List.cons.inj (received_left hchannel hleft)
    rw [receive_chunk hreceiving hlt] at hhandles
    obtain ⟨hnext, rfl⟩ := Prod.mk.inj hhandles
    let next : FileSink String := { sink with pending := sink.pending ++ chunkOf file.bytes i }
    have hchunk : (chunkOf file.bytes i).length ≤ chunkSize := length_take_le _ _
    have hrank : sinkRank next = sinkRank sink + (chunkOf file.bytes i).length := sinkRank_add ..
    have hadded := has_add hreceiving.has (handle_of_busy hreceiving.notDone).1 (chunkOf file.bytes i)
    rw [take_chunkOf] at hadded
    have hlater : Receiving before file path (i + 1) next t.operator := by
      rw [← hnext]
      exact ⟨hreceiving.free, hreceiving.starts, rfl, hreceiving.endings, rfl, hreceiving.part,
        hreceiving.goesOn, hreceiving.notDone, hadded⟩
    refine ⟨cons_ne_nil _ _, weight s.unsent rest + sinkRank next, by omega, ?_⟩
    rw [ht]
    exact .takes (s := { s with channel := rest, operator := t.operator }) hrest.symm hlt hlater
      (noResult_append hnone rfl)
  · subst heq
    replace hleft := hleft.trans (messagesFrom_end _ _ _)
    obtain ⟨rfl, hrest⟩ := List.cons.inj (received_left hchannel hleft)
    obtain ⟨hempty, hunsent⟩ := append_eq_nil_iff.mp hrest.symm
    rw [receive_end hreceiving] at hhandles
    obtain ⟨hnext, rfl⟩ := Prod.mk.inj hhandles
    let next : FileSink String := { sink with closing := true }
    have hrank : sinkRank next = sinkRank sink := rfl
    have hhas := hreceiving.has
    rw [take_totalChunksOf] at hhas
    have hfinishing : Finishing before file path .closing next t.operator := by
      rw [← hnext]
      exact ⟨hreceiving.free, hreceiving.starts, rfl, rfl, rfl, hreceiving.part, rfl,
        (handle_of_busy hreceiving.notDone).2, nofun, hhas⟩
    refine ⟨cons_ne_nil _ _, sinkRank next + waitRank .closing, ?_, ?_⟩
    · unfold waitRank
      dsimp only
      omega
    · rw [ht]
      exact .ends hempty hunsent hfinishing
        (noResult_append hnone rfl)

theorem stage_takes (hrest : before.AtRest) (hleft : s.channel ++ s.unsent = file.messagesFrom i)
    (hi : i ≤ totalChunksOf file.bytes.length) (hreceiving : Receiving before file path i sink s.operator)
    (hnone : NoResult es) (hstep : s.step w dirPath a = some (t, fs)) :
    ∃ m < weight s.unsent s.channel + sinkRank sink, Stage dirPath before file m t (es ++ fs) := by
  cases a with
  | sends =>
    obtain ⟨message, rest, hunsent, rfl, rfl⟩ := download_sends hstep
    rw [hunsent] at hleft ⊢
    rw [append_nil]
    have hsent := (sends_left s.channel rest message).trans hleft
    exact ⟨_, Nat.add_lt_add_right (weight_sends message rest s.channel) _,
      .takes (s := { s with unsent := rest, channel := s.channel ++ [message] }) hsent hi hreceiving hnone⟩
  | delivers => exact (takes_delivers hleft hi hreceiving hnone hstep).2
  | computer c =>
    obtain ⟨ht, hoperates⟩ := download_computes hstep
    have hnoEnd : ∀ k : ℕ, s.operator.endings[k]? = none := by
      intro k
      rw [hreceiving.endings]
      rfl
    obtain ⟨rfl, j, other, next, hmoves⟩ | ⟨k, rfl⟩ | ⟨k, rfl⟩ | ⟨k, rfl⟩ := computer_moves hoperates
    · have hmove := hmoves.moves
      rw [hreceiving.sinks] at hmove
      obtain ⟨rfl, hsinks⟩ := hmove.last hrest.sinks
      have hlater : Receiving before file path i next t.operator :=
        ⟨hreceiving.free, hmoves.starts.trans hreceiving.starts, hmoves.downloads.trans hreceiving.downloads,
          hmoves.endings.trans hreceiving.endings, hsinks, hmove.file.trans hreceiving.part,
          hmove.closing.trans hreceiving.goesOn, hmove.stays hreceiving.goesOn hmoves.notFailed,
          hmove.keeps _ hreceiving.has⟩
      rw [ht, append_nil]
      exact ⟨_, Nat.add_lt_add_left hmove.lower _,
        .takes (s := { s with operator := t.operator }) hleft hi hlater hnone⟩
    · obtain ⟨call, hk, -⟩ := map_eq_some_iff.mp hoperates
      rw [hreceiving.starts] at hk
      simp at hk
    · obtain ⟨ending, hk, -⟩ := bind_eq_some_iff.mp hoperates
      cases (hnoEnd k).symm.trans hk
    · obtain ⟨ending, hk, -⟩ := bind_eq_some_iff.mp hoperates
      cases (hnoEnd k).symm.trans hk

theorem Finishing.unique {ending : EndCall} (h : Finishing before file path wait sink operator)
    (hk : operator.endings[k]? = some ending) :
    k = 0 ∧ ending = file.ending path before.sinks.length wait := by
  rw [h.endings] at hk
  cases k with
  | zero => exact ⟨rfl, (Option.some.inj hk).symm⟩
  | succ => simp at hk

theorem Finishing.sink_at (h : Finishing before file path wait sink operator) :
    operator.sinks[before.sinks.length]? = some sink := by
  rw [h.sinks]
  exact getElem?_last _ _

theorem ending_isWhole (file : HostFile w) (path : String) (sink : ℕ) (wait : EndWait) :
    OperatorDownloads.isWhole w.toOperatorWorld (file.ending path sink wait) = true := by
  have hall : ((file.ending path sink wait).expectedChecksum.all fun checksum => checksum = "" ||
      lowerCase (hexText (w.sha256 (file.ending path sink wait).file.hashed)) = lowerCase checksum) = true := by
    have hhashed : (file.ending path sink wait).file.hashed = file.bytes := take_totalChunksOf file.bytes
    rw [hhashed]
    unfold EndCall.expectedChecksum
    split
    · refine (Bool.or_eq_true ..).mpr (.inr ?_)
      exact decide_eq_true rfl
    · rfl
  have hsize : (((file.ending path sink wait).file.receivedBytes :
    ℤ) = (file.ending path sink wait).file.totalSize) := by
    have hlength := congrArg List.length (take_totalChunksOf file.bytes)
    exact congrArg Int.ofNat hlength
  refine (Bool.and_eq_true ..).mpr ⟨hall, (Bool.or_eq_true ..).mpr (.inr ?_)⟩
  exact decide_eq_true hsize

theorem ends_compares (hchannel : s.channel = []) (hunsent : s.unsent = [])
    (hfinishing : Finishing before file path wait sink s.operator) (hnone : NoResult es)
    (hstep : s.step w dirPath (.computer (.endGoesOn k)) = some (t, fs)) :
    ∃ m < sinkRank sink + waitRank wait, Stage dirPath before file m t (es ++ fs) := by
  obtain ⟨ht, hoperates⟩ := download_computes hstep
  obtain ⟨ending, hk, hoperates⟩ := bind_eq_some_iff.mp hoperates
  obtain ⟨other, hother, hoperates⟩ := bind_eq_some_iff.mp hoperates
  obtain ⟨⟨hwait, hdone⟩, heq⟩ := ite_none_right_eq_some.mp hoperates
  obtain ⟨rfl, rfl⟩ := hfinishing.unique hk
  obtain rfl : wait = .closing := hwait
  cases hfinishing.sink_at.symm.trans hother
  have hclosed : sink.handle = .closed := by
    obtain hclosed | hfailed := (Bool.or_eq_true ..).mp hdone
    · exact of_decide_eq_true hclosed
    · exact absurd (of_decide_eq_true hfailed) hfinishing.notFailed
  have hcompares := Option.some.inj heq
  unfold OperatorDownloads.compare at hcompares
  rw [if_pos ⟨hclosed, ending_isWhole file path before.sinks.length .closing⟩] at hcompares
  obtain ⟨hnext, rfl⟩ := Prod.mk.inj hcompares
  have hends : t.operator.endings = [file.ending path before.sinks.length .renaming] := by
    rw [← hnext, hfinishing.endings]
    rfl
  have hlater : Finishing before file path .renaming sink t.operator := by
    refine ⟨hfinishing.free, ?_, ?_, hends, ?_, hfinishing.part, hfinishing.closing, hfinishing.notFailed,
      fun _ => hclosed, ?_⟩
    · rw [← hnext]
      exact hfinishing.starts
    · rw [← hnext]
      exact hfinishing.downloads
    · rw [← hnext]
      exact hfinishing.sinks
    · rw [← hnext]
      exact hfinishing.has
  rw [ht, append_nil]
  exact ⟨sinkRank sink + waitRank .renaming, by simp [waitRank],
    .ends hchannel hunsent hlater hnone⟩

theorem partPath_ne (path : String) : partPath path ≠ path := by
  intro hsame
  have hlength := congrArg String.length hsame
  unfold partPath at hlength
  rw [String.length_append] at hlength
  have hpart : ".part".length = 5 := rfl
  omega

theorem rename_target (path target : String) (content : List UInt8) :
    ((d.rename path target content).part target).content = some content := by
  unfold Files.rename Files.update
  dsimp only
  rw [Function.update_self]

theorem rename_source {path target : String} (hne : path ≠ target) (content : List UInt8) :
    ((d.rename path target content).part path).content = none := by
  unfold Files.rename Files.update
  dsimp only
  rw [Function.update_of_ne hne, Function.update_self]
  rfl

theorem ends_renames (hrest : before.AtRest) (hchannel : s.channel = []) (hunsent : s.unsent = [])
    (hfinishing : Finishing before file path wait sink s.operator) (hnone : NoResult es)
    (hstep : s.step w dirPath (.computer (.endRenames k)) = some (t, fs)) :
    ∃ m < sinkRank sink + waitRank wait, Stage dirPath before file m t (es ++ fs) := by
  obtain ⟨ht, hoperates⟩ := download_computes hstep
  obtain ⟨ending, hk, hoperates⟩ := bind_eq_some_iff.mp hoperates
  obtain ⟨hwait, heq⟩ := ite_none_right_eq_some.mp hoperates
  obtain ⟨rfl, rfl⟩ := hfinishing.unique hk
  obtain rfl : wait = .renaming := hwait
  have hclosed := hfinishing.closed rfl
  have hcontent : (s.operator.files.part (partPath path)).content = some file.bytes := by
    have hhas := hfinishing.has
    unfold FileSink.Has at hhas
    rw [hclosed, hfinishing.part] at hhas
    exact hhas
  have htarget : (file.ending path before.sinks.length .renaming).file.targetPath = path := rfl
  have hrenames := Option.some.inj heq
  unfold OperatorDownloads.renames at hrenames
  dsimp only at hrenames
  rw [htarget, hcontent] at hrenames
  dsimp only at hrenames
  rw [if_pos rfl] at hrenames
  obtain ⟨hnext, rfl⟩ := Prod.mk.inj hrenames
  have hdone : ∀ other ∈ t.operator.sinks, other.isDone = true := by
    intro other hother
    rw [← hnext] at hother
    replace hother : other ∈ before.sinks ++ [sink] := hfinishing.sinks ▸ hother
    obtain hother | hother := mem_append.mp hother
    · exact hrest.sinks other hother
    · rw [mem_singleton.mp hother]
      exact isDone_of_closed hclosed
  have hatRest : t.operator.AtRest := by
    refine ⟨?_, ?_, ?_, hdone⟩
    · rw [← hnext]
      exact hfinishing.starts
    · rw [← hnext]
      exact hfinishing.downloads
    · rw [← hnext]
      rw [hfinishing.endings]
      rfl
  have hsaved : (t.operator.files.part path).content = some file.bytes := by
    rw [← hnext]
    exact rename_target ..
  have hgone : (t.operator.files.part (partPath path)).content = none := by
    rw [← hnext]
    exact rename_source _ (partPath_ne path) _
  refine ⟨0, by simp [waitRank], ?_⟩
  rw [ht]
  refine .done hchannel hunsent hatRest
    ⟨before.sinks.length, path, hfinishing.free, ?_, hsaved, hgone⟩
  rw [filter_append, hnone]
  rfl

theorem stage_ends (hrest : before.AtRest) (hchannel : s.channel = []) (hunsent : s.unsent = [])
    (hfinishing : Finishing before file path wait sink s.operator) (hnone : NoResult es)
    (hstep : s.step w dirPath a = some (t, fs)) :
    ∃ m < sinkRank sink + waitRank wait, Stage dirPath before file m t (es ++ fs) := by
  cases a with
  | sends => cases (download_emptied hchannel hunsent).1.symm.trans hstep
  | delivers => cases (download_emptied hchannel hunsent).2.symm.trans hstep
  | computer c =>
    obtain ⟨ht, hoperates⟩ := download_computes hstep
    obtain ⟨rfl, j, other, next, hmoves⟩ | ⟨k, rfl⟩ | ⟨k, rfl⟩ | ⟨k, rfl⟩ := computer_moves hoperates
    · have hmove := hmoves.moves
      rw [hfinishing.sinks] at hmove
      obtain ⟨rfl, hsinks⟩ := hmove.last hrest.sinks
      have hclosed : wait = .renaming → next.handle = .closed := by
        intro hrenaming
        cases hmove.busy.symm.trans (isDone_of_closed (hfinishing.closed hrenaming))
      have hlater : Finishing before file path wait next t.operator :=
        ⟨hfinishing.free, hmoves.starts.trans hfinishing.starts, hmoves.downloads.trans hfinishing.downloads,
          hmoves.endings.trans hfinishing.endings, hsinks, hmove.file.trans hfinishing.part,
          hmove.closing.trans hfinishing.closing, hmoves.notFailed, hclosed, hmove.keeps _ hfinishing.has⟩
      rw [ht, append_nil]
      exact ⟨_, Nat.add_lt_add_right hmove.lower _,
        .ends hchannel hunsent hlater hnone⟩
    · obtain ⟨call, hk, -⟩ := map_eq_some_iff.mp hoperates
      rw [hfinishing.starts] at hk
      simp at hk
    · exact ends_compares hchannel hunsent hfinishing hnone hstep
    · exact ends_renames hrest hchannel hunsent hfinishing hnone hstep

theorem stage_step (hrest : before.AtRest) (hstage : Stage dirPath before file n s es) (htimely : timely s a = true)
    (hstep : s.step w dirPath a = some (t, fs)) : ∃ m < n, Stage dirPath before file m t (es ++ fs) := by
  cases hstage with
  | begins hleft hoperator hnone => exact stage_begins hrest hleft hoperator hnone hstep
  | waits hleft hoperator hnone => exact stage_waits hrest hleft hoperator hnone htimely hstep
  | takes hleft hi hreceiving hnone => exact stage_takes hrest hleft hi hreceiving hnone hstep
  | ends hchannel hunsent hfinishing hnone => exact stage_ends hrest hchannel hunsent hfinishing hnone hstep
  | done hchannel hunsent hatRest =>
    exfalso
    cases a with
    | sends => cases (download_emptied hchannel hunsent).1.symm.trans hstep
    | delivers => cases (download_emptied hchannel hunsent).2.symm.trans hstep
    | computer =>
      obtain ⟨-, hoperates⟩ := download_computes hstep
      rw [computer_atRest hatRest] at hoperates
      simp at hoperates

/-! ## The end of a download -/

theorem timely_of_left {left : List Json} (hleft : s.channel ++ s.unsent = message :: left)
    (hstarts : s.operator.starts = []) : ¬((download w dirPath).guarded timely).Stuck s := by
  intro hstuck
  have hsends := hstuck .sends
  have hdelivers := hstuck .delivers
  have htimely : timely s .delivers = true := by
    unfold timely
    rw [hstarts]
    exact Bool.or_true _
  have hsendsNone : s.step w dirPath .sends = none := hsends
  have hdeliversNone : s.step w dirPath .delivers = none := by
    have hguarded : (if timely s .delivers = true then s.step w dirPath .delivers else none) = none := hdelivers
    rwa [if_pos htimely] at hguarded
  unfold DownloadState.step at hsendsNone hdeliversNone
  cases hchannel : s.channel with
  | nil =>
    rw [hchannel, nil_append] at hleft
    rw [hleft] at hsendsNone
    simp at hsendsNone
  | cons =>
    rw [hchannel] at hdeliversNone
    simp [DownloadState.operates, OperatorDownloads.step] at hdeliversNone

theorem finishing_goes_on (w : OperatorWorld) {v : DownloadWorld} {file : HostFile v}
    (h : Finishing before file path wait sink operator) :
    ∃ c : ComputerAction, (operator.step w c.downloadAction).isSome = true := by
  have hends : operator.endings[0]? = some (file.ending path before.sinks.length wait) := by
    rw [h.endings]
    rfl
  cases wait with
  | «renaming» =>
    refine ⟨.endRenames 0, ?_⟩
    show ((operator.endings[0]?).bind _).isSome = true
    rw [hends]
    rfl
  | closing =>
    cases hhandle : sink.handle with
    | opening =>
      refine ⟨.sinkOpens before.sinks.length, ?_⟩
      show ((operator.sinks[before.sinks.length]?).bind _).isSome = true
      rw [h.sink_at, bind_some, if_pos hhandle]
      rfl
    | opened =>
      cases hpending : sink.pending with
      | nil =>
        refine ⟨.sinkCloses before.sinks.length, ?_⟩
        show ((operator.sinks[before.sinks.length]?).bind _).isSome = true
        rw [h.sink_at, bind_some, hhandle]
        rw [if_pos ⟨hpending, h.closing⟩]
        rfl
      | cons =>
        refine ⟨.sinkWrites before.sinks.length 1, ?_⟩
        show ((operator.sinks[before.sinks.length]?).bind _).isSome = true
        rw [h.sink_at, bind_some, hhandle]
        dsimp only
        rw [if_pos ⟨Nat.one_pos, by rw [hpending]; exact Nat.succ_le_succ (Nat.zero_le _)⟩]
        rfl
    | closed =>
      refine ⟨.endGoesOn 0, ?_⟩
      show ((operator.endings[0]?).bind fun ending => (operator.sinks[ending.file.sink]?).bind _).isSome = true
      have hat : operator.sinks[(file.ending path before.sinks.length .closing).file.sink]? = some sink := h.sink_at
      rw [hends, bind_some, hat, bind_some, if_pos ⟨rfl, isDone_of_closed hhandle⟩]
      rfl
    | failed => exact absurd hhandle h.notFailed

theorem not_stuck_of_computer (hsome : (s.operator.step w.toOperatorWorld c.downloadAction).isSome = true) :
    ¬((download w dirPath).guarded timely).Stuck s := by
  intro hstuck
  have hnone : s.step w dirPath (.computer c) = none := hstuck (.computer c)
  rw [map_eq_none_iff.mp hnone] at hsome
  simp at hsome

theorem downloaded_of_stuck (hrest : before.AtRest) (hstage : Stage dirPath before file n s es)
    (hstuck : ((download w dirPath).guarded timely).Stuck s) : Downloaded before file.id file.bytes s es := by
  cases hstage with
  | begins hleft hoperator =>
    have hstarts : s.operator.starts = [] := by
      rw [hoperator]
      exact hrest.starts
    exact absurd hstuck (timely_of_left hleft hstarts)
  | waits _ hoperator =>
    refine absurd hstuck (not_stuck_of_computer (c := .startGoesOn 0) ?_)
    rw [hoperator]
    rfl
  | @takes s es path i sink hleft hi hreceiving hnone =>
    obtain ⟨message, left, hmessages⟩ :=
      exists_cons_of_ne_nil (messagesFrom_ne_nil file.id file.checksum file.bytes i)
    exact absurd hstuck (timely_of_left (hleft.trans hmessages) hreceiving.starts)
  | ends _ _ hfinishing =>
    obtain ⟨c, hsome⟩ := finishing_goes_on w.toOperatorWorld hfinishing
    exact absurd hstuck (not_stuck_of_computer hsome)
  | done _ _ _ hdownloaded => exact hdownloaded

/-! ## What is lost -/

/-- Where all messages have come, no call goes on, and a sink that is not done waits for what is added to it,
nothing more happens. -/
theorem stuck_of_idle (hchannel : s.channel = []) (hunsent : s.unsent = []) (hstarts : s.operator.starts = [])
    (hendings : s.operator.endings = [])
    (hsinks : ∀ sink ∈ s.operator.sinks, sink.closing = false ∧
      sinkRank sink ≤ 1) : (download w dirPath).Stuck s := by
  have hnoEnd : ∀ k : ℕ, s.operator.endings[k]? = none := by
    intro k
    rw [hendings]
    rfl
  intro a
  cases hstep : s.step w dirPath a with
  | none => exact hstep
  | some r =>
    exfalso
    cases a with
    | sends => cases (download_emptied hchannel hunsent).1.symm.trans hstep
    | delivers => cases (download_emptied hchannel hunsent).2.symm.trans hstep
    | computer c =>
      obtain ⟨-, hoperates⟩ := download_computes hstep
      obtain ⟨-, j, sink, next, hmoves⟩ | ⟨k, rfl⟩ | ⟨k, rfl⟩ | ⟨k, rfl⟩ := computer_moves hoperates
      · obtain ⟨hgoesOn, hrank⟩ := hsinks sink (mem_of_getElem? hmoves.moves.found)
        have hlower := hmoves.moves.lower
        have hzero : sinkRank next = 0 := by omega
        unfold sinkRank at hzero
        cases hhandle : next.handle with
        | opening | opened =>
          rw [hhandle] at hzero
          simp at hzero
        | closed => cases (hmoves.moves.closes hhandle).symm.trans hgoesOn
        | failed => exact hmoves.notFailed hhandle
      · obtain ⟨call, hk, -⟩ := map_eq_some_iff.mp hoperates
        rw [hstarts] at hk
        simp at hk
      · obtain ⟨ending, hk, -⟩ := bind_eq_some_iff.mp hoperates
        cases (hnoEnd k).symm.trans hk
      · obtain ⟨ending, hk, -⟩ := bind_eq_some_iff.mp hoperates
        cases (hnoEnd k).symm.trans hk

theorem notLost_iff (hrest : before.AtRest) (hstage : Stage dirPath before file n s es) :
    NotLost w dirPath s es a ↔ timely s a = true := by
  have hother : a ≠ .delivers → (NotLost w dirPath s es a ↔ timely s a = true) := by
    intro hne
    refine iff_of_true (fun hsame => absurd hsame hne) ?_
    cases a with
    | delivers => exact absurd rfl hne
    | _ => rfl
  by_cases hdelivers : a = .delivers
  · subst hdelivers
    have hidle : s.operator.starts = [] → timely s .delivers = true := by
      intro hstarts
      unfold timely
      rw [hstarts]
      exact Bool.or_true _
    cases hstage with
    | begins hleft hoperator =>
      have hstarts : s.operator.starts = [] := by
        rw [hoperator]
        exact hrest.starts
      refine iff_of_true (fun _ message rest hchannel htype => ?_) (hidle hstarts)
      obtain ⟨rfl, -⟩ := List.cons.inj (received_left hchannel hleft)
      cases htype
    | waits hleft hoperator =>
      cases hchannel : s.channel with
      | nil =>
        refine iff_of_true (fun _ message rest hmore => ?_) ?_
        · cases hchannel.symm.trans hmore
        · unfold timely
          rw [hchannel]
          rfl
      | cons message rest =>
        have huntimely : timely s .delivers = false := by
          unfold timely
          rw [hchannel, hoperator]
          rfl
        refine iff_of_false (fun hlost => ?_) (by rw [huntimely]; simp)
        obtain ⟨htype, hhandles⟩ : hasType message ["file_chunk", "file_end"] = true ∧
            s.operator.handleMessage w.toOperatorWorld message dirPath = (s.operator, []) := by
          rw [hoperator]
          obtain hzero | hpos := Nat.eq_zero_or_pos (totalChunksOf file.bytes.length)
          · have hlast := messagesFrom_end file.id file.checksum file.bytes
            rw [hzero] at hlast
            obtain ⟨rfl, -⟩ := List.cons.inj (received_left hchannel (hleft.trans hlast))
            exact ⟨rfl, (receive_lost hrest 0 file.checksum [file.call dirPath]).2⟩
          · obtain ⟨rfl, -⟩ := List.cons.inj (received_left hchannel (hleft.trans (messagesFrom_lt hpos)))
            exact ⟨rfl, (receive_lost hrest 0 file.checksum [file.call dirPath]).1⟩
        exact hlost rfl message rest hchannel htype _ _ (delivers_eq hchannel hhandles) rfl
    | takes hleft hi hreceiving hnone =>
      refine iff_of_true (fun _ message rest hchannel _ t fs hstep => ?_) (hidle hreceiving.starts)
      exact (takes_delivers hleft hi hreceiving hnone hstep).1
    | ends hchannel _ hfinishing =>
      refine iff_of_true (fun _ message rest hmore => ?_) (hidle hfinishing.starts)
      cases hchannel.symm.trans hmore
    | done hchannel _ hatRest =>
      refine iff_of_true (fun _ message rest hmore => ?_) (hidle hatRest.starts)
      cases hchannel.symm.trans hmore
  · exact hother hdelivers

/-! ## The round trip -/

end Steps

/-- A host with a file of one byte and a file of two chunks. -/
def sampleDownload : DownloadWorld where
  doubleText _ := ""
  sha256 bytes := [UInt8.ofNat bytes.length]
  separator := "/"
  hostNow := 1
  allowFileTransfer := true
  content path := if path = "f" then some [7] else if path = "g" then some twoChunks else none
  lastSegment path := path

def sampleHostFile : HostFile sampleDownload := ⟨"f", "a", [7], rfl, by simp, by simp, rfl, by decide⟩

def twoChunkFile : HostFile sampleDownload :=
  ⟨"g", "a", twoChunks, rfl, by simp, by simp, rfl, by rw [length_twoChunks]; decide⟩

/-- A computer without files. -/
def noFiles : Files := ⟨fun _ => ⟨0, none⟩, [], nofun⟩

end LigamentApps.SupportOperator
