import LigamentApps.SupportOperator.FileMessages
import LigamentApps.SupportOperator.FileUpload

/-!
# The round trip of an upload

When the host stores the bytes of a file that the operator sends, and the operator reports it. -/

namespace LigamentApps.SupportOperator

open LinkHost LinkHostRecorder SupportService List Option

variable {F : Type}

variable {ending : FileEnding} {pc : EndPc} {message : Json} {k n : ℕ}

/-! ## What is asked of an upload -/

/-- The host has nothing left to do for an earlier file. -/
structure AtRest (host : IncomingFiles F) : Prop where
  isOpen : host.closed = false
  downloads : host.downloads = []
  endings : host.endings = []
  sinks : ∀ sink ∈ host.sinks, sink.isDone = true

/-- The bytes are stored once, in a new file, and then the transfer is reported to be completed. -/
def Uploaded (w : UploadWorld F) (bytes : List UInt8) (_ : UploadState F) (es : List UploadEvent) : Prop :=
  ∃ path, path ∉ w.existing ∧ es = [.stores path bytes, .reports true]

variable {w : UploadWorld F} {host before : IncomingFiles F} {s t : UploadState F} {es fs : List UploadEvent}
  {file : UploadFile} {dir : Option String} {i : ℕ}

/-! ## The messages -/

def UploadWorld.checksum (w : UploadWorld F) (bytes : List UInt8) : String := hexText (w.sha256 bytes)

def UploadWorld.startMessage (w : UploadWorld F) (file : UploadFile) (dir : Option String) : Json :=
  uploadStart w.transferId file.filename file.bytes.length (totalChunksOf file.bytes.length)
    (w.checksum file.bytes) dir

/-- The messages of the file from a chunk on. -/
abbrev UploadWorld.messagesFrom (w : UploadWorld F) (bytes : List UInt8) (i : ℕ) : List Json :=
  SupportOperator.messagesFrom w.transferId (w.checksum bytes) bytes i

abbrev chunkMessage (w : UploadWorld F) (bytes : List UInt8) (i : ℕ) : Json :=
  fileChunk w.transferId i (Base64.encode (chunkOf bytes i))

/-- The first message without a directory, and with one. -/
def startMembers (w : UploadWorld F) (file : UploadFile) : List (String × Json) :=
  [("type", .str "file_start"), ("transfer_id", .str w.transferId), ("filename", .str file.filename),
    ("size", .int file.bytes.length), ("total_chunks", .int (totalChunksOf file.bytes.length)),
    ("checksum", .str (w.checksum file.bytes)), ("sender", .str "operator")]

theorem startMessage_of (p : Json → Prop) (hplain : p (.obj (startMembers w file)))
    (hdir : ∀ d, p (.obj (startMembers w file ++ [("dest_dir", .str d)]))) : p (w.startMessage file dir) := by
  unfold UploadWorld.startMessage uploadStart
  cases dir.filter (· ≠ "") with
  | none => exact hplain
  | some d => exact hdir d

theorem transferId_ne (w : UploadWorld F) : w.transferId ≠ "" := by
  intro hempty
  have hlength := congrArg String.length hempty
  unfold UploadWorld.transferId at hlength
  rw [String.length_append] at hlength
  simp at hlength

theorem uploadChunks_all (id filename : String) (bytes : List UInt8) : ∀ left i : ℕ,
    uploadChunks id filename bytes (fun _ => false) i left =
      ((List.range' i left).map fun j => fileChunk id j (Base64.encode (chunkOf bytes j)), true)
  | 0, _ => rfl
  | left + 1, i => by
    have hrest := uploadChunks_all id filename bytes left (i + 1)
    simp only [uploadChunks, Bool.false_eq_true, if_false]
    rw [hrest, range'_succ]
    rfl

theorem start_unsent (w : UploadWorld F) (host : IncomingFiles F) (file : UploadFile) (dir : Option String) :
    (UploadState.start w host file dir).unsent = w.startMessage file dir :: w.messagesFrom file.bytes 0 := by
  have hfits := file.fits
  unfold UploadState.start UploadWorld.sendFileViaDataChannel
  dsimp only
  rw [if_neg (by omega), uploadChunks_all]
  rw [if_pos rfl]
  rfl

/-! ## The host while the file comes -/

/-- The download after the first chunks. -/
def downloadOf (w : UploadWorld F) (file : UploadFile) (serial sink i : ℕ) : IncomingFile where
  serial := serial
  id := w.transferId
  filename := file.filename
  totalSize := file.bytes.length
  totalChunks := totalChunksOf file.bytes.length
  expectedChecksum := some (w.checksum file.bytes)
  sink := some sink
  hashed := file.bytes.take (i * chunkSize)
  receivedBytes := (file.bytes.take (i * chunkSize)).length
  receivedChunks := i

/-- The host, which was at rest before, has the first chunks of the file, and its sink has their bytes. -/
structure Taking (w : UploadWorld F) (before : IncomingFiles F) (file : UploadFile) (i : ℕ)
    (sink : FileSink F) (host : IncomingFiles F) : Prop where
  isOpen : host.closed = false
  downloads : host.downloads = [downloadOf w file before.started before.sinks.length i]
  endings : host.endings = []
  sinks : host.sinks = before.sinks ++ [sink]
  part : sink.file = w.partFile w.transferId
  goesOn : sink.closing = false
  notDone : sink.isDone = false
  has : sink.Has host.parts (file.bytes.take (i * chunkSize))

/-- The host has the whole file, and comes to its end. -/
structure Ending (w : UploadWorld F) (before : IncomingFiles F) (file : UploadFile) (pc : EndPc)
    (sink : FileSink F) (host : IncomingFiles F) : Prop where
  isOpen : host.closed = false
  downloads : host.downloads = []
  endings : host.endings = [⟨downloadOf w file before.started before.sinks.length (totalChunksOf file.bytes.length),
    some (w.checksum file.bytes), pc⟩]
  sinks : host.sinks = before.sinks ++ [sink]
  part : sink.file = w.partFile w.transferId
  closing : sink.closing = true
  notFailed : sink.handle ≠ .failed
  closed : pc = .saving → sink.handle = .closed
  has : sink.Has host.parts file.bytes

variable {sink : FileSink F}

theorem isValidFileStart_iff (w : UploadWorld F) (file : UploadFile) (dir : Option String) :
    isValidFileStart (w.startMessage file dir) = true ↔ file.bytes ≠ [] := by
  have hid : valueOr (w.startMessage file dir) "transfer_id" "id" = .str w.transferId :=
    startMessage_of (fun m => valueOr m "transfer_id" "id" = _) rfl fun _ => rfl
  have hname : valueOf (w.startMessage file dir) "filename" = .str file.filename :=
    startMessage_of (fun m => valueOf m "filename" = _) rfl fun _ => rfl
  have hsize : valueOf (w.startMessage file dir) "size" = .int file.bytes.length :=
    startMessage_of (fun m => valueOf m "size" = _) rfl fun _ => rfl
  have hchunks : valueOf (w.startMessage file dir) "total_chunks" = .int (totalChunksOf file.bytes.length) :=
    startMessage_of (fun m => valueOf m "total_chunks" = _) rfl fun _ => rfl
  have hnamed := file.named
  have hfits := file.fits
  have hnumber : isIntWithin 1 65536 (.int (totalChunksOf file.bytes.length)) = true ↔ file.bytes ≠ [] := by
    simp only [isIntWithin, Bool.and_eq_true, decide_eq_true_eq]
    constructor
    · intro hwithin hempty
      rw [hempty] at hwithin
      cases hwithin.1
    · intro hne
      have hpos := totalChunksOf_pos hne
      unfold maxFileTransferBytes at hfits
      unfold totalChunksOf chunkSize at *
      omega
  have hrest : (isText (.str w.transferId) && isText (.str file.filename) &&
      isNullOr (isIntWithin 0 maxFileTransferBytes) (.int file.bytes.length)) = true := by
    simp only [isText, isNullOr, isIntWithin, Bool.and_eq_true, decide_eq_true_eq]
    exact ⟨⟨transferId_ne w, hnamed⟩, by omega, hfits⟩
  unfold isValidFileStart
  rw [hid, hname, hsize, hchunks, hrest, Bool.true_and]
  exact hnumber

section Messages

variable [DecidableEq F]

theorem handleMessage_start (w : UploadWorld F) (dir : Option String) (hrest : AtRest before)
    (hne : file.bytes ≠ []) :
    ∃ declared, before.handleMessage w.toFileWorld (w.startMessage file dir) false true =
        ({ before with
          downloads := [downloadOf w file before.started before.sinks.length 0]
          sinks := before.sinks ++ [{ file := w.partFile w.transferId }], started := before.started + 1 },
        [.starts before.started w.transferId declared (totalChunksOf file.bytes.length)]) := by
  have hvalid := (isValidFileStart_iff w file dir).mpr hne
  have htype : hasType (w.startMessage file dir) ["file_start"] = true :=
    startMessage_of (fun m => hasType m ["file_start"] = true) rfl fun _ => rfl
  have hid : SupportService.transferId w.doubleText (w.startMessage file dir) = w.transferId :=
    startMessage_of (fun m => SupportService.transferId w.doubleText m = _) rfl fun _ => rfl
  have hname : dartTextOr w.doubleText (w.startMessage file dir) "filename"
    ("file_" ++ toString w.now) = file.filename :=
    startMessage_of (fun m => dartTextOr w.doubleText m "filename" _ = _) rfl fun _ => rfl
  have hchecksum : checksumOf w.doubleText (w.startMessage file dir) = some (w.checksum file.bytes) :=
    startMessage_of (fun m => checksumOf w.doubleText m = _) rfl fun _ => rfl
  have hsize : truncatedOr (w.startMessage file dir) "size" 0 = some (file.bytes.length : ℤ) :=
    startMessage_of (fun m => truncatedOr m "size" 0 = _) (congrArg some (Int.tdiv_one _))
      fun _ => congrArg some (Int.tdiv_one _)
  have hchunks : truncatedOr (w.startMessage file dir) "total_chunks" 1 =
    some (totalChunksOf file.bytes.length : ℤ) :=
    startMessage_of (fun m => truncatedOr m "total_chunks" 1 = _) (congrArg some (Int.tdiv_one _))
      fun _ => congrArg some (Int.tdiv_one _)
  have hpos := totalChunksOf_pos hne
  have hfits := file.fits
  have haccepted : ¬((file.bytes.length : ℤ) < 0 ∨ maxFileTransferBytes < (file.bytes.length : ℤ) ∨
      (totalChunksOf file.bytes.length : ℤ) ≤ 0 ∨ hostConcurrentDownloads ≤ before.downloads.length) := by
    rw [hrest.downloads]
    unfold hostConcurrentDownloads
    simp only [length_nil]
    omega
  refine ⟨((w.startMessage file dir).getPresent "size").map fun _ => (file.bytes.length : ℤ), ?_⟩
  have hbranch : before.handleMessage w.toFileWorld (w.startMessage file dir) false true =
      before.handleFileStart w.toFileWorld (w.startMessage file dir) false := by
    unfold IncomingFiles.handleMessage
    rw [hrest.isOpen, htype, hvalid]
    rfl
  rw [hbranch]
  unfold IncomingFiles.handleFileStart
  rw [hid, if_neg (transferId_ne w), hsize, hchunks]
  dsimp only
  rw [if_neg haccepted, hrest.downloads, hname, hchecksum]
  have hnothing : file.bytes.take (0 * chunkSize) = [] := by rw [Nat.zero_mul, take_zero]
  unfold downloadOf
  rw [hnothing]
  rfl

theorem handleMessage_empty (hrest : AtRest before) (hempty : file.bytes = []) :
    before.handleMessage w.toFileWorld (w.startMessage file dir) false true = (before, []) := by
  have hinvalid : isValidFileStart (w.startMessage file dir) = false := by
    refine Bool.eq_false_iff.mpr fun hvalid => ?_
    exact (isValidFileStart_iff w file dir).mp hvalid hempty
  have hother : ∀ type, type ≠ "file_start" → hasType (w.startMessage file dir) [type] = false := by
    intro type hne
    have hvalue : valueOf (w.startMessage file dir) "type" = .str "file_start" :=
      startMessage_of (fun m => valueOf m "type" = _) rfl fun _ => rfl
    rw [hasType_eq hvalue]
    simp [Ne.symm hne]
  unfold IncomingFiles.handleMessage
  rw [hrest.isOpen, hinvalid, hother "file_chunk" (by decide), hother "file_end" (by decide)]
  simp

omit [DecidableEq F] in
theorem isValidFileChunk_chunk {bytes : List UInt8} (hi : i < totalChunksOf bytes.length)
    (hfits : (bytes.length : ℤ) ≤ maxFileTransferBytes) : isValidFileChunk (chunkMessage w bytes i) = true := by
  have hid : valueOr (chunkMessage w bytes i) "transfer_id" "id" = .str w.transferId := rfl
  have hindex : valueOf (chunkMessage w bytes i) "chunk_index" = .int i := rfl
  have hdata : valueOf (chunkMessage w bytes i) "data" = .str (Base64.encode (chunkOf bytes i)) := rfl
  have hlt := lt_of_lt_totalChunksOf hi
  have hbound : (i : ℤ) ≤ 2 ^ 63 - 1 := by
    unfold maxFileTransferBytes at hfits
    unfold chunkSize at hlt
    omega
  unfold isValidFileChunk
  rw [hid, hindex, hdata]
  simp only [isText, isIntWithin, Bool.and_eq_true, decide_eq_true_eq]
  exact ⟨⟨transferId_ne w, by omega, hbound⟩, Base64.encode_ne_empty (chunkOf_ne_nil hi)⟩

theorem handleMessage_chunk (htaking : Taking w before file i sink host)
    (hi : i < totalChunksOf file.bytes.length) :
    host.handleMessage w.toFileWorld (chunkMessage w file.bytes i) false true =
      ({ host with
        downloads := [downloadOf w file before.started before.sinks.length (i + 1)]
        sinks := before.sinks ++ [{ sink with pending := sink.pending ++ chunkOf file.bytes i }] },
      [.takes before.started i (chunkOf file.bytes i)]) := by
  have hvalid : isValidFileChunk (chunkMessage w file.bytes i) = true := isValidFileChunk_chunk hi file.fits
  have hread : SupportService.transferId w.doubleText (chunkMessage w file.bytes i) = w.transferId := rfl
  have hdata : dartTextOr w.doubleText (chunkMessage w file.bytes i) "data" "" = Base64.encode
    (chunkOf file.bytes i) := rfl
  have hindex : truncatedOr (chunkMessage w file.bytes i) "chunk_index" (-1) = some (i : ℤ) :=
    congrArg some (Int.tdiv_one _)
  have hbranch : host.handleMessage w.toFileWorld (chunkMessage w file.bytes i) false true =
      host.handleFileChunk w.toFileWorld (chunkMessage w file.bytes i) true := by
    have htype : hasType (chunkMessage w file.bytes i) ["file_start"] = false := rfl
    have htype' : hasType (chunkMessage w file.bytes i) ["file_chunk"] = true := rfl
    unfold IncomingFiles.handleMessage
    rw [htaking.isOpen, htype, htype', hvalid]
    rfl
  have hfind : host.downloads.find? (·.id = w.transferId) =
      some (downloadOf w file before.started before.sinks.length i) := by
    rw [htaking.downloads]
    exact find?_cons_of_pos (decide_eq_true rfl)
  have hlength := chunkOf_length file.bytes i
  have htaken : (file.bytes.take ((i + 1) * chunkSize)).length ≤ file.bytes.length := length_take_le' ..
  have hfits := file.fits
  have hrange : ¬((i : ℤ) < 0 ∨ (totalChunksOf file.bytes.length : ℤ) ≤ i) := by omega
  rw [hbranch]
  unfold IncomingFiles.handleFileChunk
  dsimp only
  rw [hread, hdata, hindex, hfind]
  dsimp only
  rw [if_neg (Base64.encode_ne_empty (chunkOf_ne_nil hi)), Base64.decode_encode]
  unfold downloadOf
  dsimp only
  rw [if_neg hrange, if_neg (by omega)]
  unfold IncomingFiles.addChunk
  dsimp only
  rw [htaking.downloads, htaking.sinks, modify_last, hlength, take_chunkOf]
  unfold downloadOf
  rw [map_cons, map_nil, if_pos rfl]

theorem handleMessage_end (htaking : Taking w before file (totalChunksOf file.bytes.length) sink host) :
    host.handleMessage w.toFileWorld (fileEnd w.transferId (w.checksum file.bytes)) false true =
      ({ host with
        downloads := []
        endings := [⟨downloadOf w file before.started before.sinks.length (totalChunksOf file.bytes.length),
          some (w.checksum file.bytes), .closing⟩]
        sinks := before.sinks ++ [{ sink with closing := true }] }, []) := by
  have hread : SupportService.transferId w.doubleText
    (fileEnd w.transferId (w.checksum file.bytes)) = w.transferId := rfl
  have hsum : checksumOf w.doubleText (fileEnd w.transferId (w.checksum file.bytes)) = some (w.checksum
    file.bytes) := rfl
  have hvalid : isText (valueOr (fileEnd w.transferId (w.checksum file.bytes)) "transfer_id" "id") = true :=
    decide_eq_true (transferId_ne w)
  have hbranch : host.handleMessage w.toFileWorld (fileEnd w.transferId (w.checksum file.bytes)) false true =
      host.handleFileEnd w.toFileWorld (fileEnd w.transferId (w.checksum file.bytes)) := by
    have hstart : hasType (fileEnd w.transferId (w.checksum file.bytes)) ["file_start"] = false := rfl
    have hchunk : hasType (fileEnd w.transferId (w.checksum file.bytes)) ["file_chunk"] = false := rfl
    have hend : hasType (fileEnd w.transferId (w.checksum file.bytes)) ["file_end"] = true := rfl
    unfold IncomingFiles.handleMessage
    rw [htaking.isOpen, hstart, hchunk, hend, hvalid]
    rfl
  have hfind : host.downloads.find? (·.id = w.transferId) =
      some (downloadOf w file before.started before.sinks.length (totalChunksOf file.bytes.length)) := by
    rw [htaking.downloads]
    exact find?_cons_of_pos (decide_eq_true rfl)
  have hnone : host.downloads.filter (·.id ≠ w.transferId) = [] := by
    rw [htaking.downloads]
    exact filter_eq_nil_iff.mpr fun d hd hid => of_decide_eq_true hid (mem_singleton.mp hd ▸ rfl)
  have hchecksum : (if (some (w.checksum file.bytes)).any (· ≠ "") then some (w.checksum file.bytes)
      else (downloadOf w file before.started before.sinks.length (totalChunksOf file.bytes.length)).expectedChecksum) =
        some (w.checksum file.bytes) := ite_self _
  rw [hbranch]
  unfold IncomingFiles.handleFileEnd
  dsimp only
  rw [hread, hfind]
  dsimp only
  rw [hnone, hsum, hchecksum, htaking.endings]
  unfold IncomingFiles.closeSink downloadOf
  dsimp only
  rw [htaking.sinks, modify_last]
  rfl

theorem handleMessage_end_none (hrest : AtRest before) (checksum : String) :
    before.handleMessage w.toFileWorld (fileEnd w.transferId checksum) false true = (before, []) := by
  have hvalid : isText (valueOr (fileEnd w.transferId checksum) "transfer_id" "id") = true :=
    decide_eq_true (transferId_ne w)
  have hbranch : before.handleMessage w.toFileWorld (fileEnd w.transferId checksum) false true =
      before.handleFileEnd w.toFileWorld (fileEnd w.transferId checksum) := by
    have hstart : hasType (fileEnd w.transferId checksum) ["file_start"] = false := rfl
    have hchunk : hasType (fileEnd w.transferId checksum) ["file_chunk"] = false := rfl
    have hend : hasType (fileEnd w.transferId checksum) ["file_end"] = true := rfl
    unfold IncomingFiles.handleMessage
    rw [hrest.isOpen, hstart, hchunk, hend, hvalid]
    rfl
  rw [hbranch]
  unfold IncomingFiles.handleFileEnd
  rw [hrest.downloads]
  rfl

end Messages

/-! ## The disk -/

section Disk

variable [DecidableEq F] {later : IncomingFiles F} {gs : List TransferEvent} {a : DiskAction}

/-- A sink of the host has done something, and has not failed. -/
structure HostMoves (host later : IncomingFiles F) (j : ℕ) (sink next : FileSink F) : Prop where
  moves : SinkMoves j sink next host.sinks later.sinks host.parts later.parts
  notFailed : next.handle ≠ .failed
  isOpen : later.closed = host.closed
  downloads : later.downloads = host.downloads
  endings : later.endings = host.endings

theorem sink_moves (hstep : host.step w.toFileWorld a.fileAction = some (later, gs)) :
    (gs = [] ∧ (∀ k, a ≠ .endSaves k) ∧ ∃ j sink next, HostMoves host later j sink next) ∨
      (∃ k, a = .endGoesOn k) ∨ ∃ k, a = .endSaves k := by
  cases a with
  | sinkOpens | sinkWrites | sinkCloses =>
    obtain ⟨sink, next, _, _, heq, hmoves, hok⟩ := sink_turns rfl hstep
    cases heq
    exact .inl ⟨rfl, nofun, _, sink, next, hmoves, hok rfl, rfl, rfl, rfl⟩
  | endGoesOn k => exact .inr (.inl ⟨k, rfl⟩)
  | endSaves k => exact .inr (.inr ⟨k, rfl⟩)

theorem disk_atRest (hrest : AtRest host) (w : UploadWorld F) (a : DiskAction) :
    host.step w.toFileWorld a.fileAction = none := by
  have hends : ∀ k : ℕ, host.endings[k]? = none := by
    intro k
    rw [hrest.endings]
    rfl
  cases hstep : host.step w.toFileWorld a.fileAction with
  | none => rfl
  | some r =>
    obtain ⟨-, -, j, sink, next, hmoves⟩ | ⟨k, rfl⟩ | ⟨k, rfl⟩ := sink_moves hstep
    · have hdone := hrest.sinks sink (mem_of_getElem? hmoves.moves.found)
      cases hdone.symm.trans hmoves.moves.busy
    · obtain ⟨ending, hk, -⟩ := bind_eq_some_iff.mp hstep
      cases (hends k).symm.trans hk
    · obtain ⟨ending, hk, -⟩ := bind_eq_some_iff.mp hstep
      cases (hends k).symm.trans hk

end Disk

/-! ## The phases of an upload -/

/-- Nothing has come back to the operator. -/
structure Quiet (s : UploadState F) : Prop where
  answers : s.answers = []
  ack : s.ack = none
  reported : s.reported = none

/-- How much a call of `_handleFileEnd` has still to do. -/
def endRank : EndPc → ℕ
  | .closing => 4
  | .saving => 3

/-- What is known of an upload of a file that is not empty, with what is still to be done. -/
inductive Phase (w : UploadWorld F) (before : IncomingFiles F) (file : UploadFile) (dir : Option String) :
    ℕ → UploadState F → List UploadEvent → Prop
  | begins {s : UploadState F} (hleft : s.channel ++ s.unsent = w.startMessage file dir :: w.messagesFrom file.bytes 0)
      (hhost : s.host = before) (hquiet : Quiet s) : Phase w before file dir (weight s.unsent s.channel) s []
  | takes {s : UploadState F} {i : ℕ} {sink : FileSink F} (hleft : s.channel ++ s.unsent = w.messagesFrom file.bytes i)
      (hi : i ≤ totalChunksOf file.bytes.length) (htaking : Taking w before file i sink s.host) (hquiet : Quiet s) :
      Phase w before file dir (weight s.unsent s.channel + sinkRank sink) s []
  | ends {s : UploadState F} {pc : EndPc} {sink : FileSink F} (hchannel : s.channel = [])
      (hunsent : s.unsent = []) (hending : Ending w before file pc sink s.host) (hquiet : Quiet s) :
      Phase w before file dir (sinkRank sink + endRank pc) s []
  | answers {s : UploadState F} {path : String} (hchannel : s.channel = []) (hunsent : s.unsent = [])
      (hrest : AtRest s.host) (hnew : path ∉ w.existing) (hanswers : s.answers = [fileAck w.transferId true])
      (hack : s.ack = none) (hreported : s.reported = none) :
      Phase w before file dir 2 s [.stores path file.bytes]
  | acked {s : UploadState F} {path : String} (hchannel : s.channel = []) (hunsent : s.unsent = [])
      (hrest : AtRest s.host) (hnew : path ∉ w.existing) (hanswers : s.answers = []) (hack : s.ack = some true)
      (hreported : s.reported = none) : Phase w before file dir 1 s [.stores path file.bytes]
  | done {s : UploadState F} {path : String} (hchannel : s.channel = []) (hunsent : s.unsent = [])
      (hrest : AtRest s.host) (hnew : path ∉ w.existing) (hanswers : s.answers = [])
        (hreported : s.reported = some true) :
      Phase w before file dir 0 s [.stores path file.bytes, .reports true]

theorem delivers_left {rest left : List Json} (h : s.channel = message :: rest)
    (hleft : s.channel ++ s.unsent = left) : left = message :: (rest ++ s.unsent) := by
  rw [← hleft, h]
  rfl

section Steps

variable [DecidableEq F] {a : UploadAction}

theorem step_sends (hstep : s.step w .sends = some (t, fs)) : ∃ message rest, s.unsent = message :: rest ∧
    t = { s with unsent := rest, channel := s.channel ++ [message] } ∧ fs = [] := by
  unfold UploadState.step at hstep
  dsimp only at hstep
  split at hstep
  · rename_i message rest hunsent
    cases hstep
    exact ⟨message, rest, hunsent, rfl, rfl⟩
  · simp at hstep

theorem step_delivers (hstep : s.step w .delivers = some (t, fs)) : ∃ message rest,
    s.channel = message :: rest ∧ t = s.deliver w message rest ∧ fs = [] := by
  unfold UploadState.step at hstep
  dsimp only at hstep
  split at hstep
  · rename_i message rest hchannel
    cases hstep
    exact ⟨message, rest, hchannel, rfl, rfl⟩
  · simp at hstep

theorem step_disk {d : DiskAction} (hstep : s.step w (.disk d) = some (t, fs)) : ∃ host gs,
    s.host.step w.toFileWorld d.fileAction = some (host, gs) ∧
      t = { s with host, answers := s.answers ++ answersOf gs } ∧ fs = s.storesOf w d gs := by
  obtain ⟨⟨host, gs⟩, hhost, heq⟩ := map_eq_some_iff.mp hstep
  cases heq
  exact ⟨host, gs, hhost, rfl, rfl⟩

theorem step_answered (hstep : s.step w .answered = some (t, fs)) : ∃ message rest,
    s.answers = message :: rest ∧ t = s.handleAnswer w message rest ∧ fs = [] := by
  unfold UploadState.step at hstep
  dsimp only at hstep
  split at hstep
  · rename_i message rest hanswers
    cases hstep
    exact ⟨message, rest, hanswers, rfl, rfl⟩
  · simp at hstep

theorem step_reports (hstep : s.step w .reports = some (t, fs)) : ∃ ok, s.ack = some ok ∧ s.unsent = [] ∧
    s.reported = none ∧ t = { s with reported := some ok } ∧ fs = [.reports ok] := by
  unfold UploadState.step at hstep
  dsimp only at hstep
  split at hstep
  · rename_i ok hack
    obtain ⟨⟨hunsent, hreported⟩, heq⟩ := ite_none_right_eq_some.mp hstep
    cases heq
    exact ⟨ok, hack, hunsent, hreported, rfl, rfl⟩
  · simp at hstep

omit [DecidableEq F] in
theorem handleAnswer_ok (hack : s.ack = none) (rest : List Json) :
    s.handleAnswer w (fileAck w.transferId true) rest = { s with answers := rest, ack := some true } := by
  have hid : dartTextOr w.doubleText (fileAck w.transferId true) "transfer_id" "" = w.transferId := rfl
  have htype : hasType (fileAck w.transferId true) ["file_ack"] = true := rfl
  have hok : flag (fileAck w.transferId true) "ok" = true := rfl
  unfold UploadState.handleAnswer
  rw [hid, if_pos ⟨rfl, hack⟩, htype, if_pos rfl, hok]

theorem step_emptied (hchannel : s.channel = []) (hunsent : s.unsent = []) :
    s.step w .sends = none ∧ s.step w .delivers = none := by
  unfold UploadState.step
  rw [hchannel, hunsent]
  exact ⟨rfl, rfl⟩

theorem Quiet.silent (h : Quiet s) : s.step w .answered = none ∧ s.step w .reports = none := by
  unfold UploadState.step
  rw [h.answers, h.ack]
  exact ⟨rfl, rfl⟩

theorem begins_step (hrest : AtRest before) (hne : file.bytes ≠ [])
    (hleft : s.channel ++ s.unsent = w.startMessage file dir :: w.messagesFrom file.bytes 0)
    (hhost : s.host = before) (hquiet : Quiet s) (hstep : s.step w a = some (t, fs)) :
    ∃ m < weight s.unsent s.channel, Phase w before file dir m t ([] ++ fs) := by
  cases a with
  | sends =>
    obtain ⟨message, rest, hunsent, rfl, rfl⟩ := step_sends hstep
    rw [hunsent] at hleft ⊢
    have hsent := (sends_left s.channel rest message).trans hleft
    exact ⟨_, weight_sends message rest s.channel,
      .begins (s := { s with unsent := rest, channel := s.channel ++ [message] }) hsent hhost
        ⟨hquiet.answers, hquiet.ack, hquiet.reported⟩⟩
  | delivers =>
    obtain ⟨message, rest, hchannel, rfl, rfl⟩ := step_delivers hstep
    obtain ⟨rfl, hrestLeft⟩ := List.cons.inj (delivers_left hchannel hleft)
    obtain ⟨declared, hhandles⟩ := handleMessage_start w dir hrest hne
    have hweight := weight_delivers (w.startMessage file dir) s.unsent rest
    rw [← hhost] at hhandles
    rw [hchannel, ← hweight]
    refine ⟨weight s.unsent rest + 2, by omega, ?_⟩
    let first : FileSink F := { file := w.partFile w.transferId }
    have htaking : Taking w before file 0 first (s.deliver w (w.startMessage file dir) rest).host := by
      show Taking w before file 0 _ (s.host.handleMessage w.toFileWorld (w.startMessage file dir) false true).1
      rw [hhandles, hhost]
      have hnothing : file.bytes.take (0 * chunkSize) = [] := by rw [Nat.zero_mul, take_zero]
      refine ⟨hrest.isOpen, rfl, hrest.endings, rfl, rfl, rfl, rfl, ?_⟩
      rw [hnothing]
      rfl
    have hstill : Quiet (s.deliver w (w.startMessage file dir) rest) := by
      refine ⟨?_, hquiet.ack, hquiet.reported⟩
      show s.answers ++ answersOf (s.host.handleMessage w.toFileWorld (w.startMessage file dir) false true).2 = []
      rw [hhandles, hquiet.answers]
      rfl
    exact .takes hrestLeft.symm (Nat.zero_le _) htaking hstill
  | disk =>
    obtain ⟨host, gs, hhost', -⟩ := step_disk hstep
    rw [hhost, disk_atRest hrest] at hhost'
    simp at hhost'
  | answered => cases hquiet.silent.1.symm.trans hstep
  | reports => cases hquiet.silent.2.symm.trans hstep

theorem Quiet.deliver (hquiet : Quiet s) (message : Json) (rest : List Json)
    (hsilent : answersOf (s.host.handleMessage w.toFileWorld message false true).2 = []) :
    Quiet (s.deliver w message rest) := by
  refine ⟨?_, hquiet.ack, hquiet.reported⟩
  show s.answers ++ answersOf (s.host.handleMessage w.toFileWorld message false true).2 = []
  rw [hsilent, hquiet.answers]
  rfl

theorem takes_deliver (hleft : s.channel ++ s.unsent = w.messagesFrom file.bytes i)
    (hi : i ≤ totalChunksOf file.bytes.length) (htaking : Taking w before file i sink s.host)
    (hquiet : Quiet s) {rest : List Json} (hchannel : s.channel = message :: rest) :
    ∃ m < weight s.unsent s.channel + sinkRank sink, Phase w before file dir m (s.deliver w message rest) [] := by
  have hweight := weight_delivers message s.unsent rest
  rw [← hchannel] at hweight
  obtain hlt | heq := Nat.lt_or_eq_of_le hi
  · replace hleft := hleft.trans (messagesFrom_lt hlt)
    obtain ⟨rfl, hrest⟩ := List.cons.inj (delivers_left hchannel hleft)
    have hhandles := handleMessage_chunk htaking hlt
    let next : FileSink F := { sink with pending := sink.pending ++ chunkOf file.bytes i }
    have hchunk : (chunkOf file.bytes i).length ≤ chunkSize := length_take_le _ _
    have hrank : sinkRank next = sinkRank sink + (chunkOf file.bytes i).length := sinkRank_add ..
    refine ⟨weight s.unsent rest + sinkRank next, by omega, ?_⟩
    refine .takes hrest.symm hlt ?_ (hquiet.deliver _ rest ?_)
    · show Taking w before file (i + 1) next (s.host.handleMessage w.toFileWorld _ false true).1
      rw [hhandles]
      refine ⟨htaking.isOpen, rfl, htaking.endings, rfl, htaking.part, htaking.goesOn, htaking.notDone, ?_⟩
      have hadded := has_add htaking.has (handle_of_busy htaking.notDone).1 (chunkOf file.bytes i)
      rw [take_chunkOf] at hadded
      exact hadded
    · rw [hhandles]
      rfl
  · subst heq
    replace hleft := hleft.trans (messagesFrom_end _ _ _)
    obtain ⟨rfl, hrest⟩ := List.cons.inj (delivers_left hchannel hleft)
    obtain ⟨hnone, hunsent⟩ := append_eq_nil_iff.mp hrest.symm
    have hhandles := handleMessage_end htaking
    let next : FileSink F := { sink with closing := true }
    have hrank : sinkRank next = sinkRank sink := rfl
    refine ⟨sinkRank next + endRank .closing, ?_, ?_⟩
    · unfold endRank
      dsimp only
      omega
    · have hending : Ending w before file .closing next
        (s.deliver w (fileEnd w.transferId (w.checksum file.bytes)) rest).host := by
        show Ending w before file .closing next (s.host.handleMessage w.toFileWorld _ false true).1
        rw [hhandles]
        have hhas := htaking.has
        rw [take_totalChunksOf] at hhas
        exact ⟨htaking.isOpen, rfl, rfl, rfl, htaking.part, rfl, (handle_of_busy htaking.notDone).2, nofun, hhas⟩
      refine .ends hnone hunsent hending (hquiet.deliver _ rest ?_)
      rw [hhandles]
      rfl

theorem takes_step (hrest : AtRest before) (hleft : s.channel ++ s.unsent = w.messagesFrom file.bytes i)
    (hi : i ≤ totalChunksOf file.bytes.length) (htaking : Taking w before file i sink s.host)
    (hquiet : Quiet s) (hstep : s.step w a = some (t, fs)) :
    ∃ m < weight s.unsent s.channel + sinkRank sink, Phase w before file dir m t ([] ++ fs) := by
  cases a with
  | sends =>
    obtain ⟨message, rest, hunsent, rfl, rfl⟩ := step_sends hstep
    rw [hunsent] at hleft ⊢
    have hsent := (sends_left s.channel rest message).trans hleft
    have hweight := weight_sends message rest s.channel
    exact ⟨_, Nat.add_lt_add_right hweight _,
      .takes (s := { s with unsent := rest, channel := s.channel ++ [message] }) hsent hi htaking
        ⟨hquiet.answers, hquiet.ack, hquiet.reported⟩⟩
  | delivers =>
    obtain ⟨message, rest, hchannel, rfl, rfl⟩ := step_delivers hstep
    exact takes_deliver hleft hi htaking hquiet hchannel
  | disk d =>
    obtain ⟨host, gs, hhost, rfl, rfl⟩ := step_disk hstep
    have hnoEnd : ∀ k : ℕ, s.host.endings[k]? = none := by
      intro k
      rw [htaking.endings]
      rfl
    obtain ⟨rfl, hsaves, j, other, next, hmoves⟩ | ⟨k, rfl⟩ | ⟨k, rfl⟩ := sink_moves hhost
    · have hstores : s.storesOf w d [] = [] := by
        cases d <;> rfl
      have hmove := hmoves.moves
      rw [htaking.sinks] at hmove
      obtain ⟨rfl, hsinks⟩ := hmove.last hrest.sinks
      have hlater : Taking w before file i next host := by
        exact ⟨hmoves.isOpen.trans htaking.isOpen, hmoves.downloads.trans htaking.downloads,
          hmoves.endings.trans htaking.endings, hsinks, hmove.file.trans htaking.part,
          hmove.closing.trans htaking.goesOn, hmove.stays htaking.goesOn hmoves.notFailed,
          hmove.keeps _ htaking.has⟩
      have hstill : Quiet { s with host, answers := s.answers ++ answersOf [] } :=
        ⟨(append_nil _).trans hquiet.answers, hquiet.ack, hquiet.reported⟩
      rw [hstores]
      exact ⟨_, Nat.add_lt_add_left hmove.lower _,
        .takes (s := { s with host, answers := s.answers ++ answersOf [] }) hleft hi hlater hstill⟩
    · obtain ⟨ending, hk, -⟩ := bind_eq_some_iff.mp hhost
      cases (hnoEnd k).symm.trans hk
    · obtain ⟨ending, hk, -⟩ := bind_eq_some_iff.mp hhost
      cases (hnoEnd k).symm.trans hk
  | answered => cases hquiet.silent.1.symm.trans hstep
  | reports => cases hquiet.silent.2.symm.trans hstep

omit [DecidableEq F] in
theorem targetPath_new (w : UploadWorld F) (targetDirectory : Option String) (filename : String) :
    ∃ path, w.targetPath targetDirectory filename = some path ∧ path ∉ w.existing :=
  exists_resolved w.fileHost _ filename

theorem compare_whole (k : ℕ)
    (hfile : ending.file = downloadOf w file before.started before.sinks.length (totalChunksOf file.bytes.length))
    (hchecksum : ending.checksum = some (w.checksum file.bytes)) :
    host.compare w.toFileWorld k ending true =
      ({ host with endings := host.endings.set k { ending with pc := .saving } }, []) := by
  have hcomputed : (ending.file.sink.map fun _ => hexText (w.sha256 ending.file.hashed)) =
      some (w.checksum file.bytes) := by
    rw [hfile]
    unfold downloadOf UploadWorld.checksum
    rw [take_totalChunksOf]
    rfl
  unfold IncomingFiles.compare
  rw [hcomputed, hchecksum, if_neg (by simp)]

omit [DecidableEq F] in
theorem Ending.unique (h : Ending w before file pc sink host) (hk : host.endings[k]? = some ending) : k = 0 ∧
      ending = ⟨downloadOf w file before.started before.sinks.length (totalChunksOf file.bytes.length),
        some (w.checksum file.bytes), pc⟩ := by
  rw [h.endings] at hk
  cases k with
  | zero => exact ⟨rfl, (Option.some.inj hk).symm⟩
  | succ => simp at hk

theorem ends_compare {gs : List TransferEvent} (hchannel : s.channel = []) (hunsent : s.unsent = [])
    (hending : Ending w before file pc sink s.host) (hquiet : Quiet s)
    (hk : s.host.endings[k]? = some ending) (hpc : ending.pc = .closing)
    (hdone : (ending.file.sink.bind (s.host.sinks[·]?)).all (·.isDone) = true)
    (hcompare : s.host.compare w.toFileWorld k ending true = (host, gs)) :
    ∃ m < sinkRank sink + endRank pc, Phase w before file dir m
      { s with host, answers := s.answers ++ answersOf gs } ([] ++ s.storesOf w (.endGoesOn k) gs) := by
  obtain ⟨rfl, rfl⟩ := hending.unique hk
  obtain rfl : pc = .closing := hpc
  rw [compare_whole 0 rfl rfl] at hcompare
  cases hcompare
  have hclosed : sink.handle = .closed := by
    have hat : s.host.sinks[before.sinks.length]? = some sink := by
      rw [hending.sinks]
      exact getElem?_last _ _
    have hall : (s.host.sinks[before.sinks.length]?).all (·.isDone) = true := hdone
    rw [hat] at hall
    obtain hclosed | hfailed := (Bool.or_eq_true ..).mp (show sink.isDone = true from hall)
    · exact of_decide_eq_true hclosed
    · exact absurd (of_decide_eq_true hfailed) hending.notFailed
  have hends : s.host.endings.set 0 ⟨downloadOf w file before.started before.sinks.length
      (totalChunksOf file.bytes.length), some (w.checksum file.bytes), .saving⟩ = [⟨downloadOf w file before.started
        before.sinks.length (totalChunksOf file.bytes.length), some (w.checksum file.bytes), .saving⟩] := by
    rw [hending.endings]
    rfl
  rw [hends]
  have hstill : s.answers ++ answersOf [] = [] := (append_nil _).trans hquiet.answers
  have hsaving : Ending w before file .saving sink { s.host with
      endings := [⟨downloadOf w file before.started before.sinks.length (totalChunksOf file.bytes.length),
        some (w.checksum file.bytes), .saving⟩] } :=
    ⟨hending.isOpen, hending.downloads, rfl, hending.sinks, hending.part, hending.closing, hending.notFailed,
      fun _ => hclosed, hending.has⟩
  exact ⟨sinkRank sink + endRank .saving, by simp [endRank],
    .ends hchannel hunsent hsaving ⟨hstill, hquiet.ack, hquiet.reported⟩⟩

theorem ends_save {gs : List TransferEvent} (hrest : AtRest before) (hchannel : s.channel = [])
    (hunsent : s.unsent = []) (hending : Ending w before file pc sink s.host) (hquiet : Quiet s)
    (hk : s.host.endings[k]? = some ending) (hpc : ending.pc = .saving)
    (hsave : s.host.save w.toFileWorld k ending true true = (host, gs)) :
    ∃ m < sinkRank sink + endRank pc, Phase w before file dir m
      { s with host, answers := s.answers ++ answersOf gs } ([] ++ s.storesOf w (.endSaves k) gs) := by
  obtain ⟨rfl, hthis⟩ := hending.unique hk
  obtain rfl : pc = .saving := by rw [← hpc, hthis]
  have hclosed := hending.closed rfl
  have hid : ending.file.id = w.transferId := by
    rw [hthis]
    rfl
  have hcontent : (s.host.parts (w.partFile ending.file.id)).content = some file.bytes := by
    have hhas := hending.has
    unfold FileSink.Has at hhas
    rw [hclosed, hending.part] at hhas
    rw [hid]
    exact hhas
  have hsends : s.host.sendControlJson (fileAck ending.file.id true) = [.sends (fileAck w.transferId true)] := by
    unfold IncomingFiles.sendControlJson
    rw [hending.isOpen, hid]
    rfl
  unfold IncomingFiles.save at hsave
  rw [if_pos rfl, hcontent, hsends] at hsave
  cases hsave
  obtain ⟨path, hpath, hnew⟩ := targetPath_new w s.targetDirectory ending.file.filename
  have hstores : s.storesOf w (.endSaves 0) [.saves ending.file.serial file.bytes,
    .sends (fileAck w.transferId true)] =
      [.stores path file.bytes] := by
    unfold UploadState.storesOf
    simp only [filterMap_cons, filterMap_nil]
    rw [hk]
    simp [hpath]
  have hdone : ∀ other ∈ s.host.sinks, other.isDone = true := by
    intro other hother
    rw [hending.sinks] at hother
    obtain hother | hother := mem_append.mp hother
    · exact hrest.sinks other hother
    · rw [mem_singleton.mp hother]
      exact isDone_of_closed hclosed
  have hnoEnd : s.host.endings.eraseIdx 0 = [] := by
    rw [hending.endings]
    rfl
  rw [hstores]
  refine ⟨2, by simp [endRank], ?_⟩
  refine .answers hchannel hunsent
    ⟨hending.isOpen, hending.downloads, hnoEnd, hdone⟩ hnew ?_ hquiet.ack hquiet.reported
  rw [hquiet.answers]
  rfl

theorem ends_step (hrest : AtRest before) (hchannel : s.channel = []) (hunsent : s.unsent = [])
    (hending : Ending w before file pc sink s.host) (hquiet : Quiet s) (hstep : s.step w a = some (t, fs)) :
    ∃ m < sinkRank sink + endRank pc, Phase w before file dir m t ([] ++ fs) := by
  cases a with
  | sends => cases (step_emptied hchannel hunsent).1.symm.trans hstep
  | delivers => cases (step_emptied hchannel hunsent).2.symm.trans hstep
  | disk d =>
    obtain ⟨host, gs, hhost, rfl, rfl⟩ := step_disk hstep
    obtain ⟨rfl, hsaves, j, other, next, hmoves⟩ | ⟨k, rfl⟩ | ⟨k, rfl⟩ := sink_moves hhost
    · have hstores : s.storesOf w d [] = [] := by
        cases d <;> rfl
      have hmove := hmoves.moves
      rw [hending.sinks] at hmove
      obtain ⟨rfl, hsinks⟩ := hmove.last hrest.sinks
      have hlater : Ending w before file pc next host := by
        have hclosed : pc = .saving → next.handle = .closed := by
          intro hsaving
          cases hmove.busy.symm.trans (isDone_of_closed (hending.closed hsaving))
        exact ⟨hmoves.isOpen.trans hending.isOpen, hmoves.downloads.trans hending.downloads,
          hmoves.endings.trans hending.endings, hsinks, hmove.file.trans hending.part,
          hmove.closing.trans hending.closing, hmoves.notFailed, hclosed, hmove.keeps _ hending.has⟩
      have hstill : Quiet { s with host, answers := s.answers ++ answersOf [] } :=
        ⟨(append_nil _).trans hquiet.answers, hquiet.ack, hquiet.reported⟩
      rw [hstores]
      exact ⟨_, Nat.add_lt_add_right hmove.lower _,
        .ends hchannel hunsent hlater hstill⟩
    · obtain ⟨ending, hk, hhost⟩ := bind_eq_some_iff.mp hhost
      obtain ⟨⟨hpc, hdone⟩, heq⟩ := ite_none_right_eq_some.mp hhost
      exact ends_compare hchannel hunsent hending hquiet hk hpc hdone (Option.some.inj heq)
    · obtain ⟨ending, hk, hhost⟩ := bind_eq_some_iff.mp hhost
      obtain ⟨hpc, heq⟩ := ite_none_right_eq_some.mp hhost
      exact ends_save hrest hchannel hunsent hending hquiet hk hpc (Option.some.inj heq)
  | answered => cases hquiet.silent.1.symm.trans hstep
  | reports => cases hquiet.silent.2.symm.trans hstep

theorem stored_step {path : String} (hchannel : s.channel = []) (hunsent : s.unsent = [])
    (hrest : AtRest s.host) (hnew : path ∉ w.existing) (hreported : s.reported = none)
    (hanswer : s.answers = [fileAck w.transferId true] ∧ s.ack = none ∧ n = 2 ∨ s.answers = [] ∧
      s.ack = some true ∧ n = 1)
    (hstep : s.step w a = some (t, fs)) :
    ∃ m < n, Phase w before file dir m t ([.stores path file.bytes] ++ fs) := by
  cases a with
  | sends => cases (step_emptied hchannel hunsent).1.symm.trans hstep
  | delivers => cases (step_emptied hchannel hunsent).2.symm.trans hstep
  | disk =>
    obtain ⟨host, gs, hhost, -⟩ := step_disk hstep
    rw [disk_atRest hrest] at hhost
    simp at hhost
  | answered =>
    obtain ⟨message, rest, hmore, rfl, rfl⟩ := step_answered hstep
    obtain ⟨hanswers, hack, rfl⟩ | ⟨hanswers, -⟩ := hanswer
    · obtain ⟨rfl, rfl⟩ := List.cons.inj (hanswers.symm.trans hmore)
      rw [handleAnswer_ok hack]
      exact ⟨1, Nat.lt_succ_self 1, .acked hchannel hunsent hrest hnew
        rfl rfl hreported⟩
    · cases hanswers.symm.trans hmore
  | reports =>
    obtain ⟨ok, hgiven, -, -, rfl, rfl⟩ := step_reports hstep
    obtain ⟨-, hack, -⟩ | ⟨hanswers, hack, rfl⟩ := hanswer
    · cases hack.symm.trans hgiven
    · cases hack.symm.trans hgiven
      exact ⟨0, Nat.lt_succ_self 0, .done hchannel hunsent hrest hnew hanswers
        rfl⟩

theorem phase_step (hrest : AtRest before) (hne : file.bytes ≠ [])
    (hphase : Phase w before file dir n s es) (hstep : s.step w a = some (t, fs)) :
    ∃ m < n, Phase w before file dir m t (es ++ fs) := by
  cases hphase with
  | begins hleft hhost hquiet => exact begins_step hrest hne hleft hhost hquiet hstep
  | takes hleft hi htaking hquiet => exact takes_step hrest hleft hi htaking hquiet hstep
  | ends hchannel hunsent hending hquiet => exact ends_step hrest hchannel hunsent hending hquiet hstep
  | answers hchannel hunsent hstored hnew hanswers hack hreported =>
    exact stored_step hchannel hunsent hstored hnew hreported (.inl ⟨hanswers, hack, rfl⟩) hstep
  | acked hchannel hunsent hstored hnew hanswers hack hreported =>
    exact stored_step hchannel hunsent hstored hnew hreported (.inr ⟨hanswers, hack, rfl⟩) hstep
  | done hchannel hunsent hstored _ hanswers hreported =>
    exfalso
    cases a with
    | sends => cases (step_emptied hchannel hunsent).1.symm.trans hstep
    | delivers => cases (step_emptied hchannel hunsent).2.symm.trans hstep
    | disk =>
      obtain ⟨host, gs, hhost, -⟩ := step_disk hstep
      rw [disk_atRest hstored] at hhost
      simp at hhost
    | answered =>
      obtain ⟨message, rest, hmore, -⟩ := step_answered hstep
      cases hanswers.symm.trans hmore
    | reports =>
      obtain ⟨ok, -, -, hnone, -⟩ := step_reports hstep
      cases hreported.symm.trans hnone

/-! ## The end of an upload -/

theorem goes_on_of_left {left : List Json} (hleft : s.channel ++ s.unsent = message :: left) :
    ¬(upload w).Stuck s := by
  intro hstuck
  have hsends : s.step w .sends = none := hstuck .sends
  have hdelivers : s.step w .delivers = none := hstuck .delivers
  unfold UploadState.step at hsends hdelivers
  cases hchannel : s.channel with
  | nil =>
    rw [hchannel, nil_append] at hleft
    rw [hleft] at hsends
    simp at hsends
  | cons =>
    rw [hchannel] at hdelivers
    simp at hdelivers

theorem ending_goes_on (h : Ending w before file pc sink host) :
    ∃ a : DiskAction, (host.step w.toFileWorld a.fileAction).isSome = true := by
  have hat : host.sinks[before.sinks.length]? = some sink := by
    rw [h.sinks]
    exact getElem?_last _ _
  have hends : host.endings[0]? = some ⟨downloadOf w file before.started before.sinks.length
      (totalChunksOf file.bytes.length), some (w.checksum file.bytes), pc⟩ := by
    rw [h.endings]
    rfl
  cases pc with
  | saving =>
    refine ⟨.endSaves 0, ?_⟩
    show ((host.endings[0]?).bind _).isSome = true
    rw [hends]
    rfl
  | closing =>
    cases hhandle : sink.handle with
    | opening =>
      refine ⟨.sinkOpens before.sinks.length, ?_⟩
      show ((host.sinks[before.sinks.length]?).bind _).isSome = true
      rw [hat, bind_some, if_pos hhandle]
      rfl
    | opened =>
      cases hpending : sink.pending with
      | nil =>
        refine ⟨.sinkCloses before.sinks.length, ?_⟩
        show ((host.sinks[before.sinks.length]?).bind _).isSome = true
        rw [hat, bind_some, hhandle]
        rw [if_pos ⟨hpending, h.closing⟩]
        rfl
      | cons =>
        refine ⟨.sinkWrites before.sinks.length 1, ?_⟩
        show ((host.sinks[before.sinks.length]?).bind _).isSome = true
        rw [hat, bind_some, hhandle]
        dsimp only
        rw [if_pos ⟨Nat.one_pos, by rw [hpending]; exact Nat.succ_le_succ (Nat.zero_le _)⟩]
        rfl
    | closed =>
      refine ⟨.endGoesOn 0, ?_⟩
      show ((host.endings[0]?).bind _).isSome = true
      have hdone : (host.sinks[before.sinks.length]?).all (·.isDone) = true := by
        rw [hat, all_some]
        exact isDone_of_closed hhandle
      rw [hends, bind_some, if_pos ⟨rfl, hdone⟩]
      rfl
    | failed => exact absurd hhandle h.notFailed

theorem uploaded_of_stuck (hphase : Phase w before file dir n s es) (hstuck : (upload w).Stuck s) :
    Uploaded w file.bytes s es := by
  cases hphase with
  | begins hleft => exact absurd hstuck (goes_on_of_left hleft)
  | @takes s i sink hleft hi htaking hquiet =>
    obtain ⟨message, left, hmessages⟩ := exists_cons_of_ne_nil
      (messagesFrom_ne_nil w.transferId (w.checksum file.bytes) file.bytes i)
    exact absurd hstuck (goes_on_of_left (hleft.trans hmessages))
  | ends _ _ hending =>
    obtain ⟨d, hsome⟩ := ending_goes_on hending
    have hnone : s.step w (.disk d) = none := hstuck (.disk d)
    rw [map_eq_none_iff.mp hnone] at hsome
    simp at hsome
  | answers _ _ _ _ hanswers =>
    have hnone : s.step w .answered = none := hstuck .answered
    unfold UploadState.step at hnone
    rw [hanswers] at hnone
    simp at hnone
  | acked _ hunsent _ _ _ hack hreported =>
    have hnone : s.step w .reports = none := hstuck .reports
    unfold UploadState.step at hnone
    rw [hack] at hnone
    dsimp only at hnone
    rw [if_pos ⟨hunsent, hreported⟩] at hnone
    simp at hnone
  | @done s path hchannel hunsent hstored hnew hanswers hreported => exact ⟨path, hnew, rfl⟩

/-! ## The round trip -/

theorem empty_path (w : UploadWorld F) (dir : Option String) (hrest : AtRest before)
    (hempty : file.bytes = []) : ∃ t, (upload w).Path
    (UploadState.start w before file dir) [.sends, .delivers, .sends, .delivers] t [] ∧ (upload w).Stuck t := by
  have hzero : totalChunksOf file.bytes.length = 0 := by
    rw [hempty]
    rfl
  have hunsent : (UploadState.start w before file dir).unsent =
      [w.startMessage file dir, fileEnd w.transferId (w.checksum file.bytes)] := by
    have hlast := messagesFrom_end w.transferId (w.checksum file.bytes) file.bytes
    rw [hzero] at hlast
    rw [start_unsent]
    exact congrArg (w.startMessage file dir :: ·) hlast
  let empty : UploadState F := { unsent := [], host := before }
  have hno : before.makesDownload (w.startMessage file dir) = false := by
    have hinvalid : isValidFileStart (w.startMessage file dir) = false := by
      refine Bool.eq_false_iff.mpr fun hvalid => ?_
      exact (isValidFileStart_iff w file dir).mp hvalid hempty
    unfold IncomingFiles.makesDownload
    rw [hinvalid, Bool.and_false, Bool.false_and]
  have hno' : before.makesDownload (fileEnd w.transferId (w.checksum file.bytes)) = false := by
    have htype : hasType (fileEnd w.transferId (w.checksum file.bytes)) ["file_start"] = false := rfl
    unfold IncomingFiles.makesDownload
    rw [htype, Bool.and_false, Bool.false_and, Bool.false_and]
  have hfirst : ({ empty with unsent := [fileEnd w.transferId (w.checksum file.bytes)] } : UploadState F).deliver w
      (w.startMessage file dir) [] = { empty with unsent := [fileEnd w.transferId (w.checksum file.bytes)] } := by
    unfold UploadState.deliver
    rw [handleMessage_empty hrest hempty, hno]
    rfl
  have hsecond : empty.deliver w (fileEnd w.transferId (w.checksum file.bytes)) [] = empty := by
    unfold UploadState.deliver
    rw [handleMessage_end_none hrest, hno']
    rfl
  have hstart : (upload w).step (UploadState.start w before file dir) .sends = some
      ({ empty with
        unsent := [fileEnd w.transferId (w.checksum file.bytes)], channel := [w.startMessage file dir] }, []) := by
    show UploadState.step w _ .sends = _
    unfold UploadState.step
    rw [hunsent]
    rfl
  have hdropped : (upload w).step { empty with
      unsent := [fileEnd w.transferId (w.checksum file.bytes)]
      channel := [w.startMessage file dir] } .delivers = some
      ({ empty with unsent := [fileEnd w.transferId (w.checksum file.bytes)] }, []) :=
    congrArg (fun u => some (u, [])) hfirst
  have hignored : (upload w).step { empty with channel := [fileEnd w.transferId (w.checksum file.bytes)] } .delivers =
      some (empty, []) := congrArg (fun u => some (u, [])) hsecond
  have hsent : (upload w).step { empty with unsent := [fileEnd w.transferId (w.checksum file.bytes)] } .sends = some
      ({ empty with channel := [fileEnd w.transferId (w.checksum file.bytes)] }, []) := rfl
  refine ⟨empty, ?_, ?_⟩
  · exact .cons hstart (.cons hdropped (.cons hsent (.cons hignored (.nil empty))))
  · intro a
    cases a with
    | disk d =>
      show (before.step w.toFileWorld d.fileAction).map _ = none
      rw [disk_atRest hrest]
      rfl
    | _ => rfl

/-- A host at rest stores a file of at most 1 GiB in a new file, byte by byte, in whichever order the channel
and the disk do their steps, and the operator reports that the transfer is completed, if and only if the file
is not empty. -/
theorem upload_completes_iff (w : UploadWorld F) (before : IncomingFiles F) (file : UploadFile)
    (dir : Option String) (hrest : AtRest before) : (upload w).Leads (Uploaded w file.bytes)
      (UploadState.start w before file dir) [] ↔ file.bytes ≠ [] := by
  constructor
  · intro hleads hempty
    obtain ⟨t, hpath, hstuck⟩ := empty_path w dir hrest hempty
    obtain ⟨path, -, hevents⟩ := hleads.goal hpath hstuck
    simp at hevents
  · intro hne
    have hleft : (UploadState.start w before file dir).channel ++ (UploadState.start w before file dir).unsent =
        w.startMessage file dir :: w.messagesFrom file.bytes 0 := start_unsent w before file dir
    refine Machine.Leads.of_rank (Phase w before file dir) (fun n s es a t fs hphase hstep => ?_)
      (fun n s es hphase hstuck => uploaded_of_stuck hphase hstuck) _ _ _ (.begins hleft rfl ⟨rfl, rfl, rfl⟩)
    exact phase_step hrest hne hphase hstep

end Steps

/-- An operator and a host whose clocks have just started. -/
def sampleUpload : UploadWorld String where
  doubleText _ := ""
  now := 1
  sha256 bytes := [UInt8.ofNat bytes.length]
  partFile id := id
  operatorNow := 1
  separator := "/"
  downloadsDir := "d"
  existing := []

theorem twoChunkUpload_named : "a.txt" ≠ "" := by decide

theorem twoChunkUpload_fits : (twoChunks.length : ℤ) ≤ maxFileTransferBytes := by
  rw [length_twoChunks]
  decide

def twoChunkUpload : UploadFile := ⟨"a.txt", twoChunks, twoChunkUpload_named, twoChunkUpload_fits⟩

theorem upload_completes_sample : totalChunksOf twoChunks.length = 2 ∧
    (upload sampleUpload).Leads (Uploaded sampleUpload twoChunks)
      (UploadState.start sampleUpload {} twoChunkUpload none) [] :=
  ⟨by rw [length_twoChunks]; rfl, (upload_completes_iff sampleUpload {} twoChunkUpload none
    ⟨rfl, rfl, rfl, nofun⟩).mpr (ne_nil_of_length_eq_add_one length_twoChunks)⟩

/-- The empty file is not stored, and not reported to be completed. -/
theorem empty_upload_fails : ¬∀ (w : UploadWorld String) (file : UploadFile),
    (upload w).Leads (Uploaded w file.bytes) (UploadState.start w {} file none) [] := by
  intro hclaim
  let empty : UploadFile := ⟨"a.txt", [], by simp, by decide⟩
  have hempty : empty.bytes = [] := rfl
  have hrest : AtRest ({} : IncomingFiles String) := ⟨rfl, rfl, rfl, nofun⟩
  obtain ⟨t, hpath, hstuck⟩ := empty_path sampleUpload none hrest hempty
  obtain ⟨path, -, hevents⟩ := (hclaim sampleUpload empty).goal hpath hstuck
  simp at hevents

end LigamentApps.SupportOperator
