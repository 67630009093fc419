import LigamentApps.Machine.Completion
import LigamentApps.LinkHost.ExactFiles
import LigamentApps.SupportService.FileRoundTrip

/-!
# The upload of a file to the host

`_sendFileViaDataChannel` of the operator's screen, its data channel, the host that receives the file, and the
answer. The clocks, the hash and the files that are there already are inputs. The disk of the host does what
it is asked, each thing as late as it likes; the timers, the progress and the entries of the logs are left
out. -/

namespace LigamentApps.SupportOperator

open LinkHost LinkHostRecorder SupportService

/-- A file that the operator may send. -/
structure UploadFile where
  filename : String
  bytes : List UInt8
  named : filename ≠ ""
  fits : (bytes.length : ℤ) ≤ maxFileTransferBytes

/-- What the host is told, with the clock of the operator, and the files of the directory. -/
structure UploadWorld (F : Type) extends FileWorld F where
  /-- `DateTime.now().millisecondsSinceEpoch` of the operator. -/
  operatorNow : ℕ
  separator : String
  /-- `Downloads/LigamentSupport` of the user's directory. -/
  downloadsDir : String
  /-- The paths at which there is a file. -/
  existing : List String

/-- What can be seen of an upload. -/
inductive UploadEvent
  /-- The host renames the part file, which has the content, to the path. -/
  | stores (path : String) (content : List UInt8)
  /-- The operator is told that the transfer is completed, or that it has failed. -/
  | reports (ok : Bool)

/-- What the disk of the host does. -/
inductive DiskAction
  | sinkOpens (sink : ℕ)
  | sinkWrites (sink count : ℕ)
  | sinkCloses (sink : ℕ)
  | endGoesOn (ending : ℕ)
  | endSaves (ending : ℕ)

/-- The disk does not fail. -/
def DiskAction.fileAction : DiskAction → FileAction
  | .sinkOpens j => .sinkOpens j true
  | .sinkWrites j count => .sinkWrites j count true
  | .sinkCloses j => .sinkCloses j
  | .endGoesOn k => .endGoesOn k true
  | .endSaves k => .endSaves k true true

/-! ## The sender -/

/-- The first message; a directory is named where there is one. -/
def uploadStart (id filename : String) (size totalChunks : ℕ) (checksum : String)
    (remoteDestDir : Option String) : Json :=
  .obj ([("type", .str "file_start"), ("transfer_id", .str id), ("filename", .str filename), ("size", .int size),
    ("total_chunks", .int totalChunks), ("checksum", .str checksum), ("sender", .str "operator")] ++
      (remoteDestDir.filter (· ≠ "")).toList.map fun dir => ("dest_dir", .str dir))

/-- The messages of the chunks from an index on, and whether the operator has not cancelled the transfer. -/
def uploadChunks (id filename : String) (bytes : List UInt8) (isCancelled : ℕ → Bool) : ℕ → ℕ → List Json × Bool
  | _, 0 => ([], true)
  | i, left + 1 =>
    if isCancelled i then ([fileReject id filename "cancelled_by_operator"], false)
    else
      let rest := uploadChunks id filename bytes isCancelled (i + 1) left
      (fileChunk id i (Base64.encode (chunkOf bytes i)) :: rest.1, rest.2)

namespace UploadWorld

variable {F : Type} (w : UploadWorld F)

def transferId : String := "file_" ++ toString w.operatorNow

/-- The messages of `_sendFileViaDataChannel`, over a channel that stays open. -/
def sendFileViaDataChannel (filename : String) (bytes : List UInt8) (remoteDestDir : Option String)
    (isCancelled : ℕ → Bool) : List Json :=
  if maxFileTransferBytes < bytes.length then []
  else
    let checksum := hexText (w.sha256 bytes)
    let totalChunks := totalChunksOf bytes.length
    let chunks := uploadChunks w.transferId filename bytes isCancelled 0 totalChunks
    uploadStart w.transferId filename bytes.length totalChunks checksum remoteDestDir ::
      (chunks.1 ++ if chunks.2 then [fileEnd w.transferId checksum] else [])

def fileHost : FileHost where
  doubleText := w.doubleText
  now := w.now
  sha256 := w.sha256
  channelOpen := true
  separator := w.separator
  downloadsDir := w.downloadsDir
  existing := w.existing
  writable _ := true

/-- The path of `_handleFileEnd`. -/
def targetPath (targetDirectory : Option String) (filename : String) : Option String :=
  let dirPath := targetDirectory.getD ""
  w.fileHost.resolveNonCollidingFilePath (if dirPath = "" then w.downloadsDir else dirPath) filename

end UploadWorld

/-! ## The two parties -/

/-- The transfer, with what is on its way. -/
structure UploadState (F : Type) where
  /-- What the operator has still to send. -/
  unsent : List Json
  channel : List Json := []
  host : IncomingFiles F
  /-- `targetDirectory` of the download. -/
  targetDirectory : Option String := none
  answers : List Json := []
  /-- What `_currentFileAckCompleter` is completed with. -/
  ack : Option Bool := none
  reported : Option Bool := none

/-- What happens. -/
inductive UploadAction
  | sends
  /-- The next message comes to the host. -/
  | delivers
  | disk (a : DiskAction)
  /-- The next answer comes to the operator. -/
  | answered
  | reports

/-- The messages that are sent among some events. -/
def answersOf (fs : List TransferEvent) : List Json :=
  fs.filterMap fun
    | .sends message => some message
    | _ => none

namespace UploadState

variable {F : Type} [DecidableEq F] (w : UploadWorld F) (s : UploadState F)

/-- A message comes to the host. -/
def deliver (message : Json) (rest : List Json) : UploadState F :=
  let (host, fs) := s.host.handleMessage w.toFileWorld message false true
  { s with
    channel := rest, host, answers := s.answers ++ answersOf fs
    targetDirectory := if s.host.makesDownload message then
      (message.getPresent "dest_dir").map (dartText w.doubleText) else s.targetDirectory }

/-- The file that is stored, with its path. -/
def storesOf (a : DiskAction) (fs : List TransferEvent) : List UploadEvent :=
  match a with
  | .endSaves k => fs.filterMap fun
    | .saves _ content => do
      let ending ← s.host.endings[k]?
      let path ← w.targetPath s.targetDirectory ending.file.filename
      some (.stores path content)
    | _ => none
  | _ => []

/-- An answer comes to the operator. -/
def handleAnswer (message : Json) (rest : List Json) : UploadState F :=
  if dartTextOr w.doubleText message "transfer_id" "" = w.transferId ∧ s.ack = none then
    if hasType message ["file_ack"] then { s with answers := rest, ack := some (flag message "ok") }
    else if hasType message ["file_reject"] then { s with answers := rest, ack := some false }
    else { s with answers := rest }
  else { s with answers := rest }

def step : UploadAction → Option (UploadState F × List UploadEvent)
  | .sends =>
    match s.unsent with
    | message :: rest => some ({ s with unsent := rest, channel := s.channel ++ [message] }, [])
    | [] => none
  | .delivers =>
    match s.channel with
    | message :: rest => some (s.deliver w message rest, [])
    | [] => none
  | .disk a => (s.host.step w.toFileWorld a.fileAction).map fun (host, fs) =>
      ({ s with host, answers := s.answers ++ answersOf fs }, s.storesOf w a fs)
  | .answered =>
    match s.answers with
    | message :: rest => some (s.handleAnswer w message rest, [])
    | [] => none
  | .reports =>
    match s.ack with
    | some ok => if s.unsent = [] ∧ s.reported = none
      then some ({ s with reported := some ok }, [.reports ok]) else none
    | none => none

end UploadState

def upload {F : Type} [DecidableEq F] (w : UploadWorld F) : Machine (UploadState F) UploadAction UploadEvent :=
  ⟨fun s a => s.step w a⟩

/-- The operator sends a file to the host. -/
def UploadState.start {F : Type} (w : UploadWorld F) (host : IncomingFiles F) (file : UploadFile)
    (remoteDestDir : Option String) : UploadState F :=
  { unsent := w.sendFileViaDataChannel file.filename file.bytes remoteDestDir fun _ => false, host }

end LigamentApps.SupportOperator
