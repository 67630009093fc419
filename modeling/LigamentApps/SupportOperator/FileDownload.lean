import LigamentApps.SupportOperator.ExactDownloads
import LigamentApps.SupportOperator.FileMessages

/-!
# The download of a file from the host

`_handleFsDownloadStart` of the host's session, its data channel, and the operator that receives the file. The
files of the host, its policy and the clocks are inputs; the session stays open, and the file does not change.
The disk of the operator does what it is asked, each thing as late as it likes. -/

namespace LigamentApps.SupportOperator

open LinkHost LinkHostRecorder SupportService

/-- What the host and the operator are told. -/
structure DownloadWorld extends OperatorWorld where
  /-- `DateTime.now().millisecondsSinceEpoch` of the host. -/
  hostNow : ℕ
  /-- `policy.allowFileTransfer`. -/
  allowFileTransfer : Bool
  /-- What the files of the host contain. -/
  content : String → Option (List UInt8)
  /-- The last segment of the path of a file that is not empty. -/
  lastSegment : String → String

/-- `fs_download_start`, as the operator sends it. -/
def downloadRequest (path id : String) : Json :=
  .obj [("type", .str "fs_download_start"), ("path", .str path), ("transfer_id", .str id)]

def downloadReject (id reason : String) : Json :=
  .obj [("type", .str "file_reject"), ("transfer_id", .str id), ("reason", .str reason)]

/-- The first message, which has no checksum. -/
def downloadStart (id filename : String) (size totalChunks : ℕ) : Json :=
  .obj [("type", .str "file_start"), ("transfer_id", .str id), ("filename", .str filename),
    ("size", .int size), ("total_chunks", .int totalChunks), ("sender", .str "host")]

/-- `raf.read(toRead)` at a position. -/
def readAt (bytes : List UInt8) (sentBytes : ℕ) : List UInt8 :=
  (bytes.drop sentBytes).take (min chunkSize (bytes.length - sentBytes))

/-- The chunks that are read from a position on. -/
def readChunks (bytes : List UInt8) (sentBytes : ℕ) : List (List UInt8) :=
  if sentBytes < bytes.length then
    if readAt bytes sentBytes = [] then []
    else readAt bytes sentBytes :: readChunks bytes (sentBytes + (readAt bytes sentBytes).length)
  else []
termination_by bytes.length - sentBytes
decreasing_by
  rename_i _ hempty
  have hpos : 0 < (readAt bytes sentBytes).length := List.length_pos_iff.mpr hempty
  omega

namespace DownloadWorld

variable (w : DownloadWorld)

/-- The messages of `_handleFsDownloadStart`. -/
def handleFsDownloadStart (input : Json) : List Json :=
  let remotePath := dartTextOr w.doubleText input "remote_path" (dartTextOr w.doubleText input "path" "")
  let transferId := dartTextOr w.doubleText input "transfer_id" ("dl_" ++ toString w.hostNow)
  if remotePath = "" ∨ w.allowFileTransfer = false then [downloadReject transferId "policy_or_invalid_path"]
  else
    match w.content remotePath with
    | none => [downloadReject transferId "not_found"]
    | some bytes =>
      if maxFileTransferBytes < bytes.length then [downloadReject transferId "file_too_large"]
      else
        let chunks := readChunks bytes 0
        downloadStart transferId (w.lastSegment remotePath) bytes.length (totalChunksOf bytes.length) ::
          (chunks.mapIdx (fun index chunk => fileChunk transferId index (Base64.encode chunk)) ++
            [fileEnd transferId (hexText (w.sha256 chunks.flatten))])

end DownloadWorld

/-- A file of the host that the operator may ask for. -/
structure HostFile (w : DownloadWorld) where
  path : String
  id : String
  bytes : List UInt8
  allowed : w.allowFileTransfer = true
  named : path ≠ ""
  identified : id ≠ ""
  found : w.content path = some bytes
  fits : (bytes.length : ℤ) ≤ maxFileTransferBytes

/-- What the computer of the operator does. -/
inductive ComputerAction
  | startGoesOn (start : ℕ)
  | sinkOpens (sink : ℕ)
  | sinkWrites (sink count : ℕ)
  | sinkCloses (sink : ℕ)
  | endGoesOn (ending : ℕ)
  | endRenames (ending : ℕ)

/-- Nothing that it is asked fails. -/
def ComputerAction.downloadAction : ComputerAction → DownloadAction
  | .startGoesOn k => .startGoesOn k true
  | .sinkOpens j => .sinkOpens j true
  | .sinkWrites j count => .sinkWrites j count true
  | .sinkCloses j => .sinkCloses j
  | .endGoesOn k => .endGoesOn k true
  | .endRenames k => .endRenames k true true

/-- The transfer, with what is on its way. -/
structure DownloadState where
  /-- What the host has still to send. -/
  unsent : List Json
  channel : List Json := []
  operator : OperatorDownloads

/-- What happens. -/
inductive TransferAction
  | sends
  /-- The next message comes to the operator. -/
  | delivers
  | computer (a : ComputerAction)

namespace DownloadState

variable (w : DownloadWorld) (dirPath : String) (s : DownloadState)

/-- The operator does something. -/
def operates (channel : List Json) (a : DownloadAction) : Option (DownloadState × List DownloadEvent) :=
  (s.operator.step w.toOperatorWorld a).map fun (operator, fs) => ({ s with channel, operator }, fs)

/-- One step; the files are to come into the directory. -/
def step : TransferAction → Option (DownloadState × List DownloadEvent)
  | .sends =>
    match s.unsent with
    | message :: rest => some ({ s with unsent := rest, channel := s.channel ++ [message] }, [])
    | [] => none
  | .delivers =>
    match s.channel with
    | message :: rest => s.operates w rest (.message message dirPath)
    | [] => none
  | .computer a => s.operates w s.channel a.downloadAction

end DownloadState

def download (w : DownloadWorld) (dirPath : String) : Machine DownloadState TransferAction DownloadEvent :=
  ⟨fun s a => s.step w dirPath a⟩

/-- The host answers to the operator, who asks for a file. -/
def DownloadState.start {w : DownloadWorld} (operator : OperatorDownloads) (file : HostFile w) : DownloadState where
  unsent := w.handleFsDownloadStart (downloadRequest file.path file.id)
  operator := operator

end LigamentApps.SupportOperator
