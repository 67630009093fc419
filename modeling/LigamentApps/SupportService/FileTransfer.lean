import LigamentApps.SupportService.RemoteInput
import LigamentApps.Text.Base64

/-!
# The file transfer of the support service

`sendFile`, the handlers of `file_start`, `file_chunk` and `file_end`, `assembleFileChunks` and
`_saveReceivedFile` of `support_service.dart`. The clock, the hash and the file system are inputs. The timers,
the progress of the sender and the entries of the chat that tell the size of a file are left out. -/

namespace LigamentApps.SupportService

open LinkHost LinkHostRecorder

def maxConcurrentDownloads : ℕ := 2

/-- The size of a chunk of `sendFile`. -/
def chunkSize : ℕ := 32768

/-- The clock, the hash, the data channel and the file system. -/
structure FileHost where
  doubleText : ℚ → String
  /-- `DateTime.now().millisecondsSinceEpoch`. -/
  now : ℕ
  /-- The bytes of `sha256.convert`. -/
  sha256 : List UInt8 → List UInt8
  channelOpen : Bool
  separator : String
  downloadsDir : String
  /-- The paths of the directory at which there is a file. -/
  existing : List String
  /-- The file can be written at the path and renamed. -/
  writable : String → Bool

/-- What the service does. -/
inductive FileEvent
  /-- The message is sent. -/
  | sends (message : Json)
  /-- There is a file at the path, and it is in the list. -/
  | saves (path : String) (bytes : List UInt8)
  /-- `_addSystemMessage`. -/
  | systemMessage (text : String)

structure ActiveFileDownload where
  id : String
  filename : String
  totalSize : ℤ
  totalChunks : ℤ
  expectedChecksum : Option String
  chunks : ℤ → Option (List UInt8) := fun _ => none
  receivedBytes : ℕ := 0

abbrev ActiveDownloads := List ActiveFileDownload

/-- The downloads after a part of a handler, with what it did. -/
abbrev FileOutcome := ActiveDownloads × List FileEvent

def hexDigits : List Char := ['0', '1', '2', '3', '4', '5', '6', '7', '8', '9', 'a', 'b', 'c', 'd', 'e', 'f']

/-- The two digits of a byte. -/
def hexByte (b : UInt8) : List Char :=
  [hexDigits.getD (b.toNat / 16) '0', hexDigits.getD (b.toNat % 16) '0']

/-- `toString` of a digest. -/
def hexText (bytes : List UInt8) : String := .ofList (bytes.flatMap hexByte)

/-- `toLowerCase`, of the letters that a checksum may have. -/
def lowerCase (s : String) : String := .ofList (s.toList.map Char.toLower)

def fileStart (id filename : String) (size totalChunks : ℕ) (checksum : String) : Json :=
  .obj [("type", .str "file_start"), ("transfer_id", .str id), ("filename", .str filename), ("size", .int size),
    ("total_chunks", .int totalChunks), ("checksum", .str checksum), ("sender", .str "user")]

def fileChunk (id : String) (index : ℕ) (data : String) : Json :=
  .obj [("type", .str "file_chunk"), ("transfer_id", .str id), ("chunk_index", .int index), ("data", .str data)]

def fileEnd (id checksum : String) : Json :=
  .obj [("type", .str "file_end"), ("transfer_id", .str id), ("checksum", .str checksum)]

def fileAck (id : String) (ok : Bool) : Json :=
  .obj [("type", .str "file_ack"), ("transfer_id", .str id), ("ok", .bool ok)]

def fileReject (id filename reason : String) : Json :=
  .obj [("type", .str "file_reject"), ("transfer_id", .str id), ("filename", .str filename),
    ("reason", .str reason)]

/-- `input['transfer_id']?.toString() ?? input['id']?.toString() ?? ''`. -/
def transferId (doubleText : ℚ → String) (input : Json) : String :=
  dartTextOr doubleText input "transfer_id" (dartTextOr doubleText input "id" "")

/-- `input['checksum']?.toString()`. -/
def checksumOf (doubleText : ℚ → String) (input : Json) : Option String :=
  (input.getPresent "checksum").map (dartText doubleText)

def chunkOf (bytes : List UInt8) (i : ℕ) : List UInt8 := (bytes.drop (i * chunkSize)).take chunkSize

/-- `(totalSize / chunkSize).ceil()`. -/
def totalChunksOf (size : ℕ) : ℕ := (size + (chunkSize - 1)) / chunkSize

/-- The messages of the chunks from an index on; the callback tells whether the user has cancelled. -/
def sendChunks (id filename : String) (bytes : List UInt8) (isCancelled : ℕ → Bool) :
    ℕ → ℕ → List FileEvent × Bool
  | _, 0 => ([], true)
  | i, left + 1 =>
    if isCancelled i then
      ([.sends (fileReject id filename "cancelled_by_sender"),
        .systemMessage ("⚠ Передача файла \"" ++ filename ++ "\" отменена")], false)
    else
      let rest := sendChunks id filename bytes isCancelled (i + 1) left
      (.sends (fileChunk id i (Base64.encode (chunkOf bytes i))) :: rest.1, rest.2)

/-- `sendFile`, of a file that exists, over a channel that stays as it is. -/
def FileHost.sendFile (h : FileHost) (filename : String) (bytes : List UInt8) (isCancelled : ℕ → Bool) :
    List FileEvent :=
  if maxFileTransferBytes < bytes.length then
    [.systemMessage ("⚠ Файл не отправлен: превышен лимит размера 1 ГБ (" ++ filename ++ ")")]
  else if !h.channelOpen then
    [.systemMessage ("⚠ Файл не отправлен: нет открытого соединения с инженером (" ++ filename ++ ")")]
  else
    let id := "file_" ++ toString h.now
    let checksum := hexText (h.sha256 bytes)
    let chunks := sendChunks id filename bytes isCancelled 0 (totalChunksOf bytes.length)
    .sends (fileStart id filename bytes.length (totalChunksOf bytes.length) checksum) ::
      (chunks.1 ++ if chunks.2 then [.sends (fileEnd id checksum)] else [])

def assembleFileChunks (sha256 : List UInt8 → List UInt8) (chunks : ℤ → Option (List UInt8)) (totalChunks : ℤ)
    (expectedSize : Option ℤ) (expectedChecksum : Option String) : Except String (List UInt8) :=
  if totalChunks ≤ 0 then .error "incomplete"
  else if (List.range totalChunks.toNat).any (fun i : ℕ => (chunks i).isNone) then .error "incomplete"
  else
    let bytes := (List.range totalChunks.toNat).flatMap fun i : ℕ => (chunks i).getD []
    if expectedSize.any (fun size => 0 < size ∧ (bytes.length : ℤ) ≠ size) then .error "size_mismatch"
    else if expectedChecksum.any (fun checksum => checksum ≠ "" ∧ hexText (sha256 bytes) ≠ lowerCase checksum) then
      .error "checksum_mismatch"
    else .ok bytes

/-- A character that no name of a file may have. -/
def isReserved (c : Char) : Bool := ['\\', '/', ':', '*', '?', '"', '<', '>', '|'].contains c

def safeName (filename : String) : String :=
  .ofList (filename.toList.map fun c => if isReserved c then '_' else c)

/-- The name before the last dot, and the rest; a dot at the start is none. -/
def splitName (name : String) : String × String :=
  let ext := name.toList.reverse.takeWhile (· ≠ '.')
  if ext.length + 1 < name.toList.length then
    (.ofList (name.toList.take (name.toList.length - ext.length - 1)),
      .ofList (name.toList.drop (name.toList.length - ext.length - 1)))
  else (name, "")

namespace FileHost

variable (h : FileHost)

/-- `_sendSignalOrData` of a message of a file, whose error is caught. -/
def sendMessage (message : Json) : List FileEvent := if h.channelOpen then [.sends message] else []

def numbered (dirPath filename : String) (index : ℕ) : String :=
  let split := splitName (safeName filename)
  dirPath ++ h.separator ++ split.1 ++ " (" ++ toString index ++ ")" ++ split.2

/-- The loop of `resolveNonCollidingFilePath`, in as many rounds as the fuel. -/
def numberedFree (dirPath filename : String) : ℕ → ℕ → Option String
  | 0, _ => none
  | fuel + 1, index =>
    if h.existing.contains (h.numbered dirPath filename index) then numberedFree dirPath filename fuel (index + 1)
    else some (h.numbered dirPath filename index)

def resolveNonCollidingFilePath (dirPath filename : String) : Option String :=
  let directPath := dirPath ++ h.separator ++ safeName filename
  if h.existing.contains directPath then h.numberedFree dirPath filename (h.existing.length + 1) 1
  else some directPath

def saveReceivedFile (dl : ActiveFileDownload) (bytes : List UInt8) : List FileEvent :=
  match h.resolveNonCollidingFilePath h.downloadsDir dl.filename with
  | none => []
  | some targetPath =>
    if h.writable targetPath then .saves targetPath bytes :: h.sendMessage (fileAck dl.id true)
    else h.sendMessage (fileAck dl.id false)

variable (s : ActiveDownloads)

variable (input : Json)

/-- `_handleFileStart`; where a cast throws, nothing was done. -/
def handleFileStart : FileOutcome :=
  let id := transferId h.doubleText input
  if id = "" then (s, [])
  else
    match truncatedOr input "size" 0, truncatedOr input "total_chunks" 1 with
    | some size, some totalChunks =>
      if size < 0 ∨ maxFileTransferBytes < size then (s, [])
      else if totalChunks ≤ 0 then (s, [])
      else if maxConcurrentDownloads ≤ s.length then (s, [])
      else
        let dl : ActiveFileDownload :=
          { id, filename := dartTextOr h.doubleText input "filename" ("file_" ++ toString h.now), totalSize := size
            totalChunks, expectedChecksum := checksumOf h.doubleText input }
        (s.filter (·.id ≠ id) ++ [dl], [])
    | _, _ => (s, [])

/-- A chunk that cannot be decoded. -/
def brokenChunk (dl : ActiveFileDownload) : FileOutcome :=
  (s.filter (·.id ≠ dl.id),
    h.sendMessage (fileReject dl.id dl.filename "поврежденные данные при передаче") ++
      [.systemMessage ("⚠ Файл \"" ++ dl.filename ++ "\" не получен: поврежденные данные при передаче")])

/-- `_handleFileChunk`; where the cast throws, nothing was done. -/
def handleFileChunk : FileOutcome :=
  let id := transferId h.doubleText input
  let base64Data := dartTextOr h.doubleText input "data" ""
  match truncatedOr input "chunk_index" 0, s.find? (·.id = id) with
  | some chunkIndex, some dl =>
    if base64Data = "" then (s, [])
    else
      match Base64.decode base64Data with
      | none => h.brokenChunk s dl
      | some bytes =>
        if chunkIndex < 0 ∨ dl.totalChunks ≤ chunkIndex then (s, [])
        else
          let receivedBytes := dl.receivedBytes + if (dl.chunks chunkIndex).isSome then 0 else bytes.length
          if maxFileTransferBytes < receivedBytes then (s.filter (·.id ≠ id), [])
          else
            let next := { dl with receivedBytes, chunks := Function.update dl.chunks chunkIndex (some bytes) }
            (s.map fun other => if other.id = id then next else other, [])
  | _, _ => (s, [])

/-- The reason of a file that was not assembled. -/
def reasonOf (error : String) : String :=
  if error = "incomplete" then "передача неполная (не все чанки дошли)"
  else if error = "size_mismatch" then "несовпадение размера файла"
  else if error = "checksum_mismatch" then "несовпадение контрольной суммы"
  else error

def handleFileEnd : FileOutcome :=
  let id := transferId h.doubleText input
  match s.find? (·.id = id) with
  | none => (s, [])
  | some dl =>
    let endChecksum := checksumOf h.doubleText input
    let checksum := if endChecksum.any (· ≠ "") then endChecksum else dl.expectedChecksum
    let expectedSize := if 0 < dl.totalSize then some dl.totalSize else none
    match assembleFileChunks h.sha256 dl.chunks dl.totalChunks expectedSize checksum with
    | .ok bytes => (s.filter (·.id ≠ id), h.saveReceivedFile dl bytes)
    | .error error =>
      (s.filter (·.id ≠ id),
        .systemMessage ("⚠ Файл \"" ++ dl.filename ++ "\" не сохранен: " ++ reasonOf error) ::
          (h.sendMessage (fileAck id false) ++ h.sendMessage (fileReject id dl.filename (reasonOf error))))

/-- What `handleRemoteInput` does with a message of a file once its gates, also the one of `view_only`, let it
pass. -/
def handleFileMessage : FileOutcome :=
  let type := inputType h.doubleText input
  if type = some "file_start" then h.handleFileStart s input
  else if type = some "file_chunk" then h.handleFileChunk s input
  else if type = some "file_end" then h.handleFileEnd s input
  else if type = some "file_reject" then
    (s, [.systemMessage ("⚠ Файл \"" ++ dartTextOr h.doubleText input "filename" "файл" ++ "\" не доставлен: " ++
      dartTextOr h.doubleText input "reason" "передача не удалась")])
  else (s, [])

/-- The receiver is given what the sender sends. -/
def feed (s : ActiveDownloads) : List FileEvent → FileOutcome
  | [] => (s, [])
  | .sends message :: rest =>
    let r := h.handleFileMessage s message
    let after := feed r.1 rest
    (after.1, r.2 ++ after.2)
  | _ :: rest => feed s rest

end FileHost

end LigamentApps.SupportService
