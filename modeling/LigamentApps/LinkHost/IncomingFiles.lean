import LigamentApps.SupportService.FileTransfer

/-!
# The files that an unattended host receives

`_handleFileStart`, `_handleFileChunk` and `_handleFileEnd` of `LinkHostSession`, with their sinks, the files
that these write, and the timers. A sink opens its file, writes what was added, and closes, one after another
and each as late as the system has it. Whether the system opens, writes, deletes and renames is an input; the
directory to which a file goes, and the log, are left out. -/

namespace LigamentApps.LinkHost

open LinkHostRecorder SupportService

/-- `_maxConcurrentDownloads` of the host. -/
def hostConcurrentDownloads : ℕ := 4

/-- A part file: each file that is made at the path has another number. -/
structure PartFile where
  made : ℕ := 0
  content : Option (List UInt8) := none

/-- Where an `IOSink` is. -/
inductive SinkHandle
  | opening
  /-- It writes to the file with the number, at the position. -/
  | opened (made position : ℕ)
  | closed
  | failed
  deriving DecidableEq

/-- `File.openWrite`. -/
structure FileSink (F : Type) where
  file : F
  handle : SinkHandle := .opening
  pending : List UInt8 := []
  closing : Bool := false

/-- Nothing more comes of the sink. -/
def FileSink.isDone {F : Type} (sink : FileSink F) : Bool := sink.handle = .closed || sink.handle = .failed

/-- The bytes are written at the position. -/
def overwrite (content : List UInt8) (position : ℕ) (bytes : List UInt8) : List UInt8 :=
  content.take position ++ List.replicate (position - content.length) 0 ++ bytes ++
    content.drop (position + bytes.length)

def PartFile.remove (p : PartFile) : PartFile := ⟨p.made + 1, none⟩

/-- The file is opened to be written from its start. -/
def PartFile.truncate (p : PartFile) : PartFile := { p with content := some [] }

/-- What is written to another file than the one at the path is not seen. -/
def PartFile.write (p : PartFile) (made position : ℕ) (bytes : List UInt8) : PartFile :=
  if p.made = made then { p with content := p.content.map (overwrite · position bytes) } else p

/-- `_LinkActiveFileDownload`, with a number that no two of them have, the sink, and what its hash was
given. -/
structure IncomingFile where
  serial : ℕ
  id : String
  filename : String
  totalSize : ℤ
  totalChunks : ℤ
  expectedChecksum : Option String
  sink : Option ℕ
  hashed : List UInt8 := []
  receivedBytes : ℕ := 0
  receivedChunks : ℕ := 0

/-- What `_handleFileEnd` waits for. -/
inductive EndPc
  | closing
  | saving
  deriving DecidableEq

/-- A call of `_handleFileEnd`, with the checksum that counts. -/
structure FileEnding where
  file : IncomingFile
  checksum : Option String
  pc : EndPc := .closing

/-- The session as far as it receives files. -/
structure IncomingFiles (F : Type) where
  downloads : List IncomingFile := []
  endings : List FileEnding := []
  sinks : List (FileSink F) := []
  parts : F → PartFile := fun _ => {}
  /-- How many downloads were made. -/
  started : ℕ := 0
  closed : Bool := false

/-- How numbers are printed, the hash, and the part files of the ids. -/
structure FileWorld (F : Type) where
  doubleText : ℚ → String
  now : ℕ
  sha256 : List UInt8 → List UInt8
  partFile : String → F

/-- What happens. -/
inductive FileAction
  /-- A message comes; `openWrite` throws, and a part file that is to be deleted can be. -/
  | message (input : Json) (throws deletes : Bool)
  /-- The timer of a download fires. -/
  | stalls (id : String) (deletes : Bool)
  | sinkOpens (sink : ℕ) (ok : Bool)
  | sinkWrites (sink count : ℕ) (ok : Bool)
  | sinkCloses (sink : ℕ)
  /-- The sink of a call of `_handleFileEnd` is closed, or has failed. -/
  | endGoesOn (ending : ℕ) (deletes : Bool)
  /-- Its file is renamed. -/
  | endSaves (ending : ℕ) (ok deletes : Bool)
  | sessionCloses

/-- What the session does. -/
inductive TransferEvent
  /-- A download is made for the id, with the size that the message declares. -/
  | starts (serial : ℕ) (id : String) (declared : Option ℤ) (totalChunks : ℤ)
  /-- A chunk is taken. -/
  | takes (serial : ℕ) (index : ℤ) (bytes : List UInt8)
  /-- The file of a download is where it is to be. -/
  | saves (serial : ℕ) (content : List UInt8)
  | sends (message : Json)

/-- The state after a part of a step, with its events. -/
abbrev TransferOutcome (F : Type) := IncomingFiles F × List TransferEvent

namespace IncomingFiles

variable {F : Type} [DecidableEq F] (w : FileWorld F)

variable (s : IncomingFiles F)

def sendControlJson (message : Json) : List TransferEvent :=
  if s.closed then [] else [.sends message]

/-- `sink?.close()`. -/
def closeSink (sink : Option ℕ) : IncomingFiles F :=
  match sink with
  | some j => { s with sinks := s.sinks.modify j fun k => { k with closing := true } }
  | none => s

/-- The part file is deleted, if it is there and can be. -/
def deletePart (file : F) (deletes : Bool) : IncomingFiles F :=
  if deletes ∧ (s.parts file).content.isSome then
    { s with parts := Function.update s.parts file (s.parts file).remove }
  else s

/-- A download is given up. -/
def giveUp (dl : IncomingFile) (deletes : Bool) : TransferOutcome F :=
  (({ s with downloads := s.downloads.filter (·.id ≠ dl.id) }.closeSink dl.sink).deletePart (w.partFile dl.id) deletes,
    s.sendControlJson (fileAck dl.id false))

variable (input : Json)

/-- `_handleFileStart`; where a cast throws, nothing was done. -/
def handleFileStart (throws : Bool) : TransferOutcome F :=
  let id := transferId w.doubleText input
  if id = "" then (s, [])
  else
    match truncatedOr input "size" 0, truncatedOr input "total_chunks" 1 with
    | some size, some totalChunks =>
      if size < 0 ∨ maxFileTransferBytes < size ∨ totalChunks ≤ 0 ∨
        hostConcurrentDownloads ≤ s.downloads.length then (s, s.sendControlJson (fileAck id false))
      else
        let t := s.closeSink ((s.downloads.find? (·.id = id)).bind (·.sink))
        let dl : IncomingFile :=
          { serial := s.started, id, filename := dartTextOr w.doubleText input "filename" ("file_" ++ toString w.now)
            totalSize := size, totalChunks, expectedChecksum := checksumOf w.doubleText input
            sink := if throws then none else some s.sinks.length }
        let sinks := if throws then t.sinks else t.sinks ++ [{ file := w.partFile id }]
        ({ t with downloads := s.downloads.filter (·.id ≠ id) ++ [dl], sinks, started := s.started + 1 },
          [.starts s.started id ((input.getPresent "size").map fun _ => size) totalChunks])
    | _, _ => (s, [])

/-- A chunk is added to the sink and to the hash. -/
def addChunk (dl : IncomingFile) (bytes : List UInt8) : IncomingFiles F :=
  let next := { dl with
    receivedBytes := dl.receivedBytes + bytes.length, receivedChunks := dl.receivedChunks + 1
    hashed := dl.hashed ++ bytes }
  { s with
    downloads := s.downloads.map fun other => if other.id = dl.id then next else other
    sinks := match dl.sink with
      | some j => s.sinks.modify j fun k => { k with pending := k.pending ++ bytes }
      | none => s.sinks }

/-- `_handleFileChunk`; where the cast throws, nothing was done. -/
def handleFileChunk (deletes : Bool) : TransferOutcome F :=
  let id := transferId w.doubleText input
  let base64Data := dartTextOr w.doubleText input "data" ""
  match truncatedOr input "chunk_index" (-1), s.downloads.find? (·.id = id) with
  | some chunkIndex, some dl =>
    if base64Data = "" then (s, [])
    else
      match Base64.decode base64Data with
      | none => s.giveUp w dl deletes
      | some bytes =>
        if chunkIndex < 0 ∨ dl.totalChunks ≤ chunkIndex then (s, [])
        else if maxFileTransferBytes < dl.receivedBytes + bytes.length then s.giveUp w dl deletes
        else (s.addChunk dl bytes, [.takes dl.serial chunkIndex bytes])
  | _, _ => (s, [])

/-- `_handleFileEnd`, up to where it waits for its sink. -/
def handleFileEnd : TransferOutcome F :=
  let id := transferId w.doubleText input
  match s.downloads.find? (·.id = id) with
  | none => (s, [])
  | some dl =>
    let endChecksum := checksumOf w.doubleText input
    let checksum := if endChecksum.any (· ≠ "") then endChecksum else dl.expectedChecksum
    let ending : FileEnding := { file := dl, checksum }
    ({ s with downloads := s.downloads.filter (·.id ≠ id), endings := s.endings ++ [ending] }.closeSink dl.sink, [])

/-- A message of a file that has passed `_isValidInput`. -/
def handleMessage (throws deletes : Bool) : TransferOutcome F :=
  if s.closed then (s, [])
  else if hasType input ["file_start"] && isValidFileStart input then s.handleFileStart w input throws
  else if hasType input ["file_chunk"] && isValidFileChunk input then s.handleFileChunk w input deletes
  else if hasType input ["file_end"] && isText (valueOr input "transfer_id" "id") then s.handleFileEnd w input
  else (s, [])

/-- `_handleFileEnd` after its sink: the checksums are compared. -/
def compare (k : ℕ) (ending : FileEnding) (deletes : Bool) : TransferOutcome F :=
  let computed := ending.file.sink.map fun _ => hexText (w.sha256 ending.file.hashed)
  if ending.checksum.isSome ∧ computed.isSome ∧ ending.checksum ≠ computed then
    ({ s with endings := s.endings.eraseIdx k }.deletePart (w.partFile ending.file.id) deletes,
      s.sendControlJson (fileAck ending.file.id false) ++
        s.sendControlJson (fileReject ending.file.id ending.file.filename "checksum_mismatch"))
  else ({ s with endings := s.endings.set k { ending with pc := .saving } }, [])

/-- The part file is renamed, if it is there, and the answer is sent; or something has thrown. -/
def save (k : ℕ) (ending : FileEnding) (ok deletes : Bool) : TransferOutcome F :=
  let t : IncomingFiles F := { s with endings := s.endings.eraseIdx k }
  let file := w.partFile ending.file.id
  if ok then
    match (s.parts file).content with
    | some content =>
      ({ t with parts := Function.update s.parts file (s.parts file).remove },
        .saves ending.file.serial content :: s.sendControlJson (fileAck ending.file.id true))
    | none => (t, s.sendControlJson (fileAck ending.file.id true))
  else (t.deletePart file deletes, s.sendControlJson (fileAck ending.file.id false))

def withSink (j : ℕ) (sink : FileSink F) : IncomingFiles F :=
  { s with sinks := s.sinks.set j sink }

def sinkOpens (j : ℕ) (sink : FileSink F) (ok : Bool) : IncomingFiles F :=
  if ok then
    { s with parts := Function.update s.parts sink.file (s.parts sink.file).truncate }.withSink j
      { sink with handle := .opened (s.parts sink.file).made 0 }
  else s.withSink j { sink with handle := .failed }

/-- A sink has written some of its bytes. -/
def sinkWrites (j : ℕ) (sink : FileSink F) (made position count : ℕ) (ok : Bool) : IncomingFiles F :=
  if ok then
    { s with
      parts := Function.update s.parts sink.file
        ((s.parts sink.file).write made position (sink.pending.take count)) }.withSink j
      { sink with handle := .opened made (position + count), pending := sink.pending.drop count }
  else s.withSink j { sink with handle := .failed }

def step : FileAction → Option (TransferOutcome F)
  | .message input throws deletes => some (s.handleMessage w input throws deletes)
  | .stalls id deletes => (s.downloads.find? (·.id = id)).map fun dl => s.giveUp w dl deletes
  | .sinkOpens j ok => do
    let sink ← s.sinks[j]?
    if sink.handle = .opening then some (s.sinkOpens j sink ok, []) else none
  | .sinkWrites j count ok => do
    let sink ← s.sinks[j]?
    match sink.handle with
    | .opened made position =>
      if 0 < count ∧ count ≤ sink.pending.length then some (s.sinkWrites j sink made position count ok,
        []) else none
    | _ => none
  | .sinkCloses j => do
    let sink ← s.sinks[j]?
    match sink.handle with
    | .opened _ _ =>
      if sink.pending = [] ∧ sink.closing = true then some (s.withSink j { sink with handle := .closed },
        []) else none
    | _ => none
  | .endGoesOn k deletes => do
    let ending ← s.endings[k]?
    if ending.pc = .closing ∧ ((ending.file.sink.bind (s.sinks[·]?)).all (·.isDone)) = true then
      some (s.compare w k ending deletes)
    else none
  | .endSaves k ok deletes => do
    let ending ← s.endings[k]?
    if ending.pc = .saving then some (s.save w k ending ok deletes) else none
  | .sessionCloses => some ({ s with downloads := [], closed := true }, [])

end IncomingFiles

end LigamentApps.LinkHost
