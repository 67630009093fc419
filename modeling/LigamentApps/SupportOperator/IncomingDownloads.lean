import LigamentApps.LinkHost.ExactFiles
import LigamentApps.SupportService.FileRoundTrip

/-!
# The files that the operator receives

`_handleIncomingFileStart`, `_handleIncomingFileChunk` and `_handleIncomingFileEnd` of the operator's screen,
which are called one after another but not awaited, with the files of the operator's computer and the sinks
that write them. When the system looks for a directory, opens, writes, closes, renames or deletes a file, and
whether it can, is an input. The progress, the speed, the log and the end of the screen are left out. -/

namespace LigamentApps.SupportOperator

open LinkHost LinkHostRecorder SupportService

/-- The files of a computer, of which there are finitely many. -/
structure Files where
  part : String → PartFile
  paths : List String
  complete : ∀ path, (part path).content.isSome = true → path ∈ paths

namespace Files

variable (d : Files)

/-- What is at a path is changed. -/
def update (path : String) (p : PartFile) : Files where
  part := Function.update d.part path p
  paths := path :: d.paths
  complete other hsome := by
    by_cases hother : other = path
    · exact hother ▸ List.mem_cons_self
    · rw [Function.update_of_ne hother] at hsome
      exact List.mem_cons_of_mem _ (d.complete other hsome)

/-- The paths at which there is a file. -/
def existing : List String := d.paths.filter fun path => (d.part path).content.isSome

/-- `File.rename`. -/
def rename (path target : String) (content : List UInt8) : Files :=
  (d.update path (d.part path).remove).update target ⟨(d.part target).made + 1, some content⟩

/-- `File.delete`, if the file is there and can be deleted. -/
def delete (path : String) (deletes : Bool) : Files :=
  if deletes ∧ (d.part path).content.isSome then d.update path (d.part path).remove else d

end Files

/-- How numbers are printed, the hash, and what stands between the parts of a path. -/
structure OperatorWorld where
  doubleText : ℚ → String
  sha256 : List UInt8 → List UInt8
  separator : String

/-- `resolveNonCollidingFilePath`, of the operator. -/
def OperatorWorld.resolve (w : OperatorWorld) (d : Files) (dirPath filename : String) : Option String :=
  FileHost.resolveNonCollidingFilePath
    { doubleText := w.doubleText, now := 0, sha256 := w.sha256, channelOpen := true, separator := w.separator
      downloadsDir := dirPath, existing := d.existing, writable := fun _ => true } dirPath filename

def partPath (targetPath : String) : String := targetPath ++ ".part"

/-- A call of `_handleIncomingFileStart` that waits for its directory. -/
structure StartCall where
  id : String
  filename : String
  totalSize : ℤ
  totalChunks : ℤ
  checksum : Option String
  /-- The size that the message has, if it has one. -/
  declared : Option ℤ
  dirPath : String

/-- `_OperatorActiveDownload`, with the number of its sink and what its hash was given. -/
structure OperatorDownload where
  id : String
  totalSize : ℤ
  totalChunks : ℤ
  expectedChecksum : Option String
  targetPath : String
  sink : ℕ
  hashed : List UInt8 := []
  receivedBytes : ℕ := 0
  receivedChunks : ℕ := 0

/-- What `_handleIncomingFileEnd` waits for. -/
inductive EndWait
  | closing
  | renaming
  deriving DecidableEq

/-- A call of `_handleIncomingFileEnd`. -/
structure EndCall where
  file : OperatorDownload
  checksum : Option String
  wait : EndWait := .closing

def EndCall.expectedChecksum (ending : EndCall) : Option String :=
  if ending.checksum.any (· ≠ "") then ending.checksum else ending.file.expectedChecksum

/-- The screen as far as it receives files. -/
structure OperatorDownloads where
  starts : List StartCall := []
  /-- `_activeIncomingDownloads`. -/
  downloads : List OperatorDownload := []
  endings : List EndCall := []
  sinks : List (FileSink String) := []
  files : Files

/-- What happens. -/
inductive DownloadAction
  /-- A message comes, while the user has chosen a directory. -/
  | message (input : Json) (dirPath : String)
  /-- The directory is there, or cannot be made. -/
  | startGoesOn (start : ℕ) (ok : Bool)
  | sinkOpens (sink : ℕ) (ok : Bool)
  | sinkWrites (sink count : ℕ) (ok : Bool)
  | sinkCloses (sink : ℕ)
  /-- The sink of a call of `_handleIncomingFileEnd` is closed, or has failed. -/
  | endGoesOn (ending : ℕ) (deletes : Bool)
  /-- Its file is renamed, or is not. -/
  | endRenames (ending : ℕ) (ok deletes : Bool)

/-- What the screen does. A download is known by its sink. -/
inductive DownloadEvent
  /-- A download is made, with what the message says of it. -/
  | starts (sink : ℕ) (id : String) (declared : Option ℤ) (totalChunks : ℤ) (checksum : Option String)
  /-- A chunk is added. -/
  | takes (sink : ℕ) (index : ℤ) (bytes : List UInt8)
  /-- The last message of a download comes. -/
  | ends (sink : ℕ) (checksum : Option String)
  /-- The file is at its path. -/
  | saves (sink : ℕ) (path : String) (content : List UInt8)
  | sends (message : Json)

/-- The state after a part of a step, with its events. -/
abbrev DownloadOutcome := OperatorDownloads × List DownloadEvent

namespace OperatorDownloads

variable (w : OperatorWorld) (s : OperatorDownloads)

variable (input : Json)

/-- `_handleIncomingFileStart`, up to where it waits for the directory; where a cast throws, nothing was
done. -/
def handleFileStart (dirPath : String) : DownloadOutcome :=
  let id := transferId w.doubleText input
  match truncatedOr input "size" 0, truncatedOr input "total_chunks" 1 with
  | some totalSize, some totalChunks =>
    if id = "" ∨ maxFileTransferBytes < totalSize then (s, [])
    else
      let call : StartCall :=
        { id, filename := dartTextOr w.doubleText input "filename" "remote_file", totalSize, totalChunks
          checksum := checksumOf w.doubleText input, declared := (input.getPresent "size").map
            fun _ => totalSize, dirPath }
      ({ s with starts := s.starts ++ [call] }, [])
  | _, _ => (s, [])

/-- The rest of `_handleIncomingFileStart`: a download of the same id is replaced. -/
def register (k : ℕ) (call : StartCall) (ok : Bool) : DownloadOutcome :=
  let t := { s with starts := s.starts.eraseIdx k }
  if ok then
    match w.resolve s.files call.dirPath call.filename with
    | some targetPath =>
      let dl : OperatorDownload :=
        { id := call.id, totalSize := call.totalSize, totalChunks := call.totalChunks, expectedChecksum := call.checksum
          targetPath, sink := s.sinks.length }
      ({ t with
        downloads := s.downloads.filter (·.id ≠ call.id) ++ [dl]
        sinks := s.sinks ++ [{ file := partPath targetPath }] },
        [.starts s.sinks.length call.id call.declared call.totalChunks call.checksum])
    | none => (t, [])
  else (t, [])

/-- A chunk is added to the sink and to the hash. -/
def addChunk (dl : OperatorDownload) (bytes : List UInt8) : OperatorDownloads :=
  let next := { dl with
    receivedBytes := dl.receivedBytes + bytes.length, receivedChunks := dl.receivedChunks + 1
    hashed := dl.hashed ++ bytes }
  { s with
    downloads := s.downloads.map fun other => if other.id = dl.id then next else other
    sinks := s.sinks.modify dl.sink fun k => { k with pending := k.pending ++ bytes } }

/-- `_handleIncomingFileChunk`; what the index says is not looked at. -/
def handleFileChunk : DownloadOutcome :=
  let id := transferId w.doubleText input
  let base64Data := dartTextOr w.doubleText input "data" ""
  match s.downloads.find? (·.id = id) with
  | some dl =>
    if base64Data = "" then (s, [])
    else
      match Base64.decode base64Data with
      | some bytes => (s.addChunk dl bytes, [.takes dl.sink ((truncatedOr input "chunk_index" (-1)).getD (-1)) bytes])
      | none => (s, [])
  | none => (s, [])

/-- `_handleIncomingFileEnd`, up to where it waits for its sink. -/
def handleFileEnd : DownloadOutcome :=
  let id := transferId w.doubleText input
  match s.downloads.find? (·.id = id) with
  | none => (s, [])
  | some dl =>
    let checksum := checksumOf w.doubleText input
    ({ s with
      downloads := s.downloads.filter (·.id ≠ id), endings := s.endings ++ [{ file := dl, checksum }]
      sinks := s.sinks.modify dl.sink fun k => { k with closing := true } }, [.ends dl.sink checksum])

def handleMessage (dirPath : String) : DownloadOutcome :=
  if hasType input ["file_start"] then s.handleFileStart w input dirPath
  else if hasType input ["file_chunk"] then s.handleFileChunk w input
  else if hasType input ["file_end"] then s.handleFileEnd w input
  else (s, [])

/-- The file has the checksum and the size that it is to have. -/
def isWhole (ending : EndCall) : Bool :=
  (ending.expectedChecksum.all fun checksum =>
    checksum = "" || lowerCase (hexText (w.sha256 ending.file.hashed)) = lowerCase checksum) &&
      (ending.file.totalSize ≤ 0 || (ending.file.receivedBytes : ℤ) = ending.file.totalSize)

/-- The part file is deleted, and the answer is no. -/
def refuse (k : ℕ) (ending : EndCall) (deletes : Bool) : DownloadOutcome :=
  ({ s with
    endings := s.endings.eraseIdx k, files := s.files.delete (partPath ending.file.targetPath) deletes },
    [.sends (fileAck ending.file.id false)])

/-- `_handleIncomingFileEnd` after its sink, which has thrown if it has failed. -/
def compare (k : ℕ) (ending : EndCall) (sink : FileSink String) (deletes : Bool) : DownloadOutcome :=
  if sink.handle = .closed ∧ isWhole w ending = true then
    ({ s with endings := s.endings.set k { ending with wait := .renaming } }, [])
  else s.refuse k ending deletes

/-- The part file is renamed, and the answer is yes; or it is not there, or cannot be renamed. -/
def renames (k : ℕ) (ending : EndCall) (ok deletes : Bool) : DownloadOutcome :=
  let path := partPath ending.file.targetPath
  match (s.files.part path).content with
  | some content =>
    if ok then
      ({ s with endings := s.endings.eraseIdx k, files := s.files.rename path ending.file.targetPath content },
        [.saves ending.file.sink ending.file.targetPath content, .sends (fileAck ending.file.id true)])
    else s.refuse k ending deletes
  | none => s.refuse k ending deletes

/-- A sink is replaced, and its file is changed. -/
def withSink (j : ℕ) (sink : FileSink String) (p : PartFile) : OperatorDownloads :=
  { s with sinks := s.sinks.set j sink, files := s.files.update sink.file p }

def failSink (j : ℕ) (sink : FileSink String) : OperatorDownloads :=
  { s with sinks := s.sinks.set j { sink with handle := .failed } }

def step : DownloadAction → Option DownloadOutcome
  | .message input dirPath => some (s.handleMessage w input dirPath)
  | .startGoesOn k ok => (s.starts[k]?).map fun call => s.register w k call ok
  | .sinkOpens j ok => do
    let sink ← s.sinks[j]?
    let p := s.files.part sink.file
    if sink.handle = .opening then
      some (if ok then s.withSink j { sink with handle := .opened p.made 0 } p.truncate else s.failSink j sink, [])
    else none
  | .sinkWrites j count ok => do
    let sink ← s.sinks[j]?
    match sink.handle with
    | .opened made position =>
      if 0 < count ∧ count ≤ sink.pending.length then
        some (if ok then
          s.withSink j { sink with handle := .opened made (position + count), pending := sink.pending.drop count }
            ((s.files.part sink.file).write made position (sink.pending.take count))
          else s.failSink j sink, [])
      else none
    | _ => none
  | .sinkCloses j => do
    let sink ← s.sinks[j]?
    match sink.handle with
    | .opened _ _ =>
      if sink.pending = [] ∧ sink.closing = true then
        some ({ s with sinks := s.sinks.set j { sink with handle := .closed } }, [])
      else none
    | _ => none
  | .endGoesOn k deletes => do
    let ending ← s.endings[k]?
    let sink ← s.sinks[ending.file.sink]?
    if ending.wait = .closing ∧ sink.isDone = true then some (s.compare w k ending sink deletes) else none
  | .endRenames k ok deletes => do
    let ending ← s.endings[k]?
    if ending.wait = .renaming then some (s.renames k ending ok deletes) else none

end OperatorDownloads

/-- The sink that is to do something, and whether it can. -/
def DownloadAction.ofSink : DownloadAction → Option (ℕ × Bool)
  | .sinkOpens j ok | .sinkWrites j _ ok => some (j, ok)
  | .sinkCloses j => some (j, true)
  | _ => none

/-- Where a sink does something, nothing else is done. -/
theorem sinkFile_turns {w : OperatorWorld} {s : OperatorDownloads} {r : DownloadOutcome} {a : DownloadAction} {j : ℕ}
    {ok : Bool} (hsink : a.ofSink = some (j, ok)) (hstep : s.step w a = some r) :
    ∃ sink next later files, r = ({ s with sinks := later, files }, []) ∧
      SinkMoves j sink next s.sinks later s.files.part files.part ∧ (ok = true → next.handle ≠ .failed) := by
  cases a with
  | sinkOpens =>
    cases hsink
    obtain ⟨sink, hj, hstep⟩ := Option.bind_eq_some_iff.mp hstep
    obtain ⟨hopening, heq⟩ := Option.ite_none_right_eq_some.mp hstep
    cases heq
    cases ok with
    | false => exact ⟨sink, _, _, _, rfl, moves_fails hj (isDone_of_opening hopening), nofun⟩
    | true => exact ⟨sink, _, _, _, rfl, moves_opens hj hopening, fun _ => nofun⟩
  | sinkWrites =>
    cases hsink
    obtain ⟨sink, hj, hstep⟩ := Option.bind_eq_some_iff.mp hstep
    split at hstep
    · rename_i hopened
      obtain ⟨⟨hpos, hcount⟩, heq⟩ := Option.ite_none_right_eq_some.mp hstep
      cases heq
      cases ok with
      | false => exact ⟨sink, _, _, _, rfl, moves_fails hj (isDone_of_opened hopened), nofun⟩
      | true => exact ⟨sink, _, _, _, rfl, moves_writes hj hopened hpos hcount, fun _ => nofun⟩
    · cases hstep
  | sinkCloses =>
    cases hsink
    obtain ⟨sink, hj, hstep⟩ := Option.bind_eq_some_iff.mp hstep
    split at hstep
    · rename_i hopened
      obtain ⟨⟨hempty, hclosing⟩, heq⟩ := Option.ite_none_right_eq_some.mp hstep
      cases heq
      exact ⟨sink, _, _, _, rfl, moves_closes hj hopened hempty hclosing, fun _ => nofun⟩
    · cases hstep
  | message | startGoesOn | endGoesOn | endRenames => cases hsink

/-- The receiving of files as a machine. -/
def incomingDownloads (w : OperatorWorld) : Machine OperatorDownloads DownloadAction DownloadEvent :=
  ⟨fun s a => s.step w a⟩

end LigamentApps.SupportOperator
