import Mathlib.Algebra.Ring.Int.Defs
import Mathlib.Algebra.Ring.Nat
import LigamentApps.Machine.Trace

/-!
# The update manager

`UpdateManager` of `update_manager.go`: its status, and the calls of `StageUpdate` and `ApplyUpdate`, each of
which the broker has a goroutine of its own make. A step is what a call does up to the next point at which the
others may go on. What the network and the file system answer are inputs. An installer is a script of its own,
which waits before `msiexec` opens the package. The notices of the progress of a download are left out, and so
are the manager's version, progress and last error, which nothing reads. -/

namespace LigamentApps.LinkAgent

/-- `UpdateManager.status`. -/
inductive UpdateStatus
  | idle | staging | staged | failed | applying
  deriving DecidableEq

/-- The files of the cache directory: the package of a version, `ligament_<version>.msi`, and the file to
which it is downloaded, with `.tmp` after that. Which names are of one file is the file system's affair. -/
structure UpdateCache (F : Type) where
  targetPath : String → F
  tempPath : String → F
  distinct : ∀ version other, targetPath version ≠ tempPath other

/-- What the manager depends on: its cache directory, and the SHA-256 of a content in hexadecimal. -/
structure UpdateEnv (F : Type) extends UpdateCache F where
  sha256 : List UInt8 → String

/-- A file, with the call that has written it: of one that was there before, none. -/
structure CachedFile where
  content : List UInt8
  writer : Option ℕ
  deriving DecidableEq

/-- A call. -/
inductive UpdateCommand
  | stage (version expectedSHA : String)
  | apply (version : String) (deadlineSec : ℤ)
  deriving DecidableEq

def UpdateCommand.version : UpdateCommand → String
  | .stage version _ => version
  | .apply version _ => version

/-- The hash that `StageUpdate` is given: by `ApplyUpdate`, the empty one. -/
def UpdateCommand.expectedSHA : UpdateCommand → String
  | .stage _ expectedSHA => expectedSHA
  | .apply _ _ => ""

def UpdateCommand.isApply : UpdateCommand → Bool
  | .stage _ _ => false
  | .apply _ _ => true

/-- Where a call is. -/
inductive UpdatePc
  /-- `ApplyUpdate` looks for the package. -/
  | looking
  /-- `StageUpdate` is about to look at the status. -/
  | entering
  | requesting | downloading | renaming
  /-- The status is about to become `staged`. -/
  | finishing
  /-- The deferred calls of `StageUpdate` are due. -/
  | cleaning (ok : Bool)
  /-- The status is about to become `applying`. -/
  | marking
  | launching
  | over
  deriving DecidableEq

/-- A call that was made, with the bytes that it has hashed. -/
structure UpdateCall where
  command : UpdateCommand
  pc : UpdatePc
  hashed : List UInt8 := []
  deriving DecidableEq

/-- Where a script that `executeInstallerDetached` has started is. -/
inductive ScriptPc
  /-- It waits in `ping`. -/
  | waiting
  /-- `msiexec` has opened the package. -/
  | installing
  | ended
  deriving DecidableEq

/-- `UpdateManager`, with its cache directory, the calls and the installers. -/
structure UpdateManager (F : Type) where
  status : UpdateStatus := .idle
  files : F → Option CachedFile
  calls : List UpdateCall := []
  /-- The call that has written `run_upgrade.cmd` last: its package is in it. -/
  upgradeScript : Option ℕ := none
  scripts : List ScriptPc := []

/-- Why a staging fails. -/
inductive StageError
  | invalidURL (err : String)
  | request (err : String)
  | download (err : String)
  | serverHTTP (code : ℕ)
  | createTemp (err : String)
  | writeFile (err : String)
  | streamRead (err : String)
  | mismatch (got want : String)
  | renameTemp (err : String)

def StageError.text : StageError → String
  | .invalidURL err => "invalid download URL: " ++ err
  | .request err => "create download request: " ++ err
  | .download err => "download failed: " ++ err
  | .serverHTTP code => "server HTTP " ++ toString code
  | .createTemp err => "create temp file: " ++ err
  | .writeFile err => "write file: " ++ err
  | .streamRead err => "stream read failed: " ++ err
  | .mismatch got want => "sha256 mismatch: got " ++ got ++ ", want " ++ want
  | .renameTemp err => "rename temp file: " ++ err

/-- What comes of `executeInstallerDetached`. -/
inductive LaunchOutcome
  | started
  /-- The script is written, but `cmd.exe` cannot be started. -/
  | notStarted
  /-- The script cannot be written; or the system is not Windows, where there is none, and no error. -/
  | notWritten
  deriving DecidableEq

/-- What the network and the file system answer to a call. -/
inductive UpdateInput
  /-- Whether `os.Stat` can look at the package. -/
  | stat (readable : Bool)
  | enter
  /-- The package is requested, and the temporary file created. -/
  | opened
  /-- It is not, which `StageError` tells. -/
  | notOpened (err : StageError)
  | received (bytes : List UInt8)
  | broken (err : StageError)
  | eof
  | rename (err : Option String)
  | finish
  /-- The deferred calls, and whether `os.Remove` succeeds. -/
  | clean (removed : Bool)
  | mark
  | launch (outcome : LaunchOutcome)

/-- What happens. -/
inductive UpdateAction
  | call (command : UpdateCommand)
  | run (index : ℕ) (input : UpdateInput)
  /-- A script has waited, and comes to `msiexec`. -/
  | install (script : ℕ)
  | scriptEnds (script : ℕ)

/-- What the manager does. -/
inductive UpdateEvent (F : Type)
  /-- The status is set, and the server told. -/
  | moved (before after : UpdateStatus) (version : String) (progress : ℕ) (error : String)
  /-- A call of `StageUpdate` is refused: an update is in progress. -/
  | refused (call : ℕ)
  /-- The hash of what a call has downloaded was compared with the one that it was given, and is equal. -/
  | compared (call : ℕ) (version expectedSHA : String)
  /-- The package has been staged. -/
  | staged (file : F)
  /-- `executeInstallerDetached` has started the installer. -/
  | launched (call : ℕ) (file : F) (waitSeconds : ℤ)
  /-- `msiexec` opens the package, of the call that has written the script. -/
  | executed (call : ℕ) (file : F)
  deriving DecidableEq

/-- The state after a part of a step, with its events. -/
abbrev UpdateOutcome (F : Type) := UpdateManager F × List (UpdateEvent F)

/-- `strings.EqualFold`, where one of the texts is hexadecimal. -/
def equalFold (s t : String) : Bool := s.toLower == t.toLower

namespace UpdateManager

variable {F : Type} [DecidableEq F]

/-- A call is at another point. -/
def withCall (s : UpdateManager F) (index : ℕ) (call : UpdateCall) : UpdateManager F :=
  { s with calls := s.calls.set index call }

/-- The status is set, and the server told. -/
def move (s : UpdateManager F) (after : UpdateStatus) (version : String) (progress : ℕ) (error : String) :
    UpdateOutcome F :=
  ({ s with status := after }, [.moved s.status after version progress error])

/-- A file is written, or removed. -/
def withFile (s : UpdateManager F) (file : F) (content : Option CachedFile) : UpdateManager F :=
  { s with files := Function.update s.files file content }

/-- `fail`, and the return of the call: where its temporary file is open, the deferred calls are due. -/
def fail (s : UpdateManager F) (index : ℕ) (call : UpdateCall) (pc : UpdatePc) (err : StageError) :
    UpdateOutcome F :=
  (s.withCall index { call with pc }).move .failed call.command.version 0 err.text

/-! ## `StageUpdate` -/

/-- The first section with the lock. -/
def enter (s : UpdateManager F) (index : ℕ) (call : UpdateCall) : UpdateOutcome F :=
  if s.status = .staging ∨ s.status = .applying then (s.withCall index { call with pc := .over }, [.refused index])
  else (s.withCall index { call with pc := .requesting }).move .staging call.command.version 0 ""

variable (env : UpdateEnv F)

/-- `os.Create` of the temporary file, and the new hasher. -/
def opened (s : UpdateManager F) (index : ℕ) (call : UpdateCall) : UpdateManager F :=
  (s.withFile (env.tempPath call.command.version) (some ⟨[], some index⟩)).withCall index
    { call with pc := .downloading, hashed := [] }

/-- Bytes are written to the temporary file, if that is there still, and hashed. -/
def received (s : UpdateManager F) (index : ℕ) (call : UpdateCall) (bytes : List UInt8) : UpdateManager F :=
  let file := env.tempPath call.command.version
  (s.withFile file ((s.files file).map fun f => { f with content := f.content ++ bytes })).withCall index
    { call with hashed := call.hashed ++ bytes }

/-- The whole package is there: its hash is compared where one was given. -/
def compare (s : UpdateManager F) (index : ℕ) (call : UpdateCall) : UpdateOutcome F :=
  let calculatedSHA := env.sha256 call.hashed
  let expectedSHA := call.command.expectedSHA
  if expectedSHA = "" then (s.withCall index { call with pc := .renaming }, [])
  else if equalFold calculatedSHA expectedSHA then
    (s.withCall index { call with pc := .renaming }, [.compared index call.command.version expectedSHA])
  else s.fail index call (.cleaning false) (.mismatch calculatedSHA expectedSHA)

/-- `os.Rename` of the temporary file, which fails where that is not there. -/
def rename (s : UpdateManager F) (index : ℕ) (call : UpdateCall) (err : Option String) : UpdateOutcome F :=
  let temp := env.tempPath call.command.version
  match err, s.files temp with
  | some err, _ => s.fail index call (.cleaning false) (.renameTemp err)
  | none, none => s.fail index call (.cleaning false) (.renameTemp "no such file or directory")
  | none, some file =>
    (((s.withFile (env.targetPath call.command.version) (some file)).withFile temp none).withCall index
      { call with pc := .finishing }, [])

/-- The last section with the lock. -/
def finish (s : UpdateManager F) (index : ℕ) (call : UpdateCall) : UpdateOutcome F :=
  let r := (s.withCall index { call with pc := .cleaning true }).move .staged call.command.version 100 ""
  (r.1, r.2 ++ [.staged (env.targetPath call.command.version)])

/-- The deferred calls, and the return to `ApplyUpdate` where that has called. -/
def clean (s : UpdateManager F) (index : ℕ) (call : UpdateCall) (ok removed : Bool) : UpdateManager F :=
  let cleaned := if removed then s.withFile (env.tempPath call.command.version) none else s
  cleaned.withCall index { call with pc := if ok && call.command.isApply then .marking else .over }

/-! ## `ApplyUpdate` -/

/-- `os.Stat` of the package. -/
def look (s : UpdateManager F) (index : ℕ) (call : UpdateCall) (readable : Bool) : UpdateManager F :=
  s.withCall index { call with
    pc := if readable && (s.files (env.targetPath call.command.version)).isSome then .marking else .entering }

/-- The section with the lock. -/
def mark (s : UpdateManager F) (index : ℕ) (call : UpdateCall) : UpdateOutcome F :=
  (s.withCall index { call with pc := .launching }).move .applying call.command.version 100 ""

def startupDelaySec : UpdateCommand → ℤ
  | .stage _ _ => 5
  | .apply _ deadlineSec => if 0 < deadlineSec ∧ deadlineSec < 5 then deadlineSec else 5

/-- `executeInstallerDetached`. -/
def launch (s : UpdateManager F) (index : ℕ) (call : UpdateCall) (outcome : LaunchOutcome) : UpdateOutcome F :=
  let left := s.withCall index { call with pc := .over }
  match outcome with
  | .started => ({ left with upgradeScript := some index, scripts := s.scripts ++ [.waiting] },
      [.launched index (env.targetPath call.command.version) (startupDelaySec call.command)])
  | .notStarted => ({ left with upgradeScript := some index }, [])
  | .notWritten => (left, [])

/-- A script is at another point. -/
def withScript (s : UpdateManager F) (script : ℕ) (pc : ScriptPc) : UpdateManager F :=
  { s with scripts := s.scripts.set script pc }

/-- `msiexec` opens what `run_upgrade.cmd` says now: `cmd.exe` reads each line when it comes to it. -/
def install (s : UpdateManager F) (script : ℕ) : Option (UpdateOutcome F) := do
  let index ← s.upgradeScript
  let call ← s.calls[index]?
  some (s.withScript script .installing, [.executed index (env.targetPath call.command.version)])

def runCall (s : UpdateManager F) (index : ℕ) (call : UpdateCall) :
    UpdateInput → Option (UpdateOutcome F)
  | .stat readable => if call.pc = .looking then some (s.look env index call readable, []) else none
  | .enter => if call.pc = .entering then some (s.enter index call) else none
  | .opened => if call.pc = .requesting then some (s.opened env index call, []) else none
  | .notOpened err => if call.pc = .requesting then some (s.fail index call .over err) else none
  | .received bytes => if call.pc = .downloading then some (s.received env index call bytes, []) else none
  | .broken err => if call.pc = .downloading then some (s.fail index call (.cleaning false) err) else none
  | .eof => if call.pc = .downloading then some (s.compare env index call) else none
  | .rename err => if call.pc = .renaming then some (s.rename env index call err) else none
  | .finish => if call.pc = .finishing then some (s.finish env index call) else none
  | .clean removed =>
    match call.pc with
    | .cleaning ok => some (s.clean env index call ok removed, [])
    | _ => none
  | .mark => if call.pc = .marking then some (s.mark index call) else none
  | .launch outcome => if call.pc = .launching then some (s.launch env index call outcome) else none

def step (s : UpdateManager F) : UpdateAction → Option (UpdateOutcome F)
  | .call command =>
    some ({ s with calls := s.calls ++ [⟨command, if command.isApply then .looking else .entering, []⟩] }, [])
  | .run index input => do
    let call ← s.calls[index]?
    s.runCall env index call input
  | .install script => if s.scripts[script]? = some .waiting then s.install env script else none
  | .scriptEnds script =>
    if s.scripts[script]? = some .installing then some (s.withScript script .ended, []) else none

end UpdateManager

def updateManager {F : Type} [DecidableEq F] (env : UpdateEnv F) :
    Machine (UpdateManager F) UpdateAction (UpdateEvent F) :=
  ⟨UpdateManager.step env⟩

end LigamentApps.LinkAgent
