import LigamentApps.ByteStream.Frames
import LigamentApps.Machine.Trace

/-!
# The socket of the native macOS worker

`IPCClient` of `IPCClient.swift`, with its lock, and those of `WorkerCoordinator` who use it, from the time at
which `run` has read the initial frame: `run` with its answer, the read loop, the callbacks that send a
candidate, and the tasks that send `session_terminate` and shut down. What the frames hold is an input. A step
is what one of them does up to the next point at which the others may go on; a read and a write of the socket
are steps of their own, which take as many bytes as the system has it. -/

namespace LigamentApps.LinkWorkerDarwin

open ByteStream

/-- `IPCClient.maxFrameSize`. -/
def maxFrameSize : ℕ := 512 * 1024

/-- `sendFrame` and `readFrame` take a frame of this length. -/
def isFrameLength (length : ℕ) : Bool := 0 < length && length ≤ maxFrameSize

/-- What a user of the socket is still to do. -/
inductive Job
  /-- `try? ipc.send`, of a frame. -/
  | send (data : List UInt8)
  /-- `try ipc.send` of the answer; where that throws, the session is rejected with another frame. -/
  | answer (data rejected : List UInt8)
  /-- `capturer.stopCapture`, and `webRTC.close`. -/
  | stopCapture
  /-- `ipc.close`. -/
  | close
  | exit
  deriving DecidableEq

/-- A user of the socket other than the read loop, with the bytes of its frame that are still to be written,
and how many of its calls of the socket have returned. -/
structure SocketTask where
  jobs : List Job
  writing : Option (List UInt8) := none
  returned : ℕ := 0
  deriving DecidableEq

/-- Where the read loop is. -/
inductive ReaderPc
  | notStarted
  /-- `readFrame` is called, and has not got the lock. -/
  | waiting
  /-- `readFrame` has got the lock, and these bytes. -/
  | reading (got : List UInt8)
  /-- `readFrame` has returned a frame. -/
  | handling (frame : List UInt8)
  | ended
  deriving DecidableEq

inductive LockHolder
  | reader
  | task (index : ℕ)

/-- The client and its users, with the bytes that have come from the agent and were not read, and those that
were written. -/
structure IPCState where
  fdOpen : Bool := true
  lock : Option LockHolder := none
  inbox : List UInt8 := []
  agentClosed : Bool := false
  written : List UInt8 := []
  /-- The task of `run`, which sends the answer, or rejects the session. -/
  run : Option ℕ := none
  reader : ReaderPc := .notStarted
  tasks : List SocketTask := []
  exited : Bool := false

/-- What happens. -/
inductive IPCAction
  /-- Bytes come from the agent. -/
  | arrives (bytes : List UInt8)
  /-- The agent closes its end. -/
  | agentCloses
  /-- `run` has the answer, or rejects the session. -/
  | answers (data rejected : List UInt8)
  | rejects (data : List UInt8)
  /-- `run` has sent the answer, and starts the read loop. -/
  | readLoopStarts
  /-- `didGenerateCandidate`. -/
  | candidate (data : List UInt8)
  /-- `didFailCapture` or `webRTCBridgeDidDisconnect`. -/
  | terminates (data : List UInt8)
  | readerLocks
  /-- `read` returns bytes. -/
  | readerReads (count : ℕ)
  /-- `read` returns 0. -/
  | readerEnds
  | readerHandles
  /-- The task gets the lock. -/
  | taskLocks (index : ℕ)
  /-- `write` returns, with how many bytes it took. -/
  | taskWrites (index count : ℕ)
  /-- The task goes on with what is not of the socket. -/
  | taskGoesOn (index : ℕ)

/-- What the client does: it begins to write a frame. -/
inductive IPCEvent
  | begins (data : List UInt8)

/-- The state after a part of a step, with its events. -/
abbrev IPCOutcome := IPCState × List IPCEvent

namespace IPCState

/-! ## The users -/

variable (s : IPCState)

/-- A task is made. -/
def spawn (jobs : List Job) : IPCState := { s with tasks := s.tasks ++ [{ jobs }] }

/-- The task of `run` is made. -/
def runSpawns (jobs : List Job) : IPCState := { s with run := some s.tasks.length }.spawn jobs

/-- What `shutdown` does. -/
def shutdownJobs : List Job := [.stopCapture, .close, .exit]

variable (index : ℕ)

variable (task : SocketTask)

def withTask : IPCState :=
  { s with tasks := s.tasks.set index task }

/-! ## The read loop -/

/-- `readFrame` throws: the read loop ends, and the worker shuts down. -/
def readerThrows : IPCState := { s with lock := none, reader := .ended }.spawn shutdownJobs

/-- How many bytes the current `readExact` still wants. -/
def wanted (got : List UInt8) : ℕ :=
  if got.length < 4 then 4 - got.length else 4 + headerLength got - got.length

/-- Bytes were read: of the header, or of a frame, which is handed over when it is whole. -/
def readerGot (got : List UInt8) : IPCState :=
  if got.length < 4 then { s with reader := .reading got }
  else if !isFrameLength (headerLength got) then s.readerThrows
  else if got.length < 4 + headerLength got then { s with reader := .reading got }
  else { s with lock := none, reader := .handling (got.drop 4) }

/-! ## The tasks -/

def jobsAfterError : List Job → List Job
  | .answer _ rejected :: _ => [.send rejected, .stopCapture, .exit]
  | _ :: rest => rest
  | [] => []

/-- A call of the socket returns, or throws: the lock is free. -/
def taskReturns (threw : Bool) : IPCState :=
  { s with lock := none }.withTask index
    ⟨if threw then jobsAfterError task.jobs else task.jobs.tail, none, task.returned + 1⟩

/-- `sendFrame` with the lock, up to its first `write`. -/
def sendFrame (data : List UInt8) : IPCOutcome :=
  if !s.fdOpen || !isFrameLength data.length then (s.taskReturns index task true, [])
  else
    ({ s with lock := some (.task index) }.withTask index { task with writing := some (frameBytes data) },
      [.begins data])

def taskLocks : Option IPCOutcome :=
  match task.jobs with
  | .send data :: _ => some (s.sendFrame index task data)
  | .answer data _ :: _ => some (s.sendFrame index task data)
  | .close :: _ => some ({ s with fdOpen := false }.taskReturns index task false, [])
  | _ => none

/-- `write` has taken bytes. -/
def taskWrote (bytes : List UInt8) (count : ℕ) : IPCState :=
  let next := { s with written := s.written ++ bytes.take count }
  if bytes.length ≤ count then next.taskReturns index task false
  else next.withTask index { task with writing := some (bytes.drop count) }

def taskGoesOn : Option IPCState :=
  match task.jobs with
  | .stopCapture :: rest => some (s.withTask index { task with jobs := rest })
  | .exit :: rest => some ({ s with exited := true }.withTask index { task with jobs := rest })
  | _ => none

/-- One step; `isTerminate` tells a frame that is a `session_terminate`. -/
def step (isTerminate : List UInt8 → Bool) (s : IPCState) (a : IPCAction) : Option IPCOutcome :=
  if s.exited then none
  else
    match a with
    | .arrives bytes => if s.agentClosed then none else some ({ s with inbox := s.inbox ++ bytes }, [])
    | .agentCloses => some ({ s with agentClosed := true }, [])
    | .answers data rejected => if s.run = none then some (s.runSpawns [.answer data rejected], []) else none
    | .rejects data => if s.run = none then some (s.runSpawns [.send data, .stopCapture, .exit], []) else none
    | .readLoopStarts =>
      if s.reader = .notStarted ∧ (s.run.bind (s.tasks[·]?)).map (·.jobs) = some [] then
        some ({ s with reader := .waiting }, [])
      else none
    | .candidate data => some (s.spawn [.send data], [])
    | .terminates data => some (s.spawn (.send data :: shutdownJobs), [])
    | .readerLocks =>
      if s.reader = .waiting ∧ s.lock = none then
        some (if s.fdOpen then { s with lock := some .reader, reader := .reading [] } else s.readerThrows, [])
      else none
    | .readerReads count =>
      match s.reader with
      | .reading got =>
        if 0 < count ∧ count ≤ wanted got ∧ count ≤ s.inbox.length then
          some ({ s with inbox := s.inbox.drop count }.readerGot (got ++ s.inbox.take count), [])
        else none
      | _ => none
    | .readerEnds =>
      match s.reader with
      | .reading _ => if s.inbox = [] ∧ s.agentClosed = true then some (s.readerThrows, []) else none
      | _ => none
    | .readerHandles =>
      match s.reader with
      | .handling frame =>
        some (if isTerminate frame then { s with reader := .ended }.spawn shutdownJobs
          else { s with reader := .waiting }, [])
      | _ => none
    | .taskLocks index => do
      let task ← s.tasks[index]?
      if s.lock = none then s.taskLocks index task else none
    | .taskWrites index count => do
      let task ← s.tasks[index]?
      let bytes ← task.writing
      if s.agentClosed then some (s.taskReturns index task true, [])
      else if 0 < count ∧ count ≤ bytes.length then some (s.taskWrote index task bytes count, [])
      else none
    | .taskGoesOn index => do
      let task ← s.tasks[index]?
      let t ← s.taskGoesOn index task
      return (t, [])

end IPCState

def ipcClient (isTerminate : List UInt8 → Bool) : Machine IPCState IPCAction IPCEvent := ⟨IPCState.step isTerminate⟩

end LigamentApps.LinkWorkerDarwin
