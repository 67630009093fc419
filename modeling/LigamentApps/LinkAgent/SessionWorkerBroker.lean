import Mathlib.Data.List.AList
import LigamentApps.LinkAgent.WorkerFrames
import LigamentApps.Machine.Trace
import LigamentApps.Text.JsonSize

/-!
# The broker of session workers

`SessionWorkerBroker` of `session_worker.go`. An offer starts a run, which has a goroutine of its own; every
worker that a run serves has a goroutine that writes the queued signals to it. The handler of the server's
messages runs beside them, one message after the other. Between two sections of one of them the others may go
on. -/

namespace LigamentApps.LinkAgent

/-- The capacity of the queue of a run. -/
def maxQueuedWorkerSignals : ℕ := 256

def reasonHostWorkerUnavailable : String := "host_worker_unavailable"

/-- What the broker depends on: how many bytes a part of a message takes, how a number of a JSON text is read
as a `float64`, if it is in range, and whether there is a launcher. -/
structure BrokerEnv where
  size : Json → ℕ
  float64 : ℚ → Option ℚ
  hasLauncher : Bool

/-- Where a run is. A worker is named by its place among the launched ones. -/
inductive RunPhase
  /-- At the head of the loop. -/
  | top
  /-- The run has found itself neither cancelled nor terminated. -/
  | ready
  /-- In `Launch`. -/
  | launching
  /-- `Launch` has failed at a restart, and the run waits. -/
  | backoff
  /-- `Launch` has returned. -/
  | launched (w : ℕ)
  /-- The worker belongs to the session. -/
  | attached (w : ℕ)
  /-- In the loop over the worker's frames. -/
  | serving (w : ℕ)
  /-- The run waits before a restart. -/
  | pausing
  /-- The deferred calls are due. -/
  | leaving
  | over
  deriving DecidableEq

/-- A run with its `workerSession`. -/
structure WorkerRun where
  offer : SessionOffer
  initialOfferFrame : Json
  restartWindow : ℤ
  restarts : ℕ := 0
  /-- Its context is cancelled. -/
  cancelled : Bool := false
  terminateRequested : Bool := false
  process : Option ℕ := none
  outbound : List Json := []
  phase : RunPhase := .top

/-- What a run does that others can see. -/
inductive RunEvent
  /-- `Launch` is called. -/
  | launches (sessionID : String) (frame : Json)
  /-- `Launch` has returned a worker. -/
  | starts (sessionID : String) (w : ℕ)
  | attaches (w : ℕ)
  /-- A frame of the worker has gone to the server. -/
  | forwards (w : ℕ) (frame : Json)
  /-- A refusing answer has gone to the server. -/
  | refuses (reason : String)
  /-- The run has removed its session. -/
  | removes

/-- What a step of a run does beside it. -/
inductive WorkerOp
  | launch
  /-- The writer of a worker is started. -/
  | serve (w : ℕ)
  | close (w : ℕ)
  | unregister (sessionID : String)

/-- What a run reads outside itself. -/
structure BrokerView where
  /-- The session is the one of the map. -/
  current : Bool
  /-- The number of the next worker. -/
  nextWorker : ℕ
  writerStopped : ℕ → Bool

inductive RunAction
  | check
  | launch
  | launchFails (reason : String) (sent : Bool)
  | launchSucceeds
  | attach
  | serve
  /-- A `select` takes the end of the context. -/
  | seesDone
  /-- A result of the reader, whose frame may be no JSON text. -/
  | receives (frame : Option Json) (sent : Bool) (now : ℤ)
  | readerFails (now : ℤ)
  | writerFails (now : ℤ)
  | pauseOver
  | backoffOver (now : ℤ)
  | leave

namespace WorkerRun

variable (env : BrokerEnv) (run : WorkerRun)

def sessionID : String := run.offer.sessionId

def goTo (phase : RunPhase) : WorkerRun := { run with phase := phase }

/-- The run is terminated or cancelled. -/
def done : Bool := run.terminateRequested || run.cancelled

/-- The offer that the next worker is launched with. -/
def currentOfferFrame : Json :=
  if run.restarts > 0 then updateOfferEpoch env.float64 run.initialOfferFrame (1 + run.restarts)
  else run.initialOfferFrame

def windowOver (now : ℤ) : Bool := now - run.restartWindow ≥ 60 * 1000000

/-- A restart is counted, in a new window where the old one is over. -/
def countRestart (now : ℤ) : WorkerRun :=
  if run.windowOver now then { run with restartWindow := now, restarts := 1 }
  else { run with restarts := run.restarts + 1 }

/-- The run goes on, unless it has been restarted too often. -/
def orGiveUp (phase : RunPhase) : WorkerRun := run.goTo (if run.restarts > 3 then .leaving else phase)

/-- The end of the loop over the frames of a worker. -/
def afterWorker (now : ℤ) : WorkerRun :=
  if run.done then run.goTo .leaving else (run.countRestart now).orGiveUp .pausing

/-- The deferred `remove`. -/
def remove (current : Bool) : WorkerRun × List WorkerOp × List RunEvent :=
  if current then
    ({ run with cancelled := true, terminateRequested := true, phase := .over },
      .unregister run.sessionID :: (run.process.map WorkerOp.close).toList, [.removes])
  else (run.goTo .over, [], [])

/-- A frame that a worker may send. -/
def forward (w : ℕ) (frame : Json) (sent : Bool) : WorkerRun × List WorkerOp × List RunEvent :=
  (if frameType frame = "session_terminate" then { run with terminateRequested := true } else run, [],
    if sent then [.forwards w frame] else [])

/-- The next section of `SessionWorkerBroker.run`. -/
def step (v : BrokerView) (a : RunAction) : Option (WorkerRun × List WorkerOp × List RunEvent) :=
  match a, run.phase with
  | .check, .top => some (run.goTo (if run.done then .leaving else .ready), [], [])
  | .launch, .ready => some (run.goTo .launching, [], [.launches run.sessionID (run.currentOfferFrame env)])
  | .launchFails reason sent, .launching =>
    if run.restarts = 0 then some (run.goTo .leaving, [], if sent then [.refuses reason] else [])
    else some (run.goTo .backoff, [], [])
  | .launchSucceeds, .launching =>
    some (run.goTo (.launched v.nextWorker), [.launch], [.starts run.sessionID v.nextWorker])
  | .attach, .launched w =>
    if v.current && !run.cancelled then
      some ({ run with process := some w, phase := .attached w }, [], [.attaches w])
    else some (run.goTo .leaving, [.close w], [])
  | .serve, .attached w =>
    some ({ run with outbound := if run.restarts > 0 then [] else run.outbound, phase := .serving w },
      [.serve w], [])
  | .seesDone, .backoff => if run.cancelled then some (run.goTo .leaving, [], []) else none
  | .seesDone, .serving w => if run.cancelled then some (run.goTo .leaving, [.close w], []) else none
  | .seesDone, .pausing => if run.cancelled then some (run.goTo .leaving, [], []) else none
  | .receives frame sent now, .serving w =>
    match frame.filter fun f => validWorkerResponse env.size f run.sessionID with
    | some f => some (run.forward w f sent)
    | none => some (run.afterWorker now, [.close w], [])
  | .readerFails now, .serving w => some (run.afterWorker now, [.close w], [])
  | .writerFails now, .serving w => if v.writerStopped w then some (run.afterWorker now, [.close w], []) else none
  | .pauseOver, .pausing => some (run.goTo .top, [], [])
  | .backoffOver now, .backoff => some ((run.countRestart now).orGiveUp .top, [], [])
  | .leave, .leaving => some (run.remove v.current)
  | _, _ => none

end WorkerRun

/-- The goroutine that writes to a worker. -/
inductive SignalWriter
  | idle
  | sending (signal : Json)
  | stopped

/-- A worker, with the run that has launched it. -/
structure WorkerProcess where
  run : ℕ
  closed : Bool := false
  writer : SignalWriter := .stopped

/-- What is next in `SessionWorkerBroker.stop`. -/
inductive StopStage
  | mark
  | cancel
  | close

/-- `SessionWorkerBroker` with its runs and their workers, in their order. -/
structure WorkerBroker where
  runs : List WorkerRun := []
  workers : List WorkerProcess := []
  sessions : AList fun _ : String => ℕ := ∅
  /-- The handler is in `stop`. -/
  stopping : Option (ℕ × StopStage) := none

/-- What the broker does that others can see. -/
inductive BrokerEvent
  | run (r : ℕ) (e : RunEvent)
  /-- The server has ended the session of a run. -/
  | serverCloses (r : ℕ)
  /-- The queue of a run is full, and its session ends. -/
  | overflows (r : ℕ)
  /-- The agent has ended the context of a run. -/
  | agentStops (r : ℕ)
  /-- A signal has gone to a worker. -/
  | delivers (w : ℕ) (signal : Json)
  /-- An offer is refused for want of a launcher. -/
  | declines (sessionID reason : String)

/-- What may happen next. -/
inductive BrokerAction
  /-- The handler is called. -/
  | message (message : Json) (now : ℤ)
  | stopGoesOn
  /-- The scope of the workers ends with the agent, or when it has been without a connection for long. -/
  | scopeEnds
  | run (r : ℕ) (a : RunAction)
  | writerTakes (w : ℕ)
  /-- `Send` returns, without an error or with one. -/
  | writerSends (w : ℕ) (ok : Bool)

namespace WorkerBroker

variable (env : BrokerEnv) (s : WorkerBroker)

def onRun (r : ℕ) (f : WorkerRun → WorkerRun) : WorkerBroker := { s with runs := s.runs.modify r f }

def onWorker (w : ℕ) (f : WorkerProcess → WorkerProcess) : WorkerBroker :=
  { s with workers := s.workers.modify w f }

def setWriter (w : ℕ) (writer : SignalWriter) : WorkerBroker := s.onWorker w fun p => { p with writer := writer }

/-- `Close` of a worker. -/
def close (w : ℕ) : WorkerBroker := s.onWorker w fun p => { p with closed := true }

def apply (r : ℕ) (s : WorkerBroker) : WorkerOp → WorkerBroker
  | .launch => { s with workers := s.workers ++ [{ run := r }] }
  | .serve w => s.setWriter w .idle
  | .close w => s.close w
  | .unregister sessionID => { s with sessions := s.sessions.erase sessionID }

def view (r : ℕ) (run : WorkerRun) : BrokerView where
  current := s.sessions.lookup run.sessionID = some r
  nextWorker := s.workers.length
  writerStopped w := s.workers[w]?.any fun p => match p.writer with
    | .stopped => true
    | _ => false

/-- `SessionWorkerBroker.start`. -/
def start (offer : SessionOffer) (frame : Json) (now : ℤ) : WorkerBroker × List BrokerEvent :=
  if env.hasLauncher then
    if (s.sessions.lookup offer.sessionId).isSome then (s, [])
    else ({ s with
      runs := s.runs ++ [{ offer := offer, initialOfferFrame := frame, restartWindow := now }]
      sessions := s.sessions.insert offer.sessionId s.runs.length }, [])
  else (s, [.declines offer.sessionId reasonHostWorkerUnavailable])

/-- The first section of `SessionWorkerBroker.stop`. -/
def stop (sessionID : String) (why : ℕ → BrokerEvent) : WorkerBroker × List BrokerEvent :=
  match s.sessions.lookup sessionID with
  | none => (s, [])
  | some r => ({ s with sessions := s.sessions.erase sessionID, stopping := some (r, .mark) }, [why r])

/-- `SessionWorkerBroker.route`. -/
def route (sessionID : String) (frame : Json) : WorkerBroker × List BrokerEvent :=
  match s.sessions.lookup sessionID with
  | none => (s, [])
  | some r =>
    if s.runs[r]?.any (·.outbound.length < maxQueuedWorkerSignals) then
      (s.onRun r fun run => { run with outbound := run.outbound ++ [frame] }, [])
    else s.stop sessionID .overflows

/-- `SessionWorkerBroker.Handler`, as far as it is about sessions. -/
def handler (message : Json) (now : ℤ) : WorkerBroker × List BrokerEvent :=
  match decodeEnvelope message with
  | none => (s, [])
  | some envelope =>
    if envelope.type = "session_offer" then
      match decodeOffer env.size message with
      | none => (s, [])
      | some offer => s.start env offer message now
    else if envelope.type = "signal" then
      if validUUID envelope.sessionId && envelope.signal.isSome then s.route envelope.sessionId message else (s, [])
    else if envelope.type ∈ ["session_close", "session_revoke", "session_terminate"] then
      if validUUID envelope.sessionId then s.stop envelope.sessionId .serverCloses else (s, [])
    else (s, [])

/-- The other sections of `SessionWorkerBroker.stop`. -/
def stopNext (r : ℕ) : StopStage → WorkerBroker
  | .mark => { s.onRun r fun run => { run with terminateRequested := true } with stopping := some (r, .cancel) }
  | .cancel => { s.onRun r fun run => { run with cancelled := true } with stopping := some (r, .close) }
  | .close =>
    match s.runs[r]?.bind WorkerRun.process with
    | none => { s with stopping := none }
    | some w => { s.close w with stopping := none }

end WorkerBroker

/-- The broker with its goroutines, in any interleaving. -/
def sessionWorkerBroker (env : BrokerEnv) : Machine WorkerBroker BrokerAction BrokerEvent where
  step s a :=
    match a with
    | .message message now => if s.stopping.isNone then some (s.handler env message now) else none
    | .stopGoesOn => s.stopping.map fun (r, stage) => (s.stopNext r stage, [])
    | .scopeEnds =>
      some ({ s with runs := s.runs.map fun run => { run with cancelled := true } },
        (List.range s.runs.length).map .agentStops)
    | .run r a =>
      match s.runs[r]? with
      | none => none
      | some run => (run.step env (s.view r run) a).map fun (run', ops, es) =>
        (ops.foldl (WorkerBroker.apply r) (s.onRun r fun _ => run'), es.map (.run r))
    | .writerTakes w =>
      match s.workers[w]? with
      | some ⟨r, _, .idle⟩ =>
        match s.runs[r]?.map WorkerRun.outbound with
        | some (signal :: rest) =>
          some ((s.onRun r fun run => { run with outbound := rest }).setWriter w (.sending signal), [])
        | _ => none
      | _ => none
    | .writerSends w ok =>
      match s.workers[w]? with
      | some ⟨_, closed, .sending signal⟩ =>
        if ok && !closed then some (s.setWriter w .idle, [.delivers w signal])
        else some (s.setWriter w .stopped, [])
      | _ => none

/-! ## Messages of the examples -/

/-- A host with a launcher, on which every number is in range. -/
def sampleEnv : BrokerEnv where
  size := Json.bytes fun _ => ""
  float64 := some
  hasLauncher := true

def sampleSession : String := "00000000-0000-0000-0000-000000000001"

/-- An offer with a recording of this epoch. -/
def sampleOffer (epoch : ℤ) : Json :=
  .obj [("type", .str "session_offer"), ("payload", .obj [
    ("session_id", .str sampleSession), ("operator_id", .str "00000000-0000-0000-0000-000000000002"),
    ("access_type", .str "unattended"), ("access_mode", .str "control"), ("sdp", .str "v=0"),
    ("dlp", .obj []), ("recording", .obj [("epoch", .int epoch)])])]

/-- The server closes the session of `sampleOffer`. -/
def sampleClose : Json := .obj [("type", .str "session_close"), ("session_id", .str sampleSession)]

/-- A run launches a worker and serves it. -/
def serving (r : ℕ) : List BrokerAction :=
  [.check, .launch, .launchSucceeds, .attach, .serve].map (.run r)

end LigamentApps.LinkAgent
