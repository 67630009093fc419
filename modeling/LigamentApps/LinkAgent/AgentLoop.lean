import Mathlib.Algebra.Ring.Int.Defs
import Mathlib.Algebra.Ring.Nat
import LigamentApps.Machine.Trace

/-!
# The connection loop of the agent

`RunAgent` of `agent_ws.go` as a machine: the connections that it makes and serves one after another, the
scope in which the session workers run, and the grace timer of that scope. The timer's function runs in a
goroutine of its own, so that a timer that has expired and the cancellation that follows are two steps. Times
are in nanoseconds. The hello, the heartbeats and the messages of a connection are left out: what matters here
is with which error serving it ends. -/

namespace LigamentApps.LinkAgent

/-- `time.Second`. -/
def second : ℕ := 1000000000

def agentStablePeriod : ℕ := 60 * second

def agentReconnectMin : ℕ := second

def agentReconnectMax : ℕ := 60 * second

def agentWorkerGracePeriod : ℕ := 60 * second

/-- Where `RunAgent` is. -/
inductive AgentPc
  /-- The top of the loop. -/
  | starting
  | connecting
  | serving
  /-- It waits for the next attempt, which is due at a time. -/
  | waiting (due : ℕ)
  | returned
  deriving DecidableEq

/-- `graceTimer`, with the scope that it cancels: one that has expired is still known. -/
structure GraceTimer where
  due : ℕ
  scope : ℕ
  expired : Bool := false

/-- The variables of `RunAgent`, with what runs beside it. Scopes are numbered in the order in which they are
made. -/
structure AgentLoop where
  now : ℕ := 0
  ctxDone : Bool := false
  pc : AgentPc := .starting
  attempt : ℕ := 0
  started : ℕ := 0
  /-- `workerCtx`, whose cancel function is `cancelWorkers`. -/
  workerCtx : Option ℕ := none
  /-- The scopes whose cancel function was called. -/
  cancelled : List ℕ := []
  graceTimer : Option GraceTimer := none
  /-- The scopes that the functions of expired timers are about to cancel. -/
  callbacks : List ℕ := []
  nextScope : ℕ := 0

/-- With which error `serveAgentConnectionWithWorkerScope` returns. -/
inductive ServeError
  /-- `ErrAgentUnbound`: the server has archived this identity. -/
  | unbound
  | other

/-- What happens. -/
inductive AgentAction
  | elapse (ns : ℕ)
  /-- The agent's context ends. -/
  | cancelContext
  | dial
  | connected
  /-- `ConnectAgent` fails; the jitter of the delay is drawn, unless that fails. -/
  | connectFailed (jitter : Option (Fin 4001))
  | served (err : ServeError) (jitter : Option (Fin 4001))
  /-- The delay before the next attempt is over. -/
  | delayOver
  /-- The wait for the next attempt finds that the context has ended. -/
  | stopWaiting
  | graceExpires
  | callback (index : ℕ)

/-- What can be seen of the loop, with the times. -/
inductive AgentEvent
  | contextDone
  /-- A connection is taken up, with the scope that its workers run in. -/
  | connected (time scope : ℕ)
  | disconnected (time : ℕ)
  /-- `RunAgent` returns because the server has archived this identity. -/
  | archived
  /-- The grace timer of a scope expires. -/
  | expired (time scope : ℕ)
  /-- A scope that was not cancelled is cancelled. -/
  | cancelled (time scope : ℕ)
  deriving DecidableEq

/-- The state after a part of a step, with its events. -/
abbrev AgentOutcome := AgentLoop × List AgentEvent

/-! ## The delay -/

/-- The delay after so many attempts, before the jitter. -/
def baseDelay (attempt : ℕ) : ℕ :=
  min (if 0 < attempt then agentReconnectMin * 2 ^ min attempt 6 else agentReconnectMin) agentReconnectMax

/-- A delay with jitter is kept between four fifths of the least one and the greatest one. -/
def boundDelay (delay : ℤ) : ℕ :=
  if delay < (agentReconnectMin * 4 / 5 : ℕ) then agentReconnectMin * 4 / 5
  else if (agentReconnectMax : ℤ) < delay then agentReconnectMax
  else delay.toNat

def nextReconnectDelay (attempt : ℕ) (jitter : Option (Fin 4001)) : ℕ :=
  match jitter with
  | none => baseDelay attempt
  | some draw =>
    let permille : ℤ := (draw : ℕ) - 2000
    boundDelay (baseDelay attempt + (baseDelay attempt * permille).tdiv 10000)

namespace AgentLoop

/-! ## Scopes -/

variable (s : AgentLoop)

/-- `workerCtx.Err() != nil`, for a scope: it was cancelled, or the agent's context has ended. -/
def isOver (scope : ℕ) : Bool := s.ctxDone || s.cancelled.contains scope

/-- The cancel function of a scope is called. -/
def cancelScope (scope : ℕ) : AgentOutcome :=
  if s.isOver scope then (s, []) else ({ s with cancelled := scope :: s.cancelled }, [.cancelled s.now scope])

/-- `context.WithCancel`: a new scope. -/
def newScope : AgentLoop × ℕ :=
  ({ s with workerCtx := some s.nextScope, nextScope := s.nextScope + 1 }, s.nextScope)

/-- `ensureWorkerScope`: the timer is stopped, where it has not expired, and forgotten. -/
def ensureWorkerScope : AgentLoop × ℕ :=
  let stopped := { s with graceTimer := none }
  match s.workerCtx with
  | some scope => if s.isOver scope then stopped.newScope else (stopped, scope)
  | none => stopped.newScope

/-- `RunAgent` returns: its deferred function stops the timer and cancels the scope. -/
def finish : AgentOutcome :=
  let returned := { s with graceTimer := none, pc := .returned }
  match s.workerCtx with
  | some scope => returned.cancelScope scope
  | none => (returned, [])

/-! ## The loop -/

/-- The timer is armed where there is a scope and no timer. -/
def armGrace : AgentLoop :=
  match s.workerCtx, s.graceTimer with
  | some scope, none => { s with graceTimer := some ⟨s.now + agentWorkerGracePeriod, scope, false⟩ }
  | _, _ => s

/-- The delay before the next attempt begins. -/
def backOff (jitter : Option (Fin 4001)) : AgentLoop :=
  let attempt := if agentStablePeriod ≤ s.now - s.started then 0 else s.attempt
  { s with
    pc := .waiting (s.now + nextReconnectDelay attempt jitter)
    attempt := if attempt < 16 then attempt + 1 else attempt }

/-- What follows a connection, or an attempt that has failed. -/
def afterAttempt (err : ServeError) (jitter : Option (Fin 4001)) : AgentOutcome :=
  if s.ctxDone then s.finish
  else
    match err with
    | .unbound => (s.finish.1, .archived :: s.finish.2)
    | .other => (s.armGrace.backOff jitter, [])

/-- The agent's context ends, and the scope with it. -/
def cancelContext : AgentOutcome :=
  ({ s with ctxDone := true },
    .contextDone :: match s.workerCtx with
      | some scope => if s.isOver scope then [] else [.cancelled s.now scope]
      | none => [])

def step : AgentAction → Option AgentOutcome
  | .elapse ns => some ({ s with now := s.now + ns }, [])
  | .cancelContext => if s.ctxDone then none else some s.cancelContext
  | .dial =>
    if s.pc = .starting then
      some (if s.ctxDone then s.finish else ({ s with pc := .connecting, started := s.now }, []))
    else none
  | .connected =>
    if s.pc = .connecting then
      let r := s.ensureWorkerScope
      some ({ r.1 with pc := .serving }, [.connected s.now r.2])
    else none
  | .connectFailed jitter => if s.pc = .connecting then some (s.afterAttempt .other jitter) else none
  | .served err jitter =>
    if s.pc = .serving then
      let r := s.afterAttempt err jitter
      some (r.1, .disconnected s.now :: r.2)
    else none
  | .delayOver =>
    match s.pc with
    | .waiting due => if due ≤ s.now then some ({ s with pc := .starting }, []) else none
    | _ => none
  | .stopWaiting =>
    match s.pc with
    | .waiting _ => if s.ctxDone then some s.finish else none
    | _ => none
  | .graceExpires => do
    let timer ← s.graceTimer
    guard (timer.expired = false ∧ timer.due ≤ s.now)
    return ({ s with graceTimer := some { timer with expired := true }, callbacks := s.callbacks ++ [timer.scope] },
      [.expired s.now timer.scope])
  | .callback index => do
    let scope ← s.callbacks[index]?
    return { s with callbacks := s.callbacks.eraseIdx index }.cancelScope scope

end AgentLoop

def agentLoop : Machine AgentLoop AgentAction AgentEvent := ⟨AgentLoop.step⟩

end LigamentApps.LinkAgent
