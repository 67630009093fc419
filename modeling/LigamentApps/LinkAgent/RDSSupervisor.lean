import LigamentApps.LinkAgent.RecorderClient
import LigamentApps.Machine.Trace

/-!
# The supervisor of RDP recordings

`RDSSupervisor` of `rds_supervisor.go`. Its methods run side by side, on the goroutines of the service, of the
policy dispatch and of the recordings; between two sections under the lock the others may go on. A call is in
flight until its last section is over. -/

namespace LigamentApps.LinkAgent

/-- `WTSSession`, as far as the supervisor reads it. -/
structure WTSSession where
  sessionID : UInt32
  state : UInt32
  username : String
  domain : String
  clientIP : String
  clientName : String
  protocolType : UInt16
  isRDP : Bool
  isActive : Bool

def WTSActive : UInt32 := 0

/-- `RDSSessionStartPolicy`, without what only the worker is told. -/
structure RDSSessionStartPolicy where
  wtsSessionID : UInt32
  sessionID : String
  record : Bool
  recorderURL : String
  ingestToken : String
  failurePolicy : String

/-- What the supervisor sends to Core. -/
inductive CoreMessage
  | rdpSessionStart (wtsSessionID : UInt32) (username domain clientIP clientName : String) (protocolType : UInt16)
  | rdpSessionEnd (wtsSessionID : UInt32) (sessionID reason : String)

/-- A recording: `activeRDSSession` with the goroutine of `runSessionRecording`. -/
structure RDSRecording where
  wtsSessionID : UInt32
  coreSessionID : String
  recorder : RecorderClient
  /-- Its context is cancelled. -/
  cancelled : Bool := false
  /-- `runSessionRecording` has returned. -/
  returned : Bool := false
  /-- The reasons of the calls of `Complete`. -/
  completions : List String := []
  /-- The reasons of the `rdp_session_end` messages. -/
  ends : List String := []

/-- What `HandleSessionLogoff` does next with the recording that it has taken. -/
inductive LogoffStage
  | cancel
  | complete
  | announce

/-- A call in flight, between two of its sections. -/
inductive SupervisorCall
  /-- `ApplySessionPolicy` has found no recording of the session. -/
  | policyChecked (p : RDSSessionStartPolicy)
  /-- `SyncActiveSessions` has come to these sessions. -/
  | syncing (rest : List WTSSession) (activeIDs : List UInt32)
  /-- `SyncActiveSessions` has come to these stale sessions. -/
  | stale (ids : List UInt32)
  | logoff (r : ℕ) (reason : String) (stage : LogoffStage)
  /-- `StopAll` has come to these recordings; the first one may be cancelled already. -/
  | stopping (rs : List ℕ) (reason : String) (firstCancelled : Bool)
  | over

/-- `RDSSupervisor`: the recordings it has started, in their order, the map of the active ones, and the calls
in flight. -/
structure RDSSupervisor where
  recordings : List RDSRecording := []
  sessions : AList fun _ : UInt32 => ℕ := ∅
  calls : List SupervisorCall := []

namespace RDSSupervisor

variable (s : RDSSupervisor)

/-- A call of `HandleSessionLogon`. -/
def handleSessionLogon (session : WTSSession) : List CoreMessage :=
  if !session.isRDP || !session.isActive then []
  else if session.username = "" then []
  else if (s.sessions.lookup session.sessionID).isSome then []
  else [.rdpSessionStart session.sessionID session.username session.domain session.clientIP session.clientName
    session.protocolType]

/-- The first section of `HandleSessionLogoff`. -/
def handleSessionLogoff (sessionID : UInt32) (reason : String) : RDSSupervisor :=
  match s.sessions.lookup sessionID with
  | none => s
  | some r =>
    { s with sessions := s.sessions.erase sessionID, calls := s.calls ++ [.logoff r reason .cancel] }

/-- The first section of `ApplySessionPolicy`. -/
def applySessionPolicy (p : RDSSessionStartPolicy) : RDSSupervisor :=
  if !p.record || p.ingestToken = "" || p.recorderURL = "" then s
  else if (s.sessions.lookup p.wtsSessionID).isSome then s
  else { s with calls := s.calls ++ [.policyChecked p] }

/-- The configuration of a recorder client. -/
def recorderConfig (p : RDSSessionStartPolicy) : RecorderClientConfig where
  sessionID := p.sessionID
  ingestURL := p.recorderURL
  epoch := 0
  leaseTTL := 0
  maxBatchBytes := 0
  maxQueueBytes := 0
  failurePolicy := if p.failurePolicy = "" then "resilient" else p.failurePolicy
  spooler := true

def setCall (k : ℕ) (c : SupervisorCall) : RDSSupervisor := { s with calls := s.calls.set k c }

/-- The rest of `ApplySessionPolicy`: the recording is made, entered into the map and started. -/
def register (k : ℕ) (p : RDSSessionStartPolicy) (now : ℤ) : RDSSupervisor :=
  match newRecorderClient (recorderConfig p) now with
  | .error _ => s.setCall k .over
  | .ok client =>
    { s.setCall k .over with
      recordings := s.recordings ++
        [{ wtsSessionID := p.wtsSessionID, coreSessionID := p.sessionID, recorder := client }]
      sessions := s.sessions.insert p.wtsSessionID s.recordings.length }

variable (r : ℕ)

def onRecording (f : RDSRecording → RDSRecording) : RDSSupervisor :=
  { s with recordings := s.recordings.modify r f }

/-- The context of a recording is cancelled. -/
def cancel : RDSSupervisor := s.onRecording r fun rec => { rec with cancelled := true }

variable (reason : String)

/-- `Complete` is called on the client of a recording. -/
def complete : RDSSupervisor :=
  s.onRecording r fun rec => { rec with completions := rec.completions ++ [reason] }

/-- `rdp_session_end` is sent for a recording. -/
def announceEnd : RDSSupervisor :=
  s.onRecording r fun rec => { rec with ends := rec.ends ++ [reason] }

/-- The message of `announceEnd`. -/
def endMessage : List CoreMessage :=
  (s.recordings[r]?.map fun rec => .rdpSessionEnd rec.wtsSessionID rec.coreSessionID reason).toList

/-- The deferred function of `runSessionRecording`. -/
def returns (rec : RDSRecording) : RDSSupervisor :=
  { s with
    recordings := s.recordings.set r { rec with returned := true }
    sessions := if s.sessions.lookup rec.wtsSessionID =
      some r then s.sessions.erase rec.wtsSessionID else s.sessions }

/-- The next section of a call. -/
def resume (k : ℕ) (now : ℤ) : SupervisorCall → Option (RDSSupervisor × List CoreMessage)
  | .policyChecked p => some (s.register k p now, [])
  | .syncing (session :: rest) activeIDs =>
    if session.isRDP && session.state = WTSActive && session.username ≠ "" then
      some (s.setCall k (.syncing rest (activeIDs ++ [session.sessionID])), s.handleSessionLogon session)
    else some (s.setCall k (.syncing rest activeIDs), [])
  | .syncing [] _ => none
  | .stale (id :: ids) => some ((s.setCall k (.stale ids)).handleSessionLogoff id "session_inactive", [])
  | .stale [] => some (s.setCall k .over, [])
  | .logoff r reason .cancel => some ((s.setCall k (.logoff r reason .complete)).cancel r, [])
  | .logoff r reason .complete => some ((s.setCall k (.logoff r reason .announce)).complete r reason, [])
  | .logoff r reason .announce => some ((s.setCall k .over).announceEnd r reason, s.endMessage r reason)
  | .stopping (r :: rs) reason false => some ((s.setCall k (.stopping (r :: rs) reason true)).cancel r, [])
  | .stopping (r :: rs) reason true => some ((s.setCall k (.stopping rs reason false)).complete r reason, [])
  | .stopping [] _ _ => some (s.setCall k .over, [])
  | .over => none

/-- The sessions of the map that are not active. -/
def staleIDs (activeIDs : List UInt32) : List UInt32 := s.sessions.keys.filter (· ∉ activeIDs)

/-- The recordings of the map. -/
def active : List ℕ := s.sessions.entries.map (·.2)

end RDSSupervisor

/-- What may happen next. -/
inductive SupervisorAction
  /-- `HandleSessionLogon` is called. -/
  | logon (session : WTSSession)
  /-- `SyncActiveSessions` is called. -/
  | sync (sessions : List WTSSession)
  /-- `SyncActiveSessions` has looked at all sessions, and collects the stale ones in some order. -/
  | collectStale (k : ℕ) (ids : List UInt32)
  /-- `HandleSessionLogoff` is called. -/
  | logoff (sessionID : UInt32) (reason : String)
  /-- `ApplySessionPolicy` is called. -/
  | applyPolicy (p : RDSSessionStartPolicy)
  /-- `StopAll` is called, and collects the recordings in some order. -/
  | stopAll (reason : String) (order : List ℕ)
  /-- `runSessionRecording` returns: the pipe or the capture has ended, the worker could not be started, or
  the context is cancelled. -/
  | returns (r : ℕ)
  /-- A call in flight goes on. -/
  | resume (k : ℕ) (now : ℤ)

/-- The supervisor with its goroutines, in any interleaving. -/
def rdsSupervisor : Machine RDSSupervisor SupervisorAction CoreMessage where
  step s a :=
    match a with
    | .logon session => some (s, s.handleSessionLogon session)
    | .sync sessions => some ({ s with calls := s.calls ++ [.syncing sessions []] }, [])
    | .collectStale k ids =>
      match s.calls[k]? with
      | some (.syncing [] activeIDs) =>
        if ids.Perm (s.staleIDs activeIDs) then some (s.setCall k (.stale ids), []) else none
      | _ => none
    | .logoff sessionID reason => some (s.handleSessionLogoff sessionID reason, [])
    | .applyPolicy p => some (s.applySessionPolicy p, [])
    | .stopAll reason order =>
      if order.Perm s.active then
        some ({ s with sessions := ∅, calls := s.calls ++ [.stopping order reason false] }, [])
      else none
    | .returns r =>
      match s.recordings[r]? with
      | some rec => if rec.returned then none else some (s.returns r rec, [])
      | none => none
    | .resume k now => s.calls[k]?.bind (s.resume k now)

end LigamentApps.LinkAgent
