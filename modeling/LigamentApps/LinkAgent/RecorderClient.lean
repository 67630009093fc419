import LigamentApps.LinkAgent.DiskSpooler

/-!
# The agent's recorder client

`RecorderClient` of `recorder_client.go`, call by call. What the outside world decides in a call is its
`Outcomes`: the answers to the requests, whether the body can be encoded, and which files can be listed,
read, written and deleted. Times are in microseconds; of the JSON of an ACK only what the client reads or
writes itself is kept. -/

namespace LigamentApps.LinkAgent

/-- `RecorderClientConfig`; `spooler` stands for whether there is a `Spooler`. -/
structure RecorderClientConfig where
  sessionID : String
  ingestURL : String
  epoch : ℤ
  leaseTTL : ℤ
  maxBatchBytes : ℤ
  maxQueueBytes : ℤ
  failurePolicy : String
  spooler : Bool

structure BatchACK where
  sessionID : String := ""
  epoch : ℤ := 0
  ackHighWatermarkSeq : ℤ := 0
  status : String := ""

/-- A frame or an event. -/
inductive RecordedItem
  | frame (f : RecordedFrame)
  | event (e : RecordedEvent)

def RecordedItem.seq : RecordedItem → ℤ
  | .frame f => f.seq
  | .event e => e.seq

def itemsOf (frames : List RecordedFrame) (events : List RecordedEvent) : List RecordedItem :=
  frames.map .frame ++ events.map .event

def IngestBatch.items (b : IngestBatch) : List RecordedItem := itemsOf b.frames b.events

structure RecorderClient where
  cfg : RecorderClientConfig
  seqCounter : ℤ := 0
  spoolIndex : ℕ := 0
  ackedSeq : ℤ := 0
  pendingFrames : List RecordedFrame := []
  pendingEvents : List RecordedEvent := []
  queuedBytes : ℤ := 0
  /-- `lastAckAt`, unless it is zero. -/
  lastAckAt : Option ℤ := none
  startedAt : ℤ
  closed : Bool := false

/-- The errors of `NewRecorderClient`. -/
inductive NewClientError
  | missingSessionID
  | missingIngestURL

def NewClientError.text : NewClientError → String
  | .missingSessionID => "recorder client: missing session_id"
  | .missingIngestURL => "recorder client: missing ingest_url"

/-- The defaults of `NewRecorderClient`. -/
def RecorderClientConfig.withDefaults (cfg : RecorderClientConfig) : RecorderClientConfig :=
  { cfg with
    epoch := if cfg.epoch ≤ 0 then 1 else cfg.epoch
    leaseTTL := if cfg.leaseTTL ≤ 0 then 60000000 else cfg.leaseTTL
    maxBatchBytes := if cfg.maxBatchBytes ≤ 0 then 2 * 1024 * 1024 else cfg.maxBatchBytes
    maxQueueBytes := if cfg.maxQueueBytes ≤ 0 then 64 * 1024 * 1024 else cfg.maxQueueBytes
    failurePolicy := if cfg.failurePolicy = "" then "resilient" else cfg.failurePolicy }

def newRecorderClient (cfg : RecorderClientConfig) (now : ℤ) : Except NewClientError RecorderClient :=
  if cfg.sessionID = "" then .error .missingSessionID
  else if cfg.ingestURL = "" then .error .missingIngestURL
  else .ok { cfg := cfg.withDefaults, startedAt := now }

inductive ResponseBody
  | unreadable
  | ack (a : BatchACK)
  /-- No JSON of an ACK. -/
  | other

/-- What comes of a request with a batch. -/
inductive PostOutcome
  /-- There is no response. -/
  | failed
  | response (statusCode : ℤ) (body : ResponseBody)

/-- What `drainSpool` meets, by the names of the chunks. -/
structure DrainOutcomes where
  /-- The directory can be listed. -/
  lists : Bool
  readable : String → Bool
  /-- The context is not done when the turn of a chunk comes. -/
  alive : String → Bool
  posts : String → PostOutcome
  removes : String → Bool

/-- What `Flush` meets. -/
structure FlushOutcomes where
  now : ℤ
  /-- The body can be encoded. -/
  marshals : Bool
  post : PostOutcome
  /-- The chunk can be written. -/
  writes : Bool
  drain : DrainOutcomes

/-- What `Complete` meets. -/
structure CompleteOutcomes where
  flush : FlushOutcomes
  drain : DrainOutcomes
  /-- The status of the response to the complete request, if there is a response. -/
  response : Option ℤ
  /-- The files that are deleted when the directory is. -/
  deletes : List String

/-- The errors of `Flush`. -/
inductive FlushError
  | drain
  | marshal
  | sendFailed

/-- A client with the directory of its session. The rest is kept for the proofs only: the accepted items, the
batches that the server answered with a 2xx status, and the chunks that were written and not yet answered
so. -/
structure Recording where
  client : RecorderClient
  disk : ChunkDir := ∅
  accepted : List RecordedItem := []
  answered : List IngestBatch := []
  unsent : List (String × SpooledBatch) := []

namespace Recording

variable (s : Recording)

def pending : List RecordedItem := itemsOf s.client.pendingFrames s.client.pendingEvents

/-- The number of a new item: `NextSeq` where it has none. -/
def numbered (seq : ℤ) : ℤ := if seq ≤ 0 then s.client.seqCounter + 1 else seq

/-- The counter after a new item. -/
def seqCounterAfter (seq : ℤ) : ℤ := if seq ≤ 0 then s.client.seqCounter + 1 else s.client.seqCounter

variable (f : RecordedFrame)

/-- The bytes that a frame takes in the queue. -/
def queueBytes : ℤ :=
  (f.payloadBase64.utf8ByteSize + f.windowTitle.utf8ByteSize + f.processName.utf8ByteSize + 128 : ℕ)

/-- The frame that `EnqueueFrame` makes of its argument; `now` is the time as text. -/
def completed (now : String) : RecordedFrame :=
  { f with
    seq := s.numbered f.seq
    monitorID := if f.monitorID = "" then "primary" else f.monitorID
    capturedAt := if f.capturedAt = "" then now else f.capturedAt }

def enqueueFrame (now : String) : Recording × Bool :=
  if s.client.closed then (s, false)
  else if s.client.cfg.maxQueueBytes < s.client.queuedBytes + queueBytes f ∧ f.frameKind = "periodic" then
    ({ s with client.seqCounter := s.seqCounterAfter f.seq }, false)
  else
    ({ s with
      client.seqCounter := s.seqCounterAfter f.seq
      client.pendingFrames := s.client.pendingFrames ++ [s.completed f now]
      client.queuedBytes := s.client.queuedBytes + queueBytes f
      accepted := s.accepted ++ [.frame (s.completed f now)] }, true)

/-- The event that `EnqueueEvent` makes of its argument. -/
def completedEvent (e : RecordedEvent) (now : String) : RecordedEvent :=
  { e with
    seq := s.numbered e.seq
    occurredAt := if e.occurredAt = "" then now else e.occurredAt }

def enqueueEvent (e : RecordedEvent) (now : String) : Recording :=
  if s.client.closed then s
  else
    { s with
      client.seqCounter := s.seqCounterAfter e.seq
      client.pendingEvents := s.client.pendingEvents ++ [s.completedEvent e now]
      client.queuedBytes := s.client.queuedBytes + 256
      accepted := s.accepted ++ [.event (s.completedEvent e now)] }

def postBatchHTTP (cfg : RecorderClientConfig) : PostOutcome → Option BatchACK
  | .failed => none
  | .response _ .unreadable => none
  | .response statusCode (.ack a) => if statusCode < 200 ∨ 300 ≤ statusCode then none else some a
  | .response statusCode .other =>
    if statusCode < 200 ∨ 300 ≤ statusCode then none
    else some { sessionID := cfg.sessionID, epoch := cfg.epoch, status := "ok" }

/-- The watermark after an ACK. -/
def noteAck (ack : BatchACK) : Recording :=
  { s with client.ackedSeq := max s.client.ackedSeq ack.ackHighWatermarkSeq }

def answer (b : IngestBatch) : Recording := { s with answered := s.answered ++ [b] }

/-- The server has answered a chunk, which is deleted where that is possible. -/
def uploaded (name : String) (record : SpooledBatch) (removed : Bool) : Recording :=
  { s with
    disk := s.disk.removeBatch name removed
    answered := s.answered ++ [record.payload]
    unsent := s.unsent.filter (·.1 ≠ name) }

/-- The loop of `drainSpool`; the second component is whether it ends without an error. -/
def drainBatches (o : DrainOutcomes) : List (String × SpooledBatch) → Recording → Recording × Bool
  | [], s => (s, true)
  | (name, record) :: batches, s =>
    if o.alive name then
      match postBatchHTTP s.client.cfg (o.posts name) with
      | some ack => drainBatches o batches ((s.noteAck ack).uploaded name record (o.removes name))
      | none => (s, false)
    else (s, false)

def drainSpool (o : DrainOutcomes) : Recording × Bool :=
  if s.client.cfg.spooler then
    if o.lists then drainBatches o (s.disk.readPendingBatches o.readable) s else (s, false)
  else (s, true)

/-- The items at the head of a list that a batch takes: the first one in any case, and as many more as fit
into its bytes. The second component is the size of the batch with them. -/
def fitting {α : Type} (size : α → ℤ) (maxBytes : ℤ) : Bool → ℤ → List α → List α × ℤ
  | _, bytes, [] => ([], bytes)
  | isFirst, bytes, x :: xs =>
    if !isFirst && maxBytes < bytes + size x then ([], bytes)
    else
      let rest := fitting size maxBytes false (bytes + size x) xs
      (x :: rest.1, rest.2)

/-- The frames of the next batch, with its size. -/
def nextFrames : List RecordedFrame × ℤ :=
  fitting (fun f => (f.payloadBase64.utf8ByteSize + 128 : ℕ)) s.client.cfg.maxBatchBytes true 128
    s.client.pendingFrames

/-- The events of the next batch, with its size. -/
def nextEvents : List RecordedEvent × ℤ :=
  fitting (fun _ => 256) s.client.cfg.maxBatchBytes true s.nextFrames.2 s.client.pendingEvents

def batch (frames : List RecordedFrame) (events : List RecordedEvent) : IngestBatch where
  sessionID := s.client.cfg.sessionID
  epoch := s.client.cfg.epoch
  leaseTTLSeconds := s.client.cfg.leaseTTL / 1000000
  frames := frames
  events := events

/-- The next batch leaves the queue. -/
def popped : Recording :=
  { s with
    client.pendingFrames := s.client.pendingFrames.drop s.nextFrames.1.length
    client.pendingEvents := s.client.pendingEvents.drop s.nextEvents.1.length
    client.queuedBytes := max 0 (s.client.queuedBytes - s.nextEvents.2) }

/-- The batch that `Flush` makes. -/
def nextBatch : IngestBatch := s.batch s.nextFrames.1 s.nextEvents.1

def spooled (now : ℤ) (b : IngestBatch) : Recording :=
  let record : SpooledBatch :=
    { sessionID := s.client.cfg.sessionID, batchIndex := s.client.spoolIndex + 1, createdAt := now, payload := b }
  { s with
    client.spoolIndex := s.client.spoolIndex + 1
    disk := s.disk.writeBatch record
    unsent := s.unsent ++ [(chunkName record.batchIndex, record)] }

variable (o : FlushOutcomes)

/-- `Flush` after a failed request. -/
def fallBack (b : IngestBatch) : Recording × Option FlushError :=
  if s.client.cfg.spooler && o.writes then (s.spooled o.now b, none)
  else
    ({ s with client.spoolIndex := if s.client.cfg.spooler then s.client.spoolIndex + 1 else s.client.spoolIndex },
      if s.client.cfg.failurePolicy = "strict" then some .sendFailed else none)

/-- `Flush` with a batch that has left the queue. -/
def sendBatch (b : IngestBatch) : Recording × Option FlushError :=
  if o.marshals then
    match postBatchHTTP s.client.cfg o.post with
    | some ack =>
      (((({ s with client.lastAckAt := some o.now } : Recording).noteAck ack).answer b).drainSpool o.drain |>.1,
        none)
    | none => s.fallBack o b
  else (s, some .marshal)

/-- The last ACK is so long ago that an empty batch keeps the lease alive. -/
def keepaliveDue (now : ℤ) : Bool :=
  !s.client.closed && 20000000 ≤ now - s.client.lastAckAt.getD s.client.startedAt

/-- `Flush` without pending items. -/
def flushEmpty : Recording × Option FlushError :=
  let t := s.drainSpool o.drain
  if !t.2 then (t.1, some .drain)
  else if s.keepaliveDue o.now && (postBatchHTTP s.client.cfg o.post).isSome then
    ({ t.1 with client.lastAckAt := some o.now }, none)
  else (t.1, none)

def flush : Recording × Option FlushError :=
  if s.client.pendingFrames.isEmpty && s.client.pendingEvents.isEmpty then s.flushEmpty o
  else s.popped.sendBatch o s.nextBatch

/-- `Complete` up to its request. -/
def lastUploads (o : CompleteOutcomes) : Recording :=
  ((({ s with client.closed := true } : Recording).flush o.flush).1.drainSpool o.drain).1

def complete (o : CompleteOutcomes) : Recording :=
  match o.response with
  | some _ =>
    if s.client.cfg.spooler then
      { s.lastUploads o with disk := (s.lastUploads o).disk.removeSession o.deletes }
    else s.lastUploads o
  | none => s.lastUploads o

end Recording

end LigamentApps.LinkAgent
