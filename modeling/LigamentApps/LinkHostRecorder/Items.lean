import LigamentApps.Text.JsonSize

/-!
# What the recorder records

The frames and events that `LinkHostRecorder` queues, the batches it sends, and their encoded sizes.
The source keeps all of them as JSON maps. Here they are structures: a frame keeps its payload in
place of the Base64 text, and times are instants (microseconds since 1970) in place of their
ISO 8601 texts. -/

namespace LigamentApps.LinkHostRecorder

/-- The length of `toIso8601String` of an instant in UTC: milliseconds always, microseconds where
there are any, and a sign and two more digits for a year beyond 9999. -/
def iso8601Length (instant : ℤ) : ℕ :=
  (if instant % 1000 = 0 then 24 else 27) + if instant < 253402300800000000 then 0 else 3

/-- The length of the Base64 text of a payload. -/
def base64Length (payload : List UInt8) : ℕ := (payload.length + 2) / 3 * 4

structure Frame where
  seq : ℕ
  frameKind : String
  monitorId : String
  width : ℤ
  height : ℤ
  codec : String
  payload : List UInt8
  capturedAt : ℤ

structure Event where
  seq : ℕ
  eventType : String
  source : String
  occurredAt : ℤ
  metadata : Json

def Event.isGapMarker (e : Event) : Bool := e.eventType = "gap_marker"

/-- A counter in the metadata of a gap marker, zero where it has none. -/
def Event.lossOf (e : Event) (counter : String) : ℤ :=
  match e.metadata.get counter with
  | some (.int n) => n
  | _ => 0

/-- The frame's map without its payload and the text of its time. -/
def Frame.header (f : Frame) : Json :=
  .obj [("seq", .int f.seq), ("frame_kind", .str f.frameKind), ("monitor_id", .str f.monitorId),
    ("width", .int f.width), ("height", .int f.height), ("codec", .str f.codec),
    ("payload_base64", .str ""), ("captured_at", .str "")]

/-- The event's map without the text of its time. -/
def Event.header (e : Event) : Json :=
  .obj [("seq", .int e.seq), ("event_type", .str e.eventType), ("source", .str e.source),
    ("occurred_at", .str ""), ("metadata", e.metadata)]

section Sizes

variable (doubleText : ℚ → String)

/-- `_jsonBytes` of a frame before its payload is put in. -/
def Frame.metadataBytes (f : Frame) : ℕ := f.header.bytes doubleText + iso8601Length f.capturedAt

/-- `_jsonBytes` of a frame. -/
def Frame.jsonBytes (f : Frame) : ℕ := f.metadataBytes doubleText + base64Length f.payload

/-- `_jsonBytes` of an event. -/
def Event.jsonBytes (e : Event) : ℕ := e.header.bytes doubleText + iso8601Length e.occurredAt

end Sizes

/-- A frame or an event. -/
inductive Item
  | frame (f : Frame)
  | event (e : Event)

/-- The sequence number of an item. -/
def Item.seq : Item → ℕ
  | .frame f => f.seq
  | .event e => e.seq

/-- An item and a later state of it: nothing of an item changes, but the metadata of a gap marker. -/
inductive Item.Later : Item → Item → Prop
  | refl (i : Item) : Later i i
  | marker (e : Event) (metadata : Json) :
      e.isGapMarker = true → Later (.event e) (.event { e with metadata := metadata })

/-- A batch, as it is sent and as it is spooled. -/
structure Batch where
  sessionId : String
  epoch : ℤ
  leaseTtlSeconds : ℤ
  frames : List Frame
  events : List Event

def Batch.items (b : Batch) : List Item := b.frames.map .frame ++ b.events.map .event

/-- `_jsonBytes` of a batch without items. -/
def Batch.envelopeBytes (doubleText : ℚ → String) (b : Batch) : ℕ :=
  (Json.obj [("session_id", .str b.sessionId), ("epoch", .int b.epoch),
    ("lease_ttl_seconds", .int b.leaseTtlSeconds), ("frames", .arr []),
    ("events", .arr [])]).bytes doubleText

/-- The bytes of items in a list, with the commas between them. -/
def listBytes (sizes : List ℕ) : ℕ := sizes.sum + (sizes.length - 1)

/-- `_jsonBytes` of a batch. -/
def Batch.jsonBytes (doubleText : ℚ → String) (b : Batch) : ℕ :=
  b.envelopeBytes doubleText + listBytes (b.frames.map (·.jsonBytes doubleText)) +
    listBytes (b.events.map (·.jsonBytes doubleText))

/-- `LinkRecorderBatchAck`. The time is in microseconds, the lease in milliseconds. -/
structure BatchAck where
  ackHighWatermarkSeq : ℤ
  firstFrameAcked : Bool
  leaseExpiresAt : ℤ
  leaseTtlMs : Option ℤ

/-- What `sendBatch` throws. -/
inductive SendError
  /-- A `FormatException`, and whether its message contains `recorder_insecure_ingest`. -/
  | format (insecureIngest : Bool)
  /-- Anything else: no connection, a timeout, an HTTP status. -/
  | other

namespace Item.Later

variable {i j k : Item}

theorem seq_eq (h : Later i j) : j.seq = i.seq := by
  cases h with
  | refl | marker => rfl

theorem trans (hij : Later i j) (hjk : Later j k) : Later i k := by
  cases hij with
  | refl => exact hjk
  | marker e metadata he =>
    generalize hj : Item.event { e with metadata := metadata } = j at hjk
    cases hjk with
    | refl => exact hj ▸ .marker e metadata he
    | marker _ metadata' =>
      cases hj
      exact .marker e metadata' he

theorem sibling (hki : Later k i) (hkj : Later k j) : Later i j := by
  cases hki with
  | refl => exact hkj
  | marker e metadata he =>
    cases hkj with
    | refl => exact .marker { e with metadata := metadata } e.metadata he
    | marker _ metadata' => exact .marker { e with metadata := metadata } metadata' he

theorem eq_of_frame {f : Frame} (h : Later (.frame f) j) : j = .frame f := by
  cases h with
  | refl => rfl

end Item.Later

@[simp] theorem Batch.frame_mem_items {b : Batch} {f : Frame} : .frame f ∈ b.items ↔ f ∈ b.frames := by
  simp [items]

@[simp] theorem Batch.event_mem_items {b : Batch} {e : Event} : .event e ∈ b.items ↔ e ∈ b.events := by
  simp [items]

end LigamentApps.LinkHostRecorder
