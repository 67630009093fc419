import Mathlib.Data.List.AList
import Mathlib.Data.List.Sort
import LigamentApps.Text.Json

/-!
# The agent's spool

`DiskSpooler` of `spool.go`, on the directory of one session: the `.chunk` files by their names. Pruning
for the quota, which spares a session whose id is the listed name of its directory, is left out. -/

namespace LigamentApps.LinkAgent

structure RecordedFrame where
  seq : ℤ
  frameKind : String
  monitorID : String
  width : ℤ
  height : ℤ
  codec : String
  payloadBase64 : String
  capturedAt : String
  windowTitle : String
  processName : String

structure RecordedEvent where
  seq : ℤ
  eventType : String
  actorID : String
  source : String
  occurredAt : String
  metadata : Option Json

/-- The body of a batch, as `Flush` makes it. -/
structure IngestBatch where
  sessionID : String
  epoch : ℤ
  leaseTTLSeconds : ℤ
  frames : List RecordedFrame
  events : List RecordedEvent

/-- `SpooledBatch`, as it is stored. -/
structure SpooledBatch where
  sessionID : String
  batchIndex : ℕ
  createdAt : ℤ
  payload : IngestBatch

/-- The name of a chunk: `%012d.chunk`. -/
def chunkName (batchIndex : ℕ) : String :=
  String.ofList (List.replicate (12 - (Nat.toDigits 10 batchIndex).length) '0' ++ Nat.toDigits 10 batchIndex) ++
    ".chunk"

theorem chunkName_injective : Function.Injective chunkName := by
  have hvalue : ∀ n, Nat.ofDigitChars 10
      (List.replicate (12 - (Nat.toDigits 10 n).length) '0' ++ Nat.toDigits 10 n) 0 = n := by
    intro n
    rw [Nat.ofDigitChars_append, Nat.ofDigitChars_replicate_zero, Nat.mul_zero, Nat.ofDigitChars_ten_toDigits]
  intro m n h
  have hchars := congrArg String.toList h
  unfold chunkName at hchars
  simp only [String.toList_append, String.toList_ofList] at hchars
  have hdigits := List.append_cancel_right hchars
  rw [← hvalue m, hdigits, hvalue]

/-- The directory of a session. A file that does not decode holds no record. -/
abbrev ChunkDir : Type := AList fun _ : String => Option SpooledBatch

namespace ChunkDir

/-- `WriteBatch`: the record is written and renamed to its name. -/
def writeBatch (d : ChunkDir) (record : SpooledBatch) : ChunkDir :=
  d.insert (chunkName record.batchIndex) (some record)

/-- What `ReadPendingBatches` reads of a file; `readable` is whether it can be read. -/
def readChunk (readable : String → Bool) (file : Sigma fun _ : String => Option SpooledBatch) :
    Option (String × SpooledBatch) :=
  if readable file.1 then file.2.map fun record => (file.1, record) else none

/-- `ReadPendingBatches`: the records with their paths, in the order of their indices. -/
def readPendingBatches (d : ChunkDir) (readable : String → Bool) : List (String × SpooledBatch) :=
  (d.entries.filterMap (readChunk readable)).insertionSort fun a b => a.2.batchIndex ≤ b.2.batchIndex

/-- `RemoveBatch`; `ok` is whether the file could be deleted. -/
def removeBatch (d : ChunkDir) (name : String) (ok : Bool) : ChunkDir := if ok then d.erase name else d

/-- `RemoveSession`; `names` are the files that could be deleted. -/
def removeSession (d : ChunkDir) (names : List String) : ChunkDir := names.foldl (fun d name => d.erase name) d

variable {d : ChunkDir} {name : String} {record : SpooledBatch} {readable : String → Bool}

theorem mem_readPendingBatches : (name, record) ∈ d.readPendingBatches readable ↔
    readable name = true ∧ d.lookup name = some (some record) := by
  unfold readPendingBatches
  rw [List.mem_insertionSort, List.mem_filterMap]
  constructor
  · rintro ⟨⟨file, content⟩, hfile, hread⟩
    unfold readChunk at hread
    split at hread
    · rename_i hreadable
      obtain ⟨found, rfl, hpair⟩ := Option.map_eq_some_iff.mp hread
      cases hpair
      exact ⟨hreadable, AList.mem_lookup_iff.mpr hfile⟩
    · simp at hread
  · rintro ⟨hreadable, hlookup⟩
    refine ⟨⟨name, some record⟩, AList.mem_lookup_iff.mp hlookup, ?_⟩
    unfold readChunk
    rw [if_pos hreadable]
    rfl

theorem lookup_writeBatch_self : (d.writeBatch record).lookup (chunkName record.batchIndex) = some (some record) :=
  AList.lookup_insert d

theorem lookup_writeBatch_of_ne (h : name ≠ chunkName record.batchIndex) :
    (d.writeBatch record).lookup name = d.lookup name :=
  AList.lookup_insert_ne h

theorem lookup_removeBatch_of_ne {other : String} {ok : Bool} (h : name ≠ other) :
    (d.removeBatch other ok).lookup name = d.lookup name := by
  unfold removeBatch
  split
  · exact AList.lookup_erase_ne h
  · rfl

theorem lookup_of_removeBatch {other : String} {ok : Bool} {content : Option SpooledBatch}
    (h : (d.removeBatch other ok).lookup name = some content) : d.lookup name = some content := by
  by_cases hname : name = other
  · unfold removeBatch at h
    split at h
    · rw [hname, AList.lookup_erase] at h
      simp at h
    · exact h
  · rw [← h]
    exact (lookup_removeBatch_of_ne hname).symm

theorem lookup_of_removeSession {names : List String} {content : Option SpooledBatch}
    (h : (d.removeSession names).lookup name = some content) : d.lookup name = some content := by
  induction names generalizing d with
  | nil => exact h
  | cons first _ ih =>
    have hrest : (d.removeBatch first true).lookup name = some content := ih h
    exact lookup_of_removeBatch hrest

end ChunkDir

end LigamentApps.LinkAgent
