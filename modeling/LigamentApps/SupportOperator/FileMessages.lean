import LigamentApps.SupportService.FileRoundTrip

/-!
# The messages of a file on their way

The chunks of a file and its last message, as they are left to be sent and delivered, one after another. -/

namespace LigamentApps.SupportOperator

open LinkHost LinkHostRecorder SupportService

def messagesFrom (id checksum : String) (bytes : List UInt8) (i : ℕ) : List Json :=
  (List.range' i (totalChunksOf bytes.length - i)).map (fun j => fileChunk id j (Base64.encode (chunkOf bytes j))) ++
    [fileEnd id checksum]

/-- How much there is in what is to be sent and to be delivered; a message makes its receiver do less than it
weighs. -/
@[irreducible] def weight (unsent channel : List Json) : ℕ :=
  (2 * unsent.length + channel.length) * (chunkSize + 10)

variable {id checksum : String} {bytes : List UInt8} {i : ℕ} {unsent channel rest left : List Json} {message : Json}

theorem messagesFrom_lt (hi : i < totalChunksOf bytes.length) : messagesFrom id checksum bytes i =
    fileChunk id i (Base64.encode (chunkOf bytes i)) :: messagesFrom id checksum bytes (i + 1) := by
  have hleft : totalChunksOf bytes.length - i = totalChunksOf bytes.length - (i + 1) + 1 := by omega
  unfold messagesFrom
  rw [hleft, List.range'_succ]
  rfl

theorem messagesFrom_end (id checksum : String) (bytes : List UInt8) :
    messagesFrom id checksum bytes (totalChunksOf bytes.length) = [fileEnd id checksum] := by
  unfold messagesFrom
  rw [Nat.sub_self]
  rfl

theorem messagesFrom_ne_nil (id checksum : String) (bytes : List UInt8) (i : ℕ) :
    messagesFrom id checksum bytes i ≠ [] := by
  unfold messagesFrom
  simp

theorem take_chunkOf (bytes : List UInt8) (i : ℕ) :
    bytes.take (i * chunkSize) ++ chunkOf bytes i = bytes.take ((i + 1) * chunkSize) := by
  rw [Nat.add_mul, Nat.one_mul, List.take_add]
  rfl

theorem take_totalChunksOf (bytes : List UInt8) : bytes.take (totalChunksOf bytes.length * chunkSize) = bytes :=
  List.take_of_length_le (le_totalChunksOf bytes.length)

theorem weight_sends (message : Json) (rest channel : List Json) :
    weight rest (channel ++ [message]) < weight (message :: rest) channel := by
  have hlt : 2 * rest.length + (channel ++ [message]).length < 2 * (message :: rest).length + channel.length := by
    rw [List.length_append]
    simp only [List.length_cons, List.length_nil]
    omega
  unfold weight
  exact Nat.mul_lt_mul_of_pos_right hlt (by omega)

theorem weight_delivers (message : Json) (unsent rest : List Json) :
    weight unsent rest + (chunkSize + 10) = weight unsent (message :: rest) := by
  unfold weight
  have hone := Nat.add_one_mul (2 * unsent.length + rest.length) (chunkSize + 10)
  exact hone.symm

theorem sends_left (channel rest : List Json) (message : Json) :
    (channel ++ [message]) ++ rest = channel ++ message :: rest :=
  List.append_assoc ..

end LigamentApps.SupportOperator
