import Mathlib.Data.List.Basic

/-!
# Keystreams and checked bytes

Reading, writing and slicing bytes with the range checked, and the bytes under a keystream: each is xored with
the byte of the stream at its position. The keystream applied twice is nothing (`underStream_underStream`),
and bytes are under a keystream as soon as each of them is (`eq_underStream`). -/

namespace LigamentApps.ByteStream

/-- An index outside of the bytes that it is taken in. -/
structure RangeError where
  index : ℕ
  length : ℕ

/-- `bytes[index]`. -/
def readAt (bytes : List UInt8) (index : ℕ) : Except RangeError UInt8 :=
  match bytes[index]? with
  | some byte => .ok byte
  | none => .error ⟨index, bytes.length⟩

/-- `bytes[index] = byte`. -/
def writeAt (bytes : List UInt8) (index : ℕ) (byte : UInt8) : Except RangeError (List UInt8) :=
  if index < bytes.length then .ok (bytes.set index byte) else .error ⟨index, bytes.length⟩

/-- The bytes from `start` up to `stop`. -/
def slice (bytes : List UInt8) (start stop : ℕ) : Except RangeError (List UInt8) :=
  if stop < start ∨ bytes.length < stop then .error ⟨stop, bytes.length⟩
  else .ok ((bytes.take stop).drop start)

def underStream (ks : ℕ → UInt8) (bytes : List UInt8) : List UInt8 := bytes.mapIdx fun n byte => byte ^^^ ks n

variable {bytes out : List UInt8} {index start stop : ℕ} {ks : ℕ → UInt8}

theorem readAt_of_lt (h : index < bytes.length) : readAt bytes index = .ok (bytes.getD index 0) := by
  unfold readAt
  rw [List.getD_eq_getElem?_getD, List.getElem?_eq_getElem h]
  rfl

theorem writeAt_of_lt (h : index < bytes.length) (byte : UInt8) :
    writeAt bytes index byte = .ok (bytes.set index byte) := by
  rw [writeAt, if_pos h]

theorem slice_of_le (hstart : start ≤ stop) (hstop : stop ≤ bytes.length) :
    slice bytes start stop = .ok ((bytes.take stop).drop start) := by
  rw [slice, if_neg (by omega)]

@[simp] theorem length_underStream : (underStream ks bytes).length = bytes.length := by
  simp [underStream]

theorem getElem?_underStream (n : ℕ) : (underStream ks bytes)[n]? = bytes[n]?.map fun byte => byte ^^^ ks n := by
  simp [underStream]

/-- The same stream twice gives the bytes back. -/
theorem underStream_underStream : underStream ks (underStream ks bytes) = bytes := by
  apply List.ext_getElem?
  intro n
  rw [getElem?_underStream, getElem?_underStream]
  cases bytes[n]? with
  | none => rfl
  | some byte =>
    show some (byte ^^^ ks n ^^^ ks n) = some byte
    rw [UInt8.xor_assoc, UInt8.xor_self, UInt8.xor_zero]

/-- A loop that has xored every byte has computed `underStream`. -/
theorem eq_underStream (hlength : out.length = bytes.length)
    (h : ∀ n < bytes.length, out[n]? = some (bytes.getD n 0 ^^^ ks n)) : out = underStream ks bytes := by
  apply List.ext_getElem?
  intro n
  rw [getElem?_underStream]
  by_cases hn : n < bytes.length
  · rw [h n hn, List.getD_eq_getElem?_getD, List.getElem?_eq_getElem hn]
    rfl
  · rw [List.getElem?_eq_none (by omega), List.getElem?_eq_none (by omega)]
    rfl

end LigamentApps.ByteStream
