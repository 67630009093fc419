import Mathlib.Algebra.Group.Nat.Defs
import LigamentApps.ByteStream.Keystream

/-!
# Sealed chunks

`_seal` and `_open` of `link_spool_storage.dart`. A sealed chunk is its nonce of 16 bytes, a tag of 32 bytes
and the ciphertext; the tag is over the nonce and the ciphertext. `hmac` and `sha256` stand for the functions
of `package:crypto`. The loop of `_cryptPayload` xors the payload block by block, and what it leaves is the
payload under one keystream (`_cryptPayload_eq`); `_open` reads inside of the container and takes exactly the
containers whose tag fits (`_open_eq`). -/

namespace LigamentApps.LinkHostRecorder

open ByteStream List

/-- What `sha256` and `Hmac` give: 32 bytes. -/
structure Digest where
  bytes : List UInt8
  length_bytes : bytes.length = 32

/-- The 16 bytes that the random source gives for a chunk. -/
structure Nonce where
  bytes : List UInt8
  length_bytes : bytes.length = 16

/-- `counter.buffer.asByteData().setUint32(0, block, Endian.big)`. -/
def counterBytes (block : ℕ) : List UInt8 :=
  [.ofNat (block / 2 ^ 24), .ofNat (block / 2 ^ 16), .ofNat (block / 2 ^ 8), .ofNat block]

section Crypto

variable (hmac : List UInt8 → List UInt8 → Digest) (sha256 : List UInt8 → Digest)

/-- The loop that stretches a block of the keystream: as many rounds as `j` says. -/
def stretchLoop : ℕ → Digest → List UInt8 → List UInt8
  | 0, _, stretched => stretched
  | j + 1, streamBlock, stretched =>
    let streamBlock := sha256 streamBlock.bytes
    stretchLoop j streamBlock (stretched ++ streamBlock.bytes)

/-- The `stretched` of a block. -/
def stretchedBlock (key iv : List UInt8) (block : ℕ) : List UInt8 :=
  let streamBlock := hmac key (iv ++ counterBytes block)
  stretchLoop sha256 7 streamBlock streamBlock.bytes

theorem length_stretchLoop (j : ℕ) (streamBlock : Digest) (stretched : List UInt8) :
    (stretchLoop sha256 j streamBlock stretched).length = stretched.length + 32 * j := by
  induction j generalizing streamBlock stretched with
  | zero => rfl
  | succ j ih =>
    rw [stretchLoop, ih, length_append, (sha256 streamBlock.bytes).length_bytes]
    omega

theorem length_stretchedBlock (key iv : List UInt8) (block : ℕ) :
    (stretchedBlock hmac sha256 key iv block).length = 256 := by
  rw [stretchedBlock, length_stretchLoop, Digest.length_bytes]

/-- The loop over the `left` bytes of a block that are left from `i` on. -/
def xorLoop (input stretched : List UInt8) (offset : ℕ) :
    ℕ → ℕ → List UInt8 → Except RangeError (List UInt8)
  | 0, _, out => .ok out
  | left + 1, i, out => do
    let a ← readAt input (offset + i)
    let b ← readAt stretched i
    let out ← writeAt out (offset + i) (a ^^^ b)
    xorLoop input stretched offset left (i + 1) out

def cryptLoop (key iv input : List UInt8) (block offset : ℕ) (out : List UInt8) : Except RangeError (List UInt8) :=
  if offset < input.length then
    let stretched := stretchedBlock hmac sha256 key iv block
    let sz := min stretched.length (input.length - offset)
    match xorLoop input stretched offset sz 0 out with
    | .error e => .error e
    | .ok out => cryptLoop key iv input (block + 1) (offset + sz) out
  else .ok out
termination_by input.length - offset
decreasing_by
  have hlength := length_stretchedBlock hmac sha256 key iv block
  omega

def _cryptPayload (key iv input : List UInt8) : Except RangeError (List UInt8) :=
  cryptLoop hmac sha256 key iv input 0 0 (List.replicate input.length 0)

/-- `_seal`, of the nonce that the random source gives. -/
def _seal (key : List UInt8) (iv : Nonce) (plaintext : List UInt8) : Except RangeError (List UInt8) := do
  let ciphertext ← _cryptPayload hmac sha256 key iv.bytes plaintext
  let tag := hmac key (iv.bytes ++ ciphertext)
  return iv.bytes ++ tag.bytes ++ ciphertext

/-- The loop that compares the tags: the `left` bytes from `i` on. -/
def diffLoop (tag expectedTag : List UInt8) : ℕ → ℕ → UInt8 → Except RangeError UInt8
  | 0, _, diff => .ok diff
  | left + 1, i, diff => do
    let a ← readAt tag i
    let b ← readAt expectedTag i
    diffLoop tag expectedTag left (i + 1) (diff ||| (a ^^^ b))

variable (key container : List UInt8)

def _open : Except RangeError (Option (List UInt8)) :=
  if container.length < 48 then .ok none
  else do
    let iv ← slice container 0 16
    let tag ← slice container 16 48
    let ciphertext ← slice container 48 container.length
    let expectedTag := hmac key (iv ++ ciphertext)
    let diff ← diffLoop tag expectedTag.bytes 32 0 0
    if diff ≠ 0 then return none
    return some (← _cryptPayload hmac sha256 key iv ciphertext)

/-! ## The keystream -/

/-- The byte of the keystream at a position: blocks of 256 bytes in a row. -/
def keystream (key iv : List UInt8) (n : ℕ) : UInt8 :=
  (stretchedBlock hmac sha256 key iv (n / 256)).getD (n % 256) 0

theorem xorLoop_spec (input stretched : List UInt8) (offset left i : ℕ) (out : List UInt8)
    (hout : out.length = input.length) (hinput : offset + i + left ≤ input.length)
    (hstretched : i + left ≤ stretched.length) :
    ∃ out', xorLoop input stretched offset left i out = .ok out' ∧ out'.length = input.length ∧
      ∀ n, out'[n]? = if offset + i ≤ n ∧ n < offset + i + left then
        some (input.getD n 0 ^^^ stretched.getD (n - offset) 0) else out[n]? := by
  induction left generalizing i out with
  | zero => exact ⟨out, rfl, hout, fun n => by rw [if_neg (by omega)]⟩
  | succ left ih =>
    have hstep : xorLoop input stretched offset (left + 1) i out =
        xorLoop input stretched offset left (i + 1)
          (out.set (offset + i) (input.getD (offset + i) 0 ^^^ stretched.getD i 0)) := by
      rw [xorLoop, readAt_of_lt (by omega), readAt_of_lt (by omega)]
      show (writeAt out (offset + i) _ >>= _) = _
      rw [writeAt_of_lt (by omega)]
      rfl
    obtain ⟨out', hrun, hlength, hbytes⟩ := ih (i + 1)
      (out.set (offset + i) (input.getD (offset + i) 0 ^^^ stretched.getD i 0))
      (by rw [length_set, hout]) (by omega) (by omega)
    refine ⟨out', hstep.trans hrun, hlength, fun n => ?_⟩
    rw [hbytes n, getElem?_set]
    by_cases hn : n = offset + i
    · -- the byte that this pass writes
      subst hn
      rw [if_neg (by omega), if_pos rfl, if_pos (by omega), if_pos (by omega), Nat.add_sub_cancel_left]
    · rw [if_neg (Ne.symm hn)]
      by_cases hlater : offset + (i + 1) ≤ n ∧ n < offset + (i + 1) + left
      · rw [if_pos hlater, if_pos (by omega)]
      · rw [if_neg hlater, if_neg (by omega)]

theorem cryptLoop_spec (key iv input : List UInt8) (block offset : ℕ) (out : List UInt8)
    (hout : out.length = input.length) (hoffset : offset < input.length → offset = 256 * block)
    (hdone : ∀ n < offset, n < input.length →
      out[n]? = some (input.getD n 0 ^^^ keystream hmac sha256 key iv n)) :
    cryptLoop hmac sha256 key iv input block offset out =
      .ok (underStream (keystream hmac sha256 key iv) input) := by
  induction hleft : input.length - offset using Nat.strongRecOn generalizing block offset out with
  | ind left ih =>
    rw [cryptLoop]
    by_cases hmore : offset < input.length
    · have hblock := hoffset hmore
      have hsize := length_stretchedBlock hmac sha256 key iv block
      obtain ⟨out', hrun, hlength, hbytes⟩ := xorLoop_spec input (stretchedBlock hmac sha256 key iv block) offset
        (min (stretchedBlock hmac sha256 key iv block).length (input.length - offset)) 0 out hout (by omega)
        (by omega)
      rw [if_pos hmore]
      simp only [hrun]
      apply ih _ (by omega) _ _ _ hlength (by omega) ?_ rfl
      intro n hn hlt
      rw [hbytes n]
      by_cases hold : n < offset
      · rw [if_neg (by omega)]
        exact hdone n hold hlt
      · -- a byte of this block
        have hdiv : n / 256 = block := by omega
        have hmod : n % 256 = n - offset := by omega
        rw [if_pos (by omega), keystream, hdiv, hmod]
    · rw [if_neg hmore]
      exact congrArg Except.ok (eq_underStream hout fun n hn => hdone n (by omega) hn)

theorem _cryptPayload_eq (key iv input : List UInt8) :
    _cryptPayload hmac sha256 key iv input = .ok (underStream (keystream hmac sha256 key iv) input) :=
  cryptLoop_spec hmac sha256 key iv input 0 0 _ length_replicate (fun _ => rfl)
    fun n hn => absurd hn (Nat.not_lt_zero n)

/-! ## The container -/

theorem diffLoop_spec (tag expectedTag : List UInt8) (left i : ℕ) (diff : UInt8)
    (htag : i + left ≤ tag.length) (hexpected : i + left ≤ expectedTag.length) :
    ∃ d, diffLoop tag expectedTag left i diff = .ok d ∧
      (d = 0 ↔ diff = 0 ∧ ∀ n, i ≤ n → n < i + left → tag.getD n 0 = expectedTag.getD n 0) := by
  induction left generalizing i diff with
  | zero => exact ⟨diff, rfl, fun h => ⟨h, fun n _ _ => by omega⟩, And.left⟩
  | succ left ih =>
    obtain ⟨d, hrun, hd⟩ := ih (i + 1) (diff ||| (tag.getD i 0 ^^^ expectedTag.getD i 0)) (by omega) (by omega)
    refine ⟨d, ?_, hd.trans ?_⟩
    · rw [diffLoop, readAt_of_lt (by omega), readAt_of_lt (by omega)]
      exact hrun
    · rw [UInt8.or_eq_zero_iff, UInt8.xor_eq_zero_iff]
      constructor
      · rintro ⟨⟨hdiff, hhere⟩, hrest⟩
        refine ⟨hdiff, fun n hle hlt => ?_⟩
        by_cases hn : n = i
        · rw [hn, hhere]
        · exact hrest n (by omega) (by omega)
      · rintro ⟨hdiff, hall⟩
        exact ⟨⟨hdiff, hall i (Nat.le_refl i) (by omega)⟩, fun n hle hlt => hall n (by omega) (by omega)⟩

theorem diffLoop_eq (tag expectedTag : List UInt8) (htag : tag.length = 32)
    (hexpected : expectedTag.length = 32) :
    ∃ d, diffLoop tag expectedTag 32 0 0 = .ok d ∧ (d = 0 ↔ tag = expectedTag) := by
  obtain ⟨d, hrun, hd⟩ := diffLoop_spec tag expectedTag 32 0 0 (by omega) (by omega)
  refine ⟨d, hrun, hd.trans ⟨fun ⟨_, hall⟩ => ?_, fun h => ⟨rfl, fun n _ _ => by rw [h]⟩⟩⟩
  apply ext_getElem (htag.trans hexpected.symm)
  intro n hn hn'
  have hsame := hall n (Nat.zero_le n) (by omega)
  simpa [getD_eq_getElem?_getD, hn, hn'] using hsame

def nonceOf (container : List UInt8) : List UInt8 := container.take 16

def tagOf (container : List UInt8) : List UInt8 := (container.take 48).drop 16

def ciphertextOf (container : List UInt8) : List UInt8 := container.drop 48

theorem parts_of_container (c : List UInt8) : c = nonceOf c ++ tagOf c ++ ciphertextOf c := by
  have hhead : c.take 16 ++ (c.take 48).drop 16 = c.take 48 := by
    have h := take_append_drop 16 (c.take 48)
    rwa [take_take, Nat.min_eq_left (by omega)] at h
  show c = c.take 16 ++ (c.take 48).drop 16 ++ c.drop 48
  rw [hhead, take_append_drop]

/-- A whole container whose tag is the one of its content. -/
def TagFits : Prop :=
  48 ≤ container.length ∧ (hmac key (nonceOf container ++ ciphertextOf container)).bytes = tagOf container

/-- `_open` never reads outside of a container; it gives the ciphertext under the keystream of the nonce where
the tag fits, and nothing elsewhere. -/
theorem _open_eq : (TagFits hmac key container → _open hmac sha256 key container =
      .ok (some (underStream (keystream hmac sha256 key (nonceOf container)) (ciphertextOf container)))) ∧
    (¬ TagFits hmac key container → _open hmac sha256 key container = .ok none) := by
  by_cases hshort : container.length < 48
  · have hnone : _open hmac sha256 key container = .ok none := by rw [_open, if_pos hshort]
    exact ⟨fun h => absurd h.1 (by omega), fun _ => hnone⟩
  · have htag : (tagOf container).length = 32 := by
      unfold tagOf
      rw [length_drop, length_take]
      omega
    have hexpected := (hmac key (nonceOf container ++ ciphertextOf container)).length_bytes
    obtain ⟨d, hrun, hd⟩ := diffLoop_eq (tagOf container)
      (hmac key (nonceOf container ++ ciphertextOf container)).bytes htag hexpected
    have hopen : _open hmac sha256 key container = if d ≠ 0 then .ok none else
        .ok (some (underStream (keystream hmac sha256 key (nonceOf container)) (ciphertextOf container))) := by
      have hnonce : slice container 0 16 = .ok (nonceOf container) :=
        slice_of_le (by omega) (by omega)
      have htagSlice : slice container 16 48 = .ok (tagOf container) :=
        slice_of_le (by omega) (by omega)
      have hciphertext : slice container 48 container.length = .ok (ciphertextOf container) := by
        rw [slice_of_le (by omega) (Nat.le_refl _), take_length]
        rfl
      rw [_open, if_neg hshort, hnonce, htagSlice, hciphertext]
      show (diffLoop (tagOf container) (hmac key (nonceOf container ++ ciphertextOf container)).bytes 32 0 0 >>= _) = _
      rw [hrun]
      show (if d ≠ 0 then (.ok none : Except RangeError (Option (List UInt8))) else
        _cryptPayload hmac sha256 key (nonceOf container) (ciphertextOf container) >>= _) = _
      rw [_cryptPayload_eq]
      rfl
    constructor
    · intro hfits
      rw [hopen, if_neg (not_not.mpr (hd.mpr hfits.2.symm))]
    · intro hno
      rw [hopen, if_pos fun h => hno ⟨by omega, (hd.mp h).symm⟩]

theorem _seal_eq (key : List UInt8) (iv : Nonce) (plaintext : List UInt8) :
    ∃ container, _seal hmac sha256 key iv plaintext = .ok container ∧
      container.length = plaintext.length + 48 ∧ nonceOf container = iv.bytes ∧
      ciphertextOf container = underStream (keystream hmac sha256 key iv.bytes) plaintext ∧
      TagFits hmac key container := by
  have hiv := iv.length_bytes
  set ciphertext := underStream (keystream hmac sha256 key iv.bytes) plaintext with hciphertext
  have htag := (hmac key (iv.bytes ++ ciphertext)).length_bytes
  set container := iv.bytes ++ (hmac key (iv.bytes ++ ciphertext)).bytes ++ ciphertext with hcontainer
  have hseal : _seal hmac sha256 key iv plaintext = .ok container := by
    rw [_seal, _cryptPayload_eq]
    rfl
  have hhead : (iv.bytes ++ (hmac key (iv.bytes ++ ciphertext)).bytes).length = 48 := by
    rw [length_append, hiv, htag]
  have hlength : container.length = plaintext.length + 48 := by
    rw [hcontainer, length_append, hhead, hciphertext, length_underStream, Nat.add_comm]
  have hnonce : nonceOf container = iv.bytes := by
    rw [nonceOf, hcontainer, append_assoc, ← hiv, take_left]
  have hpayload : ciphertextOf container = ciphertext := by
    rw [ciphertextOf, hcontainer, ← hhead, drop_left]
  have hstored : tagOf container = (hmac key (iv.bytes ++ ciphertext)).bytes := by
    rw [tagOf, hcontainer, ← hhead, take_left, ← hiv, drop_left]
  exact ⟨container, hseal, hlength, hnonce, hpayload, by omega, by rw [hnonce, hpayload, hstored]⟩

/-- Opening what was sealed gives the plaintext back, at every length. Any container at all is opened without
reading outside of it, and refused exactly when it is shorter than its head or its tag is not the one of its
content; in particular one that differs from a sealed one only in the tag. -/
theorem sealed_chunk (key : List UInt8) : (∀ (iv : Nonce) (plaintext : List UInt8), ∃ container,
      _seal hmac sha256 key iv plaintext = .ok container ∧
      container.length = plaintext.length + 48 ∧
      _open hmac sha256 key container = .ok (some plaintext) ∧
      ∀ changed, changed.length = container.length → nonceOf changed = nonceOf container →
        ciphertextOf changed = ciphertextOf container → changed ≠ container →
        _open hmac sha256 key changed = .ok none) ∧
    ∀ container, ∃ opened, _open hmac sha256 key container = .ok opened ∧
      (opened = none ↔ container.length < 48 ∨
        (hmac key (nonceOf container ++ ciphertextOf container)).bytes ≠ tagOf container) := by
  constructor
  · intro iv plaintext
    obtain ⟨container, hseal, hlength, hnonce, hciphertext, hfits⟩ := _seal_eq hmac sha256 key iv plaintext
    refine ⟨container, hseal, hlength, ?_, fun changed hsame hnonce' hciphertext' hne => ?_⟩
    · rw [(_open_eq hmac sha256 key container).1 hfits, hnonce, hciphertext, underStream_underStream]
    · apply (_open_eq hmac sha256 key changed).2
      rintro ⟨_, htag⟩
      apply hne
      have htags : tagOf changed = tagOf container := by
        rw [← htag, ← hfits.2, hnonce', hciphertext']
      rw [parts_of_container changed, parts_of_container container, hnonce', htags, hciphertext']
  · intro container
    by_cases hfits : TagFits hmac key container
    · refine ⟨_, (_open_eq hmac sha256 key container).1 hfits, by simp, ?_⟩
      rintro (hshort | htag)
      · exact absurd hfits.1 (by omega)
      · exact absurd hfits.2 htag
    · refine ⟨none, (_open_eq hmac sha256 key container).2 hfits, fun _ => ?_, fun _ => rfl⟩
      by_contra hno
      obtain ⟨hlong, htag⟩ := not_or.mp hno
      exact hfits ⟨Nat.le_of_not_lt hlong, not_not.mp htag⟩

end Crypto

end LigamentApps.LinkHostRecorder
