import Mathlib.Data.List.TakeWhile
import Mathlib.Data.Nat.Bitwise
import Mathlib.Tactic.Linarith

/-!
# The header of an image

`parseImageHeader` of `link_host_recorder.dart`. A read outside of the bytes is `none`: there is none, and of
a JPEG the size is that of its SOF. -/

namespace LigamentApps.LinkHostRecorder.ImageHeader

open List Option

inductive Codec
  | jpeg
  | png
  | webp
  | bmp

structure RecordedFrameInfo where
  payload : List UInt8
  width : ℕ
  height : ℕ
  codec : Codec

section Parser

variable (bytes : List UInt8)

def byteAt (i : ℕ) : Option ℕ := bytes[i]?.map UInt8.toNat

/-- The bytes from an index on are the given ones, read up to the first that differs. -/
def matchesAt : ℕ → List ℕ → Option Bool
  | _, [] => some true
  | i, b :: bs => do if (← byteAt bytes i) = b then matchesAt (i + 1) bs else return false

def png : Option (Option RecordedFrameInfo) := do
  if ← matchesAt bytes 0 [0x89, 0x50, 0x4E, 0x47, 0x0D, 0x0A, 0x1A, 0x0A] then
    if 24 ≤ bytes.length then
      let width := ((← byteAt bytes 16) <<< 24) ||| ((← byteAt bytes 17) <<< 16) ||| ((← byteAt bytes 18) <<< 8) |||
        (← byteAt bytes 19)
      let height := ((← byteAt bytes 20) <<< 24) ||| ((← byteAt bytes 21) <<< 16) ||| ((← byteAt bytes 22) <<< 8) |||
        (← byteAt bytes 23)
      return some ⟨bytes, width, height, .png⟩
    else return none
  else return none

/-- How many fill bytes the inner loop skips. -/
def fills (offset : ℕ) : ℕ := ((bytes.drop offset).takeWhile (· = 0xFF)).length

/-- A marker without a length. -/
def isStandalone (marker : ℕ) : Bool := marker = 0xD8 || marker = 0xD9 || (0xD0 ≤ marker && marker ≤ 0xD7)

def isSof (marker : ℕ) : Bool := marker = 0xC0 || marker = 0xC1 || marker = 0xC2

/-- The loop of the JPEG branch. -/
def jpegFrom (offset : ℕ) : Option (Option RecordedFrameInfo) :=
  if offset + 8 < bytes.length then do
    if (← byteAt bytes offset) ≠ 0xFF then jpegFrom (offset + 1)
    else
      let offset' := offset + fills bytes offset
      if bytes.length ≤ offset' then return none
      else
        let marker ← byteAt bytes offset'
        if isStandalone marker then jpegFrom (offset' + 1)
        else if bytes.length < offset' + 1 + 2 then return none
        else
          let len := ((← byteAt bytes (offset' + 1)) <<< 8) ||| (← byteAt bytes (offset' + 1 + 1))
          if isSof marker ∧ offset' + 1 + 7 ≤ bytes.length then
            let height := ((← byteAt bytes (offset' + 1 + 3)) <<< 8) ||| (← byteAt bytes (offset' + 1 + 4))
            let width := ((← byteAt bytes (offset' + 1 + 5)) <<< 8) ||| (← byteAt bytes (offset' + 1 + 6))
            return some ⟨bytes, width, height, .jpeg⟩
          else jpegFrom (offset' + 1 + len)
  else some none
termination_by bytes.length - offset

def jpeg : Option (Option RecordedFrameInfo) := do
  if ← matchesAt bytes 0 [0xFF, 0xD8] then jpegFrom bytes 2 else return none

def webp : Option (Option RecordedFrameInfo) := do
  if bytes.length < 30 then return none
  else if ← matchesAt bytes 0 [0x52, 0x49, 0x46, 0x46] then
    if ← matchesAt bytes 8 [0x57, 0x45, 0x42, 0x50] then
      if ← matchesAt bytes 12 [0x56, 0x50, 0x38, 0x20] then
        let width := (← byteAt bytes 26) ||| (((← byteAt bytes 27) &&& 0x3F) <<< 8)
        let height := (← byteAt bytes 28) ||| (((← byteAt bytes 29) &&& 0x3F) <<< 8)
        return some ⟨bytes, width, height, .webp⟩
      else if ← matchesAt bytes 12 [0x56, 0x50, 0x38, 0x4C] then
        if ← matchesAt bytes 20 [0x2F] then
          let b1 ← byteAt bytes 21
          let b2 ← byteAt bytes 22
          let b3 ← byteAt bytes 23
          let b4 ← byteAt bytes 24
          return some ⟨bytes, 1 + (((b2 &&& 0x3F) <<< 8) ||| b1),
            1 + (((b4 &&& 0xF) <<< 10) ||| (b3 <<< 2) ||| ((b2 &&& 0xC0) >>> 6)), .webp⟩
        else return none
      else if ← matchesAt bytes 12 [0x56, 0x50, 0x38, 0x58] then
        let width := 1 + ((← byteAt bytes 24) ||| ((← byteAt bytes 25) <<< 8) ||| ((← byteAt bytes 26) <<< 16))
        let height := 1 + ((← byteAt bytes 27) ||| ((← byteAt bytes 28) <<< 8) ||| ((← byteAt bytes 29) <<< 16))
        return some ⟨bytes, width, height, .webp⟩
      else return none
    else return none
  else return none

def bmp : Option (Option RecordedFrameInfo) := do
  if 26 ≤ bytes.length then
    if ← matchesAt bytes 0 [0x42, 0x4D] then
      let width := (← byteAt bytes 18) ||| ((← byteAt bytes 19) <<< 8) ||| ((← byteAt bytes 20) <<< 16) |||
        ((← byteAt bytes 21) <<< 24)
      let height := (← byteAt bytes 22) ||| ((← byteAt bytes 23) <<< 8) ||| ((← byteAt bytes 24) <<< 16) |||
        ((← byteAt bytes 25) <<< 24)
      -- the source makes it negative and takes its absolute value
      let height := if height > 0x7FFFFFFF then 0x100000000 - height else height
      return if 0 < width ∧ 0 < height then some ⟨bytes, width, height, .bmp⟩ else none
    else return none
  else return none

/-- The first format that knows the bytes. -/
def firstOf : List (Option (Option RecordedFrameInfo)) → Option (Option RecordedFrameInfo)
  | [] => some none
  | parsed :: rest => parsed.bind fun info => if info.isSome then some info else firstOf rest

def parseImageHeader : Option (Option RecordedFrameInfo) :=
  if bytes.length < 8 then some none else firstOf [png bytes, jpeg bytes, webp bytes, bmp bytes]

end Parser

/-! ## Reads -/

variable {bytes : List UInt8} {α β : Type}

theorem bind_ne_none {o : Option α} {f : α → Option β} (ho : o ≠ none) (hf : ∀ a, f a ≠ none) : o >>= f ≠ none := by
  cases o with
  | none => contradiction
  | some a => exact hf a

theorem byteAt_ne_none {i : ℕ} (h : i < bytes.length) : byteAt bytes i ≠ none := by
  simp [byteAt, h]

theorem matchesAt_ne_none : ∀ (i : ℕ) (pattern : List ℕ), i + pattern.length ≤ bytes.length →
    matchesAt bytes i pattern ≠ none
  | _, [], _ => some_ne_none _
  | i, b :: bs, h => by
    rw [length_cons] at h
    refine bind_ne_none (byteAt_ne_none (by omega)) fun read => ?_
    split
    · exact matchesAt_ne_none (i + 1) bs (by omega)
    · exact some_ne_none _

theorem png_ne_none (h : 8 ≤ bytes.length) : png bytes ≠ none := by
  refine bind_ne_none (matchesAt_ne_none 0 _ h) fun _ => ?_
  split
  · split
    · repeat refine bind_ne_none (byteAt_ne_none (by omega)) fun _ => ?_
      exact some_ne_none _
    · exact some_ne_none _
  · exact some_ne_none _

theorem jpegFrom_ne_none (offset : ℕ) : jpegFrom bytes offset ≠ none := by
  rw [jpegFrom]
  split
  · refine bind_ne_none (byteAt_ne_none (by omega)) fun _ => ?_
    split
    · exact jpegFrom_ne_none (offset + 1)
    · dsimp only
      split
      · exact some_ne_none _
      · refine bind_ne_none (byteAt_ne_none (by omega)) fun _ => ?_
        split
        · exact jpegFrom_ne_none _
        · split
          · exact some_ne_none _
          · refine bind_ne_none (byteAt_ne_none (by omega))
              fun _ => bind_ne_none (byteAt_ne_none (by omega)) fun _ => ?_
            split
            · repeat refine bind_ne_none (byteAt_ne_none (by omega)) fun _ => ?_
              exact some_ne_none _
            · exact jpegFrom_ne_none _
  · exact some_ne_none _
termination_by bytes.length - offset

theorem webp_ne_none : webp bytes ≠ none := by
  unfold webp
  split
  · exact some_ne_none _
  · repeat' first
      | exact some_ne_none _
      | refine bind_ne_none (byteAt_ne_none (by omega)) fun _ => ?_
      | refine bind_ne_none (matchesAt_ne_none _ _ (by simp; omega)) fun _ => ?_
      | split

theorem bmp_ne_none : bmp bytes ≠ none := by
  unfold bmp
  split
  · refine bind_ne_none (matchesAt_ne_none _ _ (by simp; omega)) fun _ => ?_
    split
    · repeat refine bind_ne_none (byteAt_ne_none (by omega)) fun _ => ?_
      exact some_ne_none _
    · exact some_ne_none _
  · exact some_ne_none _

theorem firstOf_ne_none {parses : List (Option (Option RecordedFrameInfo))} (h : ∀ parsed ∈ parses, parsed ≠ none) :
    firstOf parses ≠ none := by
  induction parses with
  | nil => exact some_ne_none _
  | cons parsed rest ih =>
    obtain ⟨hfirst, hrest⟩ := forall_mem_cons.mp h
    refine bind_ne_none hfirst fun _ => ?_
    split
    · exact some_ne_none _
    · exact ih hrest

/-- Nothing is read outside of the bytes. -/
theorem parseImageHeader_ne_none : parseImageHeader bytes ≠ none := by
  unfold parseImageHeader
  split
  · exact some_ne_none _
  · have hjpeg : jpeg bytes ≠ none := by
      refine bind_ne_none (matchesAt_ne_none 0 _ (by simp; omega)) fun _ => ?_
      split
      · exact jpegFrom_ne_none 2
      · exact some_ne_none _
    refine firstOf_ne_none ?_
    simp [png_ne_none (Nat.le_of_not_lt ‹_›), hjpeg, webp_ne_none, bmp_ne_none]

/-! ## Well-formed prefixes -/

/-- What follows the SOI: segments with their lengths, and an SOF with its size. -/
inductive SofPrefix : List UInt8 → ℕ → ℕ → Prop
  | sof (fill : ℕ) (marker l₁ l₂ precision h₁ h₂ w₁ w₂ : UInt8) (rest : List UInt8) :
    isSof marker.toNat = true →
    SofPrefix (List.replicate (fill + 1) 0xFF ++ marker :: l₁ :: l₂ :: precision :: h₁ :: h₂ :: w₁ :: w₂ :: rest)
      ((w₁.toNat <<< 8) ||| w₂.toNat) ((h₁.toNat <<< 8) ||| h₂.toNat)
  | segment (fill : ℕ) (marker l₁ l₂ : UInt8) (payload : List UInt8) {rest : List UInt8} {width height : ℕ} :
    marker ≠ 0xFF → isStandalone marker.toNat = false → isSof marker.toNat = false →
    (l₁.toNat <<< 8) ||| l₂.toNat = payload.length + 2 → SofPrefix rest width height →
    SofPrefix (List.replicate (fill + 1) 0xFF ++ marker :: l₁ :: l₂ :: (payload ++ rest)) width height

variable {pre tail rest : List UInt8} {fill width height : ℕ} {marker : UInt8}

theorem SofPrefix.length (h : SofPrefix rest width height) : 9 ≤ rest.length := by
  induction h <;> simp <;> omega

theorem byteAt_append (pre tail : List UInt8) (i : ℕ) : byteAt (pre ++ tail) (pre.length + i) = byteAt tail i := by
  unfold byteAt
  rw [getElem?_append_right (Nat.le_add_right _ _), Nat.add_sub_cancel_left]

/-- The loop at the marker of a segment. -/
theorem jpegFrom_marked {l₁ l₂ : UInt8} (hmarker : marker ≠ 0xFF) (halone : isStandalone marker.toNat = false)
    (hbytes : pre ++ (List.replicate (fill + 1) 0xFF ++ marker :: l₁ :: l₂ :: tail) = bytes)
    (htail : 5 ≤ tail.length) :
    jpegFrom bytes pre.length = if isSof marker.toNat = true then do
        let height := ((← byteAt tail 1) <<< 8) ||| (← byteAt tail 2)
        let width := ((← byteAt tail 3) <<< 8) ||| (← byteAt tail 4)
        return some ⟨bytes, width, height, .jpeg⟩
      else jpegFrom bytes (pre.length + (fill + 1) + 1 + ((l₁.toNat <<< 8) ||| l₂.toNat)) := by
  have hread : ∀ i, byteAt bytes (pre.length + (fill + 1) + i) = byteAt (marker :: l₁ :: l₂ :: tail) i := by
    intro i
    have happend := byteAt_append (pre ++ List.replicate (fill + 1) 0xFF) (marker :: l₁ :: l₂ :: tail) i
    rwa [append_assoc, hbytes, length_append, length_replicate] at happend
  have hfirst : byteAt bytes pre.length = some 255 := by
    rw [← hbytes]
    exact byteAt_append pre _ 0
  have hfills : fills bytes pre.length = fill + 1 := by
    rw [← hbytes]
    simp [fills, hmarker]
  have hlength : bytes.length = pre.length + (fill + 1) + 3 + tail.length := by
    rw [← hbytes]
    simp
    omega
  rw [jpegFrom, if_pos (by omega), hfirst, hfills]
  generalize pre.length + (fill + 1) = marked at *
  have hmark : byteAt bytes marked = some marker.toNat := hread 0
  have hhigh : byteAt bytes (marked + 1) = some l₁.toNat := hread 1
  have hlow : byteAt bytes (marked + 1 + 1) = some l₂.toNat := hread 2
  have hsize : ∀ i, byteAt bytes (marked + 1 + (i + 3)) = byteAt tail (i + 1) := fun i => by
    rw [Nat.add_assoc, hread, Nat.add_comm 1]
    rfl
  have hinside : marked + 1 + 7 ≤ bytes.length := by omega
  have hlong : ¬bytes.length ≤ marked ∧ ¬bytes.length < marked + 1 + 2 := by omega
  simp [hmark, halone, hhigh, hlow, hsize 0, hsize 1, hsize 2, hsize 3, hinside, hlong]

theorem jpegFrom_sof (h : SofPrefix rest width height) : ∀ pre : List UInt8,
    jpegFrom (pre ++ rest) pre.length = some (some ⟨pre ++ rest, width, height, .jpeg⟩) := by
  induction h with
  | @sof fill marker l₁ l₂ precision h₁ h₂ w₁ w₂ rest hsof =>
    intro pre
    have hmarker : marker ≠ 0xFF := by
      rintro rfl
      cases hsof
    have halone : isStandalone marker.toNat = false := by
      simp only [isSof, isStandalone, Bool.or_eq_true, decide_eq_true_eq] at hsof ⊢
      rcases hsof with (h | h) | h <;> rw [h] <;> rfl
    rw [jpegFrom_marked hmarker halone rfl (by simp), if_pos hsof]
    rfl
  | @segment fill marker l₁ l₂ payload rest width height hmarker halone hsof hlen hrest ih =>
    intro pre
    have hlong := hrest.length
    have hnext := ih (pre ++ (List.replicate (fill + 1) 0xFF ++ marker :: l₁ :: l₂ :: payload))
    have hoffset : pre.length + (fill + 1) + 1 + (payload.length + 2) =
        (pre ++ (List.replicate (fill + 1) 0xFF ++ marker :: l₁ :: l₂ :: payload)).length := by
      simp
      omega
    rw [jpegFrom_marked hmarker halone rfl (by simp; omega), hsof, hlen, hoffset]
    simpa using hnext

/-- Nothing is read outside of the bytes, and of a JPEG the size is the one in its SOF. -/
theorem parseImageHeader_jpeg : (∀ bytes, parseImageHeader bytes ≠ none) ∧ ∀ rest width height,
    SofPrefix rest width height → parseImageHeader (0xFF :: 0xD8 :: rest) =
      some (some ⟨0xFF :: 0xD8 :: rest, width, height, .jpeg⟩) := by
  refine ⟨fun _ => parseImageHeader_ne_none, fun rest width height h => ?_⟩
  have hlong := h.length
  have hpng : png (0xFF :: 0xD8 :: rest) = some none := rfl
  have hjpeg : jpeg (0xFF :: 0xD8 :: rest) = some (some ⟨0xFF :: 0xD8 :: rest, width, height, .jpeg⟩) :=
    jpegFrom_sof h [0xFF, 0xD8]
  unfold parseImageHeader
  rw [if_neg (by simp; omega), hpng, hjpeg]
  rfl

/-- An APP0 segment with a byte, a fill byte, and an SOF0. -/
theorem parseImageHeader_jpeg_sample : parseImageHeader
    [0xFF, 0xD8, 0xFF, 0xE0, 0, 3, 7, 0xFF, 0xFF, 0xC0, 0, 17, 8, 1, 0, 2, 3] =
      some (some ⟨[0xFF, 0xD8, 0xFF, 0xE0, 0, 3, 7, 0xFF, 0xFF, 0xC0, 0, 17, 8, 1, 0, 2, 3], 515, 256, .jpeg⟩) := by
  have hsof := SofPrefix.sof 1 0xC0 0 17 8 1 0 2 3 [] rfl
  exact parseImageHeader_jpeg.2 _ _ _ (.segment 0 0xE0 0 3 [7] (by decide) rfl rfl rfl hsof)

end LigamentApps.LinkHostRecorder.ImageHeader
