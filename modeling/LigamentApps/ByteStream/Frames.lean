import Mathlib.Algebra.Ring.Int.Defs
import Mathlib.Algebra.Ring.Nat
import Mathlib.Data.List.Basic

/-!
# Frames in a stream of bytes

A frame is its length in four bytes, the highest first, and its payload. A stream of frames may be cut
anywhere: what has come of it is whole frames and a part of the next one (`exists_whole`), and the headers
tell how many are whole (`wholeFrames_append`). -/

namespace LigamentApps.ByteStream

open List

/-- The header of a frame: its length in four bytes, the highest first. -/
def frameHeader (length : ℕ) : List UInt8 :=
  [.ofNat (length / 2 ^ 24), .ofNat (length / 2 ^ 16), .ofNat (length / 2 ^ 8), .ofNat length]

/-- A frame: its header and its payload. -/
def frameBytes (data : List UInt8) : List UInt8 := frameHeader data.length ++ data

def headerLength : List UInt8 → ℕ
  | a :: b :: c :: d :: _ => a.toNat * 2 ^ 24 + b.toNat * 2 ^ 16 + c.toNat * 2 ^ 8 + d.toNat
  | _ => 0

def framesBytes (frames : List (List UInt8)) : List UInt8 := (frames.map frameBytes).flatten

/-- How many whole frames the bytes begin with; of the fuel, there is one for each frame. -/
def wholeFrames : ℕ → List UInt8 → ℕ
  | 0, _ => 0
  | fuel + 1, bytes =>
    if bytes.length < 4 ∨ bytes.length < headerLength bytes + 4 then 0
    else wholeFrames fuel (bytes.drop (headerLength bytes + 4)) + 1

variable {data : List UInt8} {frames : List (List UInt8)}

/-! ## One frame -/

@[simp] theorem length_frameHeader (length : ℕ) : (frameHeader length).length = 4 := rfl

@[simp] theorem length_frameBytes (data : List UInt8) : (frameBytes data).length = data.length + 4 := by
  unfold frameBytes
  rw [length_append, length_frameHeader, Nat.add_comm]

theorem frameBytes_ne_nil (data : List UInt8) : frameBytes data ≠ [] := by
  intro hnil
  have hlength := length_frameBytes data
  rw [hnil, length_nil] at hlength
  omega

theorem headerLength_append {got : List UInt8} (hgot : 4 ≤ got.length) (more : List UInt8) :
    headerLength (got ++ more) = headerLength got := by
  rcases got with _ | ⟨a, _ | ⟨b, _ | ⟨c, _ | ⟨d, rest⟩⟩⟩⟩
  · simp at hgot
  · simp at hgot
  · simp at hgot
  · simp at hgot
  · rfl

/-- A header says the length it was made for. -/
theorem headerLength_frameHeader {length : ℕ} (h : length < 2 ^ 32) :
    headerLength (frameHeader length) = length := by
  unfold frameHeader headerLength
  simp only [UInt8.toNat_ofNat']
  omega

/-- A frame says the length of its data, whatever follows. -/
theorem headerLength_frameBytes (h : data.length < 2 ^ 32) (more : List UInt8) :
    headerLength (frameBytes data ++ more) = data.length := by
  unfold frameBytes
  rw [append_assoc, headerLength_append (Nat.le_of_eq (length_frameHeader data.length).symm),
    headerLength_frameHeader h]

theorem take_frameBytes (data more : List UInt8) :
    (frameBytes data ++ more).take (data.length + 4) = frameBytes data :=
  take_left' (length_frameBytes data)

theorem drop_frameBytes (data more : List UInt8) : (frameBytes data ++ more).drop (data.length + 4) = more :=
  drop_left' (length_frameBytes data)

theorem payload_frameBytes (data : List UInt8) : (frameBytes data).drop 4 = data :=
  drop_left' (length_frameHeader _)

/-! ## Frames in a row -/

@[simp] theorem framesBytes_nil : framesBytes [] = [] := rfl

@[simp] theorem framesBytes_cons (data : List UInt8) (frames : List (List UInt8)) :
    framesBytes (data :: frames) = frameBytes data ++ framesBytes frames := rfl

theorem length_framesBytes_le (frames : List (List UInt8)) : frames.length ≤ (framesBytes frames).length := by
  induction frames with
  | nil => exact Nat.le_refl 0
  | cons =>
    rw [framesBytes_cons, length_append, length_frameBytes, length_cons]
    omega

/-- The bytes are less than the first of the frames. -/
def IsPart (bytes : List UInt8) : List (List UInt8) → Prop
  | [] => bytes = []
  | data :: _ => ∃ rest, rest ≠ [] ∧ frameBytes data = bytes ++ rest

theorem isPart_nil : ∀ frames : List (List UInt8), IsPart [] frames
  | [] => rfl
  | data :: _ => ⟨frameBytes data, frameBytes_ne_nil data, rfl⟩

/-- A part of a frame has no whole header, or one that says more than has come. -/
theorem IsPart.header {bytes : List UInt8} (h : IsPart bytes frames)
    (hsized : ∀ data ∈ frames, data.length < 2 ^ 32) :
    bytes.length < 4 ∨ ∃ data ∈ frames, headerLength bytes = data.length ∧ bytes.length < data.length + 4 := by
  by_cases hshort : bytes.length < 4
  · exact .inl hshort
  · cases frames with
    | nil =>
      have hnil : bytes = [] := h
      exact absurd (by simp [hnil]) hshort
    | cons data =>
      obtain ⟨rest, hrest, hdata⟩ := h
      have hheader : headerLength (frameBytes data ++ []) = data.length :=
        headerLength_frameBytes (hsized data mem_cons_self) []
      have hlength := congrArg List.length hdata
      rw [length_frameBytes, length_append] at hlength
      rw [append_nil, hdata, headerLength_append (by omega)] at hheader
      have hpos : 0 < rest.length := length_pos_iff.mpr hrest
      exact .inr ⟨data, mem_cons_self, hheader, by omega⟩

/-- What has come of a stream of frames is whole frames and a part of the rest. -/
theorem exists_whole : ∀ (frames : List (List UInt8)) {bytes rest : List UInt8}, bytes ++ rest =
    framesBytes frames → ∃ whole left tail, frames = whole ++ left ∧ bytes = framesBytes whole ++ tail ∧
      tail ++ rest = framesBytes left ∧ IsPart tail left
  | [], bytes, rest, h => by
    obtain ⟨rfl, rfl⟩ := append_eq_nil_iff.mp h
    exact ⟨[], [], [], rfl, rfl, rfl, rfl⟩
  | data :: frames, bytes, rest, h => by
    rw [framesBytes_cons] at h
    obtain ⟨more, hbytes, hrest⟩ | ⟨more, hdata, hrest⟩ := append_eq_append_iff.mp h
    · -- The bytes end in the first frame.
      by_cases hmore : more = []
      · rw [hmore, append_nil] at hbytes
        rw [hmore, nil_append] at hrest
        obtain ⟨whole, left, tail, hframes, htail, hleft, hpart⟩ :=
          exists_whole frames (show [] ++ rest = framesBytes frames from hrest)
        refine ⟨data :: whole, left, tail, congrArg (data :: ·) hframes, ?_, hleft, hpart⟩
        rw [framesBytes_cons, append_assoc, ← htail, append_nil]
        exact hbytes.symm
      · refine ⟨[], data :: frames, bytes, rfl, rfl, ?_, more, hmore, hbytes⟩
        rw [hrest, framesBytes_cons, hbytes, append_assoc]
    · obtain ⟨whole, left, tail, hframes, htail, hleft, hpart⟩ := exists_whole frames hrest.symm
      refine ⟨data :: whole, left, tail, congrArg (data :: ·) hframes, ?_, hleft, hpart⟩
      rw [framesBytes_cons, append_assoc, ← htail, hdata]

/-- The whole frames are found before a part that is left, with enough fuel. -/
theorem wholeFrames_append : ∀ (fuel : ℕ) {whole left : List (List UInt8)} {tail : List UInt8},
    (∀ data ∈ whole ++ left, data.length < 2 ^ 32) → IsPart tail left → whole.length ≤ fuel →
      wholeFrames fuel (framesBytes whole ++ tail) = whole.length
  | 0, whole, _, _, _, _, hfuel => by
    obtain rfl := length_eq_zero_iff.mp (Nat.le_zero.mp hfuel)
    rfl
  | fuel + 1, [], left, tail, hsized, hpart, _ => by
    rw [framesBytes_nil, nil_append, wholeFrames, if_pos]
    · rfl
    · obtain hshort | ⟨data, -, hheader, hshort⟩ := hpart.header hsized
      · exact .inl hshort
      · exact .inr (hheader ▸ hshort)
  | fuel + 1, data :: whole, left, tail, hsized, hpart, hfuel => by
    have hheader := headerLength_frameBytes (hsized data mem_cons_self) (framesBytes whole ++ tail)
    rw [framesBytes_cons, append_assoc, wholeFrames, hheader, if_neg, drop_frameBytes,
      wholeFrames_append fuel _ hpart]
    · rfl
    · exact Nat.le_of_succ_le_succ hfuel
    · exact fun d hd => hsized d (mem_cons_of_mem _ hd)
    · rw [length_append, length_frameBytes]
      omega

/-! ## Any bytes -/

/-- The bytes begin with a whole frame that is taken: it is not empty, and not above the limit. -/
def IsWhole (limit : ℕ) (bytes : List UInt8) : Prop :=
  0 < headerLength bytes ∧ headerLength bytes ≤ limit ∧ headerLength bytes + 4 ≤ bytes.length

/-- The bytes begin with a header that is not taken. -/
def BadHeader (limit : ℕ) (bytes : List UInt8) : Prop :=
  4 ≤ bytes.length ∧ (headerLength bytes = 0 ∨ limit < headerLength bytes)

instance (limit : ℕ) (bytes : List UInt8) : Decidable (IsWhole limit bytes) :=
  inferInstanceAs (Decidable (_ ∧ _ ∧ _))

instance (limit : ℕ) (bytes : List UInt8) : Decidable (BadHeader limit bytes) :=
  inferInstanceAs (Decidable (_ ∧ (_ ∨ _)))

/-- The frames that the bytes begin with, and what is left: a part of a frame, or what a bad header begins. -/
def splitFrames (limit : ℕ) (bytes : List UInt8) : List (List UInt8) × List UInt8 :=
  if h : IsWhole limit bytes then
    let rest := splitFrames limit (bytes.drop (headerLength bytes + 4))
    ((bytes.take (headerLength bytes + 4)).drop 4 :: rest.1, rest.2)
  else ([], bytes)
termination_by bytes.length
decreasing_by
  have hle := h.2.2
  rw [length_drop]
  omega

variable {limit : ℕ} {bytes : List UInt8}

theorem splitFrames_whole (h : IsWhole limit bytes) : splitFrames limit bytes =
      ((bytes.take (headerLength bytes + 4)).drop 4 :: (splitFrames limit (bytes.drop (headerLength bytes + 4))).1,
        (splitFrames limit (bytes.drop (headerLength bytes + 4))).2) := by
  rw [splitFrames, dif_pos h]

theorem splitFrames_left (h : ¬ IsWhole limit bytes) : splitFrames limit bytes = ([], bytes) := by
  rw [splitFrames, dif_neg h]

theorem BadHeader.not_isWhole (h : BadHeader limit bytes) : ¬ IsWhole limit bytes := by
  rintro ⟨hpos, hle, -⟩
  have hbad := h.2
  omega

/-- A bad header stays bad, whatever follows. -/
theorem BadHeader.append (h : BadHeader limit bytes) (more : List UInt8) : BadHeader limit (bytes ++ more) := by
  unfold BadHeader
  rw [headerLength_append h.1, length_append]
  exact ⟨Nat.le_add_right_of_le h.1, h.2⟩

/-- A whole frame stays whole, whatever follows. -/
theorem IsWhole.append (h : IsWhole limit bytes) (more : List UInt8) : IsWhole limit (bytes ++ more) := by
  have hfour : 4 ≤ bytes.length := Nat.le_trans (Nat.le_add_left 4 _) h.2.2
  unfold IsWhole
  rw [headerLength_append hfour, length_append]
  exact ⟨h.1, h.2.1, Nat.le_add_right_of_le h.2.2⟩

/-- The frames of a stream do not depend on how it is cut. -/
theorem splitFrames_append (more : List UInt8) : splitFrames limit (bytes ++ more) =
      ((splitFrames limit bytes).1 ++ (splitFrames limit ((splitFrames limit bytes).2 ++ more)).1,
        (splitFrames limit ((splitFrames limit bytes).2 ++ more)).2) := by
  induction hn : bytes.length using Nat.strongRecOn generalizing bytes with
  | _ n ih =>
    by_cases h : IsWhole limit bytes
    · have hle := h.2.2
      have hfour : 4 ≤ bytes.length := Nat.le_trans (Nat.le_add_left 4 _) hle
      have hless : (bytes.drop (headerLength bytes + 4)).length < n := by
        rw [length_drop]
        omega
      rw [splitFrames_whole (h.append more), headerLength_append hfour, take_append_of_le_length hle,
        drop_append_of_le_length hle, ih _ hless rfl, splitFrames_whole h]
      rfl
    · rw [splitFrames_left h, nil_append]

theorem IsPart.waits (h : IsPart bytes frames) (hlimit : limit < 2 ^ 32)
    (hsized : ∀ data ∈ frames, 0 < data.length ∧ data.length ≤ limit) :
    ¬ IsWhole limit bytes ∧ ¬ BadHeader limit bytes := by
  unfold IsWhole BadHeader
  obtain hshort | ⟨data, hdata, hheader, hless⟩ := h.header fun d hd => Nat.lt_of_le_of_lt (hsized d hd).2 hlimit
  · omega
  · have hdata := hsized data hdata
    omega

/-- The whole frames are split off, and a part is left. -/
theorem splitFrames_part {left : List (List UInt8)} (hlimit : limit < 2 ^ 32) (hpart : IsPart bytes left) :
    ∀ {whole : List (List UInt8)}, (∀ data ∈ whole ++ left, 0 < data.length ∧ data.length ≤ limit) →
      splitFrames limit (framesBytes whole ++ bytes) = (whole, bytes)
  | [], hsized => splitFrames_left (hpart.waits hlimit hsized).1
  | data :: whole, hsized => by
    obtain ⟨hpos, hle⟩ := hsized data mem_cons_self
    have hheader := headerLength_frameBytes (Nat.lt_of_le_of_lt hle hlimit) (framesBytes whole ++ bytes)
    have hwhole : IsWhole limit (frameBytes data ++ (framesBytes whole ++ bytes)) := by
      unfold IsWhole
      rw [hheader, length_append, length_frameBytes]
      exact ⟨hpos, hle, Nat.le_add_right _ _⟩
    rw [framesBytes_cons, append_assoc, splitFrames_whole hwhole, hheader, take_frameBytes, drop_frameBytes,
      payload_frameBytes, splitFrames_part hlimit hpart fun d hd => hsized d (mem_cons_of_mem _ hd)]

end LigamentApps.ByteStream
