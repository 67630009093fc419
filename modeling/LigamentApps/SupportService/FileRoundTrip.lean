import Mathlib.Data.List.Perm.Subperm
import LigamentApps.SupportService.FileTransfer

/-!
# The round trip of a file

When the receiver of `support_service.dart` saves the bytes of a file that `sendFile` sends, and acknowledges
it. -/

namespace LigamentApps.SupportService

open LinkHost LinkHostRecorder List

def FileHost.transferName (h : FileHost) : String := "file_" ++ toString h.now

/-- Of the file that is sent, the receiver saves the bytes, and acknowledges it. -/
def FileHost.RoundTrips (h : FileHost) (s : ActiveDownloads) (filename : String) (bytes : List UInt8) : Prop :=
  ∃ path, (h.feed s (h.sendFile filename bytes fun _ => false)).2 =
    [.saves path bytes, .sends (fileAck h.transferName true)]

/-- The file system takes a file of this name. -/
def FileHost.Takes (h : FileHost) (filename : String) : Prop :=
  ∃ path, h.resolveNonCollidingFilePath h.downloadsDir filename = some path ∧ h.writable path = true

variable {h : FileHost} {s t : ActiveDownloads} {bytes : List UInt8} {id filename checksum : String}
  {dl : ActiveFileDownload}

theorem flatMap_chunkOf (bytes : List UInt8) (n : ℕ) :
    (List.range n).flatMap (chunkOf bytes) = bytes.take (n * chunkSize) := by
  induction n with
  | zero => rw [Nat.zero_mul, take_zero]; rfl
  | succ n ih =>
    rw [range_succ, flatMap_append, ih, Nat.add_mul, Nat.one_mul, take_add]
    exact congrArg (bytes.take (n * chunkSize) ++ ·) (append_nil _)

theorem le_totalChunksOf (size : ℕ) : size ≤ totalChunksOf size * chunkSize := by
  unfold totalChunksOf chunkSize
  omega

theorem lt_of_lt_totalChunksOf {i size : ℕ} (hi : i < totalChunksOf size) : i * chunkSize < size := by
  unfold totalChunksOf chunkSize at *
  omega

theorem chunkOf_ne_nil {i : ℕ} (hi : i < totalChunksOf bytes.length) : chunkOf bytes i ≠ [] := by
  have hlt := lt_of_lt_totalChunksOf hi
  intro hnil
  have hlength := congrArg List.length hnil
  unfold chunkOf at hlength
  rw [length_take, length_drop, length_nil] at hlength
  unfold chunkSize at *
  omega

theorem totalChunksOf_pos (h : bytes ≠ []) : 0 < totalChunksOf bytes.length := by
  have hpos : 0 < bytes.length := length_pos_iff.mpr h
  unfold totalChunksOf chunkSize
  omega

theorem toLower_hexDigit (i : ℕ) : (hexDigits.getD i '0').toLower = hexDigits.getD i '0' := by
  by_cases hi : i < 16
  · have hall : ∀ i < 16, (hexDigits.getD i '0').toLower = hexDigits.getD i '0' := by decide
    exact hall i hi
  · rw [getD_eq_getElem?_getD, getElem?_eq_none (Nat.le_of_not_lt hi)]
    rfl

theorem lowerCase_hexText (digest : List UInt8) : lowerCase (hexText digest) = hexText digest := by
  unfold lowerCase hexText
  rw [String.toList_ofList]
  refine congrArg String.ofList ((map_congr_left fun c hc => ?_).trans (map_id _))
  obtain ⟨b, -, hc⟩ := mem_flatMap.mp hc
  obtain rfl | hc := mem_cons.mp hc
  · exact toLower_hexDigit _
  · obtain rfl := mem_singleton.mp hc
    exact toLower_hexDigit _

theorem transferName_ne (h : FileHost) : h.transferName ≠ "" := by
  intro hempty
  have hlength := congrArg String.length hempty
  unfold FileHost.transferName at hlength
  rw [String.length_append] at hlength
  simp at hlength

theorem handleFileMessage_start (h : FileHost) (s : ActiveDownloads) (id filename checksum : String)
    (size n : ℕ) : h.handleFileMessage s (fileStart id filename size n checksum) =
      h.handleFileStart s (fileStart id filename size n checksum) := rfl

theorem handleFileMessage_chunk (h : FileHost) (s : ActiveDownloads) (id data : String) (i : ℕ) :
    h.handleFileMessage s (fileChunk id i data) = h.handleFileChunk s (fileChunk id i data) := rfl

theorem handleFileMessage_end (h : FileHost) (s : ActiveDownloads) (id checksum : String) :
    h.handleFileMessage s (fileEnd id checksum) = h.handleFileEnd s (fileEnd id checksum) := rfl

/-- The download after the first chunks. -/
def partOf (id filename checksum : String) (bytes : List UInt8) (i : ℕ) : ActiveFileDownload where
  id := id
  filename := filename
  totalSize := bytes.length
  totalChunks := totalChunksOf bytes.length
  expectedChecksum := some checksum
  chunks := fun j => if 0 ≤ j ∧ j < i then some (chunkOf bytes j.toNat) else none
  receivedBytes := (bytes.take (i * chunkSize)).length

theorem handleFileStart_eq (hid : id ≠ "") (hsize : (bytes.length : ℤ) ≤ maxFileTransferBytes) :
    h.handleFileStart s (fileStart id filename bytes.length (totalChunksOf bytes.length) checksum) =
      if bytes = [] ∨ maxConcurrentDownloads ≤ s.length then (s, [])
      else (s.filter (·.id ≠ id) ++ [partOf id filename checksum bytes 0], []) := by
  have hread : transferId h.doubleText (fileStart id filename bytes.length (totalChunksOf bytes.length)
    checksum) = id :=
    rfl
  have hlength : truncatedOr (fileStart id filename bytes.length (totalChunksOf bytes.length) checksum) "size" 0 =
      some (bytes.length : ℤ) := congrArg some (Int.tdiv_one _)
  have hchunks : truncatedOr (fileStart id filename bytes.length (totalChunksOf bytes.length) checksum)
    "total_chunks" 1 =
      some (totalChunksOf bytes.length : ℤ) := congrArg some (Int.tdiv_one _)
  have hnone : partOf id filename checksum bytes 0 =
      ⟨id, filename, bytes.length, totalChunksOf bytes.length, some checksum, fun _ => none, 0⟩ := by
    unfold partOf
    congr 1
    · funext j
      exact if_neg (by omega)
  unfold FileHost.handleFileStart
  rw [hread, if_neg hid, hlength, hchunks]
  dsimp only
  rw [if_neg (by omega)]
  by_cases hempty : bytes = []
  · have hzero : (totalChunksOf bytes.length : ℤ) ≤ 0 := by
      rw [hempty]
      decide
    rw [if_pos hzero, if_pos (.inl hempty)]
  · have hpos := totalChunksOf_pos hempty
    rw [if_neg (by omega), hnone]
    by_cases hmany : maxConcurrentDownloads ≤ s.length
    · rw [if_pos hmany, if_pos (.inr hmany)]
    · rw [if_neg hmany, if_neg (not_or.mpr ⟨hempty, hmany⟩)]
      rfl

theorem find?_started (s : ActiveDownloads) (id : String) (hid : dl.id = id) :
    (s.filter (·.id ≠ id) ++ [dl]).find? (·.id = id) = some dl := by
  have hothers : (s.filter (·.id ≠ id)).find? (·.id = id) = none := by
    refine find?_eq_none.mpr fun other hother => ?_
    have hne := of_decide_eq_true (mem_filter.mp hother).2
    simpa using hne
  rw [find?_append, hothers, Option.none_or]
  exact find?_cons_of_pos (decide_eq_true hid)

theorem find?_replaced {next : ActiveFileDownload} (hfind : s.find? (·.id = id) = some dl) (hid : next.id = id) :
    (s.map fun other => if other.id = id then next else other).find? (·.id = id) = some next := by
  have hsame : ((fun d : ActiveFileDownload => decide (d.id = id)) ∘ fun other =>
      if other.id = id then next else other) = fun d => decide (d.id = id) := by
    funext other
    by_cases hother : other.id = id
    · simp [hother, hid]
    · simp [hother]
  have hfound := find?_some hfind
  have hdl : dl.id = id := of_decide_eq_true hfound
  rw [find?_map, hsame, hfind, Option.map_some, if_pos hdl]

theorem chunkOf_length (bytes : List UInt8) (i : ℕ) :
    (bytes.take (i * chunkSize)).length + (chunkOf bytes i).length = (bytes.take ((i + 1) * chunkSize)).length := by
  rw [Nat.add_mul, Nat.one_mul, take_add, length_append]
  rfl

theorem partOf_succ (id filename checksum : String) (bytes : List UInt8) (i : ℕ) :
    { partOf id filename checksum bytes i with
      receivedBytes := (bytes.take ((i + 1) * chunkSize)).length
      chunks := Function.update (partOf id filename checksum bytes i).chunks i (some (chunkOf bytes i)) } =
      partOf id filename checksum bytes (i + 1) := by
  have hchunks : Function.update (partOf id filename checksum bytes i).chunks i (some (chunkOf bytes i)) =
      (partOf id filename checksum bytes (i + 1)).chunks := by
    funext j
    unfold partOf
    dsimp only
    rw [Function.update_apply]
    by_cases hj : j = i
    · rw [if_pos hj, if_pos (by omega), hj, Int.toNat_natCast]
    · rw [if_neg hj]
      by_cases hbefore : 0 ≤ j ∧ j < i
      · rw [if_pos hbefore, if_pos (by omega)]
      · rw [if_neg hbefore, if_neg (by omega)]
  rw [hchunks]
  rfl

theorem handleFileChunk_part {i : ℕ} (hsize : (bytes.length : ℤ) ≤ maxFileTransferBytes)
    (hi : i < totalChunksOf bytes.length) (hfind : s.find? (·.id = id) = some (partOf id filename checksum bytes i)) :
    ∃ t, h.handleFileChunk s (fileChunk id i (Base64.encode (chunkOf bytes i))) = (t, []) ∧
      t.find? (·.id = id) = some (partOf id filename checksum bytes (i + 1)) := by
  have hread : transferId h.doubleText (fileChunk id i (Base64.encode (chunkOf bytes i))) = id := rfl
  have hdata : dartTextOr h.doubleText (fileChunk id i (Base64.encode (chunkOf bytes i))) "data" "" =
      Base64.encode (chunkOf bytes i) := rfl
  have hindex : truncatedOr (fileChunk id i (Base64.encode (chunkOf bytes i))) "chunk_index" 0 = some (i : ℤ) :=
    congrArg some (Int.tdiv_one _)
  have hnew : ((partOf id filename checksum bytes i).chunks i).isSome = false := by
    unfold partOf
    dsimp only
    rw [if_neg (by omega)]
    rfl
  have htaken : (bytes.take ((i + 1) * chunkSize)).length ≤ bytes.length := length_take_le' ..
  unfold FileHost.handleFileChunk
  dsimp only
  rw [hread, hdata, hindex, hfind]
  dsimp only
  rw [if_neg (Base64.encode_ne_empty (chunkOf_ne_nil hi)), Base64.decode_encode, hnew]
  dsimp only
  have hrange : ¬((i : ℤ) < 0 ∨ (partOf id filename checksum bytes i).totalChunks ≤ i) := by
    show ¬((i : ℤ) < 0 ∨ (totalChunksOf bytes.length : ℤ) ≤ i)
    omega
  have hbytes : (partOf id filename checksum bytes i).receivedBytes + (chunkOf bytes i).length =
      (bytes.take ((i + 1) * chunkSize)).length := chunkOf_length bytes i
  rw [if_neg hrange, if_neg Bool.false_ne_true, hbytes, if_neg (by omega), partOf_succ]
  exact ⟨_, rfl, find?_replaced hfind rfl⟩

theorem handleFileChunk_none (hfind : s.find? (·.id = id) = none) (i : ℕ) (data : String) :
    h.handleFileChunk s (fileChunk id i data) = (s, []) := by
  have hread : transferId h.doubleText (fileChunk id i data) = id := rfl
  unfold FileHost.handleFileChunk
  dsimp only
  rw [hread, hfind]
  split
  · rename_i hnone
    simp at hnone
  · rfl

theorem handleFileEnd_none (hfind : s.find? (·.id = id) = none) (checksum : String) :
    h.handleFileEnd s (fileEnd id checksum) = (s, []) := by
  have hread : transferId h.doubleText (fileEnd id checksum) = id := rfl
  unfold FileHost.handleFileEnd
  dsimp only
  rw [hread, hfind]

theorem assembleFileChunks_part (id filename : String) (hne : bytes ≠ [])
    (hchecksum : checksum = hexText (h.sha256 bytes)) :
    assembleFileChunks h.sha256 (partOf id filename checksum bytes (totalChunksOf bytes.length)).chunks
      (totalChunksOf bytes.length) (if 0 < (bytes.length : ℤ) then some (bytes.length : ℤ) else none)
        (some checksum) = .ok bytes := by
  have hpos := totalChunksOf_pos hne
  have hlength : 0 < bytes.length := length_pos_iff.mpr hne
  have hchunk : ∀ i ∈ List.range (totalChunksOf bytes.length),
      (partOf id filename checksum bytes (totalChunksOf bytes.length)).chunks i = some (chunkOf bytes i) := by
    intro i hi
    have hlt := mem_range.mp hi
    unfold partOf
    dsimp only
    rw [if_pos (by omega), Int.toNat_natCast]
  have hwhole : ((List.range (totalChunksOf bytes.length)).flatMap fun i : ℕ =>
      ((partOf id filename checksum bytes (totalChunksOf bytes.length)).chunks i).getD []) = bytes := by
    have hsame : ((List.range (totalChunksOf bytes.length)).flatMap fun i : ℕ =>
        ((partOf id filename checksum bytes (totalChunksOf bytes.length)).chunks i).getD []) =
        (List.range (totalChunksOf bytes.length)).flatMap (chunkOf bytes) := by
      refine flatMap_congr fun i hi => ?_
      rw [hchunk i hi]
      rfl
    rw [hsame, flatMap_chunkOf]
    exact take_of_length_le (le_totalChunksOf bytes.length)
  have hexpected : (if 0 < (bytes.length : ℤ) then some (bytes.length : ℤ) else none) = some (bytes.length : ℤ) :=
    if_pos (by omega)
  unfold assembleFileChunks
  rw [hexpected, if_neg (by omega), if_neg, Int.toNat_natCast]
  · rw [hwhole, hchecksum]
    simp [lowerCase_hexText]
  · rw [Int.toNat_natCast]
    intro hmissing
    obtain ⟨i, hi, hnone⟩ := any_eq_true.mp hmissing
    rw [hchunk i hi] at hnone
    simp at hnone

theorem feed_append (h : FileHost) : ∀ (s : ActiveDownloads) (es fs : List FileEvent),
    h.feed s (es ++ fs) = ((h.feed (h.feed s es).1 fs).1, (h.feed s es).2 ++ (h.feed (h.feed s es).1 fs).2)
  | s, [], fs => rfl
  | s, .sends message :: es, fs => by
    rw [cons_append, FileHost.feed, FileHost.feed, feed_append h (h.handleFileMessage s message).1 es fs]
    simp only [append_assoc]
  | s, .saves _ _ :: es, fs => feed_append h s es fs
  | s, .systemMessage _ :: es, fs => feed_append h s es fs

theorem sendChunks_all (id filename : String) (bytes : List UInt8) : ∀ left i : ℕ,
    (sendChunks id filename bytes (fun _ => false) i left).2 = true
  | 0, _ => rfl
  | left + 1, i => sendChunks_all id filename bytes left (i + 1)

theorem feed_chunks (hsize : (bytes.length : ℤ) ≤ maxFileTransferBytes) : ∀ (left i : ℕ) (s : ActiveDownloads),
    i + left = totalChunksOf bytes.length → s.find? (·.id = id) = some (partOf id filename checksum bytes i) →
      ∃ t, h.feed s (sendChunks id filename bytes (fun _ => false) i left).1 = (t, []) ∧
        t.find? (·.id = id) = some (partOf id filename checksum bytes (totalChunksOf bytes.length))
  | 0, i, s, hi, hfind => by
    rw [← hi]
    exact ⟨s, rfl, hfind⟩
  | left + 1, i, s, hi, hfind => by
    obtain ⟨t, hchunk, hnext⟩ := handleFileChunk_part hsize (by omega) hfind
    obtain ⟨u, hrest, hlast⟩ := feed_chunks hsize left (i + 1) t (by omega) hnext
    refine ⟨u, ?_, hlast⟩
    show h.feed s (.sends (fileChunk id i (Base64.encode (chunkOf bytes i))) ::
      (sendChunks id filename bytes (fun _ => false) (i + 1) left).1) = _
    rw [FileHost.feed, handleFileMessage_chunk, hchunk]
    rw [hrest]
    rfl

theorem feed_chunks_none (hfind : s.find? (·.id = id) = none) : ∀ left i : ℕ,
    h.feed s (sendChunks id filename bytes (fun _ => false) i left).1 = (s, [])
  | 0, _ => rfl
  | left + 1, i => by
    show h.feed s (.sends (fileChunk id i (Base64.encode (chunkOf bytes i))) ::
      (sendChunks id filename bytes (fun _ => false) (i + 1) left).1) = _
    rw [FileHost.feed, handleFileMessage_chunk, handleFileChunk_none hfind]
    rw [feed_chunks_none hfind left (i + 1)]
    rfl

theorem handleFileEnd_part (hne : bytes ≠ []) (hchecksum : checksum = hexText (h.sha256 bytes))
    (hfind : s.find? (·.id = id) = some (partOf id filename checksum bytes (totalChunksOf bytes.length))) :
    h.handleFileEnd s (fileEnd id checksum) = (s.filter (·.id ≠ id),
      h.saveReceivedFile (partOf id filename checksum bytes (totalChunksOf bytes.length)) bytes) := by
  have hread : transferId h.doubleText (fileEnd id checksum) = id := rfl
  have hsum : checksumOf h.doubleText (fileEnd id checksum) = some checksum := rfl
  have hboth : (if (some checksum).any (· ≠ "") then some checksum
      else (partOf id filename checksum bytes (totalChunksOf bytes.length)).expectedChecksum) = some checksum :=
    ite_self _
  unfold FileHost.handleFileEnd
  dsimp only
  rw [hread, hfind]
  dsimp only
  rw [hsum, hboth]
  have hassembled := assembleFileChunks_part id filename hne hchecksum
  unfold partOf at hassembled ⊢
  rw [hassembled]

theorem sendFile_eq (hsize : (bytes.length : ℤ) ≤ maxFileTransferBytes) (hopen : h.channelOpen = true) :
    h.sendFile filename bytes (fun _ => false) =
      .sends (fileStart h.transferName filename bytes.length (totalChunksOf bytes.length)
        (hexText (h.sha256 bytes))) ::
        ((sendChunks h.transferName filename bytes (fun _ => false) 0 (totalChunksOf bytes.length)).1 ++
          [.sends (fileEnd h.transferName (hexText (h.sha256 bytes)))]) := by
  unfold FileHost.sendFile
  rw [if_neg (by omega), hopen, if_neg (by simp)]
  dsimp only
  rw [sendChunks_all, if_pos rfl]
  rfl

theorem feed_sendFile (hsize : (bytes.length : ℤ) ≤ maxFileTransferBytes)
    (hfresh : s.find? (·.id = h.transferName) = none) :
    (h.feed s (h.sendFile filename bytes fun _ => false)).2 =
      if h.channelOpen = true ∧ bytes ≠ [] ∧ s.length < maxConcurrentDownloads then
        h.saveReceivedFile (partOf h.transferName filename (hexText (h.sha256 bytes)) bytes
          (totalChunksOf bytes.length)) bytes
      else [] := by
  by_cases hopen : h.channelOpen = true
  · rw [sendFile_eq hsize hopen, FileHost.feed, handleFileMessage_start,
      handleFileStart_eq (transferName_ne h) hsize]
    by_cases htaken : bytes = [] ∨ maxConcurrentDownloads ≤ s.length
    · have hnot : ¬(h.channelOpen = true ∧ bytes ≠ [] ∧ s.length < maxConcurrentDownloads) := by
        intro hall
        obtain hnil | hmany := htaken
        · exact hall.2.1 hnil
        · omega
      rw [if_pos htaken, if_neg hnot]
      rw [feed_append, feed_chunks_none hfresh]
      rw [FileHost.feed, handleFileMessage_end, handleFileEnd_none hfresh]
      rfl
    · obtain ⟨hne, hfew⟩ := not_or.mp htaken
      rw [if_neg htaken, if_pos ⟨hopen, hne, by omega⟩]
      have hstarted : (s.filter (·.id ≠ h.transferName) ++
          [partOf h.transferName filename (hexText (h.sha256 bytes)) bytes 0]).find? (·.id =
            h.transferName) = some _ :=
        find?_started s h.transferName rfl
      obtain ⟨t, hchunks, hfind⟩ := feed_chunks hsize (totalChunksOf bytes.length) 0 _ (Nat.zero_add _)
        hstarted
      rw [feed_append, hchunks]
      rw [FileHost.feed, handleFileMessage_end, handleFileEnd_part hne rfl hfind]
      exact append_nil _
  · have hclosed : h.sendFile filename bytes (fun _ => false) =
        [.systemMessage ("⚠ Файл не отправлен: нет открытого соединения с инженером (" ++ filename ++ ")")] := by
      unfold FileHost.sendFile
      rw [if_neg (by omega), if_pos (by simpa using hopen)]
    rw [hclosed, if_neg (fun hall => hopen hall.1)]
    rfl

theorem toList_numbered (h : FileHost) (dirPath filename : String) (index : ℕ) :
    (h.numbered dirPath filename index).toList =
      (dirPath ++ h.separator ++ (splitName (safeName filename)).1 ++ " (").toList ++
        (Nat.toDigits 10 index ++ (")" ++ (splitName (safeName filename)).2).toList) := by
  unfold FileHost.numbered
  simp

theorem numbered_injective (h : FileHost) (dirPath filename : String) :
    Function.Injective (h.numbered dirPath filename) := by
  intro m n heq
  have hchars := congrArg String.toList heq
  rw [toList_numbered, toList_numbered] at hchars
  have hdigits := append_cancel_right (append_cancel_left hchars)
  rw [← Nat.ofDigitChars_ten_toDigits (n := m), hdigits, Nat.ofDigitChars_ten_toDigits]

theorem mem_of_numberedFree_none (h : FileHost) (dirPath filename : String) : ∀ fuel index : ℕ,
    h.numberedFree dirPath filename fuel index = none →
      ∀ k < fuel, h.numbered dirPath filename (index + k) ∈ h.existing
  | fuel + 1, index, hnone, k, hk => by
    unfold FileHost.numberedFree at hnone
    split at hnone
    · rename_i hhere
      cases k with
      | zero => exact contains_iff_mem.mp hhere
      | succ k =>
        have hlater := mem_of_numberedFree_none h dirPath filename fuel (index + 1) hnone k (Nat.lt_of_succ_lt_succ hk)
        rwa [Nat.add_assoc, Nat.add_comm 1 k] at hlater
    · simp at hnone

theorem not_mem_of_numberedFree (h : FileHost) (dirPath filename : String) {path : String} : ∀ fuel index : ℕ,
    h.numberedFree dirPath filename fuel index = some path → path ∉ h.existing
  | fuel + 1, index, hsome => by
    unfold FileHost.numberedFree at hsome
    split at hsome
    · exact not_mem_of_numberedFree h dirPath filename fuel (index + 1) hsome
    · rename_i hfree
      cases hsome
      exact fun hmem => hfree (contains_iff_mem.mpr hmem)

theorem exists_resolved (h : FileHost) (dirPath filename : String) :
    ∃ path, h.resolveNonCollidingFilePath dirPath filename = some path ∧ path ∉ h.existing := by
  unfold FileHost.resolveNonCollidingFilePath
  dsimp only
  split
  · cases hfree : h.numberedFree dirPath filename (h.existing.length + 1) 1 with
    | some path => exact ⟨path, rfl, not_mem_of_numberedFree h dirPath filename _ _ hfree⟩
    | none =>
      -- There are more paths with a number than files.
      have hmem := mem_of_numberedFree_none h dirPath filename _ _ hfree
      have hsubset : (List.range (h.existing.length + 1)).map (fun k => h.numbered dirPath filename (1 + k)) ⊆
          h.existing := by
        intro path hpath
        obtain ⟨k, hk, rfl⟩ := mem_map.mp hpath
        exact hmem k (mem_range.mp hk)
      have hnodup : ((List.range (h.existing.length + 1)).map
          fun k => h.numbered dirPath filename (1 + k)).Nodup := by
        refine nodup_range.map fun j k heq => ?_
        have hindex := numbered_injective h dirPath filename heq
        omega
      have hlength := (hnodup.subperm hsubset).length_le
      rw [length_map, length_range] at hlength
      omega
  · rename_i hfree
    exact ⟨_, rfl, fun hmem => hfree (contains_iff_mem.mpr hmem)⟩

theorem saveReceivedFile_iff (dl : ActiveFileDownload) (bytes : List UInt8) (hopen : h.channelOpen = true) :
    (∃ path, h.saveReceivedFile dl bytes = [.saves path bytes, .sends (fileAck dl.id true)]) ↔
      h.Takes dl.filename := by
  obtain ⟨target, htarget, -⟩ := exists_resolved h h.downloadsDir dl.filename
  unfold FileHost.Takes FileHost.saveReceivedFile FileHost.sendMessage
  rw [htarget]
  dsimp only
  cases hwritable : h.writable target with
  | true =>
    rw [if_pos rfl, if_pos hopen]
    exact iff_of_true ⟨target, rfl⟩ ⟨target, rfl, hwritable⟩
  | false =>
    rw [if_neg Bool.false_ne_true, if_pos hopen]
    refine iff_of_false ?_ ?_
    · intro hsaved
      obtain ⟨path, hsaved⟩ := hsaved
      simp at hsaved
    · intro htakes
      obtain ⟨path, hpath, hok⟩ := htakes
      cases hpath
      cases hwritable.symm.trans hok

/-- A file of at most 1 GiB, sent to a receiver that has no download of its name, is saved byte by byte and
acknowledged if and only if it is not empty, the channel is open, the receiver has less than two downloads,
and the file system takes it. -/
theorem round_trips_iff (h : FileHost) (s : ActiveDownloads) (filename : String) (bytes : List UInt8)
    (hsize : (bytes.length : ℤ) ≤ maxFileTransferBytes) (hfresh : s.find? (·.id = h.transferName) = none) :
    h.RoundTrips s filename bytes ↔
      bytes ≠ [] ∧ h.channelOpen = true ∧ s.length < maxConcurrentDownloads ∧ h.Takes filename := by
  unfold FileHost.RoundTrips
  rw [feed_sendFile hsize hfresh]
  by_cases hall : h.channelOpen = true ∧ bytes ≠ [] ∧ s.length < maxConcurrentDownloads
  · obtain ⟨hopen, hne, hfew⟩ := hall
    have hsaved := saveReceivedFile_iff (partOf h.transferName filename (hexText (h.sha256 bytes)) bytes
      (totalChunksOf bytes.length)) bytes hopen
    rw [if_pos ⟨hopen, hne, hfew⟩]
    exact hsaved.trans ⟨fun htakes => ⟨hne, hopen, hfew, htakes⟩, fun hboth => hboth.2.2.2⟩
  · rw [if_neg hall]
    refine iff_of_false ?_ fun hboth => hall ⟨hboth.2.1, hboth.1, hboth.2.2.1⟩
    intro htrip
    obtain ⟨path, htrip⟩ := htrip
    simp at htrip

/-- A service with an empty directory. -/
def sampleFileHost : FileHost where
  doubleText _ := ""
  now := 1
  sha256 bytes := [UInt8.ofNat bytes.length]
  channelOpen := true
  separator := "/"
  downloadsDir := "d"
  existing := []
  writable _ := true

/-- A file of two chunks, the second of one byte. -/
def twoChunks : List UInt8 := List.replicate (chunkSize + 1) 7

theorem length_twoChunks : twoChunks.length = chunkSize + 1 := length_replicate

theorem round_trips_sample : totalChunksOf twoChunks.length = 2 ∧
    sampleFileHost.RoundTrips [] "a.txt" twoChunks := by
  have hlength := length_twoChunks
  refine ⟨by rw [hlength]; rfl, (round_trips_iff sampleFileHost [] "a.txt" twoChunks ?_ rfl).mpr ?_⟩
  · rw [hlength]
    decide
  · exact ⟨ne_nil_of_length_eq_add_one hlength, rfl, by decide, _, rfl, rfl⟩

/-- The empty file is not saved, and not acknowledged. -/
theorem empty_file_lost : ¬∀ (h : FileHost) (filename : String) (bytes : List UInt8),
    (bytes.length : ℤ) ≤ maxFileTransferBytes → h.channelOpen = true → (∀ path, h.writable path = true) →
      h.RoundTrips [] filename bytes := by
  intro hclaim
  obtain ⟨path, htrip⟩ := hclaim sampleFileHost "a.txt" [] (by decide) rfl fun _ => rfl
  have hnothing : (sampleFileHost.feed [] (sampleFileHost.sendFile "a.txt" [] fun _ => false)).2 = [] :=
    (feed_sendFile (by decide) rfl).trans (if_neg (by simp))
  cases hnothing.symm.trans htrip

end LigamentApps.SupportService
