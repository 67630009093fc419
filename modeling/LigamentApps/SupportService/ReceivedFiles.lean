import LigamentApps.SupportService.FileRoundTrip

/-!
# A received file

What `assembleFileChunks` makes of the chunks that have come, and which path `resolveNonCollidingFilePath`
gives the file. Names are compared as strings: that Windows strips the dots and blanks at the end of one is
left out. -/

namespace LigamentApps.SupportService

open List Option

/-! ## The chunks -/

/-- The map of the chunks, in the order in which they came. -/
structure ReceivedChunks where
  entries : List (ℤ × List UInt8)
  /-- A map has one chunk at an index. -/
  nodup : (entries.map (·.1)).Nodup

namespace ReceivedChunks

/-- `chunks[i]`. -/
def chunks (m : ReceivedChunks) (i : ℤ) : Option (List UInt8) := (m.entries.find? (·.1 = i)).map (·.2)

/-- The chunks of the indexes `0..n-1`. -/
def within (m : ReceivedChunks) (n : ℤ) : List (ℤ × List UInt8) := m.entries.filter fun e => 0 ≤ e.1 ∧ e.1 < n

end ReceivedChunks

variable {sha256 : List UInt8 → List UInt8} {chunks others : ℤ → Option (List UInt8)} {n : ℤ} {size : Option ℤ}
  {checksum : Option String} {bytes : List UInt8}

/-- There is a chunk at every index `0..n-1`, and the bytes are theirs, in order. -/
def InOrder (chunks : ℤ → Option (List UInt8)) (n : ℤ) (bytes : List UInt8) : Prop :=
  ∃ parts : List (List UInt8), (parts.length = n) ∧ (∀ i < parts.length, chunks i = parts[i]?) ∧
    parts.flatten = bytes

/-- The size of `file_start`; one that is not positive is none. -/
def HasSize (size : Option ℤ) (bytes : List UInt8) : Prop := ∀ s ∈ size, 0 < s → (bytes.length : ℤ) = s

/-- The checksum, in letters of any case; an empty one is none. -/
def HasChecksum (sha256 : List UInt8 → List UInt8) (checksum : Option String) (bytes : List UInt8) : Prop :=
  ∀ c ∈ checksum, c ≠ "" → hexText (sha256 bytes) = lowerCase c

theorem ReceivedChunks.chunks_eq_some_iff (m : ReceivedChunks) (i : ℤ) (chunk : List UInt8) :
    m.chunks i = some chunk ↔ (i, chunk) ∈ m.entries := by
  unfold ReceivedChunks.chunks
  constructor
  · intro hsome
    obtain ⟨e, hfind, rfl⟩ := map_eq_some_iff.mp hsome
    have hindex : e.1 = i := by simpa using find?_some hfind
    rw [← hindex]
    exact mem_of_find?_eq_some hfind
  · intro hmem
    obtain ⟨e, hfind⟩ : ∃ e, m.entries.find? (·.1 = i) = some e :=
      isSome_iff_exists.mp (find?_isSome.mpr ⟨(i, chunk), hmem, by simp⟩)
    have hindex : e.1 = i := by simpa using find?_some hfind
    have hsame : e = (i, chunk) := inj_on_of_nodup_map m.nodup (mem_of_find?_eq_some hfind) hmem hindex
    rw [hfind, hsame, map_some]

theorem ReceivedChunks.chunks_congr {m m' : ReceivedChunks} (h : (m.within n).Perm (m'.within n)) {i : ℤ}
    (hfrom : 0 ≤ i) (hto : i < n) : m.chunks i = m'.chunks i := by
  have hmem : ∀ chunk, (i, chunk) ∈ m.entries ↔ (i, chunk) ∈ m'.entries := by
    intro chunk
    have hsame := h.mem_iff (a := (i, chunk))
    unfold ReceivedChunks.within at hsame
    simpa only [mem_filter, hfrom, hto, and_self, decide_true, and_true] using hsame
  refine ext fun chunk => ?_
  rw [m.chunks_eq_some_iff, m'.chunks_eq_some_iff]
  exact hmem chunk

theorem assembleFileChunks_congr (h : ∀ i : ℤ, 0 ≤ i → i < n → chunks i = others i) :
    assembleFileChunks sha256 chunks n size checksum = assembleFileChunks sha256 others n size checksum := by
  by_cases hn : n ≤ 0
  · unfold assembleFileChunks
    rw [if_pos hn, if_pos hn]
  · have hsame : ∀ i ∈ List.range n.toNat, chunks i = others i := by
      intro i hi
      have hlt := mem_range.mp hi
      exact h i (by omega) (by omega)
    have hany : ((List.range n.toNat).any fun i : ℕ => (chunks i).isNone) =
        (List.range n.toNat).any fun i : ℕ => (others i).isNone := by
      rw [Bool.eq_iff_iff, List.any_eq_true, List.any_eq_true]
      exact exists_congr fun i => and_congr_right fun hi => by rw [hsame i hi]
    have hflat : ((List.range n.toNat).flatMap fun i : ℕ => (chunks i).getD []) =
        (List.range n.toNat).flatMap fun i : ℕ => (others i).getD [] :=
      flatMap_congr fun i hi => by rw [hsame i hi]
    unfold assembleFileChunks
    rw [hany, hflat]

theorem inOrder_iff (hn : 0 < n) : InOrder chunks n bytes ↔
    (∀ i < n.toNat, (chunks i).isSome = true) ∧
      ((List.range n.toNat).flatMap fun i : ℕ => (chunks i).getD []) = bytes := by
  constructor
  · intro horder
    obtain ⟨parts, hlength, hparts, rfl⟩ := horder
    have hcount : parts.length = n.toNat := by omega
    have hsome : ∀ i < n.toNat, chunks i = some (parts.getD i []) := by
      intro i hi
      rw [hparts i (by omega), getD_eq_getElem?_getD, getElem?_eq_getElem (by omega), getD_some]
    refine ⟨fun i hi => ?_, ?_⟩
    · rw [hsome i hi]
      rfl
    · have hmap : ((List.range n.toNat).map fun i : ℕ => (chunks i).getD []) = parts := by
        refine ext_getElem (by rw [length_map, length_range, hcount]) fun i hi hlt => ?_
        rw [getElem_map, getElem_range, hsome i (by omega), getD_some]
        rw [getD_eq_getElem?_getD, getElem?_eq_getElem hlt, getD_some]
      rw [flatMap_def, hmap]
  · intro hall
    obtain ⟨hsome, rfl⟩ := hall
    refine ⟨(List.range n.toNat).map fun i : ℕ => (chunks i).getD [], ?_, fun i hi => ?_, flatMap_def.symm⟩
    · rw [length_map, length_range]
      omega
    · rw [length_map, length_range] at hi
      obtain ⟨chunk, hchunk⟩ := isSome_iff_exists.mp (hsome i hi)
      rw [getElem?_map, getElem?_range hi, map_some, hchunk, getD_some]

theorem assembleFileChunks_eq_ok_iff : assembleFileChunks sha256 chunks n size checksum = .ok bytes ↔
    0 < n ∧ InOrder chunks n bytes ∧ HasSize size bytes ∧ HasChecksum sha256 checksum bytes := by
  by_cases hn : n ≤ 0
  · unfold assembleFileChunks
    rw [if_pos hn]
    exact iff_of_false nofun fun hall => by omega
  · have hpos : 0 < n := by omega
    have hmissing : ((List.range n.toNat).any fun i : ℕ => (chunks i).isNone) = true ↔
        ¬∀ i < n.toNat, (chunks i).isSome = true := by
      simp
    unfold assembleFileChunks
    rw [if_neg hn, inOrder_iff hpos]
    by_cases hwhole : ∀ i < n.toNat, (chunks i).isSome = true
    · rw [if_neg fun hnone => hmissing.mp hnone hwhole]
      dsimp only
      generalize ((List.range n.toNat).flatMap fun i : ℕ => (chunks i).getD []) = whole
      have hsize : (size.any fun s => decide (0 < s ∧ (whole.length : ℤ) ≠ s)) = true ↔ ¬HasSize size whole := by
        cases size <;> simp [HasSize]
      have hsum : (checksum.any fun c => decide (c ≠ "" ∧ hexText (sha256 whole) ≠ lowerCase c)) = true ↔
          ¬HasChecksum sha256 checksum whole := by
        cases checksum <;> simp [HasChecksum]
      split
      · rename_i hother
        refine iff_of_false nofun fun hall => ?_
        rw [← hall.2.1.2] at hall
        exact hsize.mp hother hall.2.2.1
      · rename_i hfits
        split
        · rename_i hother
          refine iff_of_false nofun fun hall => ?_
          rw [← hall.2.1.2] at hall
          exact hsum.mp hother hall.2.2.2
        · rename_i hmeets
          have hfitting := not_not.mp (mt hsize.mpr hfits)
          have hmeeting := not_not.mp (mt hsum.mpr hmeets)
          constructor
          · intro hok
            cases hok
            exact ⟨hpos, ⟨hwhole, rfl⟩, hfitting, hmeeting⟩
          · intro hall
            rw [hall.2.1.2]
    · rw [if_pos (hmissing.mpr hwhole)]
      exact iff_of_false nofun fun hall => hwhole hall.2.1.1

/-- The assembly is the concatenation of the chunks `0..n-1` if there are some and all have come, of the
positive size and the checksum that are declared, and it is the same for all maps with these chunks. -/
theorem assembleFileChunks_exact (sha256 : List UInt8 → List UInt8) (m : ReceivedChunks) (n : ℤ)
    (size : Option ℤ) (checksum : Option String) :
    (∀ bytes, assembleFileChunks sha256 m.chunks n size checksum = .ok bytes ↔
      0 < n ∧ InOrder m.chunks n bytes ∧ HasSize size bytes ∧ HasChecksum sha256 checksum bytes) ∧
    ∀ m' : ReceivedChunks, (m.within n).Perm (m'.within n) →
      assembleFileChunks sha256 m.chunks n size checksum = assembleFileChunks sha256 m'.chunks n size checksum :=
  ⟨fun _ => assembleFileChunks_eq_ok_iff, fun _ hperm =>
    assembleFileChunks_congr fun _ hfrom hto => ReceivedChunks.chunks_congr hperm hfrom hto⟩

/-- One chunk. -/
def oneChunk : ReceivedChunks := ⟨[(0, [1])], by decide⟩

/-- A file without chunks is not whole, and a declared size of zero or an empty checksum is not looked at. -/
theorem assembleFileChunks_undeclared :
    (InOrder (ReceivedChunks.mk [] nodup_nil).chunks 0 [] ∧
      assembleFileChunks id (ReceivedChunks.mk [] nodup_nil).chunks 0 (some 0) none = .error "incomplete") ∧
      assembleFileChunks id oneChunk.chunks 1 (some 0) none = .ok [1] ∧
        hexText [1] ≠ "" ∧ assembleFileChunks id oneChunk.chunks 1 none (some "") = .ok [1] :=
  ⟨⟨⟨[], rfl, nofun, rfl⟩, rfl⟩, by decide, by decide, by decide⟩

/-! ## The path -/

/-- The names of which a directory has no entry, or entries that are not its own. -/
def reservedNames : List String := ["", ".", ".."]

/-- The directory of the downloads, with the names of the files and of the directories in it. -/
structure DownloadsDir where
  path : String
  separator : String
  files : List String
  directories : List String
  files_named : ∀ name ∈ files, name ∉ reservedNames
  /-- No name is both. -/
  disjoint : files.Disjoint directories

namespace DownloadsDir

variable (d : DownloadsDir) (h : FileHost) (filename : String)

def pathOf (name : String) : String := d.path ++ d.separator ++ name

/-- The service of the directory: `File(p).existsSync()` is false of a directory. -/
def host : FileHost := { h with separator := d.separator, existing := d.files.map d.pathOf }

/-- The path is of a direct child of the directory that does not exist. -/
def IsFresh (path : String) : Prop :=
  ∃ name, path = d.pathOf name ∧ name ∉ reservedNames ∧ (∀ c ∈ name.toList, isReserved c = false) ∧
    name ∉ d.files ∧ name ∉ d.directories

/-- The names in the order in which they are tried. -/
def candidate (filename : String) : ℕ → String
  | 0 => safeName filename
  | k + 1 => (splitName (safeName filename)).1 ++ " (" ++ toString (k + 1) ++ ")" ++ (splitName (safeName filename)).2

/-- The name is one of an entry, and no directory has one of the names up to the first that no file has. -/
def Takes : Prop :=
  safeName filename ∉ reservedNames ∧
    ∀ k, (∀ j < k, candidate filename j ∈ d.files) → candidate filename k ∉ d.directories

end DownloadsDir

variable {d : DownloadsDir} {h : FileHost} {filename name : String} {k : ℕ}

theorem DownloadsDir.pathOf_injective (d : DownloadsDir) : Function.Injective d.pathOf := by
  intro a b heq
  exact String.append_right_inj _ |>.mp heq

theorem DownloadsDir.mem_existing : d.pathOf name ∈ (d.host h).existing ↔ name ∈ d.files :=
  List.mem_map_of_injective d.pathOf_injective

theorem DownloadsDir.numbered_eq (d : DownloadsDir) (h : FileHost) (filename : String) (k : ℕ) :
    (d.host h).numbered d.path filename (k + 1) = d.pathOf (candidate filename (k + 1)) := by
  unfold FileHost.numbered DownloadsDir.pathOf DownloadsDir.candidate
  simp only [String.append_assoc]
  rfl

theorem DownloadsDir.numberedFree_eq {path : String} : ∀ {fuel k : ℕ},
    (d.host h).numberedFree d.path filename fuel (k + 1) = some path →
      ∃ l, k < l ∧ path = d.pathOf (candidate filename l) ∧ candidate filename l ∉ d.files ∧
        ∀ j, k < j → j < l → candidate filename j ∈ d.files
  | fuel + 1, k, hsome => by
    unfold FileHost.numberedFree at hsome
    rw [d.numbered_eq] at hsome
    split at hsome
    · rename_i hhere
      obtain ⟨l, hlt, hpath, hfree, hbefore⟩ := numberedFree_eq hsome
      refine ⟨l, by omega, hpath, hfree, fun j hkj hjl => ?_⟩
      by_cases hj : j = k + 1
      · rw [hj]
        exact d.mem_existing.mp (contains_iff_mem.mp hhere)
      · exact hbefore j (by omega) hjl
    · rename_i hfree
      cases hsome
      refine ⟨k + 1, by omega, rfl, fun hmem => hfree (contains_iff_mem.mpr (d.mem_existing.mpr hmem)), ?_⟩
      intro j hkj hjl
      omega

theorem DownloadsDir.resolved_eq (d : DownloadsDir) (h : FileHost) (filename : String) :
    ∃ k, (d.host h).resolveNonCollidingFilePath d.path filename = some (d.pathOf (candidate filename k)) ∧
      candidate filename k ∉ d.files ∧ ∀ j < k, candidate filename j ∈ d.files := by
  obtain ⟨path, hpath, hnot⟩ := exists_resolved (d.host h) d.path filename
  rw [hpath]
  unfold FileHost.resolveNonCollidingFilePath at hpath
  dsimp only at hpath
  split at hpath
  · rename_i hhere
    have hfile : candidate filename 0 ∈ d.files := d.mem_existing.mp (contains_iff_mem.mp hhere)
    obtain ⟨l, hlt, rfl, hfree, hbefore⟩ := d.numberedFree_eq hpath
    refine ⟨l, rfl, hfree, fun j hj => ?_⟩
    cases j with
    | zero => exact hfile
    | succ j => exact hbefore (j + 1) (by omega) hj
  · cases hpath
    exact ⟨0, rfl, fun hmem => hnot (d.mem_existing.mpr hmem), nofun⟩

/-! ### The names -/

theorem not_mem_safeName {c : Char} (hc : isReserved c = true) : c ∉ (safeName filename).toList := by
  intro hmem
  unfold safeName at hmem
  rw [String.toList_ofList] at hmem
  obtain ⟨b, -, hb⟩ := List.mem_map.mp hmem
  split at hb
  · rw [← hb] at hc
    cases hc
  · rename_i hfree
    exact hfree (hb ▸ hc)

theorem splitName_append (name : String) : (splitName name).1 ++ (splitName name).2 = name := by
  unfold splitName
  dsimp only
  split
  · rw [← String.ofList_append, take_append_drop, String.ofList_toList]
  · exact String.append_empty

theorem toList_candidate (filename : String) (k : ℕ) : (DownloadsDir.candidate filename (k + 1)).toList =
    (splitName (safeName filename)).1.toList ++ ' ' :: '(' :: (Nat.toDigits 10 (k + 1) ++
      ')' :: (splitName (safeName filename)).2.toList) := by
  unfold DownloadsDir.candidate
  simp

theorem not_mem_candidate {c : Char} (hc : isReserved c = true) :
    c ∉ (DownloadsDir.candidate filename k).toList := by
  cases k with
  | zero => exact not_mem_safeName hc
  | succ k =>
    have hwhole : c ∉ (safeName filename).toList := not_mem_safeName hc
    rw [← splitName_append (safeName filename), String.toList_append, mem_append, not_or] at hwhole
    rw [toList_candidate]
    intro hmem
    rw [mem_append, mem_cons, mem_cons, mem_append, mem_cons] at hmem
    rcases hmem with hbase | rfl | rfl | hdigit | rfl | hext
    · exact hwhole.1 hbase
    · cases hc
    · cases hc
    · have hdigits := Nat.isDigit_of_mem_toDigits (by decide) (by decide) hdigit
      have hnone : ∀ r ∈ ['\\', '/', ':', '*', '?', '"', '<', '>', '|'], r.isDigit = false := by simp
      rw [hnone c (List.contains_iff_mem.mp hc)] at hdigits
      cases hdigits
    · cases hc
    · exact hwhole.2 hext

theorem candidate_not_mem (hname : safeName filename ∉ reservedNames) :
    DownloadsDir.candidate filename k ∉ reservedNames := by
  cases k with
  | zero => exact hname
  | succ k =>
    have hparen : '(' ∈ (DownloadsDir.candidate filename (k + 1)).toList := by
      rw [toList_candidate]
      simp
    have hnone : ∀ name ∈ reservedNames, '(' ∉ name.toList := by decide
    exact fun hmem => hnone _ hmem hparen

/-- The path is of a child of the directory that does not exist, if and only if the name is one of an entry
and no directory has the first of the names that no file has. -/
theorem resolved_isFresh_iff (d : DownloadsDir) (h : FileHost) (filename : String) :
    (∃ path, (d.host h).resolveNonCollidingFilePath d.path filename = some path ∧ d.IsFresh path) ↔
      d.Takes filename := by
  obtain ⟨k, hpath, hfree, hbefore⟩ := d.resolved_eq h filename
  rw [hpath]
  constructor
  · intro hfresh
    obtain ⟨path, heq, name, hname, hentry, -, -, hnot⟩ := hfresh
    cases heq
    obtain rfl := d.pathOf_injective hname
    refine ⟨fun hmem => ?_, fun l hl hdir => ?_⟩
    · cases k with
      | zero => exact hentry hmem
      | succ k => exact d.files_named _ (hbefore 0 (by omega)) hmem
    · obtain hlt | heq | hlt := Nat.lt_trichotomy l k
      · exact d.disjoint (hbefore l hlt) hdir
      · rw [heq] at hdir
        exact hnot hdir
      · exact hfree (hl k hlt)
  · intro htakes
    refine ⟨_, rfl, _, rfl, candidate_not_mem htakes.1, fun c hmem => ?_, hfree, htakes.2 k hbefore⟩
    cases hc : isReserved c with
    | false => rfl
    | true => exact absurd hmem (not_mem_candidate hc)

/-- An empty directory. -/
def sampleDir : DownloadsDir := ⟨"d", "/", [], [], nofun, nofun⟩

/-- Two dots are the parent of the directory. -/
theorem dots_resolved :
    (sampleDir.host sampleFileHost).resolveNonCollidingFilePath "d" ".." = some "d/.." ∧
      ¬sampleDir.IsFresh "d/.." := by
  refine ⟨by decide, fun hfresh => ?_⟩
  obtain ⟨name, hpath, hname, -⟩ := hfresh
  have hdots : ".." = name := sampleDir.pathOf_injective hpath
  rw [← hdots] at hname
  exact hname (by decide)

end LigamentApps.SupportService
