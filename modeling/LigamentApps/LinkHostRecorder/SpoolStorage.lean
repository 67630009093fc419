import Mathlib.Data.List.Nodup
import LigamentApps.LinkHostRecorder.Items

/-!
# The spool on disk

`LinkSpoolStorage` of `link_spool_storage.dart`: the `.spool` files of one session with the counters
that the process keeps of them. The counters are read off the directory once, before the first chunk
is written; what the directory held before is `dir` at the start. Sealing a chunk adds 48 bytes, and a
chunk that the session's key does not open has no content. -/

namespace LigamentApps.LinkHostRecorder

open List

variable {names : List String} {name : String}

/-- A `.spool` file. -/
structure SpoolFile where
  name : String
  /-- What `readBatch` makes of the file. -/
  content : Option Batch
  length : ℕ

/-- The `.spool` files of a directory. -/
structure SpoolDir where
  files : List SpoolFile
  nodup : (files.map (·.name)).Nodup

namespace SpoolDir

/-- The directory without `.spool` files. -/
def empty : SpoolDir := ⟨[], nodup_nil⟩

/-- The file of a name. -/
def find? (d : SpoolDir) (name : String) : Option SpoolFile := d.files.find? (·.name == name)

/-- The directory after `delete` of a name. -/
def remove (d : SpoolDir) (name : String) : SpoolDir :=
  ⟨d.files.filter (·.name != name), d.nodup.sublist (filter_sublist.map _)⟩

/-- The directory after a `rename` to a name, which replaces what the name stood for. -/
def put (d : SpoolDir) (file : SpoolFile) : SpoolDir where
  files := (d.remove file.name).files ++ [file]
  nodup := by
    rw [map_append]
    refine List.Nodup.append (d.remove file.name).nodup (by simp) fun name hmem hname => ?_
    obtain ⟨g, hg, rfl⟩ := mem_map.mp hmem
    have hne := (mem_filter.mp hg).2
    simp_all

/-- The batches that the directory holds. -/
def batches (d : SpoolDir) : List Batch := d.files.filterMap (·.content)

variable {d : SpoolDir} {file g : SpoolFile} {name : String}

theorem mem_remove : g ∈ (d.remove name).files ↔ g ∈ d.files ∧ g.name ≠ name := by
  simp [remove]

theorem mem_put : g ∈ (d.put file).files ↔ (g ∈ d.files ∧ g.name ≠ file.name) ∨ g = file := by
  simp [put, mem_remove]

theorem eq_of_name_eq (hg : g ∈ d.files) (hfile : file ∈ d.files) (h : g.name = file.name) : g = file :=
  inj_on_of_nodup_map d.nodup hg hfile h

theorem find?_eq_some : d.find? name = some g ↔ g ∈ d.files ∧ g.name = name := by
  have hfound : ∀ file, d.find? name = some file → file ∈ d.files ∧ file.name = name := by
    intro file h
    have hname := find?_some h
    exact ⟨mem_of_find?_eq_some h, by simpa using hname⟩
  refine ⟨hfound g, fun ⟨hg, hname⟩ => ?_⟩
  cases hfind : d.find? name with
  | none =>
    have hne := find?_eq_none.mp hfind g hg
    exact absurd hname (by simpa using hne)
  | some file =>
    obtain ⟨hfile, hsame⟩ := hfound file hfind
    rw [eq_of_name_eq hg hfile (hname.trans hsame.symm)]

theorem mem_batches {b : Batch} : b ∈ d.batches ↔ ∃ g ∈ d.files, g.content = some b := by
  simp [batches]

theorem length_put_le : (d.put file).files.length ≤ d.files.length + 1 := by
  have hle := length_filter_le (·.name != file.name) d.files
  simpa [put, remove] using hle

theorem length_remove_lt (h : g ∈ d.files) (hname : g.name = name) :
    (d.remove name).files.length < d.files.length :=
  length_filter_lt_length_iff_exists.mpr ⟨g, h, by simp [hname]⟩

end SpoolDir

/-- The name of a chunk: the number that the recorder gives it, padded to eight digits. -/
def spoolName (batchIndex : ℕ) : String :=
  let digits := Nat.toDigits 10 batchIndex
  "batch_" ++ String.ofList (List.replicate (8 - digits.length) '0' ++ digits) ++ ".spool"

/-- The digits of a number, padded to eight. -/
def paddedDigits (n : ℕ) : List Char :=
  List.replicate (8 - (Nat.toDigits 10 n).length) '0' ++ Nat.toDigits 10 n

theorem toList_spoolName (n : ℕ) : (spoolName n).toList =
    "batch_".toList ++ (paddedDigits n ++ ".spool".toList) := by
  simp [spoolName, paddedDigits]

theorem ofDigitChars_paddedDigits (n : ℕ) : Nat.ofDigitChars 10 (paddedDigits n) 0 = n := by
  unfold paddedDigits
  rw [Nat.ofDigitChars_append, Nat.ofDigitChars_replicate_zero, Nat.mul_zero,
    Nat.ofDigitChars_ten_toDigits]

theorem spoolName_injective : Function.Injective spoolName := by
  intro m n h
  have hchars := congrArg String.toList h
  rw [toList_spoolName, toList_spoolName] at hchars
  have hdigits := append_cancel_right (append_cancel_left hchars)
  rw [← ofDigitChars_paddedDigits m, hdigits, ofDigitChars_paddedDigits]

theorem ofDigitChars_cons_zero (c : Char) (cs : List Char) :
    Nat.ofDigitChars 10 (c :: cs) 0 = 10 ^ cs.length * (c.toNat - 48) + Nat.ofDigitChars 10 cs 0 := by
  rw [Nat.ofDigitChars_cons, Nat.ofDigitChars_eq_ofDigitChars_zero, Nat.mul_zero, Nat.zero_add]
  rfl

theorem toNat_of_isDigit {c : Char} (h : c.isDigit = true) : 48 ≤ c.toNat ∧ c.toNat ≤ 57 := by
  simp only [Char.isDigit, Bool.and_eq_true, decide_eq_true_eq] at h
  exact ⟨h.1, h.2⟩

theorem ofDigitChars_lt (cs : List Char) (h : ∀ c ∈ cs, c.isDigit = true) :
    Nat.ofDigitChars 10 cs 0 < 10 ^ cs.length := by
  induction cs with
  | nil => decide
  | cons c cs ih =>
    have hrest := ih fun d hd => h d (mem_cons_of_mem _ hd)
    obtain ⟨hlow, hhigh⟩ := toNat_of_isDigit (h c (mem_cons_self ..))
    rw [ofDigitChars_cons_zero, length_cons, Nat.pow_succ]
    have hfirst : 10 ^ cs.length * (c.toNat - 48) ≤ 10 ^ cs.length * 9 := Nat.mul_le_mul_left _ (by omega)
    omega

theorem append_lt_append_of_ofDigitChars_lt (xs ys rest rest' : List Char) (hlength : xs.length = ys.length)
    (hxs : ∀ c ∈ xs, c.isDigit = true) (hys : ∀ c ∈ ys, c.isDigit = true)
    (hlt : Nat.ofDigitChars 10 xs 0 < Nat.ofDigitChars 10 ys 0) : xs ++ rest < ys ++ rest' := by
  induction xs generalizing ys with
  | nil =>
    obtain rfl := eq_nil_of_length_eq_zero hlength.symm
    omega
  | cons x xs ih =>
    cases ys with
    | nil => simp at hlength
    | cons y ys =>
      have hsame : xs.length = ys.length := by simpa using hlength
      have hy := toNat_of_isDigit (hys y (mem_cons_self ..))
      have hbound := ofDigitChars_lt ys fun d hd => hys d (mem_cons_of_mem _ hd)
      rw [ofDigitChars_cons_zero, ofDigitChars_cons_zero, hsame] at hlt
      rw [cons_append, cons_append, cons_lt_cons_iff]
      rcases lt_trichotomy x.toNat y.toNat with hfirst | hfirst | hfirst
      · exact .inl hfirst
      · refine .inr ⟨Char.toNat_inj.mp hfirst, ih ys hsame (fun d hd => hxs d (mem_cons_of_mem _ hd))
          (fun d hd => hys d (mem_cons_of_mem _ hd)) ?_⟩
        rw [hfirst] at hlt
        omega
      · have hmore : 10 ^ ys.length * (y.toNat - 48 + 1) ≤ 10 ^ ys.length * (x.toNat - 48) :=
          Nat.mul_le_mul_left _ (by omega)
        rw [Nat.mul_add, Nat.mul_one] at hmore
        omega

theorem spoolName_lt {m n : ℕ} (hmn : m < n) (hn : n < 10 ^ 8) : spoolName m < spoolName n := by
  have hlength : ∀ k, k < 10 ^ 8 → (Nat.toDigits 10 k).length ≤ 8 := fun k hk =>
    (Nat.length_toDigits_le_iff (by decide) (by decide)).mpr hk
  have hdigits : ∀ k, ∀ c ∈ paddedDigits k, c.isDigit = true := by
    intro k c hc
    rcases mem_append.mp hc with hc | hc
    · rw [eq_of_mem_replicate hc]
      rfl
    · exact Nat.isDigit_of_mem_toDigits (by decide) (by decide) hc
  have hm := hlength m (by omega)
  have hn' := hlength n hn
  show (spoolName m).toList < (spoolName n).toList
  rw [toList_spoolName, toList_spoolName]
  refine append_left_lt (append_lt_append_of_ofDigitChars_lt _ _ _ _ ?_ (hdigits m) (hdigits n) ?_)
  · unfold paddedDigits
    rw [length_append, length_append, length_replicate, length_replicate]
    omega
  · rw [ofDigitChars_paddedDigits, ofDigitChars_paddedDigits]
    exact hmn

/-- The first of some names in the order of `compareTo`. -/
def firstName : List String → Option String
  | [] => none
  | name :: names =>
    match firstName names with
    | some other => some (if other < name then other else name)
    | none => some name

theorem firstName_mem (h : firstName names = some name) : name ∈ names := by
  induction names generalizing name with
  | nil => simp [firstName] at h
  | cons first rest ih =>
    unfold firstName at h
    split at h
    · rename_i other hother
      have hrest := ih hother
      cases h
      split
      · exact mem_cons_of_mem _ hrest
      · exact mem_cons_self ..
    · cases h
      exact mem_cons_self ..

theorem firstName_eq_none : firstName names = none ↔ names = [] := by
  constructor
  · intro h
    cases names with
    | nil => rfl
    | cons =>
      unfold firstName at h
      split at h <;> simp at h
  · rintro rfl
    rfl

theorem firstName_le {other : String} (h : firstName names = some name) (hother : other ∈ names) :
    name ≤ other := by
  induction names generalizing name with
  | nil => simp at hother
  | cons first rest ih =>
    unfold firstName at h
    split at h
    · rename_i least hleast
      cases h
      rcases mem_cons.mp hother with rfl | hrest
      · split
        · rename_i hlt
          exact String.not_lt.mp (String.lt_asymm hlt)
        · exact String.le_refl _
      · have hle := ih hleast hrest
        split
        · exact hle
        · rename_i hnot
          exact String.le_trans (String.not_lt.mp hnot) hle
    · cases h
      rename_i hnone
      rw [firstName_eq_none.mp hnone] at hother
      obtain rfl := mem_singleton.mp hother
      exact String.le_refl _

/-- `LinkSpoolStorage`, with the directory it works on. -/
structure LinkSpoolStorage where
  currentSpoolBytes : ℤ := 0
  pendingCount : ℕ := 0
  initialized : Bool := false
  dir : SpoolDir

namespace LinkSpoolStorage

def hasPendingChunks (p : LinkSpoolStorage) : Bool := 0 < p.pendingCount

/-- `_ensureInitialized`; `seen` are the names that the listing of the directory reaches before it
ends or fails. -/
def ensureInitialized (p : LinkSpoolStorage) (seen : List String) : LinkSpoolStorage :=
  if p.initialized then p
  else
    let files := p.dir.files.filter fun file => seen.contains file.name
    { p with
      currentSpoolBytes := ((files.map (·.length)).sum : ℕ)
      pendingCount := files.length
      initialized := true }

def sealedLength (doubleText : ℚ → String) (b : Batch) : ℕ := 48 + b.jsonBytes doubleText

/-- `writeBatch` finds the disk at its safety floor or the quota used up; `free` is the free space,
where it could be told. -/
def refusesWrite (p : LinkSpoolStorage) (maxSpoolBytes minFreeDiskBytes : ℤ) (free : Option ℕ)
    (length : ℕ) : Bool :=
  (match free with
    | some bytes => decide ((bytes : ℤ) < minFreeDiskBytes)
    | none => false) ||
    decide (maxSpoolBytes < p.currentSpoolBytes + length)

/-- The end of `writeBatch`: the sealed batch is written and renamed to its name. -/
def write (p : LinkSpoolStorage) (batchIndex : ℕ) (b : Batch) (length : ℕ) : LinkSpoolStorage :=
  { p with
    currentSpoolBytes := p.currentSpoolBytes + length
    pendingCount := p.pendingCount + 1
    dir := p.dir.put { name := spoolName batchIndex, content := some b, length } }

/-- The first of the files that `getPendingBatches` returns; `seen` as in `ensureInitialized`. -/
def firstPending (p : LinkSpoolStorage) (seen : List String) : Option String :=
  firstName ((p.dir.files.map (·.name)).filter seen.contains)

/-- `readBatch`; `ok` is whether the file could be read. -/
def readBatch (p : LinkSpoolStorage) (name : String) (ok : Bool) : Option Batch :=
  if ok then (p.dir.find? name).bind (·.content) else none

/-- `removeBatch`; `ok` is whether the file could be deleted. -/
def removeBatch (p : LinkSpoolStorage) (name : String) (ok : Bool) : LinkSpoolStorage :=
  match p.dir.find? name with
  | some file =>
    if ok then
      { p with
        currentSpoolBytes := max 0 (p.currentSpoolBytes - file.length)
        pendingCount := p.pendingCount - 1
        dir := p.dir.remove name }
    else p
  | none => p

theorem firstPending_mem {p : LinkSpoolStorage} {seen : List String} (h : p.firstPending seen = some name) :
    ∃ g ∈ p.dir.files, g.name = name := by
  have hmem := mem_of_mem_filter (firstName_mem h)
  simpa using hmem

theorem readBatch_eq_some {p : LinkSpoolStorage} {ok : Bool} {b : Batch}
    (h : p.readBatch name ok = some b) : ∃ g ∈ p.dir.files, g.name = name ∧ g.content = some b := by
  unfold readBatch at h
  split at h
  · obtain ⟨g, hg, hb⟩ := Option.bind_eq_some_iff.mp h
    obtain ⟨hmem, hname⟩ := SpoolDir.find?_eq_some.mp hg
    exact ⟨g, hmem, hname, hb⟩
  · simp at h

@[simp] theorem ensureInitialized_dir (p : LinkSpoolStorage) (seen : List String) :
    (p.ensureInitialized seen).dir = p.dir := by
  unfold ensureInitialized
  split <;> rfl

@[simp] theorem ensureInitialized_initialized (p : LinkSpoolStorage) (seen : List String) :
    (p.ensureInitialized seen).initialized = true := by
  unfold ensureInitialized
  split
  · assumption
  · rfl

/-- The counter covers every file: `hasPendingChunks` says so when there is one. -/
def Counts (p : LinkSpoolStorage) : Prop := p.dir.files.length ≤ p.pendingCount

namespace Counts

variable {p : LinkSpoolStorage}

theorem write (h : p.Counts) (batchIndex : ℕ) (b : Batch) (length : ℕ) : (p.write batchIndex b length).Counts :=
  le_trans SpoolDir.length_put_le (Nat.add_le_add_right h 1)

theorem removeBatch (h : p.Counts) (name : String) (ok : Bool) : (p.removeBatch name ok).Counts := by
  unfold LinkSpoolStorage.removeBatch
  split
  · rename_i file hfile
    split
    · obtain ⟨hmem, hname⟩ := SpoolDir.find?_eq_some.mp hfile
      have hlt := SpoolDir.length_remove_lt hmem hname
      have hle : p.dir.files.length ≤ p.pendingCount := h
      show (p.dir.remove name).files.length ≤ p.pendingCount - 1
      omega
    · exact h
  · exact h

theorem ensureInitialized {seen : List String} (h : p.initialized = true → p.Counts)
    (hseen : p.initialized = false → ∀ g ∈ p.dir.files, g.name ∈ seen) :
    (p.ensureInitialized seen).Counts := by
  unfold LinkSpoolStorage.ensureInitialized
  split
  · exact h ‹_›
  · have hall := hseen (by simpa using ‹¬p.initialized = true›)
    have hfilter : p.dir.files.filter (fun file => seen.contains file.name) = p.dir.files :=
      filter_eq_self.mpr fun g hg => by simpa using hall g hg
    show p.dir.files.length ≤ (p.dir.files.filter fun file => seen.contains file.name).length
    rw [hfilter]

theorem files_eq_nil (h : p.Counts) (hnone : p.hasPendingChunks = false) : p.dir.files = [] := by
  have hzero : p.pendingCount = 0 := by simpa [hasPendingChunks] using hnone
  have hle : p.dir.files.length ≤ p.pendingCount := h
  exact eq_nil_of_length_eq_zero (by omega)

end Counts

end LinkSpoolStorage

end LigamentApps.LinkHostRecorder
