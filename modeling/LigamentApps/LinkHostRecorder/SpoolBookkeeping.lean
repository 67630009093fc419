import LigamentApps.Machine.Trace
import LigamentApps.LinkHostRecorder.SpoolStorage

/-!
# The counters of the spool

The calls of `LinkSpoolStorage` one after the other, over the chunks, the temporary files and the key file of
a session's directory. The counters of an instance are zero until its first call that lists the directory. -/

namespace LigamentApps.LinkHostRecorder

open List

/-- A session's directory and the instance of `LinkSpoolStorage` that works on it. -/
structure SpoolSession where
  storage : LinkSpoolStorage
  /-- The length of the temporary file of a chunk, where there is one. -/
  temps : ℕ → Option ℕ
  /-- `.session.key` is there. -/
  hasKey : Bool

/-- What `_ensureInitialized` meets, unless it can make no directory: whether it writes a key file, what its
listing reaches, and the temporary files that it deletes. -/
structure Opening where
  keyWritten : Bool
  seen : List String
  deleted : List ℕ

/-- How the end of `writeBatch` goes. -/
inductive WriteEnd
  | renamed
  /-- The temporary file cannot be written; what there is of it then. -/
  | tempFails (left : Option ℕ)
  | renameFails

/-- The calls, with what the file system decides. -/
inductive SpoolCall
  /-- Another instance is made for the directory. -/
  | reopen
  /-- `hasPending` or `getPendingBatches`. -/
  | hasPending (opening : Option Opening)
  | writeBatch (opening : Option Opening) (batchIndex : ℕ) (b : Batch) (length : ℕ) (free : Option ℕ)
    (ends : WriteEnd)
  | removeBatch (name : String) (ok : Bool)
  | readBatch (name : String) (ok : Bool)

/-- A call that has not done what it is for. -/
inductive SpoolFailure
  | hasPending
  | writeBatch
  | removeBatch
  | readBatch

def SpoolDir.bytes (d : SpoolDir) : ℕ := (d.files.map (·.length)).sum

namespace SpoolSession

variable (maxSpoolBytes : ℕ) (minFreeDiskBytes : ℤ) (s : SpoolSession)

/-- `_ensureInitialized` of an instance that has not listed the directory. -/
def opened (o : Opening) : SpoolSession where
  storage := s.storage.ensureInitialized o.seen
  temps := fun n => if n ∈ o.deleted then none else s.temps n
  hasKey := s.hasKey || o.keyWritten

/-- `_ensureInitialized`, unless it throws. -/
def ensureInitialized (opening : Option Opening) : Option SpoolSession :=
  if s.storage.initialized then some s else opening.map s.opened

/-- `writeBatch` after `_ensureInitialized`. -/
def writeBatch (batchIndex : ℕ) (b : Batch) (length : ℕ) (free : Option ℕ) (ends : WriteEnd) :
    SpoolSession × List SpoolFailure :=
  if s.storage.refusesWrite maxSpoolBytes minFreeDiskBytes free length then (s, [.writeBatch])
  else
    match ends with
    | .renamed =>
      ({ s with storage := s.storage.write batchIndex b length, temps := Function.update s.temps batchIndex none }, [])
    | .tempFails left => ({ s with temps := Function.update s.temps batchIndex left }, [.writeBatch])
    | .renameFails => ({ s with temps := Function.update s.temps batchIndex (some length) }, [.writeBatch])

/-- A call. -/
def step : SpoolCall → SpoolSession × List SpoolFailure
  | .reopen => ({ s with storage := { dir := s.storage.dir } }, [])
  | .hasPending opening =>
    match s.ensureInitialized opening with
    | some t => (t, [])
    | none => (s, [.hasPending])
  | .writeBatch opening batchIndex b length free ends =>
    match s.ensureInitialized opening with
    | some t => t.writeBatch maxSpoolBytes minFreeDiskBytes batchIndex b length free ends
    | none => (s, [.writeBatch])
  | .removeBatch name ok =>
    ({ s with storage := s.storage.removeBatch name ok },
      if ok && (s.storage.dir.find? name).isSome then [] else [.removeBatch])
  | .readBatch name ok => (s, if (s.storage.readBatch name ok).isSome then [] else [.readBatch])

/-- The same files and counters. -/
def Same (s t : SpoolSession) : Prop :=
  t.storage.dir = s.storage.dir ∧ t.temps = s.temps ∧ t.hasKey = s.hasKey ∧
    t.storage.pendingCount = s.storage.pendingCount ∧ t.storage.currentSpoolBytes = s.storage.currentSpoolBytes

end SpoolSession

def spoolCalls (maxSpoolBytes : ℕ) (minFreeDiskBytes : ℤ) : Machine SpoolSession SpoolCall SpoolFailure :=
  ⟨fun s a => some (s.step maxSpoolBytes minFreeDiskBytes a)⟩

/-- The counters are those of the directory, and the chunks are within the quota. -/
structure LinkSpoolStorage.Books (p : LinkSpoolStorage) (maxSpoolBytes : ℕ) : Prop where
  count : p.pendingCount = p.dir.files.length
  bytes : p.currentSpoolBytes = p.dir.bytes
  quota : p.dir.bytes ≤ maxSpoolBytes

/-- The books are right after a call, and a call that fails leaves the files and the counters as they were. -/
def BooksKept (maxSpoolBytes : ℕ) (minFreeDiskBytes : ℤ) (s : SpoolSession) (_ : List SpoolFailure)
    (a : SpoolCall) : Prop :=
  (s.step maxSpoolBytes minFreeDiskBytes a).1.storage.Books maxSpoolBytes ∧
    ((s.step maxSpoolBytes minFreeDiskBytes a).2 ≠ [] → s.Same (s.step maxSpoolBytes minFreeDiskBytes a).1)

/-- The instance has listed the directory, or there is nothing to list. -/
def SpoolSession.Counted (s : SpoolSession) : Prop := s.storage.initialized = true ∨ s.storage.dir.files = []

/-- The first listing finds no chunk, and neither a key file is written nor a temporary file deleted, but for
one that is written anew. -/
def SpoolSession.Quiet (s : SpoolSession) (o : Opening) (rewritten : Option ℕ) : Prop :=
  s.storage.dir.files = [] ∧ (o.keyWritten = true → s.hasKey = true) ∧
    ∀ n ∈ o.deleted, some n ≠ rewritten → s.temps n = none

/-- What `writeBatch` must find after `_ensureInitialized`, by how it ends: `renamed` and `unchanged` are
asked of a chunk that is written, and of a write that fails. -/
def WritesWell (refuses : Bool) (temps : ℕ → Option ℕ) (batchIndex length : ℕ) (renamed : Prop)
    (unchanged : Option ℕ → Prop) : WriteEnd → Prop
  | .renamed => if refuses then unchanged none else renamed
  | .tempFails left => if refuses then unchanged none else unchanged (some batchIndex) ∧ left = temps batchIndex
  | .renameFails => if refuses then unchanged none else unchanged (some batchIndex) ∧ some length = temps batchIndex

/-- An instance is made anew only for a directory without chunks, and without listing it used only for one.
The first listing reaches every chunk and finds them within the quota. A chunk is renamed to a name that is
free; that of an instance which had not listed the directory finds as many chunks and bytes listed as there
are besides it. And a write that fails is not the first use of a directory that has to be set up, and leaves
the temporary file as it was. -/
def Orderly (maxSpoolBytes : ℕ) (minFreeDiskBytes : ℤ) (s : SpoolSession) (_ : List SpoolFailure) :
    SpoolCall → Prop
  | .reopen => s.storage.dir.files = []
  | .hasPending opening => s.Counted ∨ ∃ o, opening = some o ∧
      (∀ g ∈ s.storage.dir.files, g.name ∈ o.seen) ∧ s.storage.dir.bytes ≤ maxSpoolBytes
  | .writeBatch opening batchIndex _ length free ends =>
    if s.storage.initialized then
      WritesWell (s.storage.refusesWrite maxSpoolBytes minFreeDiskBytes free length) s.temps batchIndex length
        (s.storage.dir.find? (spoolName batchIndex) = none) (fun _ => True) ends
    else
      match opening with
      | none => s.storage.dir.files = []
      | some o =>
        let others := s.storage.dir.remove (spoolName batchIndex)
        let listed := s.storage.dir.files.filter fun file => o.seen.contains file.name
        WritesWell ((s.opened o).storage.refusesWrite maxSpoolBytes minFreeDiskBytes free length) s.temps batchIndex
          length (listed.length = others.files.length ∧ (listed.map (·.length)).sum = others.bytes) (s.Quiet o) ends
  | .removeBatch name ok =>
    s.Counted ∨ ok = true ∧ ∃ file, s.storage.dir.files = [file] ∧ file.name = name
  | .readBatch _ _ => s.Counted

/-- What is known between two calls: the books of an instance that has listed the directory are right, and one
that has not has counted nothing. -/
structure BooksKnown (maxSpoolBytes : ℕ) (s : SpoolSession) : Prop where
  seen : s.storage.initialized = true → s.storage.Books maxSpoolBytes
  unseen : s.storage.initialized = false → s.storage.pendingCount = 0 ∧ s.storage.currentSpoolBytes = 0

section Directory

variable {d : SpoolDir} {file : SpoolFile} {name : String}

theorem SpoolDir.perm_remove (h : d.find? name = some file) : d.files.Perm (file :: (d.remove name).files) := by
  obtain ⟨hname, before, after, hsplit, hbefore⟩ := find?_eq_some_iff_append.mp h
  have hnodup := d.nodup
  rw [hsplit, map_append, map_cons, nodup_middle, nodup_cons] at hnodup
  have hfile : file.name = name := by simpa using hname
  have hrest : (d.remove name).files = before ++ after := by
    show d.files.filter _ = _
    have hfirst : before.filter (·.name != name) = before :=
      filter_eq_self.mpr fun g hg => by simpa using hbefore g hg
    have hlast : after.filter (·.name != name) = after := by
      refine filter_eq_self.mpr fun g hg => bne_iff_ne.mpr fun hsame => hnodup.1 ?_
      rw [← map_append, hfile, ← hsame]
      exact mem_map_of_mem (mem_append_right _ hg)
    rw [hsplit, filter_append, filter_cons_of_neg (by simp [hfile]), hfirst, hlast]
  rw [hrest, hsplit]
  exact perm_middle

theorem SpoolDir.bytes_remove (h : d.find? name = some file) : d.bytes = file.length + (d.remove name).bytes := by
  have hsum := ((perm_remove h).map (·.length)).sum_nat
  simpa [bytes] using hsum

theorem SpoolDir.remove_nil_iff (h : d.find? name = some file) : (d.remove name).files = [] ↔ d.files = [file] := by
  have hperm := perm_remove h
  constructor
  · intro hnil
    rw [hnil] at hperm
    exact perm_singleton.mp hperm
  · intro hone
    have hlength := hperm.length_eq
    rw [hone, length_singleton, length_cons] at hlength
    exact eq_nil_of_length_eq_zero (by omega)

end Directory

section Calls

variable {maxSpoolBytes : ℕ} {minFreeDiskBytes : ℤ} {s : SpoolSession}

theorem LinkSpoolStorage.Books.removeBatch {p : LinkSpoolStorage} (h : p.Books maxSpoolBytes) (name : String)
    (ok : Bool) : (p.removeBatch name ok).Books maxSpoolBytes := by
  obtain ⟨hcount, hbytes, hquota⟩ := h
  unfold LinkSpoolStorage.removeBatch
  cases hfind : p.dir.find? name with
  | none => exact ⟨hcount, hbytes, hquota⟩
  | some file =>
    cases ok with
    | false => exact ⟨hcount, hbytes, hquota⟩
    | true =>
      have hlength := (SpoolDir.perm_remove hfind).length_eq
      have hsum := SpoolDir.bytes_remove hfind
      rw [length_cons] at hlength
      refine ⟨?_, ?_, ?_⟩
      · show p.pendingCount - 1 = (p.dir.remove name).files.length
        omega
      · show max 0 (p.currentSpoolBytes - file.length) = ((p.dir.remove name).bytes : ℤ)
        omega
      · show (p.dir.remove name).bytes ≤ _
        omega

theorem initialized_removeBatch (p : LinkSpoolStorage) (name : String) (ok : Bool) :
    (p.removeBatch name ok).initialized = p.initialized := by
  unfold LinkSpoolStorage.removeBatch
  split <;> [split <;> rfl; rfl]

theorem removeBatch_unseen {p : LinkSpoolStorage} (h : p.pendingCount = 0 ∧ p.currentSpoolBytes = 0) (name : String)
    (ok : Bool) : (p.removeBatch name ok).pendingCount = 0 ∧ (p.removeBatch name ok).currentSpoolBytes = 0 := by
  unfold LinkSpoolStorage.removeBatch
  split
  · split
    · refine ⟨by rw [h.1], ?_⟩
      show max 0 (p.currentSpoolBytes - _) = 0
      omega
    · exact h
  · exact h

/-- The books of an instance that has counted nothing are right where there is nothing. -/
theorem books_unseen {p : LinkSpoolStorage} (h : p.pendingCount = 0 ∧ p.currentSpoolBytes = 0) :
    p.Books maxSpoolBytes ↔ p.dir.files = [] := by
  constructor
  · exact fun hbooks => eq_nil_of_length_eq_zero (hbooks.count.symm.trans h.1)
  · intro hfiles
    have hzero : p.dir.bytes = 0 := by
      unfold SpoolDir.bytes
      rw [hfiles]
      rfl
    exact ⟨by rw [h.1, hfiles]; rfl, by rw [h.2, hzero]; rfl, by omega⟩

theorem BooksKnown.books_iff (h : BooksKnown maxSpoolBytes s) : s.storage.Books maxSpoolBytes ↔ s.Counted := by
  unfold SpoolSession.Counted
  cases hnew : s.storage.initialized with
  | true => simp [h.seen hnew]
  | false => simp [books_unseen (h.unseen hnew)]

theorem ensureInitialized_eq {p : LinkSpoolStorage} (hnew : p.initialized = false) (seen : List String) :
    p.ensureInitialized seen =
      { p with
        currentSpoolBytes := (((p.dir.files.filter fun file => seen.contains file.name).map (·.length)).sum : ℕ)
        pendingCount := (p.dir.files.filter fun file => seen.contains file.name).length
        initialized := true } := by
  unfold LinkSpoolStorage.ensureInitialized
  rw [if_neg (by simp [hnew])]

theorem books_ensureInitialized {p : LinkSpoolStorage} (hnew : p.initialized = false) (seen : List String) :
    (p.ensureInitialized seen).Books maxSpoolBytes ↔
      (∀ g ∈ p.dir.files, g.name ∈ seen) ∧ p.dir.bytes ≤ maxSpoolBytes := by
  rw [ensureInitialized_eq hnew]
  constructor
  · rintro ⟨hcount, -, hquota⟩
    have hall := length_filter_eq_length_iff.mp hcount
    exact ⟨fun g hg => by simpa using hall g hg, hquota⟩
  · rintro ⟨hall, hquota⟩
    have hfilter : (p.dir.files.filter fun file => seen.contains file.name) = p.dir.files :=
      filter_eq_self.mpr fun g hg => by simpa using hall g hg
    exact ⟨congrArg List.length hfilter, by rw [hfilter]; rfl, hquota⟩

/-- A chunk that is written is counted besides those of other names. -/
theorem books_write {p : LinkSpoolStorage} {length : ℕ} (hfits : p.currentSpoolBytes + length ≤ maxSpoolBytes)
    (batchIndex : ℕ) (b : Batch) : (p.write batchIndex b length).Books maxSpoolBytes ↔
      p.pendingCount = (p.dir.remove (spoolName batchIndex)).files.length ∧
        p.currentSpoolBytes = (p.dir.remove (spoolName batchIndex)).bytes := by
  let file : SpoolFile := ⟨spoolName batchIndex, some b, length⟩
  have hlength : (p.dir.put file).files.length = (p.dir.remove (spoolName batchIndex)).files.length + 1 :=
    length_append
  have hsum : (p.dir.put file).bytes = (p.dir.remove (spoolName batchIndex)).bytes + length := by
    show (((p.dir.remove (spoolName batchIndex)).files ++ [file]).map (·.length)).sum = _
    rw [map_append, sum_append]
    rfl
  constructor
  · rintro ⟨hcount, hbytes, -⟩
    change p.pendingCount + 1 = (p.dir.put file).files.length at hcount
    change p.currentSpoolBytes + length = ((p.dir.put file).bytes : ℤ) at hbytes
    omega
  · rintro ⟨hcount, hbytes⟩
    refine ⟨?_, ?_, ?_⟩
    · show p.pendingCount + 1 = (p.dir.put file).files.length
      omega
    · show p.currentSpoolBytes + length = ((p.dir.put file).bytes : ℤ)
      omega
    · show (p.dir.put file).bytes ≤ maxSpoolBytes
      omega

theorem books_write_known {p : LinkSpoolStorage} (h : p.Books maxSpoolBytes) {length : ℕ}
    (hfits : p.currentSpoolBytes + length ≤ maxSpoolBytes) (batchIndex : ℕ) (b : Batch) :
    (p.write batchIndex b length).Books maxSpoolBytes ↔ p.dir.find? (spoolName batchIndex) = none := by
  rw [books_write hfits, h.count, h.bytes]
  cases hfind : p.dir.find? (spoolName batchIndex) with
  | none =>
    have hall : (p.dir.remove (spoolName batchIndex)).files = p.dir.files :=
      filter_eq_self.mpr fun g hg => by simpa using find?_eq_none.mp hfind g hg
    refine iff_of_true ⟨by rw [hall], ?_⟩ rfl
    unfold SpoolDir.bytes
    rw [hall]
  | some =>
    have hlength := (SpoolDir.perm_remove hfind).length_eq
    rw [length_cons] at hlength
    exact iff_of_false (fun hsame => by omega) (by simp)

theorem fits_of_not_refuses {p : LinkSpoolStorage} {free : Option ℕ} {length : ℕ}
    (h : p.refusesWrite maxSpoolBytes minFreeDiskBytes free length = false) :
    p.currentSpoolBytes + length ≤ maxSpoolBytes := by
  simp only [LinkSpoolStorage.refusesWrite, Bool.or_eq_false_iff, decide_eq_false_iff_not] at h
  exact Int.not_lt.mp h.2

/-- The temporary files after the first listing and a write that fails, where nothing else has changed. -/
theorem temps_eq_iff (o : Opening) (batchIndex : ℕ) (left : Option ℕ) :
    Function.update (s.opened o).temps batchIndex left = s.temps ↔
      (∀ n ∈ o.deleted, some n ≠ some batchIndex → s.temps n = none) ∧ left = s.temps batchIndex := by
  rw [funext_iff]
  simp only [Function.update_apply, SpoolSession.opened, ne_eq, Option.some.injEq]
  constructor
  · refine fun h => ⟨fun n hn hne => ?_, by simpa using h batchIndex⟩
    have hdeleted := h n
    rw [if_neg hne, if_pos hn] at hdeleted
    exact hdeleted.symm
  · rintro ⟨hquiet, rfl⟩ n
    split_ifs with hsame hdeleted
    · rw [hsame]
    · exact (hquiet n hdeleted hsame).symm
    · rfl

theorem temps_opened_iff (o : Opening) : (s.opened o).temps = s.temps ↔
    ∀ n ∈ o.deleted, some n ≠ (none : Option ℕ) → s.temps n = none := by
  rw [funext_iff]
  constructor
  · intro h n hn _
    have hdeleted := h n
    simp only [SpoolSession.opened, if_pos hn] at hdeleted
    exact hdeleted.symm
  · intro h n
    simp only [SpoolSession.opened]
    split_ifs with hdeleted
    · exact (h n hdeleted (by simp)).symm
    · rfl

/-- Right books, and files and counters as before, after the first listing: it was quiet. -/
theorem quiet_iff (h : BooksKnown maxSpoolBytes s) (hnew : s.storage.initialized = false) (o : Opening)
    (rewritten : Option ℕ) {temps : ℕ → Option ℕ} {rest : Prop}
    (htemps : temps = s.temps ↔ (∀ n ∈ o.deleted, some n ≠ rewritten → s.temps n = none) ∧ rest) :
    ((s.opened o).storage.Books maxSpoolBytes ∧ s.Same { s.opened o with temps }) ↔ s.Quiet o rewritten ∧ rest := by
  obtain ⟨hcount, hbytes⟩ := h.unseen hnew
  have hkey : (s.hasKey || o.keyWritten) = s.hasKey ↔ (o.keyWritten = true → s.hasKey = true) := by
    cases s.hasKey <;> cases o.keyWritten <;> decide
  have hstorage : (s.opened o).storage = _ := ensureInitialized_eq hnew o.seen
  unfold SpoolSession.Same SpoolSession.Quiet
  constructor
  · rintro ⟨hbooks, -, hsame, hkept, hcounted, -⟩
    have hfiles := hbooks.count
    rw [hcounted, hcount, hstorage] at hfiles
    obtain ⟨hquiet, hrest⟩ := htemps.mp hsame
    exact ⟨⟨eq_nil_of_length_eq_zero hfiles.symm, hkey.mp hkept, hquiet⟩, hrest⟩
  · rintro ⟨⟨hfiles, hkept, hquiet⟩, hrest⟩
    have hzero : (s.opened o).storage = { s.storage with initialized := true } := by
      rw [hstorage, hfiles]
      simp [hcount, hbytes]
    have hbooks : ({ s.storage with initialized := true } : LinkSpoolStorage).Books maxSpoolBytes := by
      refine (books_unseen ?_).mpr ?_
      · exact ⟨hcount, hbytes⟩
      · exact hfiles
    rw [hzero]
    exact ⟨hbooks, rfl, htemps.mpr ⟨hquiet, hrest⟩, hkey.mpr hkept, rfl, rfl⟩

theorem booksKept_write_known (h : BooksKnown maxSpoolBytes s) (hseen : s.storage.initialized = true)
    (batchIndex : ℕ) (b : Batch) (length : ℕ) (free : Option ℕ) (ends : WriteEnd) :
    ((s.writeBatch maxSpoolBytes minFreeDiskBytes batchIndex b length free ends).1.storage.Books maxSpoolBytes ∧
      ((s.writeBatch maxSpoolBytes minFreeDiskBytes batchIndex b length free ends).2 ≠ [] →
        s.Same (s.writeBatch maxSpoolBytes minFreeDiskBytes batchIndex b length free ends).1)) ↔
      WritesWell (s.storage.refusesWrite maxSpoolBytes minFreeDiskBytes free length) s.temps batchIndex length
        (s.storage.dir.find? (spoolName batchIndex) = none) (fun _ => True) ends := by
  have hbooks := h.seen hseen
  unfold SpoolSession.writeBatch
  cases hrefuses : s.storage.refusesWrite maxSpoolBytes minFreeDiskBytes free length with
  | true => cases ends <;> simp [WritesWell, hbooks, SpoolSession.Same]
  | false =>
    have hfits := fits_of_not_refuses hrefuses
    cases ends with
    | renamed => simp [WritesWell, books_write_known hbooks hfits]
    | tempFails left | renameFails =>
      simp [WritesWell, hbooks, SpoolSession.Same]

theorem booksKept_write_new (h : BooksKnown maxSpoolBytes s) (hnew : s.storage.initialized = false)
    (o : Opening) (batchIndex : ℕ) (b : Batch) (length : ℕ) (free : Option ℕ) (ends : WriteEnd) :
    (((s.opened o).writeBatch maxSpoolBytes minFreeDiskBytes batchIndex b length free ends).1.storage.Books
        maxSpoolBytes ∧
      (((s.opened o).writeBatch maxSpoolBytes minFreeDiskBytes batchIndex b length free ends).2 ≠ [] →
        s.Same ((s.opened o).writeBatch maxSpoolBytes minFreeDiskBytes batchIndex b length free ends).1)) ↔
      WritesWell ((s.opened o).storage.refusesWrite maxSpoolBytes minFreeDiskBytes free length) s.temps batchIndex length
        ((s.storage.dir.files.filter fun file => o.seen.contains file.name).length =
            (s.storage.dir.remove (spoolName batchIndex)).files.length ∧
          ((s.storage.dir.files.filter fun file => o.seen.contains file.name).map (·.length)).sum =
            (s.storage.dir.remove (spoolName batchIndex)).bytes) (s.Quiet o) ends := by
  have hdir : (s.opened o).storage.dir = s.storage.dir := LinkSpoolStorage.ensureInitialized_dir ..
  unfold SpoolSession.writeBatch
  cases hrefuses : (s.opened o).storage.refusesWrite maxSpoolBytes minFreeDiskBytes free length with
  | true =>
    have htemps : (s.opened o).temps = s.temps ↔ (∀ n ∈ o.deleted, some n ≠ none → s.temps n = none) ∧ True := by
      rw [temps_opened_iff, and_true]
    have hquiet := quiet_iff h hnew o none htemps
    cases ends <;> simpa [WritesWell] using hquiet
  | false =>
    cases ends with
    | renamed =>
      have hwritten := books_write (fits_of_not_refuses hrefuses) batchIndex b
      rw [hdir, show (s.opened o).storage = _ from ensureInitialized_eq hnew o.seen] at hwritten
      simp only [Nat.cast_inj] at hwritten
      simpa [WritesWell, SpoolSession.opened, ensureInitialized_eq hnew] using hwritten
    | tempFails left =>
      have hquiet := quiet_iff h hnew o (some batchIndex) (temps_eq_iff o batchIndex left)
      simpa [WritesWell] using hquiet
    | renameFails =>
      have hquiet := quiet_iff h hnew o (some batchIndex) (temps_eq_iff o batchIndex (some length))
      simpa [WritesWell] using hquiet

/-- The books are kept by one call exactly where it is orderly. -/
theorem booksKept_iff (h : BooksKnown maxSpoolBytes s) (es : List SpoolFailure) (a : SpoolCall) :
    BooksKept maxSpoolBytes minFreeDiskBytes s es a ↔ Orderly maxSpoolBytes minFreeDiskBytes s es a := by
  have hsame : s.Same s := ⟨rfl, rfl, rfl, rfl, rfl⟩
  unfold BooksKept
  cases a with
  | reopen =>
    refine (and_iff_left fun hne => absurd rfl hne).trans ?_
    exact books_unseen ⟨rfl, rfl⟩
  | readBatch => exact (and_iff_left fun _ => hsame).trans h.books_iff
  | removeBatch name ok =>
    refine (and_iff_left fun hfails => ?_).trans ?_
    · have hkeeps : s.storage.removeBatch name ok = s.storage := by
        unfold LinkSpoolStorage.removeBatch
        cases hfind : s.storage.dir.find? name with
        | none => rfl
        | some file =>
          cases ok with
          | false => rfl
          | true => exact absurd hfails (by simp [SpoolSession.step, hfind])
      show s.Same { s with storage := s.storage.removeBatch name ok }
      rw [hkeeps]
      exact hsame
    · show (s.storage.removeBatch name ok).Books maxSpoolBytes ↔ s.Counted ∨ _
      unfold SpoolSession.Counted
      cases hnew : s.storage.initialized with
      | true => exact iff_of_true ((h.seen hnew).removeBatch name ok) (.inl (.inl rfl))
      | false =>
        rw [books_unseen (removeBatch_unseen (h.unseen hnew) name ok)]
        unfold LinkSpoolStorage.removeBatch
        cases hfind : s.storage.dir.find? name with
        | none =>
          refine ⟨fun hfiles => .inl (.inr hfiles), fun hcounted => ?_⟩
          rcases hcounted with hcounted | ⟨-, file, hfiles, hname⟩
          · exact hcounted.resolve_left (by simp)
          · simp [SpoolDir.find?, hfiles, hname] at hfind
        | some file =>
          obtain ⟨hmem, hname⟩ := SpoolDir.find?_eq_some.mp hfind
          have hne : s.storage.dir.files ≠ [] := ne_nil_of_mem hmem
          cases ok with
          | false => simp [hne]
          | true =>
            simp only [if_true, SpoolDir.remove_nil_iff hfind, hne, Bool.false_eq_true, or_self, false_or, true_and]
            refine ⟨fun hone => ⟨file, hone, hname⟩, ?_⟩
            rintro ⟨other, hone, -⟩
            rw [hone, mem_singleton] at hmem
            rw [hone, hmem]
  | hasPending opening =>
    unfold SpoolSession.step SpoolSession.ensureInitialized
    cases hnew : s.storage.initialized with
    | true => exact iff_of_true ⟨h.seen hnew, fun hne => absurd rfl hne⟩ (.inl (.inl hnew))
    | false =>
      cases opening with
      | none =>
        refine (and_iff_left fun _ => hsame).trans (h.books_iff.trans ?_)
        simp [Orderly]
      | some o =>
        refine (and_iff_left fun hne => absurd rfl hne).trans ?_
        refine (books_ensureInitialized hnew o.seen).trans ?_
        simp only [Orderly, SpoolSession.Counted, hnew, Bool.false_eq_true, false_or, Option.some.injEq,
          exists_eq_left']
        refine ⟨.inr, fun hfound => hfound.elim (fun hfiles => ?_) id⟩
        exact ⟨by simp [hfiles], by simp [SpoolDir.bytes, hfiles]⟩
  | writeBatch opening batchIndex b length free ends =>
    unfold SpoolSession.step SpoolSession.ensureInitialized
    cases hnew : s.storage.initialized with
    | true =>
      refine (booksKept_write_known h hnew ..).trans ?_
      simp [Orderly, hnew]
    | false =>
      cases opening with
      | none =>
        refine (and_iff_left fun _ => hsame).trans (h.books_iff.trans ?_)
        simp [Orderly, SpoolSession.Counted, hnew]
      | some o =>
        refine (booksKept_write_new h hnew o batchIndex b length free ends).trans ?_
        simp [Orderly, hnew]

theorem BooksKnown.step (h : BooksKnown maxSpoolBytes s) {es : List SpoolFailure} {a : SpoolCall}
    (hkeeps : BooksKept maxSpoolBytes minFreeDiskBytes s es a) :
    BooksKnown maxSpoolBytes (s.step maxSpoolBytes minFreeDiskBytes a).1 := by
  refine ⟨fun _ => hkeeps.1, ?_⟩
  have hopened : ∀ o : Opening, (s.opened o).storage.initialized = true := fun o =>
    LinkSpoolStorage.ensureInitialized_initialized ..
  cases a with
  | reopen => exact fun _ => ⟨rfl, rfl⟩
  | readBatch => exact h.unseen
  | removeBatch name ok =>
    exact fun hnew => removeBatch_unseen (h.unseen ((initialized_removeBatch ..).symm.trans hnew)) name ok
  | hasPending opening =>
    unfold SpoolSession.step SpoolSession.ensureInitialized
    cases hseen : s.storage.initialized with
    | true => exact h.unseen
    | false =>
      cases opening with
      | none => exact h.unseen
      | some o => exact fun hnew => absurd ((hopened o).symm.trans hnew) (by simp)
  | writeBatch opening batchIndex b length free ends =>
    have hwrites : ∀ t : SpoolSession, t.storage.initialized = true →
        (t.writeBatch maxSpoolBytes minFreeDiskBytes batchIndex b length free ends).1.storage.initialized = true := by
      intro t ht
      unfold SpoolSession.writeBatch
      split
      · exact ht
      · cases ends <;> exact ht
    unfold SpoolSession.step SpoolSession.ensureInitialized
    cases hseen : s.storage.initialized with
    | true => exact fun hnew => absurd ((hwrites s hseen).symm.trans hnew) (by simp)
    | false =>
      cases opening with
      | none => exact h.unseen
      | some o => exact fun hnew => absurd ((hwrites _ (hopened o)).symm.trans hnew) (by simp)

end Calls

/-- Over every sequence of calls: the books are right after each of them, and a call that fails changes
nothing, exactly when every call is orderly. -/
theorem spool_books_iff (maxSpoolBytes : ℕ) (minFreeDiskBytes : ℤ) (d : SpoolDir) (temps : ℕ → Option ℕ)
    (hasKey : Bool) (as : List SpoolCall) :
    (spoolCalls maxSpoolBytes minFreeDiskBytes).Every (BooksKept maxSpoolBytes minFreeDiskBytes)
        ⟨{ dir := d }, temps, hasKey⟩ [] as ↔
      (spoolCalls maxSpoolBytes minFreeDiskBytes).Every (Orderly maxSpoolBytes minFreeDiskBytes)
        ⟨{ dir := d }, temps, hasKey⟩ [] as := by
  refine Machine.every_iff (fun s _ => BooksKnown maxSpoolBytes s) (fun s es a t fs h horderly hstep => ?_)
    (fun _ es a h => booksKept_iff h es a) as _ [] ⟨by simp, fun _ => ⟨rfl, rfl⟩⟩
  have hsame : s.step maxSpoolBytes minFreeDiskBytes a = (t, fs) := Option.some.inj hstep
  have hnext := h.step ((booksKept_iff h es a).mpr horderly)
  rwa [hsame] at hnext

/-- The number of a chunk is used twice, as the next recorder of a session does. -/
theorem overwritten_chunk_counted : ¬∀ (maxSpoolBytes : ℕ) (minFreeDiskBytes : ℤ) (d : SpoolDir)
    (temps : ℕ → Option ℕ) (hasKey : Bool) (as : List SpoolCall), (spoolCalls maxSpoolBytes minFreeDiskBytes).Every
      (BooksKept maxSpoolBytes minFreeDiskBytes) ⟨{ dir := d }, temps, hasKey⟩ [] as := by
  intro h
  let write : SpoolCall := .writeBatch (some ⟨true, [], []⟩) 1 ⟨"s", 1, 45, [], []⟩ 60 none .renamed
  have hcheck : ((spoolCalls 1000 0).exec (fun _ _ _ => true) ⟨{ dir := .empty }, fun _ => none, false⟩ []
      [write]).any (fun r => (r.1.step 1000 0 write).1.storage.pendingCount !=
        (r.1.step 1000 0 write).1.storage.dir.files.length) = true := by
    decide +kernel
  obtain ⟨s, es, hpath, hs⟩ := Machine.path_of_check hcheck
  have hkeeps : BooksKept 1000 0 s es write :=
    (h 1000 0 .empty (fun _ => none) false ([write] ++ [write])).good hpath
  exact absurd hkeeps.1.count (by simpa using hs)

end LigamentApps.LinkHostRecorder
