import LigamentApps.LinkAgent.DiskSpooler
import LigamentApps.Machine.Prune

/-!
# The quota of the agent's spool

`DiskSpooler.WriteBatch` over the whole of `baseDir`: a directory of each session, and the pruning that
follows a chunk that was written. Of a file only its name, size and time count here. Times are in nanoseconds,
and zero is the time for which Go's `IsZero` holds. What the file system decides in a call is its
`WriteOutcomes`.

The directory of the session that writes is the one that `filepath.Join(baseDir, sessionID)` is the path of,
and `ReadDir` lists it as `entry`: for "a/", "./a" and, where case is folded, maybe "A" that is "a". The
pruning looks for the session id itself among the listed names. Ids whose directory is no entry of `baseDir`
are no concern here. -/

namespace LigamentApps.LinkAgent

open List

variable {id : String}

/-- A file of a session's directory. -/
structure ChunkFile where
  name : String
  size : ℕ
  modTime : ℤ

/-- A directory in `baseDir`; `id` is its name as `ReadDir` lists it. -/
structure SessionDir where
  id : String
  files : List ChunkFile

/-- The directories in `baseDir`. -/
structure SpoolRoot where
  sessions : List SessionDir
  nodup : (sessions.map (·.id)).Nodup

variable {r : SpoolRoot}

/-- What `enforceQuotaLocked` meets. -/
structure QuotaOutcomes where
  /-- `baseDir` can be listed. -/
  lists : Bool
  /-- The directory of a session can be listed. -/
  listsSession : String → Bool
  /-- `Info` of a file of a session succeeds. -/
  info : String → String → Bool
  /-- What `RemoveAll` of a session's directory deletes: everything, or some files before it fails. -/
  removes : String → Option (List String)

variable {o : QuotaOutcomes}

/-- What `WriteBatch` meets. -/
structure WriteOutcomes where
  /-- The session's directory exists or can be made. -/
  ensures : Bool
  marshals : Bool
  /-- The size of the temporary file after a write that fails, if there is a file. -/
  writeFails : Option (Option ℕ)
  renames : Bool
  removesTemp : Bool
  quota : QuotaOutcomes

/-- The errors of `WriteBatch`. -/
inductive WriteBatchError
  | ensureSessionDir
  | marshalBatch
  | writeTempChunk
  | commitChunk

/-- The text of an error, before the error that it wraps. -/
def WriteBatchError.text : WriteBatchError → String
  | .ensureSessionDir => "spooler: ensure session dir: "
  | .marshalBatch => "spooler: marshal batch: "
  | .writeTempChunk => "spooler: write temp chunk: "
  | .commitChunk => "spooler: commit chunk: "

variable (d : SessionDir)

/-- The size of a session's files. -/
def SessionDir.size : ℤ := (d.files.map fun f => (f.size : ℤ)).sum

/-- The directory with a file, in place of an earlier one of its name. -/
def SessionDir.put (f : ChunkFile) : SessionDir :=
  { d with files := d.files.filter (·.name != f.name) ++ [f] }

/-- The directory without the files of some names. -/
def SessionDir.without (names : List String) : SessionDir :=
  { d with files := d.files.filter fun f => !names.contains f.name }

/-- The size of the files of all sessions. -/
def totalSize (sessions : List SessionDir) : ℤ := (sessions.map (·.size)).sum

namespace SpoolRoot

variable (r : SpoolRoot)

/-- The directories after a change of one of them. -/
def update (id : String) (change : SessionDir → List ChunkFile) : SpoolRoot where
  sessions := r.sessions.map fun d => if d.id = id then { d with files := change d } else d
  nodup := by
    rw [map_map]
    have hsame : ((·.id) ∘ fun d : SessionDir => if d.id = id then { d with files := change d } else d) =
        (·.id) := by
      funext d
      dsimp only [Function.comp_apply]
      split <;> rfl
    rw [hsame]
    exact r.nodup

/-- `ensureSecureDirectory`. -/
def ensure (id : String) : SpoolRoot where
  sessions := if r.sessions.any (·.id == id) then r.sessions else r.sessions ++ [{ id, files := [] }]
  nodup := by
    split
    · exact r.nodup
    · rename_i hnone
      rw [map_append]
      refine List.Nodup.append r.nodup (nodup_singleton id) fun other hother hsame => hnone ?_
      obtain ⟨d, hd, rfl⟩ := mem_map.mp hother
      exact any_eq_true.mpr ⟨d, hd, by simpa using hsame⟩

/-- The root without a session's directory. -/
def remove (id : String) : SpoolRoot where
  sessions := r.sessions.filter (·.id ≠ id)
  nodup := r.nodup.sublist (filter_sublist.map _)

/-- `RemoveAll` of a session's directory. -/
def removeAll (o : QuotaOutcomes) (id : String) : SpoolRoot :=
  match o.removes id with
  | none => r.remove id
  | some names => r.update id fun d => (d.without names).files

end SpoolRoot

structure DirInfo where
  id : String
  modTime : ℤ
  size : ℤ

/-- The oldest of some times, as the loop over the files computes it from its initial value. -/
def oldestFrom (oldest : ℤ) (times : List ℤ) : ℤ :=
  times.foldl (fun oldest t => if oldest = 0 ∨ t < oldest then t else oldest) oldest

/-- What the scan makes of a directory. -/
def scanDir (o : QuotaOutcomes) (d : SessionDir) : DirInfo :=
  let files := d.files.filter fun f => o.info d.id f.name
  { id := d.id
    modTime := oldestFrom 0 (files.map (·.modTime))
    size := (files.map fun f => (f.size : ℤ)).sum }

/-- `sort.Slice` by the times: no element is before an earlier one, and elements of one time may come in any
order. -/
structure SortSlice where
  sort : List DirInfo → List DirInfo
  perm : ∀ xs, (sort xs).Perm xs
  sorted : ∀ xs, (sort xs).Pairwise fun a b => ¬ b.modTime < a.modTime

variable (sort : SortSlice)

/-- The loop over the sorted directories. The second component is the directories that it takes, in order. -/
def pruneLoop (o : QuotaOutcomes) (maxBytes : ℤ) (protectSessionID : String) :
    List DirInfo → ℤ → SpoolRoot → SpoolRoot × List DirInfo
  | [], _, r => (r, [])
  | d :: dirs, totalBytes, r =>
    if totalBytes ≤ maxBytes then (r, [])
    else if d.id = protectSessionID then pruneLoop o maxBytes protectSessionID dirs totalBytes r
    else
      let rest := pruneLoop o maxBytes protectSessionID dirs (totalBytes - d.size) (r.removeAll o d.id)
      (rest.1, d :: rest.2)

def enforceQuotaLocked (sort : SortSlice) (o : QuotaOutcomes) (maxBytes : ℤ) (protectSessionID : String)
    (r : SpoolRoot) : SpoolRoot × List DirInfo :=
  if o.lists then
    let dirs := (r.sessions.filter fun d => o.listsSession d.id).map (scanDir o)
    let totalBytes := (dirs.map (·.size)).sum
    if totalBytes ≤ maxBytes then (r, [])
    else pruneLoop o maxBytes protectSessionID (sort.sort dirs) totalBytes r
  else (r, [])

/-- The name of a temporary file. -/
def tempName (batchIndex : ℕ) : String := chunkName batchIndex ++ ".tmp"

/-- The root once the chunk is at its name; `size` is the length of the record and `now` the time of the
file. -/
def committed (entry : String) (batchIndex size : ℕ) (now : ℤ) (r : SpoolRoot) : SpoolRoot :=
  (r.ensure entry).update entry fun d =>
    ((d.without [tempName batchIndex]).put { name := chunkName batchIndex, size, modTime := now }).files

/-- `WriteBatch`: the directories after it, those that the pruning took, and the error. -/
def writeBatch (sort : SortSlice) (o : WriteOutcomes) (maxBytes : ℤ) (sessionID entry : String)
    (batchIndex size : ℕ) (now : ℤ) (r : SpoolRoot) : SpoolRoot × List DirInfo × Option WriteBatchError :=
  if !o.ensures then (r, [], some .ensureSessionDir)
  else if !o.marshals then (r.ensure entry, [], some .marshalBatch)
  else
    let withTemp (length : ℕ) : SpoolRoot := (r.ensure entry).update entry fun d =>
      (d.put { name := tempName batchIndex, size := length, modTime := now }).files
    match o.writeFails with
    | some none => (r.ensure entry, [], some .writeTempChunk)
    | some (some length) => (withTemp length, [], some .writeTempChunk)
    | none =>
      if o.renames then
        let pruned := enforceQuotaLocked sort o.quota maxBytes sessionID (committed entry batchIndex size now r)
        (pruned.1, pruned.2, none)
      else if o.removesTemp then
        ((withTemp size).update entry fun d => (d.without [tempName batchIndex]).files, [], some .commitChunk)
      else (withTemp size, [], some .commitChunk)

/-- The time of the oldest file of a session, if it has one. -/
def SessionDir.oldest : Option ℤ := (d.files.map (·.modTime)).min?

/-- A session is not younger than another one. -/
def SessionDir.NotYounger (a b : SessionDir) : Prop := ∀ s ∈ a.oldest, ∀ t ∈ b.oldest, s ≤ t

/-- What pruning is to do, from the directories `before` it to those `after` it, when it evicts the sessions
`evicted` in this order and the one that writes has the directory `entry`. -/
structure QuotaKept (before after : SpoolRoot) (maxBytes : ℤ) (entry : String) (evicted : List String) : Prop where
  /-- The quota is kept, or only the session that writes remains. -/
  fits : totalSize after.sessions ≤ maxBytes ∨ ∀ d ∈ after.sessions, d.id = entry
  /-- The evicted sessions are gone, and the others are as they were. -/
  whole : after.sessions = before.sessions.filter fun d => d.id ∉ evicted
  /-- The sessions other than the one that writes are evicted from the oldest on. -/
  oldestFirst : ∃ order : List SessionDir, order.Perm (before.sessions.filter (·.id ≠ entry)) ∧
    order.Pairwise SessionDir.NotYounger ∧ evicted <+: order.map (·.id)
  /-- When a session is evicted, what the earlier ones leave is above the quota. -/
  needed : ∀ earlier id later, evicted = earlier ++ id :: later →
    maxBytes < totalSize (before.sessions.filter fun d => d.id ∉ earlier)
  spared : entry ∉ evicted

/-- The chunk comes to its name. -/
def WriteOutcomes.Commits (o : WriteOutcomes) : Prop :=
  o.ensures = true ∧ o.marshals = true ∧ o.writeFails = none ∧ o.renames = true

/-- The scan sees every file. -/
structure QuotaOutcomes.Sees (o : QuotaOutcomes) (r : SpoolRoot) : Prop where
  root : o.lists = true
  sessions : ∀ d ∈ r.sessions, o.listsSession d.id = true
  files : ∀ d ∈ r.sessions, ∀ f ∈ d.files, o.info d.id f.name = true
  /-- No file has the time that `IsZero` takes for none. -/
  times : ∀ d ∈ r.sessions, ∀ f ∈ d.files, f.modTime ≠ 0

/-- What is older than a directory takes the total down to the quota. -/
def SpoolRoot.EndsBefore (sort : SortSlice) (o : QuotaOutcomes) (maxBytes : ℤ) (r : SpoolRoot)
    (entry : String) : Prop :=
  let older := (sort.sort (r.sessions.map (scanDir o))).takeWhile fun d => !decide (d.id = entry)
  totalSize r.sessions - (older.map (·.size)).sum ≤ maxBytes

theorem oldestFrom_spec {times : List ℤ} (htimes : ∀ t ∈ times, t ≠ 0) {oldest : ℤ} (h : oldest ≠ 0) :
    oldestFrom oldest times ∈ oldest :: times ∧ ∀ t ∈ oldest :: times, oldestFrom oldest times ≤ t := by
  induction times generalizing oldest with
  | nil => exact ⟨mem_singleton_self oldest, fun t ht => (mem_singleton.mp ht).ge⟩
  | cons t times ih =>
    have hrest := fun t' ht' => htimes t' (mem_cons_of_mem _ ht')
    have hfirst : oldestFrom oldest (t :: times) = oldestFrom (min t oldest) times := by
      show oldestFrom (if oldest = 0 ∨ t < oldest then t else oldest) times = _
      congr 1
      split <;> omega
    have hmin : min t oldest ≠ 0 := by
      have ht := htimes t (mem_cons_self ..)
      omega
    obtain ⟨hmem, hle⟩ := ih hrest hmin
    rw [hfirst]
    have hbound := hle _ (mem_cons_self ..)
    constructor
    · rcases mem_cons.mp hmem with heq | hlater
      · rcases min_choice t oldest with hchoice | hchoice
        · rw [heq.trans hchoice]
          exact mem_cons_of_mem _ (mem_cons_self ..)
        · rw [heq.trans hchoice]
          exact mem_cons_self ..
      · exact mem_cons_of_mem _ (mem_cons_of_mem _ hlater)
    · intro t' ht'
      rcases mem_cons.mp ht' with rfl | ht'
      · omega
      · rcases mem_cons.mp ht' with rfl | hlater
        · omega
        · exact hle t' (mem_cons_of_mem _ hlater)

theorem size_scanDir {d : SessionDir} (hinfo : ∀ f ∈ d.files, o.info d.id f.name = true) :
    (scanDir o d).size = d.size := by
  have hall : d.files.filter (fun f => o.info d.id f.name) = d.files := filter_eq_self.mpr hinfo
  show ((d.files.filter _).map _).sum = _
  rw [hall]
  rfl

theorem modTime_scanDir {d : SessionDir} (hinfo : ∀ f ∈ d.files, o.info d.id f.name = true)
    (htimes : ∀ f ∈ d.files, f.modTime ≠ 0) {t : ℤ} (ht : t ∈ d.oldest) : (scanDir o d).modTime = t := by
  have hall : d.files.filter (fun f => o.info d.id f.name) = d.files := filter_eq_self.mpr hinfo
  have hscan : (scanDir o d).modTime = oldestFrom 0 (d.files.map (·.modTime)) := by
    show oldestFrom 0 ((d.files.filter _).map _) = _
    rw [hall]
  have hnonzero : ∀ t ∈ d.files.map (·.modTime), t ≠ 0 := fun t ht => by
    obtain ⟨f, hf, rfl⟩ := mem_map.mp ht
    exact htimes f hf
  obtain ⟨hmem, hle⟩ := min?_eq_some_iff.mp ht
  rw [hscan]
  cases hfiles : d.files.map (·.modTime) with
  | nil => exact absurd hmem (hfiles ▸ not_mem_nil)
  | cons first times =>
    rw [hfiles] at hmem hle hnonzero
    have hfirst : oldestFrom 0 (first :: times) = oldestFrom first times := by
      show oldestFrom (if (0 : ℤ) = 0 ∨ first < 0 then first else 0) times = _
      rw [if_pos (.inl rfl)]
    obtain ⟨hfound, hleast⟩ := oldestFrom_spec (fun t ht => hnonzero t (mem_cons_of_mem _ ht))
      (hnonzero first (mem_cons_self ..))
    rw [hfirst]
    have hbelow := hleast t hmem
    have habove := hle _ hfound
    omega

section Removals

variable {o : QuotaOutcomes} {r : SpoolRoot}

theorem sessions_removeAll_of_none (h : o.removes id = none) :
    (r.removeAll o id).sessions = r.sessions.filter (·.id ≠ id) := by
  unfold SpoolRoot.removeAll
  rw [h]
  rfl

theorem sessions_foldl_removeAll {dirs : List DirInfo} (h : ∀ d ∈ dirs, o.removes d.id = none) :
    (dirs.foldl (fun r d => r.removeAll o d.id) r).sessions =
      r.sessions.filter fun s => s.id ∉ dirs.map (·.id) := by
  induction dirs generalizing r with
  | nil => simp
  | cons d _ ih =>
    rw [foldl_cons, ih fun d' hd' => h d' (mem_cons_of_mem _ hd'),
      sessions_removeAll_of_none (h d (mem_cons_self ..)), filter_filter]
    refine filter_congr fun s _ => ?_
    rw [map_cons, Bool.eq_iff_iff]
    simp only [Bool.and_eq_true, decide_eq_true_eq, mem_cons, not_or]
    exact and_comm

theorem mem_removeAll_of_fails {other : String} (hfails : o.removes id ≠ none)
    (hid : id ∈ r.sessions.map (·.id)) : id ∈ (r.removeAll o other).sessions.map (·.id) := by
  obtain ⟨d, hd, rfl⟩ := mem_map.mp hid
  unfold SpoolRoot.removeAll
  split
  · rename_i hnone
    have hne : d.id ≠ other := fun hsame => hfails (hsame ▸ hnone)
    exact mem_map.mpr ⟨d, mem_filter.mpr ⟨hd, by simpa using hne⟩, rfl⟩
  · refine mem_map.mpr ⟨_, mem_map.mpr ⟨d, hd, rfl⟩, ?_⟩
    split <;> rfl

theorem mem_foldl_removeAll_of_fails (hfails : o.removes id ≠ none) (dirs : List DirInfo)
    (hid : id ∈ r.sessions.map (·.id)) :
    id ∈ (dirs.foldl (fun r d => r.removeAll o d.id) r).sessions.map (·.id) := by
  induction dirs generalizing r with
  | nil => exact hid
  | cons _ _ ih => exact ih (mem_removeAll_of_fails hfails hid)

end Removals

theorem totalSize_filter {sessions gone rest : List SessionDir} (hnodup : (sessions.map (·.id)).Nodup)
    (hsplit : sessions.Perm (gone ++ rest)) :
    totalSize (sessions.filter fun d => d.id ∉ gone.map (·.id)) = totalSize sessions - totalSize gone := by
  have hids : ((gone ++ rest).map (·.id)).Nodup := (hsplit.map _).nodup_iff.mp hnodup
  rw [map_append, nodup_append] at hids
  have hgone : gone.filter (fun d => d.id ∉ gone.map (·.id)) = [] :=
    filter_eq_nil_iff.mpr fun d hd => by simpa using ⟨d, hd, rfl⟩
  have hrest : rest.filter (fun d => d.id ∉ gone.map (·.id)) = rest := by
    refine filter_eq_self.mpr fun d hd => ?_
    have hapart : d.id ∉ gone.map (·.id) := fun hmem => hids.2.2 _ hmem _ (mem_map_of_mem hd) rfl
    simpa using hapart
  have hfilter := hsplit.filter fun d => d.id ∉ gone.map (·.id)
  rw [filter_append, hgone, hrest, nil_append] at hfilter
  have hkept : totalSize (sessions.filter fun d => d.id ∉ gone.map (·.id)) = totalSize rest :=
    (hfilter.map _).sum_eq
  have hall : totalSize sessions = totalSize gone + totalSize rest := by
    have hsum : totalSize sessions = totalSize (gone ++ rest) := (hsplit.map _).sum_eq
    rw [hsum]
    unfold totalSize
    rw [map_append, sum_append]
  omega

theorem pruneLoop_eq (o : QuotaOutcomes) (maxBytes : ℤ) (protectSessionID : String) (dirs : List DirInfo)
    (totalBytes : ℤ) (r : SpoolRoot) :
    pruneLoop o maxBytes protectSessionID dirs totalBytes r =
      ((prune (·.id ≠ protectSessionID) (·.size) maxBytes totalBytes dirs).2.foldl (fun r d => r.removeAll o d.id) r,
        (prune (·.id ≠ protectSessionID) (·.size) maxBytes totalBytes dirs).2) := by
  induction dirs generalizing totalBytes r with
  | nil => rfl
  | cons d dirs ih =>
    rw [pruneLoop, prune]
    split
    · rfl
    · split
      · rename_i hprotected
        rw [if_neg (by simp [hprotected]), ih]
      · rename_i hother
        rw [if_pos (by simpa using hother), ih]
        rfl

theorem enforceQuotaLocked_eq (hsees : o.Sees r) (maxBytes : ℤ) (protectSessionID : String) :
    enforceQuotaLocked sort o maxBytes protectSessionID r =
      pruneLoop o maxBytes protectSessionID (sort.sort (r.sessions.map (scanDir o))) (totalSize r.sessions) r := by
  have hlisted : r.sessions.filter (fun d => o.listsSession d.id) = r.sessions := filter_eq_self.mpr hsees.sessions
  have hsizes : ((r.sessions.map (scanDir o)).map (·.size)).sum = totalSize r.sessions := by
    rw [map_map]
    exact congrArg List.sum (map_congr_left fun d hd => size_scanDir (hsees.files d hd))
  unfold enforceQuotaLocked
  rw [if_pos hsees.root, hlisted]
  dsimp only
  rw [hsizes]
  split
  · rename_i hfits
    rw [pruneLoop_eq, prune_of_le _ _ _ _ hfits]
    rfl
  · rfl

theorem exists_order (hsees : o.Sees r) :
    ∃ order : List SessionDir, order.Perm r.sessions ∧ order.Pairwise SessionDir.NotYounger ∧
      sort.sort (r.sessions.map (scanDir o)) = order.map (scanDir o) := by
  have hperm := sort.perm (r.sessions.map (scanDir o))
  have hcomp : Relation.Comp (· = List.map (scanDir o) ·) List.Perm (sort.sort (r.sessions.map (scanDir o)))
      r.sessions := by
    rw [eq_map_comp_perm]
    exact hperm
  obtain ⟨order, horder, hsame⟩ := hcomp
  refine ⟨order, hsame, ?_, horder⟩
  have hsorted := sort.sorted (r.sessions.map (scanDir o))
  rw [horder, pairwise_map] at hsorted
  refine hsorted.imp_of_mem fun {a b} ha hb hle s hs t ht => ?_
  have ha' := hsame.mem_iff.mp ha
  have hb' := hsame.mem_iff.mp hb
  rw [modTime_scanDir (hsees.files a ha') (hsees.times a ha') hs,
    modTime_scanDir (hsees.files b hb') (hsees.times b hb') ht] at hle
  omega

theorem taken_of_order {order : List SessionDir} {protectSessionID : String} {taken : List DirInfo}
    (h : taken <+: (order.map (scanDir o)).filter (·.id ≠ protectSessionID)) :
    ∃ gone rest, order.filter (·.id ≠ protectSessionID) = gone ++ rest ∧ taken = gone.map (scanDir o) := by
  have hfilter : (order.map (scanDir o)).filter (·.id ≠ protectSessionID) =
      (order.filter (·.id ≠ protectSessionID)).map (scanDir o) := filter_map
  obtain ⟨rest, hrest⟩ := h
  rw [hfilter] at hrest
  obtain ⟨gone, later, hsplit, hgone, _⟩ := map_eq_append_iff.mp hrest.symm
  exact ⟨gone, later, hsplit, hgone.symm⟩

theorem prune_spares_entry_iff {dirs : List DirInfo} {maxBytes totalBytes : ℤ} {protectSessionID entry : String}
    (hsizes : ∀ d ∈ dirs, 0 ≤ d.size) (hentry : ∃ d ∈ dirs, d.id = entry)
    (hlisted : ∀ d ∈ dirs, d.id = protectSessionID → entry = protectSessionID) :
    (∀ d ∈ (prune (·.id ≠ protectSessionID) (·.size) maxBytes totalBytes dirs).2, d.id ≠ entry) ↔
      entry = protectSessionID ∨
        totalBytes - ((dirs.takeWhile fun d => !decide (d.id = entry)).map (·.size)).sum ≤ maxBytes := by
  by_cases hsame : entry = protectSessionID
  · refine iff_of_true (fun d hd => ?_) (.inl hsame)
    have hother := ( prune_dropped_prefix (·.id ≠ protectSessionID) DirInfo.size maxBytes totalBytes dirs).subset hd
    rw [hsame]
    simpa using (mem_filter.mp hother).2
  · have hkind : ∀ d ∈ dirs, decide (d.id ≠ protectSessionID) = true := fun d hd =>
      decide_eq_true fun hid => hsame (hlisted d hd hid)
    have hspares := prune_spares_iff (fun d : DirInfo => decide (d.id ≠ protectSessionID)) DirInfo.size maxBytes
      totalBytes (fun d => decide (d.id = entry)) dirs hkind hsizes (by simpa using hentry)
    simpa [hsame] using hspares

theorem size_nonneg (o : QuotaOutcomes) (d : SessionDir) : 0 ≤ (scanDir o d).size := by
  refine sum_nonneg fun size hsize => ?_
  obtain ⟨f, -, rfl⟩ := mem_map.mp hsize
  exact Int.natCast_nonneg f.size

/-- When the pruning keeps to the quota, for what the directory shows and deletes. -/
theorem enforceQuotaLocked_kept_iff (hsees : o.Sees r) (maxBytes : ℤ) (protectSessionID : String)
    {entry : String} (hentry : ∃ d ∈ r.sessions, d.id = entry)
    (hlisted : ∀ d ∈ r.sessions, d.id = protectSessionID → entry = protectSessionID) :
    QuotaKept r (enforceQuotaLocked sort o maxBytes protectSessionID r).1 maxBytes entry
        ((enforceQuotaLocked sort o maxBytes protectSessionID r).2.map (·.id)) ↔
      (∀ d ∈ (enforceQuotaLocked sort o maxBytes protectSessionID r).2, o.removes d.id = none) ∧
        (entry = protectSessionID ∨ r.EndsBefore sort o maxBytes entry) := by
  obtain ⟨order, hperm, hsorted, horder⟩ := exists_order sort hsees
  have hspares : (∀ d ∈ (prune (·.id ≠ protectSessionID) (·.size) maxBytes (totalSize r.sessions)
      (order.map (scanDir o))).2, d.id ≠ entry) ↔
        entry = protectSessionID ∨ r.EndsBefore sort o maxBytes entry := by
    unfold SpoolRoot.EndsBefore
    rw [horder]
    refine prune_spares_entry_iff ?_ ?_ ?_
    · exact forall_mem_map.mpr fun d _ => size_nonneg o d
    · obtain ⟨d, hd, hid⟩ := hentry
      exact ⟨scanDir o d, mem_map_of_mem (hperm.mem_iff.mpr hd), hid⟩
    · exact forall_mem_map.mpr fun d hd => hlisted d (hperm.mem_iff.mp hd)
  rw [enforceQuotaLocked_eq sort hsees, horder, pruneLoop_eq, ← hspares]
  have hsplit := prune_dropped_prefix (·.id ≠ protectSessionID) DirInfo.size maxBytes (totalSize r.sessions)
    (order.map (scanDir o))
  have hfits := prune_fits (·.id ≠ protectSessionID) DirInfo.size maxBytes (totalSize r.sessions)
    (order.map (scanDir o))
  have hneeded := fun before after x => @prune_needed _ (·.id ≠ protectSessionID) DirInfo.size maxBytes
    (totalSize r.sessions) (order.map (scanDir o)) before after x
  generalize (prune (·.id ≠ protectSessionID) DirInfo.size maxBytes (totalSize r.sessions)
    (order.map (scanDir o))).2 = taken at hsplit hfits hneeded ⊢
  obtain ⟨gone, rest, hothers, rfl⟩ := taken_of_order hsplit
  have hids : (gone.map (scanDir o)).map (·.id) = gone.map (·.id) := map_map
  have hmem : ∀ d ∈ gone, d ∈ r.sessions ∧ d.id ≠ protectSessionID := fun d hd => by
    have hother : d ∈ order.filter (·.id ≠ protectSessionID) := hothers ▸ mem_append_left rest hd
    obtain ⟨hin, hne⟩ := mem_filter.mp hother
    exact ⟨hperm.mem_iff.mp hin, by simpa using hne⟩
  -- Every first part of what is taken leaves the total less its sizes.
  have hleft : ∀ first later, gone = first ++ later →
      totalSize (r.sessions.filter fun d => d.id ∉ first.map (·.id)) =
        totalSize r.sessions - ((first.map (scanDir o)).map (·.size)).sum := by
    intro first later hfirst
    have hsizes : ((first.map (scanDir o)).map (·.size)).sum = totalSize first := by
      rw [map_map]
      refine congrArg List.sum (map_congr_left fun d hd => ?_)
      exact size_scanDir (hsees.files d (hmem d (hfirst ▸ mem_append_left later hd)).1)
    have hall : order.Perm
        (first ++ (later ++ rest ++ order.filter fun d => !decide (d.id ≠ protectSessionID))) := by
      have happart := (filter_append_perm (fun d : SessionDir => decide (d.id ≠ protectSessionID)) order).symm
      rw [hothers, hfirst] at happart
      simpa only [append_assoc] using happart
    rw [hsizes]
    exact totalSize_filter r.nodup (hperm.symm.trans hall)
  rw [hids]
  constructor
  · intro hkept
    refine ⟨fun d hd => ?_, fun d hd hid => hkept.spared ?_⟩
    swap
    · rw [← hid, ← hids]
      exact mem_map_of_mem hd
    obtain ⟨s, hs, rfl⟩ := mem_map.mp hd
    by_contra hfails
    have hstays := mem_foldl_removeAll_of_fails hfails (gone.map (scanDir o)) (mem_map_of_mem (hmem s hs).1)
    rw [hkept.whole] at hstays
    obtain ⟨s', hs', hsame⟩ := mem_map.mp hstays
    have hnot : s'.id ∉ gone.map (·.id) := by simpa using (mem_filter.mp hs').2
    exact hnot (hsame ▸ mem_map_of_mem hs)
  · intro ⟨hremoves, hspared⟩
    have hapart : ∀ d ∈ gone, d.id ≠ entry := fun d hd => hspared (scanDir o d) (mem_map_of_mem hd)
    -- What is not the session's own directory is not protected either.
    have hown : order.filter (·.id ≠ entry) = gone ++ rest.filter (·.id ≠ entry) := by
      have hboth : order.filter (·.id ≠ entry) =
          (order.filter (·.id ≠ protectSessionID)).filter (·.id ≠ entry) := by
        rw [filter_filter]
        refine filter_congr fun d hd => ?_
        have himp := hlisted d (hperm.mem_iff.mp hd)
        by_cases hid : d.id = entry
        · simp [hid]
        · have hother : d.id ≠ protectSessionID := fun hsame => hid (hsame.trans (himp hsame).symm)
          simp [hid, hother]
      rw [hboth, hothers, filter_append, filter_eq_self.mpr fun d hd => decide_eq_true (hapart d hd)]
    have hafter := sessions_foldl_removeAll (r := r) hremoves
    rw [hids] at hafter
    refine ⟨?_, hafter, ⟨order.filter (·.id ≠ entry), hperm.filter _, ?_, ?_⟩, ?_, ?_⟩
    · rw [hafter, hleft gone [] (append_nil gone).symm]
      refine hfits.imp_right fun hall d hd => ?_
      obtain ⟨hd, hnot⟩ := mem_filter.mp hd
      by_contra hother
      have hid : (scanDir o d).id ≠ protectSessionID := fun hsame =>
        hother ((show d.id = protectSessionID from hsame).trans (hlisted d hd hsame).symm)
      have hscanned : scanDir o d ∈ (order.map (scanDir o)).filter (·.id ≠ protectSessionID) :=
        mem_filter.mpr ⟨mem_map_of_mem (hperm.mem_iff.mpr hd), decide_eq_true hid⟩
      rw [← hall.1] at hscanned
      obtain ⟨s, hs, hsame⟩ := mem_map.mp hscanned
      have hid : s.id = d.id := congrArg DirInfo.id hsame
      have hnot' : d.id ∉ gone.map (·.id) := by simpa using hnot
      exact hnot' (hid ▸ mem_map_of_mem hs)
    · exact hsorted.sublist filter_sublist
    · rw [hown, map_append]
      exact prefix_append _ _
    · intro earlier id later hevicted
      obtain ⟨first, tail, hgone, rfl, htail⟩ := map_eq_append_iff.mp hevicted
      obtain ⟨s, tail, rfl, rfl, rfl⟩ := map_eq_cons_iff.mp htail
      rw [hleft first (s :: tail) hgone]
      refine hneeded (first.map (scanDir o)) (tail.map (scanDir o)) (scanDir o s) ?_
      rw [hgone, map_append, map_cons]
    · intro hprotected
      obtain ⟨s, hs, hsame⟩ := mem_map.mp hprotected
      exact hapart s hs hsame

theorem mem_committed (entry : String) (batchIndex size : ℕ) (now : ℤ) (r : SpoolRoot) :
    ∃ d ∈ (committed entry batchIndex size now r).sessions, d.id = entry := by
  have hmade : ∃ d ∈ (r.ensure entry).sessions, d.id = entry := by
    unfold SpoolRoot.ensure
    dsimp only
    split
    · rename_i hthere
      simpa using hthere
    · exact ⟨_, mem_append_right _ (mem_singleton_self _), rfl⟩
  obtain ⟨d, hd, hid⟩ := hmade
  refine ⟨_, mem_map_of_mem hd, ?_⟩
  dsimp only
  rw [if_pos hid]
  exact hid

theorem writeBatch_of_commits {o : WriteOutcomes} (h : o.Commits) (maxBytes : ℤ) (sessionID entry : String)
    (batchIndex size : ℕ) (now : ℤ) (r : SpoolRoot) :
    writeBatch sort o maxBytes sessionID entry batchIndex size now r =
      ((enforceQuotaLocked sort o.quota maxBytes sessionID (committed entry batchIndex size now r)).1,
        (enforceQuotaLocked sort o.quota maxBytes sessionID (committed entry batchIndex size now r)).2, none) := by
  obtain ⟨hensures, hmarshals, hwrites, hrenames⟩ := h
  unfold writeBatch
  rw [hensures, hmarshals, hwrites, hrenames]
  rfl

/-- Where the chunk comes to its name and the scan sees every file, `WriteBatch` keeps the quota as it is
meant to be kept exactly when every `RemoveAll` that it calls succeeds and the loop spares the session that
writes: its id is the name of its directory, or what is older is enough. A directory with the id for its name
is the session's. -/
theorem quota_kept_iff (sort : SortSlice) (o : WriteOutcomes) (maxBytes : ℤ) (sessionID entry : String)
    (batchIndex size : ℕ) (now : ℤ) (r : SpoolRoot) (hcommits : o.Commits)
    (hsees : o.quota.Sees (committed entry batchIndex size now r))
    (hlisted : ∀ d ∈ (committed entry batchIndex size now r).sessions, d.id = sessionID → entry = sessionID) :
    QuotaKept (committed entry batchIndex size now r)
        (writeBatch sort o maxBytes sessionID entry batchIndex size now r).1 maxBytes entry
        ((writeBatch sort o maxBytes sessionID entry batchIndex size now r).2.1.map (·.id)) ↔
      (∀ d ∈ (writeBatch sort o maxBytes sessionID entry batchIndex size now r).2.1, o.quota.removes d.id = none) ∧
        (entry = sessionID ∨
          (committed entry batchIndex size now r).EndsBefore sort o.quota maxBytes entry) := by
  rw [writeBatch_of_commits sort hcommits]
  exact enforceQuotaLocked_kept_iff sort hsees maxBytes sessionID (mem_committed entry batchIndex size now r) hlisted

/-- One directory is not younger than another one. -/
def DirInfo.notYounger (a b : DirInfo) : Prop := a.modTime ≤ b.modTime

instance : DecidableRel DirInfo.notYounger := fun a b => inferInstanceAs (Decidable (a.modTime ≤ b.modTime))

instance : Std.Total DirInfo.notYounger := ⟨fun a b => le_total a.modTime b.modTime⟩

instance : IsTrans DirInfo DirInfo.notYounger := ⟨fun _ _ _ hab hbc => le_trans hab hbc⟩

def stableSort : SortSlice where
  sort xs := xs.insertionSort DirInfo.notYounger
  perm xs := perm_insertionSort _ xs
  sorted xs := (pairwise_insertionSort DirInfo.notYounger xs).imp not_lt.mpr

/-- Two sessions with a file of 10 bytes each. -/
def sampleRoot : SpoolRoot where
  sessions := [⟨"a", [⟨"000000000001.chunk", 10, 1⟩]⟩, ⟨"b", [⟨"000000000001.chunk", 10, 2⟩]⟩]
  nodup := by decide

variable (removes : String → Option (List String))

/-- Everything succeeds, but maybe the removals. -/
def writeWith : WriteOutcomes where
  ensures := true
  marshals := true
  writeFails := none
  renames := true
  removesTemp := true
  quota :=
    { lists := true
      listsSession := fun _ => true
      info := fun _ _ => true
      removes }

theorem writeWith_commits : (writeWith removes).Commits := ⟨rfl, rfl, rfl, rfl⟩

theorem writeWith_sees : (writeWith removes).quota.Sees (committed "c" 1 10 3 sampleRoot) where
  root := rfl
  sessions := fun _ _ => rfl
  files := fun _ _ _ _ => rfl
  times := by
    have hall : (committed "c" 1 10 3 sampleRoot).sessions.all (fun d => d.files.all
      fun f => f.modTime != 0) = true := by
      decide +kernel
    intro d hd f hf
    have hfile := all_eq_true.mp (all_eq_true.mp hall d hd) f hf
    simpa using hfile

/-- A chunk that takes the total from 20 to 30 bytes, with a quota of 20. The directory of the oldest session
cannot be removed: its size is taken off the total all the same, and the pruning ends above the quota. -/
theorem failed_removal_exceeds_quota :
    ¬ ∀ (sort : SortSlice) (o : WriteOutcomes) (maxBytes : ℤ) (sessionID entry : String) (batchIndex size : ℕ)
      (now : ℤ) (r : SpoolRoot), o.Commits → o.quota.Sees (committed entry batchIndex size now r) →
        (∀ d ∈ (committed entry batchIndex size now r).sessions, d.id = sessionID → entry = sessionID) →
          QuotaKept (committed entry batchIndex size now r)
            (writeBatch sort o maxBytes sessionID entry batchIndex size now r).1 maxBytes entry
            ((writeBatch sort o maxBytes sessionID entry batchIndex size now r).2.1.map (·.id)) := by
  intro hclaim
  let fails : WriteOutcomes := writeWith fun _ => some []
  have hkept := hclaim stableSort fails 20 "c" "c" 1 10 3 sampleRoot (writeWith_commits _) (writeWith_sees _)
    fun _ _ _ => rfl
  have htotal : totalSize (writeBatch stableSort fails 20 "c" "c" 1 10 3 sampleRoot).1.sessions = 30 := by
    decide +kernel
  have hother : (writeBatch stableSort fails 20 "c" "c" 1 10 3 sampleRoot).1.sessions.any (·.id == "a") = true := by
    decide +kernel
  obtain ⟨d, hd, hid⟩ := any_eq_true.mp hother
  rcases hkept.fits with hfits | honly
  · rw [htotal] at hfits
    cases hfits
  · have hsame := honly d hd
    have hid' : d.id = "a" := by simpa using hid
    exact absurd (hid'.symm.trans hsame) (by decide)

/-- With removals that succeed the oldest session goes, also for a session whose id is not the name of its
directory: what is older than that is enough. -/
theorem quota_kept_sample : QuotaKept (committed "c" 1 10 3 sampleRoot)
      (writeBatch stableSort (writeWith fun _ => none) 20 "./c" "c" 1 10 3 sampleRoot).1 20 "c"
      ((writeBatch stableSort (writeWith fun _ => none) 20 "./c" "c" 1 10 3 sampleRoot).2.1.map (·.id)) :=
  (quota_kept_iff stableSort (writeWith fun _ => none) 20 "./c" "c" 1 10 3 sampleRoot (writeWith_commits _)
    (writeWith_sees _) (by
      have hnone : (committed "c" 1 10 3 sampleRoot).sessions.all (fun d => d.id != "./c") = true :=
        by decide +kernel
      intro d hd hid
      exact absurd hid (by simpa using all_eq_true.mp hnone d hd))).mpr
    ⟨fun _ _ => rfl, .inr (by unfold SpoolRoot.EndsBefore; decide +kernel)⟩

end LigamentApps.LinkAgent
