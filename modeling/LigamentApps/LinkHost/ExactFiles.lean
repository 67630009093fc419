import Mathlib.Data.List.Perm.Subperm
import LigamentApps.LinkHost.SinkOwners

/-!
# The part files

When the part file of a transfer is exactly its chunks. -/

namespace LigamentApps.LinkHost

open LinkHostRecorder SupportService List Option

variable {id : String} {a : FileAction}

theorem fileAck_ok_inj {other : String} {ok : Bool} (h : fileAck id true = fileAck other ok) :
    id = other ∧ ok = true := by
  unfold fileAck at h
  simp only [Json.obj.injEq, List.cons.injEq, Prod.mk.injEq, Json.str.injEq, Json.bool.injEq, true_and,
    and_true] at h
  exact ⟨h.1, h.2.symm⟩

/-! ## What is asked of the host -/

variable (serial : ℕ)

/-- The chunk that is taken of a download. -/
def TransferEvent.taken : TransferEvent → Option (ℤ × List UInt8)
  | .takes other index bytes => if other = serial then some (index, bytes) else none
  | _ => none

/-- The id, the size and the number of chunks with which a download is made. -/
def TransferEvent.start : TransferEvent → Option (String × Option ℤ × ℤ)
  | .starts other id declared totalChunks => if other = serial then some (id, declared, totalChunks) else none
  | _ => none

/-- The chunks that were taken of a download, with their indices. -/
def takenOf (es : List TransferEvent) : List (ℤ × List UInt8) := es.filterMap (TransferEvent.taken serial)

/-- The id of a download, the size that was declared for it, and the number of its chunks. -/
def startOf (es : List TransferEvent) : Option (String × Option ℤ × ℤ) :=
  es.findSome? (TransferEvent.start serial)

/-- The chunks of the download came each once and in their order. -/
def InOrder (es : List TransferEvent) (serial : ℕ) (totalChunks : ℤ) : Prop :=
  (takenOf serial es).map Prod.fst = (List.range totalChunks.toNat).map Int.ofNat

/-- The content is the chunks of the download with the id, each once and in order, and as long as it was
declared. -/
def ExactContent (es : List TransferEvent) (serial : ℕ) (id : String) (content : List UInt8) : Prop :=
  ∃ declared totalChunks, startOf serial es = some (id, declared, totalChunks) ∧ InOrder es serial totalChunks ∧
    content = ((takenOf serial es).map Prod.snd).flatten ∧ ∀ size, declared = some size →
      (content.length : ℤ) = size

section

variable {F : Type}

/-- The downloads whose file is not saved yet. -/
def IncomingFiles.held (s : IncomingFiles F) : List IncomingFile := s.downloads ++ s.endings.map (·.file)

/-- Nothing writes to the part file, or is going to. -/
def IncomingFiles.Idle (w : FileWorld F) (s : IncomingFiles F) (file : F) : Prop :=
  (∀ d ∈ s.held, w.partFile d.id ≠ file) ∧ ∀ sink ∈ s.sinks, sink.file = file → sink.isDone = true

def IncomingFiles.makesDownload (s : IncomingFiles F) (input : Json) : Bool :=
  !s.closed && hasType input ["file_start"] && isValidFileStart input && s.downloads.length < hostConcurrentDownloads

/-- A download is made only where nothing else writes to its part file; and where a file is saved, its sink
has not failed, and its chunks came in order and are as many bytes as were declared. -/
def IncomingFiles.MeetsTransfer (w : FileWorld F) (s : IncomingFiles F) (es : List TransferEvent) :
    FileAction → Prop
  | .message input _ _ => s.makesDownload input = true → s.Idle w (w.partFile (transferId w.doubleText input))
  | .endSaves k ok _ => ok = true → ∀ ending, s.endings[k]? = some ending → ending.pc = .saving →
    (∃ j sink, ending.file.sink = some j ∧ s.sinks[j]? = some sink ∧ sink.handle = .closed) ∧
      InOrder es ending.file.serial ending.file.totalChunks ∧
        ∀ id size totalChunks, startOf ending.file.serial es = some (id, some size, totalChunks) →
          (ending.file.receivedBytes : ℤ) = size
  | _ => True

/-- The invariant: each download that is held has the part file to itself, and its bytes are in its sink; and
the trace tells of it what the download does. -/
structure Kept (w : FileWorld F) (s : IncomingFiles F) (es : List TransferEvent) : Prop where
  apart : s.held.Pairwise fun d e => w.partFile d.id ≠ w.partFile e.id
  own : ∀ d ∈ s.held, ∀ j, d.sink = some j → ∃ sink, s.sinks[j]? = some sink ∧ sink.file = w.partFile d.id ∧
    sink.Has s.parts d.hashed
  alone : ∀ d ∈ s.held, ∀ j sink, s.sinks[j]? = some sink → sink.isDone = false →
    sink.file = w.partFile d.id → d.sink = some j
  opened : ∀ d ∈ s.downloads, ∀ j sink, d.sink = some j → s.sinks[j]? = some sink →
    sink.closing = false ∧ sink.handle ≠ .closed
  serials : ∀ d ∈ s.held, ∀ e ∈ s.held, d.serial = e.serial → d.id = e.id
  before : ∀ d ∈ s.held, d.serial < s.started
  taken : ∀ d ∈ s.held, ((takenOf d.serial es).map Prod.snd).flatten = d.hashed
  bytes : ∀ d ∈ s.held, d.receivedBytes = d.hashed.length
  begun : ∀ d ∈ s.held, ∃ declared, startOf d.serial es = some (d.id, declared, d.totalChunks)
  fresh : ∀ serial, s.started ≤ serial → startOf serial es = none ∧ takenOf serial es = []

variable {w : FileWorld F} {s t : IncomingFiles F} {es fs : List TransferEvent} {d dl : IncomingFile}

@[simp] theorem takenOf_append (serial : ℕ) (es fs : List TransferEvent) :
    takenOf serial (es ++ fs) = takenOf serial es ++ takenOf serial fs := filterMap_append

@[simp] theorem startOf_append (serial : ℕ) (es fs : List TransferEvent) :
    startOf serial (es ++ fs) = (startOf serial es).or (startOf serial fs) := findSome?_append

/-- The events tell of no download. -/
def Silent (fs : List TransferEvent) : Prop := ∀ serial, startOf serial fs = none ∧ takenOf serial fs = []

theorem Kept.file_ne (h : Kept w s es) (hd : d ∈ s.held) (he : dl ∈ s.held) (hne : d ≠ dl) :
    w.partFile d.id ≠ w.partFile dl.id := by
  have : Std.Symm fun d e : IncomingFile => w.partFile d.id ≠ w.partFile e.id := ⟨fun _ _ hfile => hfile.symm⟩
  exact h.apart.forall hd he hne

theorem Kept.cross (h : Kept w s es) (hdl : dl ∈ s.downloads) (hd : d ∈ s.endings.map (·.file)) :
    w.partFile d.id ≠ w.partFile dl.id :=
  ((pairwise_append.mp h.apart).2.2 dl hdl d hd).symm

theorem Kept.erased (h : Kept w s es) {k : ℕ} {ending : FileEnding} (hk : s.endings[k]? = some ending)
    (hd : d ∈ s.downloads ++ (s.endings.eraseIdx k).map (·.file)) :
    w.partFile d.id ≠ w.partFile ending.file.id := by
  obtain hd | hd := mem_append.mp hd
  · exact (h.cross hd (List.mem_map.mpr ⟨ending, mem_of_getElem? hk, rfl⟩)).symm
  · obtain ⟨other, hother, rfl⟩ := List.mem_map.mp hd
    obtain ⟨i, hne, hi⟩ := mem_eraseIdx_iff_getElem?.mp hother
    have hends := (pairwise_append.mp h.apart).2.1
    obtain ⟨hklt, rfl⟩ := List.getElem?_eq_some_iff.mp hk
    obtain ⟨hilt, rfl⟩ := List.getElem?_eq_some_iff.mp hi
    have hordered := pairwise_iff_getElem.mp (pairwise_map.mp hends)
    obtain hlt | hlt := Nat.lt_or_gt_of_ne hne
    · exact hordered i k hilt hklt hlt
    · exact (hordered k i hklt hilt hlt).symm

theorem Kept.shrink (h : Kept w s es) (hheld : t.held.Subperm s.held)
    (hsinks : t.sinks.map FileSink.core = s.sinks.map FileSink.core)
    (hparts : ∀ d ∈ t.held, t.parts (w.partFile d.id) = s.parts (w.partFile d.id))
    (hstarted : t.started = s.started)
    (hopened : ∀ d ∈ t.downloads, ∀ j sink, d.sink = some j → t.sinks[j]? = some sink →
      sink.closing = false ∧ sink.handle ≠ .closed)
    (hsilent : Silent fs) : Kept w t (es ++ fs) := by
  have hsub : ∀ d ∈ t.held, d ∈ s.held := fun d hd => hheld.subset hd
  have htaken : ∀ serial, takenOf serial (es ++ fs) = takenOf serial es := by
    intro serial
    rw [takenOf_append, (hsilent serial).2, append_nil]
  have hstart : ∀ serial, startOf serial (es ++ fs) = startOf serial es := by
    intro serial
    rw [startOf_append, (hsilent serial).1, or_none]
  have hapart : t.held.Pairwise fun d e => w.partFile d.id ≠ w.partFile e.id := by
    obtain ⟨held, hperm, hsublist⟩ := hheld
    exact (hperm.pairwise_iff fun hfile => hfile.symm).mp (h.apart.sublist hsublist)
  refine ⟨hapart, fun d hd j hj => Holds.of_core (h.own d (hsub d hd) j hj) hsinks (hparts d hd),
    fun d hd => Alone.of_core (h.alone d (hsub d hd)) hsinks, hopened, ?_, ?_, ?_,
      fun d hd => h.bytes d (hsub d hd),
    ?_, ?_⟩
  · exact fun d hd e he => h.serials d (hsub d hd) e (hsub e he)
  · intro d hd
    rw [hstarted]
    exact h.before d (hsub d hd)
  · intro d hd
    rw [htaken]
    exact h.taken d (hsub d hd)
  · intro d hd
    rw [hstart]
    exact h.begun d (hsub d hd)
  · intro serial hserial
    rw [hstart, htaken]
    exact h.fresh serial (hstarted ▸ hserial)

section

variable [DecidableEq F]

omit [DecidableEq F] in
theorem core_closeSink (s : IncomingFiles F) (sink : Option ℕ) :
    (s.closeSink sink).sinks.map FileSink.core = s.sinks.map FileSink.core := by
  cases sink with
  | none => rfl
  | some j =>
    refine ext_getElem? fun i => ?_
    show ((s.sinks.modify j _).map FileSink.core)[i]? = _
    rw [getElem?_map, getElem?_map, getElem?_modify]
    cases s.sinks[i]? with
    | none => rfl
    | some =>
      by_cases hj : j = i
      · simp [hj, FileSink.core]
      · simp [hj]

omit [DecidableEq F] in
theorem Kept.sink_ne (h : Kept w s es) (hd : d ∈ s.held) (hdl : dl ∈ s.held)
    (hne : w.partFile d.id ≠ w.partFile dl.id) {j : ℕ} (hj : d.sink = some j) : dl.sink ≠ some j := by
  intro hsame
  obtain ⟨sink, hsink, hfile, -⟩ := h.own d hd j hj
  obtain ⟨sink', hsink', hfile', -⟩ := h.own dl hdl j hsame
  cases hsink.symm.trans hsink'
  exact hne (hfile.symm.trans hfile')

omit [DecidableEq F] in
theorem Kept.opened_closeSink (h : Kept w s es) {u : IncomingFiles F} (hdl : dl ∈ s.downloads)
    (hu : u.sinks = s.sinks) : ∀ d ∈ s.downloads.filter (·.id ≠ dl.id), ∀ j sink, d.sink = some j →
      (u.closeSink dl.sink).sinks[j]? = some sink → sink.closing = false ∧ sink.handle ≠ .closed := by
  intro d hd j sink hj hsink
  obtain ⟨hd, hid⟩ := mem_filter.mp hd
  have hne : d ≠ dl := fun hsame => of_decide_eq_true hid (congrArg IncomingFile.id hsame)
  have hother := h.sink_ne (mem_append_left _ hd) (mem_append_left _ hdl)
    (h.file_ne (mem_append_left _ hd) (mem_append_left _ hdl) hne) hj
  have hsame : (u.closeSink dl.sink).sinks[j]? = s.sinks[j]? := by
    unfold IncomingFiles.closeSink
    split
    · rename_i k hk
      have hjk : k ≠ j := fun heq => hother (hk.trans (congrArg some heq))
      rw [getElem?_modify, hu]
      cases s.sinks[j]? with
      | none => rfl
      | some => simp [hjk]
    · rw [hu]
  exact h.opened d hd j sink hj (hsame.symm.trans hsink)

omit [DecidableEq F] in
theorem closeSink_rest (s : IncomingFiles F) (sink : Option ℕ) : (s.closeSink sink).downloads = s.downloads ∧
    (s.closeSink sink).endings = s.endings ∧ (s.closeSink sink).parts = s.parts ∧
      (s.closeSink sink).started = s.started := by
  cases sink with
  | none | some => exact ⟨rfl, rfl, rfl, rfl⟩

theorem deletePart_downloads (s : IncomingFiles F) (file : F) (deletes : Bool) :
    (s.deletePart file deletes).downloads = s.downloads := by
  unfold IncomingFiles.deletePart
  split
  · rfl
  · rfl

theorem deletePart_rest (s : IncomingFiles F) (file : F) (deletes : Bool) :
    (s.deletePart file deletes).held = s.held ∧ (s.deletePart file deletes).sinks = s.sinks ∧
      (s.deletePart file deletes).started = s.started ∧
        ∀ other, other ≠ file → (s.deletePart file deletes).parts other = s.parts other := by
  unfold IncomingFiles.deletePart
  split
  · exact ⟨rfl, rfl, rfl, fun other hother => Function.update_of_ne hother _ _⟩
  · exact ⟨rfl, rfl, rfl, fun _ _ => rfl⟩

omit [DecidableEq F] in
theorem silent_sendControlJson (s : IncomingFiles F) (message : Json) : Silent (s.sendControlJson message) := by
  intro serial
  unfold IncomingFiles.sendControlJson
  split
  · exact ⟨rfl, rfl⟩
  · exact ⟨rfl, rfl⟩

omit [DecidableEq F] in
theorem silent_append {fs gs : List TransferEvent} (hfs : Silent fs) (hgs : Silent gs) : Silent (fs ++ gs) := by
  intro serial
  rw [startOf_append, takenOf_append, (hfs serial).1, (hgs serial).1, (hfs serial).2, (hgs serial).2]
  exact ⟨rfl, rfl⟩

theorem kept_giveUp (h : Kept w s es) (hdl : dl ∈ s.downloads) (deletes : Bool) :
    Kept w (s.giveUp w dl deletes).1 (es ++ (s.giveUp w dl deletes).2) := by
  unfold IncomingFiles.giveUp
  generalize hu : ({ s with downloads := s.downloads.filter (·.id ≠ dl.id) } : IncomingFiles F) = u
  obtain ⟨hdownloads, hendings, hparts, hstarted⟩ := closeSink_rest u dl.sink
  obtain ⟨hheld, hsinks, hstarted', hothers⟩ := deletePart_rest (u.closeSink dl.sink) (w.partFile dl.id) deletes
  have hless : ((u.closeSink dl.sink).deletePart (w.partFile dl.id) deletes).held.Sublist s.held := by
    rw [hheld]
    unfold IncomingFiles.held
    rw [hdownloads, hendings, ← hu]
    exact filter_sublist.append_right _
  refine h.shrink hless.subperm ?_ ?_ ?_ ?_ (silent_sendControlJson s _)
  · rw [hsinks, core_closeSink, ← hu]
  · intro d hd
    have hfile : w.partFile d.id ≠ w.partFile dl.id := by
      rw [hheld] at hd
      unfold IncomingFiles.held at hd
      rw [hdownloads, hendings, ← hu] at hd
      obtain hd | hd := mem_append.mp hd
      · obtain ⟨hd, hid⟩ := mem_filter.mp hd
        refine h.file_ne (mem_append_left _ hd) (mem_append_left _ hdl) fun hsame => ?_
        exact of_decide_eq_true hid (congrArg IncomingFile.id hsame)
      · exact h.cross hdl hd
    rw [hothers _ hfile, hparts, ← hu]
  · rw [hstarted', hstarted, ← hu]
  · have hdown : ((u.closeSink dl.sink).deletePart (w.partFile dl.id) deletes).downloads =
        s.downloads.filter (·.id ≠ dl.id) := by
      rw [deletePart_downloads, hdownloads, ← hu]
    rw [hdown, hsinks]
    exact h.opened_closeSink hdl (by rw [← hu])

omit [DecidableEq F] in
theorem erased_sublist (s : IncomingFiles F) (k : ℕ) :
    (s.downloads ++ (s.endings.eraseIdx k).map (·.file)).Sublist s.held :=
  ((eraseIdx_sublist s.endings k).map _).append_left _

theorem kept_compare (h : Kept w s es) {k : ℕ} {ending : FileEnding} (hk : s.endings[k]? = some ending)
    (deletes : Bool) :
    Kept w (s.compare w k ending deletes).1 (es ++ (s.compare w k ending deletes).2) := by
  unfold IncomingFiles.compare
  dsimp only
  split
  · generalize hu : ({ s with endings := s.endings.eraseIdx k } : IncomingFiles F) = u
    obtain ⟨hheld, hsinks, hstarted, hothers⟩ := deletePart_rest u (w.partFile ending.file.id) deletes
    have hu' : u.held = s.downloads ++ (s.endings.eraseIdx k).map (·.file) := by
      rw [← hu]
      rfl
    refine h.shrink ?_ (by rw [hsinks, ← hu]) ?_ (by rw [hstarted, ← hu]) ?_
      (silent_append (silent_sendControlJson s _) (silent_sendControlJson s _))
    · rw [hheld, hu']
      exact (erased_sublist s k).subperm
    · intro d hd
      rw [hheld, hu'] at hd
      rw [hothers _ (h.erased hk hd), ← hu]
    · rw [deletePart_downloads, hsinks, ← hu]
      exact h.opened
  · have hfiles : (s.endings.set k { ending with pc := .saving }).map (·.file) = s.endings.map (·.file) := by
      rw [map_set]
      refine ext_getElem? fun i => ?_
      rw [getElem?_set]
      split
      · rename_i hi
        obtain ⟨hlt, heq⟩ := List.getElem?_eq_some_iff.mp hk
        rw [length_map, if_pos (hi ▸ hlt), ← hi, getElem?_map, hk]
        rfl
      · rfl
    refine h.shrink ?_ rfl (fun _ _ => rfl) rfl h.opened fun _ => ⟨rfl, rfl⟩
    show (s.downloads ++ (s.endings.set k _).map (·.file)).Subperm s.held
    rw [hfiles]
    exact List.Subperm.refl _

theorem silent_save (k : ℕ) (ending : FileEnding) (ok deletes : Bool) :
    Silent (s.save w k ending ok deletes).2 := by
  unfold IncomingFiles.save
  dsimp only
  split
  · split
    · rename_i content hcontent
      have hsaves : Silent [.saves ending.file.serial content] := fun _ => ⟨rfl, rfl⟩
      exact silent_append hsaves (silent_sendControlJson s _)
    · exact silent_sendControlJson s _
  · exact silent_sendControlJson s _

theorem kept_save (h : Kept w s es) {k : ℕ} {ending : FileEnding} (hk : s.endings[k]? = some ending)
    (ok deletes : Bool) (hsilent : Silent fs) : Kept w (s.save w k ending ok deletes).1 (es ++ fs) := by
  unfold IncomingFiles.save
  dsimp only
  split
  · split
    · refine h.shrink (erased_sublist s k).subperm rfl ?_ rfl h.opened hsilent
      exact fun d hd => Function.update_of_ne (h.erased hk hd) _ _
    · exact h.shrink (erased_sublist s k).subperm rfl (fun _ _ => rfl) rfl h.opened hsilent
  · generalize hu : ({ s with endings := s.endings.eraseIdx k } : IncomingFiles F) = u
    obtain ⟨hheld, hsinks, hstarted, hothers⟩ := deletePart_rest u (w.partFile ending.file.id) deletes
    have hu' : u.held = s.downloads ++ (s.endings.eraseIdx k).map (·.file) := by
      rw [← hu]
      rfl
    refine h.shrink ?_ (by rw [hsinks, ← hu]) ?_ (by rw [hstarted, ← hu]) ?_ hsilent
    · rw [hheld, hu']
      exact (erased_sublist s k).subperm
    · intro d hd
      rw [hheld, hu'] at hd
      rw [hothers _ (h.erased hk hd), ← hu]
    · rw [deletePart_downloads, hsinks, ← hu]
      exact h.opened

omit [DecidableEq F] in
theorem kept_handleFileEnd (h : Kept w s es) (input : Json) :
    Kept w (s.handleFileEnd w input).1 (es ++ (s.handleFileEnd w input).2) := by
  unfold IncomingFiles.handleFileEnd
  dsimp only
  split
  · rw [append_nil]
    exact h
  · rename_i dl hfind
    have hdl : dl ∈ s.downloads := mem_of_find?_eq_some hfind
    have hfound := find?_some hfind
    have hid : dl.id = transferId w.doubleText input := of_decide_eq_true hfound
    rw [← hid]
    generalize hu : ({ s with
      downloads := s.downloads.filter (·.id ≠ dl.id)
      endings := s.endings ++ [_] } : IncomingFiles F) = u
    obtain ⟨hdownloads, hendings, hparts, hstarted⟩ := closeSink_rest u dl.sink
    refine h.shrink ?_ ?_ ?_ ?_ ?_ fun _ => ⟨rfl, rfl⟩
    · unfold IncomingFiles.held
      rw [hdownloads, hendings, ← hu, map_append, ← append_assoc]
      refine (perm_append_singleton _ _).subperm.trans ?_
      refine cons_subperm_of_not_mem_of_mem ?_ (mem_append_left _ hdl)
        (filter_sublist.append_right _).subperm
      intro hmem
      obtain hmem | hmem := mem_append.mp hmem
      · exact of_decide_eq_true (mem_filter.mp hmem).2 rfl
      · exact h.cross hdl hmem rfl
    · rw [core_closeSink, ← hu]
    · intro d _
      rw [hparts, ← hu]
    · rw [hstarted, ← hu]
    · rw [hdownloads, ← hu]
      exact h.opened_closeSink hdl rfl

/-! ## A chunk -/

omit [DecidableEq F] in
theorem Kept.held_addChunk (h : Kept w s es) (hdl : dl ∈ s.downloads) (bytes : List UInt8)
    (hd : d ∈ (s.addChunk dl bytes).held) :
    (d.id = dl.id ∧ d.serial = dl.serial ∧ d.sink = dl.sink ∧ d.totalChunks = dl.totalChunks ∧
      d.hashed = dl.hashed ++ bytes ∧ d.receivedBytes = dl.receivedBytes + bytes.length) ∨
    (d ∈ s.held ∧ w.partFile d.id ≠ w.partFile dl.id) := by
  obtain hd | hd := mem_append.mp hd
  · obtain ⟨other, hother, rfl⟩ := List.mem_map.mp hd
    split
    · exact .inl ⟨rfl, rfl, rfl, rfl, rfl, rfl⟩
    · rename_i hid
      refine .inr ⟨mem_append_left _ hother, ?_⟩
      refine h.file_ne (mem_append_left _ hother) (mem_append_left _ hdl) fun hsame => ?_
      exact hid (congrArg IncomingFile.id hsame)
  · exact .inr ⟨mem_append_right _ hd, h.cross hdl hd⟩

omit [DecidableEq F] in
theorem sinks_addChunk (s : IncomingFiles F) (dl : IncomingFile) (bytes : List UInt8) :
    dl.sink = none ∧ (s.addChunk dl bytes).sinks = s.sinks ∨ ∃ j, dl.sink = some j ∧
      (s.addChunk dl bytes).sinks = s.sinks.modify j fun k => { k with pending := k.pending ++ bytes } := by
  unfold IncomingFiles.addChunk
  cases dl.sink with
  | none => exact .inl ⟨rfl, rfl⟩
  | some j => exact .inr ⟨j, rfl, rfl⟩

omit [DecidableEq F] in
/-- A chunk goes to the file of its transfer and to no other. -/
theorem kept_addChunk (h : Kept w s es) (hdl : dl ∈ s.downloads) (bytes : List UInt8) (index : ℤ) :
    Kept w (s.addChunk dl bytes) (es ++ [.takes dl.serial index bytes]) := by
  have hheld : dl ∈ s.held := mem_append_left _ hdl
  have hstart : ∀ serial, startOf serial (es ++ [.takes dl.serial index bytes]) = startOf serial es := by
    intro serial
    rw [startOf_append]
    exact or_none
  have hserial : ∀ d ∈ s.held, w.partFile d.id ≠ w.partFile dl.id → d.serial ≠ dl.serial := by
    intro d hd hne hsame
    exact hne (congrArg w.partFile (h.serials d hd dl hheld hsame))
  -- the other transfers take nothing
  have hother : ∀ serial, serial ≠ dl.serial →
      takenOf serial (es ++ [.takes dl.serial index bytes]) = takenOf serial es := by
    intro serial hne
    rw [takenOf_append]
    simp [takenOf, TransferEvent.taken, hne.symm]
  have hsame : takenOf dl.serial (es ++ [.takes dl.serial index bytes]) =
      takenOf dl.serial es ++ [(index, bytes)] := by
    rw [takenOf_append]
    simp [takenOf, TransferEvent.taken]
  have hids : (s.addChunk dl bytes).held.map (·.id) = s.held.map (·.id) := by
    unfold IncomingFiles.held IncomingFiles.addChunk
    rw [map_append, map_append, List.map_map]
    refine congrArg (· ++ _) (map_congr_left fun other _ => ?_)
    show (if other.id = dl.id then _ else other : IncomingFile).id = other.id
    split
    · rename_i hid
      exact hid.symm
    · rfl
  refine ⟨?_, ?_, ?_, ?_, ?_, ?_, ?_, ?_, ?_, ?_⟩
  · have hall : (s.held.map (·.id)).Pairwise fun x y => w.partFile x ≠ w.partFile y := pairwise_map.mpr h.apart
    rw [← hids] at hall
    have hafter := pairwise_map.mp hall
    exact hafter
  · intro d hd j hj
    obtain ⟨hid, -, hsink, -, hhashed, -⟩ | ⟨hd, hne⟩ := h.held_addChunk hdl bytes hd
    · rw [hsink] at hj
      obtain ⟨hnone, -⟩ | ⟨k, hk, hmodified⟩ := sinks_addChunk s dl bytes
      · cases hnone.symm.trans hj
      · cases hk.symm.trans hj
        rw [hmodified, hid, hhashed]
        exact Holds.give (h.own dl hheld j hj) (fun sink hat => (h.opened dl hdl j sink hj hat).2) bytes
    · obtain ⟨-, hunchanged⟩ | ⟨k, hk, hmodified⟩ := sinks_addChunk s dl bytes
      · rw [hunchanged]
        exact h.own d hd j hj
      · rw [hmodified]
        exact Holds.beside (h.own d hd j hj) _ fun hjk => h.sink_ne hd hheld hne hj (hjk ▸ hk)
  · have halone : ∀ file p, Alone s.sinks file p → Alone (s.addChunk dl bytes).sinks file p := by
      intro file p hbefore
      obtain ⟨-, hunchanged⟩ | ⟨k, -, hmodified⟩ := sinks_addChunk s dl bytes
      · rw [hunchanged]
        exact hbefore
      · rw [hmodified]
        exact hbefore.give bytes
    intro d hd
    obtain ⟨hid, -, hsink, -⟩ | ⟨hd, -⟩ := h.held_addChunk hdl bytes hd
    · rw [hsink, hid]
      exact halone _ _ (h.alone dl hheld)
    · exact halone _ _ (h.alone d hd)
  · intro d hd j sink hj hat
    obtain ⟨before, hmem, hsink⟩ : ∃ before ∈ s.downloads, d.sink = before.sink := by
      obtain ⟨before, hbefore, rfl⟩ := List.mem_map.mp hd
      split
      · exact ⟨dl, hdl, rfl⟩
      · exact ⟨before, hbefore, rfl⟩
    obtain ⟨-, hunchanged⟩ | ⟨k, -, hmodified⟩ := sinks_addChunk s dl bytes
    · rw [hunchanged] at hat
      exact h.opened before hmem j sink (hsink ▸ hj) hat
    · rw [hmodified] at hat
      obtain ⟨other, hother, -, hhandle, hclosing⟩ := sink_of_modify hat
      exact hhandle ▸ hclosing ▸ h.opened before hmem j other (hsink ▸ hj) hother
  · intro d hd e he hsame
    obtain ⟨hid, hnumber, -⟩ | ⟨hd, hne⟩ := h.held_addChunk hdl bytes hd
    · obtain ⟨hid', -⟩ | ⟨he, hne'⟩ := h.held_addChunk hdl bytes he
      · exact hid.trans hid'.symm
      · exact absurd (hsame.symm.trans hnumber) (hserial e he hne')
    · obtain ⟨-, hnumber, -⟩ | ⟨he, -⟩ := h.held_addChunk hdl bytes he
      · exact absurd (hsame.trans hnumber) (hserial d hd hne)
      · exact h.serials d hd e he hsame
  · intro d hd
    obtain ⟨-, hnumber, -⟩ | ⟨hd, -⟩ := h.held_addChunk hdl bytes hd
    · rw [hnumber]
      exact h.before dl hheld
    · exact h.before d hd
  · intro d hd
    obtain ⟨-, hnumber, -, -, hhashed, -⟩ | ⟨hd, hne⟩ := h.held_addChunk hdl bytes hd
    · rw [hnumber, hsame, hhashed, map_append, flatten_append, h.taken dl hheld]
      exact congrArg (dl.hashed ++ ·) (append_nil bytes)
    · rw [hother _ (hserial d hd hne)]
      exact h.taken d hd
  · intro d hd
    obtain ⟨-, -, -, -, hhashed, hbytes⟩ | ⟨hd, -⟩ := h.held_addChunk hdl bytes hd
    · rw [hhashed, hbytes, length_append, h.bytes dl hheld]
    · exact h.bytes d hd
  · intro d hd
    obtain ⟨hid, hnumber, -, htotal, -⟩ | ⟨hd, -⟩ := h.held_addChunk hdl bytes hd
    · rw [hstart, hid, hnumber, htotal]
      exact h.begun dl hheld
    · rw [hstart]
      exact h.begun d hd
  · intro serial hserial'
    have hbefore := h.before dl hheld
    have hlate : s.started ≤ serial := hserial'
    have hne : serial ≠ dl.serial := by omega
    rw [hstart, hother serial hne]
    exact h.fresh serial hlate

/-! ## A new download -/

omit [DecidableEq F] in
/-- A transfer that begins has a file of its own. -/
theorem Kept.add (h : Kept w s es) (dl : IncomingFile) (hidle : s.Idle w (w.partFile dl.id))
    (hnumber : dl.serial = s.started) (hhashed : dl.hashed = []) (hbytes : dl.receivedBytes = 0)
    (declared : Option ℤ) (hsink : dl.sink = none ∧ t.sinks = s.sinks ∨
      dl.sink = some s.sinks.length ∧ t.sinks = s.sinks ++ [{ file := w.partFile dl.id }])
    (hdownloads : t.downloads = s.downloads ++ [dl]) (hendings : t.endings = s.endings)
    (hparts : t.parts = s.parts) (hstarted : t.started = s.started + 1) :
    Kept w t (es ++ [.starts s.started dl.id declared dl.totalChunks]) := by
  -- the new transfer beside those that are held
  have hheld : t.held.Perm (dl :: s.held) := by
    unfold IncomingFiles.held
    rw [hdownloads, hendings, append_assoc]
    exact perm_middle
  have hmem : ∀ d ∈ t.held, d = dl ∨ d ∈ s.held := fun d hd => mem_cons.mp (hheld.mem_iff.mp hd)
  have htaken : ∀ serial, takenOf serial (es ++ [.starts s.started dl.id declared dl.totalChunks]) =
    takenOf serial es := by
    intro serial
    rw [takenOf_append]
    exact append_nil _
  have hfresh := h.fresh s.started le_rfl
  refine ⟨?_, ?_, ?_, ?_, ?_, ?_, ?_, ?_, ?_, ?_⟩
  · refine (hheld.pairwise_iff fun hfile => hfile.symm).mpr (pairwise_cons.mpr ⟨fun d hd => ?_, h.apart⟩)
    exact (hidle.1 d hd).symm
  · intro d hd j hj
    rw [hparts]
    obtain rfl | hd := hmem d hd
    · obtain ⟨hno, -⟩ | ⟨hlast, hmore⟩ := hsink
      · cases hno.symm.trans hj
      · cases hlast.symm.trans hj
        rw [hmore, hhashed]
        exact ⟨{ file := w.partFile d.id }, getElem?_last _ _, rfl, rfl⟩
    · obtain ⟨-, hunchanged⟩ | ⟨-, hmore⟩ := hsink
      · rw [hunchanged]
        exact h.own d hd j hj
      · rw [hmore]
        exact Holds.add (h.own d hd j hj) _
  · intro d hd
    have hbefore : Alone s.sinks (w.partFile d.id) (d.sink = some ·) := by
      obtain rfl | hd := hmem d hd
      · intro j sink hat hbusy hfile
        cases hbusy.symm.trans (hidle.2 sink (mem_of_getElem? hat) hfile)
      · exact h.alone d hd
    obtain ⟨-, hunchanged⟩ | ⟨hlast, hmore⟩ := hsink
    · rw [hunchanged]
      exact hbefore
    · rw [hmore]
      refine hbefore.add fun hfile => ?_
      obtain rfl | hd := hmem d hd
      · exact hlast
      · exact absurd hfile.symm (hidle.1 d hd)
  · intro d hd j sink hj hat
    rw [hdownloads] at hd
    obtain hd | hd := mem_append.mp hd
    · obtain ⟨-, hunchanged⟩ | ⟨-, hmore⟩ := hsink
      · exact h.opened d hd j sink hj (hunchanged ▸ hat)
      · rw [hmore] at hat
        obtain hat | ⟨-, rfl⟩ := getElem?_add hat
        · exact h.opened d hd j sink hj hat
        · exact ⟨rfl, nofun⟩
    · obtain rfl := mem_singleton.mp hd
      obtain ⟨hno, -⟩ | ⟨hlast, hmore⟩ := hsink
      · cases hno.symm.trans hj
      · cases hlast.symm.trans hj
        rw [hmore] at hat
        cases (getElem?_last _ _).symm.trans hat
        exact ⟨rfl, nofun⟩
  · intro d hd e he hsame
    obtain rfl | hd := hmem d hd
    · obtain rfl | he := hmem e he
      · rfl
      · exact absurd (h.before e he) (by omega)
    · obtain rfl | he := hmem e he
      · exact absurd (h.before d hd) (by omega)
      · exact h.serials d hd e he hsame
  · intro d hd
    obtain rfl | hd := hmem d hd
    · omega
    · have hbefore := h.before d hd
      omega
  · intro d hd
    rw [htaken]
    obtain rfl | hd := hmem d hd
    · rw [hnumber, hfresh.2, hhashed]
      rfl
    · exact h.taken d hd
  · intro d hd
    obtain rfl | hd := hmem d hd
    · rw [hbytes, hhashed]
      rfl
    · exact h.bytes d hd
  · intro d hd
    obtain rfl | hd := hmem d hd
    · refine ⟨declared, ?_⟩
      rw [hnumber, startOf_append, hfresh.1]
      simp [startOf, TransferEvent.start]
    · obtain ⟨size, hsize⟩ := h.begun d hd
      refine ⟨size, ?_⟩
      rw [startOf_append, hsize]
      rfl
  · intro serial hserial
    have hlate := h.fresh serial (by omega)
    have hne : s.started ≠ serial := by omega
    rw [htaken, startOf_append, hlate.1]
    refine ⟨?_, hlate.2⟩
    simp [startOf, TransferEvent.start, hne]

omit [DecidableEq F] in
theorem Kept.answers (h : Kept w s es) (hsilent : Silent fs) : Kept w s (es ++ fs) :=
  h.shrink (List.Subperm.refl _) rfl (fun _ _ => rfl) rfl h.opened hsilent

omit [DecidableEq F] in
theorem kept_handleFileStart (h : Kept w s es) (input : Json) (throws : Bool)
    (hidle : s.downloads.length < hostConcurrentDownloads → s.Idle w (w.partFile (transferId w.doubleText input))) :
    Kept w (s.handleFileStart w input throws).1 (es ++ (s.handleFileStart w input throws).2) := by
  have hnothing : Kept w s (es ++ []) := h.answers fun _ => ⟨rfl, rfl⟩
  unfold IncomingFiles.handleFileStart
  dsimp only
  split
  · exact hnothing
  · split
    · split
      · exact h.answers (silent_sendControlJson s _)
      · have hidle := hidle (by omega)
        have hnone : ∀ d ∈ s.downloads, d.id ≠ transferId w.doubleText input := by
          intro d hd hid
          exact hidle.1 d (mem_append_left _ hd) (congrArg w.partFile hid)
        have hfind : s.downloads.find? (·.id = transferId w.doubleText input) = none := by
          refine find?_eq_none.mpr fun d hd => ?_
          simpa using hnone d hd
        have hfilter : s.downloads.filter (·.id ≠ transferId w.doubleText input) = s.downloads := by
          refine filter_eq_self.mpr fun d hd => ?_
          simpa using hnone d hd
        rw [hfind, hfilter]
        refine h.add ⟨_, _, _, _, _, _, _, _, _, _⟩ hidle rfl rfl rfl _ ?_ rfl rfl rfl rfl
        cases throws with
        | true => exact .inl ⟨rfl, rfl⟩
        | false => exact .inr ⟨rfl, rfl⟩
    · exact hnothing

/-! ## The messages -/

theorem kept_handleFileChunk (h : Kept w s es) (input : Json) (deletes : Bool) :
    Kept w (s.handleFileChunk w input deletes).1 (es ++ (s.handleFileChunk w input deletes).2) := by
  have hnothing : Kept w s (es ++ []) := h.answers fun _ => ⟨rfl, rfl⟩
  unfold IncomingFiles.handleFileChunk
  dsimp only
  split
  · rename_i chunkIndex dl _ hfind
    have hdl : dl ∈ s.downloads := mem_of_find?_eq_some hfind
    split
    · exact hnothing
    · split
      · exact kept_giveUp h hdl deletes
      · split
        · exact hnothing
        · split
          · exact kept_giveUp h hdl deletes
          · exact kept_addChunk h hdl _ chunkIndex
  · exact hnothing

theorem kept_handleMessage (h : Kept w s es) (input : Json) (throws deletes : Bool)
    (hidle : s.makesDownload input = true → s.Idle w (w.partFile (transferId w.doubleText input))) :
    Kept w (s.handleMessage w input throws deletes).1 (es ++ (s.handleMessage w input throws deletes).2) := by
  have hnothing : Kept w s (es ++ []) := h.answers fun _ => ⟨rfl, rfl⟩
  unfold IncomingFiles.handleMessage
  split
  · exact hnothing
  · rename_i hopen
    split
    · rename_i hstart
      refine kept_handleFileStart h input throws fun hfew => hidle ?_
      obtain ⟨htype, hvalid⟩ := (Bool.and_eq_true ..).mp hstart
      unfold IncomingFiles.makesDownload
      rw [htype, hvalid, Bool.eq_false_iff.mpr hopen, decide_eq_true hfew]
      rfl
    · split
      · exact kept_handleFileChunk h input deletes
      · split
        · exact kept_handleFileEnd h input
        · exact hnothing

/-! ## The sinks -/

omit [DecidableEq F] in
theorem Kept.moves (h : Kept w s es) {j : ℕ} {sink next : FileSink F} {later : List (FileSink F)} {parts : F → PartFile}
    (hmoves : SinkMoves j sink next s.sinks later s.parts parts) : Kept w { s with sinks := later, parts } es := by
  refine ⟨h.apart, ?_, fun d hd => Alone.moves (h.alone d hd) hmoves, fun d hd k other hk =>
    hmoves.opened fun x => h.opened d hd k x hk, h.serials, h.before, h.taken, h.bytes, h.begun, h.fresh⟩
  intro d hd k hk
  refine Holds.moves (h.own d hd k hk) (fun i other hat hbusy hfile => ?_) hmoves
  exact Option.some.inj (hk.symm.trans (h.alone d hd i other hat hbusy hfile))

theorem kept_of_step (h : Kept w s es) (hmeets : s.MeetsTransfer w es a)
    (hstep : s.step w a = some (t, fs)) : Kept w t (es ++ fs) := by
  cases a with
  | message input throws deletes =>
    have hkept := kept_handleMessage h input throws deletes hmeets
    have heq : s.handleMessage w input throws deletes = (t, fs) := Option.some.inj hstep
    rw [heq] at hkept
    exact hkept
  | stalls _ deletes =>
    obtain ⟨dl, hfind, heq⟩ := map_eq_some_iff.mp hstep
    have hkept := kept_giveUp h (mem_of_find?_eq_some hfind) deletes
    rw [heq] at hkept
    exact hkept
  | sinkOpens | sinkWrites | sinkCloses =>
    obtain ⟨sink, next, later, parts, heq, hmoves, -⟩ := sink_turns rfl hstep
    cases heq
    rw [append_nil]
    exact h.moves hmoves
  | endGoesOn _ deletes =>
    obtain ⟨ending, hk, hstep⟩ := bind_eq_some_iff.mp hstep
    obtain ⟨-, heq⟩ := ite_none_right_eq_some.mp hstep
    have hkept := kept_compare h hk deletes
    rw [Option.some.inj heq] at hkept
    exact hkept
  | endSaves k ok deletes =>
    obtain ⟨ending, hk, hstep⟩ := bind_eq_some_iff.mp hstep
    obtain ⟨-, heq⟩ := ite_none_right_eq_some.mp hstep
    have hsilent : Silent (s.save w k ending ok deletes).2 := silent_save k ending ok deletes
    have hkept := kept_save h hk ok deletes hsilent
    rw [Option.some.inj heq] at hkept
    exact hkept
  | sessionCloses =>
    cases hstep
    refine h.shrink (sublist_append_right _ _).subperm rfl (fun _ _ => rfl) rfl ?_ fun _ => ⟨rfl, rfl⟩
    exact fun d hd => absurd hd not_mem_nil

omit [DecidableEq F] in
theorem kept_initial : Kept w ({} : IncomingFiles F) [] := by
  refine ⟨List.Pairwise.nil, ?_, ?_, ?_, ?_, ?_, ?_, ?_, ?_, fun _ _ => ⟨rfl, rfl⟩⟩
  all_goals exact fun d hd => absurd hd not_mem_nil

omit [DecidableEq F] in
theorem Kept.saved (h : Kept w s es) {k : ℕ} {ending : FileEnding} (hk : s.endings[k]? = some ending)
    (hpc : ending.pc = .saving) {deletes : Bool} (hmeets : s.MeetsTransfer w es (.endSaves k true deletes)) :
    (s.parts (w.partFile ending.file.id)).content = some ending.file.hashed ∧
      ExactContent es ending.file.serial ending.file.id ending.file.hashed := by
  have hheld : ending.file ∈ s.held :=
    mem_append_right _ (List.mem_map.mpr ⟨ending, mem_of_getElem? hk, rfl⟩)
  obtain ⟨⟨j, sink, hsink, hat, hclosed⟩, horder, hsize⟩ := hmeets rfl ending hk hpc
  obtain ⟨other, hat', hfile, hhas⟩ := h.own ending.file hheld j hsink
  cases hat.symm.trans hat'
  obtain ⟨declared, hbegun⟩ := h.begun ending.file hheld
  constructor
  · unfold FileSink.Has at hhas
    rw [hclosed] at hhas
    rw [← hfile]
    exact hhas
  · refine ⟨declared, _, hbegun, horder, (h.taken ending.file hheld).symm, fun size hdeclared => ?_⟩
    rw [hdeclared] at hbegun
    rw [← h.bytes ending.file hheld]
    exact hsize _ _ _ hbegun

/-- The condition, computed. -/
def IncomingFiles.checksTransfer (w : FileWorld F) (s : IncomingFiles F) (es : List TransferEvent) :
    FileAction → Bool
  | .message input _ _ =>
    let file := w.partFile (transferId w.doubleText input)
    !s.makesDownload input ||
      (s.held.all (fun d => w.partFile d.id ≠ file) && s.sinks.all fun sink => sink.file ≠ file || sink.isDone)
  | .endSaves k _ _ => (s.endings[k]?).all fun ending =>
    (ending.file.sink.bind (s.sinks[·]?)).any (·.handle = .closed) &&
      decide ((takenOf ending.file.serial es).map Prod.fst = (List.range ending.file.totalChunks.toNat).map
        Int.ofNat) &&
        (startOf ending.file.serial es).all fun start => start.2.1.all fun size =>
          (ending.file.receivedBytes : ℤ) = size
  | _ => true

theorem meetsTransfer_of_checks (h : s.checksTransfer w es a = true) : s.MeetsTransfer w es a := by
  cases a with
  | message =>
    intro hmakes
    unfold IncomingFiles.checksTransfer at h
    dsimp only at h
    rw [hmakes, Bool.not_true, Bool.false_or] at h
    obtain ⟨hheld, hsinks⟩ := (Bool.and_eq_true ..).mp h
    refine ⟨fun d hd => of_decide_eq_true (List.all_eq_true.mp hheld d hd), fun sink hsink hfile => ?_⟩
    have hall := List.all_eq_true.mp hsinks sink hsink
    rw [decide_eq_false fun hne => hne hfile, Bool.false_or] at hall
    exact hall
  | endSaves =>
    intro _ ending hk _
    unfold IncomingFiles.checksTransfer at h
    dsimp only at h
    rw [hk, all_some] at h
    obtain ⟨h, hsize⟩ := (Bool.and_eq_true ..).mp h
    obtain ⟨hsink, horder⟩ := (Bool.and_eq_true ..).mp h
    obtain ⟨sink, hat, hclosed⟩ := (Option.any_eq_true ..).mp hsink
    obtain ⟨j, hj, hat⟩ := bind_eq_some_iff.mp hat
    have hindices := of_decide_eq_true horder
    refine ⟨⟨j, sink, hj, hat, of_decide_eq_true hclosed⟩, hindices, fun id size totalChunks hstart => ?_⟩
    rw [hstart, all_some] at hsize
    exact of_decide_eq_true hsize
  | _ => trivial

end

end

end LigamentApps.LinkHost
