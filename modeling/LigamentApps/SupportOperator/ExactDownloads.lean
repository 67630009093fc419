import LigamentApps.SupportOperator.IncomingDownloads

/-!
# The files that the operator answers with ok

When the file that the operator saves and acknowledges is the chunks of its transfer, whatever messages
come. -/

namespace LigamentApps.SupportOperator

open LinkHost LinkHostRecorder SupportService List Option Bool

variable {a : DownloadAction} {call : EndCall} {k : ℕ} (sink : ℕ)

/-! ## What is asked of the operator -/

def DownloadEvent.chunk (sink : ℕ) : DownloadEvent → Option (ℤ × List UInt8)
  | .takes other index bytes => if other = sink then some (index, bytes) else none
  | _ => none

/-- The id, the size, the number of chunks and the checksum with which a download is made. -/
def DownloadEvent.beginning (sink : ℕ) : DownloadEvent → Option (String × Option ℤ × ℤ × Option String)
  | .starts other id declared totalChunks checksum =>
    if other = sink then some (id, declared, totalChunks, checksum) else none
  | _ => none

def DownloadEvent.ending (sink : ℕ) : DownloadEvent → Option (Option String)
  | .ends other checksum => if other = sink then some checksum else none
  | _ => none

def chunksOf (sink : ℕ) (es : List DownloadEvent) : List (ℤ × List UInt8) := es.filterMap (DownloadEvent.chunk sink)

def beginningOf (sink : ℕ) (es : List DownloadEvent) : Option (String × Option ℤ × ℤ × Option String) :=
  es.findSome? (DownloadEvent.beginning sink)

def endOf (sink : ℕ) (es : List DownloadEvent) : Option (Option String) := es.findSome? (DownloadEvent.ending sink)

/-- The checksum that was announced for a download: the last message has it, or else the first one. -/
def announced (first last : Option String) : Option String := if last.any (· ≠ "") then last else first

/-- The content is the chunks of the download with the id, each once and in order, and has the size and the
checksum that were announced. -/
def ExactDownload (w : OperatorWorld) (es : List DownloadEvent) (sink : ℕ) (id : String)
    (content : List UInt8) : Prop :=
  ∃ declared totalChunks first last, beginningOf sink es = some (id, declared, totalChunks, first) ∧
    endOf sink es = some last ∧ (chunksOf sink es).map Prod.fst =
      (List.range totalChunks.toNat).map Int.ofNat ∧ content = ((chunksOf sink es).map Prod.snd).flatten ∧
        (∀ size, declared = some size → (content.length : ℤ) = size) ∧
          ∀ checksum, announced first last = some checksum → checksum ≠ "" →
            lowerCase (hexText (w.sha256 content)) = lowerCase checksum

/-- An ok is for a file that is saved and exact. -/
def AckIsExact (w : OperatorWorld) (s : OperatorDownloads) (es : List DownloadEvent) (a : DownloadAction) : Prop :=
  ∀ t fs, s.step w a = some (t, fs) → ∀ id, .sends (fileAck id true) ∈ fs →
    ∃ sink path content, .saves sink path content ∈ fs ∧ ExactDownload w es sink id content

/-- The downloads of which there is a sink that may still be written, or a file that is not yet at its
path. -/
def OperatorDownloads.held (s : OperatorDownloads) : List OperatorDownload := s.downloads ++ s.endings.map (·.file)

/-- Nothing else writes the part file of the path, or is to be renamed to it. -/
def OperatorDownloads.Free (s : OperatorDownloads) (id path : String) : Prop :=
  (∀ d ∈ s.downloads.filter (·.id ≠ id) ++ s.endings.map (·.file),
    d.targetPath ≠ path ∧ d.targetPath ≠ partPath path ∧ path ≠ partPath d.targetPath) ∧
      ∀ k ∈ s.sinks, k.file = partPath path → k.isDone = true

/-- A download is made only where nothing else writes its files; its chunks come one after another and are not
too many; and its last message comes after all of them, and after no byte if the size that was announced is
not positive. -/
def OperatorDownloads.MeetsDownload (w : OperatorWorld) (s : OperatorDownloads) (es : List DownloadEvent) :
    DownloadAction → Prop
  | .startGoesOn k ok => ok = true → ∀ call path, s.starts[k]? = some call →
    w.resolve s.files call.dirPath call.filename = some path → s.Free call.id path
  | .message input _ =>
    (hasType input ["file_chunk"] = true → ∀ dl bytes,
      s.downloads.find? (·.id = transferId w.doubleText input) = some dl →
      Base64.decode (dartTextOr w.doubleText input "data" "") = some bytes →
        truncatedOr input "chunk_index" (-1) = some dl.receivedChunks ∧ dl.receivedChunks < dl.totalChunks) ∧
    (hasType input ["file_end"] = true → ∀ dl, s.downloads.find? (·.id = transferId w.doubleText input) =
      some dl → dl.receivedChunks = dl.totalChunks ∧ ∀ id size totalChunks checksum,
        beginningOf dl.sink es = some (id, some size, totalChunks, checksum) → size ≤ 0 →
          (dl.receivedBytes : ℤ) = size)
  | _ => True

/-- The file that an owner writes. -/
def OperatorDownload.owner (d : OperatorDownload) : SinkOwner String := ⟨partPath d.targetPath, d.sink, d.hashed⟩

/-- What the trace tells of a download is what the download has. -/
structure Told (es : List DownloadEvent) (d : OperatorDownload) : Prop where
  begun : ∃ declared, beginningOf d.sink es = some (d.id, declared, d.totalChunks, d.expectedChecksum) ∧
    d.totalSize = declared.getD 0
  order : (chunksOf d.sink es).map Prod.fst = (List.range d.receivedChunks).map Int.ofNat
  bytes : ((chunksOf d.sink es).map Prod.snd).flatten = d.hashed
  count : d.receivedBytes = d.hashed.length

/-- A download whose last message has come has all its chunks, and what its size did not promise did not
come. -/
structure Ended (w : OperatorWorld) (es : List DownloadEvent) (sinks : List (FileSink String)) (e : EndCall) :
    Prop where
  last : endOf e.file.sink es = some e.checksum
  whole : e.file.receivedChunks = e.file.totalChunks
  size : ∀ id size totalChunks checksum, beginningOf e.file.sink es =
    some (id, some size, totalChunks, checksum) → size ≤ 0 → (e.file.receivedBytes : ℤ) = size
  compared : e.wait = .renaming → OperatorDownloads.isWhole w e = true ∧
    ∃ k, sinks[e.file.sink]? = some k ∧ k.handle = .closed

/-- The events tell nothing of a download. -/
def Silent (fs : List DownloadEvent) (sink : ℕ) : Prop :=
  beginningOf sink fs = none ∧ chunksOf sink fs = [] ∧ endOf sink fs = none

/-- The files of two downloads have nothing to do with each other. -/
def Apart (d e : OperatorDownload) : Prop :=
  d.targetPath ≠ partPath e.targetPath ∧ e.targetPath ≠ partPath d.targetPath

/-- The invariant. -/
structure Sound (w : OperatorWorld) (s : OperatorDownloads) (es : List DownloadEvent) : Prop where
  owned : Owned (s.held.map OperatorDownload.owner) s.sinks s.files.part
  apart : s.held.Pairwise Apart
  ids : (s.downloads.map (·.id)).Nodup
  opened : ∀ d ∈ s.downloads, ∀ k, s.sinks[d.sink]? = some k → k.closing = false ∧ k.handle ≠ .closed
  told : ∀ d ∈ s.held, Told es d
  ended : ∀ e ∈ s.endings, Ended w es s.sinks e
  unended : ∀ d ∈ s.downloads, endOf d.sink es = none
  fresh : ∀ sink, s.sinks.length ≤ sink → Silent es sink

variable {w : OperatorWorld} {s t : OperatorDownloads} {es fs : List DownloadEvent} {d e dl : OperatorDownload}

@[simp] theorem chunksOf_append (es fs : List DownloadEvent) :
    chunksOf sink (es ++ fs) = chunksOf sink es ++ chunksOf sink fs := filterMap_append

@[simp] theorem beginningOf_append (es fs : List DownloadEvent) :
    beginningOf sink (es ++ fs) = (beginningOf sink es).or (beginningOf sink fs) := findSome?_append

@[simp] theorem endOf_append (es fs : List DownloadEvent) :
    endOf sink (es ++ fs) = (endOf sink es).or (endOf sink fs) := findSome?_append

theorem Told.append (h : Told es d) (hchunks : chunksOf d.sink fs = []) : Told (es ++ fs) d := by
  have hsame : chunksOf d.sink (es ++ fs) = chunksOf d.sink es := by
    rw [chunksOf_append, hchunks, append_nil]
  obtain ⟨declared, hbegun, hsize⟩ := h.begun
  refine ⟨⟨declared, ?_, hsize⟩, ?_, ?_, h.count⟩
  · rw [beginningOf_append, hbegun]
    rfl
  · rw [hsame]
    exact h.order
  · rw [hsame]
    exact h.bytes

theorem Ended.append {sinks later : List (FileSink String)} (h : Ended w es sinks call)
    (htold : Told es call.file) (hsilent : Silent fs call.file.sink)
    (hclosed : ∀ k, sinks[call.file.sink]? = some k → k.handle = .closed → later[call.file.sink]? = some k) :
    Ended w (es ++ fs) later call := by
  obtain ⟨declared, hbegun, -⟩ := htold.begun
  have hbegin : beginningOf call.file.sink (es ++ fs) = beginningOf call.file.sink es := by
    rw [beginningOf_append, hsilent.1, or_none]
  refine ⟨?_, h.whole, ?_, fun hwait => ?_⟩
  · rw [endOf_append, h.last]
    rfl
  · rw [hbegin]
    exact h.size
  · obtain ⟨hwhole, k, hk, hhandle⟩ := h.compared hwait
    exact ⟨hwhole, k, hclosed k hk hhandle, hhandle⟩

theorem Silent.append {sink : ℕ} (h : Silent es sink) (hmore : Silent fs sink) : Silent (es ++ fs) sink := by
  obtain ⟨hbegin, hchunks, hend⟩ := h
  obtain ⟨hbegin', hchunks', hend'⟩ := hmore
  refine ⟨?_, ?_, ?_⟩
  · rw [beginningOf_append, hbegin, hbegin']
    rfl
  · rw [chunksOf_append, hchunks, hchunks']
    rfl
  · rw [endOf_append, hend, hend']
    rfl

theorem Sound.sink_lt (h : Sound w s es) (hd : d ∈ s.held) : d.sink < s.sinks.length := by
  obtain ⟨k, hk, -⟩ := h.owned.own d.owner (List.mem_map.mpr ⟨d, hd, rfl⟩)
  obtain ⟨hlt, -⟩ := List.getElem?_eq_some_iff.mp hk
  exact hlt

theorem silent_nil : Silent [] sink := ⟨rfl, rfl, rfl⟩

theorem silent_sends (message : Json) (sink : ℕ) : Silent [.sends message] sink := ⟨rfl, rfl, rfl⟩

theorem silent_saves (other : ℕ) (path : String) (content : List UInt8) (message : Json) (sink : ℕ) :
    Silent [.saves other path content, .sends message] sink := ⟨rfl, rfl, rfl⟩

theorem partPath_injective : Function.Injective partPath := by
  intro x y heq
  have hchars := congrArg String.toList heq
  unfold partPath at hchars
  rw [String.toList_append, String.toList_append] at hchars
  exact String.toList_inj.mp (append_cancel_right hchars)

theorem Sound.less (h : Sound w s es) (hdownloads : t.downloads.Sublist s.downloads)
    (hendings : t.endings.Sublist s.endings) (hsinks : t.sinks = s.sinks)
    (hparts : ∀ d ∈ t.held, t.files.part (partPath d.targetPath) = s.files.part (partPath d.targetPath))
    (hsilent : ∀ sink, Silent fs sink) : Sound w t (es ++ fs) := by
  have hheld : t.held.Sublist s.held := hdownloads.append (hendings.map _)
  refine ⟨?_, h.apart.sublist hheld, h.ids.sublist (hdownloads.map _), ?_, ?_, ?_, ?_, ?_⟩
  · have hfew := hheld.map OperatorDownload.owner
    refine h.owned.of_subset (h.owned.apart.sublist hfew) (fun o ho => hfew.subset ho)
      (by rw [hsinks]) fun o ho => ?_
    obtain ⟨d, hd, rfl⟩ := List.mem_map.mp ho
    exact hparts d hd
  · intro d hd
    rw [hsinks]
    exact h.opened d (hdownloads.subset hd)
  · exact fun d hd => (h.told d (hheld.subset hd)).append (hsilent _).2.1
  · intro call hcall
    have hbefore := hendings.subset hcall
    have htold := h.told call.file (mem_append_right _ (List.mem_map.mpr ⟨call, hbefore, rfl⟩))
    refine (h.ended call hbefore).append htold (hsilent _) fun k hk _ => ?_
    rw [hsinks]
    exact hk
  · intro d hd
    rw [endOf_append, h.unended d (hdownloads.subset hd), (hsilent _).2.2]
    rfl
  · intro sink hsink
    rw [hsinks] at hsink
    exact (h.fresh sink hsink).append (hsilent sink)

theorem Sound.moves (h : Sound w s es) {j : ℕ} {sink next : FileSink String}
    (hmoves : SinkMoves j sink next s.sinks t.sinks s.files.part t.files.part)
    (hdownloads : t.downloads = s.downloads) (hendings : t.endings = s.endings) : Sound w t (es ++ []) := by
  have hheld : t.held = s.held := by
    unfold OperatorDownloads.held
    rw [hdownloads, hendings]
  rw [append_nil]
  refine ⟨?_, hheld ▸ h.apart, hdownloads ▸ h.ids, ?_, ?_, ?_, hdownloads ▸ h.unended, ?_⟩
  · rw [hheld]
    exact h.owned.moves hmoves
  · exact fun d hd k => hmoves.opened (h.opened d (hdownloads ▸ hd))
  · rw [hheld]
    exact h.told
  · intro call hcall
    rw [hendings] at hcall
    have htold := h.told call.file (mem_append_right _ (List.mem_map.mpr ⟨call, hcall, rfl⟩))
    have hclosed : ∀ k, s.sinks[call.file.sink]? = some k → k.handle = .closed →
        t.sinks[call.file.sink]? = some k := by
      intro k hk hclosed
      by_cases hj : call.file.sink = j
      · rw [hj] at hk
        cases hmoves.found.symm.trans hk
        exact absurd hclosed (handle_of_busy hmoves.busy).1
      · exact (hmoves.rest hj).trans hk
    have hstays := (h.ended call hcall).append htold (silent_nil _) hclosed
    rwa [append_nil] at hstays
  · intro sink hsink
    refine h.fresh sink ?_
    rw [hmoves.set, length_set] at hsink
    exact hsink

/-- A download that begins has a sink and a file of its own. -/
theorem Sound.add (h : Sound w s es) {path : String} {call : StartCall} (hfree : s.Free call.id path)
    (hdl : dl = { id := call.id, totalSize := call.totalSize, totalChunks := call.totalChunks
                  expectedChecksum := call.checksum, targetPath := path, sink := s.sinks.length })
    (hsize : call.totalSize = call.declared.getD 0)
    (hdownloads : t.downloads = s.downloads.filter (·.id ≠ call.id) ++ [dl]) (hendings : t.endings = s.endings)
    (hsinks : t.sinks = s.sinks ++ [{ file := partPath path }]) (hfiles : t.files = s.files) :
    Sound w t (es ++ [.starts s.sinks.length call.id call.declared call.totalChunks call.checksum]) := by
  generalize hkept : ({ s with downloads := s.downloads.filter (·.id ≠ call.id) } : OperatorDownloads) = u
  have hu : Sound w u (es ++ []) := by
    rw [← hkept]
    exact h.less filter_sublist (List.Sublist.refl _) rfl (fun _ _ => rfl) silent_nil
  rw [append_nil] at hu
  have husinks : u.sinks = s.sinks := by rw [← hkept]
  have hudownloads : u.downloads = s.downloads.filter (·.id ≠ call.id) := by rw [← hkept]
  have huendings : u.endings = s.endings := by rw [← hkept]
  have hufiles : u.files = s.files := by rw [← hkept]
  -- no download that is held has the path or its part file
  have hfreeHeld : ∀ d ∈ u.held, d.targetPath ≠ path ∧ d.targetPath ≠ partPath path ∧
      path ≠ partPath d.targetPath := by
    intro d hd
    refine hfree.1 d ?_
    unfold OperatorDownloads.held at hd
    rwa [hudownloads, huendings] at hd
  have hperm : t.held.Perm (dl :: u.held) := by
    unfold OperatorDownloads.held
    rw [hdownloads, hendings, hudownloads, huendings, append_assoc]
    exact perm_middle
  have hmem : ∀ d ∈ t.held, d = dl ∨ d ∈ u.held := fun d hd => mem_cons.mp (hperm.mem_iff.mp hd)
  have hsink : dl.sink = s.sinks.length := by rw [hdl]
  have hfresh := h.fresh s.sinks.length le_rfl
  have hearlier : ∀ d ∈ u.held, d.sink < s.sinks.length := fun d hd => husinks ▸ hu.sink_lt hd
  -- the other sinks do not hear of the beginning
  have hsilent : ∀ sink, sink ≠ s.sinks.length →
      Silent [.starts s.sinks.length call.id call.declared call.totalChunks call.checksum] sink := by
    intro sink hne
    refine ⟨?_, rfl, rfl⟩
    simp [beginningOf, DownloadEvent.beginning, hne.symm]
  refine ⟨?_, ?_, ?_, ?_, ?_, ?_, ?_, ?_⟩
  · have howner : dl.owner = ⟨partPath path, s.sinks.length, []⟩ := by
      rw [hdl]
      rfl
    have hothers : (t.held.map OperatorDownload.owner).Perm
        (⟨partPath path, u.sinks.length, []⟩ :: u.held.map OperatorDownload.owner) := by
      rw [husinks, ← howner]
      exact hperm.map _
    have hidle : ∀ o ∈ u.held.map OperatorDownload.owner, o.file ≠ partPath path := by
      intro o ho
      obtain ⟨d, hd, rfl⟩ := List.mem_map.mp ho
      exact fun hsame => (hfreeHeld d hd).1 (partPath_injective hsame)
    have hquiet : ∀ k ∈ u.sinks, k.file = partPath path → k.isDone = true := by
      intro k hk hfile
      rw [husinks] at hk
      exact hfree.2 k hk hfile
    have hadded := hu.owned.add (partPath path) hidle hquiet hothers
    rw [husinks, hufiles] at hadded
    rw [hsinks, hfiles]
    exact hadded
  · refine (hperm.pairwise_iff fun hapart => ⟨hapart.2, hapart.1⟩).mpr
      (pairwise_cons.mpr ⟨fun d hd => ?_, hu.apart⟩)
    obtain ⟨-, hpart, hpath⟩ := hfreeHeld d hd
    have htarget : dl.targetPath = path := by rw [hdl]
    unfold Apart
    rw [htarget]
    exact ⟨hpath, hpart⟩
  · rw [hdownloads, map_append, ← hudownloads]
    refine nodup_append.mpr ⟨hu.ids, nodup_singleton _, fun id hid other hother => ?_⟩
    obtain ⟨d, hd, rfl⟩ := List.mem_map.mp hid
    rw [hudownloads] at hd
    have hne := of_decide_eq_true (mem_filter.mp hd).2
    rw [map_singleton, mem_singleton, hdl] at hother
    rw [hother]
    exact hne
  · intro d hd k hk
    rw [hdownloads] at hd
    rw [hsinks] at hk
    obtain hd | hd := mem_append.mp hd
    · rw [← hudownloads] at hd
      have hlt := hearlier d (mem_append_left _ hd)
      rw [getElem?_append_left hlt] at hk
      exact hu.opened d hd k (husinks ▸ hk)
    · rw [mem_singleton.mp hd, hsink, getElem?_last] at hk
      cases hk
      exact ⟨rfl, nofun⟩
  · intro d hd
    obtain rfl | hd := hmem d hd
    · have hbegin : beginningOf d.sink (es ++ [.starts s.sinks.length call.id call.declared call.totalChunks
        call.checksum]) =
          some (call.id, call.declared, call.totalChunks, call.checksum) := by
        rw [hsink, beginningOf_append, hfresh.1]
        simp [beginningOf, DownloadEvent.beginning]
      have hchunks : chunksOf d.sink (es ++ [.starts s.sinks.length call.id call.declared call.totalChunks
        call.checksum]) =
          [] := by
        rw [hsink, chunksOf_append, hfresh.2.1]
        rfl
      refine ⟨⟨call.declared, ?_, ?_⟩, ?_, ?_, ?_⟩
      · rw [hbegin, hdl]
      · rw [hdl]
        exact hsize
      · rw [hchunks, hdl]
        rfl
      · rw [hchunks, hdl]
        rfl
      · rw [hdl]
        rfl
    · have hlt := hearlier d hd
      exact (hu.told d hd).append (hsilent _ (by omega)).2.1
  · intro e he
    rw [hendings, ← huendings] at he
    have hheld : e.file ∈ u.held := mem_append_right _ (List.mem_map.mpr ⟨e, he, rfl⟩)
    have hlt := hearlier e.file hheld
    refine (hu.ended e he).append (hu.told e.file hheld) (hsilent _ (by omega)) fun k hk _ => ?_
    rw [hsinks, getElem?_append_left hlt]
    exact husinks ▸ hk
  · intro d hd
    rw [hdownloads] at hd
    obtain hd | hd := mem_append.mp hd
    · rw [← hudownloads] at hd
      have hlt := hearlier d (mem_append_left _ hd)
      rw [endOf_append, hu.unended d hd, (hsilent d.sink (by omega)).2.2]
      rfl
    · rw [mem_singleton.mp hd, hsink, endOf_append, hfresh.2.2]
      rfl
  · intro sink hle
    rw [hsinks, length_append, length_singleton] at hle
    exact (h.fresh sink (by omega)).append (hsilent sink (by omega))

theorem Sound.eq_of_id (h : Sound w s es) (hd : d ∈ s.downloads) (he : e ∈ s.downloads)
    (hid : d.id = e.id) : d = e :=
  inj_on_of_nodup_map h.ids hd he hid

theorem Sound.file_ne (h : Sound w s es) (hd : d ∈ s.held) (he : e ∈ s.held) (hne : d ≠ e) :
    partPath d.targetPath ≠ partPath e.targetPath := by
  have hpairs := pairwise_map.mp h.owned.apart
  have : Std.Symm fun d e : OperatorDownload => d.owner.file ≠ e.owner.file := ⟨fun _ _ hfile => hfile.symm⟩
  exact hpairs.forall hd he hne

theorem Sound.cross (h : Sound w s es) (hd : d ∈ s.endings.map (·.file)) (he : e ∈ s.downloads) :
    partPath d.targetPath ≠ partPath e.targetPath := by
  have hpairs := pairwise_map.mp h.owned.apart
  exact ((pairwise_append.mp hpairs).2.2 e he d hd).symm

/-- A chunk goes to the file of its download and to no other. -/
theorem Sound.give (h : Sound w s es) (hdl : dl ∈ s.downloads) (bytes : List UInt8) :
    Sound w (s.addChunk dl bytes) (es ++ [.takes dl.sink dl.receivedChunks bytes]) := by
  have hheld : dl ∈ s.held := mem_append_left _ hdl
  let next : OperatorDownload := { dl with
    receivedBytes := dl.receivedBytes + bytes.length, receivedChunks := dl.receivedChunks + 1
    hashed := dl.hashed ++ bytes }
  have hat : (s.addChunk dl bytes).sinks = s.sinks.modify dl.sink fun k =>
    { k with pending := k.pending ++ bytes } := rfl
  -- Of what is held, the download has the bytes, and the others have other files.
  have hmem : ∀ d ∈ (s.addChunk dl bytes).held, d = next ∨ d ∈ s.held ∧
    partPath d.targetPath ≠ partPath dl.targetPath := by
    intro d hd
    obtain hd | hd := mem_append.mp hd
    · obtain ⟨other, hother, rfl⟩ := List.mem_map.mp hd
      split
      · exact .inl rfl
      · rename_i hid
        have hne : other ≠ dl := fun hsame => hid (congrArg OperatorDownload.id hsame)
        exact .inr ⟨mem_append_left _ hother, h.file_ne (mem_append_left _ hother) hheld hne⟩
    · exact .inr ⟨mem_append_right _ hd, h.cross hd hdl⟩
  have hsame : ∀ f : OperatorDownload → String, f next = f dl →
      (s.addChunk dl bytes).downloads.map f = s.downloads.map f := by
    intro f hf
    show (s.downloads.map _).map f = _
    rw [List.map_map]
    refine map_congr_left fun other hother => ?_
    show f (if other.id = dl.id then next else other) = f other
    split
    · rename_i hid
      rw [h.eq_of_id hother hdl hid]
      exact hf
    · rfl
  have htargets : (s.addChunk dl bytes).held.map (·.targetPath) = s.held.map (·.targetPath) := by
    unfold OperatorDownloads.held
    rw [map_append, map_append, hsame _ rfl]
    rfl
  have hpairs : ∀ R : String → String → Prop, (s.held.Pairwise fun d e => R d.targetPath e.targetPath) →
      (s.addChunk dl bytes).held.Pairwise fun d e => R d.targetPath e.targetPath := by
    intro R hR
    have hmapped : (s.held.map (·.targetPath)).Pairwise R := pairwise_map.mpr hR
    rw [← htargets] at hmapped
    exact pairwise_map.mp hmapped
  -- other part files mean other sinks
  have hsinkNe : ∀ d ∈ s.held, partPath d.targetPath ≠ partPath dl.targetPath → d.sink ≠ dl.sink := fun d hd hne =>
    h.owned.sink_ne (List.mem_map.mpr ⟨d, hd, rfl⟩) (List.mem_map.mpr ⟨dl, hheld, rfl⟩) hne
  have hsilent : ∀ sink, sink ≠ dl.sink → Silent [.takes dl.sink dl.receivedChunks bytes] sink := by
    intro sink hne
    refine ⟨rfl, ?_, rfl⟩
    simp [chunksOf, DownloadEvent.chunk, hne.symm]
  have hchunks : chunksOf dl.sink (es ++ [.takes dl.sink dl.receivedChunks bytes]) =
      chunksOf dl.sink es ++ [((dl.receivedChunks : ℤ), bytes)] := by
    rw [chunksOf_append]
    simp [chunksOf, DownloadEvent.chunk]
  have htold := h.told dl hheld
  have hbefore : ∀ d ∈ (s.addChunk dl bytes).downloads, ∃ before ∈ s.downloads, d.sink = before.sink := by
    intro d hd
    obtain ⟨before, hbefore, rfl⟩ := List.mem_map.mp hd
    split
    · exact ⟨dl, hdl, rfl⟩
    · exact ⟨before, hbefore, rfl⟩
  refine ⟨?_, ?_, ?_, ?_, ?_, ?_, ?_, ?_⟩
  · refine h.owned.give (List.mem_map.mpr ⟨dl, hheld, rfl⟩) bytes (fun k hk => (h.opened dl hdl k hk).2)
      ?_ fun o ho => ?_
    · have hfiles := pairwise_map.mp h.owned.apart
      exact pairwise_map.mpr (hpairs (fun x y => partPath x ≠ partPath y) hfiles)
    · obtain ⟨d, hd, rfl⟩ := List.mem_map.mp ho
      obtain rfl | ⟨hd, hne⟩ := hmem d hd
      · exact .inl rfl
      · exact .inr ⟨List.mem_map.mpr ⟨d, hd, rfl⟩, hne⟩
  · exact hpairs (fun x y => x ≠ partPath y ∧ y ≠ partPath x) h.apart
  · rw [hsame _ rfl]
    exact h.ids
  · intro d hd k hk
    obtain ⟨before, hmemBefore, hsink⟩ := hbefore d hd
    rw [hat, getElem?_modify, hsink] at hk
    obtain ⟨l, hl, hmade⟩ := map_eq_some_iff.mp hk
    obtain ⟨hclosing, hhandle⟩ := h.opened before hmemBefore l hl
    rw [← hmade]
    split
    · exact ⟨hclosing, hhandle⟩
    · exact ⟨hclosing, hhandle⟩
  · intro d hd
    obtain rfl | ⟨hd, hne⟩ := hmem d hd
    · obtain ⟨declared, hbegun, hsize⟩ := htold.begun
      refine ⟨⟨declared, ?_, hsize⟩, ?_, ?_, ?_⟩
      · rw [beginningOf_append, hbegun]
        rfl
      · rw [hchunks, map_append, htold.order, range_succ, map_append]
        rfl
      · rw [hchunks, map_append, flatten_append, htold.bytes]
        exact congrArg (dl.hashed ++ ·) (append_nil bytes)
      · show dl.receivedBytes + bytes.length = (dl.hashed ++ bytes).length
        rw [length_append, htold.count]
    · exact (h.told d hd).append (hsilent _ (hsinkNe d hd hne)).2.1
  · intro e he
    have hin : e.file ∈ s.endings.map (·.file) := List.mem_map.mpr ⟨e, he, rfl⟩
    have hne := hsinkNe e.file (mem_append_right _ hin) (h.cross hin hdl)
    refine (h.ended e he).append (h.told e.file (mem_append_right _ hin)) (hsilent _ hne) fun k hk _ => ?_
    rw [hat, getElem?_modify, hk]
    simp [hne.symm]
  · intro d hd
    obtain ⟨before, hmemBefore, hsink⟩ := hbefore d hd
    rw [endOf_append, hsink, h.unended before hmemBefore]
    rfl
  · intro sink hle
    rw [hat, length_modify] at hle
    have hlt := h.sink_lt hheld
    exact (h.fresh sink hle).append (hsilent sink (by omega))

/-- A download that has all its chunks goes over to its ending. -/
theorem Sound.finish (h : Sound w s es) (hdl : dl ∈ s.downloads) (checksum : Option String)
    (hwhole : dl.receivedChunks = dl.totalChunks)
    (hsize : ∀ id size totalChunks first, beginningOf dl.sink es = some (id, some size, totalChunks, first) →
      size ≤ 0 → (dl.receivedBytes : ℤ) = size)
    (hdownloads : t.downloads = s.downloads.filter (·.id ≠ dl.id))
    (hendings : t.endings = s.endings ++ [{ file := dl, checksum }])
    (hsinks : t.sinks = s.sinks.modify dl.sink fun k => { k with closing := true }) (hfiles : t.files = s.files) :
    Sound w t (es ++ [.ends dl.sink checksum]) := by
  have hheld : dl ∈ s.held := mem_append_left _ hdl
  have hmem : ∀ d ∈ t.held, d ∈ s.held := by
    intro d hd
    unfold OperatorDownloads.held at hd
    rw [hdownloads, hendings, map_append] at hd
    obtain hd | hd := mem_append.mp hd
    · exact mem_append_left _ (mem_of_mem_filter hd)
    · obtain hd | hd := mem_append.mp hd
      · exact mem_append_right _ hd
      · rw [mem_singleton.mp hd]
        exact hheld
  have hothers : ∀ d ∈ s.downloads.filter (·.id ≠ dl.id), d ≠ dl := by
    intro d hd hsame
    exact of_decide_eq_true (mem_filter.mp hd).2 (congrArg OperatorDownload.id hsame)
  have hperm : t.held.Perm (dl :: (s.downloads.filter (·.id ≠ dl.id) ++ s.endings.map (·.file))) := by
    unfold OperatorDownloads.held
    rw [hdownloads, hendings, map_append, ← append_assoc]
    exact perm_append_singleton ..
  have hpairs : ∀ R : OperatorDownload → OperatorDownload → Prop, (∀ d e, R d e → R e d) → s.held.Pairwise R →
      t.held.Pairwise R := by
    intro R hsymm hR
    have : Std.Symm R := ⟨hsymm⟩
    refine (hperm.pairwise_iff fun hr => hsymm _ _ hr).mpr (pairwise_cons.mpr ⟨fun d hd => ?_, ?_⟩)
    · obtain hd | hd := mem_append.mp hd
      · exact hR.forall hheld (mem_append_left _ (mem_of_mem_filter hd)) (hothers d hd).symm
      · exact (pairwise_append.mp hR).2.2 dl hdl d hd
    · exact hR.sublist (filter_sublist.append_right _)
  have hcores : t.sinks.map FileSink.core = s.sinks.map FileSink.core := by
    rw [hsinks]
    exact core_closeSink ({ sinks := s.sinks } : IncomingFiles String) (some dl.sink)
  have hat : ∀ j k, s.sinks[j]? = some k → j ≠ dl.sink → t.sinks[j]? = some k := by
    intro j k hk hne
    rw [hsinks, getElem?_modify, hk]
    simp [hne.symm]
  have hsinkNe : ∀ d ∈ s.held, partPath d.targetPath ≠ partPath dl.targetPath → d.sink ≠ dl.sink := fun d hd hne =>
    h.owned.sink_ne (List.mem_map.mpr ⟨d, hd, rfl⟩) (List.mem_map.mpr ⟨dl, hheld, rfl⟩) hne
  have hsilent : ∀ sink, sink ≠ dl.sink → Silent [.ends dl.sink checksum] sink := by
    intro sink hne
    refine ⟨rfl, rfl, ?_⟩
    simp [endOf, DownloadEvent.ending, hne.symm]
  refine ⟨?_, ?_, ?_, ?_, ?_, ?_, ?_, ?_⟩
  · have hfiles' := pairwise_map.mp h.owned.apart
    refine h.owned.of_subset (pairwise_map.mpr (hpairs (fun d e => d.owner.file ≠ e.owner.file)
      (fun _ _ hne => hne.symm) hfiles')) (fun o ho => ?_) hcores fun o _ => by rw [hfiles]
    obtain ⟨d, hd, rfl⟩ := List.mem_map.mp ho
    exact List.mem_map.mpr ⟨d, hmem d hd, rfl⟩
  · exact hpairs Apart (fun _ _ hapart => ⟨hapart.2, hapart.1⟩) h.apart
  · rw [hdownloads]
    exact h.ids.sublist (filter_sublist.map _)
  · intro d hd k hk
    rw [hdownloads] at hd
    have hbefore := mem_of_mem_filter hd
    have hne := hsinkNe d (mem_append_left _ hbefore)
      (h.file_ne (mem_append_left _ hbefore) hheld (hothers d hd))
    rw [hsinks, getElem?_modify] at hk
    obtain ⟨l, hl, hmade⟩ := map_eq_some_iff.mp hk
    rw [if_neg hne.symm] at hmade
    exact h.opened d hbefore k (hmade ▸ hl)
  · exact fun d hd => (h.told d (hmem d hd)).append rfl
  · intro e he
    rw [hendings] at he
    obtain he | he := mem_append.mp he
    · have hin : e.file ∈ s.endings.map (·.file) := List.mem_map.mpr ⟨e, he, rfl⟩
      have hne := hsinkNe e.file (mem_append_right _ hin) (h.cross hin hdl)
      exact (h.ended e he).append (h.told e.file (mem_append_right _ hin)) (hsilent _ hne) fun k hk _ =>
        hat _ k hk hne
    · rw [mem_singleton.mp he]
      have hfirst : endOf dl.sink es = none := h.unended dl hdl
      refine ⟨?_, hwhole, ?_, nofun⟩
      · rw [endOf_append, hfirst]
        simp [endOf, DownloadEvent.ending]
      · rw [beginningOf_append]
        exact fun id size totalChunks first hbegin => hsize id size totalChunks first ((or_none ▸ hbegin :))
  · intro d hd
    rw [hdownloads] at hd
    have hbefore := mem_of_mem_filter hd
    have hne := hsinkNe d (mem_append_left _ hbefore)
      (h.file_ne (mem_append_left _ hbefore) hheld (hothers d hd))
    rw [endOf_append, h.unended d hbefore, (hsilent _ hne).2.2]
    rfl
  · intro sink hle
    rw [hsinks, length_modify] at hle
    have hlt := h.sink_lt hheld
    exact (h.fresh sink hle).append (hsilent sink (by omega))

theorem Sound.erased (h : Sound w s es) {k : ℕ} {call : EndCall} (hk : s.endings[k]? = some call)
    (hd : d ∈ s.downloads ++ (s.endings.eraseIdx k).map (·.file)) :
    partPath d.targetPath ≠ partPath call.file.targetPath ∧ Apart call.file d := by
  obtain ⟨hlt, rfl⟩ := List.getElem?_eq_some_iff.mp hk
  have hends : (s.endings[k] :: s.endings.eraseIdx k).Perm s.endings := getElem_cons_eraseIdx_perm hlt
  have hperm : (s.endings[k].file :: (s.downloads ++ (s.endings.eraseIdx k).map (·.file))).Perm s.held :=
    perm_middle.symm.trans ((hends.map EndCall.file).append_left s.downloads)
  have hfiles := pairwise_map.mp h.owned.apart
  have hapart := (hperm.pairwise_iff fun hr => ⟨hr.2, hr.1⟩).mpr h.apart
  have hne := (hperm.pairwise_iff fun hr => hr.symm).mpr hfiles
  exact ⟨((pairwise_cons.mp hne).1 d hd).symm, (pairwise_cons.mp hapart).1 d hd⟩

theorem Sound.refuse (h : Sound w s es) {k : ℕ} {call : EndCall} (hk : s.endings[k]? = some call)
    (deletes : Bool) : Sound w (s.refuse k call deletes).1 (es ++ (s.refuse k call deletes).2) := by
  refine h.less (List.Sublist.refl _) (eraseIdx_sublist _ _) rfl (fun d hd => ?_) (silent_sends _)
  have hne := (h.erased hk hd).1
  show (s.files.delete (partPath call.file.targetPath) deletes).part _ = _
  unfold Files.delete
  split
  · exact Function.update_of_ne hne _ _
  · rfl

theorem Sound.compares (h : Sound w s es) {sink : FileSink String} (hk : s.endings[k]? = some call)
    (hsink : s.sinks[call.file.sink]? = some sink) (deletes : Bool) :
    Sound w (s.compare w k call sink deletes).1 (es ++ (s.compare w k call sink deletes).2) := by
  unfold OperatorDownloads.compare
  split
  · rename_i hboth
    obtain ⟨hclosed, hwhole⟩ := hboth
    have hfiles : (s.endings.set k { call with wait := .renaming }).map (·.file) = s.endings.map (·.file) := by
      rw [map_set]
      refine ext_getElem? fun i => ?_
      rw [getElem?_set]
      split
      · rename_i hi
        obtain ⟨hlt, heq⟩ := List.getElem?_eq_some_iff.mp hk
        rw [length_map, if_pos (hi ▸ hlt), ← hi, getElem?_map, hk]
        rfl
      · rfl
    generalize ht : ({ s with endings := s.endings.set k { call with wait := .renaming } } : OperatorDownloads) = t
    have hheld : t.held = s.held := by
      rw [← ht]
      exact congrArg (s.downloads ++ ·) hfiles
    have hdownloads : t.downloads = s.downloads := by rw [← ht]
    have hsinks : t.sinks = s.sinks := by rw [← ht]
    have hparts : t.files = s.files := by rw [← ht]
    rw [append_nil]
    refine ⟨?_, hheld ▸ h.apart, hdownloads ▸ h.ids, ?_, hheld ▸ h.told, ?_, hdownloads ▸ h.unended,
      hsinks ▸ h.fresh⟩
    · rw [hheld, hsinks, hparts]
      exact h.owned
    · rw [hdownloads, hsinks]
      exact h.opened
    · intro e he
      rw [← ht] at he
      rw [hsinks]
      obtain he | he := mem_or_eq_of_mem_set he
      · exact h.ended e he
      · rw [he]
        have hbefore := h.ended call (mem_of_getElem? hk)
        exact ⟨hbefore.last, hbefore.whole, hbefore.size, fun _ => ⟨hwhole, sink, hsink, hclosed⟩⟩
  · exact h.refuse hk deletes

theorem Sound.renames (h : Sound w s es) (hk : s.endings[k]? = some call) (ok deletes : Bool) :
    Sound w (s.renames k call ok deletes).1 (es ++ (s.renames k call ok deletes).2) := by
  unfold OperatorDownloads.renames
  dsimp only
  split
  · split
    · refine h.less (List.Sublist.refl _) (eraseIdx_sublist _ _) rfl (fun d hd => ?_) (silent_saves _ _ _ _)
      obtain ⟨hne, htarget, -⟩ := h.erased hk hd
      show Function.update (Function.update _ _ _) _ _ _ = _
      rw [Function.update_of_ne htarget.symm, Function.update_of_ne hne]
    · exact h.refuse hk deletes
  · exact h.refuse hk deletes

theorem Sound.starts (h : Sound w s es) (input : Json) (dirPath : String) :
    Sound w (s.handleFileStart w input dirPath).1 (es ++ (s.handleFileStart w input dirPath).2) := by
  have hsame : ∀ calls : List StartCall, Sound w { s with starts := calls } (es ++ []) := fun calls =>
    h.less (List.Sublist.refl _) (List.Sublist.refl _) rfl (fun _ _ => rfl) silent_nil
  unfold OperatorDownloads.handleFileStart
  dsimp only
  split
  · split
    · exact hsame s.starts
    · exact hsame _
  · exact hsame s.starts

/-- The sizes of the calls that wait are those that were announced. -/
def SizesAnnounced (s : OperatorDownloads) : Prop := ∀ call ∈ s.starts, call.totalSize = call.declared.getD 0

theorem Sound.registers (h : Sound w s es) {call : StartCall} (hk : s.starts[k]? = some call)
    (hsizes : SizesAnnounced s) (ok : Bool) (hmeets : s.MeetsDownload w es (.startGoesOn k ok)) :
    Sound w (s.register w k call ok).1 (es ++ (s.register w k call ok).2) := by
  have hsame : Sound w { s with starts := s.starts.eraseIdx k } (es ++ []) :=
    h.less (List.Sublist.refl _) (List.Sublist.refl _) rfl (fun _ _ => rfl) silent_nil
  unfold OperatorDownloads.register
  split
  · rename_i hok
    split
    · rename_i path hpath
      have hfree := hmeets hok call path hk hpath
      exact h.add hfree rfl (hsizes call (mem_of_getElem? hk)) rfl rfl rfl rfl
    · exact hsame
  · exact hsame

theorem Sound.chunks (h : Sound w s es) (input : Json) (dirPath : String)
    (htype : hasType input ["file_chunk"] = true) (hmeets : s.MeetsDownload w es (.message input dirPath)) :
    Sound w (s.handleFileChunk w input).1 (es ++ (s.handleFileChunk w input).2) := by
  have hsame : Sound w s (es ++ []) :=
    h.less (List.Sublist.refl _) (List.Sublist.refl _) rfl (fun _ _ => rfl) silent_nil
  unfold OperatorDownloads.handleFileChunk
  dsimp only
  split
  · rename_i dl hfind
    split
    · exact hsame
    · split
      · rename_i bytes hbytes
        obtain ⟨hindex, -⟩ := hmeets.1 htype dl bytes hfind hbytes
        rw [hindex]
        exact h.give (mem_of_find?_eq_some hfind) bytes
      · exact hsame
  · exact hsame

theorem Sound.finishes (h : Sound w s es) (input : Json) (dirPath : String)
    (htype : hasType input ["file_end"] = true) (hmeets : s.MeetsDownload w es (.message input dirPath)) :
    Sound w (s.handleFileEnd w input).1 (es ++ (s.handleFileEnd w input).2) := by
  unfold OperatorDownloads.handleFileEnd
  dsimp only
  split
  · exact h.less (List.Sublist.refl _) (List.Sublist.refl _) rfl (fun _ _ => rfl) silent_nil
  · rename_i dl hfind
    have hfound := find?_some hfind
    have hid : dl.id = transferId w.doubleText input := of_decide_eq_true hfound
    obtain ⟨hwhole, hsize⟩ := hmeets.2 htype dl hfind
    exact h.finish (mem_of_find?_eq_some hfind) _ hwhole hsize (by rw [hid]) rfl rfl rfl

theorem sound_of_step (h : Sound w s es) (hsizes : SizesAnnounced s) (hmeets : s.MeetsDownload w es a)
    (hstep : s.step w a = some (t, fs)) : Sound w t (es ++ fs) := by
  cases a with
  | message input dirPath =>
    refine rel_of_step (fun u gs => Sound w u (es ++ gs)) hstep ?_
    unfold OperatorDownloads.handleMessage
    split
    · exact h.starts input dirPath
    · split
      · rename_i htype
        exact h.chunks input dirPath htype hmeets
      · split
        · rename_i htype
          exact h.finishes input dirPath htype hmeets
        · exact h.less (List.Sublist.refl _) (List.Sublist.refl _) rfl (fun _ _ => rfl) silent_nil
  | startGoesOn _ ok =>
    obtain ⟨call, hk, heq⟩ := map_eq_some_iff.mp hstep
    have hnext := h.registers hk hsizes ok hmeets
    rw [heq] at hnext
    exact hnext
  | sinkOpens | sinkWrites | sinkCloses =>
    obtain ⟨_, _, _, _, heq, hmoves, -⟩ := sinkFile_turns rfl hstep
    cases heq
    exact h.moves hmoves rfl rfl
  | endGoesOn _ deletes =>
    obtain ⟨call, hk, hstep⟩ := bind_eq_some_iff.mp hstep
    obtain ⟨sink, hsink, hstep⟩ := bind_eq_some_iff.mp hstep
    obtain ⟨-, heq⟩ := ite_none_right_eq_some.mp hstep
    have hnext := h.compares hk hsink deletes
    rw [Option.some.inj heq] at hnext
    exact hnext
  | endRenames _ ok deletes =>
    obtain ⟨call, hk, hstep⟩ := bind_eq_some_iff.mp hstep
    obtain ⟨-, heq⟩ := ite_none_right_eq_some.mp hstep
    have hnext := h.renames hk ok deletes
    rw [Option.some.inj heq] at hnext
    exact hnext

/-! ## The sizes -/

theorem truncatedOr_absent {input : Json} {name : String} (h : input.getPresent name = none) :
    truncatedOr input name 0 = some 0 := by
  have hnull : valueOf input name = .null := by
    unfold valueOf
    unfold Json.getPresent at h
    split at h
    · rename_i hget
      rw [hget]
      rfl
    · rw [h]
      rfl
  unfold truncatedOr numOr
  rw [hnull]
  rfl

theorem sizes_of_step (h : SizesAnnounced s) (hstep : s.step w a = some (t, fs)) : SizesAnnounced t := by
  have hsame : ∀ u : OperatorDownloads, u.starts = s.starts → SizesAnnounced u := by
    intro u hu call hcall
    exact h call (hu ▸ hcall)
  cases a with
  | message input dirPath =>
    refine prop_of_step SizesAnnounced hstep ?_
    unfold OperatorDownloads.handleMessage
    split
    · unfold OperatorDownloads.handleFileStart
      dsimp only
      split
      · rename_i totalSize totalChunks hsize _
        split
        · exact h
        · intro call hcall
          obtain hcall | hcall := mem_append.mp hcall
          · exact h call hcall
          · rw [mem_singleton.mp hcall]
            cases hget : input.getPresent "size" with
            | none =>
              rw [truncatedOr_absent hget] at hsize
              exact (Option.some.inj hsize).symm
            | some => rfl
      · exact h
    · split
      · refine hsame _ ?_
        unfold OperatorDownloads.handleFileChunk
        dsimp only
        split
        · split
          · rfl
          · split <;> rfl
        · rfl
      · split
        · refine hsame _ ?_
          unfold OperatorDownloads.handleFileEnd
          dsimp only
          split <;> rfl
        · exact h
  | startGoesOn k ok =>
    obtain ⟨call, hk, heq⟩ := map_eq_some_iff.mp hstep
    have ht : t = (s.register w k call ok).1 := (congrArg Prod.fst heq).symm
    have hfewer : t.starts = s.starts.eraseIdx k := by
      rw [ht]
      unfold OperatorDownloads.register
      split
      · split <;> rfl
      · rfl
    intro other hother
    rw [hfewer] at hother
    exact h other ((eraseIdx_sublist _ _).subset hother)
  | sinkOpens | sinkWrites | sinkCloses =>
    obtain ⟨_, _, _, _, heq, -⟩ := sinkFile_turns rfl hstep
    cases heq
    exact hsame _ rfl
  | endGoesOn k deletes =>
    obtain ⟨call, hk, hstep⟩ := bind_eq_some_iff.mp hstep
    obtain ⟨sink, hsink, hstep⟩ := bind_eq_some_iff.mp hstep
    obtain ⟨-, heq⟩ := ite_none_right_eq_some.mp hstep
    have ht : t = (s.compare w k call sink deletes).1 := (congrArg Prod.fst (Option.some.inj heq)).symm
    refine hsame _ ?_
    rw [ht]
    unfold OperatorDownloads.compare
    split <;> rfl
  | endRenames k ok deletes =>
    obtain ⟨call, hk, hstep⟩ := bind_eq_some_iff.mp hstep
    obtain ⟨-, heq⟩ := ite_none_right_eq_some.mp hstep
    have ht : t = (s.renames k call ok deletes).1 := (congrArg Prod.fst (Option.some.inj heq)).symm
    refine hsame _ ?_
    rw [ht]
    unfold OperatorDownloads.renames
    dsimp only
    split
    · split <;> rfl
    · rfl

/-! ## The ok -/

/-- Only a successful rename acknowledges a download. -/
theorem renames_of_ok {id : String} (hstep : s.step w a = some (t, fs))
    (hok : .sends (fileAck id true) ∈ fs) : ∃ k deletes call content, a = .endRenames k true deletes ∧
      s.endings[k]? = some call ∧ call.wait = .renaming ∧ call.file.id = id ∧
        (s.files.part (partPath call.file.targetPath)).content = some content ∧
          .saves call.file.sink call.file.targetPath content ∈ fs := by
  have hrefuse : ∀ (k : ℕ) (call : EndCall) (deletes : Bool),
    .sends (fileAck id true) ∉ (s.refuse k call deletes).2 := by
    intro k call deletes hmem
    have hsame := DownloadEvent.sends.inj (mem_singleton.mp hmem)
    exact absurd (fileAck_ok_inj hsame).2 (by simp)
  cases a with
  | message input dirPath =>
    have hnone : .sends (fileAck id true) ∉ (s.handleMessage w input dirPath).2 := by
      unfold OperatorDownloads.handleMessage
      split
      · unfold OperatorDownloads.handleFileStart
        dsimp only
        split
        · split <;> exact not_mem_nil
        · exact not_mem_nil
      · split
        · unfold OperatorDownloads.handleFileChunk
          dsimp only
          split
          · split
            · exact not_mem_nil
            · split
              · simp
              · exact not_mem_nil
          · exact not_mem_nil
        · split
          · unfold OperatorDownloads.handleFileEnd
            dsimp only
            split
            · exact not_mem_nil
            · simp
          · exact not_mem_nil
    have heq : s.handleMessage w input dirPath = (t, fs) := Option.some.inj hstep
    rw [heq] at hnone
    exact absurd hok hnone
  | startGoesOn k ok =>
    obtain ⟨call, hk, heq⟩ := map_eq_some_iff.mp hstep
    have hnone : .sends (fileAck id true) ∉ (s.register w k call ok).2 := by
      unfold OperatorDownloads.register
      split
      · split
        · simp
        · exact not_mem_nil
      · exact not_mem_nil
    rw [heq] at hnone
    exact absurd hok hnone
  | sinkOpens | sinkWrites | sinkCloses =>
    obtain ⟨_, _, _, _, heq, -⟩ := sinkFile_turns rfl hstep
    cases heq
    cases hok
  | endGoesOn k deletes =>
    obtain ⟨call, hk, hstep⟩ := bind_eq_some_iff.mp hstep
    obtain ⟨sink, hsink, hstep⟩ := bind_eq_some_iff.mp hstep
    obtain ⟨-, heq⟩ := ite_none_right_eq_some.mp hstep
    have hnone : .sends (fileAck id true) ∉ (s.compare w k call sink deletes).2 := by
      unfold OperatorDownloads.compare
      split
      · exact not_mem_nil
      · exact hrefuse k call deletes
    rw [Option.some.inj heq] at hnone
    exact absurd hok hnone
  | endRenames k ok deletes =>
    obtain ⟨call, hk, hstep⟩ := bind_eq_some_iff.mp hstep
    obtain ⟨hwait, heq⟩ := ite_none_right_eq_some.mp hstep
    have hfs : fs = (s.renames k call ok deletes).2 := (congrArg Prod.snd (Option.some.inj heq)).symm
    unfold OperatorDownloads.renames at hfs
    dsimp only at hfs
    rw [hfs] at hok
    split at hok
    · rename_i content hcontent
      split at hok
      · rename_i hyes
        obtain hok | hok := mem_cons.mp hok
        · simp at hok
        · have hid := (fileAck_ok_inj (DownloadEvent.sends.inj (mem_singleton.mp hok))).1
          refine ⟨k, deletes, call, content, hyes ▸ rfl, hk, hwait, hid.symm, hcontent, ?_⟩
          rw [hfs, hcontent]
          dsimp only
          rw [if_pos hyes]
          exact mem_cons_self
      · exact absurd hok (hrefuse k call deletes)
    · exact absurd hok (hrefuse k call deletes)

theorem Sound.exact (h : Sound w s es) (a : DownloadAction) : AckIsExact w s es a := by
  intro t fs hstep id hok
  obtain ⟨k, deletes, call, content, rfl, hk, hwait, rfl, hcontent, hsaves⟩ := renames_of_ok hstep hok
  have hheld : call.file ∈ s.held := mem_append_right _ (List.mem_map.mpr ⟨call, mem_of_getElem? hk, rfl⟩)
  have hended := h.ended call (mem_of_getElem? hk)
  obtain ⟨hwhole, sink, hsink, hclosed⟩ := hended.compared hwait
  have htold := h.told call.file hheld
  have hhashed : content = call.file.hashed := by
    obtain ⟨other, hat, hfile, hhas⟩ := h.owned.own call.file.owner (List.mem_map.mpr ⟨call.file, hheld, rfl⟩)
    cases hsink.symm.trans hat
    unfold FileSink.Has at hhas
    rw [hclosed] at hhas
    have hpart : (s.files.part sink.file).content = some call.file.hashed := hhas
    rw [show sink.file = partPath call.file.targetPath from hfile, hcontent] at hpart
    exact Option.some.inj hpart
  obtain ⟨declared, hbegun, htotal⟩ := htold.begun
  obtain ⟨hchecksum, hsize⟩ := (and_eq_true ..).mp hwhole
  refine ⟨call.file.sink, _, content, hsaves, declared, _, _, _, hbegun, hended.last, ?_, ?_, ?_, ?_⟩
  · rw [← hended.whole]
    exact htold.order
  · rw [htold.bytes]
    exact hhashed
  · intro size hdeclared
    rw [hhashed, ← htold.count]
    by_cases hle : size ≤ 0
    · exact hended.size _ size _ _ (hdeclared ▸ hbegun) hle
    · rw [hdeclared] at htotal
      have hpositive : call.file.totalSize = size := htotal
      obtain hno | hyes := (or_eq_true ..).mp hsize
      · have hle := of_decide_eq_true hno
        omega
      · exact (of_decide_eq_true hyes).trans hpositive
  · intro checksum hannounced hne
    have hexpected : call.expectedChecksum = some checksum := hannounced
    rw [hexpected, all_some] at hchecksum
    obtain hempty | hequal := (or_eq_true ..).mp hchecksum
    · exact absurd (of_decide_eq_true hempty) hne
    · rw [hhashed]
      exact of_decide_eq_true hequal

/-- An operator that receives nothing, whatever files there are. -/
def OperatorDownloads.fresh (files : Files) : OperatorDownloads := { files }

theorem sound_fresh (w : OperatorWorld) (files : Files) : Sound w (.fresh files) [] := by
  refine ⟨⟨List.Pairwise.nil, nofun, nofun⟩, List.Pairwise.nil, nodup_nil, nofun, nofun, nofun, nofun, ?_⟩
  exact fun sink _ => silent_nil sink

/-- In every run in which the downloads have their files to themselves, and their chunks come in order and are
all there at the end, every ok is for an exact file. -/
theorem acks_exact_of_meets (w : OperatorWorld) (files : Files) (as : List DownloadAction)
    (hmeets : (incomingDownloads w).Every (OperatorDownloads.MeetsDownload w) (.fresh files) [] as) :
    (incomingDownloads w).Every (AckIsExact w) (.fresh files) [] as := by
  refine Machine.Every.imp (fun s es => Sound w s es ∧ SizesAnnounced s) (fun s es a t fs hboth hgood hstep => ?_)
    (fun s es a hboth _ => hboth.1.exact a) as ⟨sound_fresh w files, nofun⟩ hmeets
  exact ⟨sound_of_step hboth.1 hboth.2 hgood hstep, sizes_of_step hboth.2 hstep⟩

end LigamentApps.SupportOperator
