import LigamentApps.LinkHost.ExactFiles

/-!
# The files that are answered with ok

When the file that the host saves and acknowledges is the chunks of its transfer. `_handleFileEnd` looks for a
path for the part file, renames it to that, which replaces what is there, and answers after a further wait.
Paths are the file system's, which may take two names for one; that nobody else writes to them is taken for
granted. -/

namespace LigamentApps.LinkHost

open LinkHostRecorder SupportService List Option Bool

variable {F P : Type} [DecidableEq F] [DecidableEq P] {id : String} {a : FileAction}

/-- The session, with the paths of the files that it saves, and the oks that are due. -/
structure SavedFiles (F P : Type) where
  host : IncomingFiles F := {}
  /-- `targetPath` of a download, by its number. -/
  targets : ℕ → Option P := fun _ => none
  files : P → Option (List UInt8) := fun _ => none
  /-- What waits for `Zone.Identifier`: the ids and numbers of downloads. -/
  answers : List (String × ℕ) := []

/-- The part file of a download is renamed. -/
def FileAction.renames : FileAction → Bool
  | .endSaves _ ok _ => ok
  | _ => false

inductive SaveAction (P : Type)
  | host (a : FileAction)
  /-- `resolveNonCollidingFilePath` finds a path at which there is nothing. -/
  | resolves (ending : ℕ) (path : P)
  | renames (ending : ℕ)
  | answers (index : ℕ)

namespace SavedFiles

variable (w : FileWorld F) (s : SavedFiles F P)

/-- The part file of a download, if it is there, is at its path, and the ok is due. -/
def rename (ending : FileEnding) (path : P) (host : IncomingFiles F) : SavedFiles F P × List TransferEvent :=
  let saved := (s.host.parts (w.partFile ending.file.id)).content
  ({ s with
      host
      files := saved.elim s.files fun content => Function.update s.files path (some content)
      answers := s.answers ++ [(ending.file.id, ending.file.serial)] },
    (saved.map (TransferEvent.saves ending.file.serial)).toList)

def step : SaveAction P → Option (SavedFiles F P × List TransferEvent)
  | .host a => if a.renames then none else (s.host.step w a).map fun r => ({ s with host := r.1 }, r.2)
  | .resolves k path => do
    let ending ← s.host.endings[k]?
    if ending.pc = .saving ∧ s.targets ending.file.serial = none ∧ s.files path = none then
      some ({ s with targets := Function.update s.targets ending.file.serial (some path) }, [])
    else none
  | .renames k => do
    let ending ← s.host.endings[k]?
    let path ← s.targets ending.file.serial
    let r ← s.host.step w (.endSaves k true false)
    some (s.rename w ending path r.1)
  | .answers n => do
    let answer ← s.answers[n]?
    some ({ s with answers := s.answers.eraseIdx n }, s.host.sendControlJson (fileAck answer.1 true))

end SavedFiles

def savedFiles (w : FileWorld F) : Machine (SavedFiles F P) (SaveAction P) TransferEvent := ⟨SavedFiles.step w⟩

/-- The file at the path of a download with the id is what the download was when it was saved, and that was
exact. -/
def SavedFiles.Saved (s : SavedFiles F P) (es : List TransferEvent) (id : String) (serial : ℕ) : Prop :=
  ∃ path content before after, s.targets serial = some path ∧ s.files path = some content ∧
    es = before ++ .saves serial content :: after ∧ ExactContent before serial id content

/-- Every ok is for a file that is saved, and exact. -/
def OkIsExact (w : FileWorld F) (s : SavedFiles F P) (es : List TransferEvent) (a : SaveAction P) : Prop :=
  ∀ t fs, s.step w a = some (t, fs) → ∀ id, .sends (fileAck id true) ∈ fs → ∃ serial, s.Saved es id serial

/-- Its part files are exact when they are saved, and there is nothing at the path to which one is renamed. -/
def SavedFiles.MeetsTransfer (w : FileWorld F) (s : SavedFiles F P) (es : List TransferEvent) : SaveAction P → Prop
  | .host a => s.host.MeetsTransfer w es a
  | .renames k => s.host.MeetsTransfer w es (.endSaves k true false) ∧
    ∀ ending path, s.host.endings[k]? = some ending → s.targets ending.file.serial = some path → s.files path = none
  | _ => True

/-- The invariant: the part files are kept, and what is to be answered with ok is saved. -/
structure SavedKept (w : FileWorld F) (s : SavedFiles F P) (es : List TransferEvent) : Prop where
  host : Kept w s.host es
  saved : ∀ answer ∈ s.answers, s.Saved es answer.1 answer.2

section Oks

variable {w : FileWorld F} {s t : IncomingFiles F} {dl : IncomingFile} {fs : List TransferEvent}

theorem fileAck_ne_fileReject (id : String) (ok : Bool) (other filename reason : String) :
    fileAck id ok ≠ fileReject other filename reason := by
  unfold fileAck fileReject
  simp

omit [DecidableEq F] in
theorem sends_of_sendControlJson {message other : Json} (h : .sends other ∈ s.sendControlJson message) :
    other = message := by
  unfold IncomingFiles.sendControlJson at h
  split at h
  · cases h
  · exact TransferEvent.sends.inj (mem_singleton.mp h)

omit [DecidableEq F] in
theorem no_ok_of_refusal {id other : String} :
    .sends (fileAck id true) ∉ s.sendControlJson (fileAck other false) := by
  intro h
  exact absurd (fileAck_ok_inj (sends_of_sendControlJson h)).2 (by simp)

theorem no_ok_of_giveUp {deletes : Bool} : .sends (fileAck id true) ∉ (s.giveUp w dl deletes).2 :=
  no_ok_of_refusal

theorem no_ok_of_compare {k : ℕ} {ending : FileEnding} {deletes : Bool} :
    .sends (fileAck id true) ∉ (s.compare w k ending deletes).2 := by
  intro h
  unfold IncomingFiles.compare at h
  dsimp only at h
  split at h
  · obtain h | h := mem_append.mp h
    · exact no_ok_of_refusal h
    · exact fileAck_ne_fileReject _ _ _ _ _ (sends_of_sendControlJson h)
  · cases h

theorem no_ok_of_handleMessage {input : Json} {throws deletes : Bool} :
    .sends (fileAck id true) ∉ (s.handleMessage w input throws deletes).2 := by
  have hstart : .sends (fileAck id true) ∉ (s.handleFileStart w input throws).2 := by
    intro h
    unfold IncomingFiles.handleFileStart at h
    dsimp only at h
    split at h
    · cases h
    · split at h
      · split at h
        · exact no_ok_of_refusal h
        · exact absurd (mem_singleton.mp h) (by simp)
      · cases h
  have hchunk : .sends (fileAck id true) ∉ (s.handleFileChunk w input deletes).2 := by
    intro h
    unfold IncomingFiles.handleFileChunk at h
    dsimp only at h
    split at h
    · split at h
      · cases h
      · split at h
        · exact no_ok_of_giveUp h
        · split at h
          · cases h
          · split at h
            · exact no_ok_of_giveUp h
            · exact absurd (mem_singleton.mp h) (by simp)
    · cases h
  have hend : .sends (fileAck id true) ∉ (s.handleFileEnd w input).2 := by
    intro h
    unfold IncomingFiles.handleFileEnd at h
    dsimp only at h
    split at h
    · cases h
    · cases h
  unfold IncomingFiles.handleMessage
  split
  · exact not_mem_nil
  · split
    · exact hstart
    · split
      · exact hchunk
      · split
        · exact hend
        · exact not_mem_nil

theorem no_ok_of_step (hstep : s.step w a = some (t, fs)) (hrenames : a.renames = false) :
    .sends (fileAck id true) ∉ fs := by
  intro hok
  cases a with
  | message input throws deletes =>
    have heq : s.handleMessage w input throws deletes = (t, fs) := Option.some.inj hstep
    have hhandles : .sends (fileAck id true) ∈ (s.handleMessage w input throws deletes).2 := by
      rw [heq]
      exact hok
    exact absurd hhandles no_ok_of_handleMessage
  | stalls _ deletes =>
    obtain ⟨dl, -, heq⟩ := map_eq_some_iff.mp hstep
    have hgives : .sends (fileAck id true) ∈ (s.giveUp w dl deletes).2 := by
      rw [heq]
      exact hok
    exact absurd hgives no_ok_of_giveUp
  | sinkOpens | sinkWrites | sinkCloses =>
    obtain ⟨_, _, _, _, heq, -⟩ := sink_turns rfl hstep
    cases heq
    cases hok
  | endGoesOn k deletes =>
    obtain ⟨ending, -, hstep⟩ := bind_eq_some_iff.mp hstep
    obtain ⟨-, heq⟩ := ite_none_right_eq_some.mp hstep
    have hcompares : .sends (fileAck id true) ∈ (s.compare w k ending deletes).2 := by
      rw [Option.some.inj heq]
      exact hok
    exact absurd hcompares no_ok_of_compare
  | endSaves k ok deletes =>
    obtain ⟨ending, -, hstep⟩ := bind_eq_some_iff.mp hstep
    obtain ⟨-, heq⟩ := ite_none_right_eq_some.mp hstep
    obtain rfl : ok = false := hrenames
    have hsaves : .sends (fileAck id true) ∈ (s.save w k ending false deletes).2 := by
      rw [Option.some.inj heq]
      exact hok
    exact absurd hsaves no_ok_of_refusal
  | sessionCloses =>
    cases hstep
    cases hok

end Oks

variable {w : FileWorld F} {s t : SavedFiles F P} {es fs : List TransferEvent}

namespace SavedKept

omit [DecidableEq F] [DecidableEq P] in
theorem more {u : SavedFiles F P} {serial : ℕ} (h : s.Saved es id serial) (fs : List TransferEvent)
    (htargets : ∀ path, s.targets serial = some path → u.targets serial = some path)
    (hfiles : ∀ path content, s.files path = some content → u.files path = some content) :
    u.Saved (es ++ fs) id serial := by
  obtain ⟨path, content, before, after, htarget, hfile, rfl, hexact⟩ := h
  refine ⟨path, content, before, after ++ fs, htargets path htarget, hfiles path content hfile, ?_, hexact⟩
  rw [append_assoc, cons_append]

theorem rename (h : SavedKept w s es) {k : ℕ} {ending : FileEnding} {path : P}
    {r : IncomingFiles F × List TransferEvent}
    (hk : s.host.endings[k]? = some ending) (hpath : s.targets ending.file.serial = some path)
    (hr : s.host.step w (.endSaves k true false) = some r) (hmeets : s.MeetsTransfer w es (.renames k)) :
    SavedKept w (s.rename w ending path r.1).1 (es ++ (s.rename w ending path r.1).2) := by
  obtain ⟨hhost, hfree⟩ := hmeets
  have hnothing := hfree ending path hk hpath
  obtain ⟨ending', hk', hr⟩ := bind_eq_some_iff.mp hr
  cases hk.symm.trans hk'
  obtain ⟨hpc, hr⟩ := ite_none_right_eq_some.mp hr
  obtain ⟨hcontent, hexact⟩ := h.host.saved hk hpc hhost
  obtain rfl := Option.some.inj hr
  unfold SavedFiles.rename
  dsimp only
  rw [hcontent]
  refine ⟨kept_save h.host hk true false fun _ => ⟨rfl, rfl⟩, fun answer hanswer => ?_⟩
  obtain hold | hnew := mem_append.mp hanswer
  · -- What was saved before is at another path, as there is nothing at this one.
    refine more (h.saved answer hold) _ (fun _ => id) fun other content hother => ?_
    have hne : other ≠ path := by
      rintro rfl
      cases hnothing.symm.trans hother
    exact (Function.update_of_ne hne _ _).trans hother
  · rw [mem_singleton.mp hnew]
    exact ⟨path, _, es, [], hpath, Function.update_self .., rfl, hexact⟩

theorem step {a : SaveAction P} (h : SavedKept w s es) (hmeets : s.MeetsTransfer w es a)
    (hstep : s.step w a = some (t, fs)) : SavedKept w t (es ++ fs) := by
  cases a with
  | host a =>
    unfold SavedFiles.step at hstep
    obtain ⟨-, hstep⟩ := ite_none_left_eq_some.mp hstep
    obtain ⟨r, hr, heq⟩ := map_eq_some_iff.mp hstep
    cases heq
    exact ⟨kept_of_step h.host hmeets hr, fun answer hanswer =>
      more (h.saved answer hanswer) _ (fun _ => id) fun _ _ => id⟩
  | resolves k path =>
    obtain ⟨ending, -, hstep⟩ := bind_eq_some_iff.mp hstep
    obtain ⟨⟨-, hnone, -⟩, heq⟩ := ite_none_right_eq_some.mp hstep
    cases heq
    refine ⟨h.host.answers fun _ => ⟨rfl, rfl⟩, fun answer hanswer =>
      more (h.saved answer hanswer) _ (fun other hother => ?_) fun _ _ => id⟩
    have hne : answer.2 ≠ ending.file.serial := by
      intro heq
      rw [heq] at hother
      cases hnone.symm.trans hother
    exact (Function.update_of_ne hne _ _).trans hother
  | renames k =>
    obtain ⟨ending, hk, hstep⟩ := bind_eq_some_iff.mp hstep
    obtain ⟨path, hpath, hstep⟩ := bind_eq_some_iff.mp hstep
    obtain ⟨r, hr, heq⟩ := bind_eq_some_iff.mp hstep
    have hkept := h.rename hk hpath hr hmeets
    rw [Option.some.inj heq] at hkept
    exact hkept
  | answers n =>
    obtain ⟨answer, -, heq⟩ := bind_eq_some_iff.mp hstep
    cases heq
    exact ⟨h.host.answers (silent_sendControlJson _ _), fun answer hanswer =>
      more (h.saved answer (mem_of_mem_eraseIdx hanswer)) _ (fun _ => id) fun _ _ => id⟩

theorem exact {a : SaveAction P} (h : SavedKept w s es) : OkIsExact w s es a := by
  intro t fs hstep id hok
  cases a with
  | host a =>
    unfold SavedFiles.step at hstep
    obtain ⟨hrenames, hstep⟩ := ite_none_left_eq_some.mp hstep
    obtain ⟨r, hr, heq⟩ := map_eq_some_iff.mp hstep
    cases heq
    exact absurd hok (no_ok_of_step hr ((not_eq_true _).mp hrenames))
  | resolves k path =>
    obtain ⟨ending, -, hstep⟩ := bind_eq_some_iff.mp hstep
    obtain ⟨-, heq⟩ := ite_none_right_eq_some.mp hstep
    cases heq
    cases hok
  | renames k =>
    obtain ⟨ending, -, hstep⟩ := bind_eq_some_iff.mp hstep
    obtain ⟨path, -, hstep⟩ := bind_eq_some_iff.mp hstep
    obtain ⟨r, -, heq⟩ := bind_eq_some_iff.mp hstep
    obtain rfl := congrArg Prod.snd (Option.some.inj heq)
    simp [SavedFiles.rename] at hok
  | answers n =>
    obtain ⟨answer, hn, heq⟩ := bind_eq_some_iff.mp hstep
    cases heq
    obtain ⟨rfl, -⟩ := fileAck_ok_inj (sends_of_sendControlJson hok)
    exact ⟨answer.2, h.saved answer (mem_of_getElem? hn)⟩

omit [DecidableEq F] [DecidableEq P] in
theorem initial : SavedKept w ({} : SavedFiles F P) [] := ⟨kept_initial, fun _ h => absurd h not_mem_nil⟩

end SavedKept

/-- In every run in which each download has its part file to itself, and each file is saved after its sink has
written it, after chunks that came in order and are as many bytes as were declared, and to a path at which
there is nothing, every ok is for an exact file. -/
theorem files_exact_of_meets (w : FileWorld F) (as : List (SaveAction P))
    (hmeets : (savedFiles w).Every (SavedFiles.MeetsTransfer w) {} [] as) :
    (savedFiles w).Every (OkIsExact w) {} [] as :=
  Machine.Every.imp (SavedKept w) (fun _ _ _ _ _ h hgood hstep => h.step hgood hstep)
    (fun _ _ _ h _ => h.exact) as SavedKept.initial hmeets

/-! ## Two transfers -/

def SavedFiles.checksTransfer (w : FileWorld F) (s : SavedFiles F P) (es : List TransferEvent) : SaveAction P → Bool
  | .host a => s.host.checksTransfer w es a
  | .renames k => s.host.checksTransfer w es (.endSaves k true false) &&
    (s.host.endings[k]?).all fun ending => (s.targets ending.file.serial).all fun path => (s.files path).isNone
  | _ => true

omit [DecidableEq P] in
theorem savedMeets_of_checks {a : SaveAction P} (h : s.checksTransfer w es a = true) : s.MeetsTransfer w es a := by
  cases a with
  | host => exact meetsTransfer_of_checks h
  | renames k =>
    obtain ⟨hhost, hfree⟩ := (and_eq_true ..).mp h
    refine ⟨meetsTransfer_of_checks hhost, fun ending path hk hpath => ?_⟩
    rw [hk, all_some, hpath, all_some] at hfree
    exact isNone_iff_eq_none.mp hfree
  | _ => trivial

/-- Each transfer has a part file of its id. -/
def sampleFiles : FileWorld String where
  doubleText _ := ""
  now := 1
  sha256 _ := []
  partFile id := id

/-- A transfer of two bytes in two chunks, of which as many come; its file is renamed, and its ok is due. -/
def sampleTransfer (chunks : ℕ) : List (SaveAction String) :=
  [.host (.message (.obj [("type", .str "file_start"), ("transfer_id", .str "a"), ("filename", .str "a.txt"),
      ("size", .int 2), ("total_chunks", .int 2)]) false true),
    .host (.sinkOpens 0 true)] ++
  (List.range chunks).flatMap (fun i => [
    .host (.message (fileChunk "a" i (Base64.encode [UInt8.ofNat i])) false true), .host (.sinkWrites 0 1 true)]) ++
  [.host (.message (.obj [("type", .str "file_end"), ("transfer_id", .str "a")]) false true),
    .host (.sinkCloses 0), .host (.endGoesOn 0 true), .resolves 0 "a.txt", .renames 0]

theorem files_exact_sample : (savedFiles sampleFiles).Every (OkIsExact sampleFiles) {} []
    (sampleTransfer 2 ++ [.answers 0]) := by
  have hrun : ((savedFiles sampleFiles).exec (SavedFiles.checksTransfer sampleFiles) {} []
      (sampleTransfer 2 ++ [.answers 0])).isSome = true := by decide +kernel
  obtain ⟨⟨t, es⟩, hexec⟩ := isSome_iff_exists.mp hrun
  have hmeets := Machine.every_of_exec (fun _ _ _ => savedMeets_of_checks) _ hexec
  exact files_exact_of_meets sampleFiles _ hmeets

/-- A transfer of two chunks, whose second one never comes, is answered with ok. -/
theorem missing_chunk_ok : ¬∀ (w : FileWorld String) (as : List (SaveAction String)),
    (savedFiles w).Every (OkIsExact w) {} [] as := by
  intro hclaim
  have hrun : ((savedFiles sampleFiles).exec (fun _ _ _ => true) {} [] (sampleTransfer 1)).any
      (fun r => r.1.answers = [("a", 0)] && !r.1.host.closed && (takenOf 0 r.2).length = 1 &&
        (r.2.all fun e => (TransferEvent.start 0 e).all (·.2.2 = 2)) &&
          r.2.all fun e => match e with
            | .saves serial _ => serial = 0
            | _ => true) = true := by decide +kernel
  obtain ⟨⟨t, es⟩, hexec, hshape⟩ := (Option.any_eq_true ..).mp hrun
  simp only [and_eq_true, decide_eq_true_eq, not_eq_true'] at hshape
  obtain ⟨⟨⟨⟨hanswers, hopen⟩, htaken⟩, hstart⟩, hsaves⟩ := hshape
  obtain ⟨_, rfl, hpath⟩ := Machine.path_of_exec _ hexec
  have hexact := Machine.Every.good hpath (hclaim sampleFiles (sampleTransfer 1 ++ [.answers 0]))
  have hstep : t.step sampleFiles (.answers 0) =
      some ({ t with answers := t.answers.eraseIdx 0 }, t.host.sendControlJson (fileAck "a" true)) := by
    show (t.answers[0]?).bind _ = _
    rw [hanswers]
    rfl
  have hsends : .sends (fileAck "a" true) ∈ t.host.sendControlJson (fileAck "a" true) := by
    unfold IncomingFiles.sendControlJson
    rw [hopen]
    exact mem_singleton_self _
  obtain ⟨serial, path, content, before, after, -, -, heq, declared, totalChunks, hbegun, horder, -⟩ :=
    hexact _ _ hstep "a" hsends
  rw [nil_append] at heq
  rw [heq] at htaken hstart hsaves
  -- The one file that is saved is of the one download, of two chunks, of which one was taken.
  have hserial : serial = 0 := of_decide_eq_true
    (List.all_eq_true.mp hsaves _ (mem_append_right _ (mem_cons_self ..)))
  subst hserial
  obtain ⟨e, he, hstarts⟩ := exists_of_findSome?_eq_some hbegun
  have htotal := List.all_eq_true.mp hstart e (mem_append_left _ he)
  rw [hstarts, all_some] at htotal
  have hlength := congrArg List.length horder
  rw [length_map, length_map, length_range, show totalChunks = 2 from of_decide_eq_true htotal] at hlength
  rw [takenOf_append, length_append] at htaken
  omega

end LigamentApps.LinkHost
