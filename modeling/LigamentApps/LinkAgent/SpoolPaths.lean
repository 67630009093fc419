import LigamentApps.LinkAgent.RDSSupervisor

/-!
# The paths of the agent's spool

Which directories `WriteBatch` makes and `RemoveSession` deletes in `spool.go`, for the ids of the sessions
that `ApplySessionPolicy` accepts. A path is the list of its names from the last one up to the root, as
`filepath.Clean` leaves it. The file system finds an element of a path under a name of its own choice,
`lookUp`: NTFS takes `S1` and `s1.` for `s1`, and a last element of dots alone for the directory that it would
be in. -/

namespace LigamentApps.LinkAgent

open List

/-- Where the file system finds a path, by its own names for the elements. -/
def located (lookUp : String → Option String) (path : List String) : List String := path.filterMap lookUp

/-- The directories of the file system, by its names. -/
structure SpoolTree (lookUp : String → Option String) where
  /-- `DiskSpooler.baseDir`. -/
  baseDir : List String
  isDir : List String → Prop
  closed : ∀ name path, isDir (name :: path) → isDir path
  /-- `NewDiskSpooler` has made it. -/
  base_isDir : isDir (located lookUp baseDir)

/-- The elements of a session id; the separators are those of the platform. -/
def elementsOf (isSeparator : Char → Bool) (sessionID : String) : List String :=
  (sessionID.toList.splitOnP isSeparator).map String.ofList

/-- `filepath.Clean`, of one more element. -/
def cleanElement (path : List String) (element : String) : List String :=
  if element = "" ∨ element = "." then path
  else if element = ".." then path.tail
  else element :: path

/-- `filepath.Join(s.baseDir, sessionID)`. -/
def sessionDir (isSeparator : Char → Bool) (baseDir : List String) (sessionID : String) : List String :=
  (elementsOf isSeparator sessionID).foldl cleanElement baseDir

namespace SpoolTree

variable {lookUp : String → Option String} (tree : SpoolTree lookUp) (isSeparator : Char → Bool)
  (sessionID : String) (path : List String)

/-- Where `baseDir` is. -/
def base : List String := located lookUp tree.baseDir

/-- Where the directory of a session is. -/
def dirOf : List String := located lookUp (sessionDir isSeparator tree.baseDir sessionID)

/-- `os.MkdirAll` in `WriteBatch` makes the directory. -/
def Creates : Prop := path <:+ tree.dirOf isSeparator sessionID ∧ ¬tree.isDir path

/-- `os.RemoveAll` in `RemoveSession` deletes what is there. -/
def Removes : Prop := tree.dirOf isSeparator sessionID <:+ path

/-- The path is of a strict child of the base directory. -/
def IsChild : Prop := ∃ name, path = name :: tree.base

/-- What the sessions with these ids do stays in the base directory, each in a directory of its own. -/
structure Confined (ids : List String) : Prop where
  creates : ∀ id ∈ ids, ∀ path, tree.Creates isSeparator id path → tree.IsChild path
  deletes : ∀ id ∈ ids, tree.IsChild (tree.dirOf isSeparator id)
  removes : ∀ id ∈ ids, ∀ path, tree.Removes isSeparator id path → tree.base <:+ path ∧ path ≠ tree.base
  distinct : ∀ id ∈ ids, ∀ id' ∈ ids, tree.dirOf isSeparator id = tree.dirOf isSeparator id' → id = id'

def above (baseDir : List String) : SpoolTree lookUp where
  baseDir := baseDir
  isDir path := path <:+ located lookUp baseDir
  closed name _ h := (suffix_cons name _).trans h
  base_isDir := suffix_refl _

end SpoolTree

/-- `filepath.Clean` of a relative path, of one more element: how often it goes up, and the names after
that. -/
def cleanRelative (path : ℕ × List String) (element : String) : ℕ × List String :=
  if element = "" ∨ element = "." then path
  else if element = ".." then
    match path.2 with
    | [] => (path.1 + 1, [])
    | _ :: names => (path.1, names)
  else (path.1, element :: path.2)

/-- The session id as a relative path. -/
def cleanID (isSeparator : Char → Bool) (sessionID : String) : ℕ × List String :=
  (elementsOf isSeparator sessionID).foldl cleanRelative (0, [])

/-- Where the file system finds it: how often it goes up, and the names after that. -/
def locatedID (isSeparator : Char → Bool) (lookUp : String → Option String) (sessionID : String) :
    ℕ × List String :=
  ((cleanID isSeparator sessionID).1, located lookUp (cleanID isSeparator sessionID).2)

/-- Every id is one name, and no two of them are the same to the file system. -/
def PlainIDs (isSeparator : Char → Bool) (lookUp : String → Option String) (ids : List String) : Prop :=
  ∀ id ∈ ids, (∃ name, locatedID isSeparator lookUp id = (0, [name])) ∧
    ∀ id' ∈ ids, locatedID isSeparator lookUp id = locatedID isSeparator lookUp id' → id = id'

variable {isSeparator : Char → Bool} {lookUp : String → Option String} {tree : SpoolTree lookUp} {ids : List String}

theorem cleanElement_relative (baseDir : List String) (path : ℕ × List String) (element : String) :
    cleanElement (path.2 ++ baseDir.drop path.1) element =
      (cleanRelative path element).2 ++ baseDir.drop (cleanRelative path element).1 := by
  obtain ⟨ups, names⟩ := path
  unfold cleanElement cleanRelative
  split
  · rfl
  · split
    · cases names with
      | nil => exact tail_drop
      | cons name names => rfl
    · rfl

theorem foldl_cleanElement (baseDir : List String) : ∀ (elements : List String) (path : ℕ × List String),
    elements.foldl cleanElement (path.2 ++ baseDir.drop path.1) =
      (elements.foldl cleanRelative path).2 ++ baseDir.drop (elements.foldl cleanRelative path).1
  | [], _ => rfl
  | element :: elements, path => by
    rw [foldl_cons, foldl_cons, cleanElement_relative]
    exact foldl_cleanElement baseDir elements _

theorem sessionDir_eq (isSeparator : Char → Bool) (baseDir : List String) (sessionID : String) :
    sessionDir isSeparator baseDir sessionID =
      (cleanID isSeparator sessionID).2 ++ baseDir.drop (cleanID isSeparator sessionID).1 :=
  foldl_cleanElement baseDir (elementsOf isSeparator sessionID) (0, [])

theorem SpoolTree.dirOf_eq (tree : SpoolTree lookUp) (isSeparator : Char → Bool) (sessionID : String) :
    tree.dirOf isSeparator sessionID = (locatedID isSeparator lookUp sessionID).2 ++
      located lookUp (tree.baseDir.drop (locatedID isSeparator lookUp sessionID).1) := by
  unfold SpoolTree.dirOf
  rw [sessionDir_eq]
  exact filterMap_append

theorem SpoolTree.isDir_of_suffix {path : List String} : ∀ {whole : List String}, path <:+ whole →
    tree.isDir whole → tree.isDir path
  | [], hsuffix, hdir => suffix_nil.mp hsuffix ▸ hdir
  | name :: whole, hsuffix, hdir => by
    obtain rfl | hrest := suffix_cons_iff.mp hsuffix
    · exact hdir
    · exact isDir_of_suffix hrest (tree.closed name whole hdir)

theorem SpoolTree.confined_of_plain (h : PlainIDs isSeparator lookUp ids) : tree.Confined isSeparator ids := by
  have hdir : ∀ id ∈ ids, ∃ name, locatedID isSeparator lookUp id = (0, [name]) ∧
      tree.dirOf isSeparator id = name :: tree.base := by
    intro id hid
    obtain ⟨⟨name, hlocated⟩, -⟩ := h id hid
    refine ⟨name, hlocated, ?_⟩
    rw [tree.dirOf_eq, hlocated]
    rfl
  constructor
  · intro id hid path hcreates
    obtain ⟨name, -, heq⟩ := hdir id hid
    obtain ⟨hsuffix, hnew⟩ := hcreates
    rw [heq] at hsuffix
    obtain rfl | hrest := suffix_cons_iff.mp hsuffix
    · exact ⟨name, rfl⟩
    · exact absurd (isDir_of_suffix hrest tree.base_isDir) hnew
  · intro id hid
    obtain ⟨name, -, heq⟩ := hdir id hid
    exact ⟨name, heq⟩
  · intro id hid path hremoves
    obtain ⟨name, -, heq⟩ := hdir id hid
    unfold Removes at hremoves
    rw [heq] at hremoves
    refine ⟨(suffix_cons name _).trans hremoves, ?_⟩
    rintro rfl
    have hlength := hremoves.length_le
    rw [length_cons] at hlength
    omega
  · intro id hid id' hid' hsame
    obtain ⟨name, hlocated, heq⟩ := hdir id hid
    obtain ⟨name', hlocated', heq'⟩ := hdir id' hid'
    rw [heq, heq'] at hsame
    refine (h id hid).2 id' hid' ?_
    rw [hlocated, hlocated', (List.cons.inj hsame).1]

/-- The sessions stay in the base directory, whatever that is, each in a directory of its own, if and only if
each id by itself is one name, and no two of them are the same to the file system. -/
theorem confined_iff_plain (isSeparator : Char → Bool) (lookUp : String → Option String) (ids : List String) :
    (∀ tree : SpoolTree lookUp, tree.Confined isSeparator ids) ↔ PlainIDs isSeparator lookUp ids := by
  constructor
  · intro hall id hid
    refine ⟨?_, fun id' hid' hsame => ?_⟩
    · -- At the root the id is a name, and below a directory of that name it is not above it.
      obtain ⟨name, hroot⟩ := (hall (.above [])).deletes id hid
      rw [SpoolTree.dirOf_eq, show (SpoolTree.above [] : SpoolTree lookUp).baseDir = [] from rfl, drop_nil] at hroot
      have hnames : (locatedID isSeparator lookUp id).2 = [name] := (append_nil _).symm.trans hroot
      have hmem : name ∈ (locatedID isSeparator lookUp id).2 := hnames ▸ mem_singleton_self name
      obtain ⟨element, -, helement⟩ := mem_filterMap.mp hmem
      obtain ⟨other, hbelow⟩ := (hall (.above [element])).deletes id hid
      rw [SpoolTree.dirOf_eq, hnames] at hbelow
      have hrest : located lookUp ([element].drop (locatedID isSeparator lookUp id).1) = located lookUp [element] :=
        (List.cons.inj hbelow).2
      refine ⟨name, Prod.ext ?_ hnames⟩
      cases hups : (locatedID isSeparator lookUp id).1 with
      | zero => rfl
      | succ n =>
        rw [hups, drop_succ_cons, drop_nil] at hrest
        simp [located, helement] at hrest
    · refine (hall (.above [])).distinct id hid id' hid' ?_
      rw [SpoolTree.dirOf_eq, SpoolTree.dirOf_eq, hsame]
  · intro hplain tree
    exact SpoolTree.confined_of_plain hplain

/-- `ApplySessionPolicy` starts a recording. -/
def Accepted (p : RDSSessionStartPolicy) : Prop :=
  (RDSSupervisor.applySessionPolicy {} p).calls = [.policyChecked p] ∧
    ∃ client, newRecorderClient (RDSSupervisor.recorderConfig p) 0 = .ok client

/-- A policy of a session whose id is two dots. -/
def dotsPolicy : RDSSessionStartPolicy := ⟨1, "..", true, "https://recorder", "token", ""⟩

/-- The session deletes the directory above the base directory, with all that is in it. -/
theorem dots_not_confined : ¬∀ (isSeparator : Char → Bool) (lookUp : String → Option String)
    (tree : SpoolTree lookUp) (policies : List RDSSessionStartPolicy), (∀ p ∈ policies, Accepted p) →
      tree.Confined isSeparator (policies.map (·.sessionID)) := by
  intro hclaim
  have haccepted : ∀ p ∈ [dotsPolicy], Accepted p := by
    intro p hp
    rw [mem_singleton.mp hp]
    exact ⟨rfl, _, rfl⟩
  have hremoves := (hclaim (· == '/') some (.above ["spool", "ligament"]) [dotsPolicy] haccepted).removes ".."
    (mem_singleton_self _) ["spool", "ligament"]
  have hdir : located some (sessionDir (· == '/') ["spool", "ligament"] "..") = ["ligament"] := by decide
  refine (hremoves ?_).2 rfl
  show located some (sessionDir (· == '/') ["spool", "ligament"] "..") <:+ ["spool", "ligament"]
  rw [hdir]
  exact suffix_cons _ _

end LigamentApps.LinkAgent
