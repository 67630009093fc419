import Mathlib.Data.List.Pairwise
import LigamentApps.LinkHost.IncomingFiles

/-!
# Sinks and what writes to them

What one move of a sink does to the list of sinks and to the part files, and what is kept of owners that have
each a sink and its part file to themselves. -/

namespace LigamentApps.LinkHost

open List Option

variable {F : Type}

/-- What a sink keeps of the bytes that were added to it: in its queue, and in the part file. -/
def FileSink.Has (parts : F → PartFile) (sink : FileSink F) (added : List UInt8) : Prop :=
  match sink.handle with
  | .opening => sink.pending = added
  | .opened made position =>
    ∃ content, parts sink.file = ⟨made, some content⟩ ∧ content.length = position ∧ content ++ sink.pending = added
  | .closed => (parts sink.file).content = some added
  | .failed => True

def FileSink.core (sink : FileSink F) : F × SinkHandle × List UInt8 := (sink.file, sink.handle, sink.pending)

/-- How much a sink has still to do. -/
def sinkRank (sink : FileSink F) : ℕ :=
  sink.pending.length +
    match sink.handle with
    | .opening => 2
    | .opened _ _ => 1
    | .closed | .failed => 0

/-- A sink of the list does something: it writes at most to its own file, and has what it had. -/
structure SinkMoves (j : ℕ) (sink next : FileSink F) (sinks later : List (FileSink F))
    (parts partsLater : F → PartFile) :
    Prop where
  found : sinks[j]? = some sink
  busy : sink.isDone = false
  set : later = sinks.set j next
  file : next.file = sink.file
  closing : next.closing = sink.closing
  others : ∀ file, file ≠ sink.file → partsLater file = parts file
  keeps : ∀ added, sink.Has parts added → next.Has partsLater added
  lower : sinkRank next < sinkRank sink
  closes : next.handle = .closed → sink.closing = true

/-- The sink with the number is one of the file, and has the bytes. -/
def Holds (sinks : List (FileSink F)) (parts : F → PartFile) (j : ℕ) (file : F) (added : List UInt8) : Prop :=
  ∃ sink, sinks[j]? = some sink ∧ sink.file = file ∧ sink.Has parts added

/-- Only such sinks are going to write to the file. -/
def Alone (sinks : List (FileSink F)) (file : F) (p : ℕ → Prop) : Prop :=
  ∀ j sink, sinks[j]? = some sink → sink.isDone = false → sink.file = file → p j

variable {j k made position : ℕ} {sink next other : FileSink F} {sinks later before : List (FileSink F)}
  {parts partsLater : F → PartFile} {added : List UInt8} {file : F} {p : ℕ → Prop}

theorem isDone_of_core (h : sink.core = other.core) : sink.isDone = other.isDone := by
  unfold FileSink.isDone
  rw [(Prod.mk.inj (Prod.mk.inj h).2).1]

theorem isDone_of_opening (h : sink.handle = .opening) : sink.isDone = false := by
  unfold FileSink.isDone
  rw [h]
  rfl

theorem isDone_of_opened (h : sink.handle = .opened made position) : sink.isDone = false := by
  unfold FileSink.isDone
  rw [h]
  rfl

theorem isDone_of_closed (h : sink.handle = .closed) : sink.isDone = true := by
  unfold FileSink.isDone
  rw [h]
  rfl

/-- A sink that goes on is neither closed nor failed. -/
theorem handle_of_busy (h : sink.isDone = false) : sink.handle ≠ .closed ∧ sink.handle ≠ .failed := by
  obtain ⟨hclosed, hfailed⟩ := (Bool.or_eq_false_iff ..).mp h
  exact ⟨of_decide_eq_false hclosed, of_decide_eq_false hfailed⟩

theorem has_of_core (h : sink.Has parts added) (hcore : other.core = sink.core)
    (hparts : partsLater sink.file = parts sink.file) : other.Has partsLater added := by
  obtain ⟨hfile, hrest⟩ := Prod.mk.inj hcore
  obtain ⟨hhandle, hpending⟩ := Prod.mk.inj hrest
  unfold FileSink.Has at h ⊢
  rw [hhandle, hpending, hfile, hparts]
  exact h

theorem has_add (h : sink.Has parts added) (hopen : sink.handle ≠ .closed) (bytes : List UInt8) :
    FileSink.Has parts { sink with pending := sink.pending ++ bytes } (added ++ bytes) := by
  unfold FileSink.Has at h ⊢
  dsimp only at h ⊢
  split at h
  · exact congrArg (· ++ bytes) h
  · obtain ⟨content, hpart, hlength, hall⟩ := h
    refine ⟨content, hpart, hlength, ?_⟩
    rw [← hall, append_assoc]
  · rename_i hclosed
    exact absurd hclosed hopen
  · trivial

/-! ## Moves -/

section Moves

variable [DecidableEq F]

theorem moves_opens (hj : sinks[j]? = some sink) (hopening : sink.handle = .opening) :
    SinkMoves j sink { sink with handle := .opened (parts sink.file).made 0 } sinks
      (sinks.set j { sink with handle := .opened (parts sink.file).made 0 }) parts
        (Function.update parts sink.file (parts sink.file).truncate) := by
  refine ⟨hj, isDone_of_opening hopening, rfl, rfl, rfl, fun file hne => Function.update_of_ne hne _ _,
    fun added h => ?_, ?_, nofun⟩
  · have hpending : sink.pending = added := by
      unfold FileSink.Has at h
      rw [hopening] at h
      exact h
    exact ⟨[], Function.update_self .., rfl, hpending⟩
  · unfold sinkRank
    rw [hopening]
    simp

theorem overwrite_end (content bytes : List UInt8) : overwrite content content.length bytes = content ++ bytes := by
  unfold overwrite
  rw [take_length, Nat.sub_self, replicate_zero, append_nil,
    drop_eq_nil_of_le (Nat.le_add_right _ _), append_nil]

theorem moves_writes {count : ℕ} (hj : sinks[j]? = some sink) (hopened : sink.handle = .opened made position)
    (hpos : 0 < count) (hcount : count ≤ sink.pending.length) :
    SinkMoves j sink { sink with handle := .opened made (position + count), pending := sink.pending.drop count } sinks
      (sinks.set j { sink with handle := .opened made (position + count), pending := sink.pending.drop count }) parts
        (Function.update parts sink.file ((parts sink.file).write made position (sink.pending.take count))) := by
  refine ⟨hj, isDone_of_opened hopened, rfl, rfl, rfl, fun file hne => Function.update_of_ne hne _ _,
    fun added h => ?_, ?_, nofun⟩
  · unfold FileSink.Has at h
    rw [hopened] at h
    obtain ⟨content, hpart, hlength, hall⟩ := h
    refine ⟨content ++ sink.pending.take count, ?_, ?_, ?_⟩
    · rw [Function.update_self, hpart]
      unfold PartFile.write
      rw [if_pos rfl, map_some, ← hlength, overwrite_end]
    · rw [length_append, hlength, length_take_of_le hcount]
    · rw [append_assoc, take_append_drop]
      exact hall
  · unfold sinkRank
    rw [hopened, length_drop]
    dsimp only
    omega

end Moves

theorem moves_closes (hj : sinks[j]? = some sink) (hopened : sink.handle = .opened made position)
    (hempty : sink.pending = []) (hclosing : sink.closing = true) :
    SinkMoves j sink { sink with handle := .closed } sinks (sinks.set j { sink with handle := .closed }) parts
      parts := by
  refine ⟨hj, isDone_of_opened hopened, rfl, rfl, rfl, fun _ _ => rfl, fun added h => ?_, ?_, fun _ => hclosing⟩
  · unfold FileSink.Has at h
    rw [hopened] at h
    obtain ⟨content, hpart, -, hall⟩ := h
    rw [hempty, append_nil] at hall
    show (parts sink.file).content = some added
    rw [hpart, hall]
  · unfold sinkRank
    rw [hopened, hempty]
    simp

theorem moves_fails (hj : sinks[j]? = some sink) (hbusy : sink.isDone = false) :
    SinkMoves j sink { sink with handle := .failed } sinks (sinks.set j { sink with handle := .failed }) parts
      parts := by
  refine ⟨hj, hbusy, rfl, rfl, rfl, fun _ _ => rfl, fun _ _ => trivial, ?_, nofun⟩
  obtain ⟨hclosed, hfailed⟩ := handle_of_busy hbusy
  unfold sinkRank
  cases hhandle : sink.handle with
  | opening | opened => simp
  | closed => contradiction
  | failed => contradiction

/-- The sink that is to do something, and whether it can. -/
def FileAction.ofSink : FileAction → Option (ℕ × Bool)
  | .sinkOpens j ok | .sinkWrites j _ ok => some (j, ok)
  | .sinkCloses j => some (j, true)
  | _ => none

/-- Where a sink does something, nothing else is done. -/
theorem sink_turns [DecidableEq F] {w : FileWorld F} {s : IncomingFiles F} {r : TransferOutcome F} {a : FileAction}
    {ok : Bool} (hsink : a.ofSink = some (j, ok)) (hstep : s.step w a = some r) :
    ∃ sink next later parts, r = ({ s with sinks := later, parts }, []) ∧
      SinkMoves j sink next s.sinks later s.parts parts ∧ (ok = true → next.handle ≠ .failed) := by
  cases a with
  | sinkOpens =>
    cases hsink
    obtain ⟨sink, hj, hstep⟩ := bind_eq_some_iff.mp hstep
    obtain ⟨hopening, heq⟩ := ite_none_right_eq_some.mp hstep
    cases heq
    cases ok with
    | false => exact ⟨sink, _, _, _, rfl, moves_fails hj (isDone_of_opening hopening), nofun⟩
    | true => exact ⟨sink, _, _, _, rfl, moves_opens hj hopening, fun _ => nofun⟩
  | sinkWrites =>
    cases hsink
    obtain ⟨sink, hj, hstep⟩ := bind_eq_some_iff.mp hstep
    split at hstep
    · rename_i hopened
      obtain ⟨⟨hpos, hcount⟩, heq⟩ := ite_none_right_eq_some.mp hstep
      cases heq
      cases ok with
      | false => exact ⟨sink, _, _, _, rfl, moves_fails hj (isDone_of_opened hopened), nofun⟩
      | true => exact ⟨sink, _, _, _, rfl, moves_writes hj hopened hpos hcount, fun _ => nofun⟩
    · cases hstep
  | sinkCloses =>
    cases hsink
    obtain ⟨sink, hj, hstep⟩ := bind_eq_some_iff.mp hstep
    split at hstep
    · rename_i hopened
      obtain ⟨⟨hempty, hclosing⟩, heq⟩ := ite_none_right_eq_some.mp hstep
      cases heq
      exact ⟨sink, _, _, _, rfl, moves_closes hj hopened hempty hclosing, fun _ => nofun⟩
    · cases hstep
  | message | stalls | endGoesOn | endSaves | sessionCloses => cases hsink

theorem SinkMoves.self (h : SinkMoves j sink next sinks later parts partsLater) : later[j]? = some next := by
  obtain ⟨hlt, -⟩ := List.getElem?_eq_some_iff.mp h.found
  rw [h.set, getElem?_set_self hlt]

theorem SinkMoves.rest (h : SinkMoves j sink next sinks later parts partsLater) (hk : k ≠ j) :
    later[k]? = sinks[k]? := by
  rw [h.set, getElem?_set_ne hk.symm]

/-- A sink that is not to close goes on, unless it fails. -/
theorem SinkMoves.stays (h : SinkMoves j sink next sinks later parts partsLater)
    (hopen : sink.closing = false) (hfailed : next.handle ≠ .failed) : next.isDone = false := by
  refine (Bool.or_eq_false_iff ..).mpr ⟨decide_eq_false fun hclosed => ?_, decide_eq_false hfailed⟩
  cases (h.closes hclosed).symm.trans hopen

/-- A sink that is not to close is not, after a move, and is not closed. -/
theorem SinkMoves.opened (h : SinkMoves j sink next sinks later parts partsLater)
    (hopen : ∀ x, sinks[k]? = some x → x.closing = false ∧ x.handle ≠ .closed) (hk : later[k]? = some other) :
    other.closing = false ∧ other.handle ≠ .closed := by
  by_cases hkj : k = j
  · subst hkj
    cases h.self.symm.trans hk
    have hfound := (hopen sink h.found).1
    exact ⟨h.closing.trans hfound, fun hclosed => absurd (hfound.symm.trans (h.closes hclosed)) (by simp)⟩
  · exact hopen other ((h.rest hkj).symm.trans hk)

/-- A sink that is given bytes has as many more of them to write. -/
theorem sinkRank_add (sink : FileSink F) (bytes : List UInt8) :
    sinkRank { sink with pending := sink.pending ++ bytes } = sinkRank sink + bytes.length := by
  show (sink.pending ++ bytes).length + _ = _
  rw [length_append]
  exact Nat.add_right_comm ..

/-! ## The last sink -/

theorem getElem?_last {α : Type} (xs : List α) (x : α) : (xs ++ [x])[xs.length]? = some x := by
  rw [getElem?_append_right le_rfl, Nat.sub_self]
  rfl

theorem modify_last {α : Type} (x : α) (f : α → α) : ∀ xs : List α, (xs ++ [x]).modify xs.length f = xs ++ [f x]
  | [] => rfl
  | y :: ys => congrArg (y :: ·) (modify_last x f ys)

theorem set_last {α : Type} (xs : List α) (x y : α) : (xs ++ [x]).set xs.length y = xs ++ [y] := by
  rw [set_append_right _ _ le_rfl, Nat.sub_self]
  rfl

theorem SinkMoves.last (h : SinkMoves j other next (before ++ [sink]) later parts partsLater)
    (hdone : ∀ k ∈ before, k.isDone = true) : other = sink ∧ later = before ++ [next] := by
  have hj := h.found
  obtain hlt | heq | hgt := Nat.lt_trichotomy j before.length
  · rw [getElem?_append_left hlt] at hj
    cases (hdone other (mem_of_getElem? hj)).symm.trans h.busy
  · subst heq
    have hother : other = sink := Option.some.inj (hj.symm.trans (getElem?_last before sink))
    exact ⟨hother, h.set.trans (set_last before sink next)⟩
  · have hlength : (before ++ [sink]).length ≤ j := by
      rw [length_append, length_singleton]
      omega
    rw [getElem?_eq_none hlength] at hj
    simp at hj

/-! ## One owner -/

theorem Holds.moves (h : Holds sinks parts k file added) (halone : Alone sinks file (k = ·))
    (hmoves : SinkMoves j sink next sinks later parts partsLater) : Holds later partsLater k file added := by
  obtain ⟨other, hk, hfile, hhas⟩ := h
  by_cases hj : k = j
  · subst hj
    cases hmoves.found.symm.trans hk
    exact ⟨next, hmoves.self, hmoves.file.trans hfile, hmoves.keeps _ hhas⟩
  · refine ⟨other, (hmoves.rest hj).trans hk, hfile, has_of_core hhas rfl (hmoves.others _ fun hsame => ?_)⟩
    exact hj (halone j sink hmoves.found hmoves.busy (hsame.symm.trans hfile))

theorem Alone.moves (h : Alone sinks file p) (hmoves : SinkMoves j sink next sinks later parts partsLater) :
    Alone later file p := by
  intro k other hk hbusy hfile
  by_cases hj : k = j
  · subst hj
    cases hmoves.self.symm.trans hk
    exact h k sink hmoves.found hmoves.busy (hmoves.file.symm.trans hfile)
  · exact h k other ((hmoves.rest hj).symm.trans hk) hbusy hfile

theorem sink_of_core (hsinks : sinks.map FileSink.core = later.map FileSink.core)
    (hj : sinks[j]? = some sink) : ∃ other, later[j]? = some other ∧ other.core = sink.core := by
  have hat := congrArg (·[j]?) hsinks
  simp only [getElem?_map, hj, map_some] at hat
  exact map_eq_some_iff.mp hat.symm

theorem Holds.of_core (h : Holds sinks parts k file added)
    (hsinks : later.map FileSink.core = sinks.map FileSink.core) (hparts : partsLater file = parts file) :
    Holds later partsLater k file added := by
  obtain ⟨other, hk, hfile, hhas⟩ := h
  obtain ⟨l, hl, hsame⟩ := sink_of_core hsinks.symm hk
  exact ⟨l, hl, (Prod.mk.inj hsame).1.trans hfile, has_of_core hhas hsame (hfile ▸ hparts)⟩

theorem Alone.of_core (h : Alone sinks file p) (hsinks : later.map FileSink.core = sinks.map FileSink.core) :
    Alone later file p := by
  intro j other hj hbusy hfile
  obtain ⟨l, hl, hsame⟩ := sink_of_core hsinks hj
  exact h j l hl ((isDone_of_core hsame).trans hbusy) ((Prod.mk.inj hsame).1.trans hfile)

theorem Holds.add (h : Holds sinks parts k file added) (x : FileSink F) :
    Holds (sinks ++ [x]) parts k file added := by
  obtain ⟨other, hk, hrest⟩ := h
  obtain ⟨hlt, -⟩ := List.getElem?_eq_some_iff.mp hk
  exact ⟨other, (getElem?_append_left hlt).trans hk, hrest⟩

theorem getElem?_add {x : FileSink F} (hj : (sinks ++ [x])[j]? = some sink) :
    sinks[j]? = some sink ∨ j = sinks.length ∧ sink = x := by
  obtain hlt | hge := Nat.lt_or_ge j sinks.length
  · rw [getElem?_append_left hlt] at hj
    exact .inl hj
  · have hlast : j = sinks.length := by
      obtain ⟨hlt, -⟩ := List.getElem?_eq_some_iff.mp hj
      rw [length_append, length_singleton] at hlt
      omega
    subst hlast
    exact .inr ⟨rfl, Option.some.inj (hj.symm.trans (getElem?_last _ _))⟩

theorem Alone.add {x : FileSink F} (h : Alone sinks file p) (hx : x.file = file → p sinks.length) :
    Alone (sinks ++ [x]) file p := by
  intro j other hj hbusy hfile
  obtain hj | ⟨rfl, rfl⟩ := getElem?_add hj
  · exact h j other hj hbusy hfile
  · exact hx hfile

theorem Holds.give (h : Holds sinks parts k file added)
    (hopen : ∀ sink, sinks[k]? = some sink → sink.handle ≠ .closed) (bytes : List UInt8) :
    Holds (sinks.modify k fun x => { x with pending := x.pending ++ bytes }) parts k file (added ++ bytes) := by
  obtain ⟨other, hk, hfile, hhas⟩ := h
  refine ⟨{ other with pending := other.pending ++ bytes }, ?_, hfile, has_add hhas (hopen other hk) bytes⟩
  rw [getElem?_modify, hk]
  simp

theorem Holds.beside (h : Holds sinks parts k file added) (f : FileSink F → FileSink F) (hne : k ≠ j) :
    Holds (sinks.modify j f) parts k file added := by
  obtain ⟨other, hk, hrest⟩ := h
  refine ⟨other, ?_, hrest⟩
  rw [getElem?_modify, hk]
  simp [hne.symm]

theorem sink_of_modify {bytes : List UInt8}
    (hj : (sinks.modify k fun x => { x with pending := x.pending ++ bytes })[j]? = some sink) :
    ∃ other, sinks[j]? = some other ∧ other.file = sink.file ∧ other.handle = sink.handle ∧
      other.closing = sink.closing := by
  rw [getElem?_modify] at hj
  obtain ⟨other, hother, rfl⟩ := map_eq_some_iff.mp hj
  refine ⟨other, hother, ?_⟩
  split
  · exact ⟨rfl, rfl, rfl⟩
  · exact ⟨rfl, rfl, rfl⟩

theorem Alone.give (h : Alone sinks file p) (bytes : List UInt8) :
    Alone (sinks.modify k fun x => { x with pending := x.pending ++ bytes }) file p := by
  intro j sink hj hbusy hfile
  obtain ⟨other, hother, hsame, hhandle, -⟩ := sink_of_modify hj
  refine h j other hother ?_ (hsame.trans hfile)
  unfold FileSink.isDone at hbusy ⊢
  rw [hhandle]
  exact hbusy

/-! ## Owners -/

/-- What writes to a file through a sink, with the bytes that it has given to it. -/
structure SinkOwner (F : Type) where
  file : F
  sink : ℕ
  bytes : List UInt8

/-- Each owner has its file and its sink to itself, and its bytes are in the sink. -/
structure Owned (owners : List (SinkOwner F)) (sinks : List (FileSink F)) (parts : F → PartFile) : Prop where
  apart : owners.Pairwise fun o p => o.file ≠ p.file
  own : ∀ o ∈ owners, ∃ k, sinks[o.sink]? = some k ∧ k.file = o.file ∧ k.Has parts o.bytes
  alone : ∀ o ∈ owners, ∀ (j : ℕ) (k : FileSink F), sinks[j]? = some k → k.isDone = false →
    k.file = o.file → o.sink = j

variable {owners others : List (SinkOwner F)} {o x : SinkOwner F}

theorem Owned.sink_ne (h : Owned owners sinks parts) (ho : o ∈ owners) (hx : x ∈ owners)
    (hne : o.file ≠ x.file) : o.sink ≠ x.sink := by
  intro hsame
  obtain ⟨k, hk, hfile, -⟩ := h.own o ho
  obtain ⟨l, hl, hfile', -⟩ := h.own x hx
  rw [hsame] at hk
  cases hk.symm.trans hl
  exact hne (hfile.symm.trans hfile')

theorem Owned.moves (h : Owned owners sinks parts)
    (hmoves : SinkMoves j sink next sinks later parts partsLater) : Owned owners later partsLater where
  apart := h.apart
  own := fun o ho => Holds.moves (h.own o ho) (h.alone o ho) hmoves
  alone := fun o ho => Alone.moves (h.alone o ho) hmoves

theorem Owned.of_subset (h : Owned owners sinks parts) (hapart : others.Pairwise fun o p => o.file ≠ p.file)
    (hsub : ∀ o ∈ others, o ∈ owners) (hsinks : later.map FileSink.core = sinks.map FileSink.core)
    (hparts : ∀ o ∈ others, partsLater o.file = parts o.file) : Owned others later partsLater where
  apart := hapart
  own := fun o ho => Holds.of_core (h.own o (hsub o ho)) hsinks (hparts o ho)
  alone := fun o ho => Alone.of_core (h.alone o (hsub o ho)) hsinks

theorem Owned.add (h : Owned owners sinks parts) (file : F) (hidle : ∀ o ∈ owners, o.file ≠ file)
    (hquiet : ∀ k ∈ sinks, k.file = file → k.isDone = true)
      (hothers : others.Perm (⟨file, sinks.length, []⟩ :: owners)) :
    Owned others (sinks ++ [{ file := file }]) parts := by
  have hmem : ∀ o ∈ others, o = ⟨file, sinks.length, []⟩ ∨ o ∈ owners := fun o ho =>
    mem_cons.mp (hothers.mem_iff.mp ho)
  refine ⟨?_, ?_, ?_⟩
  · refine (hothers.pairwise_iff fun hne => hne.symm).mpr (pairwise_cons.mpr ⟨fun o ho => ?_, h.apart⟩)
    exact (hidle o ho).symm
  · intro o ho
    obtain rfl | ho := hmem o ho
    · exact ⟨{ file := file }, getElem?_last _ _, rfl, rfl⟩
    · exact Holds.add (h.own o ho) _
  · intro o ho
    obtain rfl | ho := hmem o ho
    · refine Alone.add (fun j k hk hbusy hfile => ?_) fun _ => rfl
      cases (hquiet k (mem_of_getElem? hk) hfile).symm.trans hbusy
    · exact Alone.add (h.alone o ho) fun hfile => absurd hfile.symm (hidle o ho)

theorem Owned.give (h : Owned owners sinks parts) (hx : x ∈ owners) (bytes : List UInt8)
    (hopen : ∀ k, sinks[x.sink]? = some k → k.handle ≠ .closed)
    (hapart : others.Pairwise fun o p => o.file ≠ p.file)
    (hothers : ∀ o ∈ others, o = { x with bytes := x.bytes ++ bytes } ∨ o ∈ owners ∧ o.file ≠ x.file) :
    Owned others (sinks.modify x.sink fun k => { k with pending := k.pending ++ bytes }) parts := by
  refine ⟨hapart, ?_, ?_⟩
  · intro o ho
    obtain rfl | ⟨ho, hne⟩ := hothers o ho
    · exact Holds.give (h.own x hx) hopen bytes
    · exact Holds.beside (h.own o ho) _ (h.sink_ne ho hx hne)
  · intro o ho
    obtain rfl | ⟨ho, -⟩ := hothers o ho
    · exact Alone.give (h.alone x hx) bytes
    · exact Alone.give (h.alone o ho) bytes

end LigamentApps.LinkHost
