import LigamentApps.LinkHostRecorder.InputEvent

/-!
# Typed and pasted text

Two control messages that differ only in what is typed or pasted leave the same event. The space bar is a
special key of its own, and a key that is nothing but white space leaves none. -/

namespace LigamentApps.LinkHostRecorder

open LinkHost

/-- The key types something to be seen: it is none of the special keys, and not white space alone. -/
def TypesVisibly (key : String) : Prop :=
  keyNameOf key ≠ "" ∧ allowedNonPrintableKeys.contains (keyNameOf key) = false

def typedMembers : List String := ["key", "char", "text"]

/-- Two control messages that differ only in what is typed or pasted: a message about the clipboard may differ
in every member but its type, and any other one in its key, its character and its text. -/
structure SameButText (doubleText : ℚ → String) (raw other : Json) : Prop where
  type : dartTextOr doubleText raw "type" "" = dartTextOr doubleText other "type" ""
  members : dartTextOr doubleText raw "type" "" ∉ ["clipboard_set", "clipboard_get"] →
    ∀ name ∉ typedMembers, raw.get name = other.get name
  key : dartTextOr doubleText raw "type" "" = "key_down" →
    dartTextOr doubleText raw "key" "" = dartTextOr doubleText other "key" "" ∨
      TypesVisibly (dartTextOr doubleText raw "key" "") ∧ TypesVisibly (dartTextOr doubleText other "key" "")
  char : dartTextOr doubleText raw "type" "" = "key_down" →
    (dartTextOr doubleText raw "char" "" = " " ↔ dartTextOr doubleText other "char" "" = " ")
  length : dartTextOr doubleText raw "type" "" = "text_input" →
    utf16Length (dartTextOr doubleText raw "text" "") = utf16Length (dartTextOr doubleText other "text" "")

variable {doubleText : ℚ → String} {raw other : Json}

theorem keyDownEvent_of_typesVisibly {key : String} (h : TypesVisibly key) :
    keyDownEvent (keyNameOf key) = some ("key_input", .obj [("action", .str "key_down")]) := by
  unfold keyDownEvent
  rw [if_neg h.1, h.2, if_neg Bool.false_ne_true]

theorem TypesVisibly.ne_space {key : String} (h : TypesVisibly key) : key ≠ " " := by
  rintro rfl
  exact h.1 (by decide)

theorem keyDownEvent_eq (hkey : dartTextOr doubleText raw "key" "" = dartTextOr doubleText other "key" "" ∨
      TypesVisibly (dartTextOr doubleText raw "key" "") ∧ TypesVisibly (dartTextOr doubleText other "key" ""))
    (hchar : dartTextOr doubleText raw "char" "" = " " ↔ dartTextOr doubleText other "char" "" = " ") :
    keyDownEvent (pressedKeyName doubleText raw) = keyDownEvent (pressedKeyName doubleText other) := by
  unfold pressedKeyName
  simp only [hchar]
  rcases hkey with hsame | ⟨hraw, hother⟩
  · rw [hsame]
  · by_cases hspace : dartTextOr doubleText other "char" "" = " "
    · rw [if_pos (.inr hspace), if_pos (.inr hspace)]
    · rw [if_neg (by simp [hraw.ne_space, hspace]), if_neg (by simp [hother.ne_space, hspace]),
        keyDownEvent_of_typesVisibly hraw, keyDownEvent_of_typesVisibly hother]

theorem inputEventOf_eq (h : SameButText doubleText raw other) :
    inputEventOf doubleText raw = inputEventOf doubleText other := by
  obtain ⟨htype, hmembers, hkey, hchar, hlength⟩ := h
  unfold inputEventOf
  rw [← htype]
  generalize dartTextOr doubleText raw "type" "" = type at hmembers hkey hchar hlength
  split
  case h_5 => exact keyDownEvent_eq (hkey rfl) (hchar rfl)
  case h_6 => rw [hlength rfl]
  case h_7 | h_8 => rfl
  case h_16 => rfl
  all_goals
    -- the other types read members that are the same
    have hsame : ∀ name ∉ typedMembers, raw.get name = other.get name := hmembers (by decide)
    simp [typedMembers] at hsame
    simp [valueOf, dartTextOr, Json.getPresent, flag, fileTransferMetadata, optionalMember, hsame]

theorem typesVisibly_singleton {c : Char} (h : isDartSpace c = false) : TypesVisibly (String.singleton c) := by
  obtain ⟨d, hd⟩ : ∃ d : Char, keyNameOf (String.singleton c) = String.ofList [d] := by
    unfold keyNameOf trimLower
    have hlist : (String.singleton c).toList = [c] := by simp
    rw [hlist, List.map_singleton, String.toList_ofList]
    by_cases hkelvin : c.toNat = 0x212A
    · rw [if_pos hkelvin]
      exact ⟨'k', by decide⟩
    · rw [if_neg hkelvin]
      exact ⟨c.toLower, by simp [h]⟩
  have hlonger : ∀ name ∈ allowedNonPrintableKeys, name.toList.length ≠ 1 := by decide
  unfold TypesVisibly
  rw [hd]
  constructor
  · intro hempty
    exact absurd (congrArg String.toList hempty) (by simp)
  · cases hallowed : allowedNonPrintableKeys.contains (String.ofList [d]) with
    | false => rfl
    | true => exact absurd (hlonger _ (List.contains_iff_mem.mp hallowed)) (by simp)

/-- Recorded input does not tell what was typed or pasted: messages that differ only in that leave the same
event, or both none. Among the keys are all characters but white space. -/
theorem typed_text_unseen (doubleText : ℚ → String) :
    (∀ raw other, SameButText doubleText raw other → ∀ (occurredAt : ℤ) (seq : ℕ),
      sanitizeInputEvent doubleText raw occurredAt seq = sanitizeInputEvent doubleText other occurredAt seq) ∧
    ∀ c : Char, isDartSpace c = false → TypesVisibly (String.singleton c) := by
  refine ⟨fun raw other h occurredAt seq => ?_, fun c hc => typesVisibly_singleton hc⟩
  unfold sanitizeInputEvent
  rw [inputEventOf_eq h]

/-- The message of a key that types a character. -/
def pressOf (c : Char) : Json :=
  .obj [("type", .str "key_down"), ("key", .str (String.singleton c)), ("char", .str (String.singleton c))]

/-- Two letters leave the same event. -/
theorem typed_text_unseen_sample :
    sanitizeInputEvent (fun _ => "") (pressOf 'p') 0 1 = sanitizeInputEvent (fun _ => "") (pressOf 'q') 0 1 := by
  refine (typed_text_unseen fun _ => "").1 (pressOf 'p')
    (pressOf 'q') ⟨rfl, fun _ name hname => ?_, fun _ => .inr ?_, fun _ => by decide, nofun⟩ 0 1
  · simp only [typedMembers, List.mem_cons, List.not_mem_nil, or_false, not_or, ← beq_eq_false_iff_ne] at hname
    simp [pressOf, Json.get, List.lookup_cons, hname]
  · exact ⟨typesVisibly_singleton (by decide), typesVisibly_singleton (by decide)⟩

/-- The space bar is recorded by its name, and the letter `a` is not. -/
theorem space_told_apart :
    ¬ ∀ (doubleText : ℚ → String) (c d : Char), 0x20 ≤ c.toNat → c.toNat < 0x7F → 0x20 ≤ d.toNat → d.toNat < 0x7F →
      ∀ (occurredAt : ℤ) (seq : ℕ), sanitizeInputEvent doubleText (pressOf c) occurredAt seq =
        sanitizeInputEvent doubleText (pressOf d) occurredAt seq := by
  intro hclaim
  have hsame := hclaim (fun _ => "") 'a' ' ' (by decide) (by decide) (by decide) (by decide) 0 1
  have htypes := congrArg (Option.map Event.eventType) hsame
  exact absurd htypes (by decide)

end LigamentApps.LinkHostRecorder
