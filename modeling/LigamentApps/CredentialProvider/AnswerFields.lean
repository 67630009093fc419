import Mathlib.Data.List.TakeWhile
import LigamentApps.CredentialProvider.Common
import LigamentApps.Text.JsonReading

/-!
# The fields of a server's answer

The extractors of `common.h` against the grammar of JSON. `ReadAsJson` is what a JSON reader would take out of
an answer for a key; the extractors look `Behind` the first occurrence of the quoted key and the next colon.
Where the value of the member stands there, `PlainlyWritten` is exactly what makes them agree; elsewhere only
a text that happens to say the same does. -/

namespace LigamentApps.CredentialProvider

open LigamentApps.Text List Option

variable {key json t : Bytes}

/-- The number that digits say. -/
def digitsValue (ds : Bytes) : ℕ := ds.foldl (fun n c => 10 * n + (c - 0x30).toNat) 0

/-- `ExtractJsonInt` with its third argument, which `extractJsonInt` leaves out. -/
def extractJsonIntOr (json key : Bytes) (fallback : ℤ) : ℤ :=
  match afterKey json key with
  | none => fallback
  | some rest =>
    let digits := (rest.dropWhile fun c => c == 0x20 || c == 0x09).takeWhile isDigit
    if digits = [] then fallback else (min (digitsValue digits) (2 ^ 31 - 1) : ℕ)

/-! ## What a JSON reader finds -/

/-- The member of this name: `m` is its value, or none has the name. Where two members of the name differ
there is no such `m`. -/
def TopMember (ms : List (Bytes × JsonTree)) (key : Bytes) : Option JsonTree → Prop
  | none => ∀ j, (key, j) ∉ ms
  | some j => (key, j) ∈ ms ∧ ∀ j', (key, j') ∈ ms → j' = j

theorem TopMember.unique {ms : List (Bytes × JsonTree)} {m m' : Option JsonTree} (h : TopMember ms key m)
    (h' : TopMember ms key m') : m = m' := by
  cases m with
  | none =>
    cases m' with
    | none => rfl
    | some j => exact absurd h'.1 (h j)
  | some j =>
    cases m' with
    | none => exact absurd h.1 (h' j)
    | some => rw [h'.2 j h.1]

/-- The string a member holds, or the empty one. -/
def stringOf : Option JsonTree → Bytes
  | some (.string v) => v
  | _ => []

/-- A number without sign, fraction and exponent that fits an `int`. -/
def FitsInt (t : Bytes) : Prop := (∀ b ∈ t, isDigit b = true) ∧ digitsValue t < 2 ^ 31

instance (t : Bytes) : Decidable (FitsInt t) :=
  inferInstanceAs (Decidable ((∀ b ∈ t, isDigit b = true) ∧ digitsValue t < 2 ^ 31))

/-- The number a member holds, or the fallback. -/
def intOf (fallback : ℤ) : Option JsonTree → ℤ
  | some (.number t) => if FitsInt t then digitsValue t else fallback
  | _ => fallback

/-- The three extractors give for this key what a JSON reader finds in the text. -/
def ReadAsJson (json key : Bytes) (fallback : ℤ) : Prop :=
  ∀ ms m, ObjectText json ms → TopMember ms key m →
    (extractJsonBool json key = true ↔ m = some (.bool true)) ∧ extractJsonString json key = stringOf m ∧
      extractJsonIntOr json key fallback = intOf fallback m

/-! ## Where the extractors look -/

/-- Where the value stands: after blanks, then the rest of the text. -/
structure Place where
  blank : Bytes
  value : Bytes
  rest : Bytes

def Place.text (p : Place) : Bytes := p.blank ++ (p.value ++ p.rest)

/-- The value of the member stands there. -/
structure Place.Own (p : Place) (j : JsonTree) : Prop where
  blank : Blank p.blank
  value : ValueText p.value j
  rest : Stops p.rest

/-- `t` stands behind the first occurrence of the quoted key in the text and the first colon after it. -/
def Behind (json key t : Bytes) : Prop :=
  ∃ before gap, json = before ++ ((0x22 :: key ++ [0x22]) ++ (gap ++ 0x3A :: t)) ∧ 0x3A ∉ gap ∧
    ∀ a b, json = a ++ ((0x22 :: key ++ [0x22]) ++ b) → before.length ≤ a.length

theorem afterKey_eq_some_iff : afterKey json key = some t ↔ Behind json key t := by
  have hne : ∀ {gap : Bytes}, 0x3A ∉ gap ↔ ∀ c ∈ gap, (c == (0x3A : UInt8)) = false := fun {gap} =>
    ⟨fun h c hc => beq_eq_false_iff_ne.mpr fun heq => h (heq ▸ hc), fun h hmem => by simpa using h _ hmem⟩
  unfold afterKey
  constructor
  · intro h
    obtain ⟨⟨before, r⟩, hkey, h⟩ := bind_eq_some_iff.mp h
    obtain ⟨⟨gap, t'⟩, hcolon, h⟩ := bind_eq_some_iff.mp h
    cases h
    obtain ⟨hjson, hfirst⟩ := cutSub_eq_some hkey
    obtain ⟨x, hx, rfl, hgap⟩ := (cutFirst_eq_some_iff ..).mp hcolon
    obtain rfl := beq_iff_eq.mp hx
    exact ⟨before, gap, hjson, hne.mpr hgap, hfirst⟩
  · rintro ⟨before, gap, hjson, hgap, hfirst⟩
    have hcolon : cutFirst (· == 0x3A) (gap ++ 0x3A :: t) = some (gap, t) :=
      (cutFirst_eq_some_iff ..).mpr ⟨0x3A, rfl, rfl, hne.mp hgap⟩
    cases hkey : cutSub (0x22 :: key ++ [0x22]) json with
    | none => exact absurd (hjson ▸ hkey) cutSub_ne_none
    | some r =>
      obtain ⟨a, b⟩ := r
      obtain ⟨hcut, hle⟩ := cutSub_eq_some hkey
      -- both are the first occurrence
      have hlength : a.length = before.length := le_antisymm (hle before _ hjson) (hfirst a b hcut)
      have hrest := (append_inj (hcut.symm.trans hjson) hlength).2
      obtain rfl := append_cancel_left hrest
      simp [hcolon]

/-- A byte at which `ExtractJsonBool` stops: a comma, a closing brace or a line break. -/
def isStop (c : UInt8) : Bool := c == 0x2C || c == 0x7D || c == 0x0A

/-- The bytes `true` occur before any stop. -/
def EarlyTrue (t : Bytes) : Prop := ∃ a b, t = a ++ (ascii "true" ++ b) ∧ ∀ c ∈ a, isStop c = false

/-- The first two quotes enclose something. -/
def EarlyQuoted (t : Bytes) : Prop :=
  ∃ a u b, t = a ++ 0x22 :: (u ++ 0x22 :: b) ∧ 0x22 ∉ a ∧ 0x22 ∉ u ∧ u ≠ []

/-- The first two quotes enclose the string; or, for the empty one, they enclose nothing. -/
def Quotes (t v : Bytes) : Prop :=
  if v = [] then ¬EarlyQuoted t else ∃ a b, t = a ++ 0x22 :: (v ++ 0x22 :: b) ∧ 0x22 ∉ a ∧ 0x22 ∉ v

/-- The digits at the beginning, behind spaces and tabs. -/
def leadingDigits (t : Bytes) : Bytes := (t.dropWhile fun c => c == 0x20 || c == 0x09).takeWhile isDigit

/-- The blanks are spaces and tabs. -/
def Spaced (w : Bytes) : Prop := ∀ b ∈ w, b = 0x20 ∨ b = 0x09

theorem extractJsonBool_iff (h : afterKey json key = some t) : extractJsonBool json key = true ↔ EarlyTrue t := by
  unfold extractJsonBool
  rw [h]
  simp only [findSub, findFirst]
  constructor
  · intro hread
    cases hcut : cutSub (ascii "true") t with
    | none => simp [hcut] at hread
    | some r =>
      obtain ⟨a, b⟩ := r
      obtain ⟨rfl, -⟩ := cutSub_eq_some hcut
      refine ⟨a, b, rfl, ?_⟩
      cases hstop : cutFirst (fun c => c == 0x2C || c == 0x7D || c == 0x0A) (a ++ (ascii "true" ++ b)) with
      | none =>
        have hfree := (cutFirst_eq_none_iff _ _).mp hstop
        exact fun c hc => hfree c (mem_append_left _ hc)
      | some r' =>
        obtain ⟨a', b'⟩ := r'
        simp only [hcut, hstop, map_some, decide_eq_true_eq] at hread
        obtain ⟨x, -, heq, hfree⟩ := (cutFirst_eq_some_iff _ _ _ _).mp hstop
        -- what stands before `true` stands before the stop
        have hpre : a <+: a' :=
          prefix_of_prefix_length_le (prefix_append a (ascii "true" ++ b))
            (heq ▸ prefix_append a' (x :: b')) (Nat.le_of_lt hread)
        exact fun c hc => hfree c (hpre.subset hc)
  · rintro ⟨a, b, rfl, hfree⟩
    cases hcut : cutSub (ascii "true") (a ++ (ascii "true" ++ b)) with
    | none => exact absurd hcut cutSub_ne_none
    | some r =>
      obtain ⟨a₀, b₀⟩ := r
      have hle := (cutSub_eq_some hcut).2 a b rfl
      cases hstop : cutFirst (fun c => c == 0x2C || c == 0x7D || c == 0x0A) (a ++ (ascii "true" ++ b)) with
      | none => simp
      | some r' =>
        obtain ⟨a', b'⟩ := r'
        obtain ⟨x, hx, heq, -⟩ := (cutFirst_eq_some_iff _ _ _ _).mp hstop
        have hlong : a.length < a'.length := by
          by_contra hlen
          have hshort : (a' ++ [x]).length ≤ (a ++ [0x74]).length := by simpa using hlen
          have hpre : a' ++ [x] <+: a ++ [0x74] :=
            prefix_of_prefix_length_le ⟨b', by simpa using heq.symm⟩
              (show a ++ [0x74] <+: a ++ (ascii "true" ++ b) from ⟨ascii "rue" ++ b, by simp; rfl⟩) hshort
          have hmem : x ∈ a ++ [0x74] := hpre.subset (by simp)
          rcases mem_append.mp hmem with hmem | hmem
          · exact Bool.false_ne_true ((hfree x hmem).symm.trans hx)
          · rw [mem_singleton.mp hmem] at hx
            cases hx
        simp only [map_some, decide_eq_true_eq]
        omega

theorem extractJsonString_of_quoted {a u b : Bytes}
    (h : afterKey json key = some (a ++ 0x22 :: (u ++ 0x22 :: b))) (ha : 0x22 ∉ a) (hu : 0x22 ∉ u) :
    extractJsonString json key = u := by
  have hne : ∀ {w : Bytes}, 0x22 ∉ w → ∀ c ∈ w, (c == (0x22 : UInt8)) = false := fun hw c hc =>
    beq_eq_false_iff_ne.mpr fun h => hw (h ▸ hc)
  have hopen : cutFirst (· == 0x22) (a ++ 0x22 :: (u ++ 0x22 :: b)) = some (a, u ++ 0x22 :: b) :=
    (cutFirst_eq_some_iff _ _ _ _).mpr ⟨0x22, rfl, rfl, hne ha⟩
  have hclose : cutFirst (· == 0x22) (u ++ 0x22 :: b) = some (u, b) :=
    (cutFirst_eq_some_iff _ _ _ _).mpr ⟨0x22, rfl, rfl, hne hu⟩
  simp [extractJsonString, h, hopen, hclose]

theorem extractJsonString_eq_nil_iff (h : afterKey json key = some t) :
    extractJsonString json key = [] ↔ ¬EarlyQuoted t := by
  constructor
  · rintro hnil ⟨a, u, b, rfl, ha, hu, hne⟩
    exact hne ((extractJsonString_of_quoted h ha hu).symm.trans hnil)
  · intro hnone
    unfold extractJsonString
    rw [h]
    cases hopen : cutFirst (· == 0x22) t with
    | none => simp [hopen]
    | some r =>
      obtain ⟨a, t'⟩ := r
      cases hclose : cutFirst (· == 0x22) t' with
      | none => simp [hopen, hclose]
      | some r' =>
        obtain ⟨u, b⟩ := r'
        obtain ⟨x, hx, rfl, ha⟩ := (cutFirst_eq_some_iff _ _ _ _).mp hopen
        obtain ⟨y, hy, rfl, hu⟩ := (cutFirst_eq_some_iff _ _ _ _).mp hclose
        obtain rfl := beq_iff_eq.mp hx
        obtain rfl := beq_iff_eq.mp hy
        by_contra hne
        refine hnone ⟨a, u, b, rfl, fun h => ?_, fun h => ?_, by simpa [hopen, hclose] using hne⟩
        · simpa using ha _ h
        · simpa using hu _ h

theorem dropWhile_lineBreak {w : Bytes} (t : Bytes) (hw : Blank w) (hspaced : ¬Spaced w) :
    ∃ b u, (w ++ t).dropWhile (fun c => c == 0x20 || c == 0x09) = b :: u ∧ isDigit b = false := by
  induction w with
  | nil => exact absurd (fun b hb => absurd hb not_mem_nil) hspaced
  | cons x w ih =>
    have hx := hw x mem_cons_self
    by_cases hspace : x = 0x20 ∨ x = 0x09
    · have hrest : ¬Spaced w := fun h => hspaced fun b hb => by
        rcases mem_cons.mp hb with rfl | hb
        exacts [hspace, h b hb]
      obtain ⟨b, u, hdrop, hb⟩ := ih (fun b hb => hw b (mem_cons_of_mem x hb)) hrest
      refine ⟨b, u, ?_, hb⟩
      rw [cons_append, dropWhile_cons_of_pos (by simpa using hspace), hdrop]
    · refine ⟨x, w ++ t, ?_, ?_⟩
      · rw [cons_append, dropWhile_cons_of_neg (by simpa using hspace)]
      · simp only [isBlank, Bool.or_eq_true, beq_iff_eq] at hx
        rcases hx with ((rfl | rfl) | rfl) | rfl <;> decide

theorem extractJsonIntOr_of_text {w : Bytes} (fallback : ℤ) (h : afterKey json key = some (w ++ t))
    (hw : Blank w) (ht : ∀ b ∈ t.head?, isBlank b = false) :
    (Spaced w → extractJsonIntOr json key fallback =
      if t.takeWhile isDigit = [] then fallback
      else (min (digitsValue (t.takeWhile isDigit)) (2 ^ 31 - 1) : ℕ)) ∧
    (¬Spaced w → extractJsonIntOr json key fallback = fallback) := by
  have hread : extractJsonIntOr json key fallback =
      if ((w ++ t).dropWhile fun c => c == 0x20 || c == 0x09).takeWhile isDigit = [] then fallback
      else (min (digitsValue (((w ++ t).dropWhile fun c => c == 0x20 || c == 0x09).takeWhile isDigit))
        (2 ^ 31 - 1) : ℕ) := by
    unfold extractJsonIntOr
    rw [h]
  rw [hread]
  constructor
  · intro hspaced
    have hdrop : (w ++ t).dropWhile (fun c => c == 0x20 || c == 0x09) = t := by
      rw [dropWhile_append_of_pos (fun c hc => by simpa using hspaced c hc)]
      cases t with
      | nil => rfl
      | cons b =>
        have hb := ht b rfl
        have hne : (b == 0x20 || b == 0x09) = false := by
          simp only [isBlank, Bool.or_eq_false_iff] at hb
          simp [hb.1.1]
        simp [hne]
    rw [hdrop]
  · intro hspaced
    obtain ⟨b, u, hdrop, hb⟩ := dropWhile_lineBreak t hw hspaced
    rw [hdrop, takeWhile_cons, hb]
    simp

/-! ## Where the two agree -/

/-- `true` has no line break before it, and in any other value the bytes `true` stand behind a comma, a
closing brace or a line break. -/
def PlainBool (p : Place) : JsonTree → Prop
  | .bool true => 0x0A ∉ p.blank
  | _ => ¬EarlyTrue p.text

/-- A string has no backslash in it, and behind any other value the next two quotes have nothing between
them. -/
def PlainString (p : Place) : JsonTree → Prop
  | .string _ => 0x5C ∉ p.value
  | _ => ¬EarlyQuoted p.text

/-- A number that fits has only spaces and tabs before it, and any other number starts with no digit; or the
digits say the fallback. -/
def PlainInt (p : Place) (fallback : ℤ) : JsonTree → Prop
  | .number t =>
    if FitsInt t then Spaced p.blank ∨ fallback = digitsValue t
    else Spaced p.blank → t.takeWhile isDigit = [] ∨
      fallback = (min (digitsValue (t.takeWhile isDigit)) (2 ^ 31 - 1) : ℕ)
  | _ => True

/-- The value is written so that the extractors read it. -/
structure PlainlyWritten (p : Place) (fallback : ℤ) (j : JsonTree) : Prop where
  bool : PlainBool p j
  string : PlainString p j
  int : PlainInt p fallback j

theorem value_true (h : ValueText t (.bool true)) : t = ascii "true" := by
  cases h
  rfl

section Places

variable {json key : Bytes} {p : Place} {j : JsonTree}

theorem earlyTrue_iff (hblank : Blank p.blank) (hvalue : p.value = ascii "true") :
    EarlyTrue p.text ↔ 0x0A ∉ p.blank := by
  constructor
  · rintro ⟨a, b, heq, hfree⟩ hline
    rw [Place.text] at heq
    have hpre : p.blank <+: a ++ (ascii "true" ++ b) := heq ▸ prefix_append p.blank (p.value ++ p.rest)
    rcases Nat.lt_or_ge a.length p.blank.length with hlt | hge
    · -- then the first letter of `true` is a blank
      have hletter : a ++ [0x74] <+: p.blank :=
        prefix_of_prefix_length_le
          (show a ++ [0x74] <+: a ++ (ascii "true" ++ b) from ⟨ascii "rue" ++ b, by simp; rfl⟩) hpre
          (by simpa using Nat.succ_le_of_lt hlt)
      exact absurd (hblank 0x74 (hletter.subset (by simp))) (by decide)
    · have hbefore : p.blank <+: a := prefix_of_prefix_length_le hpre (prefix_append a _) hge
      cases hfree 0x0A (hbefore.subset hline)
  · intro hline
    refine ⟨p.blank, p.rest, by rw [Place.text, hvalue], fun c hc => ?_⟩
    have hc' := hblank c hc
    have hne : c ≠ 0x0A := fun h => hline (h ▸ hc)
    simp only [isBlank, Bool.or_eq_true, beq_iff_eq] at hc'
    rcases hc' with ((rfl | rfl) | rfl) | rfl
    exacts [by decide, by decide, absurd rfl hne, by decide]

theorem plainBool_iff (hkey : afterKey json key = some p.text) (hblank : Blank p.blank)
    (hvalue : ValueText p.value j) :
    (extractJsonBool json key = true ↔ some j = some (.bool true)) ↔ PlainBool p j := by
  rw [extractJsonBool_iff hkey, Option.some.injEq]
  by_cases hj : j = .bool true
  · subst hj
    rw [earlyTrue_iff hblank (value_true hvalue)]
    simp [PlainBool]
  · have hplain : PlainBool p j ↔ ¬EarlyTrue p.text := by
      unfold PlainBool
      split
      · exact absurd rfl hj
      · exact Iff.rfl
    rw [hplain, iff_false_right hj]

theorem quote_mem_of_stringText {u v : Bytes} (h : StringText u v) (hu : 0x22 ∈ u) : 0x22 ∈ v := by
  induction h with
  | nil => exact hu
  | plain hb _ ih =>
    rcases mem_cons.mp hu with rfl | hu
    · cases hb
    · exact mem_cons_of_mem _ (ih hu)
  | @escape c b t v hc h ih =>
    simp only [mem_cons] at hu
    rcases hu with hu | rfl | hu
    · cases hu
    · have hb : b = 0x22 := by simpa [escaped] using hc.symm
      rw [hb]
      exact mem_cons_self
    · exact mem_cons_of_mem _ (ih hu)
  | unit hunit _ _ ih | lone hunit _ _ ih =>
    obtain ⟨ha, hb, hc, hd⟩ := hexUnit_some hunit
    have hrest := ih (by simpa [ha.symm, hb.symm, hc.symm, hd.symm] using hu)
    exact mem_append_right _ hrest
  | pair hhigh hlow _ _ ih =>
    obtain ⟨ha, hb, hc, hd⟩ := hexUnit_some hhigh
    obtain ⟨ha', hb', hc', hd'⟩ := hexUnit_some hlow
    have hrest := ih (by
      simpa [ha.symm, hb.symm, hc.symm, hd.symm, ha'.symm, hb'.symm, hc'.symm, hd'.symm] using hu)
    exact mem_append_right _ hrest

theorem backslash_mem_of_quote_mem {u v : Bytes} (h : StringText u v) (hu : 0x22 ∈ u) : 0x5C ∈ u := by
  induction h with
  | nil => cases hu
  | plain hb _ ih =>
    rcases mem_cons.mp hu with rfl | hu
    · cases hb
    · exact mem_cons_of_mem _ (ih hu)
  | escape | unit | lone | pair => exact mem_cons_self

theorem plainString_iff (hkey : afterKey json key = some p.text) (hblank : Blank p.blank)
    (hvalue : ValueText p.value j) : extractJsonString json key = stringOf (some j) ↔ PlainString p j := by
  have hquote : (0x22 : UInt8) ∉ p.blank := fun h => absurd (hblank _ h) (by decide)
  by_cases hj : ∃ v, j = .string v
  · obtain ⟨v, rfl⟩ := hj
    obtain ⟨u, htext, hu⟩ := string_of_valueText hvalue
    have hplain : PlainString p (.string v) ↔ 0x5C ∉ u := by
      simp [PlainString, htext]
    rw [hplain, stringOf]
    by_cases hmem : 0x22 ∈ u
    · -- what the extractor takes has no quote in it, and the value has
      have hback := backslash_mem_of_quote_mem hu hmem
      obtain ⟨a, b, rfl, ha⟩ := eq_append_cons_of_mem hmem
      have hread : extractJsonString json key = a :=
        extractJsonString_of_quoted (b := b ++ [0x22] ++ p.rest) (by rw [hkey, Place.text, htext]; simp) hquote ha
      have hvquote := quote_mem_of_stringText hu hmem
      constructor
      · intro h
        rw [hread] at h
        exact absurd (h ▸ hvquote) ha
      · exact fun h => absurd hback h
    · have hread : extractJsonString json key = u :=
        extractJsonString_of_quoted (b := p.rest) (by rw [hkey, Place.text, htext]; simp) hquote hmem
      rw [hread]
      constructor
      · rintro rfl
        exact fun h => absurd ((hu.plain_of_length_le le_rfl).2 _ h) (by decide)
      · intro hback
        exact hu.eq_of_no_backslash hback
  · have hplain : PlainString p j ↔ ¬EarlyQuoted p.text := by
      unfold PlainString
      split
      · exact absurd ⟨_, rfl⟩ hj
      · exact Iff.rfl
    have hnone : stringOf (some j) = [] := by
      unfold stringOf
      split
      · rename_i v heq
        exact absurd ⟨v, Option.some.inj heq⟩ hj
      · rfl
    rw [hplain, hnone]
    exact extractJsonString_eq_nil_iff hkey

theorem takeWhile_digits {r : Bytes} (hr : Stops r) : (t ++ r).takeWhile isDigit = t.takeWhile isDigit := by
  have hstop : r.takeWhile isDigit = [] := by
    cases r with
    | nil => rfl
    | cons b =>
      have hb : isDigit b = false := by
        by_contra h
        have hnumber := isNumberByte_of_isDigit (Bool.not_eq_false _ ▸ h)
        rw [hr b rfl] at hnumber
        exact Bool.false_ne_true hnumber
      rw [takeWhile_cons, hb]
      rfl
  rw [takeWhile_append, hstop, append_nil]
  split_ifs with hlen
  · exact ( takeWhile_prefix _).eq_of_length hlen |>.symm
  · rfl

theorem takeWhile_digits_other {r : Bytes} (h : ValueText t j) (hj : ∀ n, j ≠ .number n) :
    (t ++ r).takeWhile isDigit = [] := by
  cases h with
  | number => exact absurd rfl (hj _)
  | null | true | false | string | emptyArray | array | emptyObject | object => rfl

theorem plainInt_iff (fallback : ℤ) (hkey : afterKey json key = some p.text) (hblank : Blank p.blank)
    (hvalue : ValueText p.value j) (hrest : Stops p.rest) :
    extractJsonIntOr json key fallback = intOf fallback (some j) ↔ PlainInt p fallback j := by
  have hhead : ∀ b ∈ (p.value ++ p.rest).head?, isBlank b = false := by
    obtain ⟨b, u, htext, hb⟩ := valueText_head hvalue
    rw [htext]
    simpa using isBlank_of_startsValue hb
  obtain ⟨hspaced, hbroken⟩ := extractJsonIntOr_of_text fallback hkey hblank hhead
  by_cases hj : ∃ t, j = .number t
  · obtain ⟨t, rfl⟩ := hj
    have ht : p.value = t ∧ NumberText t := by
      generalize p.value = v at hvalue
      cases hvalue with
      | number h => exact ⟨rfl, h⟩
    rw [takeWhile_digits hrest, ht.1] at hspaced
    by_cases hfits : FitsInt t
    · have hall : t.takeWhile isDigit = t := takeWhile_eq_self_iff.mpr hfits.1
      obtain ⟨b, u, hne, -⟩ := ht.2.head
      have hsmall : min (digitsValue t) (2 ^ 31 - 1) = digitsValue t := Nat.min_eq_left (by have := hfits.2; omega)
      rw [hall, if_neg (by rw [hne]; simp), hsmall] at hspaced
      simp only [intOf, PlainInt, if_pos hfits]
      by_cases hw : Spaced p.blank
      · simp [hspaced hw, hw]
      · simp [hbroken hw, hw]
    · simp only [intOf, PlainInt, if_neg hfits]
      by_cases hw : Spaced p.blank
      · rw [hspaced hw]
        by_cases hnone : t.takeWhile isDigit = []
        · simp [hnone]
        · simp only [hw, hnone, if_false, false_or, forall_const]
          exact eq_comm
      · simp [hbroken hw, hw]
  · have hnot : ∀ n, j ≠ .number n := fun n h => hj ⟨n, h⟩
    have hint : intOf fallback (some j) = fallback := by
      unfold intOf
      split
      · rename_i t heq
        exact absurd (Option.some.inj heq) (hnot t)
      · rfl
    have hplain : PlainInt p fallback j := by
      unfold PlainInt
      split
      · exact absurd rfl (hnot _)
      · trivial
    have hread : extractJsonIntOr json key fallback = fallback := by
      by_cases hw : Spaced p.blank
      · rw [hspaced hw, if_pos (takeWhile_digits_other hvalue hnot)]
      · exact hbroken hw
    rw [hint, hread]
    exact iff_of_true rfl hplain

end Places

/-- What the extractors look at happens to say what the member says. -/
structure SaysSame (t : Bytes) (fallback : ℤ) (m : Option JsonTree) : Prop where
  bool : EarlyTrue t ↔ m = some (.bool true)
  string : Quotes t (stringOf m)
  int : (if leadingDigits t = [] then fallback else (min (digitsValue (leadingDigits t)) (2 ^ 31 - 1) : ℕ)) =
    intOf fallback m

/-- The member is none, or says what the extractors say where they find nothing. -/
structure SaysNothing (fallback : ℤ) (m : Option JsonTree) : Prop where
  bool : m ≠ some (.bool true)
  string : stringOf m = []
  int : intOf fallback m = fallback

/-- Behind the first quoted key stands the member's own value, plainly written, or another text that says the
same; or there is nothing behind it, and the member says nothing. -/
def Legible (json key : Bytes) (fallback : ℤ) (m : Option JsonTree) : Prop :=
  (∀ t, Behind json key t →
    (∃ (p : Place) (j : JsonTree), m = some j ∧ t = p.text ∧ p.Own j ∧ PlainlyWritten p fallback j) ∨
      ((∀ (p : Place) j, m = some j → t = p.text → ¬p.Own j) ∧ SaysSame t fallback m)) ∧
    ((∀ t, ¬Behind json key t) → SaysNothing fallback m)

/-- The three extractors give what the member says. -/
def Agrees (json key : Bytes) (fallback : ℤ) (m : Option JsonTree) : Prop :=
  (extractJsonBool json key = true ↔ m = some (.bool true)) ∧ extractJsonString json key = stringOf m ∧
    extractJsonIntOr json key fallback = intOf fallback m

section Agreement

variable {json key : Bytes} {m : Option JsonTree} {fallback : ℤ}

theorem agrees_own_iff {p : Place} {j : JsonTree} (h : afterKey json key = some p.text) (hown : p.Own j) :
    Agrees json key fallback (some j) ↔ PlainlyWritten p fallback j := by
  unfold Agrees
  rw [plainBool_iff h hown.blank hown.value, plainString_iff h hown.blank hown.value,
    plainInt_iff fallback h hown.blank hown.value hown.rest]
  exact ⟨fun ⟨hb, hs, hi⟩ => ⟨hb, hs, hi⟩, fun h => ⟨h.bool, h.string, h.int⟩⟩

theorem extractJsonString_eq_iff {v : Bytes} (h : afterKey json key = some t) :
    extractJsonString json key = v ↔ Quotes t v := by
  unfold Quotes
  split_ifs with hv
  · rw [hv]
    exact extractJsonString_eq_nil_iff h
  constructor
  · intro hread
    have hquoted : EarlyQuoted t := by
      by_contra hnone
      exact hv (hread.symm.trans ((extractJsonString_eq_nil_iff h).mpr hnone))
    obtain ⟨a, u, b, rfl, ha, hu, -⟩ := hquoted
    obtain rfl := (extractJsonString_of_quoted h ha hu).symm.trans hread
    exact ⟨a, b, rfl, ha, hu⟩
  · rintro ⟨a, b, rfl, ha, hu⟩
    exact extractJsonString_of_quoted h ha hu

theorem agrees_iff (h : afterKey json key = some t) : Agrees json key fallback m ↔ SaysSame t fallback m := by
  have hint : extractJsonIntOr json key fallback =
      if leadingDigits t = [] then fallback else (min (digitsValue (leadingDigits t)) (2 ^ 31 - 1) : ℕ) := by
    unfold extractJsonIntOr
    rw [h]
    rfl
  unfold Agrees
  rw [extractJsonBool_iff h, extractJsonString_eq_iff h, hint]
  exact ⟨fun ⟨hb, hs, hi⟩ => ⟨hb, hs, hi⟩, fun h => ⟨h.bool, h.string, h.int⟩⟩

theorem agrees_none_iff (h : afterKey json key = none) : Agrees json key fallback m ↔ SaysNothing fallback m := by
  unfold Agrees extractJsonBool extractJsonString extractJsonIntOr
  rw [h]
  constructor
  · exact fun ⟨hb, hs, hi⟩ => ⟨fun hm => Bool.false_ne_true (hb.mpr hm), hs.symm, hi.symm⟩
  · exact fun h => ⟨iff_of_false Bool.false_ne_true h.bool, h.string.symm, h.int.symm⟩

theorem agrees_iff_legible : Agrees json key fallback m ↔ Legible json key fallback m := by
  cases hkey : afterKey json key with
  | none =>
    have hnothing : ∀ t, ¬Behind json key t := fun t ht => by
      cases hkey.symm.trans (afterKey_eq_some_iff.mpr ht)
    rw [agrees_none_iff hkey]
    exact ⟨fun h => ⟨fun t ht => absurd ht (hnothing t), fun _ => h⟩, fun h => h.2 hnothing⟩
  | some t =>
    have hbehind := afterKey_eq_some_iff.mp hkey
    constructor
    · intro h
      refine ⟨fun t' ht' => ?_, fun hnone => absurd hbehind (hnone t)⟩
      obtain rfl := Option.some.inj (hkey.symm.trans (afterKey_eq_some_iff.mpr ht'))
      by_cases hown : ∃ (p : Place) (j : JsonTree), m = some j ∧ t = p.text ∧ p.Own j
      · obtain ⟨p, j, rfl, rfl, hown⟩ := hown
        exact .inl ⟨p, j, rfl, rfl, hown, (agrees_own_iff hkey hown).mp h⟩
      · refine .inr ⟨fun p j hm ht hp => hown ⟨p, j, hm, ht, hp⟩, (agrees_iff hkey).mp h⟩
    · intro h
      rcases h.1 t hbehind with ⟨p, j, rfl, rfl, hown, hplain⟩ | ⟨-, hsame⟩
      · exact (agrees_own_iff hkey hown).mpr hplain
      · exact (agrees_iff hkey).mpr hsame

end Agreement

/-- The extractors agree with a JSON reader on an object exactly where its member is legible to them. -/
theorem readAsJson_iff {json key : Bytes} {ms : List (Bytes × JsonTree)} {m : Option JsonTree} (fallback : ℤ)
    (hobject : ObjectText json ms) (hmember : TopMember ms key m) :
    ReadAsJson json key fallback ↔ Legible json key fallback m := by
  rw [← agrees_iff_legible]
  constructor
  · exact fun h => h ms m hobject hmember
  · rintro h ms' m' hobject' hmember'
    obtain rfl := hobject.unique hobject'
    obtain rfl := hmember.unique hmember'
    exact h

theorem plainName {s : String} (h : (ascii s).all isPlain = true) : StringText (ascii s) (ascii s) :=
  stringText_plain (List.all_eq_true.mp h)

/-- An answer with two members: both are read. -/
theorem readAsJson_ok :
    ReadAsJson (ascii "\x7b\"note\":\"wait\",\"ok\":true\x7d") (ascii "note") 0 ∧
      ReadAsJson (ascii "\x7b\"note\":\"wait\",\"ok\":true\x7d") (ascii "ok") 0 := by
  have hnil : Blank [] := by simp [Blank]
  have hnote : ValueText (ascii "\"wait\"") (.string (ascii "wait")) :=
    .string (plainName (s := "wait") (by decide))
  have hobject : ObjectText (ascii "\x7b\"note\":\"wait\",\"ok\":true\x7d")
      [(ascii "note", .string (ascii "wait")), (ascii "ok", .bool true)] :=
    ⟨[], _, [], (append_nil _).symm, hnil, hnil,
      .object (.cons hnil (plainName (s := "note") (by decide)) hnil hnil hnote hnil
        (.last hnil (plainName (s := "ok") (by decide)) hnil hnil .true hnil))⟩
  have hapart : ascii "ok" ≠ ascii "note" := by decide
  have hstops : ∀ {t : Bytes} {c : UInt8}, t.head? = some c → isNumberByte c = false → Stops t :=
      fun ht hc b hb => by
    cases ht.symm.trans hb
    exact hc
  constructor
  · have hkey : afterKey (ascii "\x7b\"note\":\"wait\",\"ok\":true\x7d") (ascii "note") =
        some (Place.text ⟨[], ascii "\"wait\"", ascii ",\"ok\":true\x7d"⟩) := by decide
    refine (readAsJson_iff 0 hobject (m := some (.string (ascii "wait"))) (by simp [TopMember, hapart.symm])).mpr
      ⟨fun t ht => ?_, fun hnone => absurd (afterKey_eq_some_iff.mp hkey) (hnone _)⟩
    obtain rfl := Option.some.inj (hkey.symm.trans (afterKey_eq_some_iff.mpr ht))
    refine .inl ⟨_, _, rfl, rfl, ⟨hnil, hnote, hstops rfl (by decide)⟩, ?_, by simp [PlainString]; decide, trivial⟩
    exact (extractJsonBool_iff hkey).not.mp (by decide)
  · have hkey : afterKey (ascii "\x7b\"note\":\"wait\",\"ok\":true\x7d") (ascii "ok") =
        some (Place.text ⟨[], ascii "true", ascii "\x7d"⟩) := by decide
    refine (readAsJson_iff 0 hobject (m := some (.bool true)) (by simp [TopMember, hapart])).mpr
      ⟨fun t ht => ?_, fun hnone => absurd (afterKey_eq_some_iff.mp hkey) (hnone _)⟩
    obtain rfl := Option.some.inj (hkey.symm.trans (afterKey_eq_some_iff.mpr ht))
    refine .inl ⟨_, _, rfl, rfl, ⟨hnil, .true, hstops rfl (by decide)⟩, by simp [PlainBool], ?_, trivial⟩
    exact (extractJsonString_eq_nil_iff hkey).mp (by decide)

/-- A member of the same name in a nested object is read in place of the member: a refusal is taken for a
confirmation. -/
theorem nested_ok_read : ¬ReadAsJson (ascii "\x7b\"note\":\x7b\"ok\":true\x7d,\"ok\":false\x7d")
    (ascii "ok") 0 := by
  intro h
  have hnil : Blank [] := by simp [Blank]
  have hinner : ValueText (ascii "\x7b\"ok\":true\x7d") (.object [(ascii "ok", .bool true)]) :=
    .object (.last hnil (plainName (s := "ok") (by decide)) hnil hnil .true hnil)
  have hobject : ObjectText (ascii "\x7b\"note\":\x7b\"ok\":true\x7d,\"ok\":false\x7d")
      [(ascii "note", .object [(ascii "ok", .bool true)]), (ascii "ok", .bool false)] :=
    ⟨[], _, [], (append_nil _).symm, hnil, hnil,
      .object (.cons hnil (plainName (s := "note") (by decide)) hnil hnil hinner hnil
        (.last hnil (plainName (s := "ok") (by decide)) hnil hnil .false hnil))⟩
  have hmember : TopMember [(ascii "note", .object [(ascii "ok", .bool true)]),
    (ascii "ok", .bool false)] (ascii "ok")
      (some (.bool false)) := by
    have hne : ascii "ok" ≠ ascii "note" := by decide
    simp [TopMember, hne]
  have hread := (h _ _ hobject hmember).1.mp (by decide)
  simp at hread

end LigamentApps.CredentialProvider
