import LigamentApps.Text.JsonGrammar

/-!
# JSON texts are read in one way

Two readings of one text agree: a string ends at its first quote that is not escaped (`StringText.unique`), a
number at the first byte that no number has, and an array or object where its brackets close
(`ValueText.unique`, `ObjectText.unique`). -/

namespace LigamentApps.Text

open List

variable {t r w v : List UInt8} {b c : UInt8} {j : JsonTree}

/-! ## Strings -/

theorem hexValue_quote : hexValue 0x22 = none := by decide

theorem hexUnit_some {a d : UInt8} {u : ℕ} (h : hexUnit a b c d = some u) :
    a ≠ 0x22 ∧ b ≠ 0x22 ∧ c ≠ 0x22 ∧ d ≠ 0x22 := by
  refine ⟨?_, ?_, ?_, ?_⟩ <;> rintro rfl <;> simp [hexUnit, hexValue_quote] at h

theorem escaped_u : escaped 0x75 = none := by decide

theorem lowNext_of_append (h : LowNext (t ++ 0x22 :: r)) : LowNext t := by
  obtain ⟨a, b, c, d, u, rest, heq, hu, hlow⟩ := h
  obtain ⟨ha, hb, hc, hd⟩ := hexUnit_some hu
  match t, heq with
  | [], heq => simp at heq
  | [_], heq => simp at heq
  | [_, _], heq => simp only [cons_append, nil_append, List.cons.injEq] at heq; exact absurd heq.2.2.1.symm ha
  | [_, _, _], heq =>
    simp only [cons_append, nil_append, List.cons.injEq] at heq; exact absurd heq.2.2.2.1.symm hb
  | [_, _, _, _], heq =>
    simp only [cons_append, nil_append, List.cons.injEq] at heq; exact absurd heq.2.2.2.2.1.symm hc
  | [_, _, _, _, _], heq =>
    simp only [cons_append, nil_append, List.cons.injEq] at heq; exact absurd heq.2.2.2.2.2.1.symm hd
  | x₀ :: x₁ :: x₂ :: x₃ :: x₄ :: x₅ :: t, heq =>
    simp only [cons_append, List.cons.injEq] at heq
    obtain ⟨rfl, rfl, rfl, rfl, rfl, rfl, -⟩ := heq
    exact ⟨_, _, _, _, u, t, rfl, hu, hlow⟩

theorem pair_not_lone {high low : ℕ} {a d : UInt8} {t' r' : List UInt8}
    (hpair : isHigh high = true ∧ isLow low = true) (hlow : hexUnit a b c d = some low)
    (heq : t ++ 0x22 :: r = 0x5C :: 0x75 :: a :: b :: c :: d :: t' ++ 0x22 :: r') :
    ¬(isLow high = true ∨ isHigh high = true ∧ ¬LowNext t) := by
  rintro (h | ⟨-, h⟩)
  · have hhigh := hpair.1
    simp only [isHigh, isLow, Bool.and_eq_true, decide_eq_true_eq] at h hhigh
    omega
  · have hnext : LowNext (t ++ 0x22 :: r) := by
      rw [heq]
      exact ⟨a, b, c, d, low, t' ++ 0x22 :: r', rfl, hlow, hpair.2⟩
    exact h (lowNext_of_append hnext)

/-- A string literal ends in one place and has one value. -/
theorem StringText.unique {t' v' r' : List UInt8} (h : StringText t v) (h' : StringText t' v')
    (heq : t ++ 0x22 :: r = t' ++ 0x22 :: r') : t = t' ∧ v = v' ∧ r = r' := by
  -- the first bytes of each kind of character tell it from the others
  induction h generalizing t' v' with
  | nil =>
    cases h' with
    | nil => simpa using heq
    | plain hb => simp [isPlain] at heq hb; simp [← heq.1] at hb
    | escape | unit | pair | lone => simp at heq
  | @plain b t v hb h ih =>
    cases h' with
    | nil | escape | unit | pair | lone => simp at heq; simp [isPlain, heq.1] at hb
    | plain _ h' =>
      simp only [cons_append, List.cons.injEq] at heq
      obtain ⟨rfl, rfl, rfl⟩ := ih h' heq.2
      exact ⟨by rw [heq.1], by rw [heq.1], rfl⟩
  | @escape c b t v hc h ih =>
    cases h' with
    | nil => simp at heq
    | plain hb' => simp at heq; simp [isPlain, ← heq.1] at hb'
    | escape hc' h' =>
      simp only [cons_append, List.cons.injEq, true_and] at heq
      obtain ⟨rfl, heq⟩ := heq
      obtain ⟨rfl, rfl, rfl⟩ := ih h' heq
      rw [hc] at hc'
      exact ⟨rfl, by rw [Option.some.inj hc'], rfl⟩
    | unit | pair | lone => simp at heq; simp [heq.1, escaped_u] at hc
  | @unit a b c d u t v hu hunit h ih =>
    cases h' with
    | nil => simp at heq
    | plain hb' => simp at heq; simp [isPlain, ← heq.1] at hb'
    | escape hc' => simp at heq; simp [← heq.1, escaped_u] at hc'
    | unit hu' _ h' =>
      simp only [cons_append, List.cons.injEq, true_and] at heq
      obtain ⟨rfl, rfl, rfl, rfl, heq⟩ := heq
      obtain ⟨rfl, rfl, rfl⟩ := ih h' heq
      rw [hu] at hu'
      exact ⟨rfl, by rw [Option.some.inj hu'], rfl⟩
    | pair hhigh' _ hpair' =>
      simp only [cons_append, List.cons.injEq, true_and] at heq
      obtain ⟨rfl, rfl, rfl, rfl, heq⟩ := heq
      rw [hu] at hhigh'
      rw [Option.some.inj hhigh', hpair'.1] at hunit
      exact absurd hunit.1 (by simp)
    | lone hu' hlone' =>
      simp only [cons_append, List.cons.injEq, true_and] at heq
      obtain ⟨rfl, rfl, rfl, rfl, heq⟩ := heq
      rw [hu] at hu'
      rw [← Option.some.inj hu', hunit.1, hunit.2] at hlone'
      simp at hlone'
  | @pair a b c d a₁ b₁ c₁ d₁ high low t v hhigh hlow hpair h ih =>
    cases h' with
    | nil => simp at heq
    | plain hb' => simp at heq; simp [isPlain, ← heq.1] at hb'
    | escape hc' => simp at heq; simp [← heq.1, escaped_u] at hc'
    | unit hu' hunit' =>
      simp only [cons_append, List.cons.injEq, true_and] at heq
      obtain ⟨rfl, rfl, rfl, rfl, heq⟩ := heq
      rw [hhigh] at hu'
      rw [← Option.some.inj hu', hpair.1] at hunit'
      exact absurd hunit'.1 (by simp)
    | pair hhigh' hlow' _ h' =>
      simp only [cons_append, List.cons.injEq, true_and] at heq
      obtain ⟨rfl, rfl, rfl, rfl, rfl, rfl, rfl, rfl, heq⟩ := heq
      obtain ⟨rfl, rfl, rfl⟩ := ih h' heq
      rw [hhigh] at hhigh'
      rw [hlow] at hlow'
      exact ⟨rfl, by rw [Option.some.inj hhigh', Option.some.inj hlow'], rfl⟩
    | lone hu' hlone' =>
      simp only [cons_append, List.cons.injEq, true_and] at heq
      obtain ⟨rfl, rfl, rfl, rfl, heq⟩ := heq
      rw [hhigh] at hu'
      rw [← Option.some.inj hu'] at hlone'
      exact absurd hlone' (pair_not_lone hpair hlow heq.symm)
  | @lone a b c d u t v hu hlone h ih =>
    cases h' with
    | nil => simp at heq
    | plain hb' => simp at heq; simp [isPlain, ← heq.1] at hb'
    | escape hc' => simp at heq; simp [← heq.1, escaped_u] at hc'
    | unit hu' hunit' =>
      simp only [cons_append, List.cons.injEq, true_and] at heq
      obtain ⟨rfl, rfl, rfl, rfl, heq⟩ := heq
      rw [hu] at hu'
      rw [Option.some.inj hu', hunit'.1, hunit'.2] at hlone
      simp at hlone
    | pair hhigh' hlow' hpair' =>
      simp only [cons_append, List.cons.injEq, true_and] at heq
      obtain ⟨rfl, rfl, rfl, rfl, heq⟩ := heq
      rw [hu] at hhigh'
      rw [Option.some.inj hhigh'] at hlone
      exact absurd hlone (pair_not_lone hpair' hlow' heq)
    | lone _ _ h' =>
      simp only [cons_append, List.cons.injEq, true_and] at heq
      obtain ⟨rfl, rfl, rfl, rfl, heq⟩ := heq
      obtain ⟨rfl, rfl, rfl⟩ := ih h' heq
      exact ⟨rfl, rfl, rfl⟩

theorem utf8_length_le (n : ℕ) : (utf8 n).length ≤ 4 := by
  unfold utf8
  split_ifs <;> simp

theorem StringText.length_le (h : StringText t v) : v.length ≤ t.length := by
  induction h with
  | nil => simp
  | plain _ _ ih => simpa using ih
  | escape => simp only [length_cons]; omega
  | @unit _ _ _ _ u _ _ _ _ _ ih =>
    have hle := utf8_length_le u
    simp only [length_append, length_cons]; omega
  | @pair _ _ _ _ _ _ _ _ high low _ _ _ _ _ _ ih =>
    have hle := utf8_length_le (paired high low)
    simp only [length_append, length_cons]; omega
  | lone =>
    have hle := utf8_length_le 0xFFFD
    simp only [length_append, length_cons]; omega

theorem StringText.plain_of_length_le (h : StringText t v) (hlen : t.length ≤ v.length) :
    t = v ∧ ∀ b ∈ t, isPlain b = true := by
  induction h with
  | nil => simp
  | plain hb _ ih =>
    obtain ⟨rfl, hplain⟩ := ih (by simpa using hlen)
    exact ⟨rfl, by simpa [hb] using hplain⟩
  | escape _ h =>
    have hle := h.length_le
    simp only [length_cons] at hlen; omega
  | @unit _ _ _ _ u _ _ _ _ h _ =>
    have hle := h.length_le
    have hfour := utf8_length_le u
    simp only [length_append, length_cons] at hlen; omega
  | @pair _ _ _ _ _ _ _ _ high low _ _ _ _ _ h _ =>
    have hle := h.length_le
    have hfour := utf8_length_le (paired high low)
    simp only [length_append, length_cons] at hlen; omega
  | lone _ _ h =>
    have hle := h.length_le
    have hfour := utf8_length_le 0xFFFD
    simp only [length_append, length_cons] at hlen; omega

theorem StringText.eq_of_no_backslash (h : StringText t v) (hback : 0x5C ∉ t) : t = v := by
  induction h with
  | nil => rfl
  | plain _ _ ih => rw [ih fun h => hback (mem_cons_of_mem _ h)]
  | escape | unit | pair | lone => exact absurd mem_cons_self hback

theorem string_of_valueText (h : ValueText t (.string v)) : ∃ u, t = 0x22 :: (u ++ [0x22]) ∧ StringText u v := by
  cases h with
  | string h => exact ⟨_, by simp, h⟩

/-! ## Where a token ends -/

theorem takeWhile_append_stop {α : Type} {p : α → Bool} {t r : List α} (ht : ∀ b ∈ t, p b = true)
    (hr : ∀ b ∈ r.head?, p b = false) : (t ++ r).takeWhile p = t := by
  rw [takeWhile_append_of_pos ht]
  cases r with
  | nil => simp
  | cons b => simp [hr b rfl]

theorem stop_unique {α : Type} {p : α → Bool} {t r t' r' : List α} (ht : ∀ b ∈ t, p b = true)
    (hr : ∀ b ∈ r.head?, p b = false) (ht' : ∀ b ∈ t', p b = true) (hr' : ∀ b ∈ r'.head?, p b = false)
    (heq : t ++ r = t' ++ r') : t = t' ∧ r = r' := by
  have hfirst : t = t' := by
    calc t = (t ++ r).takeWhile p := (takeWhile_append_stop ht hr).symm
      _ = (t' ++ r').takeWhile p := by rw [heq]
      _ = t' := takeWhile_append_stop ht' hr'
  subst hfirst
  exact ⟨rfl, append_cancel_left heq⟩

def isNumberByte (b : UInt8) : Bool := isDigit b || b == 0x2D || b == 0x2B || b == 0x2E || b == 0x65 || b == 0x45

/-- No number goes on here. -/
def Stops (r : List UInt8) : Prop := ∀ b ∈ r.head?, isNumberByte b = false

theorem isNumberByte_of_isDigit (h : isDigit b = true) : isNumberByte b = true := by
  simp [isNumberByte, h]

theorem Digits.bytes (h : Digits t) : ∀ b ∈ t, isNumberByte b = true :=
  fun b hb => isNumberByte_of_isDigit (h.2 b hb)

theorem NumberText.bytes (h : NumberText t) : ∀ b ∈ t, isNumberByte b = true := by
  obtain ⟨sign, int, frac, exp, rfl, hsign, hint, -, hfrac, hexp⟩ := h.parts
  have hs : ∀ b ∈ sign, isNumberByte b = true := by
    rcases hsign with rfl | rfl <;> simp [isNumberByte]
  have hf : ∀ b ∈ frac, isNumberByte b = true := by
    rcases hfrac with rfl | ⟨ds, rfl, hds⟩
    · simp
    · simpa [isNumberByte] using hds.bytes
  have he : ∀ b ∈ exp, isNumberByte b = true := by
    rcases hexp with rfl | ⟨e, s, ds, rfl, he, hs, hds⟩
    · simp
    · have hhead : isNumberByte e = true := by rcases he with rfl | rfl <;> decide
      have hsign : ∀ b ∈ s, isNumberByte b = true := by rcases hs with rfl | rfl | rfl <;> simp [isNumberByte]
      intro b hb
      simp only [cons_append, mem_cons, mem_append] at hb
      rcases hb with rfl | hb | hb
      exacts [hhead, hsign b hb, hds.bytes b hb]
  intro b hb
  simp only [mem_append] at hb
  rcases hb with ((hb | hb) | hb) | hb
  exacts [hs b hb, hint.bytes b hb, hf b hb, he b hb]

theorem NumberText.head (h : NumberText t) : ∃ b u, t = b :: u ∧ (b = 0x2D ∨ isDigit b = true) := by
  obtain ⟨sign, int, frac, exp, rfl, hsign, hint, -, -, -⟩ := h.parts
  rcases hsign with rfl | rfl
  · obtain ⟨b, u, rfl⟩ := exists_cons_of_ne_nil hint.1
    exact ⟨b, u ++ frac ++ exp, by simp, .inr (hint.2 b mem_cons_self)⟩
  · exact ⟨0x2D, int ++ frac ++ exp, by simp, .inl rfl⟩

/-- A byte that a value may start with: no blank and none of the bytes that end one. -/
def startsValue (b : UInt8) : Bool := !isBlank b && b != 0x2C && b != 0x5D && b != 0x7D

theorem valueText_head (h : ValueText t j) : ∃ b u, t = b :: u ∧ startsValue b = true := by
  cases h with
  | null | true | false | string | emptyArray | array | emptyObject | object => exact ⟨_, _, rfl, by decide⟩
  | number h =>
    obtain ⟨b, u, rfl, hb⟩ := h.head
    refine ⟨b, u, rfl, ?_⟩
    rcases hb with rfl | hb
    · decide
    · simp only [isDigit, Bool.and_eq_true, decide_eq_true_eq] at hb
      have h30 : (0x30 : UInt8).toNat ≤ b.toNat := hb.1
      have h39 : b.toNat ≤ (0x39 : UInt8).toNat := hb.2
      have hne : ∀ c : UInt8, c.toNat < 0x30 ∨ 0x39 < c.toNat → b ≠ c := by
        rintro c hc rfl
        simp at h30 h39
        omega
      simp [startsValue, isBlank, hne]

/-- Whatever follows the text `t`, it is read as the value `j` and ends there. -/
def ReadsOnce (t : List UInt8) (j : JsonTree) : Prop :=
  ∀ t' j' r r', ValueText t' j' → Stops r → Stops r' → t ++ r = t' ++ r' → t = t' ∧ j = j' ∧ r = r'

theorem isBlank_of_startsValue (h : startsValue b = true) : isBlank b = false := by
  simp only [startsValue, Bool.and_eq_true, Bool.not_eq_true'] at h
  exact h.1.1.1

theorem startsValue_apart (h : startsValue b = true) (hc : c = 0x2C ∨ c = 0x5D ∨ c = 0x7D) : b ≠ c := by
  rintro rfl
  rcases hc with rfl | rfl | rfl <;> cases h

theorem stops_blank (hw : Blank w) : Stops w := by
  intro b hb
  have hx := hw b (mem_of_mem_head? hb)
  simp only [isBlank, Bool.or_eq_true, beq_iff_eq] at hx
  rcases hx with ((rfl | rfl) | rfl) | rfl <;> decide

theorem stops_blank_cons (hw : Blank w) (hc : c = 0x2C ∨ c = 0x5D ∨ c = 0x7D) : Stops (w ++ c :: r) := by
  intro b hb
  cases w with
  | nil =>
    simp only [nil_append, head?_cons, Option.mem_def, Option.some.injEq] at hb
    subst hb
    rcases hc with rfl | rfl | rfl <;> decide
  | cons => exact stops_blank hw b (by simpa using hb)

theorem blank_unique {w' r' : List UInt8} {b' : UInt8} (hw : Blank w) (hw' : Blank w')
    (hb : isBlank b = false) (hb' : isBlank b' = false) (heq : w ++ b :: r = w' ++ b' :: r') :
    w = w' ∧ b = b' ∧ r = r' := by
  obtain ⟨hfirst, hrest⟩ := stop_unique hw (by simpa using hb) hw' (by simpa using hb') heq
  simp only [List.cons.injEq] at hrest
  exact ⟨hfirst, hrest.1, hrest.2⟩

theorem isBlank_ends (hc : c = 0x2C ∨ c = 0x5D ∨ c = 0x7D) : isBlank c = false := by
  rcases hc with rfl | rfl | rfl <;> decide

theorem item_unique {w₁ w' t' w₁' r' : List UInt8} {j' : JsonTree} {c' : UInt8} (honce : ReadsOnce t j)
    (h : ValueText t j) (h' : ValueText t' j') (hw : Blank w) (hw₁ : Blank w₁) (hw' : Blank w')
    (hw₁' : Blank w₁') (hc : c = 0x2C ∨ c = 0x5D ∨ c = 0x7D) (hc' : c' = 0x2C ∨ c' = 0x5D ∨ c' = 0x7D)
    (heq : w ++ (t ++ (w₁ ++ c :: r)) = w' ++ (t' ++ (w₁' ++ c' :: r'))) :
    w = w' ∧ t = t' ∧ j = j' ∧ w₁ = w₁' ∧ c = c' ∧ r = r' := by
  obtain ⟨b, u, rfl, hb⟩ := valueText_head h
  obtain ⟨b', u', rfl, hb'⟩ := valueText_head h'
  obtain ⟨rfl, rfl, hrest⟩ := blank_unique hw hw' (isBlank_of_startsValue hb) (isBlank_of_startsValue hb') heq
  have hvalue : b :: u ++ (w₁ ++ c :: r) = b :: u' ++ (w₁' ++ c' :: r') := by simpa using hrest
  obtain ⟨hu, rfl, hafter⟩ := honce _ _ _ _ h' (stops_blank_cons hw₁ hc) (stops_blank_cons hw₁' hc') hvalue
  obtain ⟨rfl, rfl, rfl⟩ := blank_unique hw₁ hw₁' (isBlank_ends hc) (isBlank_ends hc') hafter
  exact ⟨rfl, hu, rfl, rfl, rfl, rfl⟩

theorem elements_unique {n : ℕ} (hvalues : ∀ t j, t.length ≤ n → ValueText t j →
    ReadsOnce t j) {ts ts' : List UInt8}
    {js js' : List JsonTree} {r r' : List UInt8} (h : ElementsText ts js) (h' : ElementsText ts' js')
    (hn : ts.length ≤ n) (heq : ts ++ 0x5D :: r = ts' ++ 0x5D :: r') : ts = ts' ∧ js = js' ∧ r = r' := by
  match h, h' with
  | @ElementsText.last w t w₁ j hw h hw₁, @ElementsText.last w' t' w₁' j' hw' h' hw₁' =>
    have honce := hvalues t j (by simp at hn; omega) h
    obtain ⟨rfl, rfl, rfl, rfl, -, rfl⟩ :=
      item_unique honce h h' hw hw₁ hw' hw₁' (.inr (.inl rfl)) (.inr (.inl rfl)) (by simpa using heq)
    exact ⟨rfl, rfl, rfl⟩
  | @ElementsText.last w t w₁ j hw h hw₁, @ElementsText.cons w' t' w₁' ts' j' js' hw' h' hw₁' hs' =>
    have honce := hvalues t j (by simp at hn; omega) h
    obtain ⟨-, -, -, -, hc, -⟩ :=
      item_unique honce h h' hw hw₁ hw' hw₁' (.inr (.inl rfl)) (.inl rfl) (by simpa using heq)
    cases hc
  | @ElementsText.cons w t w₁ ts j js hw h hw₁ hs, @ElementsText.last w' t' w₁' j' hw' h' hw₁' =>
    have honce := hvalues t j (by simp at hn; omega) h
    obtain ⟨-, -, -, -, hc, -⟩ :=
      item_unique honce h h' hw hw₁ hw' hw₁' (.inl rfl) (.inr (.inl rfl)) (by simpa using heq)
    cases hc
  | @ElementsText.cons w t w₁ ts j js hw h hw₁ hs, @ElementsText.cons w' t' w₁' ts' j' js' hw' h' hw₁' hs' =>
    have honce := hvalues t j (by simp at hn; omega) h
    obtain ⟨rfl, rfl, rfl, rfl, -, hrest⟩ :=
      item_unique honce h h' hw hw₁ hw' hw₁' (.inl rfl) (.inl rfl) (by simpa using heq)
    obtain ⟨rfl, rfl, rfl⟩ := elements_unique hvalues hs hs' (by simp at hn; omega) hrest
    exact ⟨rfl, rfl, rfl⟩
termination_by ts.length

theorem member_unique {n name w₀ w₁ w₂ w' n' name' w₀' w₁' t' w₂' r' : List UInt8} {j' : JsonTree}
    {c' : UInt8} (honce : ReadsOnce t j) (h : ValueText t j) (h' : ValueText t' j')
    (hn : StringText n name) (hn' : StringText n' name') (hw : Blank w) (hw₀ : Blank w₀) (hw₁ : Blank w₁)
    (hw₂ : Blank w₂) (hw' : Blank w') (hw₀' : Blank w₀') (hw₁' : Blank w₁') (hw₂' : Blank w₂')
    (hc : c = 0x2C ∨ c = 0x5D ∨ c = 0x7D) (hc' : c' = 0x2C ∨ c' = 0x5D ∨ c' = 0x7D)
    (heq : w ++ 0x22 :: (n ++ 0x22 :: (w₀ ++ 0x3A :: (w₁ ++ (t ++ (w₂ ++ c :: r))))) =
      w' ++ 0x22 :: (n' ++ 0x22 :: (w₀' ++ 0x3A :: (w₁' ++ (t' ++ (w₂' ++ c' :: r')))))) :
    (w = w' ∧ n = n' ∧ w₀ = w₀' ∧ w₁ = w₁' ∧ t = t' ∧ w₂ = w₂') ∧ name = name' ∧ j = j' ∧ c = c' ∧ r = r' := by
  obtain ⟨rfl, -, hname⟩ := blank_unique hw hw' (by decide) (by decide) heq
  obtain ⟨rfl, rfl, hcolon⟩ := hn.unique hn' hname
  obtain ⟨rfl, -, hitem⟩ := blank_unique hw₀ hw₀' (by decide) (by decide) hcolon
  obtain ⟨rfl, rfl, rfl, rfl, rfl, rfl⟩ := item_unique honce h h' hw₁ hw₂ hw₁' hw₂' hc hc' hitem
  exact ⟨⟨rfl, rfl, rfl, rfl, rfl, rfl⟩, rfl, rfl, rfl, rfl⟩

theorem members_unique {m : ℕ} (hvalues : ∀ t j, t.length ≤ m → ValueText t j → ReadsOnce t j) {ts ts' : List UInt8}
    {ms ms' : List (List UInt8 × JsonTree)} {r r' : List UInt8} (h : MembersText ts ms) (h' : MembersText ts' ms')
    (hm : ts.length ≤ m) (heq : ts ++ 0x7D :: r = ts' ++ 0x7D :: r') : ts = ts' ∧ ms = ms' ∧ r = r' := by
  match h, h' with
  | @MembersText.last w n name w₀ w₁ t w₂ j hw hn hw₀ hw₁ h hw₂,
    @MembersText.last w' n' name' w₀' w₁' t' w₂' j' hw' hn' hw₀' hw₁' h' hw₂' =>
    have honce := hvalues t j (by simp at hm; omega) h
    obtain ⟨⟨rfl, rfl, rfl, rfl, rfl, rfl⟩, rfl, rfl, -, rfl⟩ :=
      member_unique honce h h' hn hn' hw hw₀ hw₁ hw₂ hw' hw₀' hw₁' hw₂' (.inr (.inr rfl)) (.inr (.inr rfl))
        (by simpa using heq)
    exact ⟨rfl, rfl, rfl⟩
  | @MembersText.last w n name w₀ w₁ t w₂ j hw hn hw₀ hw₁ h hw₂,
    @MembersText.cons w' n' name' w₀' w₁' t' w₂' ts' j' ms' hw' hn' hw₀' hw₁' h' hw₂' hs' =>
    have honce := hvalues t j (by simp at hm; omega) h
    obtain ⟨-, -, -, hc, -⟩ :=
      member_unique honce h h' hn hn' hw hw₀ hw₁ hw₂ hw' hw₀' hw₁' hw₂' (Or.inr (Or.inr rfl)) (Or.inl rfl)
        (by simpa using heq)
    cases hc
  | @MembersText.cons w n name w₀ w₁ t w₂ ts j ms hw hn hw₀ hw₁ h hw₂ hs,
    @MembersText.last w' n' name' w₀' w₁' t' w₂' j' hw' hn' hw₀' hw₁' h' hw₂' =>
    have honce := hvalues t j (by simp at hm; omega) h
    obtain ⟨-, -, -, hc, -⟩ :=
      member_unique honce h h' hn hn' hw hw₀ hw₁ hw₂ hw' hw₀' hw₁' hw₂' (Or.inl rfl) (Or.inr (Or.inr rfl))
        (by simpa using heq)
    cases hc
  | @MembersText.cons w n name w₀ w₁ t w₂ ts j ms hw hn hw₀ hw₁ h hw₂ hs,
    @MembersText.cons w' n' name' w₀' w₁' t' w₂' ts' j' ms' hw' hn' hw₀' hw₁' h' hw₂' hs' =>
    have honce := hvalues t j (by simp at hm; omega) h
    obtain ⟨⟨rfl, rfl, rfl, rfl, rfl, rfl⟩, rfl, rfl, -, hrest⟩ :=
      member_unique honce h h' hn hn' hw hw₀ hw₁ hw₂ hw' hw₀' hw₁' hw₂' (.inl rfl) (.inl rfl) (by simpa using heq)
    obtain ⟨rfl, rfl, rfl⟩ := members_unique hvalues hs hs' (by simp at hm; omega) hrest
    exact ⟨rfl, rfl, rfl⟩
termination_by ts.length

theorem number_head_apart {s : List UInt8} (h : NumberText t) (hb : isNumberByte b = false)
    (heq : t ++ r = b :: s) : False := by
  obtain ⟨c, u, rfl, -⟩ := h.head
  have hc := h.bytes c mem_cons_self
  cases heq
  rw [hb] at hc
  exact Bool.false_ne_true hc

theorem elements_not_empty {ts r' : List UInt8} {js : List JsonTree} (h : ElementsText ts js)
    (hw : Blank w) (heq : ts ++ r = w ++ 0x5D :: r') : False := by
  cases h with
  | @last w' t w₁ j hw' h hw₁ =>
    obtain ⟨b, u, rfl, hb⟩ := valueText_head h
    obtain ⟨-, hne, -⟩ := blank_unique hw' hw (isBlank_of_startsValue hb) (isBlank_ends (Or.inr (Or.inl rfl)))
      (show w' ++ b :: (u ++ w₁ ++ r) = _ by simpa using heq)
    exact startsValue_apart hb (.inr (.inl rfl)) hne
  | @cons w' t w₁ ts j js hw' h hw₁ hs =>
    obtain ⟨b, u, rfl, hb⟩ := valueText_head h
    obtain ⟨-, hne, -⟩ := blank_unique hw' hw (isBlank_of_startsValue hb) (isBlank_ends (Or.inr (Or.inl rfl)))
      (show w' ++ b :: (u ++ w₁ ++ 0x2C :: ts ++ r) = _ by simpa using heq)
    exact startsValue_apart hb (.inr (.inl rfl)) hne

theorem members_not_empty {ts r' : List UInt8} {ms : List (List UInt8 × JsonTree)} (h : MembersText ts ms)
    (hw : Blank w) (heq : ts ++ r = w ++ 0x7D :: r') : False := by
  cases h with
  | @last w' n name w₀ w₁ t w₂ j hw' hn hw₀ hw₁ h hw₂ =>
    obtain ⟨-, hne, -⟩ := blank_unique hw' hw (by decide) (isBlank_ends (Or.inr (Or.inr rfl)))
      (show w' ++ 0x22 :: (n ++ 0x22 :: w₀ ++ 0x3A :: w₁ ++ t ++ w₂ ++ r) = _ by simpa using heq)
    cases hne
  | @cons w' n name w₀ w₁ t w₂ ts j ms hw' hn hw₀ hw₁ h hw₂ hs =>
    obtain ⟨-, hne, -⟩ := blank_unique hw' hw (by decide) (isBlank_ends (Or.inr (Or.inr rfl)))
      (show w' ++ 0x22 :: (n ++ 0x22 :: w₀ ++ 0x3A :: w₁ ++ t ++ w₂ ++ 0x2C :: ts ++ r) = _ by simpa using heq)
    cases hne

/-- A text of a value is read to its end and to that value alone. -/
theorem readsOnce (h : ValueText t j) : ReadsOnce t j := by
  -- by the length of the text: what stands between brackets is shorter
  have hall : ∀ m, ∀ t j, t.length ≤ m → ValueText t j → ReadsOnce t j := by
    intro m
    induction m with
    | zero =>
      intro t j hlen h
      obtain ⟨b, u, rfl, -⟩ := valueText_head h
      simp at hlen
    | succ _ ih =>
      intro t j hlen h t' j' r r' h' hr hr' heq
      cases h with
      | null =>
        cases h' with
        | null => exact ⟨rfl, rfl, by simpa using heq⟩
        | number h' => exact (number_head_apart h' (by decide) heq.symm).elim
        | true | false | string | emptyArray | array | emptyObject | object => simp at heq
      | true =>
        cases h' with
        | true => exact ⟨rfl, rfl, by simpa using heq⟩
        | number h' => exact (number_head_apart h' (by decide) heq.symm).elim
        | null | false | string | emptyArray | array | emptyObject | object => simp at heq
      | false =>
        cases h' with
        | false => exact ⟨rfl, rfl, by simpa using heq⟩
        | number h' => exact (number_head_apart h' (by decide) heq.symm).elim
        | null | true | string | emptyArray | array | emptyObject | object => simp at heq
      | number h =>
        cases h' with
        | number h' =>
          obtain ⟨rfl, rfl⟩ := stop_unique h.bytes hr h'.bytes hr' heq
          exact ⟨rfl, rfl, rfl⟩
        | null | true | false | string | emptyArray | array | emptyObject | object =>
          exact (number_head_apart h (by decide) heq).elim
      | string h =>
        cases h' with
        | string h' =>
          obtain ⟨rfl, rfl, rfl⟩ := h.unique h' (by simpa using heq)
          exact ⟨rfl, rfl, rfl⟩
        | number h' => exact (number_head_apart h' (by decide) heq.symm).elim
        | null | true | false | emptyArray | array | emptyObject | object => simp at heq
      | emptyArray hw =>
        cases h' with
        | emptyArray hw' =>
          obtain ⟨rfl, -, rfl⟩ := blank_unique hw hw' (isBlank_ends (Or.inr (Or.inl rfl)))
            (isBlank_ends (.inr (.inl rfl)))
            (by simpa using heq)
          exact ⟨rfl, rfl, rfl⟩
        | array h' => exact (elements_not_empty h' hw (by simpa using heq.symm)).elim
        | number h' => exact (number_head_apart h' (by decide) heq.symm).elim
        | null | true | false | string | emptyObject | object => simp at heq
      | array h =>
        cases h' with
        | emptyArray hw' => exact (elements_not_empty h hw' (by simpa using heq)).elim
        | array h' =>
          obtain ⟨rfl, rfl, rfl⟩ := elements_unique ih h h' (by simp at hlen; omega) (by simpa using heq)
          exact ⟨rfl, rfl, rfl⟩
        | number h' => exact (number_head_apart h' (by decide) heq.symm).elim
        | null | true | false | string | emptyObject | object => simp at heq
      | emptyObject hw =>
        cases h' with
        | emptyObject hw' =>
          obtain ⟨rfl, -, rfl⟩ := blank_unique hw hw' (isBlank_ends (Or.inr (Or.inr rfl)))
            (isBlank_ends (.inr (.inr rfl)))
            (by simpa using heq)
          exact ⟨rfl, rfl, rfl⟩
        | object h' => exact (members_not_empty h' hw (by simpa using heq.symm)).elim
        | number h' => exact (number_head_apart h' (by decide) heq.symm).elim
        | null | true | false | string | emptyArray | array => simp at heq
      | object h =>
        cases h' with
        | emptyObject hw' => exact (members_not_empty h hw' (by simpa using heq)).elim
        | object h' =>
          obtain ⟨rfl, rfl, rfl⟩ := members_unique ih h h' (by simp at hlen; omega) (by simpa using heq)
          exact ⟨rfl, rfl, rfl⟩
        | number h' => exact (number_head_apart h' (by decide) heq.symm).elim
        | null | true | false | string | emptyArray | array => simp at heq
  exact hall t.length t j le_rfl h

theorem ObjectText.unique {ms ms' : List (List UInt8 × JsonTree)} (h : ObjectText t ms)
    (h' : ObjectText t ms') : ms = ms' := by
  obtain ⟨w, body, w₁, rfl, hw, hw₁, hbody⟩ := h
  obtain ⟨w', body', w₁', heq, hw', hw₁', hbody'⟩ := h'
  obtain ⟨b, u, rfl, hb⟩ := valueText_head hbody
  obtain ⟨b', u', rfl, hb'⟩ := valueText_head hbody'
  obtain ⟨rfl, rfl, hrest⟩ := blank_unique hw hw' (isBlank_of_startsValue hb) (isBlank_of_startsValue hb')
    (show w ++ b :: (u ++ w₁) = w' ++ b' :: (u' ++ w₁') by simpa using heq)
  obtain ⟨-, hsame, -⟩ := readsOnce hbody _ _ w₁ w₁' hbody' (stops_blank hw₁) (stops_blank hw₁')
    (by simpa using hrest)
  exact JsonTree.object.inj hsame

end LigamentApps.Text
