import Mathlib.Algebra.Ring.Nat
import Mathlib.Data.List.Basic

/-!
# The grammar of JSON

JSON texts as bytes, by the rules of their grammar: `ValueText t j` says that the text `t` reads as the value
`j`, with any blanks between the tokens and any escapes in the strings. The bytes of a string are taken as
UTF-8 as they stand. A number keeps its text.

A text is read in one way only, which `LigamentApps.Text.JsonReading` proves. -/

namespace LigamentApps.Text

/-- A byte that may stand between two tokens. -/
def isBlank (b : UInt8) : Bool := b == 0x20 || b == 0x09 || b == 0x0A || b == 0x0D

def Blank (bs : List UInt8) : Prop := ∀ b ∈ bs, isBlank b = true

/-! ## Strings -/

/-- A byte that stands for itself in a string: no quote, no backslash and no control character. -/
def isPlain (b : UInt8) : Bool := 0x20 ≤ b && b != 0x22 && b != 0x5C

/-- What a backslash and this byte stand for. -/
def escaped (c : UInt8) : Option UInt8 :=
  if c = 0x22 then some 0x22
  else if c = 0x5C then some 0x5C
  else if c = 0x2F then some 0x2F
  else if c = 0x62 then some 0x08
  else if c = 0x66 then some 0x0C
  else if c = 0x6E then some 0x0A
  else if c = 0x72 then some 0x0D
  else if c = 0x74 then some 0x09
  else none

/-- The value of a hexadecimal digit. -/
def hexValue (c : UInt8) : Option ℕ :=
  if 0x30 ≤ c ∧ c ≤ 0x39 then some (c.toNat - 0x30)
  else if 0x61 ≤ c ∧ c ≤ 0x66 then some (c.toNat - 0x57)
  else if 0x41 ≤ c ∧ c ≤ 0x46 then some (c.toNat - 0x37)
  else none

/-- The UTF-16 unit of four hexadecimal digits. -/
def hexUnit (a b c d : UInt8) : Option ℕ := do
  return 0x1000 * (← hexValue a) + 0x100 * (← hexValue b) + 0x10 * (← hexValue c) + (← hexValue d)

def isHigh (u : ℕ) : Bool := 0xD800 ≤ u && u < 0xDC00

def isLow (u : ℕ) : Bool := 0xDC00 ≤ u && u < 0xE000

/-- The character of a surrogate pair. -/
def paired (high low : ℕ) : ℕ := 0x10000 + 0x400 * (high - 0xD800) + (low - 0xDC00)

/-- The UTF-8 bytes of a code point. -/
def utf8 (n : ℕ) : List UInt8 :=
  if n < 0x80 then [n.toUInt8]
  else if n < 0x800 then [(0xC0 + n / 0x40).toUInt8, (0x80 + n % 0x40).toUInt8]
  else if n < 0x10000 then
    [(0xE0 + n / 0x1000).toUInt8, (0x80 + n / 0x40 % 0x40).toUInt8, (0x80 + n % 0x40).toUInt8]
  else
    [(0xF0 + n / 0x40000).toUInt8, (0x80 + n / 0x1000 % 0x40).toUInt8, (0x80 + n / 0x40 % 0x40).toUInt8,
      (0x80 + n % 0x40).toUInt8]

/-- The text goes on with an escaped low surrogate. -/
def LowNext (t : List UInt8) : Prop :=
  ∃ a b c d u rest, t = 0x5C :: 0x75 :: a :: b :: c :: d :: rest ∧ hexUnit a b c d = some u ∧ isLow u = true

/-- `StringText t v`: between its quotes, `t` is written for the bytes `v`. A surrogate without its partner
stands for the replacement character. -/
inductive StringText : List UInt8 → List UInt8 → Prop
  | nil : StringText [] []
  | plain {b : UInt8} {t v : List UInt8} (hb : isPlain b = true) (h : StringText t v) : StringText (b :: t) (b :: v)
  | escape {c b : UInt8} {t v : List UInt8} (hc : escaped c = some b) (h : StringText t v) :
    StringText (0x5C :: c :: t) (b :: v)
  | unit {a b c d : UInt8} {u : ℕ} {t v : List UInt8} (hu : hexUnit a b c d = some u)
    (hunit : isHigh u = false ∧ isLow u = false) (h : StringText t v) :
    StringText (0x5C :: 0x75 :: a :: b :: c :: d :: t) (utf8 u ++ v)
  | pair {a b c d a' b' c' d' : UInt8} {high low : ℕ} {t v : List UInt8} (hhigh : hexUnit a b c d = some high)
    (hlow : hexUnit a' b' c' d' = some low) (hpair : isHigh high = true ∧ isLow low = true) (h : StringText t v) :
    StringText (0x5C :: 0x75 :: a :: b :: c :: d :: 0x5C :: 0x75 :: a' :: b' :: c' :: d' :: t)
      (utf8 (paired high low) ++ v)
  | lone {a b c d : UInt8} {u : ℕ} {t v : List UInt8} (hu : hexUnit a b c d = some u)
    (hlone : isLow u = true ∨ isHigh u = true ∧ ¬LowNext t) (h : StringText t v) :
    StringText (0x5C :: 0x75 :: a :: b :: c :: d :: t) (utf8 0xFFFD ++ v)

def isDigit (b : UInt8) : Bool := 0x30 ≤ b && b ≤ 0x39

def Digits (t : List UInt8) : Prop := t ≠ [] ∧ ∀ b ∈ t, isDigit b = true

/-- The text of a number: a sign, the digits before the point, the fraction and the exponent. -/
structure NumberText (t : List UInt8) : Prop where
  parts : ∃ sign int frac exp, t = sign ++ int ++ frac ++ exp ∧ (sign = [] ∨ sign = [0x2D]) ∧ Digits int ∧
    (int.head? = some 0x30 → int = [0x30]) ∧ (frac = [] ∨ ∃ ds, frac = 0x2E :: ds ∧ Digits ds) ∧
    (exp = [] ∨ ∃ e s ds, exp = e :: s ++ ds ∧ (e = 0x65 ∨ e = 0x45) ∧
      (s = [] ∨ s = [0x2B] ∨ s = [0x2D]) ∧ Digits ds)

inductive JsonTree
  | null
  | bool (b : Bool)
  | number (text : List UInt8)
  | string (value : List UInt8)
  | array (elements : List JsonTree)
  | object (members : List (List UInt8 × JsonTree))

mutual

/-- `ValueText t j`: the text `t` reads as the value `j`. -/
inductive ValueText : List UInt8 → JsonTree → Prop
  | null : ValueText [0x6E, 0x75, 0x6C, 0x6C] .null
  | true : ValueText [0x74, 0x72, 0x75, 0x65] (.bool true)
  | false : ValueText [0x66, 0x61, 0x6C, 0x73, 0x65] (.bool false)
  | number {t : List UInt8} (h : NumberText t) : ValueText t (.number t)
  | string {t v : List UInt8} (h : StringText t v) : ValueText (0x22 :: t ++ [0x22]) (.string v)
  | emptyArray {w : List UInt8} (hw : Blank w) : ValueText (0x5B :: w ++ [0x5D]) (.array [])
  | array {t : List UInt8} {js : List JsonTree} (h : ElementsText t js) : ValueText (0x5B :: t ++ [0x5D])
    (.array js)
  | emptyObject {w : List UInt8} (hw : Blank w) : ValueText (0x7B :: w ++ [0x7D]) (.object [])
  | object {t : List UInt8} {ms : List (List UInt8 × JsonTree)} (h : MembersText t ms) :
    ValueText (0x7B :: t ++ [0x7D]) (.object ms)

/-- The elements of an array, one or more. -/
inductive ElementsText : List UInt8 → List JsonTree → Prop
  | last {w t w' : List UInt8} {j : JsonTree} (hw : Blank w) (h : ValueText t j) (hw' : Blank w') :
    ElementsText (w ++ t ++ w') [j]
  | cons {w t w' ts : List UInt8} {j : JsonTree} {js : List JsonTree} (hw : Blank w) (h : ValueText t j)
    (hw' : Blank w') (hs : ElementsText ts js) : ElementsText (w ++ t ++ w' ++ 0x2C :: ts) (j :: js)

/-- The members of an object, one or more: each a name, a colon and a value. -/
inductive MembersText : List UInt8 → List (List UInt8 × JsonTree) → Prop
  | last {w n name w₁ w₂ t w₃ : List UInt8} {j : JsonTree} (hw : Blank w) (hn : StringText n name)
    (hw₁ : Blank w₁) (hw₂ : Blank w₂) (h : ValueText t j) (hw₃ : Blank w₃) :
    MembersText (w ++ 0x22 :: n ++ 0x22 :: w₁ ++ 0x3A :: w₂ ++ t ++ w₃) [(name, j)]
  | cons {w n name w₁ w₂ t w₃ ts : List UInt8} {j : JsonTree} {ms : List (List UInt8 × JsonTree)} (hw : Blank w)
    (hn : StringText n name) (hw₁ : Blank w₁) (hw₂ : Blank w₂) (h : ValueText t j) (hw₃ : Blank w₃)
    (hs : MembersText ts ms) :
    MembersText (w ++ 0x22 :: n ++ 0x22 :: w₁ ++ 0x3A :: w₂ ++ t ++ w₃ ++ 0x2C :: ts) ((name, j) :: ms)

end

/-- A text, with blanks around it, that reads as an object. -/
def ObjectText (t : List UInt8) (members : List (List UInt8 × JsonTree)) : Prop :=
  ∃ w body w', t = w ++ body ++ w' ∧ Blank w ∧ Blank w' ∧ ValueText body (.object members)

theorem stringText_plain : ∀ {t : List UInt8}, (∀ b ∈ t, isPlain b = true) → StringText t t
  | [], _ => .nil
  | b :: _, h => .plain (h b List.mem_cons_self) (stringText_plain fun c hc => h c (List.mem_cons_of_mem b hc))

end LigamentApps.Text
