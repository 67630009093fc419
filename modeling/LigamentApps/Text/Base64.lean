import Mathlib.Algebra.Ring.Int.Defs
import Mathlib.Algebra.Ring.Nat
import Mathlib.Data.List.Basic

/-!
# Base64

The text of bytes in groups of three, and its decoder, which takes the digits of the alphabet for URLs too,
wants the padding, and takes `%3D` for a character of it. What was encoded is decoded again
(`decode_encode`). -/

namespace LigamentApps.Base64

open List Option

/-- The digit of a value below 64. -/
def digit (v : ℕ) : Char :=
  if v < 26 then .ofNat (v + 65)
  else if v < 52 then .ofNat (v - 26 + 97)
  else if v < 62 then .ofNat (v - 52 + 48)
  else if v = 62 then '+'
  else '/'

def value (c : Char) : Option ℕ :=
  if 'A' ≤ c ∧ c ≤ 'Z' then some (c.toNat - 65)
  else if 'a' ≤ c ∧ c ≤ 'z' then some (c.toNat - 97 + 26)
  else if '0' ≤ c ∧ c ≤ '9' then some (c.toNat - 48 + 52)
  else if c = '+' ∨ c = '-' then some 62
  else if c = '/' ∨ c = '_' then some 63
  else none

def encodeChars : List UInt8 → List Char
  | a :: b :: c :: rest =>
    digit (a.toNat / 4) :: digit (a.toNat % 4 * 16 + b.toNat / 16) :: digit (b.toNat % 16 * 4 + c.toNat / 64) ::
      digit (c.toNat % 64) :: encodeChars rest
  | [a, b] => [digit (a.toNat / 4), digit (a.toNat % 4 * 16 + b.toNat / 16), digit (b.toNat % 16 * 4), '=']
  | [a] => [digit (a.toNat / 4), digit (a.toNat % 4 * 16), '=', '=']
  | [] => []

/-- The text of bytes. -/
def encode (bytes : List UInt8) : String := .ofList (encodeChars bytes)

/-- A group with two characters of padding; the bits that are left are zero. -/
def decodeOne (w x : Char) : Option (List UInt8) := do
  let w ← value w
  let x ← value x
  if x % 16 = 0 then some [.ofNat (w * 4 + x / 16)] else none

/-- A group with one character of padding. -/
def decodeTwo (w x y : Char) : Option (List UInt8) := do
  let w ← value w
  let x ← value x
  let y ← value y
  if y % 4 = 0 then some [.ofNat (w * 4 + x / 16), .ofNat (x % 16 * 16 + y / 4)] else none

/-- A whole group. -/
def decodeThree (w x y z : Char) : Option (List UInt8) := do
  let w ← value w
  let x ← value x
  let y ← value y
  let z ← value z
  return [.ofNat (w * 4 + x / 16), .ofNat (x % 16 * 16 + y / 4), .ofNat (y % 4 * 64 + z)]

def decodeChars : List Char → Option (List UInt8)
  | [] => some []
  | w :: x :: y :: z :: rest =>
    if z = '=' then
      if rest ≠ [] then none
      else if y = '=' then decodeOne w x
      else decodeTwo w x y
    else do
      let bytes ← decodeThree w x y z
      return bytes ++ (← decodeChars rest)
  | _ => none

/-- `%3D` is a character of padding. -/
def unescapePadding : List Char → List Char
  | c :: three :: d :: rest =>
    if c = '%' ∧ three = '3' ∧ (d = 'D' ∨ d = 'd') then '=' :: unescapePadding rest
    else c :: unescapePadding (three :: d :: rest)
  | rest => rest

/-- The bytes of a text. -/
def decode (text : String) : Option (List UInt8) := decodeChars (unescapePadding text.toList)

theorem value_digit : ∀ v < 64, value (digit v) = some v := by decide

theorem digit_ne : ∀ v < 64, digit v ≠ '=' ∧ digit v ≠ '%' := by decide

theorem decodeOne_digit (a : UInt8) : decodeOne (digit (a.toNat / 4)) (digit (a.toNat % 4 * 16)) = some [a] := by
  have ha := a.toNat_lt
  have hbyte : a.toNat / 4 * 4 + a.toNat % 4 * 16 / 16 = a.toNat := by omega
  unfold decodeOne
  rw [value_digit _ (by omega), value_digit _ (by omega)]
  simp only [bind_eq_bind, bind_some]
  rw [if_pos (by omega), hbyte, UInt8.ofNat_toNat]

theorem decodeTwo_digit (a b : UInt8) :
    decodeTwo (digit (a.toNat / 4)) (digit (a.toNat % 4 * 16 + b.toNat / 16)) (digit (b.toNat % 16 * 4)) =
      some [a, b] := by
  have ha := a.toNat_lt
  have hb := b.toNat_lt
  have hfirst : a.toNat / 4 * 4 + (a.toNat % 4 * 16 + b.toNat / 16) / 16 = a.toNat := by omega
  have hsecond : (a.toNat % 4 * 16 + b.toNat / 16) % 16 * 16 + b.toNat % 16 * 4 / 4 = b.toNat := by omega
  unfold decodeTwo
  rw [value_digit _ (by omega), value_digit _ (by omega), value_digit _ (by omega)]
  simp only [bind_eq_bind, bind_some]
  rw [if_pos (by omega), hfirst, hsecond, UInt8.ofNat_toNat, UInt8.ofNat_toNat]

theorem decodeThree_digit (a b c : UInt8) : decodeThree (digit (a.toNat / 4))
    (digit (a.toNat % 4 * 16 + b.toNat / 16))
      (digit (b.toNat % 16 * 4 + c.toNat / 64)) (digit (c.toNat % 64)) = some [a, b, c] := by
  have ha := a.toNat_lt
  have hb := b.toNat_lt
  have hc := c.toNat_lt
  have hfirst : a.toNat / 4 * 4 + (a.toNat % 4 * 16 + b.toNat / 16) / 16 = a.toNat := by omega
  have hsecond : (a.toNat % 4 * 16 + b.toNat / 16) % 16 * 16 + (b.toNat % 16 * 4 + c.toNat / 64) / 4 = b.toNat := by
    omega
  have hthird : (b.toNat % 16 * 4 + c.toNat / 64) % 4 * 64 + c.toNat % 64 = c.toNat := by omega
  unfold decodeThree
  rw [value_digit _ (by omega), value_digit _ (by omega), value_digit _ (by omega), value_digit _ (by omega)]
  simp only [bind_eq_bind, bind_some, Option.pure_def]
  rw [hfirst, hsecond, hthird, UInt8.ofNat_toNat, UInt8.ofNat_toNat, UInt8.ofNat_toNat]

theorem decodeChars_encodeChars : ∀ bytes : List UInt8, decodeChars (encodeChars bytes) = some bytes
  | [] => rfl
  | [a] => by
    rw [encodeChars, decodeChars, if_pos rfl, if_neg (by simp), if_pos rfl]
    exact decodeOne_digit a
  | [a, b] => by
    rw [encodeChars, decodeChars, if_pos rfl, if_neg (by simp), if_neg (digit_ne _ (by omega)).1]
    exact decodeTwo_digit a b
  | a :: b :: c :: rest => by
    rw [encodeChars, decodeChars, if_neg (digit_ne _ (by omega)).1, decodeThree_digit, decodeChars_encodeChars rest]
    rfl

theorem ne_percent_of_mem : ∀ (bytes : List UInt8), ∀ c ∈ encodeChars bytes, c ≠ '%'
  | [], c, hc => absurd hc (by simp [encodeChars])
  | [a], c, hc => by
    have ha := a.toNat_lt
    simp only [encodeChars, mem_cons, not_mem_nil, or_false] at hc
    obtain rfl | rfl | rfl | rfl := hc
    · exact (digit_ne _ (by omega)).2
    · exact (digit_ne _ (by omega)).2
    · decide
    · decide
  | [a, b], c, hc => by
    have ha := a.toNat_lt
    have hb := b.toNat_lt
    simp only [encodeChars, mem_cons, not_mem_nil, or_false] at hc
    obtain rfl | rfl | rfl | rfl := hc
    · exact (digit_ne _ (by omega)).2
    · exact (digit_ne _ (by omega)).2
    · exact (digit_ne _ (by omega)).2
    · decide
  | a :: b :: d :: rest, c, hc => by
    have ha := a.toNat_lt
    have hb := b.toNat_lt
    have hd := d.toNat_lt
    simp only [encodeChars, mem_cons] at hc
    obtain rfl | rfl | rfl | rfl | hc := hc
    · exact (digit_ne _ (by omega)).2
    · exact (digit_ne _ (by omega)).2
    · exact (digit_ne _ (by omega)).2
    · exact (digit_ne _ (by omega)).2
    · exact ne_percent_of_mem rest c hc

theorem unescapePadding_eq (cs : List Char) (h : ∀ c ∈ cs, c ≠ '%') : unescapePadding cs = cs := by
  induction cs using unescapePadding.induct with
  | case1 c _ _ _ hescaped => exact absurd hescaped.1 (h c mem_cons_self)
  | case2 c _ _ _ hescaped ih =>
    rw [unescapePadding, if_neg hescaped, ih fun e he => h e (mem_cons_of_mem c he)]
  | case3 _ hrest =>
    unfold unescapePadding
    split
    · exact absurd rfl (hrest _ _ _ _)
    · rfl

theorem decode_encode (bytes : List UInt8) : decode (encode bytes) = some bytes := by
  unfold decode encode
  rw [String.toList_ofList, unescapePadding_eq _ (ne_percent_of_mem bytes)]
  exact decodeChars_encodeChars bytes

theorem encode_ne_empty {bytes : List UInt8} (h : bytes ≠ []) : encode bytes ≠ "" := by
  intro hempty
  have hdecoded := decode_encode bytes
  rw [hempty] at hdecoded
  exact h (Option.some.inj hdecoded).symm

end LigamentApps.Base64
