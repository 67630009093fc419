import LigamentApps.Text.Json

/-!
# The size of JSON texts

The number of bytes that a value takes when Dart's `jsonEncode` writes it and `utf8.encode` encodes
the text. Sizes are computed without the text. How Dart prints a number that is no integer is the
parameter `doubleText`. -/

namespace LigamentApps.Json

/-- The bytes of a character inside a string: quotes, backslashes and control characters are
escaped. -/
def charBytes (c : Char) : ℕ :=
  if c.toNat = 0x22 ∨ c.toNat = 0x5C then 2
  else if c.toNat < 0x20 then if c.toNat ∈ [8, 9, 10, 12, 13] then 2 else 6
  else c.utf8Size

/-- The bytes of a string, with its quotes. -/
def strBytes (s : String) : ℕ := 2 + (s.toList.map charBytes).sum

def intBytes (n : ℤ) : ℕ := (Nat.toDigits 10 n.natAbs).length + if n < 0 then 1 else 0

mutual

def bytes (doubleText : ℚ → String) : Json → ℕ
  | .null => 4
  | .bool b => if b then 4 else 5
  | .int n => intBytes n
  | .dec q => (doubleText q).utf8ByteSize
  | .str s => strBytes s
  | .arr xs => 2 + (elementBytes doubleText xs - 1)
  | .obj members => 2 + (memberBytes doubleText members - 1)

/-- The bytes of a list's elements, each with a comma after it. -/
def elementBytes (doubleText : ℚ → String) : List Json → ℕ
  | [] => 0
  | x :: xs => bytes doubleText x + 1 + elementBytes doubleText xs

/-- The bytes of a map's members, each with a comma after it; a member that a later one of its name
replaces is not written. -/
def memberBytes (doubleText : ℚ → String) : List (String × Json) → ℕ
  | [] => 0
  | (name, x) :: members =>
    (if members.any (·.1 == name) then 0 else strBytes name + 1 + bytes doubleText x + 1) +
      memberBytes doubleText members

end

end LigamentApps.Json
