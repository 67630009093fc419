import Mathlib.Data.List.Basic

/-!
# UUID texts

The form of a UUID in hyphenated hexadecimal, in either case. -/

namespace LigamentApps

/-- A digit of a hexadecimal number, in either case. -/
def isHexDigit (c : Char) : Bool :=
  c.isDigit || ('a' ≤ c && c ≤ 'f') || ('A' ≤ c && c ≤ 'F')

/-- Groups of 8, 4, 4, 4 and 12 hexadecimal digits, with hyphens between them. -/
def isUuid (s : String) : Bool :=
  let groups := s.toList.splitOn '-'
  groups.map List.length == [8, 4, 4, 4, 12] && groups.all fun g => g.all isHexDigit

end LigamentApps
