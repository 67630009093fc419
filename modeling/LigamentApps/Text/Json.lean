import Mathlib.Algebra.Ring.Int.Defs
import Mathlib.Algebra.Ring.Nat
import Mathlib.Data.Rat.Defs

/-!
# Parsed JSON

A JSON text as a parser of JSON hands it out. A number remembers whether it was written without a
fraction and an exponent, since some decoders tell `1` and `1.0` apart; numbers are exact. Of two
members of an object with the same name the later one counts. -/

namespace LigamentApps

inductive Json
  | null
  | bool (b : Bool)
  /-- A number written without a fraction and an exponent. -/
  | int (n : ℤ)
  /-- Any other number. -/
  | dec (q : ℚ)
  | str (s : String)
  | arr (xs : List Json)
  | obj (members : List (String × Json))

namespace Json

/-- The value is an object. -/
def isObj : Json → Bool
  | .obj _ => true
  | _ => false

/-- The member of an object with a name. -/
def get (j : Json) (name : String) : Option Json :=
  match j with
  | .obj members => members.reverse.lookup name
  | _ => none

/-- The member of an object with a name, where a null counts as missing. -/
def getPresent (j : Json) (name : String) : Option Json :=
  match j.get name with
  | some .null => none
  | m => m

def isStr (j : Json) (s : String) : Bool :=
  match j with
  | .str t => t == s
  | _ => false

/-- The value is `true`. -/
def isTrue : Json → Bool
  | .bool b => b
  | _ => false

def str? : Json → Option String
  | .str s => some s
  | _ => none

/-- The array that the value is. -/
def arr? : Json → Option (List Json)
  | .arr xs => some xs
  | _ => none

end Json

end LigamentApps
