import Mathlib.Data.Rat.Defs
import Scbl.Lib.Dict

/-!
# Values of Python

What a reader of JSON gives in Python: texts are code points, among which surrogates can stand alone, integers have any size, and floats can
be infinite.
-/

namespace Scbl.Lib

/-- The code points of a text. -/
abbrev PyStr : Type := List Nat

def pyStr (t : List Char) : PyStr := t.map Char.toNat

/-- The characters of a text, if no surrogate stands in it. -/
def PyStr.toText? (s : PyStr) : Option (List Char) := s.mapM (fun n => if n.isValidChar then some (Char.ofNat n) else none)

inductive PyFloat where
  | finite (q : ℚ)
  | infinite (negative : Bool)
  | nan
  deriving DecidableEq

inductive PyValue where
  | none
  | bool (b : Bool)
  | int (n : Int)
  | float (x : PyFloat)
  | str (s : PyStr)
  | list (values : List PyValue)
  | dict (items : List (PyStr × PyValue))

namespace PyValue

/-- The items of a dictionary. -/
def items? : PyValue → Option (List (PyStr × PyValue))
  | dict items => some items
  | _ => Option.none

def str? : PyValue → Option PyStr
  | str s => some s
  | _ => Option.none

/-- `value == 1`. -/
def equalsOne : PyValue → Bool
  | bool b => b
  | int n => n = 1
  | float x => x = .finite 1
  | _ => false

end PyValue

end Scbl.Lib
