import Scbl.Lib.Dict

/-!
# Values of JSON

A value as a reader of JSON gives it. The members of an object keep their order, with one member for a key.
-/

namespace Scbl.Lib

inductive Json where
  | null
  | bool (b : Bool)
  | int (n : Int)
  | float (x : Float)
  | str (t : List Char)
  | list (values : List Json)
  | object (members : List (List Char × Json))

namespace Json

/-- The members of an object. -/
abbrev Object := List (List Char × Json)

/-- The members of a value that is an object. -/
def members? : Json → Option Object
  | object members => some members
  | _ => none

/-- The text of a value that is a string. -/
def text? : Json → Option (List Char)
  | str t => some t
  | _ => none

/-- Whether a value is `true` itself. -/
def isTrue : Json → Bool
  | bool b => b
  | _ => false

/-- Whether a value equals the number one, which `true` does too. -/
def equalsOne : Json → Bool
  | bool b => b
  | int n => n = 1
  | float x => x == 1
  | _ => false

/-- A value that has a text is a string. -/
theorem text?_eq_some {value : Json} {t : List Char} (h : value.text? = some t) : value = .str t := by
  cases value with
  | str t' => rw [Option.some.inj h]
  | _ => nomatch h

/-- A value that has members is an object. -/
theorem members?_eq_some {value : Json} {members : Object} (h : value.members? = some members) : value = .object members := by
  cases value with
  | object members' => rw [Option.some.inj h]
  | _ => nomatch h

end Json

end Scbl.Lib
