import Scbl.Config
import Scbl.Lib.Text

/-!
# Versions of client components on the server

The versions that `scblctl/client_components.py` accepts, and the tuples it orders them by.
-/

namespace Scbl.Manager

open Scbl.Lib

/-- The error of a publication and its message. -/
structure ClientComponentError where
  message : Text
  deriving DecidableEq, Repr

/-- The white space that `str.strip` takes away: that of Unicode, and the four separators below the blank. -/
def isSpace (c : Char) : Bool := isWhiteSpace c || (0x1C ≤ c.toNat && c.toNat ≤ 0x1F)

def strip (value : Text) : Text := ((value.dropWhile isSpace).reverse.dropWhile isSpace).reverse

/-- A character that may stand in a version after the first one. -/
def isVersionChar (c : Char) : Bool := c.isAlphanum || ['.', '_', '+', '-'].contains c

/-- `[A-Za-z0-9][A-Za-z0-9._+-]{0,79}`, the whole text. -/
def matchesVersion : Text → Bool
  | [] => false
  | c :: t => c.isAlphanum && t.length ≤ 79 && t.all isVersionChar

def validateVersion (value : Text) : Except ClientComponentError Text :=
  let value := strip value
  if matchesVersion value then .ok value else .error { message := "组件版本号无效".toList }

/-- The numbers of an accepted version; its digits are those of ASCII. -/
def versionTuple (value : Text) : Except ClientComponentError (List Nat) :=
  let numbers := (digitRuns value).map digitsValue
  if numbers = [] then .error { message := "组件版本号必须包含数字".toList } else .ok numbers

example : versionTuple "1.10-rc2".toList = .ok [1, 10, 2] := by decide

end Scbl.Manager
