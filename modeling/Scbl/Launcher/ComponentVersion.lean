import Scbl.Config
import Scbl.Lib.Text

/-!
# Versions of components in the launcher

How `ClientComponentUpdateService.cs` compares the version of a component with a candidate for its update.
-/

namespace Scbl.Launcher

open Scbl.Lib

/-- What is thrown while an update is checked. -/
inductive UpdateException where
  /-- A number that is no `int`. -/
  | overflow
  | invalidData (message : Text)
  deriving DecidableEq, Repr

/-- `int.Parse` of decimal digits. -/
def parseInt (digits : Text) : Except UpdateException Nat :=
  if digitsValue digits < 2 ^ 31 then .ok (digitsValue digits) else .error .overflow

/-- The comparison of the numbers at an index, where a missing number is 0. -/
def compareAt (left right : List Nat) (index : Nat) : Ordering := compare (left.getD index 0) (right.getD index 0)

/-- The loop over the indices: the first comparison that is not equal. -/
def compareNumbers (left right : List Nat) : Ordering :=
  (((List.range (max left.length right.length)).map (compareAt left right)).find? (· ≠ .eq)).getD .eq

def compareComponentVersions (current candidate : Text) : Except UpdateException Ordering := do
  let left ← (digitRuns current).mapM parseInt
  let right ← (digitRuns candidate).mapM parseInt
  if left.length = 0 ∨ right.length = 0 then
    throw (.invalidData ("组件版本号必须包含数字：current=".toList ++ current ++ ", candidate=".toList ++ candidate ++ "。".toList))
  pure (compareNumbers left right)

example : compareComponentVersions "1.2".toList "1.10".toList = .ok .lt := by decide

end Scbl.Launcher
