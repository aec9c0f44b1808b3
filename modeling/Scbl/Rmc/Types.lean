import Scbl.Lib.Panic
import Scbl.Rmc.Basic

/-!
# Values of a named class

A value that comes with the name of its class (`Any` of `quazal/src/rmc/types.rs`). The receiver looks the name up among the classes
it has registered.
-/

namespace Scbl.Rmc

open Scbl.Lib

/-- The bytes of a value and the name of its class. -/
structure Any (K : Type) where
  typeName : K
  data : Bytes
  deriving DecidableEq, Repr

/-- Read a value with the name of its class: the bytes are a collection inside a collection. -/
def Any.fromStream {K : Type} (readName : Reader K) : Reader (Any K) := fun rdr => do
  let (typeName, rdr) ← readName rdr
  let (data, rdr) ← readVec streamU8 rdr
  let (data, _) ← readVec streamU8 data
  return ({ typeName, data }, rdr)

/-- The value, read by the one class that is registered; another name is a panic. -/
def Any.intoInner {α : Type} (a : Any Text) (name : Text) (read : Reader α) : Except (Fault FromStreamError) α :=
  if a.typeName = name then
    match read a.data with
    | .ok (value, _) => .ok value
    | .error e => .error (.fail e)
  else .error (.panic .explicit)

end Scbl.Rmc
