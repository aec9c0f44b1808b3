import Scbl.Lib.HashMap
import Scbl.Lib.Text
import Scbl.Config

/-!
# Station URLs

The address of a client as it goes over the wire (`StationURL` of `quazal/src/rmc/types.rs`): `scheme:/key=value;key=value` with
the keys `address` and `port`. The other parameters are a hash map, so printing depends on the order in which the map iterates.
-/

namespace Scbl.Rmc

open Scbl.Lib

/-- Why a text is no station URL. -/
inductive StationURLParseError where
  | missingScheme | missingAddress | missingPort | invalidParameters | invalidPort
  deriving DecidableEq, Repr

/-- A station URL. -/
structure StationURL where
  scheme : Text
  address : Text
  port : UInt16
  params : AList (fun _ : Text => Text)
  deriving DecidableEq

/-- Read a station URL. Of two parameters with one key the last one counts. -/
def StationURL.parse (value : Text) : Except StationURLParseError StationURL := do
  let some (scheme, rest) := splitOnce ":/".toList value | throw .missingScheme
  let some entries := (rest.splitOn ';').mapM (splitOnce "=".toList) | throw .invalidParameters
  let params : AList (fun _ : Text => Text) := entries.foldl (fun params e => params.insert e.1 e.2) ∅
  let some address := params.lookup "address".toList | throw .missingAddress
  let params := params.erase "address".toList
  let some port := params.lookup "port".toList | throw .missingPort
  let some port := parseU16 port | throw .invalidPort
  return { scheme, address, port := UInt16.ofNat port, params := params.erase "port".toList }

/-- A parameter in print. -/
def printParam (key value : Text) : Text := key ++ '=' :: value

/-- Print a station URL. -/
def StationURL.display (order : MapOrder) (u : StationURL) : Text :=
  u.scheme ++ ":/".toList ++ joinWith ';'
    (printParam "address".toList u.address :: printParam "port".toList (toString u.port).toList ::
      (order.apply u.params.entries).map (fun e => printParam e.1 e.2))

/-- Whatever the order, the same characters are printed. -/
theorem StationURL.display_perm (u : StationURL) (order order' : MapOrder) : (u.display order).Perm (u.display order') := by
  have h := (order.apply_perm u.params.entries).trans (order'.apply_perm u.params.entries).symm
  simp only [StationURL.display, joinWith, List.flatMap_cons]
  exact (((h.map _).flatMap_right _).append_left _).append_left _ |>.append_left _

/-- The number of bytes a station URL takes in print. -/
def StationURL.printedLength (u : StationURL) : Nat := (u.display .listed).toBytes.length

/-- Whatever the order, the print has the same length. -/
theorem StationURL.length_display (u : StationURL) (order : MapOrder) : (u.display order).toBytes.length = u.printedLength :=
  ((u.display_perm order .listed).flatMap_right _).length_eq

end Scbl.Rmc
