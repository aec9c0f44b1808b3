import Scbl.Config
import Scbl.Lib.Text

/-!
# Versions of the client

The versions `X.Y.Z` of whole clients: `_valid_version` and `_version_tuple` of `scblctl/client_publish.py`, the first of which
`scblctl/announcements.py` has too. Their digits are the decimal digits of any script.
-/

namespace Scbl.Manager

open Scbl.Lib

/-- The code points of the digits zero of Unicode 14, each of which the other nine follow. -/
def decimalZeros : List Nat :=
  [0x30, 0x660, 0x6F0, 0x7C0, 0x966, 0x9E6, 0xA66, 0xAE6, 0xB66, 0xBE6, 0xC66, 0xCE6, 0xD66, 0xDE6, 0xE50, 0xED0, 0xF20, 0x1040,
    0x1090, 0x17E0, 0x1810, 0x1946, 0x19D0, 0x1A80, 0x1A90, 0x1B50, 0x1BB0, 0x1C40, 0x1C50, 0xA620, 0xA8D0, 0xA900, 0xA9D0, 0xA9F0,
    0xAA50, 0xABF0, 0xFF10, 0x104A0, 0x10D30, 0x11066, 0x110F0, 0x11136, 0x111D0, 0x112F0, 0x11450, 0x114D0, 0x11650, 0x116C0,
    0x11730, 0x118E0, 0x11950, 0x11C50, 0x11D50, 0x11DA0, 0x16A60, 0x16AC0, 0x16B50, 0x1D7CE, 0x1D7D8, 0x1D7E2, 0x1D7EC, 0x1D7F6,
    0x1E140, 0x1E2F0, 0x1E950, 0x1FBF0]

/-- The value of a decimal digit. -/
def decimalValue (c : Char) : Option Nat :=
  (decimalZeros.find? (fun first => first ≤ c.toNat ∧ c.toNat < first + 10)).map (c.toNat - ·)

/-- `\d+`, the whole text. -/
def matchesDecimals (part : Text) : Bool := part ≠ [] && part.all (fun c => (decimalValue c).isSome)

/-- `\d+\.\d+\.\d+`, the whole text. -/
def validVersion (value : Text) : Bool :=
  match value.splitOn '.' with
  | [major, minor, patch] => matchesDecimals major && matchesDecimals minor && matchesDecimals patch
  | _ => false

/-- The number that decimal digits denote. -/
def decimalsValue (part : Text) : Nat := part.foldl (fun n c => n * 10 + (decimalValue c).getD 0) 0

/-- The numbers of a version. -/
def versionNumbers (value : Text) : List Nat := (value.splitOn '.').map decimalsValue

/-- The most digits that `int` reads. -/
def maximumDigits : Nat := 4300

/-- The tuple that versions are compared by, unless `int` refuses one of its parts. -/
def ClientPublisher.versionTuple (value : Text) : Option (List Nat) :=
  if (value.splitOn '.').all (fun part => part.length ≤ maximumDigits) then some (versionNumbers value) else none

example : validVersion "1.2.٣".toList = true ∧ ClientPublisher.versionTuple "1.2.٣".toList = some [1, 2, 3] := by decide +kernel

end Scbl.Manager
