import Scbl.Lib.Bytes
import Mathlib.Data.List.AList

/-!
# Service configuration

The part of `quazal/src/config.rs` the servers read while they run: the context of a service, with its keys, its virtual port
and its settings. A socket address is kept as the printed IP address and the port, the two things the code takes from it.
-/

namespace Scbl

open Scbl.Lib

/-- A text, character by character. -/
abbrev Text : Type := List Char

/-- The bytes of a text in UTF-8. -/
def Text.toBytes (t : Text) : Bytes := t.flatMap String.utf8EncodeChar

/-- A socket address. -/
structure SocketAddr where
  ip : Text
  port : UInt16
  deriving DecidableEq, Repr

/-- The context of a service. -/
structure Context where
  accessKey : Bytes
  cryptoKey : Bytes
  listen : SocketAddr
  vport : UInt8
  secureServerAddr : Option SocketAddr
  settings : AList (fun _ : Text => Text)
  ticketKey : Bytes

/-- The context of Splinter Cell Blacklist, for a ticket key. -/
def Context.splinterCellBlacklist (ticketKey : Bytes) : Context where
  accessKey := Text.toBytes "yl4NG7qZ".toList
  cryptoKey := Text.toBytes "CD&ML".toList
  listen := { ip := "0.0.0.0".toList, port := 9999 }
  vport := 1
  secureServerAddr := none
  settings := ∅
  ticketKey

end Scbl
