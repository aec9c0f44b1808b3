import Scbl.Config

/-!
# Connections

What the server keeps for a client connection (`ClientInfo` of `quazal/src/lib.rs`). Instants are counted in nanoseconds.
-/

namespace Scbl.Prudp

open Scbl.Lib

/-- An instant of the monotonic clock, in nanoseconds. -/
abbrev Instant : Type := Nat

/-- A span of time, in nanoseconds. -/
abbrev Duration : Type := Nat

/-- A number of seconds. -/
def Duration.fromSecs (s : Nat) : Duration := s * 1000000000

/-- The identifier of a connection. -/
structure ConnectionID where
  id : UInt32
  deriving DecidableEq, Repr

/-- The signature of a client or a server. -/
structure Signature where
  sig : UInt32
  deriving DecidableEq, Repr

/-- The fragments retained for the message being received, by fragment id. -/
abbrev Fragments : Type := AList (fun _ : UInt8 => Bytes)

/-- A client connection. -/
structure ClientInfo (T : Type) where
  serverSequenceId : UInt16
  clientSequenceId : UInt16
  clientSignature : Option UInt32
  serverSignature : UInt32
  clientSession : UInt8
  serverSession : UInt8
  packetFragments : Fragments
  packetFragmentBytes : Nat
  packetFragmentFinalSequence : Option UInt16
  packetFragmentStartedAt : Option Instant
  address : SocketAddr
  lastSeen : Instant
  connectionId : Option ConnectionID
  userId : Option UInt32
  additional : T

/-- A new connection from an address, at an instant and under a random server signature. -/
def ClientInfo.new {T : Type} [Inhabited T] (now : Instant) (random : UInt32) (address : SocketAddr) : ClientInfo T where
  serverSequenceId := 1
  clientSequenceId := 1
  clientSignature := none
  serverSignature := random
  clientSession := 0
  serverSession := 0
  packetFragments := ∅
  packetFragmentBytes := 0
  packetFragmentFinalSequence := none
  packetFragmentStartedAt := none
  address
  lastSeen := now
  connectionId := none
  userId := none
  additional := default

/-- Note that the client was heard from. -/
def ClientInfo.seen {T : Type} (ci : ClientInfo T) (now : Instant) : ClientInfo T := { ci with lastSeen := now }

end Scbl.Prudp
