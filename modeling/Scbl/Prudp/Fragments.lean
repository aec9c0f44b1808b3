import Scbl.Prudp.ClientInfo
import Scbl.Prudp.Packet
import Scbl.Lib.Countdown

/-!
# Reassembly of fragmented messages

The fragment cache of a connection (`quazal/src/prudp.rs`). The sender gives the first chunk of a message the highest fragment
id and the following ones increasing sequences, so all fragments of a message point to the same final packet, `sequence + id`;
the cache holds the fragments of one such group. The fragment with id 0 completes it.
-/

namespace Scbl.Prudp

open Scbl.Lib

/-- The limit on a message, in bytes. -/
def maxInboundMessageBytes : Nat := 256 * 1024

/-- The highest fragment id. -/
def maxInboundFragments : UInt8 := 255

/-- How long a group may take to complete. -/
def fragmentAssemblyTimeout : Duration := Duration.fromSecs 10

/-- Why a fragment is refused. -/
inductive FragmentError where
  | idOutsideLimit | conflictingDuplicate | byteCountOverflow | messageExceedsLimit
  | finalExceedsLimit | sequenceMismatch | emptyGroup | missingId | reassembledOverflow | reassembledExceedsLimit
  deriving DecidableEq, Repr

/-- The reason as it is logged. -/
def FragmentError.text : FragmentError → String
  | .idOutsideLimit => "fragment id outside protocol limit"
  | .conflictingDuplicate => "conflicting duplicate fragment"
  | .byteCountOverflow => "fragment byte count overflow"
  | .messageExceedsLimit => "fragmented message exceeds byte limit"
  | .finalExceedsLimit => "final fragment exceeds byte limit"
  | .sequenceMismatch => "fragment group sequence mismatch"
  | .emptyGroup => "empty fragment group"
  | .missingId => "fragment group has a missing id"
  | .reassembledOverflow => "reassembled byte count overflow"
  | .reassembledExceedsLimit => "reassembled message exceeds byte limit"

/-- `checked_add` on 64-bit sizes. -/
def checkedAdd (x y : Nat) : Option Nat := if x + y < 2 ^ 64 then some (x + y) else none

variable {T : Type}

/-- Forget the group being received. -/
def resetFragmentState (ci : ClientInfo T) : ClientInfo T :=
  { ci with
    packetFragments := ∅
    packetFragmentBytes := 0
    packetFragmentFinalSequence := none
    packetFragmentStartedAt := none }

/-- Whether the group being received has taken too long. -/
def fragmentsExpired (now : Instant) (ci : ClientInfo T) : Bool :=
  ci.packetFragmentStartedAt.any (fun started => fragmentAssemblyTimeout < now - started)

/-- Forget the group being received when it has taken too long. -/
def expireFragmentState (now : Instant) (ci : ClientInfo T) : ClientInfo T :=
  if fragmentsExpired now ci then resetFragmentState ci else ci

/-- The connection with the group of a final sequence open: the open one if it is that group, a new empty one otherwise. -/
def openFragmentGroup (now : Instant) (ci : ClientInfo T) (finalSequence : UInt16) : ClientInfo T :=
  if ci.packetFragmentFinalSequence ≠ some finalSequence then
    { resetFragmentState ci with
      packetFragmentFinalSequence := some finalSequence
      packetFragmentStartedAt := some now }
  else ci

/-- Keep a fragment. The answer says whether it was new. -/
def cacheFragment (now : Instant) (ci : ClientInfo T) (fragmentId : UInt8) (sequence : UInt16) (payload : Bytes) :
    ClientInfo T × Except FragmentError Bool :=
  let ci := expireFragmentState now ci
  if fragmentId = 0 ∨ maxInboundFragments < fragmentId then (ci, .error .idOutsideLimit)
  else
    let ci := openFragmentGroup now ci (sequence + fragmentId.toUInt16)
    match ci.packetFragments.lookup fragmentId with
    | some existing => (ci, if existing = payload then .ok false else .error .conflictingDuplicate)
    | none =>
      match checkedAdd ci.packetFragmentBytes payload.length with
      | none => (ci, .error .byteCountOverflow)
      | some total =>
        if maxInboundMessageBytes < total then (ci, .error .messageExceedsLimit)
        else
          ({ ci with
             packetFragments := AList.insert fragmentId payload ci.packetFragments
             packetFragmentBytes := total }, .ok true)

/-- The pieces of the cache by fragment number. -/
def Fragments.piece (fragments : Fragments) (i : Nat) : Option Bytes := fragments.lookup (UInt8.ofNat i)

/-- Complete the group being received with its final fragment. -/
def finishFragmentedPayload (now : Instant) (ci : ClientInfo T) (sequence : UInt16) (finalPayload : Bytes) :
    ClientInfo T × Except FragmentError Bytes :=
  let ci := expireFragmentState now ci
  if maxInboundMessageBytes < finalPayload.length then (ci, .error .finalExceedsLimit)
  else if ci.packetFragments.keys = [] then (ci, .ok finalPayload)
  else if ci.packetFragmentFinalSequence ≠ some sequence then (ci, .error .sequenceMismatch)
  else
    match ci.packetFragments.keys.max? with
    | none => (ci, .error .emptyGroup)
    | some highest =>
      if maxInboundFragments < highest ∨ ci.packetFragments.keys.length ≠ highest.toNat then (ci, .error .missingId)
      else
        match checkedAdd ci.packetFragmentBytes finalPayload.length with
        | none => (ci, .error .reassembledOverflow)
        | some total =>
          if maxInboundMessageBytes < total then (ci, .error .reassembledExceedsLimit)
          else
            match gather ci.packetFragments.piece highest.toNat with
            | none => (resetFragmentState ci, .error .missingId)
            | some output => (resetFragmentState ci, .ok (output ++ finalPayload))

/-- What a data packet brings to the handler: its payload if it carries no fragment id, nothing if its fragment is kept, and
the completed message if it is the final fragment. A refused fragment makes the connection forget its group. -/
def receivePayload (now : Instant) (ci : ClientInfo T) (packet : QPacket) : ClientInfo T × Option Bytes :=
  match packet.fragmentId with
  | none => (ci, some packet.payload)
  | some fid =>
    if fid ≠ 0 then
      match cacheFragment now ci fid packet.sequence packet.payload with
      | (ci, .ok _) => (ci, none)
      | (ci, .error _) => (resetFragmentState ci, none)
    else
      match finishFragmentedPayload now ci packet.sequence packet.payload with
      | (ci, .ok payload) => (ci, some payload)
      | (ci, .error _) => (resetFragmentState ci, none)

end Scbl.Prudp
