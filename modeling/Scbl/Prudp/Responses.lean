import Scbl.Prudp.Fragments

/-!
# The packets of a response

How `handle_data` cuts a response into data packets (`quazal/src/prudp.rs`): chunks of at most 1000 bytes whose fragment ids
count down to 0 and whose sequences count up from the connection's.
-/

namespace Scbl.Prudp

open Scbl.Lib

/-- The most bytes a data packet carries. -/
def maxPayloadSize : Nat := 1000

/-- The chunks of a payload, each with its fragment id, counting down to 0. -/
def cutPayload (payload : Bytes) : List (Nat × Bytes) :=
  let cs := chunks maxPayloadSize payload
  (List.range cs.length).reverse.zip cs

/-- The packet that answers a request with a chunk. -/
def responsePacket (request : QPacket) (fid : Nat) (chunk : Bytes) : QPacket where
  source := request.destination
  destination := request.source
  packetType := .data
  payload := chunk
  fragmentId := some (UInt8.ofNat fid)

variable {T : Type}

/-- The header of a response: the next sequence of the server, the flags, and the client's signature and session. -/
def stampResponse (build : Build) (ci : ClientInfo T) (resp : QPacket) : Except Panic (QPacket × ClientInfo T) := do
  let sequence := ci.serverSequenceId
  let next ← build.addU16 ci.serverSequenceId 1
  return ({ resp with
            sequence
            flags := ((resp.flags.insert .hasSize).insert .needAck).insert .reliable
            signature := ci.clientSignature.getD 0
            sessionId := ci.serverSession },
          { ci with serverSequenceId := next })

/-- The packets of a cut response, in the order they are sent. -/
def responsePackets (build : Build) (request : QPacket) :
    ClientInfo T → List (Nat × Bytes) → Except Panic (List QPacket × ClientInfo T)
  | ci, [] => .ok ([], ci)
  | ci, (fid, chunk) :: rest => do
    let (resp, ci) ← stampResponse build ci (responsePacket request fid chunk)
    let (resps, ci) ← responsePackets build request ci rest
    return (resp :: resps, ci)

end Scbl.Prudp
