import Scbl.Services.Protocol

/-!
# Probes between clients

The relay of probes (`nat_traversal.rs`): a client names other clients by the connection ids in their station URLs, and each of them
is sent a request to probe a station. While a request is handled its connection is borrowed by `handle_data`, so that a second borrow
of it is a panic.
-/

namespace Scbl.Prudp

/-- The client with a connection id, and the signature of its connection. -/
def ClientRegistry.clientByConnectionId {T : Type} (reg : ClientRegistry T) (connId : ConnectionID) : Option (UInt32 × ClientInfo T) :=
  (reg.connectionIdSessionIds.lookup connId).bind (fun s => (reg.clients.lookup s.sig).map (fun ci => (s.sig, ci)))

end Scbl.Prudp

namespace Scbl.Services.NatTraversalService

open Scbl.Lib Scbl.Rmc Scbl.Prudp

def NAT_TRAVERSAL_PROTOCOL_ID : UInt16 := 3

/-- The method of a probe. -/
def INITIATE_PROBE : UInt32 := 2

/-- A request to relay probes. -/
structure RequestProbeInitiationExtRequest where
  urlTargetList : List StationURL
  urlStationToProbe : StationURL
  deriving DecidableEq

/-- The client that a target names by its connection id, if there is one. -/
def probeTarget (clientRegistry : ClientRegistry Unit) (url : StationURL) : Option (UInt32 × ClientInfo Unit) := do
  let connId ← url.params.lookup "RVCID".toList
  let connId ← parseU32 connId
  clientRegistry.clientByConnectionId ⟨UInt32.ofNat connId⟩

/-- The request to probe a station. -/
def probePayload (env : Env) (callId : UInt32) (urlStationToProbe : StationURL) : Except Panic Bytes := do
  let parameters ← Ty.write env.build env.mapOrder .stationURL urlStationToProbe
  return Request.toBytes { protocolId := NAT_TRAVERSAL_PROTOCOL_ID, callId, methodId := INITIATE_PROBE, parameters }

/-- The packet of a probe. -/
def probePacket (payload : Bytes) : QPacket where
  source := { port := 1, streamType := .RVSec }
  destination := { port := 15, streamType := .RVSec }
  packetType := .data
  payload

/-- Send a probe to a client; one that is not sent is a panic, and so is the borrow of the connection that calls. -/
def sendProbe (urlStationToProbe : StationURL) (sig : UInt32) (target : ClientInfo Unit) : RmcHandler Unit := fun c st => do
  let payload ← probePayload c.env (c.env.randomCallId st.events.length) urlStationToProbe
  if sig = c.signature then throw .borrow
  let (event, target) ← sendRequest c.env c.zlib c.ctx target.address (probePacket payload)
    { target with clientSequenceId := st.clientSequenceIds sig }
  match event with
  | .sendFailed _ => throw .unwrap
  | .sent _ _ =>
    return ({ st with
              clientSequenceIds := fun s => if s = sig then target.clientSequenceId else st.clientSequenceIds s
              events := st.events ++ [event] }, .ok ())

/-- A target without a connection id, or whose connection is not open, is skipped. -/
def relayProbe (urlStationToProbe : StationURL) (url : StationURL) : RmcHandler Unit := do
  let c ← Handler.caller
  match probeTarget c.registry url with
  | none => pure ()
  | some (sig, target) => sendProbe urlStationToProbe sig target

def requestProbeInitiationExt (request : RequestProbeInitiationExtRequest) : RmcHandler Unit := do
  let _ ← loginRequired
  request.urlTargetList.forM (relayProbe request.urlStationToProbe)

end Scbl.Services.NatTraversalService
