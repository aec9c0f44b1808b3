import Scbl.Lib.HashMap
import Scbl.Prudp.Responses
import Scbl.Kerberos

/-!
# The PRUDP server

The server of `quazal/src/prudp.rs`: the connections being opened and the open ones, and what each packet does to them.

What the outside world supplies while a packet is handled is an `Env`: the clocks, the random numbers and the answers of the
socket. The stream handlers are a parameter; they see the open connections and a state of their own, and the type says what the
visibility of the fields enforces, that they leave the fragment caches alone. A step returns the new server and what happened,
or the panic that ended it.
-/

namespace Scbl.Prudp

open Scbl.Lib Scbl.Rmc

/-- What the outside world supplies while a packet is handled. A socket that accepts a datagram sends all of it. -/
structure Env where
  build : Build
  now : Instant
  unixTime : UInt64
  randomSignature : UInt32
  randomSession : UInt8
  randomCallId : Nat → UInt32
  sessionKey : Bytes
  nonce : Bytes
  mapOrder : MapOrder
  readFile : Text → Option Bytes
  send : Bytes → SocketAddr → Option Nat
  send_whole : ∀ {data addr sz}, send data addr = some sz → sz = data.length

/-- An attempt to send a datagram. -/
inductive Event where
  | sent (address : SocketAddr) (data : Bytes)
  | sendFailed (address : SocketAddr)
  deriving DecidableEq

/-- The open connections. -/
structure ClientRegistry (T : Type) where
  clients : AList (fun _ : UInt32 => ClientInfo T)
  connectionIdSessionIds : AList (fun _ : ConnectionID => Signature)

/-- The client with a connection id. -/
def ClientRegistry.signatureByConnectionId {T : Type} (reg : ClientRegistry T) (connId : ConnectionID) : Option UInt32 :=
  match reg.connectionIdSessionIds.lookup connId with
  | some s => if s.sig ∈ reg.clients then some s.sig else none
  | none => none

/-- The registry with a client's connection replaced. -/
def ClientRegistry.set {T : Type} (reg : ClientRegistry T) (sig : UInt32) (ci : ClientInfo T) : ClientRegistry T :=
  { reg with clients := AList.insert sig ci reg.clients }

/-- The fields of a connection only the transport sees. -/
def ClientInfo.fragmentState {T : Type} (ci : ClientInfo T) : Fragments × Nat × Option UInt16 × Option Instant :=
  (ci.packetFragments, ci.packetFragmentBytes, ci.packetFragmentFinalSequence, ci.packetFragmentStartedAt)

/-- What a stream handler leaves: the connections, its own state, what it sent, and its answer. -/
structure HandlerResult (σ T : Type) where
  registry : ClientRegistry T
  app : σ
  events : List Event
  answer : Except Error Bytes

/-- A stream handler, called for the connection with a signature. -/
structure StreamHandler (σ T : Type) where
  handle : Env → UInt32 → ClientRegistry T → σ → Bytes → Except Panic (HandlerResult σ T)
  keeps_fragments : ∀ {env sig reg app data r}, handle env sig reg app data = .ok r →
    ∀ s, (r.registry.clients.lookup s).map ClientInfo.fragmentState = (reg.clients.lookup s).map ClientInfo.fragmentState

/-- What a server is started with. -/
structure Service (σ T : Type) where
  ctx : Context
  zlib : Zlib
  box : Secretbox
  handlers : VPort → Option (StreamHandler σ T)
  userHandler : Option (Env → QPacket → SocketAddr → Except Panic (List Event))
  expiredClientHandler : Option (ClientInfo T → σ → σ)
  disconnectHandler : Option (ClientInfo T → σ → σ)

/-- A PRUDP server. -/
structure Server (σ T : Type) where
  newClients : AList (fun _ : UInt32 => ClientInfo T)
  clientRegistry : ClientRegistry T
  nextConnId : UInt32
  app : σ

/-- A server that has just been started. -/
def Server.new {σ T : Type} (app : σ) : Server σ T where
  newClients := ∅
  clientRegistry := { clients := ∅, connectionIdSessionIds := ∅ }
  nextConnId := 0x3AAAAAAA
  app

variable {σ T : Type}

/-! ## Sending -/

/-- Send a packet: a data packet goes compressed and with a fragment id, and every packet with its size. -/
def sendPacket (env : Env) (zlib : Zlib) (ctx : Context) (address : SocketAddr) (resp : QPacket) : Except Panic Event := do
  let resp := if resp.packetType = .data then
      { resp with useCompression := true, fragmentId := some (resp.fragmentId.getD 0) }
    else resp
  let resp := { resp with flags := resp.flags.insert .hasSize }
  let data ← resp.toBytes zlib ctx
  match env.send data address with
  | none => return .sendFailed address
  | some sz =>
    assert (sz = data.length)
    return .sent address data

/-- The header of a request to a client: the next sequence of the client, the flags, and the server's signature and session. -/
def stampRequest (build : Build) (ci : ClientInfo T) (req : QPacket) : Except Panic (QPacket × ClientInfo T) := do
  let sequence := ci.clientSequenceId
  let next ← build.addU16 ci.clientSequenceId 1
  return ({ req with
            sequence
            flags := ((req.flags.insert .hasSize).insert .needAck).insert .reliable
            signature := ci.serverSignature
            sessionId := ci.clientSession },
          { ci with clientSequenceId := next })

/-- Send a request to a client. -/
def sendRequest (env : Env) (zlib : Zlib) (ctx : Context) (address : SocketAddr) (req : QPacket) (ci : ClientInfo T) :
    Except Panic (Event × ClientInfo T) := do
  let (req, ci) ← stampRequest env.build ci req
  let event ← sendPacket env zlib ctx address req
  return (event, ci)

/-- Acknowledge a packet. -/
def sendAck (env : Env) (svc : Service σ T) (address : SocketAddr) (packet : QPacket) (ci : ClientInfo T)
    (keepPayload : Bool) : Except Panic Event :=
  sendPacket env svc.zlib svc.ctx address
    { packet with
      source := packet.destination
      destination := packet.source
      flags := (({} : BitFlags).insert .ack).insert .hasSize
      signature := ci.clientSignature.getD 0
      sessionId := ci.serverSession
      payload := if keepPayload then packet.payload else [] }

/-- Send the packets of a response, one after the other. -/
def sendAll (env : Env) (svc : Service σ T) (address : SocketAddr) : List QPacket → Except Panic (List Event)
  | [] => .ok []
  | resp :: resps => do
    let e ← sendPacket env svc.zlib svc.ctx address resp
    let es ← sendAll env svc address resps
    return e :: es

/-! ## The packet types -/

/-- The handler a data packet calls and the payload it passes: those of a complete message for a registered port. -/
def handlerCall (svc : Service σ T) (packet : QPacket) (payload : Option Bytes) : Option (StreamHandler σ T × Bytes) :=
  match payload, svc.handlers packet.destination with
  | some payload, some handler => some (handler, payload)
  | _, _ => none

/-- A data packet: it is acknowledged, its fragment joins the message being received, and a complete message goes to the
handler of its destination, whose answer is sent back. -/
def handleData (env : Env) (svc : Service σ T) (srv : Server σ T) (packet : QPacket) (client : SocketAddr) :
    Except Panic (Server σ T × List Event) :=
  match srv.clientRegistry.clients.lookup packet.signature with
  | none => .ok (srv, [])
  | some ci => do
    let ci := ci.seen env.now
    let ack ← sendAck env svc client packet ci false
    let received := receivePayload env.now ci packet
    let reg := srv.clientRegistry.set packet.signature received.1
    match handlerCall svc packet received.2 with
    | none => return ({ srv with clientRegistry := reg }, [ack])
    | some (handler, payload) =>
      let r ← handler.handle env packet.signature reg srv.app payload
      let srv := { srv with clientRegistry := r.registry, app := r.app }
      match r.answer, r.registry.clients.lookup packet.signature with
      | .ok answer, some ci =>
        let (resps, ci) ← responsePackets env.build packet ci (cutPayload answer)
        let sent ← sendAll env svc client resps
        return ({ srv with clientRegistry := r.registry.set packet.signature ci }, ack :: r.events ++ sent)
      | _, _ => return (srv, ack :: r.events)

/-- A SYN packet opens a connection under a random signature, which the acknowledgement carries. -/
def handleSyn (env : Env) (svc : Service σ T) [Inhabited T] (srv : Server σ T) (packet : QPacket) (client : SocketAddr) :
    Except Panic (Server σ T × List Event) := do
  let ci : ClientInfo T := ClientInfo.new env.now env.randomSignature client
  let sig := ci.serverSignature
  let srv := { srv with newClients := AList.insert sig ci srv.newClients }
  let packet := { packet with connSignature := some sig }
  let ack ← sendAck env svc client packet ci false
  return (srv, [ack])

/-- What a client sends under its session key to prove that it has it. -/
structure ConnectData where
  userPid : UInt32
  connectionId : UInt32
  challenge : UInt32
  deriving DecidableEq, Repr

/-- Read the proof of the session key. -/
def ConnectData.fromStream : Reader ConnectData := fun rdr => do
  let (userPid, rdr) ← streamU32 rdr
  let (connectionId, rdr) ← streamU32 rdr
  let (challenge, rdr) ← streamU32 rdr
  return ({ userPid, connectionId, challenge }, rdr)

/-- Present the ticket a CONNECT packet carries for the connection with a signature: a valid one gives the connection its user
and a new connection id, also when the proof after it is malformed; an expired one gives an empty answer. -/
def presentTicket (env : Env) (svc : Service σ T) (srv : Server σ T) (sig : UInt32) (ci : ClientInfo T) (data : Bytes) :
    Except Panic (Server σ T × ClientInfo T × Except FromStreamError Bytes) :=
  let opened : Except FromStreamError (KerberosTicketInternal × Bytes) := do
    let (ticket, rdr) ← readVec streamU8 data
    let (requestData, _) ← readVec streamU8 rdr
    let ti ← KerberosTicketInternal.open svc.box ticket svc.ctx.ticketKey
    return (ti, requestData)
  match opened with
  | .error e => .ok (srv, ci, .error e)
  | .ok (ti, requestData) =>
    if ti.validUntil < env.unixTime then .ok (srv, ci, .ok [])
    else do
      let id : ConnectionID := ⟨srv.nextConnId⟩
      let ci := { ci with userId := some ti.principleId, connectionId := some id }
      let reg := srv.clientRegistry.set sig ci
      let srv := { srv with
        nextConnId := srv.nextConnId + 1
        clientRegistry :=
          { reg with connectionIdSessionIds := AList.insert id ⟨sig⟩ reg.connectionIdSessionIds } }
      let proof ← cryptKey ti.sessionKey requestData
      match ConnectData.fromStream proof with
      | .error e => return (srv, ci, .error e)
      | .ok (cd, _) =>
        let resp ← env.build.addU32 cd.challenge 1
        return (srv, ci, .ok (putVecU8 (putU32 resp)))

/-- A CONNECT packet completes the opening of a connection; on the secure server it presents a ticket. -/
def handleConnect (env : Env) (svc : Service σ T) (srv : Server σ T) (packet : QPacket) (client : SocketAddr) :
    Except Panic (Server σ T × List Event) :=
  match packet.connSignature with
  | none => .ok (srv, [])
  | some signature =>
    match srv.newClients.lookup packet.signature with
    | none => .ok (srv, [])
    | some ci => do
      let ci := { ci with
        clientSignature := some signature
        serverSession := env.randomSession
        clientSession := packet.sessionId }
      let srv := { srv with
        newClients := srv.newClients.erase packet.signature
        clientRegistry := srv.clientRegistry.set packet.signature ci }
      let (srv, ci, payload) ←
        if packet.payload = [] then pure (srv, ci, [])
        else do
          let (srv, ci, res) ← presentTicket env svc srv packet.signature ci packet.payload
          pure (srv, ci, res.toOption.getD [])
      let packet := { packet with payload, connSignature := some 0 }
      let ack ← sendAck env svc client packet ci (payload ≠ [])
      return (srv, [ack])

/-- A received packet. -/
def handlePacket (env : Env) (svc : Service σ T) [Inhabited T] (srv : Server σ T) (packet : QPacket) (client : SocketAddr) :
    Except Panic (Server σ T × List Event) :=
  if packet.flags.contains .ack then .ok (srv, [])
  else
    match packet.packetType with
    | .syn => handleSyn env svc srv packet client
    | .connect => handleConnect env svc srv packet client
    | .data => handleData env svc srv packet client
    | .disconnect =>
      match srv.clientRegistry.clients.lookup packet.signature with
      | none => .ok (srv, [])
      | some ci => do
        let srv := { srv with
          clientRegistry := { srv.clientRegistry with clients := srv.clientRegistry.clients.erase packet.signature } }
        let ack ← sendAck env svc client packet ci false
        match svc.disconnectHandler with
        | none => return (srv, [ack])
        | some handler => return ({ srv with app := handler ci srv.app }, [ack])
    | .ping =>
      match srv.clientRegistry.clients.lookup packet.signature with
      | none => .ok (srv, [])
      | some ci => do
        let ci := ci.seen env.now
        let ack ← sendAck env svc client packet ci false
        return ({ srv with clientRegistry := srv.clientRegistry.set packet.signature ci }, [ack])
    | .user =>
      match svc.userHandler with
      | none => .ok (srv, [])
      | some handler => do
        let events ← handler env packet client
        return (srv, events)
    | .route => .error .todo
    | .raw => .error .todo

end Scbl.Prudp
