import Scbl.Prudp.Server

/-!
# The loop of the server

Every iteration of `serve` receives a datagram or times out. A datagram may carry several packets: `parsePackets` cuts it up and
checks them, and the packets that pass are handled in their order. A receive that times out removes the connections that expired.
-/

namespace Scbl.Prudp

open Scbl.Lib

variable {σ T : Type}

/-! ## Cutting up a datagram -/

/-- How cutting up a datagram ends: at its end, or at bytes that are no packet. -/
inductive ParseEnd where
  | finished
  | invalid (e : Error)
  | panicked (p : Panic)
  deriving DecidableEq

/-- The packets of a datagram, each with the outcome of its check, and how they ended. -/
structure Parsed where
  packets : List (QPacket × Except Error Unit)
  stop : ParseEnd

/-- The bytes after a decoded packet are fewer. -/
theorem fromBytes_drop_lt {zlib : Zlib} {ctx : Context} {data : Bytes} {p : QPacket} {n : Nat}
    (h : QPacket.fromBytes zlib ctx data = .ok (p, n)) : (data.drop n).length < data.length := by
  obtain ⟨⟨q, rest⟩, hr, hn⟩ := bind_eq_ok.mp h
  obtain ⟨-, rfl⟩ := Prod.mk.inj (Except.ok.inj hn)
  have hlt := (QPacket.fromReader_ok hr).2.2
  rw [List.length_drop]
  omega

/-- The packets of a datagram: each is checked against the bytes it takes, the next one begins after them, and bytes that are no
packet end the datagram. -/
def parsePackets (zlib : Zlib) (ctx : Context) (data : Bytes) : Parsed :=
  if data = [] then { packets := [], stop := .finished }
  else
    match h : QPacket.fromBytes zlib ctx data with
    | .error (.fail e) => { packets := [], stop := .invalid e }
    | .error (.panic p) => { packets := [], stop := .panicked p }
    | .ok (packet, nparsed) =>
      have := fromBytes_drop_lt h
      let rest := parsePackets zlib ctx (data.drop nparsed)
      { rest with packets := (packet, packet.validate ctx (data.take nparsed)) :: rest.packets }
  termination_by data.length
  decreasing_by assumption

@[simp] theorem parsePackets_nil (zlib : Zlib) (ctx : Context) : parsePackets zlib ctx [] = { packets := [], stop := .finished } := by
  rw [parsePackets, if_pos rfl]

/-- The packets of a datagram that begins with a packet. -/
theorem parsePackets_cons {zlib : Zlib} {ctx : Context} {data : Bytes} {p : QPacket} {n : Nat}
    (h : QPacket.fromBytes zlib ctx data = .ok (p, n)) :
    parsePackets zlib ctx data =
      { parsePackets zlib ctx (data.drop n) with
        packets := (p, p.validate ctx (data.take n)) :: (parsePackets zlib ctx (data.drop n)).packets } := by
  have hne : data ≠ [] := by
    rintro rfl
    exact absurd (fromBytes_drop_lt h) (Nat.not_lt_zero _)
  rw [parsePackets, if_neg hne]
  split
  · rename_i he
    rw [h] at he
    nomatch he
  · rename_i he
    rw [h] at he
    nomatch he
  · rename_i he
    rw [h] at he
    obtain ⟨rfl, rfl⟩ := Prod.mk.inj (Except.ok.inj he)
    rfl

/-! ## Expired connections -/

/-- How long a connection lives without a packet. -/
def sessionTimeout : Duration := Duration.fromSecs 60

/-- Whether the last packet of a connection was too long ago. -/
def ClientInfo.expired (now : Instant) (ci : ClientInfo T) : Bool := sessionTimeout < now - ci.lastSeen

/-- Remove the connection id of a connection. -/
def removeConnectionId (cids : AList (fun _ : ConnectionID => Signature)) (ci : ClientInfo T) :
    AList (fun _ : ConnectionID => Signature) :=
  match ci.connectionId with
  | some id => cids.erase id
  | none => cids

/-- Remove the expired connections. Their connection ids go only when there is a handler to call for them. -/
def clearClients (now : Instant) (order : MapOrder) (svc : Service σ T) (srv : Server σ T) : Server σ T :=
  let reg := srv.clientRegistry
  let clients := retain (fun _ ci => !ci.expired now) reg.clients
  match svc.expiredClientHandler with
  | none => { srv with clientRegistry := { reg with clients } }
  | some handler =>
    let expired := ((order.apply reg.clients.entries).map (fun e => e.2)).filter (ClientInfo.expired now)
    { srv with
      clientRegistry :=
        { clients, connectionIdSessionIds := expired.foldl removeConnectionId reg.connectionIdSessionIds }
      app := expired.foldl (fun app ci => handler ci app) srv.app }

/-- A step of the server: a packet is handled, or the expired connections are removed. -/
inductive ServerStep where
  | packet (env : Env) (packet : QPacket) (client : SocketAddr)
  | clearClients (now : Instant) (order : MapOrder)

/-- One step. -/
def serverStep (svc : Service σ T) [Inhabited T] (srv : Server σ T) : ServerStep → Except Panic (Server σ T × List Event)
  | .packet env packet client => handlePacket env svc srv packet client
  | .clearClients now order => .ok (clearClients now order svc srv, [])

/-! ## The loop -/

/-- The size of the receive buffer. -/
def bufferSize : Nat := 1024

/-- What a receive of the loop gives: a datagram, with what the outside world supplies while each of its packets is handled, a
timeout, or an error. -/
inductive Received where
  | datagram (data : Bytes) (client : SocketAddr) (envs : Nat → Env)
  | timedOut (now : Instant) (order : MapOrder)
  | failed

/-- Handle the packets of a datagram that pass their check. -/
def handlePackets (svc : Service σ T) [Inhabited T] (client : SocketAddr) :
    (Nat → Env) → Server σ T → List (QPacket × Except Error Unit) → Except Panic (Server σ T × List Event)
  | _, srv, [] => .ok (srv, [])
  | envs, srv, (packet, checked) :: rest => do
    let (srv, es) ← match checked with
      | .ok () => handlePacket (envs 0) svc srv packet client
      | .error _ => pure (srv, [])
    let (srv, es') ← handlePackets svc client (fun i => envs (i + 1)) srv rest
    return (srv, es ++ es')

/-- One iteration of the loop. -/
def serveOnce (svc : Service σ T) [Inhabited T] (srv : Server σ T) : Received → Except Panic (Server σ T × List Event)
  | .datagram data client envs => do
    let parsed := parsePackets svc.zlib svc.ctx (data.take bufferSize)
    let handled ← handlePackets svc client envs srv parsed.packets
    match parsed.stop with
    | .panicked p => throw p
    | .finished | .invalid _ => return handled
  | .timedOut now order => .ok (clearClients now order svc srv, [])
  | .failed => .ok (srv, [])

/-- An iteration that receives a datagram of packets handles them. -/
theorem serveOnce_datagram {svc : Service σ T} [Inhabited T] {srv : Server σ T} {data : Bytes} {client : SocketAddr}
    {envs : Nat → Env} {packets : List (QPacket × Except Error Unit)} {r : Server σ T × List Event}
    (hparse : parsePackets svc.zlib svc.ctx (data.take bufferSize) = { packets, stop := .finished })
    (hhandle : handlePackets svc client envs srv packets = .ok r) : serveOnce svc srv (.datagram data client envs) = .ok r := by
  simp only [serveOnce, hparse, hhandle]
  rfl

end Scbl.Prudp
