import Scbl.Config
import Scbl.Lib.Text
import Scbl.RouteGuard.Guard

/-!
# The owners of the sockets

The tables that the system gives of TCP and UDP sockets, the maps that the resolver builds from them, and the process that it finds for a
packet: the one of the socket with exactly the packet's addresses and ports, and else one that uses the local port. A map is iterated in
any order when the sockets are indexed by their ports.
-/

namespace Scbl.RouteGuard

open Lib

/-- `String` of an address. -/
def IPv4.string (ip : IPv4) : Text := joinWith '.' (ip.bytes.map (fun b => Nat.toDigits 10 b.toNat))

/-! ## The tables of the system -/

structure TCPRow where
  localIP : IPv4
  localPort : UInt16
  remoteIP : IPv4
  remotePort : UInt16
  pid : UInt32
  deriving DecidableEq, Repr

structure UDPRow where
  localIP : IPv4
  localPort : UInt16
  pid : UInt32
  deriving DecidableEq, Repr

structure OwnerKey where
  proto : UInt8
  localIP : Text
  localPort : UInt16
  remoteIP : Text
  remotePort : UInt16
  deriving DecidableEq, Repr

structure UDPKey where
  localIP : Text
  localPort : UInt16
  deriving DecidableEq, Repr

def readTCPRow (row : Bytes) : TCPRow where
  localIP := ipv4FromPacket (window 4 4 row)
  localPort := uint16 (window 8 2 row)
  remoteIP := ipv4FromPacket (window 12 4 row)
  remotePort := uint16 (window 16 2 row)
  pid := UInt32.ofNat (leValue (window 20 4 row))

def readUDPRow (row : Bytes) : UDPRow where
  localIP := ipv4FromPacket (window 0 4 row)
  localPort := uint16 (window 4 2 row)
  pid := UInt32.ofNat (leValue (window 8 4 row))

/-- The rows of a table: as many as it says, up to the first one that it does not hold. -/
def tableRows {Row : Type} (rowSize : Nat) (read : Bytes → Row) (buf : Bytes) : List Row :=
  ((List.range (leValue (window 0 4 buf))).takeWhile (fun i => 4 + i * rowSize + rowSize ≤ buf.length)).map
    (fun i => read (window (4 + i * rowSize) rowSize buf))

abbrev TCPOwners := AList (fun _ : OwnerKey => UInt32)

abbrev UDPOwners := AList (fun _ : UDPKey => List UInt32)

abbrev PortIndex := AList (fun _ : UInt16 => List UInt32)

def TCPRow.key (row : TCPRow) : OwnerKey :=
  { proto := protoTCP, localIP := row.localIP.string, localPort := row.localPort, remoteIP := row.remoteIP.string,
    remotePort := row.remotePort }

def UDPRow.key (row : UDPRow) : UDPKey := { localIP := row.localIP.string, localPort := row.localPort }

def tcpOwners (rows : List TCPRow) : TCPOwners := insertAll ∅ (rows.map (fun row => (row.key, row.pid)))

/-- A row adds its process to those of its socket. -/
def addUDPRow (owners : UDPOwners) (row : UDPRow) : UDPOwners :=
  let pids := (owners.lookup row.key).getD []
  if row.pid ∈ pids then owners else owners.insert row.key (pids ++ [row.pid])

def udpOwners (rows : List UDPRow) : UDPOwners := rows.foldl addUDPRow ∅

/-- `none` is an error: the system did not give the table, or it is too small. -/
def getTCPOwners (table : Option Bytes) : Option TCPOwners :=
  table.bind (fun buf => if buf.length < 4 then none else some (tcpOwners (tableRows 24 readTCPRow buf)))

def getUDPOwners (table : Option Bytes) : Option UDPOwners :=
  table.bind (fun buf => if buf.length < 4 then none else some (udpOwners (tableRows 12 readUDPRow buf)))

/-! ## The indexes by port -/

def appendUniquePID (items : List UInt32) (pid : UInt32) : List UInt32 :=
  if pid = 0 then items else if pid ∈ items then items else items ++ [pid]

/-- `index[port] = appendUniquePID(index[port], pid)` -/
def addToIndex (index : PortIndex) (item : UInt16 × UInt32) : PortIndex :=
  index.insert item.1 (appendUniquePID ((index.lookup item.1).getD []) item.2)

def buildTCPPortIndex (order : MapOrder) (owners : TCPOwners) : PortIndex :=
  ((order.apply owners.entries).map (fun e => (e.1.localPort, e.2))).foldl addToIndex ∅

def buildUDPPortIndex (order : MapOrder) (owners : UDPOwners) : PortIndex :=
  ((order.apply owners.entries).flatMap (fun e => e.2.map (fun pid => (e.1.localPort, pid)))).foldl addToIndex ∅

/-! ## The resolver -/

/-- The processes of the session; 0 is none of them. -/
structure TargetPIDs where
  pids : List UInt32
  zero_notMem : 0 ∉ pids

def TargetPIDs.none : TargetPIDs := { pids := [], zero_notMem := List.not_mem_nil }

/-- The processes of the heartbeat that are alive. -/
def sessionPIDs (gamePIDs : List UInt32) (windowsProcessAlive : UInt32 → Bool) : TargetPIDs where
  pids := gamePIDs.filter (fun pid => pid ≠ 0 && windowsProcessAlive pid)
  zero_notMem h := by simpa using (List.mem_filter.1 h).2

/-- What the resolver holds between two refreshes. -/
structure OwnerTables where
  targetPIDs : TargetPIDs
  tcpOwners : TCPOwners
  tcpOwnersByPort : PortIndex
  udpOwners : UDPOwners
  udpOwnersByPort : PortIndex

def newOwnerResolver : OwnerTables :=
  { targetPIDs := .none, tcpOwners := ∅, tcpOwnersByPort := ∅, udpOwners := ∅, udpOwnersByPort := ∅ }

namespace OwnerTables

/-- A refresh: a table that is an error leaves what was read before. -/
def refresh (r : OwnerTables) (pids : TargetPIDs) (tcpOrder udpOrder : MapOrder) (tcp udp : Option Bytes) : OwnerTables :=
  let r := { r with targetPIDs := pids }
  let r :=
    match getTCPOwners tcp with
    | some owners => { r with tcpOwners := owners, tcpOwnersByPort := buildTCPPortIndex tcpOrder owners }
    | none => r
  match getUDPOwners udp with
  | some owners => { r with udpOwners := owners, udpOwnersByPort := buildUDPPortIndex udpOrder owners }
  | none => r

def isTargetPID (r : OwnerTables) (pid : UInt32) : Bool := pid ∈ r.targetPIDs.pids

def preferredTargetPID (r : OwnerTables) (pids : List UInt32) : Option UInt32 := pids.find? r.isTargetPID

def preferredPID (r : OwnerTables) (pids : List UInt32) : Option UInt32 :=
  match r.preferredTargetPID pids with
  | some pid => some pid
  | none =>
    match pids with
    | pid :: _ => if pid ≠ 0 then some pid else none
    | [] => none

def ownerByUDPPort (r : OwnerTables) (port : UInt16) : Option UInt32 :=
  match r.udpOwnersByPort.lookup port with
  | some pids => r.preferredPID pids
  | none => none

/-- The owner of a socket by the addresses and ports on both sides. -/
def ownerOf (r : OwnerTables) (proto : UInt8) (localIP : IPv4) (localPort : UInt16) (remoteIP : IPv4) (remotePort : UInt16) :
    Option UInt32 :=
  if proto = protoTCP then
    match r.tcpOwners.lookup { proto, localIP := localIP.string, localPort, remoteIP := remoteIP.string, remotePort } with
    | some pid => some pid
    | none =>
      match r.tcpOwnersByPort.lookup localPort with
      | some pids => r.preferredPID pids
      | none => none
  else if proto = protoUDP then
    match r.udpOwners.lookup { localIP := localIP.string, localPort } with
    | some pids => r.preferredPID pids
    | none =>
      match r.udpOwners.lookup { localIP := "0.0.0.0".toList, localPort } with
      | some pids => r.preferredPID pids
      | none => r.ownerByUDPPort localPort
  else none

def owner (r : OwnerTables) (m : PacketMeta) : Option UInt32 := r.ownerOf m.proto m.srcIP m.srcPort m.dstIP m.dstPort

def ownerInbound (r : OwnerTables) (m : PacketMeta) : Option UInt32 := r.ownerOf m.proto m.dstIP m.dstPort m.srcIP m.srcPort

/-- What the loop asks; a request for a refresh changes nothing of the answer. -/
def resolver (r : OwnerTables) : OwnerResolver where
  resolveOutbound := r.owner
  resolveInbound := r.ownerInbound
  isTargetPID := r.isTargetPID

end OwnerTables

end Scbl.RouteGuard
