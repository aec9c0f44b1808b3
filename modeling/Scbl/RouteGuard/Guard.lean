import Scbl.RouteGuard.NATTable
import Scbl.Lib.Run

/-!
# The route guard's loop

The loop receives one packet after the other, asks which process owns its socket, and sends it on, rewrites it or drops it. A packet
the game sends into the overlay leaves from the overlay address, and what it replaced is remembered; a packet from the overlay that
answers it gets it back. Beside the loop, the NAT table is cleaned up on a timer.
-/

namespace Scbl.RouteGuard

open Lib

/-- The address WinDivert hands out with a packet. -/
structure DivertAddress where
  raw : Bytes
  length_raw : raw.length = 96

namespace DivertAddress

/-- The packet leaves this machine (bit 17 of the flags). -/
def outbound (a : DivertAddress) : Bool := leValue (window 8 8 a.raw) / 2 ^ 17 % 2 = 1

def networkInterface (a : DivertAddress) : UInt32 := UInt32.ofNat (leValue (window 16 4 a.raw))

def setNetworkInterface (a : DivertAddress) (ifIdx subIfIdx : UInt32) : DivertAddress where
  raw := overwrite 20 (putU32 subIfIdx) (overwrite 16 (putU32 ifIdx) a.raw)
  length_raw := by
    have h : (overwrite 16 (putU32 ifIdx) a.raw).length = 96 := by
      rw [length_overwrite (by rw [length_putU32, a.length_raw]; decide), a.length_raw]
    rw [length_overwrite (by rw [length_putU32, h]; decide), h]

end DivertAddress

/-- What the owner tables say while a packet is handled: the process that owns the packet's socket, when it is known, and whether a
process belongs to the launcher's session. -/
structure OwnerResolver where
  resolveOutbound : PacketMeta → Option UInt32
  resolveInbound : PacketMeta → Option UInt32
  isTargetPID : UInt32 → Bool

/-- The owner is known and a process of the session. -/
def OwnerResolver.targets (r : OwnerResolver) (owner : Option UInt32) : Bool :=
  match owner with
  | some pid => r.isTargetPID pid
  | none => false

/-- What the loop was started with; an interface index of 0 is none. -/
structure Guard where
  clientIP : IPv4
  virtualNet : IPNet
  interfaceIndex : UInt64

/-- The overlay's broadcast address. -/
def Guard.virtualBroadcast (g : Guard) : IPv4 := (ipv4Range g.virtualNet).2

/-- A packet the loop received, and what the owner tables say of it then. -/
structure Received where
  resolver : OwnerResolver
  now : Int
  pkt : Bytes
  addr : DivertAddress

/-- What becomes of a received packet; it is sent with its checksums calculated anew when it was changed. -/
inductive Verdict
  | drop
  | send (pkt : Bytes) (addr : DivertAddress) (changed : Bool)

namespace Guard

/-- The flow of an outbound packet. -/
def original (p : PacketMeta) (now : Int) : NatMapping :=
  { proto := p.proto, localIP := p.srcIP, localPort := p.srcPort, remoteIP := p.dstIP, remotePort := p.dstPort, updatedAt := now }

/-- The packet is a UDP broadcast in the overlay. -/
def isVirtualBroadcast (g : Guard) (p : PacketMeta) : Bool := p.proto = protoUDP ∧ p.dstIP = g.virtualBroadcast

/-- An outbound packet of the game. -/
def handleOutbound (g : Guard) (nat : NATTable) (rx : Received) (p : PacketMeta) : NATTable × Verdict :=
  if g.virtualNet.contains p.dstIP then
    let addr := if 0 < g.interfaceIndex then rx.addr.setNetworkInterface g.interfaceIndex.toUInt32 0 else rx.addr
    if p.srcIP ≠ g.clientIP then
      let nat' :=
        if g.isVirtualBroadcast p then nat.putWildcard (original p rx.now) else nat.put (original p rx.now) p.dstIP
      (nat', .send (p.setSrcIP g.clientIP).data addr true)
    else (nat, .send p.data addr false)
  else (nat, .drop)

/-- The packet is not one that came over the overlay's interface. -/
def wrongInterface (g : Guard) (addr : DivertAddress) : Bool :=
  0 < g.interfaceIndex ∧ addr.networkInterface ≠ g.interfaceIndex.toUInt32

/-- The packet with the flow's addresses and ports put back. -/
def restore (p : PacketMeta) (m : NatMapping) : PacketMeta :=
  (((p.setSrcIP m.remoteIP).setDstIP m.localIP).setSrcPort m.remotePort).setDstPort m.localPort

/-- An inbound packet for the game. -/
def handleInbound (g : Guard) (nat : NATTable) (rx : Received) (p : PacketMeta) : Verdict :=
  if ¬g.virtualNet.contains p.srcIP ∨ g.wrongInterface rx.addr then .drop
  else
    match nat.get p.proto p.dstPort p.srcPort p.srcIP with
    | some m => .send (restore p m).data rx.addr true
    | none => .send p.data rx.addr false

/-- One round of the loop. A packet of another process, or of none that is known, is sent on as it is. -/
def handle (g : Guard) (nat : NATTable) (rx : Received) : NATTable × Verdict :=
  if rx.pkt = [] then (nat, .drop)
  else
    match parsePacket rx.pkt with
    | none => (nat, .send rx.pkt rx.addr false)
    | some p =>
      if rx.addr.outbound then
        if rx.resolver.targets (rx.resolver.resolveOutbound p) then g.handleOutbound nat rx p
        else (nat, .send p.data rx.addr false)
      else if rx.resolver.targets (rx.resolver.resolveInbound p) then (nat, g.handleInbound nat rx p)
      else (nat, .send p.data rx.addr false)

end Guard

/-- What happens to the table: the loop receives a packet, or the cleanup's timer ticks. -/
inductive Event
  | packet (rx : Received)
  | tick (now : Int)

/-- The table after an event, and what became of the packet. -/
def Guard.step (g : Guard) (nat : NATTable) : Event → NATTable × Option Verdict
  | .packet rx => ((g.handle nat rx).1, some (g.handle nat rx).2)
  | .tick now => (nat.cleanup now, none)

/-- The table after a list of events. -/
def Guard.natAfter (g : Guard) (ttl : Int) (events : List Event) : NATTable := run g.step (newNATTable ttl) events

end Scbl.RouteGuard
