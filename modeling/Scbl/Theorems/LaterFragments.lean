import Scbl.Theorems.NatRestore

/-!
# Fragments in the route guard

Only the first fragment of an IPv4 packet holds the ports. The loop promises to send the others on as they are, but the parser does not
look at the fragment offset, and takes the payload behind the IP header for ports when there are eight bytes of it. The loop passes a
later fragment when it is too short for that, when no game process owns the port that its payload names, or when the addresses leave
nothing to do.
-/

namespace Scbl.RouteGuard

open Lib

/-! ## Headers -/

/-- Where the packet belongs in the datagram it is a fragment of, in units of eight bytes. -/
def fragmentOffset (pkt : Bytes) : Nat := (uint16 (window 6 2 pkt) &&& 0x1FFF).toNat

/-- A fragment that is not the first one. -/
def LaterFragment (pkt : Bytes) : Prop := fragmentOffset pkt ≠ 0

instance (pkt : Bytes) : Decidable (LaterFragment pkt) := inferInstanceAs (Decidable (_ ≠ _))

/-- The length of the IP header. -/
def headerLength (pkt : Bytes) : Nat := (pkt.getD 0 0 &&& 0x0F).toNat * 4

/-- The ports of the transport header. It stands behind the IP header of the first fragment, and the later ones do not hold it. -/
def transportPorts (pkt : Bytes) : Option (UInt16 × UInt16) :=
  if fragmentOffset pkt = 0 then some (uint16 (window (headerLength pkt) 2 pkt), uint16 (window (headerLength pkt + 2) 2 pkt)) else none

/-- There is an IPv4 header of TCP or UDP, and eight bytes behind it. -/
structure HasHeader (pkt : Bytes) : Prop where
  length : 20 ≤ pkt.length
  version : pkt.getD 0 0 >>> 4 = 4
  header : 20 ≤ headerLength pkt
  ports : headerLength pkt + 8 ≤ pkt.length
  proto : pkt.getD 9 0 = protoTCP ∨ pkt.getD 9 0 = protoUDP

/-- What stands where the fields of an IPv4 header and the ports behind it would be. -/
def fieldsOf (pkt : Bytes) : PacketMeta where
  data := pkt
  ihl := headerLength pkt
  proto := pkt.getD 9 0
  srcIP := ipv4FromPacket (window 12 4 pkt)
  dstIP := ipv4FromPacket (window 16 4 pkt)
  srcPort := uint16 (window (headerLength pkt) 2 pkt)
  dstPort := uint16 (window (headerLength pkt + 2) 2 pkt)
  portOffset := headerLength pkt

/-- The ports that the parser reports are those of the packet. -/
def ReportsPorts (pkt : Bytes) : Prop := ∀ m, parsePacket pkt = some m → transportPorts pkt = some (m.srcPort, m.dstPort)

/-- The parser accepts what has the headers, and reads the fields. -/
theorem parsePacket_eq_some_iff_header {pkt : Bytes} {m : PacketMeta} : parsePacket pkt = some m ↔ HasHeader pkt ∧ m = fieldsOf pkt := by
  rw [parsePacket_eq_some_iff]
  constructor
  · rintro ⟨⟨hlen, hversion, hheader, hports, hproto⟩, hdata, hihl, hp, hsrc, hdst, hsp, hdp, hoff⟩
    obtain ⟨data, ihl, proto, srcIP, dstIP, srcPort, dstPort, portOffset⟩ := m
    dsimp only at *
    subst hdata hihl hp hsrc hdst hsp hdp hoff
    exact ⟨⟨hlen, hversion, hheader, hports, hproto⟩, rfl⟩
  · rintro ⟨h, rfl⟩
    exact ⟨⟨h.length, h.version, h.header, h.ports, h.proto⟩, rfl, rfl, rfl, rfl, rfl, rfl, rfl, rfl⟩

/-- The ports are reported right exactly when the packet is no later fragment that could hold them. -/
theorem reportsPorts_iff (pkt : Bytes) : ReportsPorts pkt ↔ ¬(LaterFragment pkt ∧ HasHeader pkt) := by
  constructor
  · rintro h ⟨hlater, hheader⟩
    have hports := h _ (parsePacket_eq_some_iff_header.2 ⟨hheader, rfl⟩)
    rw [transportPorts, if_neg hlater] at hports
    nomatch hports
  · intro h m hm
    obtain ⟨hheader, rfl⟩ := parsePacket_eq_some_iff_header.1 hm
    have hfirst : fragmentOffset pkt = 0 := by
      by_contra hlater
      exact h ⟨hlater, hheader⟩
    rw [transportPorts, if_pos hfirst]
    rfl

namespace Guard

/-! ## The loop -/

/-- The packet is sent on as it is, and nothing is recorded. -/
def Passes (g : Guard) (nat : NATTable) (rx : Received) : Prop :=
  ∃ addr, g.handle nat rx = (nat, .send rx.pkt addr false)

/-- The loop takes the packet for one that the game sends, and drops it or sends it from the overlay address. -/
def TakenOut (g : Guard) (rx : Received) (p : PacketMeta) : Prop :=
  rx.resolver.targets (rx.resolver.resolveOutbound p) = true ∧ (g.virtualNet.contains p.dstIP = false ∨ p.srcIP ≠ g.clientIP)

/-- The loop takes the packet for one to the game, and drops it or restores the addresses and ports of a mapping. -/
def TakenIn (g : Guard) (nat : NATTable) (rx : Received) (p : PacketMeta) : Prop :=
  rx.resolver.targets (rx.resolver.resolveInbound p) = true ∧
    (g.virtualNet.contains p.srcIP = false ∨ g.wrongInterface rx.addr = true ∨ (nat.get p.proto p.dstPort p.srcPort p.srcIP).isSome = true)

/-- The loop takes what stands behind the IP header for ports, and the packet for one of the game. -/
def Taken (g : Guard) (nat : NATTable) (rx : Received) : Prop :=
  HasHeader rx.pkt ∧ if rx.addr.outbound then g.TakenOut rx (fieldsOf rx.pkt) else g.TakenIn nat rx (fieldsOf rx.pkt)

variable {g : Guard} {nat : NATTable} {rx : Received} {p : PacketMeta}

theorem handleOutbound_passes_iff :
    (∃ addr, g.handleOutbound nat rx p = (nat, .send p.data addr false)) ↔ g.virtualNet.contains p.dstIP = true ∧ p.srcIP = g.clientIP := by
  by_cases hin : g.virtualNet.contains p.dstIP = true
  · by_cases hsrc : p.srcIP = g.clientIP
    · simp [handleOutbound, hin, hsrc]
    · simp [handleOutbound, hin, hsrc]
  · simp [handleOutbound, hin]

theorem handleInbound_passes_iff :
    (∃ addr, g.handleInbound nat rx p = .send p.data addr false) ↔
      g.virtualNet.contains p.srcIP = true ∧ g.wrongInterface rx.addr = false ∧ nat.get p.proto p.dstPort p.srcPort p.srcIP = none := by
  by_cases hin : g.virtualNet.contains p.srcIP = true
  · cases hwrong : g.wrongInterface rx.addr with
    | true => simp [handleInbound, hwrong]
    | false =>
      cases hget : nat.get p.proto p.dstPort p.srcPort p.srcIP with
      | some m => simp [handleInbound, hin, hwrong, hget]
      | none => simp [handleInbound, hin, hwrong, hget]
  · simp [handleInbound, hin]

theorem handle_of_parsePacket_none (h : parsePacket rx.pkt = none) (hne : rx.pkt ≠ []) :
    g.handle nat rx = (nat, .send rx.pkt rx.addr false) := by
  unfold handle
  rw [if_neg hne, h]

theorem handle_outbound (h : HasHeader rx.pkt) (hout : rx.addr.outbound = true) :
    g.handle nat rx = if rx.resolver.targets (rx.resolver.resolveOutbound (fieldsOf rx.pkt)) then g.handleOutbound nat rx (fieldsOf rx.pkt)
      else (nat, .send rx.pkt rx.addr false) := by
  have hne : rx.pkt ≠ [] := List.ne_nil_of_length_pos (Nat.lt_of_lt_of_le (by decide) h.length)
  unfold handle
  rw [if_neg hne, parsePacket_eq_some_iff_header.2 ⟨h, rfl⟩]
  exact if_pos hout

theorem handle_inbound (h : HasHeader rx.pkt) (hin : rx.addr.outbound = false) :
    g.handle nat rx = if rx.resolver.targets (rx.resolver.resolveInbound (fieldsOf rx.pkt)) then
        (nat, g.handleInbound nat rx (fieldsOf rx.pkt))
      else (nat, .send rx.pkt rx.addr false) := by
  have hne : rx.pkt ≠ [] := List.ne_nil_of_length_pos (Nat.lt_of_lt_of_le (by decide) h.length)
  unfold handle
  rw [if_neg hne, parsePacket_eq_some_iff_header.2 ⟨h, rfl⟩]
  exact if_neg (Bool.eq_false_iff.1 hin)

/-- An outbound packet passes exactly when it is not taken for one that the game sends. -/
theorem passes_outbound_iff (h : HasHeader rx.pkt) (hout : rx.addr.outbound = true) :
    g.Passes nat rx ↔ ¬g.TakenOut rx (fieldsOf rx.pkt) := by
  rw [Passes, handle_outbound h hout, TakenOut]
  cases htarget : rx.resolver.targets (rx.resolver.resolveOutbound (fieldsOf rx.pkt)) with
  | false => exact iff_of_true ⟨_, rfl⟩ (fun hn => nomatch hn.1)
  | true =>
    rw [if_pos rfl]
    refine handleOutbound_passes_iff.trans ?_
    simp

/-- An inbound packet passes exactly when it is not taken for one to the game. -/
theorem passes_inbound_iff (h : HasHeader rx.pkt) (hin : rx.addr.outbound = false) :
    g.Passes nat rx ↔ ¬g.TakenIn nat rx (fieldsOf rx.pkt) := by
  rw [Passes, handle_inbound h hin, TakenIn]
  cases htarget : rx.resolver.targets (rx.resolver.resolveInbound (fieldsOf rx.pkt)) with
  | false => exact iff_of_true ⟨_, rfl⟩ (fun hn => nomatch hn.1)
  | true =>
    rw [if_pos rfl]
    have hverdict : (∃ addr, (nat, g.handleInbound nat rx (fieldsOf rx.pkt)) = (nat, Verdict.send rx.pkt addr false)) ↔
        ∃ addr, g.handleInbound nat rx (fieldsOf rx.pkt) = .send (fieldsOf rx.pkt).data addr false :=
      exists_congr fun _ => Prod.mk_right_injective nat |>.eq_iff
    refine hverdict.trans (handleInbound_passes_iff.trans ?_)
    simp

/-- A packet passes exactly when it is not taken for one of the game. -/
theorem passes_iff (hne : rx.pkt ≠ []) : g.Passes nat rx ↔ ¬g.Taken nat rx := by
  by_cases h : HasHeader rx.pkt
  · cases hout : rx.addr.outbound with
    | true =>
      rw [passes_outbound_iff h hout, Taken, hout]
      exact not_congr ⟨fun ht => ⟨h, ht⟩, fun ht => ht.2⟩
    | false =>
      rw [passes_inbound_iff h hout, Taken, hout]
      exact not_congr ⟨fun ht => ⟨h, ht⟩, fun ht => ht.2⟩
  · have hnone : parsePacket rx.pkt = none :=
      Option.eq_none_iff_forall_not_mem.2 fun m hm => h (parsePacket_eq_some_iff_header.1 hm).1
    exact iff_of_true ⟨_, handle_of_parsePacket_none hnone hne⟩ fun ht => h ht.1

/-- A later fragment is not empty. -/
theorem ne_nil_of_laterFragment {pkt : Bytes} (h : LaterFragment pkt) : pkt ≠ [] := by
  rintro rfl
  exact h (by decide)

/-- A later fragment passes exactly when it is not taken for a packet of the game, and the ports that the parser reports are those of the
packet exactly when it is no later fragment with eight bytes behind its header. -/
theorem later_fragment_passes_iff (g : Guard) (nat : NATTable) (rx : Received) :
    ((LaterFragment rx.pkt → g.Passes nat rx) ↔ ¬(LaterFragment rx.pkt ∧ g.Taken nat rx)) ∧
      (ReportsPorts rx.pkt ↔ ¬(LaterFragment rx.pkt ∧ HasHeader rx.pkt)) := by
  refine ⟨?_, reportsPorts_iff rx.pkt⟩
  rw [not_and]
  exact forall_congr' fun hlater => passes_iff (ne_nil_of_laterFragment hlater)

/-- A fragment of a UDP datagram from this machine, at offset 8; the payload begins with the port of the game, twice. -/
def strayFragment (dst : IPv4) : Bytes :=
  [0x45, 0, 0, 28, 0, 0, 0, 1, 64, 17, 0, 0] ++ [192, 168, 1, 5] ++ dst.bytes ++ [0x32, 0xC8, 0x32, 0xC8, 1, 2, 3, 4]

/-- The loop receives a fragment that another process sends; port 13000 is the game's. -/
def strayReceived (dst : IPv4) : Received where
  resolver := { resolveOutbound := fun p => if p.srcPort = 13000 then some 1 else some 2
                resolveInbound := fun p => if p.dstPort = 13000 then some 1 else some 2
                isTargetPID := fun pid => pid = 1 }
  now := 0
  pkt := strayFragment dst
  addr := (gameReceived true dst dst).addr

/-- A later fragment whose payload looks like the ports of the game is dropped on its way to the Internet; on its way to the overlay it
is given another source address, and its payload is recorded as a flow. -/
theorem later_fragment_passes_false :
    LaterFragment (strayFragment ⟨8, 8, 8, 8⟩) ∧ lan.handle (newNATTable 0) (strayReceived ⟨8, 8, 8, 8⟩) = (newNATTable 0, .drop) ∧
      LaterFragment (strayFragment ⟨10, 66, 0, 3⟩) ∧
      (lan.handle (newNATTable 0) (strayReceived ⟨10, 66, 0, 3⟩)).1.mappings.lookup ⟨protoUDP, 13000, 13000, ⟨10, 66, 0, 3⟩⟩ =
        some ⟨protoUDP, ⟨192, 168, 1, 5⟩, 13000, ⟨10, 66, 0, 3⟩, 13000, 0⟩ ∧
      ¬ReportsPorts (strayFragment ⟨10, 66, 0, 3⟩) := by
  refine ⟨by decide +kernel, rfl, by decide +kernel, by decide +kernel, fun h => ?_⟩
  exact (reportsPorts_iff _).1 h ⟨by decide +kernel, ⟨by decide, by decide +kernel, by decide +kernel, by decide +kernel, by decide⟩⟩

end Guard

end Scbl.RouteGuard
