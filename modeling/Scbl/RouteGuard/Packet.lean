import Scbl.Lib.Bytes
import Scbl.Lib.Window

/-!
# The route guard's packets

IPv4 addresses and networks, the parser of an IPv4 packet with a TCP or UDP header, and the setters that write an address or a port
into the packet and into what was parsed of it. A setter leaves a packet that parses to what it left (`parsed_setSrcIP` and the three
beside it), so the two never disagree.
-/

namespace Scbl.RouteGuard

open Lib

/-! ## Addresses and networks -/

/-- An IPv4 address. -/
structure IPv4 where
  a : UInt8
  b : UInt8
  c : UInt8
  d : UInt8
deriving DecidableEq, Repr

/-- The four bytes of an address. -/
def IPv4.bytes (ip : IPv4) : Bytes := [ip.a, ip.b, ip.c, ip.d]

/-- The address that stands for all peers in the NAT table. -/
def IPv4.unspecified : IPv4 := ⟨0, 0, 0, 0⟩

/-- The address in four bytes of a packet. -/
def ipv4FromPacket (b : Bytes) : IPv4 := ⟨b.getD 0 0, b.getD 1 0, b.getD 2 0, b.getD 3 0⟩

/-- A network as `net.ParseCIDR` returns it, of either IP version. -/
structure IPNet where
  ip : Bytes
  mask : Bytes
deriving DecidableEq, Repr

/-- The four bytes of an IP that is an IPv4 address, also in its sixteen-byte form. -/
def to4 (ip : Bytes) : Option Bytes :=
  if ip.length = 4 then some ip
  else if ip.length = 16 ∧ ip.take 12 = List.replicate 10 0 ++ [255, 255] then some (ip.drop 12)
  else none

/-- The network number and the mask in the length of the network number. -/
def IPNet.networkNumberAndMask (n : IPNet) : Option (Bytes × Bytes) :=
  let ip := (to4 n.ip).getD n.ip
  if ip.length ≠ 4 ∧ ip.length ≠ 16 then none
  else if n.mask.length = ip.length then some (ip, n.mask)
  else if n.mask.length = 16 ∧ ip.length = 4 then some (ip, n.mask.drop 12)
  else none

/-- The address is in the network. -/
def IPNet.contains (n : IPNet) (ip : IPv4) : Bool :=
  match n.networkNumberAndMask with
  | none => false
  | some (nn, m) => nn.length = 4 && List.zipWith (· &&& ·) nn m == List.zipWith (· &&& ·) ip.bytes m

/-- The first and the last address of the network. -/
def ipv4Range (n : IPNet) : IPv4 × IPv4 :=
  match to4 n.ip with
  | none => (IPv4.unspecified, ⟨255, 255, 255, 255⟩)
  | some base =>
    if n.mask.length ≠ 4 then (IPv4.unspecified, ⟨255, 255, 255, 255⟩)
    else
      let first := List.zipWith (· &&& ·) base n.mask
      (ipv4FromPacket first, ipv4FromPacket (List.zipWith (fun f m => f ||| ~~~ m) first n.mask))

/-! ## Parsing and editing -/

/-- The number of TCP. -/
def protoTCP : UInt8 := 6

/-- The number of UDP. -/
def protoUDP : UInt8 := 17

/-- The big-endian bytes of a port. -/
def putUint16 (x : UInt16) : Bytes := (putU16 x).reverse

/-- The port in two big-endian bytes. -/
def uint16 (b : Bytes) : UInt16 := UInt16.ofNat (leValue b.reverse)

/-- A packet and what was parsed of it. -/
structure PacketMeta where
  data : Bytes
  ihl : Nat
  proto : UInt8
  srcIP : IPv4
  dstIP : IPv4
  srcPort : UInt16
  dstPort : UInt16
  portOffset : Nat
deriving DecidableEq, Repr

/-- The addresses and ports of an IPv4 packet with a TCP or UDP header. -/
def parsePacket (pkt : Bytes) : Option PacketMeta :=
  if pkt.length < 20 then none
  else if pkt.getD 0 0 >>> 4 ≠ 4 then none
  else
    let ihl := (pkt.getD 0 0 &&& 0x0F).toNat * 4
    if ihl < 20 ∨ pkt.length < ihl + 8 then none
    else
      let proto := pkt.getD 9 0
      if proto ≠ protoTCP ∧ proto ≠ protoUDP then none
      else some
        { data := pkt, ihl, proto, srcIP := ipv4FromPacket (window 12 4 pkt), dstIP := ipv4FromPacket (window 16 4 pkt),
          srcPort := uint16 (window ihl 2 pkt), dstPort := uint16 (window (ihl + 2) 2 pkt), portOffset := ihl }

namespace PacketMeta

def setSrcIP (m : PacketMeta) (ip : IPv4) : PacketMeta := { m with data := overwrite 12 ip.bytes m.data, srcIP := ip }

def setDstIP (m : PacketMeta) (ip : IPv4) : PacketMeta := { m with data := overwrite 16 ip.bytes m.data, dstIP := ip }

def setSrcPort (m : PacketMeta) (port : UInt16) : PacketMeta :=
  { m with data := overwrite m.portOffset (putUint16 port) m.data, srcPort := port }

def setDstPort (m : PacketMeta) (port : UInt16) : PacketMeta :=
  { m with data := overwrite (m.portOffset + 2) (putUint16 port) m.data, dstPort := port }

/-- What was parsed is what the packet holds. -/
def Parsed (m : PacketMeta) : Prop := parsePacket m.data = some m

end PacketMeta

/-! ## A setter leaves what the packet parses to -/

@[simp] theorem ipv4FromPacket_bytes (ip : IPv4) : ipv4FromPacket ip.bytes = ip := rfl

@[simp] theorem length_bytes (ip : IPv4) : ip.bytes.length = 4 := rfl

@[simp] theorem length_putUint16 (port : UInt16) : (putUint16 port).length = 2 := by
  rw [putUint16, List.length_reverse, length_putU16]

@[simp] theorem uint16_putUint16 (port : UInt16) : uint16 (putUint16 port) = port := by
  have hlt : port.toNat < 256 ^ 2 := port.toNat_lt
  rw [uint16, putUint16, List.reverse_reverse, putU16, leValue_leBytes, Nat.mod_eq_of_lt hlt, UInt16.ofNat_toNat]

/-- What the parser accepts, and what it returns: the header is long enough, and every field is read where the header has it. -/
theorem parsePacket_eq_some_iff {pkt : Bytes} {m : PacketMeta} :
    parsePacket pkt = some m ↔
      (20 ≤ pkt.length ∧ pkt.getD 0 0 >>> 4 = 4 ∧ 20 ≤ m.ihl ∧ m.ihl + 8 ≤ pkt.length ∧ (m.proto = protoTCP ∨ m.proto = protoUDP)) ∧
        m.data = pkt ∧ m.ihl = (pkt.getD 0 0 &&& 0x0F).toNat * 4 ∧ m.proto = pkt.getD 9 0 ∧
        m.srcIP = ipv4FromPacket (window 12 4 pkt) ∧ m.dstIP = ipv4FromPacket (window 16 4 pkt) ∧
        m.srcPort = uint16 (window m.ihl 2 pkt) ∧ m.dstPort = uint16 (window (m.ihl + 2) 2 pkt) ∧ m.portOffset = m.ihl := by
  constructor
  · intro h
    unfold parsePacket at h
    split at h
    · nomatch h
    rename_i hlen
    split at h
    · nomatch h
    rename_i hver
    dsimp only at h
    split at h
    · nomatch h
    rename_i hihl
    split at h
    · nomatch h
    rename_i hproto
    obtain rfl := Option.some.inj h
    refine ⟨⟨Nat.le_of_not_lt hlen, not_not.mp hver, ?_, ?_, ?_⟩, rfl, rfl, rfl, rfl, rfl, rfl, rfl, rfl⟩
    · exact Nat.le_of_not_lt fun hlt => hihl (Or.inl hlt)
    · exact Nat.le_of_not_lt fun hlt => hihl (Or.inr hlt)
    · by_contra hne
      exact hproto ⟨fun h => hne (Or.inl h), fun h => hne (Or.inr h)⟩
  · rintro ⟨⟨hlen, hver, hihl, hports, hproto⟩, hdata, hi, hp, hsrc, hdst, hsp, hdp, hoff⟩
    obtain ⟨data, ihl, proto, srcIP, dstIP, srcPort, dstPort, portOffset⟩ := m
    dsimp only at *
    subst hdata hp hsrc hdst hsp hdp hoff
    have hbounds : ¬((data.getD 0 0 &&& 0x0F).toNat * 4 < 20 ∨ data.length < (data.getD 0 0 &&& 0x0F).toNat * 4 + 8) := by
      rw [← hi]
      omega
    rw [parsePacket, if_neg (Nat.not_lt.mpr hlen), if_neg (not_not.mpr hver)]
    dsimp only
    rw [if_neg hbounds, if_neg fun hne => hproto.elim hne.1 hne.2, ← hi]

namespace PacketMeta

/-- Bytes written over a stretch behind the protocol field, with the fields read anew, are parsed to these fields. -/
theorem Parsed.overwrite {m : PacketMeta} (h : m.Parsed) (off : Nat) (new : Bytes) (hoff : 10 ≤ off)
    (hend : off + new.length ≤ m.data.length) {m' : PacketMeta} (hdata : m'.data = Lib.overwrite off new m.data) (hihl : m'.ihl = m.ihl)
    (hproto : m'.proto = m.proto) (hport : m'.portOffset = m.portOffset)
    (hsrc : m'.srcIP = ipv4FromPacket (window 12 4 m'.data)) (hdst : m'.dstIP = ipv4FromPacket (window 16 4 m'.data))
    (hsp : m'.srcPort = uint16 (window m.ihl 2 m'.data)) (hdp : m'.dstPort = uint16 (window (m.ihl + 2) 2 m'.data)) : m'.Parsed := by
  obtain ⟨⟨hlen, hver, hi20, hports, hp⟩, -, hi, hpr, -, -, -, -, hpo⟩ := parsePacket_eq_some_iff.mp h
  have hkeep : ∀ i, i < 10 → m'.data.getD i 0 = m.data.getD i 0 := by
    intro i hi10
    rw [hdata, List.getD_eq_getElem?_getD, List.getD_eq_getElem?_getD,
      getElem?_overwrite_before (Nat.le_trans (Nat.le_add_right _ _) hend) (Nat.lt_of_lt_of_le hi10 hoff)]
  have hlength : m'.data.length = m.data.length := by rw [hdata, length_overwrite hend]
  refine parsePacket_eq_some_iff.mpr ⟨⟨?_, ?_, ?_, ?_, ?_⟩, rfl, ?_, ?_, hsrc, hdst, ?_, ?_, ?_⟩
  · rwa [hlength]
  · rwa [hkeep 0 (by omega)]
  · rwa [hihl]
  · rwa [hihl, hlength]
  · rwa [hproto]
  · rw [hkeep 0 (by omega), hihl, hi]
  · rw [hkeep 9 (by omega), hproto, hpr]
  · rw [hsp, hihl]
  · rw [hdp, hihl]
  · rw [hport, hpo, hihl]

theorem parsed_setSrcIP {m : PacketMeta} (h : m.Parsed) (ip : IPv4) : (m.setSrcIP ip).Parsed := by
  obtain ⟨⟨hlen, -, hi20, -, -⟩, -, -, -, -, hdst, hsp, hdp, -⟩ := parsePacket_eq_some_iff.mp h
  have hle : 12 ≤ m.data.length := by omega
  refine h.overwrite 12 ip.bytes (by omega) ?_ rfl rfl rfl rfl ?_ ?_ ?_ ?_
  · rw [length_bytes]
    omega
  · rw [setSrcIP, window_overwrite_self hle (length_bytes ip), ipv4FromPacket_bytes]
  · rw [setSrcIP, window_overwrite_behind hle (by rw [length_bytes]), ← hdst]
  · rw [setSrcIP, window_overwrite_behind hle (by rw [length_bytes]; omega), ← hsp]
  · rw [setSrcIP, window_overwrite_behind hle (by rw [length_bytes]; omega), ← hdp]

theorem parsed_setDstIP {m : PacketMeta} (h : m.Parsed) (ip : IPv4) : (m.setDstIP ip).Parsed := by
  obtain ⟨⟨hlen, -, hi20, -, -⟩, -, -, -, hsrc, -, hsp, hdp, -⟩ := parsePacket_eq_some_iff.mp h
  have hle : 16 ≤ m.data.length := by omega
  refine h.overwrite 16 ip.bytes (by omega) ?_ rfl rfl rfl rfl ?_ ?_ ?_ ?_
  · rwa [length_bytes]
  · rw [setDstIP, window_overwrite_before hle (by omega), ← hsrc]
  · rw [setDstIP, window_overwrite_self hle (length_bytes ip), ipv4FromPacket_bytes]
  · rw [setDstIP, window_overwrite_behind hle (by rw [length_bytes]; omega), ← hsp]
  · rw [setDstIP, window_overwrite_behind hle (by rw [length_bytes]; omega), ← hdp]

theorem parsed_setSrcPort {m : PacketMeta} (h : m.Parsed) (port : UInt16) : (m.setSrcPort port).Parsed := by
  obtain ⟨⟨-, -, hi20, hports, -⟩, -, -, -, hsrc, hdst, -, hdp, hoff⟩ := parsePacket_eq_some_iff.mp h
  have hle : m.ihl ≤ m.data.length := by omega
  refine h.overwrite m.portOffset (putUint16 port) (by omega) ?_ rfl rfl rfl rfl ?_ ?_ ?_ ?_
  · rw [length_putUint16]
    omega
  · rw [setSrcPort, hoff, window_overwrite_before hle (by omega), ← hsrc]
  · rw [setSrcPort, hoff, window_overwrite_before hle (by omega), ← hdst]
  · rw [setSrcPort, hoff, window_overwrite_self hle (length_putUint16 port), uint16_putUint16]
  · rw [setSrcPort, hoff, window_overwrite_behind hle (by rw [length_putUint16]), ← hdp]

theorem parsed_setDstPort {m : PacketMeta} (h : m.Parsed) (port : UInt16) : (m.setDstPort port).Parsed := by
  obtain ⟨⟨-, -, hi20, hports, -⟩, -, -, -, hsrc, hdst, hsp, -, hoff⟩ := parsePacket_eq_some_iff.mp h
  have hle : m.ihl + 2 ≤ m.data.length := by omega
  refine h.overwrite (m.portOffset + 2) (putUint16 port) (by omega) ?_ rfl rfl rfl rfl ?_ ?_ ?_ ?_
  · rw [length_putUint16]
    omega
  · rw [setDstPort, hoff, window_overwrite_before hle (by omega), ← hsrc]
  · rw [setDstPort, hoff, window_overwrite_before hle (by omega), ← hdst]
  · rw [setDstPort, hoff, window_overwrite_before hle (by omega), ← hsp]
  · rw [setDstPort, hoff, window_overwrite_self hle (length_putUint16 port), uint16_putUint16]

end PacketMeta

end Scbl.RouteGuard
