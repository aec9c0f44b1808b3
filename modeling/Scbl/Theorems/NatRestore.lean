import Scbl.RouteGuard.Guard

/-!
# What a reply is restored to

A reply comes back to the overlay address and is given the addresses and ports of the mapping that the lookup finds. Under its own
address a mapping has the peer as its remote end; the mapping for all peers has the broadcast address there, which replaces the
peer's. Flows that differ in the local address only are one key, so a reply is given the address of the one that sent last.
-/

namespace Scbl.RouteGuard

open Lib

namespace Guard

/-- The flow an event adds: the packet of the game that is sent into the overlay. -/
def flowOf (g : Guard) : Event → Option NatMapping
  | .tick _ => none
  | .packet rx =>
    match parsePacket rx.pkt with
    | none => none
    | some p =>
      if rx.addr.outbound ∧ rx.resolver.targets (rx.resolver.resolveOutbound p) ∧ g.virtualNet.contains p.dstIP then
        some (original p rx.now)
      else none

/-- The flows of the game in the overlay, each as the game sent it. -/
def flows (g : Guard) (events : List Event) : List NatMapping := events.filterMap g.flowOf

/-- The flow is a UDP broadcast in the overlay. -/
def Broadcast (g : Guard) (f : NatMapping) : Prop := f.proto = protoUDP ∧ f.remoteIP = g.virtualBroadcast

instance (g : Guard) (f : NatMapping) : Decidable (g.Broadcast f) := inferInstanceAs (Decidable (_ ∧ _))

/-- An inbound packet answers a flow: it comes from the flow's remote end, or from any peer for a broadcast, to the overlay address and
the flow's local port. -/
def Answers (g : Guard) (p : PacketMeta) (f : NatMapping) : Prop :=
  p.proto = f.proto ∧ p.dstIP = g.clientIP ∧ p.dstPort = f.localPort ∧ p.srcPort = f.remotePort ∧
    (p.srcIP = f.remoteIP ∨ g.Broadcast f)

instance (g : Guard) (p : PacketMeta) (f : NatMapping) : Decidable (g.Answers p f) := inferInstanceAs (Decidable (_ ∧ _))

/-- An address a peer of the overlay has: one of the network that stands neither for all peers nor for none. -/
def IsPeer (g : Guard) (ip : IPv4) : Prop :=
  g.virtualNet.contains ip = true ∧ ip ≠ g.virtualBroadcast ∧ ip ≠ IPv4.unspecified

/-- An inbound packet for the game that comes from a peer over the overlay's interface and answers a flow of the events. -/
structure Reply (g : Guard) (events : List Event) (rx : Received) (p : PacketMeta) : Prop where
  parsed : parsePacket rx.pkt = some p
  inbound : rx.addr.outbound = false
  target : rx.resolver.targets (rx.resolver.resolveInbound p) = true
  peer : g.IsPeer p.srcIP
  interface : g.wrongInterface rx.addr = false
  answers : ∃ f ∈ g.flows events, g.Answers p f

/-- The packet is delivered with the source it came with, to the local address and port of every flow it answers. -/
def Restored (g : Guard) (events : List Event) (p : PacketMeta) (verdict : Option Verdict) : Prop :=
  ∃ pkt addr changed q, verdict = some (.send pkt addr changed) ∧ parsePacket pkt = some q ∧ q.srcIP = p.srcIP ∧
    q.srcPort = p.srcPort ∧ ∀ f ∈ g.flows events, g.Answers p f → q.dstIP = f.localIP ∧ q.dstPort = f.localPort

/-- The mapping under the packet's own address. -/
def ownMapping (nat : NATTable) (p : PacketMeta) : Option NatMapping :=
  nat.mappings.lookup ⟨p.proto, p.dstPort, p.srcPort, p.srcIP⟩

/-- The mapping that the loop looks up for an inbound packet. -/
def found (nat : NATTable) (p : PacketMeta) : Option NatMapping := nat.get p.proto p.dstPort p.srcPort p.srcIP

/-! ## What is in the table -/

/-- Where a flow is found. -/
def replyKey (g : Guard) (f : NatMapping) : NatKey := f.key (if g.Broadcast f then IPv4.unspecified else f.remoteIP)

/-- A packet that the game sends into the overlay from another address is put under its flow's key; the table stays as it was for every
other outbound packet of the game. -/
theorem handleOutbound_nat (g : Guard) (nat : NATTable) (rx : Received) (p : PacketMeta) :
    (g.handleOutbound nat rx p).1 = nat ∨ g.virtualNet.contains p.dstIP = true ∧
      (g.handleOutbound nat rx p).1 = nat.put (original p rx.now) (g.replyKey (original p rx.now)).replySrcIP := by
  unfold handleOutbound
  split
  · rename_i hnet
    dsimp only
    split
    · refine Or.inr ⟨hnet, ?_⟩
      -- a broadcast is put for all peers, any other flow for its remote end
      by_cases hb : g.Broadcast (original p rx.now)
      · have hbool : g.isVirtualBroadcast p = true := decide_eq_true hb
        rw [replyKey, if_pos hb, if_pos hbool]
        rfl
      · have hbool : g.isVirtualBroadcast p = false := decide_eq_false hb
        rw [replyKey, if_neg hb, if_neg (Bool.eq_false_iff.mp hbool)]
        rfl
    · exact Or.inl rfl
  · exact Or.inl rfl

/-- What an event does to the table: a cleanup, nothing, or its flow is put under the flow's key. -/
theorem step_nat (g : Guard) (nat : NATTable) (e : Event) :
    (∃ now, (g.step nat e).1 = nat.cleanup now) ∨ (g.step nat e).1 = nat ∨
      ∃ f, g.flowOf e = some f ∧ (g.step nat e).1 = nat.put f (g.replyKey f).replySrcIP := by
  cases e with
  | tick now => exact Or.inl ⟨now, rfl⟩
  | packet rx =>
    refine Or.inr ?_
    simp only [step, handle]
    split
    · exact Or.inl rfl
    split
    · exact Or.inl rfl
    rename_i p hp
    split
    · rename_i hout
      split
      · rename_i htarget
        rcases g.handleOutbound_nat nat rx p with hsame | ⟨hnet, hput⟩
        · exact Or.inl hsame
        · refine Or.inr ⟨original p rx.now, ?_, hput⟩
          rw [flowOf, hp]
          exact if_pos ⟨hout, htarget, hnet⟩
      · exact Or.inl rfl
    · split
      · exact Or.inl rfl
      · exact Or.inl rfl

/-- A mapping after an event is the event's flow under its key, or one that was there. -/
theorem lookup_step {g : Guard} {nat : NATTable} {e : Event} {k : NatKey} {m : NatMapping}
    (h : (g.step nat e).1.mappings.lookup k = some m) :
    g.flowOf e = some m ∧ k = g.replyKey m ∨ nat.mappings.lookup k = some m := by
  rcases g.step_nat nat e with ⟨now, hclean⟩ | hsame | ⟨f, hflow, hput⟩
  · rw [hclean] at h
    exact Or.inr (NATTable.lookup_cleanup h)
  · rw [hsame] at h
    exact Or.inr h
  · rw [hput] at h
    rcases NATTable.lookup_put h with ⟨hkey, rfl⟩ | hold
    · exact Or.inl ⟨hflow, hkey⟩
    · exact Or.inr hold

/-- A mapping after a run is a flow of the run under its key, or one that was there. -/
theorem lookup_run {g : Guard} {nat : NATTable} {events : List Event} {k : NatKey} {m : NatMapping}
    (h : (run g.step nat events).mappings.lookup k = some m) :
    m ∈ g.flows events ∧ k = g.replyKey m ∨ nat.mappings.lookup k = some m := by
  induction events generalizing nat with
  | nil => exact Or.inr h
  | cons e events ih =>
    rw [run_cons] at h
    rcases ih h with ⟨hmem, hkey⟩ | hstep
    · refine Or.inl ⟨?_, hkey⟩
      obtain ⟨e', he', hflow⟩ := List.mem_filterMap.mp hmem
      exact List.mem_filterMap.mpr ⟨e', List.mem_cons_of_mem _ he', hflow⟩
    · rcases lookup_step hstep with ⟨hflow, hkey⟩ | hold
      · exact Or.inl ⟨List.mem_filterMap.mpr ⟨e, List.mem_cons_self, hflow⟩, hkey⟩
      · exact Or.inr hold

/-- Every mapping of the table is a flow of the game under its key. -/
theorem lookup_natAfter {g : Guard} {ttl : Int} {events : List Event} {k : NatKey} {m : NatMapping}
    (h : (g.natAfter ttl events).mappings.lookup k = some m) : m ∈ g.flows events ∧ k = g.replyKey m := by
  rcases lookup_run h with hflow | hnew
  · exact hflow
  · nomatch hnew

/-! ## What a reply is given -/

/-- What the restored packet parses to. -/
theorem parsed_restore {p : PacketMeta} (h : p.Parsed) (m : NatMapping) : (restore p m).Parsed :=
  PacketMeta.parsed_setDstPort
    (PacketMeta.parsed_setSrcPort (PacketMeta.parsed_setDstIP (PacketMeta.parsed_setSrcIP h m.remoteIP) m.localIP) m.remotePort)
    m.localPort

/-- A parsed packet is parsed of its own bytes. -/
theorem parsed_of_parsePacket {pkt : Bytes} {p : PacketMeta} (h : parsePacket pkt = some p) : p.Parsed := by
  obtain ⟨-, hdata, -⟩ := parsePacket_eq_some_iff.mp h
  rw [PacketMeta.Parsed, hdata, h]

/-- A reply whose mapping is found is sent on restored. -/
theorem handle_reply {g : Guard} {events : List Event} {rx : Received} {p : PacketMeta} (h : g.Reply events rx p)
    {nat : NATTable} {m : NatMapping} (hm : found nat p = some m) :
    (g.step nat (.packet rx)).2 = some (.send (restore p m).data rx.addr true) := by
  have hne : rx.pkt ≠ [] := by
    intro hnil
    have hp := h.parsed
    rw [hnil] at hp
    nomatch hp
  have hin : g.handleInbound nat rx p = .send (restore p m).data rx.addr true := by
    rw [found] at hm
    simp only [handleInbound, h.peer.1, h.interface, hm, not_true_eq_false, Bool.false_eq_true, or_self, if_false]
  simp only [step, handle, if_neg hne, h.parsed, h.inbound, h.target, Bool.false_eq_true, if_false, if_true, hin]

/-- What it is for a reply to be restored, in terms of the mapping that is found. -/
theorem restored_iff_mapping {g : Guard} {events : List Event} {rx : Received} {p : PacketMeta} (h : g.Reply events rx p)
    {nat : NATTable} {m : NatMapping} (hm : found nat p = some m) :
    g.Restored events p (g.step nat (.packet rx)).2 ↔
      m.remoteIP = p.srcIP ∧ m.remotePort = p.srcPort ∧
        ∀ f ∈ g.flows events, g.Answers p f → m.localIP = f.localIP ∧ m.localPort = f.localPort := by
  have hparse : parsePacket (restore p m).data = some (restore p m) := parsed_restore (parsed_of_parsePacket h.parsed) m
  rw [Restored, handle_reply h hm]
  constructor
  · rintro ⟨pkt, addr, changed, q, hv, hq, hsrc, hport, hflows⟩
    obtain ⟨rfl, -, -⟩ : (restore p m).data = pkt ∧ rx.addr = addr ∧ true = changed := by
      simpa only [Option.some.injEq, Verdict.send.injEq] using hv
    obtain rfl : restore p m = q := Option.some.inj (hparse.symm.trans hq)
    exact ⟨hsrc, hport, hflows⟩
  · rintro ⟨hsrc, hport, hflows⟩
    exact ⟨_, _, _, restore p m, rfl, hparse, hsrc, hport, hflows⟩

/-- A mapping found under the packet's own address is a flow that the packet answers, sent to the packet's source. -/
theorem ownMapping_answered {g : Guard} {ttl : Int} {events : List Event} {rx : Received} {p : PacketMeta}
    (h : g.Reply events rx p) {m : NatMapping} (hm : ownMapping (g.natAfter ttl events) p = some m) :
    m ∈ g.flows events ∧ g.Answers p m ∧ m.remoteIP = p.srcIP := by
  obtain ⟨hmem, hkey⟩ := lookup_natAfter hm
  obtain ⟨f, -, -, hclient, -⟩ := h.answers
  simp only [replyKey, NatMapping.key, NatKey.mk.injEq] at hkey
  obtain ⟨hproto, hlocal, hremote, hsrc⟩ := hkey
  have hremoteIP : m.remoteIP = p.srcIP := by
    split at hsrc
    · exact absurd hsrc h.peer.2.2
    · exact hsrc.symm
  exact ⟨hmem, ⟨hproto, hclient, hlocal, hremote, Or.inl hremoteIP.symm⟩, hremoteIP⟩

/-- The mapping for all peers does not have a peer as its remote end. -/
theorem wildcard_remoteIP {g : Guard} {ttl : Int} {events : List Event} {proto : UInt8} {localPort remotePort : UInt16}
    {m : NatMapping} (hm : (g.natAfter ttl events).mappings.lookup ⟨proto, localPort, remotePort, IPv4.unspecified⟩ = some m) :
    m.remoteIP = g.virtualBroadcast ∨ m.remoteIP = IPv4.unspecified := by
  obtain ⟨-, hkey⟩ := lookup_natAfter hm
  simp only [replyKey, NatMapping.key, NatKey.mk.injEq] at hkey
  obtain ⟨-, -, -, hsrc⟩ := hkey
  split at hsrc
  · rename_i hb
    exact Or.inl hb.2
  · exact Or.inr hsrc.symm

/-- A reply for which only the mapping for all peers is left loses the address it came from. -/
theorem not_restored_of_wildcard {g : Guard} {ttl : Int} {events : List Event} {rx : Received} {p : PacketMeta}
    (h : g.Reply events rx p) (hget : (found (g.natAfter ttl events) p).isSome)
    (hown : ownMapping (g.natAfter ttl events) p = none) :
    ¬g.Restored events p (g.step (g.natAfter ttl events) (.packet rx)).2 := by
  obtain ⟨m, hm⟩ := Option.isSome_iff_exists.mp hget
  rw [restored_iff_mapping h hm]
  rintro ⟨hsrc, -⟩
  rcases NATTable.get_eq_some hm with hexact | ⟨-, hwild⟩
  · nomatch hown.symm.trans hexact
  · rcases wildcard_remoteIP hwild with hb | hu
    · exact h.peer.2.1 (hsrc.symm.trans hb)
    · exact h.peer.2.2 (hsrc.symm.trans hu)

/-- After every list of events, a reply whose mapping is found keeps its source and is delivered where every flow it answers was sent
from, exactly when its mapping is under its own address and the flows it answers have one local address. -/
theorem reply_restored_iff {g : Guard} {ttl : Int} {events : List Event} {rx : Received} {p : PacketMeta}
    (h : g.Reply events rx p) (hget : (found (g.natAfter ttl events) p).isSome) :
    g.Restored events p (g.step (g.natAfter ttl events) (.packet rx)).2 ↔
      (ownMapping (g.natAfter ttl events) p).isSome ∧
        ∀ f ∈ g.flows events, ∀ f' ∈ g.flows events, g.Answers p f → g.Answers p f' → f.localIP = f'.localIP := by
  obtain ⟨m, hm⟩ := Option.isSome_iff_exists.mp hget
  constructor
  · intro hr
    refine ⟨?_, fun f hf f' hf' ha ha' => ?_⟩
    · rw [Option.isSome_iff_ne_none]
      exact fun hnone => not_restored_of_wildcard h hget hnone hr
    · obtain ⟨-, -, hflows⟩ := (restored_iff_mapping h hm).mp hr
      exact (hflows f hf ha).1.symm.trans (hflows f' hf' ha').1
  · rintro ⟨hown, hone⟩
    obtain ⟨m', hm'⟩ := Option.isSome_iff_exists.mp hown
    obtain rfl : m' = m := by
      rcases NATTable.get_eq_some hm with hexact | ⟨hnone, -⟩
      · exact Option.some.inj (hm'.symm.trans hexact)
      · nomatch hnone.symm.trans hm'
    obtain ⟨hmem, hans, hsrc⟩ := ownMapping_answered h hm'
    refine (restored_iff_mapping h hm).mpr ⟨hsrc, hans.2.2.2.1.symm, fun f hf ha => ⟨hone _ hmem f hf hans ha, ?_⟩⟩
    exact hans.2.2.1.symm.trans ha.2.2.1

/-! ## A lobby on one machine and its peer -/

/-- The overlay 10.66.0.0/24 on interface 7, with this machine at 10.66.0.2. -/
def lan : Guard := { clientIP := ⟨10, 66, 0, 2⟩, virtualNet := { ip := [10, 66, 0, 0], mask := [255, 255, 255, 0] }, interfaceIndex := 7 }

/-- A UDP packet between two sockets on port 13000. -/
def gamePacket (src dst : IPv4) : Bytes :=
  [0x45, 0, 0, 28, 0, 0, 0, 0, 64, 17, 0, 0] ++ src.bytes ++ dst.bytes ++ [0x32, 0xC8, 0x32, 0xC8, 0, 8, 0, 0]

/-- A packet of the game, sent or received over the overlay's interface. -/
def gameReceived (out : Bool) (src dst : IPv4) : Received where
  resolver := { resolveOutbound := fun _ => some 1, resolveInbound := fun _ => some 1, isTargetPID := fun pid => pid = 1 }
  now := 0
  pkt := gamePacket src dst
  addr := { raw := List.replicate 10 0 ++ [if out then 2 else 0] ++ List.replicate 5 0 ++ [7] ++ List.replicate 79 0
            length_raw := by cases out <;> rfl }

/-- The peer's packet to this machine. -/
def peerReply : Received := gameReceived false ⟨10, 66, 0, 3⟩ ⟨10, 66, 0, 2⟩

/-- What the peer's packet parses to. -/
def peerMeta : PacketMeta :=
  { data := gamePacket ⟨10, 66, 0, 3⟩ ⟨10, 66, 0, 2⟩, ihl := 20, proto := protoUDP, srcIP := ⟨10, 66, 0, 3⟩, dstIP := ⟨10, 66, 0, 2⟩,
    srcPort := 13000, dstPort := 13000, portOffset := 20 }

/-- The game has sent from its physical address to one address of the overlay. -/
def sentTo (dst : IPv4) : List Event := [.packet (gameReceived true ⟨192, 168, 1, 5⟩ dst)]

theorem peerReply_answers {dst : IPv4} (hflow : ∃ f ∈ lan.flows (sentTo dst), lan.Answers peerMeta f) :
    lan.Reply (sentTo dst) peerReply peerMeta where
  parsed := by decide +kernel
  inbound := by decide +kernel
  target := rfl
  peer := ⟨by decide, by decide, by decide⟩
  interface := by decide +kernel
  answers := hflow

/-- The reply to a packet for the peer alone is restored. -/
theorem reply_restored_unicast :
    lan.Restored (sentTo ⟨10, 66, 0, 3⟩) peerMeta (lan.step (lan.natAfter 0 (sentTo ⟨10, 66, 0, 3⟩)) (.packet peerReply)).2 := by
  have hflows : lan.flows (sentTo ⟨10, 66, 0, 3⟩) = [⟨protoUDP, ⟨192, 168, 1, 5⟩, 13000, ⟨10, 66, 0, 3⟩, 13000, 0⟩] := by decide +kernel
  have hreply : lan.Reply (sentTo ⟨10, 66, 0, 3⟩) peerReply peerMeta := peerReply_answers (by rw [hflows]; decide)
  refine (reply_restored_iff hreply (by decide +kernel)).mpr ⟨by decide +kernel, ?_⟩
  rw [hflows]
  decide

/-- The reply to a broadcast is found under the entry for all peers and loses the peer's address. -/
theorem reply_restored_false :
    ¬∀ (g : Guard) (ttl : Int) (events : List Event) (rx : Received) (p : PacketMeta), g.Reply events rx p →
      (found (g.natAfter ttl events) p).isSome → g.Restored events p (g.step (g.natAfter ttl events) (.packet rx)).2 := by
  intro h
  have hreply : lan.Reply (sentTo ⟨10, 66, 0, 255⟩) peerReply peerMeta := peerReply_answers (by decide +kernel)
  have hget : (found (lan.natAfter 0 (sentTo ⟨10, 66, 0, 255⟩)) peerMeta).isSome := by decide +kernel
  exact not_restored_of_wildcard hreply hget (by decide +kernel) (h lan 0 _ peerReply peerMeta hreply hget)

end Guard

end Scbl.RouteGuard
