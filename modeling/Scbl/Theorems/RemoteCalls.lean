import Scbl.Theorems.ConnectionIds
import Scbl.Theorems.Handshake
import Scbl.Theorems.RmcCodec
import Scbl.Theorems.RoundTrip

/-!
# A remote call over the network

A call passes through every layer: the packets of a request are collected, the message is read, the protocol answers, the answer is cut
into packets, and each of them is compressed, encrypted and sent. `call_answered` follows it back: a client with the keys of the
server, that gets the datagrams of the answer in whatever order with the last one at the end, reads the response to its request.
-/

namespace Scbl.Services

open Scbl.Lib Scbl.Rmc Scbl.Prudp Scbl.Storage

variable {U : Type}

/-- The compression library is the zlib format: what it compresses comes back, is not shorter than the header, the checksum and a block,
and grows little. -/
structure ZlibFormat (zlib : Zlib) : Prop where
  lossless : zlib.Lossless
  shortest (data : Bytes) : 8 ≤ (zlib.compress data).length
  longest (data : Bytes) : data.length ≤ 1000 → (zlib.compress data).length ≤ 2000

/-- The packets that a client finds in some datagrams, in their order. -/
def decodeDatagrams (zlib : Zlib) (ctx : Context) (arrivals : List (Instant × Bytes)) : Option (List (Instant × QPacket)) :=
  arrivals.mapM (fun a => (QPacket.fromBytes zlib ctx a.2).toOption.map (fun q => (a.1, q.1)))

/-- The message that a client has after the last of some datagrams: it decodes them, and collects the fragments in its connection. -/
def receivedMessage (zlib : Zlib) (ctx : Context) (ci : ClientInfo U) (arrivals : List (Instant × Bytes)) (now : Instant)
    (last : Bytes) : Option Bytes := do
  let arrivals ← decodeDatagrams zlib ctx arrivals
  let (last, _) ← (QPacket.fromBytes zlib ctx last).toOption
  (receivePayload now (run receiveStep ci arrivals) last).2

/-- The datagrams of a message reach a client: it has no fragments of another message where the message is one datagram, it has not begun
a message with the same end, and gets every datagram before the last one, each as often and in whatever order, within the timeout. -/
structure Reaches (ci : ClientInfo U) (finalSequence : UInt16) (datagrams : List Bytes) (arrivals : List (Instant × Bytes))
    (now : Instant) : Prop where
  wellFormed : FragmentsWf ci
  otherEnd : ci.packetFragmentFinalSequence ≠ some finalSequence
  single : datagrams = [] → (expireFragmentState now ci).packetFragments = ∅
  sent : ∀ a ∈ arrivals, a.2 ∈ datagrams
  whole : ∀ d ∈ datagrams, ∃ a ∈ arrivals, a.2 = d
  inTime : ∀ a ∈ arrivals, now - a.1 ≤ fragmentAssemblyTimeout ∧ ∀ b ∈ arrivals, b.1 - a.1 ≤ fragmentAssemblyTimeout

/-- A call was answered: its effects were kept, and the events are an acknowledgement of the last packet of the request, the requests to
other clients that the call made, and the datagrams of the response, which every client that they reach reads. -/
structure CallAnswered (svc : Service Database Unit) (p : QPacket) (client : SocketAddr) (r : Request) (st : CallState)
    (result : Except Rmc.Error Bytes) (srv' : Server Database Unit) (es : List Event) : Prop where
  app : srv'.app = st.db
  user : (srv'.clientRegistry.clients.lookup p.signature).map (·.userId) = some st.userId
  sent : ∃ ack datagrams last final, es = .sent client ack :: st.events ++ (datagrams ++ [last]).map (Event.sent client) ∧
    ∀ {U : Type} (ci : ClientInfo U) (arrivals : List (Instant × Bytes)) (now : Instant), Reaches ci final datagrams arrivals now →
      ∃ answer, receivedMessage svc.zlib svc.ctx ci arrivals now last = some answer ∧
        Rmc.Packet.fromBytes answer = .ok (.response (response r result))

namespace RemoteCalls

/-! ## One packet of an answer -/

/-- A flag that was set is set. -/
theorem contains_insert (fs : BitFlags) (f : PacketFlag) : (fs.insert f).contains f = true := by
  rw [BitFlags.contains, BitFlags.insert, decide_eq_true_eq]
  exact forall_lt_of_fin @UInt8.ofNat_toNat (fun b => (b ||| f.bit) &&& f.bit ≠ 0) 256 (by cases f <;> decide +kernel) fs.bits.toNat_lt

/-- A compressed data packet of the encrypted stream. -/
structure Sendable (p : QPacket) : Prop where
  packetType : p.packetType = .data
  sourcePort : p.source.port < 16
  destinationPort : p.destination.port < 16
  encrypted : p.source.streamType = .RVSec
  fragmentId : p.fragmentId.isSome
  connSignature : p.connSignature = none
  hasSize : p.flags.contains .hasSize = true
  compressed : p.useCompression = true
  length : p.payload.length ≤ 1000
  payload : p.payload ≠ []

/-- The byte with the compression ratio is not zero. -/
theorem ratio_ne_zero {zlib : Zlib} (hzlib : ZlibFormat zlib) {data : Bytes} (h : data.length ≤ 1000) :
    UInt8.ofNat (data.length / (zlib.compress data).length + 1) ≠ 0 := by
  have hle : data.length / (zlib.compress data).length ≤ 125 :=
    (Nat.div_le_div_right h).trans ((Nat.div_le_div_left (hzlib.shortest data) (by decide)).trans (by decide))
  intro h0
  have hnat := congrArg UInt8.toNat h0
  rw [UInt8.toNat_ofNat_of_lt' (show _ < 256 by omega)] at hnat
  exact absurd hnat (Nat.succ_ne_zero _)

/-- A compressed data packet is read back from its encoding. -/
theorem roundTrips_compressed {zlib : Zlib} (hzlib : ZlibFormat zlib) {ctx : Context} (hkey : KeyFits ctx) {p : QPacket}
    (hp : Sendable p) : p.RoundTrips zlib ctx := by
  have hwf : p.WellFormed :=
    { connSignature := by
        rw [hp.connSignature, hp.packetType]
        decide
      fragmentId := iff_of_true hp.fragmentId hp.packetType
      sourcePort := hp.sourcePort
      destinationPort := hp.destinationPort }
  have henc : p.Encrypted := ⟨hp.packetType ▸ (by decide : PacketType.data ≠ .syn), hp.encrypted⟩
  obtain ⟨c, hc⟩ := Codec.exists_cipher hkey
  have hshort := hzlib.shortest p.payload
  have hlong := hzlib.longest p.payload hp.length
  have hpack := PacketCodec.packPayload_compressed zlib hp.compressed hp.payload
  rw [if_neg (by omega)] at hpack
  have hw : p.wire zlib ctx = .ok _ := (Codec.wire_encrypted henc hc).trans (congrArg (Except.map c.apply) hpack)
  refine PacketCodec.roundTrips_of_decodePayload hwf hw ?_ ?_
  · rw [QPacket.Delimits, if_pos hp.hasSize, Codec.length_apply, List.length_cons]
    omega
  · rw [Codec.decodePayload_encrypted zlib henc hc]
    dsimp only
    rw [if_pos (ratio_ne_zero hzlib hp.length), decompressPayload,
      hzlib.lossless p.payload _ (hp.length.trans (by decide)), hp.compressed]
    rfl

/-- A data packet is sent, and read back but for the flags, the compression and the checksum. -/
theorem sendPacket_data {zlib : Zlib} (hzlib : ZlibFormat zlib) {ctx : Context} (hkey : KeyFits ctx) {env : Env} {client : SocketAddr}
    (hsend : ∀ data, (env.send data client).isSome) {resp : QPacket} (hp : Sendable { resp with
      useCompression := true, flags := resp.flags.insert .hasSize }) :
    ∃ data q, sendPacket env zlib ctx client resp = .ok (.sent client data) ∧
      QPacket.fromBytes zlib ctx data = .ok (q, data.length) ∧ q.fragmentId = resp.fragmentId ∧ q.sequence = resp.sequence ∧
      q.payload = resp.payload := by
  obtain ⟨data, sum, hdata, -, hread⟩ := roundTrips_compressed hzlib hkey hp
  obtain ⟨fid, hfid⟩ := Option.isSome_iff_exists.mp hp.fragmentId
  obtain ⟨sz, hsz⟩ := Option.isSome_iff_exists.mp (hsend data)
  have hassert : assert (decide (sz = data.length)) = .ok () := if_pos (decide_eq_true (env.send_whole hsz))
  have hsame : ({ resp with useCompression := true, fragmentId := some (resp.fragmentId.getD 0) } : QPacket) =
      { resp with useCompression := true } := by
    simp only [show resp.fragmentId = some fid from hfid, Option.getD_some]
  refine ⟨data, _, ?_, hread, rfl, rfl, rfl⟩
  rw [sendPacket, if_pos (show resp.packetType = .data from hp.packetType), hsame]
  simp only [hdata, hsz, bind, Except.bind, hassert, pure, Except.pure]

/-! ## The packets of an answer -/

/-- Two packets carry the same piece of a message. -/
structure SamePiece (p q : QPacket) : Prop where
  fragmentId : q.fragmentId = p.fragmentId
  sequence : q.sequence = p.sequence
  payload : q.payload = p.payload

theorem SamePiece.isPacket {M : Message} {k : Nat} {p q : QPacket} (h : SamePiece p q) (hp : M.IsPacket k p) : M.IsPacket k q :=
  ⟨h.fragmentId.trans hp.fragmentId, h.sequence.trans hp.sequence, hp.payload.trans (congrArg some h.payload.symm)⟩

/-- A datagram is read as a piece of a message. -/
def Carries (zlib : Zlib) (ctx : Context) (p : QPacket) (data : Bytes) : Prop :=
  ∃ q, QPacket.fromBytes zlib ctx data = .ok (q, data.length) ∧ SamePiece p q

/-- The packets of an answer are those of the encrypted stream back to the sender, with the pieces of the answer. -/
theorem mem_responsePackets {T : Type} {build : Build} {request : QPacket} {ci ci' : ClientInfo T} {cut : List (Nat × Bytes)}
    {packets : List QPacket} (h : responsePackets build request ci cut = .ok (packets, ci')) {p : QPacket} (hp : p ∈ packets) :
    ∃ c ∈ cut, p.source = request.destination ∧ p.destination = request.source ∧ p.packetType = .data ∧
      p.fragmentId = some (UInt8.ofNat c.1) ∧ p.connSignature = none ∧ p.payload = c.2 := by
  induction cut generalizing ci ci' packets with
  | nil =>
    obtain ⟨rfl, -⟩ := Prod.mk.inj (Except.ok.inj h)
    cases hp
  | cons c rest ih =>
    obtain ⟨fid, chunk⟩ := c
    obtain ⟨⟨resp, ci₁⟩, hresp, h⟩ := bind_eq_ok.mp h
    obtain ⟨⟨resps, ci₂⟩, hrest, h⟩ := bind_eq_ok.mp h
    obtain ⟨rfl, -⟩ := Prod.mk.inj (Except.ok.inj h)
    rcases List.mem_cons.mp hp with rfl | hp
    · obtain ⟨next, -, hresp⟩ := bind_eq_ok.mp hresp
      obtain ⟨rfl, -⟩ := Prod.mk.inj (Except.ok.inj hresp)
      exact ⟨(fid, chunk), List.mem_cons_self, rfl, rfl, rfl, rfl, rfl, rfl⟩
    · obtain ⟨c, hc, hrest⟩ := ih hrest hp
      exact ⟨c, List.mem_cons_of_mem _ hc, hrest⟩

/-- Every packet of an answer to a packet of the encrypted stream can be sent. -/
theorem sendable_responsePackets {T : Type} {build : Build} {request : QPacket} (hsource : request.source.port < 16)
    (hdestination : request.destination.port < 16) (hencrypted : request.destination.streamType = .RVSec) {ci ci' : ClientInfo T}
    {answer : Bytes} {packets : List QPacket} (h : responsePackets build request ci (cutPayload answer) = .ok (packets, ci'))
    {p : QPacket} (hp : p ∈ packets) : Sendable { p with useCompression := true, flags := p.flags.insert .hasSize } := by
  obtain ⟨c, hc, hs, hd, ht, hf, hn, hpay⟩ := mem_responsePackets h hp
  have hchunk : c.2 ∈ chunks maxPayloadSize answer := by
    obtain ⟨k, hk⟩ := List.getElem?_of_mem hc
    exact List.mem_of_getElem? (getElem?_cutPayload answer hk).2
  exact
    { packetType := ht
      sourcePort := hs ▸ hdestination
      destinationPort := hd ▸ hsource
      encrypted := hs ▸ hencrypted
      fragmentId := by
        show p.fragmentId.isSome
        rw [hf]
        rfl
      connSignature := hn
      hasSize := contains_insert p.flags .hasSize
      compressed := rfl
      length := by
        show p.payload.length ≤ 1000
        rw [hpay]
        exact length_le_of_mem_chunks hchunk
      payload := by
        show p.payload ≠ []
        rw [hpay]
        exact ne_nil_of_mem_chunks (by decide) hchunk }

/-- What corresponds to a list with an element at the end has one at the end. -/
theorem forall₂_concat {α β : Type} {R : α → β → Prop} {xs : List α} {x : α} {ys : List β} (h : List.Forall₂ R (xs ++ [x]) ys) :
    ∃ zs y, ys = zs ++ [y] ∧ List.Forall₂ R xs zs ∧ R x y := by
  induction xs generalizing ys with
  | nil =>
    cases h with
    | cons hr hrest =>
      cases hrest
      exact ⟨[], _, rfl, .nil, hr⟩
  | cons a xs ih =>
    cases h with
    | cons hr hrest =>
      obtain ⟨zs, y, rfl, hzs, hy⟩ := ih hrest
      exact ⟨_ :: zs, y, rfl, .cons hr hzs, hy⟩

/-- The packets are sent one after the other, each as a datagram that carries its piece. -/
theorem sendAll_carries {σ T : Type} {env : Env} (svc : Service σ T) (hzlib : ZlibFormat svc.zlib) (hkey : KeyFits svc.ctx)
    {client : SocketAddr} (hsend : ∀ data, (env.send data client).isSome) {packets : List QPacket}
    (hp : ∀ p ∈ packets, Sendable { p with useCompression := true, flags := p.flags.insert .hasSize }) :
    ∃ datagrams, sendAll env svc client packets = .ok (datagrams.map (Event.sent client)) ∧
      List.Forall₂ (Carries svc.zlib svc.ctx) packets datagrams := by
  induction packets with
  | nil => exact ⟨[], rfl, .nil⟩
  | cons p packets ih =>
    obtain ⟨data, q, hsent, hread, hf, hs, hpay⟩ := sendPacket_data hzlib hkey hsend (hp p List.mem_cons_self)
    obtain ⟨datagrams, hrest, hcarries⟩ := ih fun q hq => hp q (List.mem_cons_of_mem p hq)
    refine ⟨data :: datagrams, ?_, .cons ⟨q, hread, ⟨hf, hs, hpay⟩⟩ hcarries⟩
    rw [sendAll, hsent, ok_bind, hrest]
    rfl

/-! ## The client -/

/-- The packet a client finds in a datagram. -/
def decoded (zlib : Zlib) (ctx : Context) (data : Bytes) : QPacket := ((QPacket.fromBytes zlib ctx data).toOption.map Prod.fst).getD {}

theorem Carries.fromBytes {zlib : Zlib} {ctx : Context} {p : QPacket} {data : Bytes} (h : Carries zlib ctx p data) :
    (QPacket.fromBytes zlib ctx data).toOption = some (decoded zlib ctx data, data.length) ∧ SamePiece p (decoded zlib ctx data) := by
  obtain ⟨q, hq, hsame⟩ := h
  rw [decoded, hq]
  exact ⟨rfl, hsame⟩

/-- Datagrams that carry pieces are all decoded. -/
theorem decodeDatagrams_eq {zlib : Zlib} {ctx : Context} {arrivals : List (Instant × Bytes)}
    (h : ∀ a ∈ arrivals, ∃ p, Carries zlib ctx p a.2) :
    decodeDatagrams zlib ctx arrivals = some (arrivals.map (fun a => (a.1, decoded zlib ctx a.2))) := by
  unfold decodeDatagrams
  induction arrivals with
  | nil => rfl
  | cons a arrivals ih =>
    obtain ⟨p, hp⟩ := h a List.mem_cons_self
    rw [List.mapM_cons, hp.fromBytes.1, ih fun b hb => h b (List.mem_cons_of_mem a hb)]
    rfl

/-- A client that the datagrams of a message reach has the message. -/
theorem receivedMessage_of_reaches {zlib : Zlib} {ctx : Context} {M : Message} (hlen : M.payload.length ≤ maxInboundMessageBytes)
    {packets : List QPacket} {last : QPacket} (hcount : packets.length + 1 = M.chunks.length)
    (hpackets : ∀ k p, packets[k]? = some p → M.IsPacket k p) (hlast : M.IsPacket (M.chunks.length - 1) last)
    {datagrams : List Bytes} {lastDatagram : Bytes} (hcarries : List.Forall₂ (Carries zlib ctx) packets datagrams)
    (hcarriesLast : Carries zlib ctx last lastDatagram) {ci : ClientInfo U} {arrivals : List (Instant × Bytes)} {now : Instant}
    (h : Reaches ci M.finalSequence datagrams arrivals now) :
    receivedMessage zlib ctx ci arrivals now lastDatagram = some M.payload := by
  have hdatagrams := hcarries.length_eq
  -- the datagram at a place carries the packet there
  have hat : ∀ (k : Nat) d, datagrams[k]? = some d → ∃ p : QPacket, packets[k]? = some p ∧ Carries zlib ctx p d := by
    intro k d hd
    have hlt : k < packets.length := by
      rw [hdatagrams]
      exact (List.getElem?_eq_some_iff.mp hd).1
    refine ⟨packets[k], List.getElem?_eq_getElem hlt, ?_⟩
    obtain ⟨hk, rfl⟩ := List.getElem?_eq_some_iff.mp hd
    exact (List.forall₂_iff_get.mp hcarries).2 k hlt hk
  have hpiece : ∀ d ∈ datagrams, ∃ (k : Nat) (p : QPacket), k + 1 < M.chunks.length ∧ packets[k]? = some p ∧ Carries zlib ctx p d := by
    intro d hd
    obtain ⟨k, hk⟩ := List.getElem?_of_mem hd
    obtain ⟨p, hp, hc⟩ := hat k d hk
    have hlt := (List.getElem?_eq_some_iff.mp hp).1
    exact ⟨k, p, by omega, hp, hc⟩
  have harrived : ∀ a ∈ arrivals, ∃ (k : Nat) (p : QPacket), k + 1 < M.chunks.length ∧ packets[k]? = some p ∧ Carries zlib ctx p a.2 :=
    fun a ha => hpiece a.2 (h.sent a ha)
  have hdecode : decodeDatagrams zlib ctx arrivals = _ := decodeDatagrams_eq fun a ha => by
    obtain ⟨_, p, _, _, hc⟩ := harrived a ha
    exact ⟨p, hc⟩
  have hlast' : M.IsPacket (M.chunks.length - 1) (decoded zlib ctx lastDatagram) := hcarriesLast.fromBytes.2.isPacket hlast
  simp only [receivedMessage, hdecode, hcarriesLast.fromBytes.1, bind, Option.bind]
  by_cases hnil : datagrams = []
  · have harr : arrivals = [] := List.eq_nil_iff_forall_not_mem.mpr fun a ha => by
      have hmem := h.sent a ha
      rw [hnil] at hmem
      cases hmem
    have hone : M.chunks.length = 1 := by
      rw [hnil] at hdatagrams
      have hzero : packets.length = 0 := hdatagrams
      omega
    rw [harr]
    exact RoundTrip.single_whole h.wellFormed (h.single hnil) hlen hone hlast'
  · have hmany : 1 < M.chunks.length := by
      have := List.length_pos_iff.mpr hnil
      omega
    refine (RoundTrip.collected_whole h.otherEnd hlen hmany (fun a ha => ?_) (fun k hk => ?_) (fun a ha => ?_) hlast').1
    · obtain ⟨a', ha', rfl⟩ := List.mem_map.mp ha
      obtain ⟨k, p, hk, hp, hc⟩ := harrived a' ha'
      exact ⟨k, hk, hc.fromBytes.2.isPacket (hpackets k p hp)⟩
    · have hlt : k < datagrams.length := by omega
      obtain ⟨p, hp, hc⟩ := hat k _ (List.getElem?_eq_getElem hlt)
      obtain ⟨a, ha, hd⟩ := h.whole _ (List.getElem_mem hlt)
      refine ⟨(a.1, decoded zlib ctx a.2), List.mem_map.mpr ⟨a, ha, rfl⟩, ?_⟩
      rw [hd]
      exact hc.fromBytes.2.isPacket (hpackets k p hp)
    · obtain ⟨a', ha', rfl⟩ := List.mem_map.mp ha
      refine ⟨(h.inTime a' ha').1, fun b hb => ?_⟩
      obtain ⟨b', hb', rfl⟩ := List.mem_map.mp hb
      exact (h.inTime a' ha').2 b' hb'

/-! ## The call -/

/-- The acknowledgement of a data packet is sent. -/
theorem sendAck_data {σ T : Type} {env : Env} (svc : Service σ T) (hkey : KeyFits svc.ctx) {client : SocketAddr}
    (hsend : ∀ data, (env.send data client).isSome) {p : QPacket} (htype : p.packetType = .data) (ci : ClientInfo T) :
    ∃ data, sendAck env svc client p ci false = .ok (.sent client data) := by
  obtain ⟨c, hc⟩ := Codec.exists_cipher hkey
  obtain ⟨data, hdata⟩ : ∃ data, ({ p with
      source := p.destination
      destination := p.source
      flags := ((({} : BitFlags).insert .ack).insert .hasSize).insert .hasSize
      signature := ci.clientSignature.getD 0
      sessionId := ci.serverSession
      payload := []
      useCompression := true
      fragmentId := some (p.fragmentId.getD 0) } : QPacket).toBytes svc.zlib svc.ctx = .ok data := by
    simp only [QPacket.toBytes, QPacket.toDataBytes, QPacket.typeFields, htype, QPacket.packPayload, unwrap, hc, bind, Except.bind,
      Functor.map, Except.map, pure, Except.pure]
    split
    · rename_i h
      split at h <;> cases h
    · exact ⟨_, rfl⟩
  obtain ⟨sz, hsz⟩ := Option.isSome_iff_exists.mp (hsend data)
  have hassert : assert (decide (sz = data.length)) = .ok () := if_pos (decide_eq_true (env.send_whole hsz))
  refine ⟨data, ?_⟩
  simp only [sendAck, sendPacket, if_pos htype, if_neg Bool.false_ne_true]
  simp only [hdata, hsz, bind, Except.bind, hassert, pure, Except.pure]

end RemoteCalls

open RemoteCalls

/-- A call that is answered is answered to its client: when the last packet of a request comes in, the server acknowledges it, keeps what
the call did, and sends the response in datagrams; a client with its keys that gets them within the timeout, the last one at the end and
the others in any order and any number of times, has a message that reads as the response to the request. -/
theorem call_answered (env : Env) (svc : Service Database Unit) (registry : RmcRegistry) (srv : Server Database Unit) (p : QPacket)
    (client : SocketAddr) (hbuild : env.build = .release) (hzlib : ZlibFormat svc.zlib) (hkey : KeyFits svc.ctx)
    (hsend : ∀ data, (env.send data client).isSome)
    (hhandler : svc.handlers p.destination = some (RVSecHandler svc.ctx svc.zlib registry))
    (hack : p.flags.contains .ack = false) (htype : p.packetType = .data) (hencrypted : p.destination.streamType = .RVSec)
    (hsource : p.source.port < 16) (hdestination : p.destination.port < 16) {ci : ClientInfo Unit}
    (hopen : srv.clientRegistry.clients.lookup p.signature = some ci) {message : Bytes}
    (hreceived : (receivePayload env.now (ci.seen env.now) p).2 = some message) {r : Request}
    (hrequest : Rmc.Packet.fromBytes message = .ok (.request r)) {st : CallState} {result : Except Rmc.Error Bytes}
    (hcall :
      let ci' := (receivePayload env.now (ci.seen env.now) p).1
      let reg := srv.clientRegistry.set p.signature ci'
      registry.call r { env, ctx := svc.ctx, zlib := svc.zlib, signature := p.signature, info := ci', registry := reg }
        (beginCall reg ci' srv.app) = .ok (st, result))
    (hmethod : r.methodId &&& 0x8000 = 0) (hlen : (response r result).toBytes.length ≤ 256000) :
    ∃ srv' es, handlePacket env svc srv p client = .ok (srv', es) ∧ CallAnswered svc p client r st result srv' es := by
  generalize hanswer : (response r result).toBytes = answer at hlen
  generalize hci' : (receivePayload env.now (ci.seen env.now) p).1 = ci' at hcall
  dsimp only at hcall
  generalize hreg : srv.clientRegistry.set p.signature ci' = reg at hcall
  have hlookup : reg.clients.lookup p.signature = some ci' := by
    rw [← hreg, ClientRegistry.lookup_set, if_pos rfl]
  -- the handler
  have hhandled : (RVSecHandler svc.ctx svc.zlib registry).handle env p.signature reg srv.app message =
      .ok { registry := updateRegistry reg p.signature st, app := st.db, events := st.events, answer := .ok answer } := by
    simp only [RVSecHandler, hlookup, RmcRegistry.handle, hrequest, hcall, hanswer, bind, Except.bind, pure, Except.pure]
  have hupdated : (updateRegistry reg p.signature st).clients.lookup p.signature =
      some { ci' with userId := st.userId, clientSequenceId := st.clientSequenceIds p.signature } := by
    rw [updateRegistry, lookup_mapValues, hlookup, Option.map_some, if_pos rfl]
  generalize hsender : ({ ci' with userId := st.userId, clientSequenceId := st.clientSequenceIds p.signature } : ClientInfo Unit) =
    sender at hupdated
  -- the packets of the answer
  have hne : answer ≠ [] := by
    intro hnil
    have hlength := congrArg List.length (hanswer.trans hnil)
    rw [Response.toBytes, List.length_append, length_putU32, List.length_nil] at hlength
    omega
  obtain ⟨all, sender', hpackets, hcount, hpiece⟩ := isPacket_responsePackets p sender answer hne hlen
  generalize hM : Message.ofPayload answer sender.serverSequenceId hne hlen = M at hpiece
  have hpayload : M.payload = answer := by rw [← hM, Message.payload_ofPayload]
  have hcount' : all.length = M.chunks.length := by rw [hcount, ← hM]; rfl
  obtain ⟨packets, last, rfl⟩ := (List.eq_nil_or_concat' all).resolve_left (List.length_pos_iff.mp (hcount' ▸ M.length_pos))
  rw [List.length_append, List.length_singleton] at hcount'
  have hsendable : ∀ q ∈ packets ++ [last], Sendable { q with useCompression := true, flags := q.flags.insert .hasSize } :=
    fun q hq => sendable_responsePackets hsource hdestination hencrypted hpackets hq
  obtain ⟨sent, hsent, hcarries⟩ := sendAll_carries svc hzlib hkey hsend hsendable
  obtain ⟨datagrams, lastDatagram, rfl, hinit, hcarriesLast⟩ := forall₂_concat hcarries
  obtain ⟨ack, hacked⟩ := sendAck_data svc hkey hsend htype (ci.seen env.now)
  have hnumbers : M.IsPacket (M.chunks.length - 1) last := by
    have := hpiece packets.length last (by simp)
    rwa [show M.chunks.length - 1 = packets.length by omega]
  refine ⟨{ srv with clientRegistry := (updateRegistry reg p.signature st).set p.signature sender', app := st.db }, _, ?_, rfl, ?_, ack,
    datagrams, lastDatagram, M.finalSequence, rfl, fun {U} ci arrivals now hreaches => ⟨answer, ?_, ?_⟩⟩
  · rw [handlePacket, hack, if_neg Bool.false_ne_true, htype]
    simp only [handleData, hopen, hacked, hreceived, handlerCall, hhandler, hci', hreg, hhandled, hupdated, hbuild, hpackets, hsent,
      bind, Except.bind, pure, Except.pure]
  · obtain ⟨n, hsender'⟩ := responsePackets_ok hpackets
    rw [ClientRegistry.lookup_set, if_pos rfl, hsender', ← hsender]
    rfl
  · rw [← hpayload]
    refine receivedMessage_of_reaches ?_ hcount' (fun k q hq => hpiece k q ?_) hnumbers hinit hcarriesLast hreaches
    · rw [hpayload, maxInboundMessageBytes]
      omega
    · rw [List.getElem?_append_left (List.getElem?_eq_some_iff.mp hq).1]
      exact hq
  · rw [← hanswer, ResponseCodec.fromBytes_toBytes, ResponseCodec.decode fun rd hrd => ?_]
    · rfl
    · cases result with
      | error e => cases hrd
      | ok data =>
        rw [← Except.ok.inj hrd]
        exact hmethod

namespace RemoteCalls

/-- The checksum at the end of a zlib stream. -/
def adler32 (data : Bytes) : Nat :=
  let sums := data.foldl (fun s b => ((s.1 + b.toNat) % 65521, (s.1 + b.toNat + s.2) % 65521)) (1, 0)
  sums.2 * 65536 + sums.1

/-- The zlib format without compression: the header, a stored block and the checksum. -/
def storedBlock : Zlib where
  compress data :=
    [0x78, 0x01, 0x01] ++ putU16 (UInt16.ofNat data.length) ++ putU16 (~~~ UInt16.ofNat data.length) ++ data ++
      (leBytes 4 (adler32 data)).reverse
  decompress data limit :=
    let content := (data.drop 7).take (data.length - 11)
    if content.length ≤ limit then some content else none

theorem storedBlock_format : ZlibFormat storedBlock := by
  have hlength : ∀ data, (storedBlock.compress data).length = data.length + 11 := by
    intro data
    simp only [storedBlock, List.length_append, length_putU16, List.length_reverse, length_leBytes, List.length_cons, List.length_nil]
    omega
  refine ⟨fun data limit h => ?_, fun data => by rw [hlength]; omega, fun data h => by rw [hlength]; omega⟩
  have hcontent : ((storedBlock.compress data).drop 7).take ((storedBlock.compress data).length - 11) = data := by
    rw [hlength, Nat.add_sub_cancel]
    simp only [storedBlock]
    rw [List.append_assoc _ data, List.drop_left' (by simp [length_putU16]), List.take_left' rfl]
  show (if (((storedBlock.compress data).drop 7).take _).length ≤ limit then some (((storedBlock.compress data).drop 7).take _) else none) = _
  rw [hcontent, if_pos h]

/-- A secure server that only registers. -/
def storedService : Service Database Unit :=
  { ConnectionIds.registeringService with
    zlib := storedBlock
    handlers := fun _ => some (RVSecHandler (Context.splinterCellBlacklist []) storedBlock ConnectionIds.registering) }

/-- An open connection of a user. -/
def openConnection : ClientInfo Unit :=
  { ClientInfo.new 0 7 AtMostOnce.address with
    clientSignature := some 9
    connectionId := some ⟨0x3AAAAAAA⟩
    userId := some 1002 }

/-- A server with this connection. -/
def openServer : Server Database Unit :=
  { Server.new Auth.Authentication.started.storage with
    clientRegistry :=
      { clients := AList.insert 7 openConnection ∅
        connectionIdSessionIds := AList.insert ⟨0x3AAAAAAA⟩ ⟨7⟩ ∅ } }

/-- A registration without URLs. -/
def registration : Request where
  protocolId := 11
  callId := 1
  methodId := 1
  parameters := [0, 0, 0, 0]

/-- Its only packet. -/
def registrationPacket : QPacket where
  source := { port := 15, streamType := .RVSec }
  destination := { port := 1, streamType := .RVSec }
  packetType := .data
  signature := 7
  fragmentId := some 0
  sequence := 1
  payload := registration.toBytes

end RemoteCalls

/-- The registration of the user is answered. -/
theorem call_answered_registration :
    ∃ caller st result srv' es, ConnectionIds.registering.call registration caller
        (beginCall caller.registry caller.info openServer.app) = .ok (st, .ok result) ∧
      handlePacket Auth.Handshake.sendingEnv storedService openServer registrationPacket AtMostOnce.address = .ok (srv', es) ∧
      CallAnswered storedService registrationPacket AtMostOnce.address registration st (.ok result) srv' es := by
  let ci' := (receivePayload Auth.Handshake.sendingEnv.now (openConnection.seen Auth.Handshake.sendingEnv.now) registrationPacket).1
  let reg := openServer.clientRegistry.set 7 ci'
  let caller : Caller := ⟨Auth.Handshake.sendingEnv, storedService.ctx, storedBlock, 7, ci', reg⟩
  obtain ⟨⟨st, answer⟩, hcall, hlen⟩ := exists_ok_of_toOption
    (x := ConnectionIds.registering.call registration caller (beginCall reg ci' openServer.app))
    (f := fun r => r.2.toOption.map (fun answer => decide ((response registration (.ok answer)).toBytes.length ≤ 256000)))
    (b := some true) (by decide +kernel)
  obtain ⟨result, hresult, hshort⟩ := exists_ok_of_toOption hlen
  rw [show answer = .ok result from hresult] at hcall
  have hopen : openServer.clientRegistry.clients.lookup registrationPacket.signature = some openConnection := rfl
  have hreceived : (receivePayload Auth.Handshake.sendingEnv.now (openConnection.seen Auth.Handshake.sendingEnv.now) registrationPacket).2 =
      some registration.toBytes := by decide +kernel
  obtain ⟨srv', es, hhandled, hanswered⟩ := call_answered Auth.Handshake.sendingEnv storedService ConnectionIds.registering openServer
    registrationPacket AtMostOnce.address rfl storedBlock_format (by decide) (fun _ => rfl) rfl (by decide) rfl rfl (by decide) (by decide)
    hopen hreceived (by decide +kernel) hcall (by decide) (of_decide_eq_true hshort)
  exact ⟨caller, st, result, srv', es, hcall, hhandled, hanswered⟩

end Scbl.Services
