import Scbl.Prudp.Packet

/-!
# The packet codec, field by field

What the decoder reads is what the encoder wrote: the virtual ports, the byte with the type and the flags, the optional fields, the
size and the cipher. `fromReader_frame` puts the fields together: decoding an encoded packet whose end can be told is decoding its
payload, and leaves what follows the packet.
-/

namespace Scbl.Prudp

open Scbl.Lib

/-- A packet has the optional fields its type requires, and no others. -/
structure QPacket.HasFields (p : QPacket) : Prop where
  connSignature : p.connSignature.isSome ↔ p.packetType = .syn ∨ p.packetType = .connect
  fragmentId : p.fragmentId.isSome ↔ p.packetType = .data

/-- A packet has the optional fields its type requires, and its ports fit four bits. -/
structure QPacket.WellFormed (p : QPacket) : Prop extends p.HasFields where
  sourcePort : p.source.port < 16
  destinationPort : p.destination.port < 16

/-- The payload of a packet is encrypted. -/
abbrev QPacket.Encrypted (p : QPacket) : Prop := p.packetType ≠ .syn ∧ p.source.streamType = .RVSec

/-- The cipher accepts the key of the context. -/
def KeyFits (ctx : Context) : Prop := ctx.cryptoKey.length ≠ 0 ∧ ctx.cryptoKey.length ≤ 256

instance (ctx : Context) : Decidable (KeyFits ctx) := inferInstanceAs (Decidable (_ ∧ _))

namespace Codec

/-! ## The cipher -/

/-- Encrypting does not change the length. -/
@[simp] theorem length_apply (c : Rc4) (data : Bytes) : (c.apply data).length = data.length := by
  induction data generalizing c with
  | nil => rfl
  | cons b data ih => simp only [Rc4.apply, List.length_cons, ih]

/-- Encrypting twice with the same keystream gives the data back. -/
@[simp] theorem apply_apply (c : Rc4) (data : Bytes) : c.apply (c.apply data) = data := by
  induction data generalizing c with
  | nil => rfl
  | cons b data ih => rw [Rc4.apply, Rc4.apply, ih, ← UInt8.xor_assoc, UInt8.xor_self, UInt8.zero_xor]

/-- A key that fits gives a cipher. -/
theorem exists_cipher {ctx : Context} (h : KeyFits ctx) : ∃ c : Rc4, ∀ data, crypt ctx data = .ok (c.apply data) :=
  exists_rc4 h

/-! ## The bytes of the header -/

/-- A virtual port of four bits shares its byte with the stream type. -/
theorem port_byte (s : StreamType) {port : UInt8} (h : port < 16) :
    StreamType.tryFrom ((port ||| (s.toU8 <<< 4)) >>> 4) = some s ∧ (port ||| (s.toU8 <<< 4)) &&& 0xF = port :=
  forall_lt_of_fin @UInt8.ofNat_toNat
    (fun x => StreamType.tryFrom ((x ||| (s.toU8 <<< 4)) >>> 4) = some s ∧ (x ||| (s.toU8 <<< 4)) &&& 0xF = x) 16
    (by cases s <;> decide) (UInt8.lt_iff_toNat_lt.mp h)

/-- The byte a virtual port was read from is the byte it is written in. -/
theorem port_byte_of_read {b : UInt8} {s : StreamType} (h : StreamType.tryFrom (b >>> 4) = some s) :
    (b &&& (0xF : UInt8)) ||| (s.toU8 <<< 4) = b :=
  forall_lt_of_fin @UInt8.ofNat_toNat
    (fun x => StreamType.tryFrom (x >>> 4) = some s → (x &&& (0xF : UInt8)) ||| (s.toU8 <<< 4) = x) 256
    (by cases s <;> decide +kernel) b.toNat_lt h

/-- A virtual port is read back. -/
theorem fromReader_port {v : VPort} (h : v.port < 16) (rest : Bytes) :
    VPort.fromReader (v.toBytes ++ rest) = .ok (v, rest) := by
  obtain ⟨hs, hp⟩ := port_byte v.streamType h
  simp only [VPort.fromReader, VPort.toBytes, List.cons_append, List.nil_append, readU8_cons, need, bind, Except.bind, hs, hp,
    pure, Except.pure]

/-- The type and the flags of a packet share a byte. -/
theorem type_byte (t : PacketType) (fs : BitFlags) :
    PacketType.tryFrom ((t.toU8 ||| (fs.bits <<< 3)) &&& 0x7) = some t ∧ (t.toU8 ||| (fs.bits <<< 3)) >>> 3 = fs.bits := by
  have hlt : fs.bits.toNat < 16 := by
    have hv := fs.valid
    revert hv
    generalize fs.bits = b
    intro hv
    by_contra hge
    exact absurd hv
      (forall_lt_of_fin @UInt8.ofNat_toNat (fun x => ¬ x.toNat < 16 → x &&& ~~~0b1111 ≠ 0) 256 (by decide +kernel) b.toNat_lt hge)
  exact forall_lt_of_fin @UInt8.ofNat_toNat
    (fun x => PacketType.tryFrom ((t.toU8 ||| (x <<< 3)) &&& 0x7) = some t ∧ (t.toU8 ||| (x <<< 3)) >>> 3 = x) 16
    (by cases t <;> decide) hlt

/-- A set of flags is read back. -/
theorem fromBits_bits (fs : BitFlags) : BitFlags.fromBits fs.bits = .ok fs := dif_pos fs.valid

end Codec

/-! ## The decoder in two stages -/

/-- Read the header of a packet: everything before the size and the payload. -/
def QPacket.readHeader (rdr : Bytes) : Except (Fault Error) (QPacket × Bytes) := do
  let (source, rdr) ← VPort.fromReader rdr
  let (destination, rdr) ← VPort.fromReader rdr
  let (typeFlag, rdr) ← need (readU8 rdr)
  let packetType ← match PacketType.tryFrom (typeFlag &&& 0x7) with
    | some packetType => pure packetType
    | none => throw (.fail (.invalidPacketType (typeFlag &&& 0x7)))
  let flags ← match BitFlags.fromBits (typeFlag >>> 3) with
    | .ok flags => pure flags
    | .error bits => throw (.fail (.invalidFlag bits))
  let (sessionId, rdr) ← need (readU8 rdr)
  let (signature, rdr) ← need (readU32 rdr)
  let (sequence, rdr) ← need (readU16 rdr)
  let (connSignature, rdr) ←
    if packetType = .syn ∨ packetType = .connect then (fun r => (some r.1, r.2)) <$> need (readU32 rdr)
    else pure (none, rdr)
  let (fragmentId, rdr) ←
    if packetType = .data then (fun r => (some r.1, r.2)) <$> need (readU8 rdr) else pure (none, rdr)
  return ({ source, destination, packetType, flags, sessionId, signature, fragmentId, connSignature, sequence }, rdr)

/-- Read the rest of a packet: the payload and the checksum. -/
def QPacket.readBody (zlib : Zlib) (ctx : Context) (p : QPacket) (rdr : Bytes) : Except (Fault Error) (QPacket × Bytes) := do
  let (size, rdr) ← payloadSize p.flags rdr
  let (payload, rdr) ← need (readExact size rdr)
  let (payload, useCompression) ← decodePayload zlib ctx p.packetType p.source payload
  let (checksum, rdr) ← need (readU8 rdr)
  return ({ p with payload, checksum, useCompression }, rdr)

/-- The decoder reads the header and then the body. -/
theorem QPacket.fromReader_eq (zlib : Zlib) (ctx : Context) (rdr : Bytes) :
    QPacket.fromReader zlib ctx rdr = QPacket.readHeader rdr >>= fun r => r.1.readBody zlib ctx r.2 := by
  unfold QPacket.fromReader QPacket.readHeader QPacket.readBody
  simp only [bind_assoc]
  refine bind_congr fun source => bind_congr fun destination => bind_congr fun typeFlag => ?_
  cases PacketType.tryFrom (typeFlag.1 &&& 0x7) with
  | none => rfl
  | some packetType =>
    cases BitFlags.fromBits (typeFlag.1 >>> 3) with
    | error bits => rfl
    | ok flags =>
      simp only [bind_assoc, pure_bind]
      refine bind_congr fun sessionId => bind_congr fun signature => bind_congr fun sequence => ?_
      split
      · split <;> simp only [bind_assoc, pure_bind]
      · split <;> simp only [bind_assoc, pure_bind]

/-! ## The frame of a packet -/

/-- The payload as it goes on the wire: packed, and encrypted on the encrypted stream. -/
def QPacket.wire (zlib : Zlib) (ctx : Context) (p : QPacket) : Except Panic Bytes := do
  let payload ← p.packPayload zlib
  if p.packetType ≠ .syn ∧ p.source.streamType = .RVSec then crypt ctx payload else pure payload

/-- The optional fields of a packet. -/
def QPacket.optionalBytes (p : QPacket) : Bytes :=
  (p.connSignature.map putU32).getD [] ++ (p.fragmentId.map (fun fid => [fid])).getD []

/-- The size field of a packet with a number of bytes on the wire. -/
def QPacket.sizeBytes (p : QPacket) (n : Nat) : Bytes := if p.flags.contains .hasSize then putU16 (UInt16.ofNat n) else []

/-- A packet without its checksum, around its optional fields and the bytes of its payload on the wire. -/
def QPacket.frame (p : QPacket) (fields wire : Bytes) : Bytes :=
  p.source.toBytes ++ p.destination.toBytes ++ [p.packetType.toU8 ||| (p.flags.bits <<< 3), p.sessionId] ++
    putU32 p.signature ++ putU16 p.sequence ++ fields ++ p.sizeBytes wire.length ++ wire

/-- The header of a packet on the wire: everything before the size and the payload. -/
def QPacket.header (p : QPacket) : Bytes :=
  p.source.toBytes ++ p.destination.toBytes ++ [p.packetType.toU8 ||| (p.flags.bits <<< 3), p.sessionId] ++
    putU32 p.signature ++ putU16 p.sequence ++ p.optionalBytes

/-- The bytes on the wire can be told from what follows the packet: their number fits the size field, or nothing follows. -/
def QPacket.Delimits (p : QPacket) (wire rest : Bytes) : Prop :=
  if p.flags.contains .hasSize then wire.length ≤ 65535 else rest = []

namespace Codec

/-- The optional fields by packet type. -/
theorem optional_cases {p : QPacket} (h : p.HasFields) :
    ((p.packetType = .syn ∨ p.packetType = .connect) ∧ p.packetType ≠ .data ∧ (∃ s, p.connSignature = some s) ∧
        p.fragmentId = none) ∨
      (¬ (p.packetType = .syn ∨ p.packetType = .connect) ∧ p.packetType = .data ∧ p.connSignature = none ∧
        ∃ fid, p.fragmentId = some fid) ∨
      (¬ (p.packetType = .syn ∨ p.packetType = .connect) ∧ p.packetType ≠ .data ∧ p.connSignature = none ∧
        p.fragmentId = none) := by
  have hs := Option.isSome_iff_exists.symm.trans h.connSignature
  have hf := Option.isSome_iff_exists.symm.trans h.fragmentId
  have hns := not_congr hs
  have hnf := not_congr hf
  rw [← Option.ne_none_iff_exists', not_not] at hns hnf
  by_cases hc : p.packetType = .syn ∨ p.packetType = .connect
  · have hd : p.packetType ≠ .data := by
      intro hd
      rcases hc with hc | hc <;> rw [hc] at hd <;> nomatch hd
    exact Or.inl ⟨hc, hd, hs.mpr hc, hnf.mpr hd⟩
  · by_cases hd : p.packetType = .data
    · exact Or.inr (Or.inl ⟨hc, hd, hns.mpr hc, hf.mpr hd⟩)
    · exact Or.inr (Or.inr ⟨hc, hd, hns.mpr hc, hnf.mpr hd⟩)

/-- A packet with the fields its type requires is written with them. -/
theorem typeFields_eq {p : QPacket} (h : p.HasFields) : p.typeFields = .ok p.optionalBytes := by
  unfold QPacket.typeFields QPacket.optionalBytes
  rcases optional_cases h with ⟨hc, _, ⟨s, hs⟩, hf⟩ | ⟨_, hd, hs, fid, hf⟩ | ⟨hc, hd, hs, hf⟩
  · rcases hc with hc | hc <;> rw [hc, hs, hf] <;> exact congrArg Except.ok (List.append_nil _).symm
  · rw [hd, hs, hf]
    rfl
  · rw [hs, hf]
    cases ht : p.packetType <;> simp_all

/-- What the encoder writes before the checksum. -/
theorem toDataBytes_eq {zlib : Zlib} {ctx : Context} {p : QPacket} {fields wire : Bytes} (hf : p.typeFields = .ok fields)
    (hw : p.wire zlib ctx = .ok wire) : p.toDataBytes zlib ctx = .ok (p.frame fields wire) := by
  obtain ⟨payload, hp, hc⟩ := bind_eq_ok.mp hw
  rw [QPacket.toDataBytes, hf, hp]
  dsimp only [bind, Except.bind]
  split at hc
  · rename_i henc
    rw [if_pos henc, hc]
    rfl
  · rename_i henc
    rw [if_neg henc, hc]
    rfl

/-- The optional fields and the payload of a packet that is encoded. -/
theorem toDataBytes_ok {zlib : Zlib} {ctx : Context} {p : QPacket} {data : Bytes} (h : p.toDataBytes zlib ctx = .ok data) :
    ∃ fields wire, p.typeFields = .ok fields ∧ p.wire zlib ctx = .ok wire := by
  obtain ⟨fields, hf, h⟩ := bind_eq_ok.mp h
  obtain ⟨payload, hp, h⟩ := bind_eq_ok.mp h
  have hw : p.wire zlib ctx = if p.Encrypted then crypt ctx payload else pure payload := by rw [QPacket.wire, hp]; rfl
  dsimp only at h
  by_cases henc : p.Encrypted
  · rw [if_pos henc] at h hw
    obtain ⟨wire, hc, -⟩ := bind_eq_ok.mp h
    exact ⟨fields, wire, hf, hw.trans hc⟩
  · rw [if_neg henc] at hw
    exact ⟨fields, payload, hf, hw⟩

/-- The sum of an encoded packet. -/
def frameSum (ctx : Context) (p : QPacket) (fields wire : Bytes) : UInt8 :=
  calcChecksumFromData (ctx.key p.destination.streamType) (p.frame fields wire)

/-- What the encoder writes. -/
theorem toBytes_eq {zlib : Zlib} {ctx : Context} {p : QPacket} {fields wire : Bytes} (hf : p.typeFields = .ok fields)
    (hw : p.wire zlib ctx = .ok wire) :
    p.toBytes zlib ctx = .ok (p.frame fields wire ++ [frameSum ctx p fields wire]) := by
  rw [QPacket.toBytes, toDataBytes_eq hf hw]
  rfl

/-- The checksum the encoder writes. -/
theorem calcChecksum_eq {zlib : Zlib} {ctx : Context} {p : QPacket} {fields wire : Bytes} (hf : p.typeFields = .ok fields)
    (hw : p.wire zlib ctx = .ok wire) : p.calcChecksum zlib ctx = .ok (frameSum ctx p fields wire) := by
  rw [QPacket.calcChecksum, toDataBytes_eq hf hw]
  rfl

/-- The size field gives the number of bytes on the wire; without it they are all that is left but the checksum. -/
theorem payloadSize_frame {p : QPacket} {wire rest : Bytes} (h : p.Delimits wire rest) (sum : UInt8) :
    payloadSize p.flags (p.sizeBytes wire.length ++ (wire ++ sum :: rest)) =
      .ok (wire.length, wire ++ sum :: rest) := by
  unfold QPacket.Delimits at h
  unfold payloadSize QPacket.sizeBytes
  split at h
  · rename_i hsize
    rw [if_pos hsize, if_pos hsize, readU16_putU16]
    have hto : (UInt16.ofNat wire.length).toNat = wire.length := UInt16.toNat_ofNat_of_lt' (Nat.lt_succ_of_le h)
    simp only [need, bind, Except.bind, pure, Except.pure, hto]
  · rename_i hsize
    rw [if_neg hsize, if_neg hsize, h]
    simp [pure, Except.pure]

/-- The header of a packet is read back, and leaves what follows it. -/
theorem readHeader_header {p : QPacket} (h : p.WellFormed) (rest : Bytes) :
    QPacket.readHeader (p.header ++ rest) = .ok ({ p with payload := [], checksum := 0, useCompression := false }, rest) := by
  obtain ⟨htype, hbits⟩ := type_byte p.packetType p.flags
  simp only [QPacket.readHeader, QPacket.header, List.append_assoc]
  rw [fromReader_port h.sourcePort]
  dsimp only [bind, Except.bind]
  rw [fromReader_port h.destinationPort]
  simp only [List.cons_append, List.nil_append, readU8_cons, need, htype, hbits, fromBits_bits, readU32_putU32, readU16_putU16,
    pure, Except.pure]
  rcases optional_cases h.toHasFields with ⟨hc, hd, ⟨s, hs⟩, hf⟩ | ⟨hc, hd, hs, fid, hf⟩ | ⟨hc, hd, hs, hf⟩
  · rw [if_pos hc]
    simp only [QPacket.optionalBytes, hs, hf, Option.map_some, Option.map_none, Option.getD_some, Option.getD_none, List.append_assoc,
      List.nil_append, readU32_putU32, Functor.map, Except.map]
    rw [if_neg hd]
  · rw [if_neg hc]
    simp only [QPacket.optionalBytes, hs, hf, Option.map_some, Option.map_none, Option.getD_some, Option.getD_none,
      List.nil_append, List.cons_append, readU8_cons, Functor.map, Except.map]
    rw [if_pos hd]
  · rw [if_neg hc]
    simp only [QPacket.optionalBytes, hs, hf, Option.map_none, Option.getD_none, List.nil_append]
    rw [if_neg hd]

/-- Decoding an encoded packet is decoding its payload, and leaves what follows the packet. -/
theorem fromReader_frame (zlib : Zlib) (ctx : Context) {p : QPacket} (h : p.WellFormed) {wire rest : Bytes}
    (hdel : p.Delimits wire rest) (sum : UInt8) :
    QPacket.fromReader zlib ctx (p.frame p.optionalBytes wire ++ sum :: rest) =
      (decodePayload zlib ctx p.packetType p.source wire).map (fun r =>
        ({ p with payload := r.1, useCompression := r.2, checksum := sum }, rest)) := by
  have hframe : p.frame p.optionalBytes wire ++ sum :: rest = p.header ++ (p.sizeBytes wire.length ++ (wire ++ sum :: rest)) := by
    simp only [QPacket.frame, QPacket.header, List.append_assoc]
  rw [QPacket.fromReader_eq, hframe, readHeader_header h]
  show QPacket.readBody zlib ctx { p with payload := [], checksum := 0, useCompression := false } _ = _
  rw [QPacket.readBody]
  dsimp only
  rw [payloadSize_frame hdel]
  simp only [bind, Except.bind, readExact_append, need]
  cases decodePayload zlib ctx p.packetType p.source wire <;> rfl

/-- Decoding exactly an encoded packet is decoding its payload, and consumes it. -/
theorem fromBytes_frame (zlib : Zlib) (ctx : Context) {p : QPacket} (h : p.WellFormed) {wire : Bytes}
    (hdel : p.Delimits wire []) (sum : UInt8) :
    QPacket.fromBytes zlib ctx (p.frame p.optionalBytes wire ++ [sum]) =
      (decodePayload zlib ctx p.packetType p.source wire).map (fun r =>
        ({ p with payload := r.1, useCompression := r.2, checksum := sum },
          (p.frame p.optionalBytes wire ++ [sum]).length)) := by
  unfold QPacket.fromBytes
  rw [fromReader_frame zlib ctx h hdel]
  cases decodePayload zlib ctx p.packetType p.source wire <;> rfl

/-! ## The payload on the wire -/

/-- What goes on the wire in the clear. -/
theorem wire_plain {zlib : Zlib} {ctx : Context} {p : QPacket} (henc : ¬ p.Encrypted) : p.wire zlib ctx = p.packPayload zlib := by
  unfold QPacket.wire
  cases p.packPayload zlib with
  | error e => rfl
  | ok packed => exact if_neg henc

/-- What goes on the wire encrypted. -/
theorem wire_encrypted {zlib : Zlib} {ctx : Context} {p : QPacket} (henc : p.Encrypted) {c : Rc4}
    (hc : ∀ data, crypt ctx data = .ok (c.apply data)) : p.wire zlib ctx = (p.packPayload zlib).map c.apply := by
  unfold QPacket.wire
  cases p.packPayload zlib with
  | error e => rfl
  | ok packed => exact (if_pos henc).trans (hc packed)

/-- A key that does not fit lets nothing encrypted on the wire. -/
theorem keyFits_of_wire {zlib : Zlib} {ctx : Context} {p : QPacket} (henc : p.Encrypted) {wire : Bytes}
    (hw : p.wire zlib ctx = .ok wire) : KeyFits ctx := by
  obtain ⟨packed, _, h⟩ := bind_eq_ok.mp hw
  rw [if_pos henc] at h
  obtain ⟨rc4, h, _⟩ := bind_eq_ok.mp h
  obtain ⟨_, h, _⟩ := bind_eq_ok.mp h
  unfold Scbl.Lib.assert at h
  split at h
  · rename_i hkey
    exact of_decide_eq_true hkey
  · nomatch h

/-- A payload in the clear is taken as it is. -/
theorem decodePayload_plain (zlib : Zlib) (ctx : Context) {t : PacketType} {source : VPort}
    (henc : ¬ (t ≠ .syn ∧ source.streamType = .RVSec)) (wire : Bytes) : decodePayload zlib ctx t source wire = .ok (wire, false) :=
  if_neg henc

/-- What an encrypted payload is taken for. -/
theorem decodePayload_encrypted (zlib : Zlib) {ctx : Context} {t : PacketType} {source : VPort}
    (henc : t ≠ .syn ∧ source.streamType = .RVSec) {c : Rc4} (hc : ∀ data, crypt ctx data = .ok (c.apply data)) (packed : Bytes) :
    decodePayload zlib ctx t source (c.apply packed) =
      match packed with
      | [] => .ok ([], false)
      | b :: rest => if b ≠ 0 then (decompressPayload zlib rest).map (fun out => (out, true)) else .ok (rest, false) := by
  unfold decodePayload
  rw [if_pos henc, hc, apply_apply]
  cases packed with
  | nil => rfl
  | cons b rest =>
    dsimp only [liftPanic, bind, Except.bind]
    split
    · cases decompressPayload zlib rest <;> rfl
    · rfl

/-! ## Packets that are not compressed -/

/-- A payload that is not compressed goes behind a zero byte, unless it is empty. -/
theorem packPayload_plain (zlib : Zlib) {p : QPacket} (hu : p.useCompression = false) :
    p.packPayload zlib = .ok (if p.payload = [] then [] else 0 :: p.payload) := by
  unfold QPacket.packPayload
  cases p.payload with
  | nil => rfl
  | cons b payload => rw [hu]; rfl

/-- What goes on the wire of a packet that is not compressed fits the size field. -/
theorem delimits_plain {zlib : Zlib} {ctx : Context} {p : QPacket} (hsize : p.flags.contains .hasSize = true)
    (hu : p.useCompression = false) (hlen : p.payload.length < 65535) {wire : Bytes} (hw : p.wire zlib ctx = .ok wire)
    (rest : Bytes) : p.Delimits wire rest := by
  have hpack : (if p.payload = [] then [] else 0 :: p.payload).length ≤ 65535 := by
    split
    · exact Nat.zero_le _
    · rw [List.length_cons]
      omega
  unfold QPacket.Delimits
  rw [if_pos hsize]
  by_cases henc : p.Encrypted
  · obtain ⟨c, hc⟩ := exists_cipher (keyFits_of_wire henc hw)
    rw [wire_encrypted henc hc, packPayload_plain zlib hu] at hw
    rw [← Except.ok.inj hw, length_apply]
    exact hpack
  · rw [wire_plain henc, packPayload_plain zlib hu] at hw
    rw [← Except.ok.inj hw]
    exact hpack

/-- An encrypted payload that is not compressed is decoded to what it was. -/
theorem decodePayload_wire {zlib : Zlib} {ctx : Context} {p : QPacket} (hu : p.useCompression = false) (henc : p.Encrypted)
    {wire : Bytes} (hw : p.wire zlib ctx = .ok wire) :
    decodePayload zlib ctx p.packetType p.source wire = .ok (p.payload, false) := by
  obtain ⟨c, hc⟩ := exists_cipher (keyFits_of_wire henc hw)
  rw [wire_encrypted henc hc, packPayload_plain zlib hu] at hw
  rw [← Except.ok.inj hw, decodePayload_encrypted zlib henc hc]
  cases p.payload with
  | nil => rfl
  | cons b payload => rfl

/-- A packet that is not compressed goes on the wire when the cipher is not needed or accepts the key. -/
theorem exists_wire (zlib : Zlib) {ctx : Context} {p : QPacket} (hu : p.useCompression = false)
    (hkey : p.Encrypted → KeyFits ctx) : ∃ wire, p.wire zlib ctx = .ok wire := by
  by_cases henc : p.Encrypted
  · obtain ⟨c, hc⟩ := exists_cipher (hkey henc)
    exact ⟨_, by rw [wire_encrypted henc hc, packPayload_plain zlib hu]; rfl⟩
  · exact ⟨_, by rw [wire_plain henc, packPayload_plain zlib hu]⟩

end Codec

end Scbl.Prudp
