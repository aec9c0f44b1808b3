import Scbl.Lemmas.Codec

/-!
# What survives the packet codec

The encoder writes a byte before every payload that is not empty, and the decoder takes it away on the encrypted stream only: an
uncompressed packet comes back exactly when its payload is empty or encrypted (`roundTrips_iff`). On the encrypted stream that byte
also says whether the payload is compressed, as the low byte of a ratio: a compressed payload comes back exactly when that byte is
not zero (`compressed_survives_iff`).
-/

namespace Scbl.Prudp

open Scbl.Lib Codec

/-- Decoding the encoding of a packet gives the packet back, with its checksum, and consumes all bytes. -/
def QPacket.RoundTrips (zlib : Zlib) (ctx : Context) (p : QPacket) : Prop :=
  ∃ data sum, p.toBytes zlib ctx = .ok data ∧ p.calcChecksum zlib ctx = .ok sum ∧
    QPacket.fromBytes zlib ctx data = .ok ({ p with checksum := sum }, data.length)

namespace PacketCodec

/-- A packet whose payload is decoded to what it was round-trips. -/
theorem roundTrips_of_decodePayload {zlib : Zlib} {ctx : Context} {p : QPacket} (h : p.WellFormed) {wire : Bytes}
    (hw : p.wire zlib ctx = .ok wire) (hdel : p.Delimits wire [])
    (hd : decodePayload zlib ctx p.packetType p.source wire = .ok (p.payload, p.useCompression)) : p.RoundTrips zlib ctx := by
  have hf := typeFields_eq h.toHasFields
  refine ⟨_, _, toBytes_eq hf hw, calcChecksum_eq hf hw, ?_⟩
  rw [fromBytes_frame zlib ctx h hdel, hd]
  rfl

end PacketCodec

open PacketCodec

/-- An uncompressed packet with its size and the fields of its type comes back from its encoding exactly when its ports fit four
bits, the cipher accepts the key where it is used, and the payload is empty or encrypted. -/
theorem roundTrips_iff (zlib : Zlib) (ctx : Context) {p : QPacket} (hfields : p.HasFields)
    (hsize : p.flags.contains .hasSize = true) (hu : p.useCompression = false) (hlen : p.payload.length < 65535) :
    p.RoundTrips zlib ctx ↔
      p.source.port < 16 ∧ p.destination.port < 16 ∧ (p.Encrypted → KeyFits ctx) ∧ (p.payload = [] ∨ p.Encrypted) := by
  constructor
  · rintro ⟨data, sum, hto, -, hfrom⟩
    obtain ⟨⟨q, rest⟩, hr, hq⟩ := bind_eq_ok.mp hfrom
    obtain ⟨hq, -⟩ := Prod.mk.inj (Except.ok.inj hq)
    obtain ⟨hs, hd, -⟩ := QPacket.fromReader_ok hr
    rw [hq] at hs hd
    obtain ⟨payload, hdata, -⟩ := bind_eq_ok.mp hto
    obtain ⟨fields, wire, -, hw⟩ := toDataBytes_ok hdata
    refine ⟨hs, hd, fun henc => keyFits_of_wire henc hw, or_iff_not_imp_right.mpr fun henc => ?_⟩
    -- in the clear, the zero byte before the payload stays
    by_contra hne
    have hwf : p.WellFormed := ⟨hfields, hs, hd⟩
    rw [toBytes_eq (typeFields_eq hfields) hw] at hto
    rw [← Except.ok.inj hto, fromBytes_frame zlib ctx hwf (delimits_plain hsize hu hlen hw []),
      decodePayload_plain zlib ctx henc] at hfrom
    rw [wire_plain henc, packPayload_plain zlib hu, if_neg hne] at hw
    have hpay := congrArg QPacket.payload (Prod.mk.inj (Except.ok.inj hfrom)).1
    rw [← Except.ok.inj hw] at hpay
    exact absurd (congrArg List.length hpay) (by simp)
  · rintro ⟨hs, hd, hkey, hpay⟩
    obtain ⟨wire, hw⟩ := exists_wire zlib hu hkey
    refine roundTrips_of_decodePayload ⟨hfields, hs, hd⟩ hw (delimits_plain hsize hu hlen hw []) ?_
    rw [hu]
    by_cases henc : p.Encrypted
    · exact decodePayload_wire hu henc hw
    · rw [decodePayload_plain zlib ctx henc]
      rw [wire_plain henc, packPayload_plain zlib hu, if_pos (hpay.resolve_right henc)] at hw
      rw [← Except.ok.inj hw, hpay.resolve_right henc]

namespace PacketCodec

/-- A compression library that marks what it stores: 255 zeros get a mark alone, all else a mark before the data. -/
def marking : Zlib where
  compress data := if data = List.replicate 255 0 then [1] else 0 :: data
  decompress data limit :=
    if data = [1] then (if 255 ≤ limit then some (List.replicate 255 0) else none)
    else if data.tail.length ≤ limit then some data.tail else none

/-- A packet of the NAT stream with a payload. -/
def natPacket : QPacket where
  source := { port := 1, streamType := .NAT }
  destination := { port := 1, streamType := .NAT }
  packetType := .user
  flags := BitFlags.insert {} .hasSize
  sequence := 1
  payload := [0x80, 0x00, 0x01, 0x03]

/-- A data packet of the encrypted stream. -/
def dataPacket : QPacket where
  source := { port := 15, streamType := .RVSec }
  destination := { port := 1, streamType := .RVSec }
  packetType := .data
  flags := BitFlags.insert {} .hasSize
  fragmentId := some 0
  payload := [1, 2, 3]

end PacketCodec

/-- An encrypted packet comes back from its encoding. -/
theorem roundTrips_iff_dataPacket : dataPacket.RoundTrips marking (Context.splinterCellBlacklist []) :=
  (roundTrips_iff marking (Context.splinterCellBlacklist []) ⟨by decide, by decide⟩ (by decide) rfl (by decide)).mpr
    ⟨by decide, by decide, fun _ => by decide +kernel, Or.inr (by decide)⟩

/-- A packet of the NAT stream comes back with a zero byte before its payload. -/
theorem natPacket_gains_byte :
    natPacket.HasFields ∧ natPacket.flags.contains .hasSize = true ∧ natPacket.useCompression = false ∧
      natPacket.payload.length < 65535 ∧
      ((natPacket.toBytes marking (Context.splinterCellBlacklist [])).toOption.bind (fun data =>
        (QPacket.fromBytes marking (Context.splinterCellBlacklist []) data).toOption)).map (fun r => r.1.payload) =
          some [0x00, 0x80, 0x00, 0x01, 0x03] ∧
      ¬ natPacket.RoundTrips marking (Context.splinterCellBlacklist []) := by
  have hback : ((natPacket.toBytes marking (Context.splinterCellBlacklist [])).toOption.bind (fun data =>
      (QPacket.fromBytes marking (Context.splinterCellBlacklist []) data).toOption)).map (fun r => r.1.payload) =
        some [0x00, 0x80, 0x00, 0x01, 0x03] := by decide +kernel
  refine ⟨⟨by decide, by decide⟩, by decide, rfl, by decide, hback, ?_⟩
  rintro ⟨data, sum, hto, -, hfrom⟩
  rw [hto] at hback
  change (QPacket.fromBytes marking (Context.splinterCellBlacklist []) data).toOption.map (fun r => r.1.payload) = _ at hback
  rw [hfrom] at hback
  have hpay : natPacket.payload = [0x00, 0x80, 0x00, 0x01, 0x03] := Option.some.inj hback
  exact absurd hpay (by decide)

/-! ## Compressed payloads -/

/-- Decompressing gives the data back, as long as it is no larger than the limit. -/
def Zlib.Lossless (zlib : Zlib) : Prop :=
  ∀ data limit, data.length ≤ limit → zlib.decompress (zlib.compress data) limit = some data

/-- Decoding the encoding of a compressed packet gives its payload back, as one that came compressed. -/
def QPacket.Survives (zlib : Zlib) (ctx : Context) (p : QPacket) : Prop :=
  ∃ data q n, p.toBytes zlib ctx = .ok data ∧ QPacket.fromBytes zlib ctx data = .ok (q, n) ∧ q.payload = p.payload ∧
    q.useCompression = true

/-- The optional fields the type of a packet requires are there. -/
structure QPacket.HasRequired (p : QPacket) : Prop where
  connSignature : p.packetType = .syn ∨ p.packetType = .connect → p.connSignature.isSome
  fragmentId : p.packetType = .data → p.fragmentId.isSome

/-- The byte of a virtual port is read as a port of a stream. A port of four bits is read as one of its own stream. -/
def VPort.ReadAs (v : VPort) (s : StreamType) : Prop := StreamType.tryFrom ((v.port ||| (v.streamType.toU8 <<< 4)) >>> 4) = some s

namespace PacketCodec

/-- The virtual port the byte of a virtual port is read as, on a stream. -/
def reread (v : VPort) (s : StreamType) : VPort :=
  { port := (v.port ||| (v.streamType.toU8 <<< 4)) &&& 0xF, streamType := s }

/-- What is read back is written in the same byte. -/
theorem toBytes_reread {v : VPort} {s : StreamType} (h : v.ReadAs s) : (reread v s).toBytes = v.toBytes := by
  exact congrArg (fun b => [b]) (port_byte_of_read h)

/-- The port read back fits four bits. -/
theorem reread_lt (v : VPort) (s : StreamType) : (reread v s).port < 16 := by
  show (v.port ||| (v.streamType.toU8 <<< 4)) &&& 0xF < 16
  rw [UInt8.lt_iff_toNat_lt, UInt8.toNat_and]
  exact Nat.lt_succ_of_le Nat.and_le_right

/-- The byte of a virtual port that is read at all is read as a port of some stream. -/
theorem readAs_of_fromReader {v w : VPort} {rest rest' : Bytes} (h : VPort.fromReader (v.toBytes ++ rest) = .ok (w, rest')) :
    v.ReadAs w.streamType ∧ rest' = rest := by
  obtain ⟨⟨val, r⟩, hr, h⟩ := bind_eq_ok.mp h
  obtain ⟨rfl, rfl⟩ := Prod.mk.inj (Option.some.inj (need_eq_ok hr))
  dsimp only at h
  split at h
  · nomatch h
  · rename_i s hs
    obtain ⟨rfl, rfl⟩ := Prod.mk.inj (Except.ok.inj h)
    exact ⟨hs, rfl⟩

/-- The ports of an encoding that is decoded can be read. -/
theorem readAs_of_fromBytes {zlib : Zlib} {ctx : Context} {p q : QPacket} {fields wire tail : Bytes} {n : Nat}
    (h : QPacket.fromBytes zlib ctx (p.frame fields wire ++ tail) = .ok (q, n)) :
    (∃ s, p.source.ReadAs s) ∧ ∃ t, p.destination.ReadAs t := by
  obtain ⟨r, h, -⟩ := bind_eq_ok.mp h
  simp only [QPacket.frame, List.append_assoc] at h
  obtain ⟨⟨source, r1⟩, h1, h⟩ := bind_eq_ok.mp h
  obtain ⟨hs, rfl⟩ := readAs_of_fromReader h1
  obtain ⟨⟨destination, r2⟩, h2, -⟩ := bind_eq_ok.mp h
  exact ⟨⟨_, hs⟩, _, (readAs_of_fromReader h2).1⟩

/-- The packet a decoder finds: its ports as they are read back on two streams, and without the fields of other types. -/
def onWire (p : QPacket) (s t : StreamType) : QPacket :=
  { p with
    source := reread p.source s
    destination := reread p.destination t
    connSignature := if p.packetType = .syn ∨ p.packetType = .connect then p.connSignature else none
    fragmentId := if p.packetType = .data then p.fragmentId else none }

theorem onWire_wellFormed {p : QPacket} (h : p.HasRequired) (s t : StreamType) : (onWire p s t).WellFormed where
  sourcePort := reread_lt _ _
  destinationPort := reread_lt _ _
  connSignature := by
    show (if _ then _ else _ : Option UInt32).isSome = true ↔ _
    split
    · rename_i hc
      exact ⟨fun _ => hc, h.connSignature⟩
    · rename_i hc
      exact ⟨fun hn => (nomatch hn), fun hc' => absurd hc' hc⟩
  fragmentId := by
    show (if _ then _ else _ : Option UInt8).isSome = true ↔ _
    split
    · rename_i hd
      exact ⟨fun _ => hd, h.fragmentId⟩
    · rename_i hd
      exact ⟨fun hn => (nomatch hn), fun hd' => absurd hd' hd⟩

theorem typeFields_onWire (p : QPacket) (s t : StreamType) : (onWire p s t).typeFields = p.typeFields := by
  unfold QPacket.typeFields onWire
  cases p.packetType <;> rfl

theorem frame_onWire {p : QPacket} {s t : StreamType} (hs : p.source.ReadAs s) (ht : p.destination.ReadAs t)
    (fields wire : Bytes) : (onWire p s t).frame fields wire = p.frame fields wire := by
  unfold QPacket.frame
  rw [show (onWire p s t).source.toBytes = p.source.toBytes from toBytes_reread hs,
    show (onWire p s t).destination.toBytes = p.destination.toBytes from toBytes_reread ht]
  rfl

/-- Decoding the encoding of a packet whose ports can be read is decoding its payload. -/
theorem fromBytes_onWire {zlib : Zlib} {ctx : Context} {p : QPacket} (h : p.HasRequired) {s t : StreamType}
    (hs : p.source.ReadAs s) (ht : p.destination.ReadAs t) {wire : Bytes} (hw : p.wire zlib ctx = .ok wire)
    (hdel : p.Delimits wire []) :
    ∃ data, p.toBytes zlib ctx = .ok data ∧ ∃ sum, QPacket.fromBytes zlib ctx data =
      (decodePayload zlib ctx p.packetType (reread p.source s) wire).map (fun r =>
        ({ onWire p s t with payload := r.1, useCompression := r.2, checksum := sum }, data.length)) := by
  have hwf := onWire_wellFormed h s t
  have hf := typeFields_eq hwf.toHasFields
  rw [typeFields_onWire] at hf
  refine ⟨_, toBytes_eq hf hw, frameSum ctx p (onWire p s t).optionalBytes wire, ?_⟩
  rw [← frame_onWire hs ht]
  exact fromBytes_frame zlib ctx hwf hdel _

/-- What goes on the wire of a compressed packet. -/
theorem packPayload_compressed (zlib : Zlib) {p : QPacket} (hu : p.useCompression = true) (hne : p.payload ≠ []) :
    p.packPayload zlib =
      if (zlib.compress p.payload).length = 0 then .error .divisionByZero
      else .ok (UInt8.ofNat (p.payload.length / (zlib.compress p.payload).length + 1) :: zlib.compress p.payload) := by
  unfold QPacket.packPayload
  cases hp : p.payload with
  | nil => exact absurd hp hne
  | cons b payload => rw [hu]; rfl

/-- A packet that is encoded has the fields its type requires. -/
theorem hasRequired_of_typeFields {p : QPacket} {fields : Bytes} (h : p.typeFields = .ok fields) : p.HasRequired := by
  unfold QPacket.typeFields at h
  constructor
  · intro hc
    cases hs : p.connSignature with
    | some sig => rfl
    | none => rcases hc with hc | hc <;> rw [hc, hs] at h <;> nomatch h
  · intro hd
    cases hf : p.fragmentId with
    | some fid => rfl
    | none =>
      rw [hd, hf] at h
      nomatch h

end PacketCodec

/-- A compressed packet of the encrypted stream survives exactly when it can be encoded (the fields of its type are there, the key
fits, the compressed form is not empty), its ports can be read, and the byte with the compression ratio is not zero. -/
theorem compressed_survives_iff {zlib : Zlib} (hlossless : zlib.Lossless) (ctx : Context) {p : QPacket}
    (hrv : p.source.streamType = .RVSec) (hsyn : p.packetType ≠ .syn) (hu : p.useCompression = true) (hne : p.payload ≠ [])
    (hmax : p.payload.length ≤ maxDecompressedPacketBytes) (hlen : (zlib.compress p.payload).length + 1 ≤ 65535) :
    p.Survives zlib ctx ↔
      p.HasRequired ∧ KeyFits ctx ∧ p.source.ReadAs .RVSec ∧ (∃ t, p.destination.ReadAs t) ∧
        (zlib.compress p.payload).length ≠ 0 ∧
        (p.payload.length / (zlib.compress p.payload).length + 1) % 256 ≠ 0 := by
  have henc : p.Encrypted := ⟨hsyn, hrv⟩
  have hratio : (UInt8.ofNat (p.payload.length / (zlib.compress p.payload).length + 1) = 0) ↔
      (p.payload.length / (zlib.compress p.payload).length + 1) % 256 = 0 := by
    rw [← UInt8.toNat_inj, UInt8.toNat_ofNat']
    rfl
  have hpack := packPayload_compressed zlib hu hne
  have hdel : ∀ {wire : Bytes}, p.wire zlib ctx = .ok wire → p.Delimits wire [] := by
    intro wire hw
    unfold QPacket.Delimits
    split
    · obtain ⟨c, hc⟩ := exists_cipher (keyFits_of_wire henc hw)
      rw [wire_encrypted henc hc, hpack] at hw
      split at hw
      · nomatch hw
      · rw [← Except.ok.inj hw, length_apply, List.length_cons]
        exact hlen
    · rfl
  constructor
  · rintro ⟨data, q, n, hto, hfrom, hpay, hcomp⟩
    obtain ⟨unsummed, hdata, hto'⟩ := bind_eq_ok.mp hto
    obtain ⟨fields, wire, hf, hw⟩ := toDataBytes_ok hdata
    have hkey := keyFits_of_wire henc hw
    obtain ⟨c, hc⟩ := exists_cipher hkey
    have hreq := hasRequired_of_typeFields hf
    rw [toBytes_eq hf hw] at hto
    obtain ⟨⟨s, hs⟩, t, ht⟩ := readAs_of_fromBytes (Except.ok.inj hto ▸ hfrom)
    obtain ⟨data', hto', sum, hfrom'⟩ := fromBytes_onWire hreq hs ht hw (hdel hw)
    rw [toBytes_eq hf hw, hto] at hto'
    rw [← Except.ok.inj hto', hfrom] at hfrom'
    have hcs : s = .RVSec := by
      by_contra hcs
      rw [decodePayload_plain zlib ctx (fun hn => hcs hn.2)] at hfrom'
      rw [(Prod.mk.inj (Except.ok.inj hfrom')).1] at hcomp
      nomatch hcomp
    subst hcs
    rw [wire_encrypted henc hc, hpack] at hw
    split at hw
    · nomatch hw
    · rename_i hnonempty
      refine ⟨hreq, hkey, hs, ⟨t, ht⟩, hnonempty, fun hr => ?_⟩
      -- a zero ratio is read as no compression
      rw [← Except.ok.inj hw, decodePayload_encrypted zlib ⟨hsyn, rfl⟩ hc, hratio.mpr hr] at hfrom'
      rw [(Prod.mk.inj (Except.ok.inj hfrom')).1] at hcomp
      nomatch hcomp
  · rintro ⟨hreq, hkey, hs, ⟨t, ht⟩, hnonempty, hr⟩
    obtain ⟨c, hc⟩ := exists_cipher hkey
    rw [if_neg hnonempty] at hpack
    have hw : p.wire zlib ctx = .ok _ := (wire_encrypted henc hc).trans (congrArg (Except.map c.apply) hpack)
    obtain ⟨data, hto, sum, hfrom⟩ := fromBytes_onWire hreq hs ht hw (hdel hw)
    rw [decodePayload_encrypted zlib ⟨hsyn, rfl⟩ hc] at hfrom
    dsimp only at hfrom
    rw [if_pos (mt hratio.mp hr), decompressPayload, hlossless p.payload _ hmax] at hfrom
    exact ⟨data, _, _, hto, hfrom, rfl, rfl⟩

namespace PacketCodec

theorem marking_lossless : marking.Lossless := by
  intro data limit h
  by_cases hz : data = List.replicate 255 0
  · have hc : marking.compress data = [1] := if_pos hz
    rw [hz, List.length_replicate] at h
    have hd : marking.decompress [1] limit = if 255 ≤ limit then some (List.replicate 255 0) else none := rfl
    rw [hc, hd, if_pos h, hz]
  · have hc : marking.compress data = 0 :: data := if_neg hz
    have hne : (0 :: data : Bytes) ≠ [1] := by simp
    rw [hc]
    simp only [marking, if_neg hne, List.tail_cons]
    exact if_pos h

/-- A compressed data packet. -/
def compressedPacket : QPacket := { dataPacket with useCompression := true }

/-- A compressed data packet with 255 zeros, which are compressed to a byte. -/
def zerosPacket : QPacket := { compressedPacket with payload := List.replicate 255 0 }

end PacketCodec

/-- A compressed payload of three bytes survives. -/
theorem compressed_survives_iff_compressedPacket : compressedPacket.Survives marking (Context.splinterCellBlacklist []) :=
  (compressed_survives_iff marking_lossless (Context.splinterCellBlacklist []) rfl (by decide) rfl (by decide) (by decide)
    (by decide)).mpr
    ⟨⟨by decide, by decide⟩, by decide +kernel, rfl, ⟨.RVSec, rfl⟩, by decide, by decide⟩

/-- A payload that shrinks to its 255th part is taken for one that is not compressed. -/
theorem zerosPacket_lost :
    marking.Lossless ∧ zerosPacket.WellFormed ∧ zerosPacket.source.streamType = .RVSec ∧ zerosPacket.packetType ≠ .syn ∧
      zerosPacket.useCompression = true ∧ zerosPacket.payload ≠ [] ∧
      zerosPacket.payload.length ≤ maxDecompressedPacketBytes ∧ (marking.compress zerosPacket.payload).length + 1 ≤ 65535 ∧
      (∃ data q n, zerosPacket.toBytes marking (Context.splinterCellBlacklist []) = .ok data ∧
        QPacket.fromBytes marking (Context.splinterCellBlacklist []) data = .ok (q, n) ∧ q.payload = [1]) ∧
      ¬ zerosPacket.Survives marking (Context.splinterCellBlacklist []) := by
  have hkey : KeyFits (Context.splinterCellBlacklist []) := by decide +kernel
  obtain ⟨c, hc⟩ := exists_cipher hkey
  have henc : zerosPacket.Encrypted := by decide
  have hpack : zerosPacket.packPayload marking = .ok [0, 1] := by decide +kernel
  have hw : zerosPacket.wire marking (Context.splinterCellBlacklist []) = .ok (c.apply [0, 1]) :=
    (wire_encrypted henc hc).trans (congrArg (Except.map c.apply) hpack)
  have hdel : zerosPacket.Delimits (c.apply [0, 1]) [] := by
    unfold QPacket.Delimits
    rw [if_pos (by decide), length_apply]
    decide
  obtain ⟨data, hto, sum, hfrom⟩ :=
    fromBytes_onWire (p := zerosPacket) (s := .RVSec) (t := .RVSec) ⟨by decide, by decide⟩ rfl rfl hw hdel
  -- the ratio of 255 bytes to one, plus one, is zero in a byte
  rw [decodePayload_encrypted marking ⟨henc.1, rfl⟩ hc] at hfrom
  refine ⟨marking_lossless, ⟨⟨by decide, by decide⟩, by decide, by decide⟩, rfl, by decide, rfl, by decide,
    by decide +kernel, by decide +kernel, ⟨data, _, _, hto, hfrom, rfl⟩, ?_⟩
  rintro ⟨data', q, n, hto', hfrom', -, hcomp⟩
  rw [← Except.ok.inj (hto.symm.trans hto'), hfrom] at hfrom'
  rw [← (Prod.mk.inj (Except.ok.inj hfrom')).1] at hcomp
  nomatch hcomp

end Scbl.Prudp
