import Scbl.Lemmas.Header
import Scbl.Theorems.PacketCodec

/-!
# Decoding untrusted bytes

A datagram holds whatever its sender likes. Decoding it panics when a packet without a size field ends with its header, because the
payload size is the number of bytes left less one, and when the cipher has no use for the key of the context; and a packet with a
size field has a buffer of the size it announces made for it, however few bytes follow. Every other input is decoded or rejected
(`decodes_iff`). What is decoded is encoded to the very bytes it was decoded from (`reencode_exact`).
-/

namespace Scbl.Prudp

open Scbl.Lib Codec PacketCodec

/-- The size of the buffer the decoder makes for the payload, when it comes that far. -/
def QPacket.payloadRequest (data : Bytes) : Option Nat :=
  match QPacket.readHeader data with
  | .ok (p, rdr) => (payloadSize p.flags rdr).toOption.map Prod.fst
  | .error _ => none

/-- Some bytes are decoded or rejected: there is no panic, a packet takes some of the bytes and no more than there are, and no buffer
larger than the bytes is made for a payload. -/
structure Decodes (zlib : Zlib) (ctx : Context) (data : Bytes) : Prop where
  noPanic : NoPanic (QPacket.fromBytes zlib ctx data)
  consumed : ∀ p n, QPacket.fromBytes zlib ctx data = .ok (p, n) → 1 ≤ n ∧ n ≤ data.length
  buffer : ∀ size, QPacket.payloadRequest data = some size → size ≤ data.length

/-- What follows a header lets the payload be read, in a datagram of a length: a size that is announced is at most the length, there
is at least one byte where none is announced, and the cipher accepts the key if the payload is there and encrypted. -/
def QPacket.BodyFits (ctx : Context) (p : QPacket) (length : Nat) (rest : Bytes) : Prop :=
  if p.flags.contains .hasSize then
    ∀ (size : UInt16) (left : Bytes), rest = putU16 size ++ left →
      size.toNat ≤ length ∧ (p.Encrypted → size.toNat ≤ left.length → KeyFits ctx)
  else rest ≠ [] ∧ (p.Encrypted → KeyFits ctx)

namespace Decoding

/-- A payload is decoded without a panic when the cipher accepts the key or is not needed. -/
theorem noPanic_decodePayload (zlib : Zlib) {ctx : Context} {t : PacketType} {source : VPort}
    (hkey : t ≠ .syn ∧ source.streamType = .RVSec → KeyFits ctx) (wire : Bytes) :
    NoPanic (decodePayload zlib ctx t source wire) := by
  by_cases henc : t ≠ .syn ∧ source.streamType = .RVSec
  · obtain ⟨c, hc⟩ := exists_cipher (hkey henc)
    rw [← apply_apply c wire, decodePayload_encrypted zlib henc hc]
    split
    · exact noPanic_ok _
    · split
      · unfold decompressPayload
        split
        · exact noPanic_ok _
        · exact noPanic_fail _
      · exact noPanic_ok _
  · rw [decodePayload_plain zlib ctx henc]
    exact noPanic_ok _

/-- A key that does not fit panics when an encrypted payload is decoded. -/
theorem decodePayload_panics (zlib : Zlib) {ctx : Context} {t : PacketType} {source : VPort}
    (henc : t ≠ .syn ∧ source.streamType = .RVSec) (hkey : ¬ KeyFits ctx) (wire : Bytes) :
    decodePayload zlib ctx t source wire = .error (.panic .assertion) := by
  have hassert : assert (ctx.cryptoKey.length ≠ 0 ∧ ctx.cryptoKey.length ≤ 256) = .error .assertion :=
    if_neg (by rw [decide_eq_true_iff]; exact hkey)
  unfold decodePayload
  rw [if_pos henc, crypt, cryptKey, Rc4.new, hassert]
  rfl

/-- A key that does not fit panics when the payload of an encrypted packet is there. -/
theorem not_noPanic_readBody (zlib : Zlib) {ctx : Context} {p : QPacket} (henc : p.Encrypted) (hkey : ¬ KeyFits ctx)
    {rdr left : Bytes} {size : Nat} (hsize : payloadSize p.flags rdr = .ok (size, left)) (hle : size ≤ left.length) :
    ¬ NoPanic (p.readBody zlib ctx rdr) := by
  intro h
  refine h .assertion ?_
  have hread : readExact size left = some (left.take size, left.drop size) := if_pos hle
  rw [QPacket.readBody, hsize]
  simp only [bind, Except.bind, hread, need, decodePayload_panics zlib henc hkey]

/-- The size of the payload in a packet with a size field. -/
theorem payloadSize_field {flags : BitFlags} (h : flags.contains .hasSize = true) (size : UInt16) (left : Bytes) :
    payloadSize flags (putU16 size ++ left) = .ok (size.toNat, left) := by
  rw [payloadSize, if_pos h, readU16_putU16]
  rfl

/-- The size of the payload in a packet without a size field. -/
theorem payloadSize_implicit {flags : BitFlags} (h : ¬ flags.contains .hasSize = true) {rdr : Bytes} (hne : rdr ≠ []) :
    payloadSize flags rdr = .ok (rdr.length - 1, rdr) := by
  rw [payloadSize, if_neg h, if_neg (fun hl => hne (List.eq_nil_of_length_eq_zero hl))]
  rfl

/-- A body that fits is read without a panic. -/
theorem noPanic_readBody (zlib : Zlib) {ctx : Context} {p : QPacket} {length : Nat} {rdr : Bytes}
    (h : p.BodyFits ctx length rdr) : NoPanic (p.readBody zlib ctx rdr) := by
  unfold QPacket.BodyFits at h
  have hsize : NoPanic (payloadSize p.flags rdr) := by
    unfold payloadSize
    split
    · exact (noPanic_need _).bind fun _ _ => noPanic_ok _
    · rename_i hf
      rw [if_neg hf] at h
      rw [if_neg (fun hl => h.1 (List.eq_nil_of_length_eq_zero hl))]
      exact noPanic_ok _
  refine hsize.bind fun r hr => (noPanic_need _).bind fun r' hr' => NoPanic.bind ?_ fun _ _ => (noPanic_need _).bind fun _ _ => noPanic_ok _
  refine noPanic_decodePayload zlib (fun henc => ?_) _
  have hlen := readExact_length (need_eq_ok hr')
  rcases payloadSize_eq_ok hr with ⟨hf, x, hx, hsz⟩ | ⟨hf, -, -⟩
  · rw [if_pos hf] at h
    exact (h x r.2 hx).2 henc (by omega)
  · rw [if_neg (by rw [hf]; exact Bool.false_ne_true)] at h
    exact h.2 henc

/-- A body is read without a panic, and its buffer is no larger than the datagram, exactly when it fits. -/
theorem bodyFits_iff (zlib : Zlib) (ctx : Context) (p : QPacket) {length : Nat} {rdr : Bytes} (hlen : rdr.length ≤ length) :
    NoPanic (p.readBody zlib ctx rdr) ∧ (∀ size, (payloadSize p.flags rdr).toOption.map Prod.fst = some size → size ≤ length) ↔
      p.BodyFits ctx length rdr := by
  constructor
  · rintro ⟨hpanic, hbuffer⟩
    unfold QPacket.BodyFits
    split
    · rename_i hf
      rintro size left rfl
      have hsize := payloadSize_field hf size left
      refine ⟨hbuffer size.toNat (by rw [hsize]; rfl), fun henc hle => ?_⟩
      by_contra hkey
      exact not_noPanic_readBody zlib henc hkey hsize hle hpanic
    · rename_i hf
      have hne : rdr ≠ [] := by
        rintro rfl
        refine hpanic .overflow ?_
        rw [QPacket.readBody, payloadSize, if_neg hf]
        rfl
      refine ⟨hne, fun henc => ?_⟩
      by_contra hkey
      exact not_noPanic_readBody zlib henc hkey (payloadSize_implicit hf hne) (Nat.sub_le _ _) hpanic
  · intro h
    refine ⟨noPanic_readBody zlib h, fun size hsize => ?_⟩
    obtain ⟨⟨size', left⟩, hr, rfl⟩ := exists_ok_of_toOption hsize
    unfold QPacket.BodyFits at h
    rcases payloadSize_eq_ok hr with ⟨hf, x, hx, rfl⟩ | ⟨hf, -, hl⟩
    · rw [if_pos hf] at h
      exact (h x left hx).1
    · dsimp only
      omega

/-- The decoder panics exactly when the header can be read and the rest panics. -/
theorem noPanic_fromBytes {zlib : Zlib} {ctx : Context} {data : Bytes} :
    NoPanic (QPacket.fromBytes zlib ctx data) ↔
      ∀ p rest, QPacket.readHeader data = .ok (p, rest) → NoPanic (p.readBody zlib ctx rest) := by
  rw [QPacket.fromBytes, QPacket.fromReader_eq]
  constructor
  · intro h p rest hheader panic hpanic
    refine h panic ?_
    rw [hheader]
    simp only [bind, Except.bind, hpanic]
  · intro h
    exact ((noPanic_readHeader data).bind fun r hr => h r.1 r.2 hr).bind fun _ _ => noPanic_ok _

end Decoding

open Decoding

/-- Some bytes are decoded or rejected exactly when, if they begin with the header of a packet, what follows it fits. -/
theorem decodes_iff (zlib : Zlib) (ctx : Context) (data : Bytes) :
    Decodes zlib ctx data ↔
      ∀ (p : QPacket) (rest : Bytes), p.WellFormed → data = p.header ++ rest → p.BodyFits ctx data.length rest := by
  constructor
  · rintro h p rest hwell rfl
    have hheader := readHeader_header hwell rest
    have hlen : rest.length ≤ (p.header ++ rest).length := by rw [List.length_append]; omega
    refine (bodyFits_iff zlib ctx { p with payload := [], checksum := 0, useCompression := false } hlen).mp ⟨?_, fun size hsize => ?_⟩
    · exact noPanic_fromBytes.mp h.noPanic _ _ hheader
    · exact h.buffer size (by rw [QPacket.payloadRequest, hheader]; exact hsize)
  · intro h
    have hfits : ∀ p rest, QPacket.readHeader data = .ok (p, rest) →
        NoPanic (p.readBody zlib ctx rest) ∧
          ∀ size, (payloadSize p.flags rest).toOption.map Prod.fst = some size → size ≤ data.length := by
      intro p rest hheader
      obtain ⟨hdata, hwell⟩ := readHeader_eq_ok hheader
      have hlen : rest.length ≤ data.length := by rw [hdata, List.length_append]; omega
      exact (bodyFits_iff zlib ctx p hlen).mpr (h p rest hwell hdata)
    refine ⟨noPanic_fromBytes.mpr fun p rest hheader => (hfits p rest hheader).1, fun p n hok => ?_, fun size hsize => ?_⟩
    · obtain ⟨⟨q, rest⟩, hr, hn⟩ := bind_eq_ok.mp hok
      obtain ⟨-, rfl⟩ := Prod.mk.inj (Except.ok.inj hn)
      have hlt := (QPacket.fromReader_ok hr).2.2
      omega
    · unfold QPacket.payloadRequest at hsize
      split at hsize
      · rename_i p rest hheader
        exact (hfits p rest hheader).2 size hsize
      · cases hsize

/-- A PING without a size field that ends with its header panics. -/
theorem decodes_false : ¬ Decodes marking (Context.splinterCellBlacklist []) [0x3F, 0x31, 0x04, 0, 0, 0, 0, 0, 0, 0] := by
  have hpanic : QPacket.fromBytes marking (Context.splinterCellBlacklist []) [0x3F, 0x31, 0x04, 0, 0, 0, 0, 0, 0, 0] =
      .error (.panic .overflow) := by rfl
  exact fun h => h.noPanic .overflow hpanic

/-! ## Encoding what was decoded -/

namespace Decoding

/-- An encrypted payload that was not compressed goes on the wire as it came, unless it was a lone byte. -/
theorem wire_of_decodePayload {zlib : Zlib} {ctx : Context} {p : QPacket} (henc : p.Encrypted) {wire : Bytes}
    (h : decodePayload zlib ctx p.packetType p.source wire = .ok (p.payload, p.useCompression)) (hu : p.useCompression = false)
    (hpayload : wire = [] ∨ p.payload ≠ []) : p.wire zlib ctx = .ok wire := by
  have hkey : KeyFits ctx := by
    by_contra hkey
    rw [decodePayload_panics zlib henc hkey] at h
    nomatch h
  obtain ⟨c, hc⟩ := exists_cipher hkey
  rw [wire_encrypted henc hc, packPayload_plain zlib hu]
  rw [← apply_apply c wire, decodePayload_encrypted zlib henc hc] at h
  cases hpacked : c.apply wire with
  | nil =>
    rw [hpacked] at h
    have hnil : p.payload = [] := ((Prod.mk.inj (Except.ok.inj h)).1).symm
    rw [if_pos hnil, ← apply_apply c wire, hpacked]
    rfl
  | cons b packed =>
    rw [hpacked] at h
    dsimp only at h
    split at h
    · cases hout : decompressPayload zlib packed with
      | error e =>
        rw [hout] at h
        nomatch h
      | ok out =>
        rw [hout, hu] at h
        nomatch (Prod.mk.inj (Except.ok.inj h)).2
    · rename_i hb
      obtain ⟨hp, -⟩ := Prod.mk.inj (Except.ok.inj h)
      have hne : p.payload ≠ [] := by
        refine hpayload.resolve_left fun hw => ?_
        rw [hw] at hpacked
        nomatch hpacked
      rw [if_neg hne, ← hp, ← not_not.mp hb, ← hpacked]
      exact congrArg Except.ok (apply_apply c wire)

/-- The checksum of a packet that passes its check is the sum of the bytes before it. -/
theorem checksum_of_validate {ctx : Context} {p : QPacket} {fields wire : Bytes} {sum : UInt8}
    (h : p.validate ctx (p.frame fields wire ++ [sum]) = .ok ()) : p.checksum = frameSum ctx p fields wire := by
  unfold QPacket.validate at h
  rw [List.dropLast_concat] at h
  split at h
  · nomatch h
  · rename_i heq
    exact not_not.mp heq

end Decoding

/-- A packet that is not compressed and has a size field, from the encrypted stream and not a SYN, is encoded to the bytes it was
decoded from, when they pass its check and its payload is empty on the wire or not empty in the clear. -/
theorem reencode_exact {zlib : Zlib} {ctx : Context} {data : Bytes} {p : QPacket} {n : Nat}
    (h : QPacket.fromBytes zlib ctx data = .ok (p, n)) (huncompressed : p.useCompression = false)
    (hsize : p.flags.contains .hasSize = true) (hsource : p.source.streamType = .RVSec) (htype : p.packetType ≠ .syn)
    (hpayload : QPacket.wirePayload data = some [] ∨ p.payload ≠ []) (hvalid : p.validate ctx (data.take n) = .ok ()) :
    p.toBytes zlib ctx = .ok (data.take n) := by
  obtain ⟨⟨q, rest⟩, hr, hn⟩ := bind_eq_ok.mp h
  obtain ⟨rfl, rfl⟩ := Prod.mk.inj (Except.ok.inj hn)
  obtain ⟨hwell, wire, hwire, hdel, hdata, hdecode⟩ := fromReader_eq_ok hr
  have hslice : data.take (data.length - rest.length) = q.frame q.optionalBytes wire ++ [q.checksum] := by
    rw [hdata, ← List.singleton_append, ← List.append_assoc, List.length_append, Nat.add_sub_cancel, List.take_left]
  have hempty : wire = [] ∨ q.payload ≠ [] := hpayload.imp_left fun he => Option.some.inj (hwire.symm.trans he)
  rw [hslice] at hvalid ⊢
  rw [toBytes_eq (typeFields_eq hwell.toHasFields) (wire_of_decodePayload ⟨htype, hsource⟩ hdecode huncompressed hempty),
    checksum_of_validate hvalid]

namespace Decoding

/-- A PING of the encrypted stream on the wire, and the first byte of another packet. -/
def pingFrame : Bytes := [0x3F, 0x31, 0x44, 0, 0, 0, 0, 0, 0, 0, 0, 0, 0x64, 0x3F]

/-- What is decoded of it. -/
def pingPacket : QPacket := { dataPacket with packetType := .ping, fragmentId := none, payload := [], checksum := 0x64 }

end Decoding

/-- A decoded PING is encoded to the 13 bytes it was decoded from. -/
theorem reencode_exact_pingFrame :
    QPacket.fromBytes marking (Context.splinterCellBlacklist []) pingFrame = .ok (pingPacket, 13) ∧
      pingPacket.toBytes marking (Context.splinterCellBlacklist []) = .ok (pingFrame.take 13) := by
  have hdecode : QPacket.fromBytes marking (Context.splinterCellBlacklist []) pingFrame = .ok (pingPacket, 13) := by
    decide +kernel
  exact ⟨hdecode, reencode_exact hdecode rfl (by decide) rfl (by decide) (Or.inl (by decide +kernel)) (by decide +kernel)⟩

end Scbl.Prudp
