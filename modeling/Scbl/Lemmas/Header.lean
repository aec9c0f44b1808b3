import Scbl.Lemmas.Codec

/-!
# What a decoded packet was read from

The decoder neither loses anything of its input nor reads two inputs as one: a header that is read is the header of a well-formed
packet, byte for byte (`readHeader_eq_ok`), and a packet that is decoded was framed as the encoder frames it (`fromReader_eq_ok`).
-/

namespace Scbl.Prudp

open Scbl.Lib

namespace Codec

/-- The byte a type and flags were read from is the byte they are written in. -/
theorem type_byte_of_read {b : UInt8} {t : PacketType} (h : PacketType.tryFrom (b &&& 0x7) = some t) :
    t.toU8 ||| ((b >>> 3) <<< 3) = b :=
  forall_lt_of_fin @UInt8.ofNat_toNat
    (fun x => PacketType.tryFrom (x &&& (0x7 : UInt8)) = some t → t.toU8 ||| ((x >>> 3) <<< 3) = x) 256
    (by cases t <;> decide +kernel) b.toNat_lt h

/-- A virtual port that is read was written there. -/
theorem fromReader_port_eq_ok {rdr rest : Bytes} {v : VPort} (h : VPort.fromReader rdr = .ok (v, rest)) :
    rdr = v.toBytes ++ rest ∧ v.port < 16 := by
  refine ⟨?_, (VPort.fromReader_ok h).1⟩
  obtain ⟨⟨val, r⟩, hr, h⟩ := bind_eq_ok.mp h
  have hrdr := readU8_eq_some (need_eq_ok hr)
  dsimp only at h
  split at h
  · nomatch h
  · rename_i s hs
    obtain ⟨rfl, rfl⟩ := Prod.mk.inj (Except.ok.inj h)
    rw [hrdr, VPort.toBytes, port_byte_of_read hs]
    rfl

/-- Flags that are read are the bits they were read from. -/
theorem fromBits_eq_ok {b : UInt8} {fs : BitFlags} (h : BitFlags.fromBits b = .ok fs) : fs.bits = b := by
  unfold BitFlags.fromBits at h
  split at h
  · rw [← Except.ok.inj h]
  · nomatch h

/-- An optional field that is read was written there. -/
theorem readOptional_eq_ok {α : Type} {c : Prop} [Decidable c] {read : Bytes → Option (α × Bytes)} {put : α → Bytes}
    (hput : ∀ {rdr a rest}, read rdr = some (a, rest) → rdr = put a ++ rest) {rdr : Bytes} {β : Type}
    {k : Option α × Bytes → Except (Fault Error) β} {b : β}
    (h : (if c then do let x ← (fun r => (some r.1, r.2)) <$> need (read rdr); k x
      else do let x ← pure (none, rdr); k x) = .ok b) :
    ∃ field rest, rdr = (field.map put).getD [] ++ rest ∧ (field.isSome ↔ c) ∧ k (field, rest) = .ok b := by
  split at h
  · rename_i hc
    obtain ⟨⟨field, rest⟩, hr, hk⟩ := bind_eq_ok.mp h
    cases hx : read rdr with
    | none =>
      rw [hx] at hr
      nomatch hr
    | some r =>
      rw [hx] at hr
      obtain ⟨rfl, rfl⟩ := Prod.mk.inj (Except.ok.inj hr)
      exact ⟨some r.1, r.2, hput hx, iff_of_true rfl hc, hk⟩
  · rename_i hc
    exact ⟨none, rdr, rfl, iff_of_false Bool.false_ne_true hc, h⟩

/-- A header that is read is the header of a well-formed packet. -/
theorem readHeader_eq_ok {rdr rest : Bytes} {p : QPacket} (h : QPacket.readHeader rdr = .ok (p, rest)) :
    rdr = p.header ++ rest ∧ p.WellFormed := by
  obtain ⟨⟨source, r1⟩, h1, h⟩ := bind_eq_ok.mp h
  obtain ⟨⟨destination, r2⟩, h2, h⟩ := bind_eq_ok.mp h
  obtain ⟨⟨typeFlag, r3⟩, h3, h⟩ := bind_eq_ok.mp h
  dsimp only at h
  split at h
  · rename_i packetType ht
    split at h
    · rename_i flags hf
      obtain ⟨_, heq, h⟩ := bind_eq_ok.mp h
      obtain rfl := Except.ok.inj heq
      obtain ⟨_, heq, h⟩ := bind_eq_ok.mp h
      obtain rfl := Except.ok.inj heq
      obtain ⟨⟨sessionId, r4⟩, h4, h⟩ := bind_eq_ok.mp h
      obtain ⟨⟨signature, r5⟩, h5, h⟩ := bind_eq_ok.mp h
      obtain ⟨⟨sequence, r6⟩, h6, h⟩ := bind_eq_ok.mp h
      obtain ⟨conn, r7, h7, hconn, h⟩ := readOptional_eq_ok readU32_eq_some h
      have hcell : ∀ {rdr rest : Bytes} {b : UInt8}, readU8 rdr = some (b, rest) → rdr = (fun b => [b]) b ++ rest := readU8_eq_some
      obtain ⟨frag, r8, h8, hfrag, h⟩ := readOptional_eq_ok (fun {_ _ _} hread => hcell hread) h
      obtain ⟨hp, rfl⟩ := Prod.mk.inj (Except.ok.inj h)
      obtain ⟨e1, hs⟩ := fromReader_port_eq_ok h1
      obtain ⟨e2, hd⟩ := fromReader_port_eq_ok h2
      have e3 := readU8_eq_some (need_eq_ok h3)
      have e4 := readU8_eq_some (need_eq_ok h4)
      have e5 := readU32_eq_some (need_eq_ok h5)
      have e6 := readU16_eq_some (need_eq_ok h6)
      have hbyte : packetType.toU8 ||| (flags.bits <<< 3) = typeFlag := by rw [fromBits_eq_ok hf, type_byte_of_read ht]
      rw [← hp]
      refine ⟨?_, ⟨hconn, hfrag⟩, hs, hd⟩
      dsimp only at e1 e2 e3 e4 e5 e6 h7 h8
      simp only [QPacket.header, QPacket.optionalBytes, hbyte, e1, e2, e3, e4, e5, e6, h7, h8, List.append_assoc, List.cons_append,
        List.nil_append]
    · cases h
  · cases h

/-- A read that must succeed fails without a panic. -/
theorem noPanic_need {α : Type} (x : Option α) : NoPanic (need x) := by
  cases x with
  | none => exact noPanic_fail _
  | some a => exact noPanic_ok a

theorem noPanic_port (rdr : Bytes) : NoPanic (VPort.fromReader rdr) := by
  refine (noPanic_need _).bind fun r _ => ?_
  dsimp only
  split
  · exact noPanic_fail _
  · exact noPanic_ok _

/-- An optional field is read without a panic. -/
theorem noPanic_optional {α β : Type} {c : Prop} [Decidable c] {read : Bytes → Option (α × Bytes)} {rdr : Bytes}
    {k : Option α × Bytes → Except (Fault Error) β} (hk : ∀ r, NoPanic (k r)) :
    NoPanic (if c then do let x ← (fun r => (some r.1, r.2)) <$> need (read rdr); k x
      else do let x ← pure (none, rdr); k x) := by
  split
  · have hmap : NoPanic ((fun r : α × Bytes => (some r.1, r.2)) <$> need (read rdr)) := by
      cases read rdr with
      | none => exact noPanic_fail _
      | some r => exact noPanic_ok _
    exact hmap.bind fun r _ => hk r
  · exact hk _

/-- A header is read without a panic. -/
theorem noPanic_readHeader (rdr : Bytes) : NoPanic (QPacket.readHeader rdr) := by
  unfold QPacket.readHeader
  refine (noPanic_port _).bind fun _ _ => (noPanic_port _).bind fun _ _ => (noPanic_need _).bind fun typeFlag _ => ?_
  dsimp only
  cases PacketType.tryFrom (typeFlag.1 &&& 0x7) with
  | none => exact noPanic_fail _
  | some packetType =>
    refine (noPanic_ok packetType).bind fun packetType _ => ?_
    cases BitFlags.fromBits (typeFlag.1 >>> 3) with
    | error bits => exact noPanic_fail _
    | ok flags =>
      refine (noPanic_ok flags).bind fun flags _ => (noPanic_need _).bind fun _ _ => (noPanic_need _).bind fun _ _ =>
        (noPanic_need _).bind fun _ _ => ?_
      exact noPanic_optional fun r => noPanic_optional fun r' => noPanic_ok _

/-- The size of the payload and what is left after it is known. -/
theorem payloadSize_eq_ok {flags : BitFlags} {rdr rest : Bytes} {size : Nat} (h : payloadSize flags rdr = .ok (size, rest)) :
    (flags.contains .hasSize = true ∧ ∃ x : UInt16, rdr = putU16 x ++ rest ∧ size = x.toNat) ∨
      (flags.contains .hasSize = false ∧ rdr = rest ∧ rdr.length = size + 1) := by
  unfold payloadSize at h
  split at h
  · rename_i hsize
    obtain ⟨⟨x, r⟩, hx, h⟩ := bind_eq_ok.mp h
    obtain ⟨rfl, rfl⟩ := Prod.mk.inj (Except.ok.inj h)
    exact Or.inl ⟨hsize, x, readU16_eq_some (need_eq_ok hx), rfl⟩
  · rename_i hsize
    split at h
    · nomatch h
    · rename_i hne
      obtain ⟨rfl, rfl⟩ := Prod.mk.inj (Except.ok.inj h)
      exact Or.inr ⟨Bool.not_eq_true _ ▸ hsize, rfl, by omega⟩

end Codec

/-- The bytes on the wire that the decoder takes for the payload. -/
def QPacket.wirePayload (data : Bytes) : Option Bytes :=
  match QPacket.readHeader data with
  | .ok (p, rdr) =>
    match payloadSize p.flags rdr with
    | .ok (size, rdr) => (readExact size rdr).map Prod.fst
    | .error _ => none
  | .error _ => none

namespace Codec

/-- A packet that is decoded was framed as the encoder frames it, around the bytes its payload was decoded from. -/
theorem fromReader_eq_ok {zlib : Zlib} {ctx : Context} {data rest : Bytes} {p : QPacket}
    (h : QPacket.fromReader zlib ctx data = .ok (p, rest)) :
    p.WellFormed ∧ ∃ wire, QPacket.wirePayload data = some wire ∧ p.Delimits wire rest ∧
      data = p.frame p.optionalBytes wire ++ p.checksum :: rest ∧
      decodePayload zlib ctx p.packetType p.source wire = .ok (p.payload, p.useCompression) := by
  rw [QPacket.fromReader_eq] at h
  obtain ⟨⟨q, r1⟩, hheader, h⟩ := bind_eq_ok.mp h
  obtain ⟨⟨size, r2⟩, hsize, h⟩ := bind_eq_ok.mp h
  obtain ⟨⟨wire, r3⟩, hwire, h⟩ := bind_eq_ok.mp h
  obtain ⟨⟨payload, useCompression⟩, hdecode, h⟩ := bind_eq_ok.mp h
  obtain ⟨⟨checksum, r4⟩, hsum, h⟩ := bind_eq_ok.mp h
  obtain ⟨rfl, rfl⟩ := Prod.mk.inj (Except.ok.inj h)
  obtain ⟨hdata, hwell⟩ := readHeader_eq_ok hheader
  obtain ⟨hr2, hlen⟩ := readExact_eq_some (need_eq_ok hwire)
  have hr3 := readU8_eq_some (need_eq_ok hsum)
  dsimp only at *
  refine ⟨⟨⟨hwell.connSignature, hwell.fragmentId⟩, hwell.sourcePort, hwell.destinationPort⟩, wire, ?_, ?_, ?_, hdecode⟩
  · rw [QPacket.wirePayload, hheader]
    dsimp only
    rw [hsize]
    exact congrArg (Option.map Prod.fst) (need_eq_ok hwire)
  · unfold QPacket.Delimits
    rcases payloadSize_eq_ok hsize with ⟨hs, x, -, rfl⟩ | ⟨hs, hr, hl⟩
    · rw [if_pos hs, hlen]
      exact Nat.le_of_lt_succ x.toNat_lt
    · have hrest : r4.length = 0 := by
        rw [hr, hr2, hr3, List.length_append, List.length_cons, hlen] at hl
        omega
      rw [if_neg (by rw [hs]; exact Bool.false_ne_true), List.eq_nil_of_length_eq_zero hrest]
  · have hsizeBytes : r1 = q.sizeBytes wire.length ++ r2 := by
      unfold QPacket.sizeBytes
      rcases payloadSize_eq_ok hsize with ⟨hs, x, hx, rfl⟩ | ⟨hs, hr, -⟩
      · rw [if_pos hs, hlen, UInt16.ofNat_toNat, hx]
      · rw [if_neg (by rw [hs]; exact Bool.false_ne_true), hr, List.nil_append]
    rw [hdata, hsizeBytes, hr2, hr3]
    show q.header ++ (q.sizeBytes wire.length ++ (wire ++ checksum :: r4)) = q.frame q.optionalBytes wire ++ checksum :: r4
    simp only [QPacket.frame, QPacket.header, List.append_assoc]

end Codec

end Scbl.Prudp
