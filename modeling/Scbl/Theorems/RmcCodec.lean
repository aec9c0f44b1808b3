import Scbl.Rmc.Packet
import Scbl.Lib.Panic
import Mathlib.Tactic.IntervalCases

/-!
# The codecs of the RMC layer

The request encoder writes a protocol id below `0xff` as one byte with the request marker `0x80`; the decoder clears the marker and
reads the byte `0xff` as the escape to two more bytes. The two agree on the ids that leave the marker bit free and do not
encode to the escape, that is below `0x7f` (the bound the response encoder uses), and on the ids from `0xff` on. The response codec
has no marker in the first byte and escapes from `0x7f` on, so every response is read back.
-/

namespace Scbl.Rmc

open Scbl.Lib

namespace RequestCodec

set_option maxRecDepth 4096 in
/-- The first byte of an encoded request carries the request marker. -/
theorem head_marked (x : UInt16) : ∃ b tail, Request.protocolBytes x = b :: tail ∧ b &&& 0x80 ≠ 0 := by
  unfold Request.protocolBytes
  split
  · rename_i h
    refine ⟨_, [], rfl, ?_⟩
    exact forall_lt_of_fin @UInt16.ofNat_toNat (fun x => (x.toUInt8 ||| 0x80) &&& 0x80 ≠ 0) 255 (by decide)
      (UInt16.lt_iff_toNat_lt.mp h)
  · exact ⟨0xff, _, rfl, by decide⟩

/-- An encoded request is told apart from a response and decoded as a request. -/
theorem fromBytes_toBytes (r : Request) :
    Packet.fromBytes r.toBytes = .request <$> Request.fromBytes r.toBytes := by
  obtain ⟨b, tail, hb, hm⟩ := head_marked r.protocolId
  have hh : r.toBytes[4]? = some b := by
    rw [Request.toBytes, getElem?_four_body, Request.body, hb]
    rfl
  simp only [Packet.fromBytes, hh, if_neg hm]

/-- Below `0x7f` the marked byte is not the escape, and clearing the marker gives the id back. -/
theorem small_id {x : UInt16} (h : x < 0x7f) :
    x.toUInt8 ||| 0x80 ≠ 0xff ∧ ((x.toUInt8 ||| 0x80) &&& ~~~0x80).toUInt16 = x :=
  forall_lt_of_fin @UInt16.ofNat_toNat (fun x => x.toUInt8 ||| 0x80 ≠ 0xff ∧ ((x.toUInt8 ||| 0x80) &&& ~~~0x80).toUInt16 = x) 127
    (by decide) (UInt16.lt_iff_toNat_lt.mp h)

set_option maxRecDepth 4096 in
/-- From `0x7f` to `0xfe` the marked byte is the escape or loses bit 7 of the id. -/
theorem lost_id {x : UInt16} (h : x < 0xff) (h' : ¬ x < 0x7f) :
    x.toUInt8 ||| 0x80 = 0xff ∨ (x.toUInt8 ||| 0x80 ≠ 0xff ∧ ((x.toUInt8 ||| 0x80) &&& ~~~0x80).toUInt16 ≠ x) :=
  forall_lt_of_fin @UInt16.ofNat_toNat (fun x => ¬ x < 0x7f → x.toUInt8 ||| 0x80 = 0xff ∨
    (x.toUInt8 ||| 0x80 ≠ 0xff ∧ ((x.toUInt8 ||| 0x80) &&& ~~~0x80).toUInt16 ≠ x)) 255 (by decide)
    (UInt16.lt_iff_toNat_lt.mp h) h'

/-- The fields after the protocol id are read back as they were written. -/
theorem read_fields (c m : UInt32) (p : Bytes) (id : UInt16) :
    (do
      let (callId, rdr) ← need (readU32 (putU32 c ++ putU32 m ++ p))
      let (methodId, rdr) ← need (readU32 rdr)
      return ({ protocolId := id, callId, methodId, parameters := rdr } : Request)) =
    .ok { protocolId := id, callId := c, methodId := m, parameters := p } := by
  rw [List.append_assoc, readU32_putU32]
  simp only [need_some, bind, Except.bind, readU32_putU32, pure, Except.pure]

/-- When the escape is read where the encoder wrote no two-byte id, the decoder takes them from the call id, and what it
returns, if anything, has two bytes of parameters less than was sent. -/
theorem escape_shortens {rest : Bytes} {q : Request}
    (h : (do
      let (protocolId, rdr) ← need (readU16 rest)
      let (callId, rdr) ← need (readU32 rdr)
      let (methodId, rdr) ← need (readU32 rdr)
      return ({ protocolId, callId, methodId, parameters := rdr } : Request)) = .ok q) :
    rest.length = q.parameters.length + 10 := by
  cases h1 : readU16 rest with
  | none => simp [h1, bind, Except.bind] at h
  | some a =>
    obtain ⟨id, rdr⟩ := a
    cases h2 : readU32 rdr with
    | none => simp [h1, h2, bind, Except.bind] at h
    | some b =>
      obtain ⟨c, rdr2⟩ := b
      cases h3 : readU32 rdr2 with
      | none => simp [h1, h2, h3, bind, Except.bind] at h
      | some d =>
        obtain ⟨m, rdr3⟩ := d
        simp only [h1, h2, h3, need_some, bind, Except.bind, pure, Except.pure, Except.ok.injEq] at h
        have e1 := readU16_length h1
        have e2 := readU32_length h2
        have e3 := readU32_length h3
        rw [← h]
        simp only
        omega

/-- Below `0x7f` a request is read back. -/
theorem decode_small {r : Request} (hlen : r.body.length < 2 ^ 32) (h : r.protocolId < 0x7f) :
    Request.fromBytes r.toBytes = .ok r := by
  obtain ⟨hne, hid⟩ := small_id h
  have hlt : r.protocolId < 0xff := UInt16.lt_trans h (by decide)
  have hf := read_fields r.callId r.methodId r.parameters r.protocolId
  rw [Request.toBytes, Request.fromBytes_body hlen, Request.body, Request.protocolBytes, if_pos hlt]
  simp only [List.cons_append, List.nil_append, readU8_cons, need_some, bind, Except.bind, if_neg hne, hid, pure,
    Except.pure] at hf ⊢
  exact hf

/-- From `0xff` on a request is read back through the escape. -/
theorem decode_large {r : Request} (hlen : r.body.length < 2 ^ 32) (h : ¬ r.protocolId < 0xff) :
    Request.fromBytes r.toBytes = .ok r := by
  have hf := read_fields r.callId r.methodId r.parameters r.protocolId
  rw [Request.toBytes, Request.fromBytes_body hlen, Request.body, Request.protocolBytes, if_neg h]
  simp only [List.cons_append, List.append_assoc, readU8_cons, need_some, bind, Except.bind, if_true,
    readU16_putU16] at hf ⊢
  exact hf

/-- From `0x7f` to `0xfe` a request is not read back: the escape takes two bytes of the call id for the protocol id, any
other id comes back without its bit 7. -/
theorem decode_lost {r : Request} (hlen : r.body.length < 2 ^ 32) (h : r.protocolId < 0xff) (h' : ¬ r.protocolId < 0x7f) :
    Request.fromBytes r.toBytes ≠ .ok r := by
  intro he
  rw [Request.toBytes, Request.fromBytes_body hlen, Request.body, Request.protocolBytes, if_pos h] at he
  simp only [List.cons_append, List.nil_append, readU8_cons, need_some] at he
  rcases lost_id h h' with hesc | ⟨hne, hid⟩
  · have hs : (putU32 r.callId ++ putU32 r.methodId ++ r.parameters).length = r.parameters.length + 10 := by
      refine @escape_shortens _ r ?_
      simpa only [hesc, if_true, bind, Except.bind] using he
    simp only [List.length_append, length_putU32] at hs
    omega
  · have hf := read_fields r.callId r.methodId r.parameters ((r.protocolId.toUInt8 ||| 0x80) &&& ~~~0x80).toUInt16
    simp only [bind, Except.bind, if_neg hne, pure, Except.pure] at he hf
    rw [hf] at he
    exact hid (congrArg Request.protocolId (Except.ok.inj he))

/-- Wrapping both sides as a request changes nothing. -/
theorem map_request_eq_iff (x : Except Error Request) (r : Request) :
    (Packet.request <$> x = .ok (.request r)) ↔ x = .ok r := by
  cases x with
  | error e => exact ⟨fun h => (nomatch h), fun h => (nomatch h)⟩
  | ok q => simp [Functor.map, Except.map]

end RequestCodec

open RequestCodec

/-- A request survives encoding and decoding exactly when its protocol id is below `0x7f` or at least `0xff`. -/
theorem request_codec_iff (r : Request) (hlen : r.body.length < 2 ^ 32) :
    Packet.fromBytes r.toBytes = .ok (.request r) ↔ r.protocolId < 0x7f ∨ 0xff ≤ r.protocolId := by
  rw [fromBytes_toBytes, map_request_eq_iff]
  constructor
  · intro he
    by_contra hn
    rw [not_or, UInt16.not_le] at hn
    exact decode_lost hlen hn.2 hn.1 he
  · rintro (h | h)
    · exact decode_small hlen h
    · exact decode_large hlen (UInt16.not_lt.mpr h)

/-- A request to protocol 100 with parameters is read back. -/
theorem request_codec_hundred :
    (⟨100, 1, 2, [3, 4]⟩ : Request).body.length < 2 ^ 32 ∧
      Packet.fromBytes (⟨100, 1, 2, [3, 4]⟩ : Request).toBytes = .ok (.request ⟨100, 1, 2, [3, 4]⟩) :=
  ⟨by decide, (request_codec_iff ⟨100, 1, 2, [3, 4]⟩ (by decide)).mpr (by decide)⟩

/-- A request to protocol `0x81` is read back as one to protocol 1. -/
theorem request_codec_false :
    Packet.fromBytes (⟨0x81, 1, 2, []⟩ : Request).toBytes = .ok (.request ⟨1, 1, 2, []⟩) ∧
      Packet.fromBytes (⟨0x81, 1, 2, []⟩ : Request).toBytes ≠ .ok (.request ⟨0x81, 1, 2, []⟩) := by
  decide

/-! ## Requests cut short or padded -/

/-- The number of bytes of a request's body before its parameters: the protocol id, with or without the escape, and two numbers. -/
def fieldsLength (body : Bytes) : Nat := if body.head? = some 0xff then 11 else 9

/-- Some bytes that are not the whole of a request are rejected: they are decoded only when the declared size is the number of bytes
after it, an error comes back when fewer are there, and an encoding that was cut or padded gives no request with fewer parameters. -/
structure RejectsTruncated (data : Bytes) : Prop where
  size : ∀ q, Request.fromBytes data = .ok q → ∃ (size : UInt32) (body : Bytes), data = putU32 size ++ body ∧ size.toNat = body.length
  missing : ∀ (size : UInt32) (body : Bytes), data = putU32 size ++ body → body.length < size.toNat →
    ∃ e, Request.fromBytes data = .error e
  altered : ∀ r : Request, r.body.length < 2 ^ 32 →
    (∃ k < r.toBytes.length, data = r.toBytes.take k) ∨ (∃ extra, extra ≠ [] ∧ data = r.toBytes ++ extra) →
    ∀ q, Request.fromBytes data = .ok q → r.parameters.length ≤ q.parameters.length

namespace RequestCodec

/-- A read that succeeded found its value. -/
theorem need_eq_ok {α : Type} {x : Option α} {a : α} (h : need x = .ok a) : x = some a := by
  cases x with
  | none => nomatch h
  | some b => exact congrArg some (Except.ok.inj h)

/-- What is decoded declares at least the bytes that are there, and has all its fields. -/
theorem fromBytes_eq_ok {data : Bytes} {q : Request} (h : Request.fromBytes data = .ok q) :
    ∃ (size : UInt32) (body : Bytes), data = putU32 size ++ body ∧ body.length ≤ size.toNat ∧ fieldsLength body ≤ body.length := by
  obtain ⟨⟨size, body⟩, hsize, h⟩ := bind_eq_ok.mp h
  have hlen := readU32_length (need_eq_ok hsize)
  refine ⟨size, body, readU32_eq_some (need_eq_ok hsize), ?_⟩
  dsimp only at h
  split at h
  · nomatch h
  · rename_i hge
    obtain ⟨⟨b, r1⟩, hb, h⟩ := bind_eq_ok.mp h
    have h1 := readU8_eq_some (need_eq_ok hb)
    refine ⟨by omega, ?_⟩
    rw [h1, fieldsLength, List.head?_cons]
    dsimp only at h
    split at h
    · rename_i hesc
      obtain ⟨⟨id, r2⟩, hid, h⟩ := bind_eq_ok.mp h
      obtain ⟨⟨callId, r3⟩, hcall, h⟩ := bind_eq_ok.mp h
      obtain ⟨⟨methodId, r4⟩, hmethod, -⟩ := bind_eq_ok.mp h
      have l2 := readU16_length (need_eq_ok hid)
      have l3 := readU32_length (need_eq_ok hcall)
      have l4 := readU32_length (need_eq_ok hmethod)
      rw [if_pos (congrArg some hesc), List.length_cons]
      dsimp only at l3 l4
      omega
    · rename_i hesc
      obtain ⟨⟨id, r2⟩, hid, h⟩ := bind_eq_ok.mp h
      obtain ⟨-, rfl⟩ := Prod.mk.inj (Except.ok.inj hid)
      obtain ⟨⟨callId, r3⟩, hcall, h⟩ := bind_eq_ok.mp h
      obtain ⟨⟨methodId, r4⟩, hmethod, -⟩ := bind_eq_ok.mp h
      have l3 := readU32_length (need_eq_ok hcall)
      have l4 := readU32_length (need_eq_ok hmethod)
      rw [if_neg (fun he => hesc (Option.some.inj he)), List.length_cons]
      dsimp only at l3 l4
      omega

/-- A body with all its fields is decoded when it is no longer than declared. -/
theorem exists_fromBytes {size : UInt32} {body : Bytes} (hle : body.length ≤ size.toNat) (hfields : fieldsLength body ≤ body.length) :
    ∃ q, Request.fromBytes (putU32 size ++ body) = .ok q := by
  have hsize : ¬ size.toNat < (putU32 size ++ body).length - 4 := by
    rw [List.length_append, length_putU32]
    omega
  unfold Request.fromBytes
  rw [readU32_putU32]
  simp only [need_some, bind, Except.bind, if_neg hsize, pure, Except.pure]
  cases body with
  | nil => exact absurd hfields (by decide)
  | cons b rest =>
    rw [fieldsLength, List.head?_cons, List.length_cons] at hfields
    simp only [readU8_cons, need_some]
    by_cases hesc : b = 0xff
    · rw [if_pos (congrArg some hesc)] at hfields
      obtain ⟨id, r2, h2⟩ := exists_readU16 (show 2 ≤ rest.length by omega)
      have hlen2 := readU16_length h2
      obtain ⟨callId, r3, h3⟩ := exists_readU32 (show 4 ≤ r2.length by omega)
      have hlen3 := readU32_length h3
      obtain ⟨methodId, r4, h4⟩ := exists_readU32 (show 4 ≤ r3.length by omega)
      simp only [if_pos hesc, h2, h3, h4, need_some]
      exact ⟨_, rfl⟩
    · rw [if_neg (fun he => hesc (Option.some.inj he))] at hfields
      obtain ⟨callId, r3, h3⟩ := exists_readU32 (show 4 ≤ rest.length by omega)
      have hlen3 := readU32_length h3
      obtain ⟨methodId, r4, h4⟩ := exists_readU32 (show 4 ≤ r3.length by omega)
      simp only [if_neg hesc, h3, h4, need_some]
      exact ⟨_, rfl⟩

/-- Two ways to cut the length prefix off are one. -/
theorem prefix_inj {s s' : UInt32} {b b' : Bytes} (h : putU32 s ++ b = putU32 s' ++ b') : s = s' ∧ b = b' := by
  have hr := congrArg readU32 h
  rw [readU32_putU32, readU32_putU32] at hr
  exact Prod.mk.inj (Option.some.inj hr)

end RequestCodec

/-- Some bytes that are not the whole of a request are rejected exactly when, if they declare more than is there, what is there ends
within the fields before the parameters. -/
theorem truncated_rejected_iff (data : Bytes) :
    RejectsTruncated data ↔
      ∀ (size : UInt32) (body : Bytes), data = putU32 size ++ body → body.length < size.toNat → body.length < fieldsLength body := by
  constructor
  · rintro h size body rfl hlt
    by_contra hfields
    obtain ⟨q, hq⟩ := exists_fromBytes (Nat.le_of_lt hlt) (Nat.not_lt.mp hfields)
    obtain ⟨e, he⟩ := h.missing size body rfl hlt
    rw [hq] at he
    nomatch he
  · intro h
    have hsize : ∀ q, Request.fromBytes data = .ok q →
        ∃ (size : UInt32) (body : Bytes), data = putU32 size ++ body ∧ size.toNat = body.length := by
      intro q hq
      obtain ⟨size, body, hdata, hle, hfields⟩ := fromBytes_eq_ok hq
      refine ⟨size, body, hdata, Nat.le_antisymm (Nat.not_lt.mp fun hlt => ?_) hle⟩
      exact absurd (h size body hdata hlt) (Nat.not_lt.mpr hfields)
    refine ⟨hsize, fun size body hdata hlt => ?_, fun r hr halt q hq => ?_⟩
    · cases hf : Request.fromBytes data with
      | error e => exact ⟨e, rfl⟩
      | ok q =>
        obtain ⟨size', body', hdata', hle, hfields⟩ := fromBytes_eq_ok hf
        obtain ⟨rfl, rfl⟩ := prefix_inj (hdata.symm.trans hdata')
        exact absurd (h size body hdata hlt) (Nat.not_lt.mpr hfields)
    · -- the declared size of the whole request fits neither a part of it nor more than it
      obtain ⟨size, body, hdata, hlen⟩ := hsize q hq
      have hto : (UInt32.ofNat r.body.length).toNat = r.body.length := toNat_ofNat_length hr
      exfalso
      rcases halt with ⟨k, hk, htake⟩ | ⟨extra, hne, hpad⟩
      · have hwhole : r.toBytes = putU32 size ++ (body ++ r.toBytes.drop k) := by
          rw [← List.append_assoc, ← hdata, htake, List.take_append_drop]
        obtain ⟨rfl, hbody⟩ := prefix_inj (s := UInt32.ofNat r.body.length) (b := r.body) hwhole
        have hdrop : (r.toBytes.drop k).length = 0 := by
          have hl := congrArg List.length hbody
          rw [List.length_append] at hl
          omega
        rw [List.length_drop] at hdrop
        omega
      · obtain ⟨rfl, rfl⟩ := prefix_inj (hdata.symm.trans (hpad.trans (by rw [Request.toBytes, List.append_assoc])))
        rw [hto, List.length_append] at hlen
        exact hne (List.eq_nil_of_length_eq_zero (by omega))

/-- A request with three bytes of parameters that lost the last one is decoded with the other two. -/
theorem truncated_rejected_false :
    ¬ RejectsTruncated ((⟨10, 1, 2, [3, 4, 5]⟩ : Request).toBytes.take 15) ∧
      Request.fromBytes ((⟨10, 1, 2, [3, 4, 5]⟩ : Request).toBytes.take 15) = .ok ⟨10, 1, 2, [3, 4]⟩ := by
  have hok : Request.fromBytes ((⟨10, 1, 2, [3, 4, 5]⟩ : Request).toBytes.take 15) = .ok ⟨10, 1, 2, [3, 4]⟩ := by decide
  refine ⟨fun h => ?_, hok⟩
  exact absurd (h.altered ⟨10, 1, 2, [3, 4, 5]⟩ (by decide) (Or.inl ⟨15, by decide, rfl⟩) _ hok) (by decide)

/-! ## Responses -/

namespace ResponseCodec

/-- Below `0x7f` the byte of a protocol id does not carry the request marker, is not the escape, and is the id. -/
theorem small_id {x : UInt16} (h : x < 0x7f) : x.toUInt8 &&& 0x80 = 0 ∧ x.toUInt8 ≠ 0x7f ∧ x.toUInt8.toUInt16 = x :=
  forall_lt_of_fin @UInt16.ofNat_toNat (fun x => x.toUInt8 &&& 0x80 = 0 ∧ x.toUInt8 ≠ 0x7f ∧ x.toUInt8.toUInt16 = x) 127
    (by decide) (UInt16.lt_iff_toNat_lt.mp h)

/-- The two bytes after the escape are the little-endian bytes of the id. -/
theorem escape_bytes (x : UInt16) : [(x &&& 0xff).toUInt8, (x >>> 8).toUInt8] = putU16 x := by
  have hlow : (x &&& 0xff).toUInt8 = UInt8.ofNat x.toNat := by
    apply UInt8.toNat_inj.mp
    simp only [UInt16.toNat_toUInt8, UInt16.toNat_and, UInt8.toNat_ofNat']
    have hand : x.toNat &&& (0xff : UInt16).toNat = x.toNat % 2 ^ 8 := Nat.and_two_pow_sub_one_eq_mod x.toNat 8
    rw [hand, Nat.mod_mod]
  have hhigh : (x >>> 8).toUInt8 = UInt8.ofNat (x.toNat / 256) := by
    apply UInt8.toNat_inj.mp
    simp [UInt16.toNat_toUInt8, Nat.shiftRight_eq_div_pow]
  rw [hlow, hhigh]
  rfl

/-- Clearing the response marker after setting it gives a method id without it back. -/
theorem clear_marker {m : UInt32} (h : m &&& 0x8000 = 0) : (m ||| 0x8000) &&& ~~~0x8000 = m := by
  have hm : m.toBitVec &&& 0x8000 = 0 := congrArg UInt32.toBitVec h
  apply UInt32.toBitVec_inj.mp
  calc (m.toBitVec ||| 0x8000) &&& ~~~0x8000
      = (m.toBitVec &&& ~~~0x8000) ||| (0x8000 &&& ~~~0x8000) := BitVec.and_or_distrib_right
    _ = (m.toBitVec &&& 0x8000) ||| (m.toBitVec &&& ~~~0x8000) := by rw [hm, BitVec.and_not_self, BitVec.or_comm]
    _ = m.toBitVec &&& (0x8000 ||| ~~~0x8000) := BitVec.and_or_distrib_left.symm
    _ = m.toBitVec := by rw [BitVec.or_not_self, BitVec.and_allOnes]

/-- The body of a response begins with a byte without the request marker. -/
theorem head_unmarked (r : Response) : ∃ b tail, r.body = b :: tail ∧ b &&& 0x80 = 0 := by
  unfold Response.body Response.protocolBytes
  split
  · rename_i h
    exact ⟨_, _, rfl, (small_id h).1⟩
  · exact ⟨0x7f, _, rfl, by decide⟩

/-- An encoded response is told apart from a request and decoded as a response. -/
theorem fromBytes_toBytes (r : Response) : Packet.fromBytes r.toBytes = .response <$> Response.fromBytes r.toBytes := by
  obtain ⟨b, tail, hb, hm⟩ := head_unmarked r
  have hh : r.toBytes[4]? = some b := by
    rw [Response.toBytes, getElem?_four_body, hb]
    rfl
  simp only [Packet.fromBytes, hh, if_pos hm]

/-- The data of a response is read back when its method id does not carry the response marker. -/
theorem read_data {rd : ResponseData} (h : rd.methodId &&& 0x8000 = 0) : ResponseData.fromReader rd.toBytes = .ok rd := by
  unfold ResponseData.fromReader ResponseData.toBytes
  rw [List.append_assoc, readU32_putU32]
  simp only [need_some, bind, Except.bind, readU32_putU32, clear_marker h, pure, Except.pure]

/-- The error of a response is read back. -/
theorem read_error (re : ResponseError) : ResponseError.fromReader re.toBytes = .ok re := by
  have hcall := readU32_putU32 re.callId []
  rw [List.append_nil] at hcall
  unfold ResponseError.fromReader ResponseError.toBytes
  rw [readU32_putU32]
  simp only [need_some, bind, Except.bind, hcall, pure, Except.pure]

/-- The status and the result are read back. -/
theorem read_result {r : Response} (h : ∀ rd, r.result = .ok rd → rd.methodId &&& 0x8000 = 0) :
    (do
      let (status, rdr) ← need (readU8 (match r.result with
        | .ok rd => 1 :: rd.toBytes
        | .error re => 0 :: re.toBytes))
      let result : Except ResponseError ResponseData ← match status with
        | 0 => Except.error <$> ResponseError.fromReader rdr
        | 1 => Except.ok <$> ResponseData.fromReader rdr
        | _ => throw Error.invalidPacketType
      return ({ protocolId := r.protocolId, result } : Response)) = .ok r := by
  obtain ⟨protocolId, result⟩ := r
  cases result with
  | ok rd =>
    simp only [readU8_cons, need_some, bind, Except.bind, read_data (h rd rfl)]
    rfl
  | error re =>
    simp only [readU8_cons, need_some, bind, Except.bind, read_error re]
    rfl

/-- A response whose method id does not carry the response marker is read back. -/
theorem decode {r : Response} (h : ∀ rd, r.result = .ok rd → rd.methodId &&& 0x8000 = 0) :
    Response.fromBytes r.toBytes = .ok r := by
  have hr := read_result h
  unfold Response.fromBytes Response.toBytes Response.body Response.protocolBytes
  rw [readU32_putU32]
  split
  · rename_i hlt
    obtain ⟨-, hne, hid⟩ := small_id hlt
    simp only [List.cons_append, List.nil_append, readU8_cons, need_some, bind, Except.bind, if_neg hne, hid, pure,
      Except.pure] at hr ⊢
    exact hr
  · rw [escape_bytes]
    simp only [List.cons_append, readU8_cons, need_some, bind, Except.bind, if_true, readU16_putU16, pure, Except.pure] at hr ⊢
    exact hr

end ResponseCodec

open ResponseCodec

/-- A response is read back, and its length prefix is the number of bytes that follow. -/
theorem response_codec (r : Response) (hmethod : ∀ rd, r.result = .ok rd → rd.methodId &&& 0x8000 = 0)
    (hlen : r.body.length < 2 ^ 32) :
    Packet.fromBytes r.toBytes = .ok (.response r) ∧
      ∃ size rest, readU32 r.toBytes = some (size, rest) ∧ size.toNat = rest.length := by
  constructor
  · rw [ResponseCodec.fromBytes_toBytes, decode hmethod]
    rfl
  · exact ⟨_, _, readU32_putU32 _ _, toNat_ofNat_length hlen⟩

/-- A response of protocol `0x7f`, whose id needs the escape, is read back. -/
theorem response_codec_escape :
    Packet.fromBytes (⟨0x7f, .ok ⟨1, 2, [3, 4]⟩⟩ : Response).toBytes = .ok (.response ⟨0x7f, .ok ⟨1, 2, [3, 4]⟩⟩) :=
  (response_codec ⟨0x7f, .ok ⟨1, 2, [3, 4]⟩⟩ (fun rd h => by cases h; decide) (by decide)).1

end Scbl.Rmc
