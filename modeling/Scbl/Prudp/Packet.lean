import Scbl.Lib.Panic
import Scbl.Config

/-!
# PRUDP packets

The packet of `quazal/src/prudp/packet.rs`: its types, its decoder, its encoder and its checksum. The decoder works on untrusted
bytes and has one partial operation of its own: without a size field it takes the payload size from the length of the input,
less one byte for the checksum.

The RC4 cipher is the code's own; the compression is a library, given as `Zlib`.
-/

namespace Scbl.Prudp

open Scbl.Lib

/-- The compression library; it decompresses to at most a number of bytes. -/
structure Zlib where
  compress : Bytes → Bytes
  decompress : Bytes → Nat → Option Bytes

/-- An error of packet processing. -/
inductive Error where
  | invalidFlag (bits : UInt8)
  | invalidChecksum
  | decompressFailed
  | invalidPacketType (number : UInt8)
  | invalidStreamType (number : UInt8)
  | io
  | streamHandler
  | unimplemented
  deriving DecidableEq, Repr

/-- A read that must succeed: running out of bytes is an I/O error. -/
def need {α : Type} : Option α → Except (Fault Error) α
  | some a => .ok a
  | none => .error (.fail .io)

/-! ## The fields of the header -/

/-- The type of a stream. -/
inductive StreamType where
  | DO | RV | RVSec | SBMGMT | NAT | SessionDiscovery | NATEcho | Routing
  deriving DecidableEq, Repr, Inhabited

/-- The code of a stream type. -/
def StreamType.toU8 : StreamType → UInt8
  | .DO => 1 | .RV => 2 | .RVSec => 3 | .SBMGMT => 4 | .NAT => 5 | .SessionDiscovery => 6 | .NATEcho => 7 | .Routing => 8

/-- The stream type of a code. -/
def StreamType.tryFrom : UInt8 → Option StreamType
  | 1 => some .DO | 2 => some .RV | 3 => some .RVSec | 4 => some .SBMGMT | 5 => some .NAT
  | 6 => some .SessionDiscovery | 7 => some .NATEcho | 8 => some .Routing | _ => none

/-- A virtual port: a port number and a stream type. -/
structure VPort where
  port : UInt8 := 0
  streamType : StreamType := .DO
  deriving DecidableEq, Repr

/-- Read a virtual port: the low four bits are the port, the high four the stream type. -/
def VPort.fromReader (rdr : Bytes) : Except (Fault Error) (VPort × Bytes) := do
  let (val, rdr) ← need (readU8 rdr)
  match StreamType.tryFrom (val >>> 4) with
  | none => throw (.fail (.invalidStreamType (val >>> 4)))
  | some streamType => return ({ port := val &&& 0xF, streamType }, rdr)

/-- A virtual port on the wire. -/
def VPort.toBytes (v : VPort) : Bytes := [v.port ||| (v.streamType.toU8 <<< 4)]

/-- The type of a packet. -/
inductive PacketType where
  | syn | connect | data | disconnect | ping | user | route | raw
  deriving DecidableEq, Repr

/-- The code of a packet type. -/
def PacketType.toU8 : PacketType → UInt8
  | .syn => 0 | .connect => 1 | .data => 2 | .disconnect => 3 | .ping => 4 | .user => 5 | .route => 6 | .raw => 7

/-- The packet type of a code. -/
def PacketType.tryFrom : UInt8 → Option PacketType
  | 0 => some .syn | 1 => some .connect | 2 => some .data | 3 => some .disconnect | 4 => some .ping | 5 => some .user
  | 6 => some .route | 7 => some .raw | _ => none

/-- A flag of a packet. -/
inductive PacketFlag where
  | ack | reliable | needAck | hasSize
  deriving DecidableEq, Repr

/-- The bit of a flag. -/
def PacketFlag.bit : PacketFlag → UInt8
  | .ack => 0b0001 | .reliable => 0b0010 | .needAck => 0b0100 | .hasSize => 0b1000

/-- Masking a union is the union of what is masked. -/
theorem or_and_right (a b c : UInt8) : (a ||| b) &&& c = (a &&& c) ||| (b &&& c) := by
  rw [← UInt8.toBitVec_inj]
  simp only [UInt8.toBitVec_and, UInt8.toBitVec_or]
  exact BitVec.and_or_distrib_right

/-- No bit of zero is outside the flags. -/
theorem valid_zero : (0 : UInt8) &&& ~~~0b1111 = 0 := by decide

/-- A set of packet flags: a byte with no bit outside the flags. -/
structure BitFlags where
  bits : UInt8 := 0
  valid : bits &&& ~~~0b1111 = 0 := by first | exact valid_zero | decide
  deriving DecidableEq

/-- The flag set of a byte, or the bits that are no flag. -/
def BitFlags.fromBits (b : UInt8) : Except UInt8 BitFlags :=
  if h : b &&& ~~~0b1111 = 0 then .ok { bits := b, valid := h } else .error (b &&& ~~~0b1111)

/-- Whether a flag is set. -/
def BitFlags.contains (fs : BitFlags) (f : PacketFlag) : Bool := fs.bits &&& f.bit ≠ 0

/-- Set a flag. -/
def BitFlags.insert (fs : BitFlags) (f : PacketFlag) : BitFlags where
  bits := fs.bits ||| f.bit
  valid := by
    have hf : f.bit &&& ~~~0b1111 = 0 := by cases f <;> decide
    rw [or_and_right, fs.valid, hf, UInt8.or_self]

/-! ## The packet -/

/-- A PRUDP packet. -/
structure QPacket where
  source : VPort := {}
  destination : VPort := {}
  packetType : PacketType := .syn
  flags : BitFlags := {}
  sessionId : UInt8 := 0
  signature : UInt32 := 0
  fragmentId : Option UInt8 := none
  connSignature : Option UInt32 := none
  sequence : UInt16 := 0
  payload : Bytes := []
  checksum : UInt8 := 0
  useCompression : Bool := false
  deriving DecidableEq

/-! ## The cipher -/

/-- The permutation of the bytes inside the cipher. -/
abbrev Sbox : Type := Vector UInt8 256

/-- The entry of a byte. -/
def Sbox.at (s : Sbox) (i : UInt8) : UInt8 := s.get ⟨i.toNat, i.toNat_lt⟩

/-- Exchange the entries of two bytes. -/
def Sbox.exchange (s : Sbox) (i j : UInt8) : Sbox := s.swap i.toNat j.toNat i.toNat_lt j.toNat_lt

/-- The state of the RC4 cipher. -/
structure Rc4 where
  i : UInt8
  j : UInt8
  state : Sbox

/-- One round of the key schedule. -/
def Rc4.schedule (key : Bytes) (s : UInt8 × Sbox) (i : Nat) : UInt8 × Sbox :=
  let j := s.1 + s.2.at (UInt8.ofNat i) + key.getD (i % key.length) 0
  (j, s.2.exchange (UInt8.ofNat i) j)

/-- The cipher for a key; an empty or oversized key is refused by an assertion. -/
def Rc4.new (key : Bytes) : Except Panic Rc4 := do
  assert (key.length ≠ 0 ∧ key.length ≤ 256)
  let init : Sbox := Vector.ofFn (fun i => UInt8.ofNat i)
  return { i := 0, j := 0, state := ((List.range 256).foldl (Rc4.schedule key) (0, init)).2 }

/-- The next byte of the keystream, and the cipher after it. -/
def Rc4.next (c : Rc4) : UInt8 × Rc4 :=
  let i := c.i + 1
  let j := c.j + c.state.at i
  let state := c.state.exchange i j
  (state.at (state.at i + state.at j), { i, j, state })

/-- The data, each byte combined with the next byte of the keystream. -/
def Rc4.apply : Rc4 → Bytes → Bytes
  | _, [] => []
  | c, b :: data => (c.next.1 ^^^ b) :: c.next.2.apply data

/-- Encrypt or decrypt under a key. -/
def cryptKey (key data : Bytes) : Except Panic Bytes := do
  let rc4 ← Rc4.new key
  return rc4.apply data

/-- The assertion lets every key of 1 to 256 bytes through, and the key determines the cipher. -/
theorem exists_rc4 {key : Bytes} (h : key.length ≠ 0 ∧ key.length ≤ 256) :
    ∃ c : Rc4, ∀ data, cryptKey key data = .ok (c.apply data) := by
  have hkey : assert (key.length ≠ 0 ∧ key.length ≤ 256) = .ok () := if_pos (decide_eq_true h)
  unfold cryptKey Rc4.new
  rw [hkey]
  exact ⟨_, fun _ => rfl⟩

/-- Encrypt or decrypt under the key of the context. -/
def crypt (ctx : Context) (data : Bytes) : Except Panic Bytes := cryptKey ctx.cryptoKey data

/-! ## The checksum -/

/-- The sum of the little-endian words of the data, whose length is a multiple of four. -/
def wordSum (data : Bytes) (acc : UInt32) : UInt32 :=
  match data with
  | a :: b :: c :: d :: data => wordSum data (acc + UInt32.ofNat (leValue [a, b, c, d]))
  | _ => acc

/-- The sum of the bytes of the data. -/
def byteSum (data : Bytes) : UInt8 := data.foldl (fun acc x => acc + x) 0

/-- The checksum of the data under a key: the bytes of the word sum, the trailing bytes and the key. -/
def calcChecksumFromData (key : UInt32) (data : Bytes) : UInt8 :=
  let l := data.length - data.length % 4
  byteSum (putU32 (wordSum (data.take l) 0)) + key.toUInt8 + byteSum (data.drop l)

end Scbl.Prudp

namespace Scbl

/-- The checksum key of a stream type: the sum of the access key on the encrypted stream, zero elsewhere. -/
def Context.key (ctx : Context) (stype : Prudp.StreamType) : UInt32 :=
  match stype with
  | .RVSec => ctx.accessKey.foldl (fun acc x => acc + x.toUInt32) 0
  | _ => 0

end Scbl

namespace Scbl.Prudp

open Scbl.Lib

/-! ## The decoder -/

/-- The limit on a decompressed payload. -/
def maxDecompressedPacketBytes : Nat := 1024 * 1024

/-- Decompress a payload. -/
def decompressPayload (zlib : Zlib) (data : Bytes) : Except (Fault Error) Bytes :=
  match zlib.decompress data maxDecompressedPacketBytes with
  | some out => .ok out
  | none => .error (.fail .decompressFailed)

/-- The size of the payload: read from the packet, or all that is left of the input but the checksum. The length of the input
does not fit the subtraction when nothing is left. -/
def payloadSize (flags : BitFlags) (rdr : Bytes) : Except (Fault Error) (Nat × Bytes) := do
  if flags.contains .hasSize then
    let (size, rdr) ← need (readU16 rdr)
    return (size.toNat, rdr)
  else if rdr.length = 0 then
    throw (.panic .overflow)
  else
    return (rdr.length - 1, rdr)

/-- The payload in the clear, and whether it came compressed: on the encrypted stream a payload is encrypted (except in a
syn), and its first byte says whether the rest is compressed. -/
def decodePayload (zlib : Zlib) (ctx : Context) (packetType : PacketType) (source : VPort) (payload : Bytes) :
    Except (Fault Error) (Bytes × Bool) := do
  if packetType ≠ .syn ∧ source.streamType = .RVSec then
    match ← liftPanic (crypt ctx payload) with
    | [] => return ([], false)
    | b :: rest => if b ≠ 0 then return (← decompressPayload zlib rest, true) else return (rest, false)
  else
    return (payload, false)

/-- Decode a packet and return what follows it. -/
def QPacket.fromReader (zlib : Zlib) (ctx : Context) (rdr : Bytes) : Except (Fault Error) (QPacket × Bytes) := do
  let (source, rdr) ← VPort.fromReader rdr
  let (destination, rdr) ← VPort.fromReader rdr
  let (typeFlag, rdr) ← need (readU8 rdr)
  let packetType ← match PacketType.tryFrom (typeFlag &&& 0x7) with
    | some packetType => pure packetType
    | none => throw (.fail (.invalidPacketType (typeFlag &&& 0x7)))
  let flags ← match BitFlags.fromBits (typeFlag >>> 3) with
    | .ok flags => pure flags
    | .error bits => throw (.fail (.invalidFlag bits))
  let (sessionId, rdr) ← need (readU8 rdr)
  let (signature, rdr) ← need (readU32 rdr)
  let (sequence, rdr) ← need (readU16 rdr)
  let (connSignature, rdr) ←
    if packetType = .syn ∨ packetType = .connect then (fun r => (some r.1, r.2)) <$> need (readU32 rdr)
    else pure (none, rdr)
  let (fragmentId, rdr) ←
    if packetType = .data then (fun r => (some r.1, r.2)) <$> need (readU8 rdr) else pure (none, rdr)
  let (size, rdr) ← payloadSize flags rdr
  let (payload, rdr) ← need (readExact size rdr)
  let (payload, useCompression) ← decodePayload zlib ctx packetType source payload
  let (checksum, rdr) ← need (readU8 rdr)
  return ({ source, destination, packetType, flags, sessionId, signature, fragmentId, connSignature, sequence, payload,
            checksum, useCompression }, rdr)

/-! ### What a decoded packet consumes -/

theorem need_eq_ok {α : Type} {x : Option α} {a : α} (h : need x = .ok a) : x = some a := by
  cases x with
  | none => nomatch h
  | some b => exact congrArg some (Except.ok.inj h)

/-- A decoded virtual port fits four bits and takes one byte. -/
theorem VPort.fromReader_ok {rdr rest : Bytes} {v : VPort} (h : VPort.fromReader rdr = .ok (v, rest)) :
    v.port < 16 ∧ rest.length < rdr.length := by
  obtain ⟨⟨val, r⟩, hr, h⟩ := bind_eq_ok.mp h
  have hl := readU8_length (need_eq_ok hr)
  dsimp only at h
  split at h
  · nomatch h
  · obtain ⟨rfl, rfl⟩ := Prod.mk.inj (Except.ok.inj h)
    refine ⟨?_, by omega⟩
    show val &&& 0xF < 16
    rw [UInt8.lt_iff_toNat_lt, UInt8.toNat_and]
    exact Nat.lt_succ_of_le Nat.and_le_right

/-- Finding the size of the payload leaves at most the input. -/
theorem payloadSize_ok {flags : BitFlags} {rdr rest : Bytes} {size : Nat} (h : payloadSize flags rdr = .ok (size, rest)) :
    rest.length ≤ rdr.length := by
  unfold payloadSize at h
  split at h
  · obtain ⟨⟨n, r⟩, hr, h⟩ := bind_eq_ok.mp h
    have hl := readU16_length (need_eq_ok hr)
    obtain ⟨-, rfl⟩ := Prod.mk.inj (Except.ok.inj h)
    omega
  · split at h
    · nomatch h
    · obtain ⟨-, rfl⟩ := Prod.mk.inj (Except.ok.inj h)
      exact Nat.le_refl _

/-- An optional field leaves at most the input. -/
theorem readOptional_ok {α β : Type} {c : Prop} [Decidable c] {read : Bytes → Option (α × Bytes)} {rdr : Bytes}
    {k : Option α × Bytes → Except (Fault Error) β} {b : β}
    (hread : ∀ {a rest}, read rdr = some (a, rest) → rest.length ≤ rdr.length)
    (h : (if c then do let x ← (fun r => (some r.1, r.2)) <$> need (read rdr); k x
      else do let x ← pure (none, rdr); k x) = .ok b) :
    ∃ a rest, rest.length ≤ rdr.length ∧ k (a, rest) = .ok b := by
  split at h
  · obtain ⟨⟨a, rest⟩, hr, h⟩ := bind_eq_ok.mp h
    cases hx : read rdr with
    | none =>
      rw [hx] at hr
      nomatch hr
    | some r =>
      rw [hx] at hr
      obtain ⟨rfl, rfl⟩ := Prod.mk.inj (Except.ok.inj hr)
      exact ⟨_, _, hread hx, h⟩
  · exact ⟨none, rdr, Nat.le_refl _, h⟩

/-- Reading the payload and the checksum leaves at most the input. -/
theorem readPayload_ok {zlib : Zlib} {ctx : Context} {f : Bytes × Bool → UInt8 × Bytes → QPacket} {flags : BitFlags}
    {t : PacketType} {source : VPort} {rdr rest : Bytes} {p : QPacket}
    (h : (do
      let size ← payloadSize flags rdr
      let payload ← need (readExact size.1 size.2)
      let plain ← decodePayload zlib ctx t source payload.1
      let checksum ← need (readU8 payload.2)
      return (f plain checksum, checksum.2)) = .ok (p, rest)) :
    (∃ plain checksum, p = f plain checksum) ∧ rest.length ≤ rdr.length := by
  obtain ⟨⟨size, r1⟩, h1, h⟩ := bind_eq_ok.mp h
  obtain ⟨⟨payload, r2⟩, h2, h⟩ := bind_eq_ok.mp h
  obtain ⟨plain, _, h⟩ := bind_eq_ok.mp h
  obtain ⟨⟨sum, r3⟩, h3, h⟩ := bind_eq_ok.mp h
  obtain ⟨rfl, rfl⟩ := Prod.mk.inj (Except.ok.inj h)
  have hl1 := payloadSize_ok h1
  have hl2 := readExact_length (need_eq_ok h2)
  have hl3 := readU8_length (need_eq_ok h3)
  dsimp only at *
  exact ⟨⟨plain, _, rfl⟩, by omega⟩

/-- A decoded packet has ports of four bits and takes at least one byte. -/
theorem QPacket.fromReader_ok {zlib : Zlib} {ctx : Context} {rdr rest : Bytes} {p : QPacket}
    (h : QPacket.fromReader zlib ctx rdr = .ok (p, rest)) :
    p.source.port < 16 ∧ p.destination.port < 16 ∧ rest.length < rdr.length := by
  unfold QPacket.fromReader at h
  obtain ⟨⟨source, r1⟩, h1, h⟩ := bind_eq_ok.mp h
  obtain ⟨⟨destination, r2⟩, h2, h⟩ := bind_eq_ok.mp h
  obtain ⟨⟨typeFlag, r3⟩, h3, h⟩ := bind_eq_ok.mp h
  obtain ⟨hs, hl1⟩ := VPort.fromReader_ok h1
  obtain ⟨hd, hl2⟩ := VPort.fromReader_ok h2
  have hl3 := readU8_length (need_eq_ok h3)
  dsimp only at h
  split at h
  · split at h
    · obtain ⟨_, -, h⟩ := bind_eq_ok.mp h
      obtain ⟨_, -, h⟩ := bind_eq_ok.mp h
      obtain ⟨⟨sessionId, r4⟩, h4, h⟩ := bind_eq_ok.mp h
      obtain ⟨⟨signature, r5⟩, h5, h⟩ := bind_eq_ok.mp h
      obtain ⟨⟨sequence, r6⟩, h6, h⟩ := bind_eq_ok.mp h
      have hl4 := readU8_length (need_eq_ok h4)
      have hl5 := readU32_length (need_eq_ok h5)
      have hl6 := readU16_length (need_eq_ok h6)
      obtain ⟨conn, r7, hl7, h⟩ := readOptional_ok (fun hr => by have := readU32_length hr; omega) h
      obtain ⟨frag, r8, hl8, h⟩ := readOptional_ok (fun hr => by have := readU8_length hr; omega) h
      obtain ⟨⟨plain, checksum, rfl⟩, hl⟩ := readPayload_ok h
      dsimp only at *
      exact ⟨hs, hd, by omega⟩
    · nomatch h
  · nomatch h

/-- Decode a packet and return the number of bytes it takes. -/
def QPacket.fromBytes (zlib : Zlib) (ctx : Context) (data : Bytes) : Except (Fault Error) (QPacket × Nat) := do
  let (p, rdr) ← QPacket.fromReader zlib ctx data
  return (p, data.length - rdr.length)

/-- Check the checksum of a packet against the bytes it was decoded from. -/
def QPacket.validate (p : QPacket) (ctx : Context) (data : Bytes) : Except Error Unit :=
  if p.checksum ≠ calcChecksumFromData (ctx.key p.destination.streamType) data.dropLast then .error .invalidChecksum
  else .ok ()

/-! ## The encoder -/

/-- The payload as it goes on the wire before encryption: a byte with the compression ratio, or zero, comes first. The ratio
divides by the length of what was compressed. -/
def QPacket.packPayload (zlib : Zlib) (p : QPacket) : Except Panic Bytes :=
  match p.payload with
  | [] => .ok []
  | payload =>
    if p.useCompression then
      let tmp := zlib.compress payload
      if tmp.length = 0 then .error .divisionByZero
      else .ok (UInt8.ofNat (payload.length / tmp.length + 1) :: tmp)
    else .ok (0 :: payload)

/-- The fields only some packet types have; the packets of these types must carry them. -/
def QPacket.typeFields (p : QPacket) : Except Panic Bytes :=
  match p.packetType with
  | .syn | .connect => putU32 <$> unwrap p.connSignature
  | .data => (fun fid => [fid]) <$> unwrap p.fragmentId
  | .disconnect | .ping | .user | .route | .raw => .ok []

/-- A packet on the wire without its checksum. -/
def QPacket.toDataBytes (zlib : Zlib) (ctx : Context) (p : QPacket) : Except Panic Bytes := do
  let fields ← p.typeFields
  let payload ← p.packPayload zlib
  let payload ← if p.packetType ≠ .syn ∧ p.source.streamType = .RVSec then crypt ctx payload else pure payload
  let size := if p.flags.contains .hasSize then putU16 (UInt16.ofNat payload.length) else []
  return p.source.toBytes ++ p.destination.toBytes ++ [p.packetType.toU8 ||| (p.flags.bits <<< 3), p.sessionId] ++
    putU32 p.signature ++ putU16 p.sequence ++ fields ++ size ++ payload

/-- The checksum a packet goes out with. -/
def QPacket.calcChecksum (zlib : Zlib) (ctx : Context) (p : QPacket) : Except Panic UInt8 := do
  let data ← p.toDataBytes zlib ctx
  return calcChecksumFromData (ctx.key p.destination.streamType) data

/-- A packet on the wire. -/
def QPacket.toBytes (zlib : Zlib) (ctx : Context) (p : QPacket) : Except Panic Bytes := do
  let data ← p.toDataBytes zlib ctx
  return data ++ [calcChecksumFromData (ctx.key p.destination.streamType) data]

end Scbl.Prudp
