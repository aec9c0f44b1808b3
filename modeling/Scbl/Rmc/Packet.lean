import Scbl.Lib.Bytes

/-!
# RMC packets: requests and responses

The remote-method-call layer of `quazal/src/rmc.rs`: the error type with its wire codes, the request and the response with
their encoders and decoders, and the packet that tells them apart by the top bit of the first protocol byte.

A decoder takes the whole byte string. Reading past the end is the I/O error `unexpectedEof`, as `byteorder` reports it on a
cursor.
-/

namespace Scbl.Rmc

open Scbl.Lib

/-- The kinds of `std::io::Error` the decoders raise. -/
inductive IoError where
  | unexpectedEof | invalidData
  deriving DecidableEq, Repr

/-- An error of an RMC operation. -/
inductive Error where
  | missingData (expected got : Nat)
  | parsingError
  | unknownProtocol
  | unknownMethod
  | unimplementedMethod
  | invalidPacketType
  | internalError
  | accessDenied
  | io (e : IoError)
  | fromStream
  deriving DecidableEq, Repr

/-- The code an error is reported under. -/
def Error.toErrorCode (e : Error) : UInt32 :=
  let code : UInt32 := match e with
    | .unknownProtocol | .unknownMethod => 0x00010001
    | .unimplementedMethod => 0x00010002
    | .accessDenied => 0x00010006
    | .missingData _ _ => 0x00010009
    | .parsingError | .invalidPacketType | .io _ | .fromStream => 0x0001000A
    | .internalError => 0x00010012
  code ||| 0x80000000

/-- A read that must succeed: running out of bytes is an I/O error. -/
def need {α : Type} : Option α → Except Error α
  | some a => .ok a
  | none => .error (.io .unexpectedEof)

/-! ## Requests -/

/-- An RMC request. -/
structure Request where
  protocolId : UInt16
  callId : UInt32
  methodId : UInt32
  parameters : Bytes
  deriving DecidableEq, Repr

/-- The protocol id of a request on the wire: one byte with the request marker, or the escape and two bytes. -/
def Request.protocolBytes (protocolId : UInt16) : Bytes :=
  if protocolId < 0xff then [protocolId.toUInt8 ||| 0x80] else 0xff :: putU16 protocolId

/-- What follows the length prefix of a request. -/
def Request.body (r : Request) : Bytes :=
  Request.protocolBytes r.protocolId ++ putU32 r.callId ++ putU32 r.methodId ++ r.parameters

/-- A request on the wire. -/
def Request.toBytes (r : Request) : Bytes :=
  putU32 (UInt32.ofNat r.body.length) ++ r.body

/-- Decode a request. -/
def Request.fromBytes (data : Bytes) : Except Error Request := do
  let (size, rdr) ← need (readU32 data)
  if size.toNat < data.length - 4 then
    throw (.missingData size.toNat (data.length - 4))
  let (b, rdr) ← need (readU8 rdr)
  let (protocolId, rdr) ←
    if b = 0xff then need (readU16 rdr) else pure ((b &&& ~~~0x80).toUInt16, rdr)
  let (callId, rdr) ← need (readU32 rdr)
  let (methodId, rdr) ← need (readU32 rdr)
  return { protocolId, callId, methodId, parameters := rdr }

/-! ## Responses -/

/-- The data of a response. -/
structure ResponseData where
  callId : UInt32
  methodId : UInt32
  data : Bytes
  deriving DecidableEq, Repr

/-- Decode the data of a response: the method id comes with the response marker, bit 15, which is cleared. -/
def ResponseData.fromReader (rdr : Bytes) : Except Error ResponseData := do
  let (callId, rdr) ← need (readU32 rdr)
  let (methodId, rdr) ← need (readU32 rdr)
  return { callId, methodId := methodId &&& ~~~0x8000, data := rdr }

/-- The data of a response on the wire. -/
def ResponseData.toBytes (r : ResponseData) : Bytes :=
  putU32 r.callId ++ putU32 (r.methodId ||| 0x8000) ++ r.data

/-- The error of a response. -/
structure ResponseError where
  errorCode : UInt32
  callId : UInt32
  deriving DecidableEq, Repr

/-- Decode the error of a response. -/
def ResponseError.fromReader (rdr : Bytes) : Except Error ResponseError := do
  let (errorCode, rdr) ← need (readU32 rdr)
  let (callId, _) ← need (readU32 rdr)
  return { errorCode, callId }

/-- The error of a response on the wire. -/
def ResponseError.toBytes (r : ResponseError) : Bytes :=
  putU32 r.errorCode ++ putU32 r.callId

/-- An RMC response. -/
structure Response where
  protocolId : UInt16
  result : Except ResponseError ResponseData
  deriving DecidableEq, Repr

/-- The protocol id of a response on the wire: one byte, or the escape and two bytes. -/
def Response.protocolBytes (protocolId : UInt16) : Bytes :=
  if protocolId < 0x7f then [protocolId.toUInt8]
  else [0x7f, (protocolId &&& 0xff).toUInt8, (protocolId >>> 8).toUInt8]

/-- What follows the length prefix of a response. -/
def Response.body (r : Response) : Bytes :=
  Response.protocolBytes r.protocolId ++
    match r.result with
    | .ok rd => 1 :: rd.toBytes
    | .error re => 0 :: re.toBytes

/-- A response on the wire. -/
def Response.toBytes (r : Response) : Bytes :=
  putU32 (UInt32.ofNat r.body.length) ++ r.body

/-- Decode a response. The declared size is read and ignored. -/
def Response.fromBytes (data : Bytes) : Except Error Response := do
  let (_size, rdr) ← need (readU32 data)
  let (b, rdr) ← need (readU8 rdr)
  let (protocolId, rdr) ← if b = 0x7f then need (readU16 rdr) else pure (b.toUInt16, rdr)
  let (status, rdr) ← need (readU8 rdr)
  let result ← match status with
    | 0 => .error <$> ResponseError.fromReader rdr
    | 1 => .ok <$> ResponseData.fromReader rdr
    | _ => throw .invalidPacketType
  return { protocolId, result }

/-! ## Packets -/

/-- An RMC packet. -/
inductive Packet where
  | request (r : Request)
  | response (r : Response)
  deriving DecidableEq, Repr

/-- Decode a packet: the top bit of the byte after the length prefix marks a request. -/
def Packet.fromBytes (data : Bytes) : Except Error Packet :=
  match data[4]? with
  | none => .error (.missingData 5 data.length)
  | some b =>
    if b &&& 0x80 = 0 then .response <$> Response.fromBytes data else .request <$> Request.fromBytes data

/-- A packet on the wire. -/
def Packet.toBytes : Packet → Bytes
  | .request r => r.toBytes
  | .response r => r.toBytes

/-! ## Decoding what was encoded -/

@[simp] theorem need_some {α : Type} (a : α) : need (some a) = .ok a := rfl

@[simp] theorem need_none {α : Type} : need (none : Option α) = .error (.io .unexpectedEof) := rfl

/-- A length that fits `u32` is read back from the prefix it was written to. -/
theorem toNat_ofNat_length {n : Nat} (h : n < 2 ^ 32) : (UInt32.ofNat n).toNat = n := by
  rw [UInt32.toNat_ofNat']
  exact Nat.mod_eq_of_lt h

/-- Decoding a request whose length prefix is right is decoding what follows the prefix. -/
theorem Request.fromBytes_body {b : Bytes} (h : b.length < 2 ^ 32) :
    Request.fromBytes (putU32 (UInt32.ofNat b.length) ++ b) = (do
      let (c, rdr) ← need (readU8 b)
      let (protocolId, rdr) ← if c = 0xff then need (readU16 rdr) else pure ((c &&& ~~~0x80).toUInt16, rdr)
      let (callId, rdr) ← need (readU32 rdr)
      let (methodId, rdr) ← need (readU32 rdr)
      return { protocolId, callId, methodId, parameters := rdr }) := by
  have hl : ¬ (UInt32.ofNat b.length).toNat < (putU32 (UInt32.ofNat b.length) ++ b).length - 4 := by
    rw [toNat_ofNat_length h, List.length_append, length_putU32]
    omega
  unfold Request.fromBytes
  rw [readU32_putU32]
  simp only [need_some, bind, Except.bind, if_neg hl, pure, Except.pure]

/-- The byte after the length prefix is the first byte of the body. -/
theorem getElem?_four_body (x : UInt32) (b : Bytes) : (putU32 x ++ b)[4]? = b.head? := by
  have h := length_putU32 x
  rw [List.getElem?_append_right (by omega), h, Nat.sub_self, List.head?_eq_getElem?]

end Scbl.Rmc
