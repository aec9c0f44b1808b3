import Scbl.Lib.Bytes
import Scbl.Config

/-!
# Streams

Reading and writing the values of RMC messages (`quazal/src/rmc/basic.rs`). A reader takes the unread bytes and returns a value
and what is left. Lengths and counts come from the peer and are bounded before anything is read.
-/

namespace Scbl.Rmc

open Scbl.Lib

/-- The most bytes a length prefix may announce. -/
def maxLengthPrefixedBytes : Nat := 1024 * 1024

/-- The most items a collection may have. -/
def maxCollectionItems : Nat := 65536

/-- An error of reading from a stream. -/
inductive FromStreamError where
  | io
  | missingBytes (n : Nat)
  | parseInt
  | parseStationURL
  | parseCString
  | utf8
  | lengthLimitExceeded (length limit : Nat)
  deriving DecidableEq, Repr

/-- A reader of values. -/
abbrev Reader (α : Type) : Type := Bytes → Except FromStreamError (α × Bytes)

/-- A read of a number: running out of bytes is an I/O error. -/
def readNum {α : Type} (read : Bytes → Option (α × Bytes)) : Reader α := fun rdr =>
  match read rdr with
  | some r => .ok r
  | none => .error .io

/-- Read a `u8`. -/
def streamU8 : Reader UInt8 := readNum readU8

/-- Read a `u16`. -/
def streamU16 : Reader UInt16 := readNum readU16

/-- Read a `u32`. -/
def streamU32 : Reader UInt32 := readNum readU32

/-- Read a `u64`. -/
def streamU64 : Reader UInt64 := readNum readU64

/-- Read a number of bytes. -/
def readNBytes (l : Nat) : Reader Bytes := fun rdr =>
  if maxLengthPrefixedBytes < l then .error (.lengthLimitExceeded l maxLengthPrefixedBytes)
  else
    match readExact l rdr with
    | some r => .ok r
    | none => .error (.missingBytes l)

/-- Read a number of items one after the other. -/
def readItems {α : Type} (read : Reader α) : Nat → Reader (List α)
  | 0 => fun rdr => .ok ([], rdr)
  | n + 1 => fun rdr => do
    let (item, rdr) ← read rdr
    let (items, rdr) ← readItems read n rdr
    return (item :: items, rdr)

/-- Read a collection: its length as a `u32` and its items. -/
def readVec {α : Type} (read : Reader α) : Reader (List α) := fun rdr => do
  let (len, rdr) ← streamU32 rdr
  if maxCollectionItems < len.toNat then throw (.lengthLimitExceeded len.toNat maxCollectionItems)
  readItems read len.toNat rdr

/-- The text of some bytes in UTF-8. -/
def decodeUtf8 (data : Bytes) : Option Text := (ByteArray.mk data.toArray).utf8Decode?.map Array.toList

/-- A text is read back from its bytes. -/
theorem decodeUtf8_toBytes (t : Text) : decodeUtf8 t.toBytes = some t := by
  have hencode : ByteArray.mk t.toBytes.toArray = t.utf8Encode := by
    unfold Text.toBytes List.utf8Encode
    rw [← List.data_toByteArray]
  rw [decodeUtf8, hencode, List.utf8Decode?_utf8Encode]
  rfl

/-- Read a text: its length as a `u16`, its bytes in UTF-8 and a zero; the empty text is its length alone. -/
def streamString : Reader Text := fun rdr => do
  let (len, rdr) ← streamU16 rdr
  if len = 0 then return ([], rdr)
  let (data, rdr) ← readNBytes len.toNat rdr
  if data.getLast? = some 0 ∧ 0 ∉ data.dropLast then
    match decodeUtf8 data.dropLast with
    | some text => return (text, rdr)
    | none => throw .utf8
  else throw .parseCString

/-- A collection of bytes on the wire. -/
def putVecU8 (data : Bytes) : Bytes := putU32 (UInt32.ofNat data.length) ++ data

/-! ## Reading what was written -/

theorem streamU8_cons (x : UInt8) (rest : Bytes) : streamU8 (x :: rest) = .ok (x, rest) := rfl

theorem streamU16_put (x : UInt16) (rest : Bytes) : streamU16 (putU16 x ++ rest) = .ok (x, rest) := by
  rw [streamU16, readNum, readU16_putU16]

theorem streamU32_put (x : UInt32) (rest : Bytes) : streamU32 (putU32 x ++ rest) = .ok (x, rest) := by
  rw [streamU32, readNum, readU32_putU32]

theorem streamU64_put (x : UInt64) (rest : Bytes) : streamU64 (putU64 x ++ rest) = .ok (x, rest) := by
  rw [streamU64, readNum, readU64_putU64]

theorem readNBytes_append {data : Bytes} (h : data.length ≤ maxLengthPrefixedBytes) (rest : Bytes) :
    readNBytes data.length (data ++ rest) = .ok (data, rest) := by
  rw [readNBytes, if_neg (Nat.not_lt.2 h), readExact_append]

theorem readNBytes_of_length {n : Nat} {data : Bytes} (hlength : data.length = n) (h : n ≤ maxLengthPrefixedBytes) (rest : Bytes) :
    readNBytes n (data ++ rest) = .ok (data, rest) := by
  subst hlength
  exact readNBytes_append h rest

/-! ## What a successful read took -/

theorem readNum_eq_ok {α : Type} {read : Bytes → Option (α × Bytes)} {rdr : Bytes} {r : α × Bytes} (h : readNum read rdr = .ok r) :
    read rdr = some r := by
  unfold readNum at h
  split at h
  · rename_i hr
    rw [hr, Except.ok.inj h]
  · nomatch h

theorem streamU32_eq_ok {rdr rest : Bytes} {x : UInt32} (h : streamU32 rdr = .ok (x, rest)) : rdr = putU32 x ++ rest :=
  readU32_eq_some (readNum_eq_ok h)

theorem streamU64_eq_ok {rdr rest : Bytes} {x : UInt64} (h : streamU64 rdr = .ok (x, rest)) : rdr = putU64 x ++ rest :=
  readU64_eq_some (readNum_eq_ok h)

theorem readNBytes_eq_ok {n : Nat} {rdr data rest : Bytes} (h : readNBytes n rdr = .ok (data, rest)) : rdr = data ++ rest := by
  unfold readNBytes at h
  split at h
  · nomatch h
  split at h
  · rename_i hr
    obtain ⟨rfl, rfl⟩ := Prod.mk.inj (Except.ok.inj h)
    exact (readExact_eq_some hr).1
  · nomatch h

end Scbl.Rmc
