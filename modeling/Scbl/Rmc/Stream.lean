import Scbl.Rmc.Result
import Scbl.Rmc.StationURL
import Scbl.Rmc.Types

/-!
# Typed streams

The types RMC messages are made of, as codes: `Ty` lists them, `Ty.Val` is the type of the values of one, `Ty.read` and `Ty.write`
are its `FromStream` and `ToStream` (`quazal/src/rmc/basic.rs`, `types.rs`). A structure with derived streams is a chain of pairs
that ends with its last field; one without fields is `unit`.

Reading never panics. Writing a text adds one to its 16-bit length, for the zero at its end: `Ty.Fits` says that this addition does
not overflow for any text of a value, and `write_ok` that the value is written then.
-/

namespace Scbl.Rmc

open Scbl.Lib

/-- A point in time in the game's format. -/
structure DateTime where
  value : UInt64
  deriving DecidableEq, Repr

/-- A value of one of several types. A float is kept as its bits. -/
inductive Variant where
  | none
  | i64 (v : Int64)
  | f64 (bits : UInt64)
  | bool (v : Bool)
  | string (v : Text)
  | dateTime (v : DateTime)
  | u64 (v : UInt64)
  deriving DecidableEq

/-- A type of values on a stream. -/
inductive Ty where
  | unit | bool
  | u8 | u16 | u32 | u64
  | i8 | i16 | i32 | i64
  | f32 | f64
  | array (n : Nat)
  | cstring | string | stationURL
  | qresult | dateTime | variant
  | any (k : Ty)
  | vec (t : Ty)
  | qlist (t : Ty)
  | map (k v : Ty)
  | pair (a b : Ty)
  deriving DecidableEq, Repr

/-- The values of a type. -/
def Ty.Val : Ty → Type
  | .unit => Unit
  | .bool => Bool
  | .u8 => UInt8
  | .u16 => UInt16
  | .u32 | .f32 => UInt32
  | .u64 | .f64 => UInt64
  | .i8 => Int8
  | .i16 => Int16
  | .i32 => Int32
  | .i64 => Int64
  | .array _ | .cstring => Bytes
  | .string => Text
  | .stationURL => StationURL
  | .qresult => QResult
  | .dateTime => DateTime
  | .variant => Variant
  | .any k => Any k.Val
  | .vec t | .qlist t => List t.Val
  | .map k v => AList (fun _ : k.Val => v.Val)
  | .pair a b => a.Val × b.Val

/-- Equality of values, which the keys of a map need. -/
def Ty.decEqVal : (t : Ty) → DecidableEq t.Val
  | .unit => inferInstanceAs (DecidableEq Unit)
  | .bool => inferInstanceAs (DecidableEq Bool)
  | .u8 => inferInstanceAs (DecidableEq UInt8)
  | .u16 => inferInstanceAs (DecidableEq UInt16)
  | .u32 | .f32 => inferInstanceAs (DecidableEq UInt32)
  | .u64 | .f64 => inferInstanceAs (DecidableEq UInt64)
  | .i8 => inferInstanceAs (DecidableEq Int8)
  | .i16 => inferInstanceAs (DecidableEq Int16)
  | .i32 => inferInstanceAs (DecidableEq Int32)
  | .i64 => inferInstanceAs (DecidableEq Int64)
  | .array _ | .cstring => inferInstanceAs (DecidableEq Bytes)
  | .string => inferInstanceAs (DecidableEq Text)
  | .stationURL => inferInstanceAs (DecidableEq StationURL)
  | .qresult => inferInstanceAs (DecidableEq QResult)
  | .dateTime => inferInstanceAs (DecidableEq DateTime)
  | .variant => inferInstanceAs (DecidableEq Variant)
  | .any k => have := k.decEqVal; inferInstanceAs (DecidableEq (Any k.Val))
  | .vec t | .qlist t => have := t.decEqVal; inferInstanceAs (DecidableEq (List t.Val))
  | .map k v => have := k.decEqVal; have := v.decEqVal; inferInstanceAs (DecidableEq (AList (fun _ : k.Val => v.Val)))
  | .pair a b => have := a.decEqVal; have := b.decEqVal; inferInstanceAs (DecidableEq (a.Val × b.Val))

instance (t : Ty) : DecidableEq t.Val := t.decEqVal

/-! ## Reading -/

/-- Read a C string: its length as a `u16` and its bytes, which end with the only zero; the empty one is its length alone. -/
def streamCString : Reader Bytes := fun rdr => do
  let (len, rdr) ← streamU16 rdr
  if len = 0 then return ([], rdr)
  let (data, rdr) ← readNBytes len.toNat rdr
  if data.getLast? = some 0 ∧ 0 ∉ data.dropLast then return (data.dropLast, rdr) else throw .parseCString

/-- Read a station URL: a text that is one. -/
def StationURL.fromStream : Reader StationURL := fun rdr => do
  let (text, rdr) ← streamString rdr
  match StationURL.parse text with
  | .ok url => return (url, rdr)
  | .error _ => throw .parseStationURL

/-- Read what a reader of another type reads, as a value of this one. -/
def Reader.map {α β : Type} (f : α → β) (read : Reader α) : Reader β := fun rdr => (fun r => (f r.1, r.2)) <$> read rdr

/-- Read a value of one of several types: a number for the type and the value. -/
def Variant.fromStream : Reader Variant := fun rdr => do
  let (tag, rdr) ← streamU8 rdr
  match tag with
  | 0 => return (.none, rdr)
  | 1 => Reader.map (fun v => .i64 v.toInt64) streamU64 rdr
  | 2 => Reader.map .f64 streamU64 rdr
  | 3 => Reader.map (fun b => .bool (b ≠ 0)) streamU8 rdr
  | 4 => Reader.map .string streamString rdr
  | 5 => Reader.map (fun v => .dateTime ⟨v⟩) streamU64 rdr
  | 6 => Reader.map .u64 streamU64 rdr
  | _ => throw .io

/-- Read two values one after the other. -/
def readPair {α β : Type} (read : Reader α) (read' : Reader β) : Reader (α × β) := fun rdr => do
  let (a, rdr) ← read rdr
  let (b, rdr) ← read' rdr
  return ((a, b), rdr)

/-- Read a map: its size as a `u32` and its entries; of two entries with one key the last one counts. -/
def readMap {K V : Type} [DecidableEq K] (readKey : Reader K) (readValue : Reader V) : Reader (AList (fun _ : K => V)) :=
  Reader.map (fun entries => entries.foldl (fun m e => m.insert e.1 e.2) ∅) (readVec (readPair readKey readValue))

/-- Read a list: its length as a `u32`, without a bound, and its items. -/
def readQList {α : Type} (read : Reader α) : Reader (List α) := fun rdr => do
  let (len, rdr) ← streamU32 rdr
  readItems read len.toNat rdr

/-- Read a value of a type. -/
def Ty.read : (t : Ty) → Reader t.Val
  | .unit => fun rdr => .ok ((), rdr)
  | .bool => Reader.map (fun b => decide (b ≠ 0)) streamU8
  | .u8 => streamU8
  | .u16 => streamU16
  | .u32 | .f32 => streamU32
  | .u64 | .f64 => streamU64
  | .i8 => Reader.map UInt8.toInt8 streamU8
  | .i16 => Reader.map UInt16.toInt16 streamU16
  | .i32 => Reader.map UInt32.toInt32 streamU32
  | .i64 => Reader.map UInt64.toInt64 streamU64
  | .array n => readNBytes n
  | .cstring => streamCString
  | .string => streamString
  | .stationURL => StationURL.fromStream
  | .qresult => Reader.map QResult.ofCode streamU32
  | .dateTime => Reader.map DateTime.mk streamU64
  | .variant => Variant.fromStream
  | .any k => Any.fromStream k.read
  | .vec t => readVec t.read
  | .qlist t => readQList t.read
  | .map k v => readMap k.read v.read
  | .pair a b => readPair a.read b.read

/-- Read a value from the beginning of some bytes. -/
def Ty.fromBytes (t : Ty) (data : Bytes) : Except FromStreamError t.Val := (·.1) <$> t.read data

/-! ## Writing -/

/-- Write a text: its length and one, its bytes in UTF-8 and a zero; the empty text is its length alone. -/
def writeString (build : Build) (t : Text) : Except Panic Bytes :=
  if t = [] then .ok (putU16 0)
  else do
    let len ← build.addU16 (UInt16.ofNat t.toBytes.length) 1
    return putU16 len ++ t.toBytes ++ [0]

/-- Write a C string. -/
def putCString (data : Bytes) : Bytes :=
  if data = [] then putU16 0 else putU16 (UInt16.ofNat (data.length + 1)) ++ data ++ [0]

/-- Write values one after the other. -/
def writeItems {α : Type} (write : α → Except Panic Bytes) : List α → Except Panic Bytes
  | [] => .ok []
  | item :: items => do
    let data ← write item
    let rest ← writeItems write items
    return data ++ rest

/-- Write a collection: its length as a `u32` and its items. -/
def writeVec {α : Type} (write : α → Except Panic Bytes) (items : List α) : Except Panic Bytes := do
  let data ← writeItems write items
  return putU32 (UInt32.ofNat items.length) ++ data

/-- Write two values one after the other. -/
def writePair {α β : Type} (write : α → Except Panic Bytes) (write' : β → Except Panic Bytes) (v : α × β) :
    Except Panic Bytes := do
  let data ← write v.1
  let rest ← write' v.2
  return data ++ rest

/-- Write a value of one of several types. -/
def Variant.write (build : Build) : Variant → Except Panic Bytes
  | .none => .ok [0]
  | .i64 v => .ok (1 :: putU64 v.toUInt64)
  | .f64 bits => .ok (2 :: putU64 bits)
  | .bool v => .ok [3, v.toUInt8]
  | .string v => (4 :: ·) <$> writeString build v
  | .dateTime v => .ok (5 :: putU64 v.value)
  | .u64 v => .ok (6 :: putU64 v)

/-- Write a value of a type. -/
def Ty.write (build : Build) (order : MapOrder) : (t : Ty) → t.Val → Except Panic Bytes
  | .unit, _ => .ok []
  | .bool, v => .ok [Bool.toUInt8 v]
  | .u8, v => .ok [v]
  | .u16, v => .ok (putU16 v)
  | .u32, v | .f32, v => .ok (putU32 v)
  | .u64, v | .f64, v => .ok (putU64 v)
  | .i8, v => .ok [Int8.toUInt8 v]
  | .i16, v => .ok (putU16 (Int16.toUInt16 v))
  | .i32, v => .ok (putU32 (Int32.toUInt32 v))
  | .i64, v => .ok (putU64 (Int64.toUInt64 v))
  | .array _, v => .ok v
  | .cstring, v => .ok (putCString v)
  | .string, v => writeString build v
  | .stationURL, v => writeString build (StationURL.display order v)
  | .qresult, v => .ok (putU32 (QResult.code v))
  | .dateTime, v => .ok (putU64 (DateTime.value v))
  | .variant, v => Variant.write build v
  | .any k, v => do
    let typeName ← k.write build order (Any.typeName v)
    return typeName ++ putVecU8 (putVecU8 (Any.data v))
  | .vec t, v | .qlist t, v => writeVec (t.write build order) v
  | .map k v, m =>
    writeVec (writePair (k.write build order) (v.write build order))
      ((order.apply (AList.entries m)).map (fun e => (e.1, e.2)))
  | .pair a b, v => writePair (a.write build order) (b.write build order) v

/-! ## The count of bytes -/

/-- What writing a text returns. -/
def stringWritten (t : Text) : Nat := if t = [] then 2 else 2 + t.toBytes.length + 1

/-- What writing a C string returns: its bytes are those with the zero. -/
def cstringWritten (data : Bytes) : Nat := if data = [] then 2 else 2 + (data ++ [0]).length

/-- What writing a collection returns: the total is four for the length, and grows with each item. -/
def vecWritten {α : Type} (written : α → Nat) (items : List α) : Nat := items.foldl (fun total item => total + written item) 4

/-- What writing a value of one of several types returns. -/
def Variant.written : Variant → Nat
  | .none => 1
  | .i64 _ | .f64 _ | .dateTime _ | .u64 _ => 1 + 8
  | .bool _ => 1 + 1
  | .string v => 1 + stringWritten v

/-- What writing a value of a type returns. -/
def Ty.written (order : MapOrder) : (t : Ty) → t.Val → Nat
  | .unit, _ => 0
  | .bool, _ | .u8, _ | .i8, _ => 1
  | .u16, _ | .i16, _ => 2
  | .u32, _ | .f32, _ | .i32, _ | .qresult, _ => 4
  | .u64, _ | .f64, _ | .i64, _ | .dateTime, _ => 8
  | .array _, v => List.length (v : Bytes)
  | .cstring, v => cstringWritten v
  | .string, v => stringWritten v
  | .stationURL, v => stringWritten (StationURL.display order v)
  | .variant, v => Variant.written v
  | .any k, v => k.written order (Any.typeName v) + vecWritten (fun _ => 1) (putVecU8 (Any.data v))
  | .vec t, v | .qlist t, v => vecWritten (t.written order) v
  | .map k v, m =>
    ((order.apply (AList.entries m)).map (fun e => (e.1, e.2))).foldl
      (fun total e => total + k.written order e.1 + v.written order e.2) 4
  | .pair a b, v => a.written order v.1 + b.written order v.2

/-! ## What can be written -/

/-- One can be added to the 16-bit length of a text. -/
def TextFits (length : Nat) : Prop := length % 2 ^ 16 ≠ 2 ^ 16 - 1

instance (length : Nat) : Decidable (TextFits length) := inferInstanceAs (Decidable (_ ≠ _))

/-- All items of a list have a property. -/
def AllItems {α : Type} (p : α → Prop) (items : List α) : Prop := ∀ item ∈ items, p item

/-- The texts of a value fit their length prefixes. -/
def Ty.Fits : (t : Ty) → t.Val → Prop
  | .string, v => TextFits (Text.toBytes v).length
  | .stationURL, v => TextFits (StationURL.printedLength v)
  | .variant, .string v => TextFits (Text.toBytes v).length
  | .any k, v => k.Fits (Any.typeName v)
  | .vec t, v | .qlist t, v => AllItems t.Fits v
  | .map k v, m => AllItems (fun e => k.Fits e.1 ∧ v.Fits e.2) (AList.entries m)
  | .pair a b, v => a.Fits v.1 ∧ b.Fits v.2
  | _, _ => True

/-- A text that fits is written. -/
theorem writeString_ok (build : Build) {t : Text} (h : TextFits t.toBytes.length) : ∃ data, writeString build t = .ok data := by
  unfold writeString
  split
  · exact ⟨_, rfl⟩
  · have hlen : (UInt16.ofNat t.toBytes.length).toNat + (1 : UInt16).toNat < 2 ^ 16 := by
      rw [UInt16.toNat_ofNat']
      unfold TextFits at h
      change _ + 1 < _
      omega
    rw [build.addU16_ok hlen]
    exact ⟨_, rfl⟩

/-- Items that are written are written one after the other. -/
theorem writeItems_ok {α : Type} {write : α → Except Panic Bytes} {items : List α}
    (h : ∀ item ∈ items, ∃ data, write item = .ok data) : ∃ data, writeItems write items = .ok data := by
  induction items with
  | nil => exact ⟨_, rfl⟩
  | cons item items ih =>
    obtain ⟨data, hdata⟩ := h item List.mem_cons_self
    obtain ⟨rest, hrest⟩ := ih (fun i hi => h i (List.mem_cons_of_mem _ hi))
    exact ⟨data ++ rest, by rw [writeItems, hdata, hrest]; rfl⟩

/-- Items that are written are written as a collection. -/
theorem writeVec_ok {α : Type} {write : α → Except Panic Bytes} {items : List α}
    (h : ∀ item ∈ items, ∃ data, write item = .ok data) : ∃ data, writeVec write items = .ok data := by
  obtain ⟨data, hdata⟩ := writeItems_ok h
  exact ⟨_, by rw [writeVec, hdata]; rfl⟩

/-- Two values that are written are written one after the other. -/
theorem writePair_ok {α β : Type} {write : α → Except Panic Bytes} {write' : β → Except Panic Bytes} {v : α × β}
    (h : ∃ data, write v.1 = .ok data) (h' : ∃ data, write' v.2 = .ok data) : ∃ data, writePair write write' v = .ok data := by
  obtain ⟨data, hdata⟩ := h
  obtain ⟨rest, hrest⟩ := h'
  exact ⟨data ++ rest, by rw [writePair, hdata, hrest]; rfl⟩

/-- A value whose texts fit is written. -/
theorem Ty.write_ok (build : Build) (order : MapOrder) (t : Ty) (v : t.Val) (h : t.Fits v) :
    ∃ data, t.write build order v = .ok data := by
  induction t with
  | string => exact writeString_ok build h
  | stationURL => exact writeString_ok build ((StationURL.length_display v order).symm ▸ h)
  | variant =>
    cases v with
    | string v =>
      obtain ⟨data, hdata⟩ := writeString_ok build h
      exact ⟨4 :: data, by simp only [Ty.write, Variant.write, hdata]; rfl⟩
    | _ => exact ⟨_, rfl⟩
  | any k ih =>
    obtain ⟨data, hdata⟩ := ih (Any.typeName v) h
    exact ⟨_, by simp only [Ty.write, hdata]; rfl⟩
  | vec t ih => exact writeVec_ok (fun item hitem => ih item (h item hitem))
  | qlist t ih => exact writeVec_ok (fun item hitem => ih item (h item hitem))
  | map k v ihk ihv =>
    refine writeVec_ok (fun item hitem => ?_)
    obtain ⟨e, he, rfl⟩ := List.mem_map.mp hitem
    have hfits := h e ((order.mem_apply _ _).mp he)
    exact writePair_ok (ihk e.1 hfits.1) (ihv e.2 hfits.2)
  | pair a b iha ihb => exact writePair_ok (iha v.1 h.1) (ihb v.2 h.2)
  | _ => exact ⟨_, rfl⟩

end Scbl.Rmc
