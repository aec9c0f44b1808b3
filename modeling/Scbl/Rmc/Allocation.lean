import Scbl.Rmc.Stream

/-!
# What a reader reserves

The lengths and counts that a reader takes from the bytes, and the memory it reserves for them, in the order of
`quazal/src/rmc/basic.rs` and `types.rs`. A count is reserved as that many items, a length as that many bytes; a reader that fails
does nothing more.
-/

namespace Scbl.Rmc

open Scbl.Lib

/-- What happens while a value is read. -/
inductive DecodeEvent where
  | countRead (n : Nat)
  | itemsReserved (n : Nat)
  | lengthRead (n : Nat)
  | bytesReserved (n : Nat)
  deriving DecidableEq, Repr

/-- What happens after a part that is read. -/
def eventsAfter {α : Type} (x : Except FromStreamError α) (events : α → List DecodeEvent) : List DecodeEvent :=
  match x with
  | .ok a => events a
  | .error _ => []

/-- `read_n_bytes`: the length is checked, and the bytes are reserved. -/
def byteEvents (l : Nat) : List DecodeEvent := .lengthRead l :: if maxLengthPrefixedBytes < l then [] else [.bytesReserved l]

def stringEvents (data : Bytes) : List DecodeEvent :=
  eventsAfter (streamU16 data) (fun r => if r.1 = 0 then [] else byteEvents r.1.toNat)

/-- What happens while items are read one after the other. -/
def itemEvents {α : Type} (read : Reader α) (events : Bytes → List DecodeEvent) : Nat → Bytes → List DecodeEvent
  | 0, _ => []
  | n + 1, data => events data ++ eventsAfter (read data) (fun r => itemEvents read events n r.2)

/-- A collection: the count is checked, and the items are reserved. -/
def vecEvents {α : Type} (read : Reader α) (events : Bytes → List DecodeEvent) (data : Bytes) : List DecodeEvent :=
  eventsAfter (streamU32 data) (fun r =>
    .countRead r.1.toNat ::
      if maxCollectionItems < r.1.toNat then []
      else .itemsReserved r.1.toNat :: itemEvents read events r.1.toNat r.2)

/-- A list: the items are reserved. -/
def qlistEvents {α : Type} (read : Reader α) (events : Bytes → List DecodeEvent) (data : Bytes) : List DecodeEvent :=
  eventsAfter (streamU32 data) (fun r =>
    .countRead r.1.toNat :: .itemsReserved r.1.toNat :: itemEvents read events r.1.toNat r.2)

def pairEvents {α : Type} (read : Reader α) (first second : Bytes → List DecodeEvent) (data : Bytes) : List DecodeEvent :=
  first data ++ eventsAfter (read data) (fun r => second r.2)

/-- The bytes of a value with a name, a collection in a collection. -/
def anyDataEvents (data : Bytes) : List DecodeEvent :=
  vecEvents streamU8 (fun _ => []) data ++
    eventsAfter (readVec streamU8 data) (fun r => vecEvents streamU8 (fun _ => []) r.1)

def variantEvents (data : Bytes) : List DecodeEvent := eventsAfter (streamU8 data) (fun r => if r.1 = 4 then stringEvents r.2 else [])

/-- What happens while a value of a type is read. -/
def Ty.events : Ty → Bytes → List DecodeEvent
  | .array n => fun _ => byteEvents n
  | .cstring | .string | .stationURL => stringEvents
  | .variant => variantEvents
  | .any k => pairEvents k.read k.events anyDataEvents
  | .vec t => vecEvents t.read t.events
  | .qlist t => qlistEvents t.read t.events
  | .map k v => vecEvents (readPair k.read v.read) (pairEvents k.read k.events v.events)
  | .pair a b => pairEvents a.read a.events b.events
  | .unit | .bool | .u8 | .u16 | .u32 | .u64 | .i8 | .i16 | .i32 | .i64 | .f32 | .f64 | .qresult | .dateTime => fun _ => []

end Scbl.Rmc
