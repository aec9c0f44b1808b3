import Scbl.Rmc.Stream
import Scbl.Lib.Dict

/-!
# Decoding by type

The implementations of `FromStream` in `quazal/src/rmc/basic.rs`: which decoder the type of a value selects, for the types that have one and
their nestings. A decoder calls those of the components; since the calls are found by the inference of types, a decoder has fuel for the
depth of its calls and gives nothing when they go deeper. `Ty.read` reads the messages, whose tuples have no single components.
-/

namespace Scbl.Rmc

open Scbl.Lib

/-- The kinds of numbers, by their bytes. -/
inductive NumKind where
  | u8 | u16 | u32 | u64 | i8 | i16 | i32 | i64 | f32 | f64
  deriving DecidableEq, Repr

def NumKind.width : NumKind → Nat
  | .u8 | .i8 => 1
  | .u16 | .i16 => 2
  | .u32 | .i32 | .f32 => 4
  | .u64 | .i64 | .f64 => 8

/-- The types that have a decoder. A tuple has a first component. -/
inductive StreamType where
  | num (kind : NumKind)
  | bool
  | bytes (n : Nat)
  | cString
  | string
  | vec (item : StreamType)
  | hashMap (key value : StreamType)
  | tuple (first : StreamType) (rest : List StreamType)

/-- The values of these types: a number by its bits, a tuple and a collection as a chain of its items. -/
inductive Value where
  | num (bits : Nat)
  | bool (b : Bool)
  | bytes (data : Bytes)
  | text (t : Text)
  | nil
  | cons (head tail : Value)
  deriving DecidableEq

def Value.ofList : List Value → Value
  | [] => .nil
  | v :: vs => .cons v (ofList vs)

/-! ## Decoders -/

/-- A reader of values that may not return. -/
abbrev Decoder (α : Type) : Type := Bytes → Option (Except FromStreamError (α × Bytes))

namespace Decoder

variable {α β : Type}

def ofReader (read : Reader α) : Decoder α := fun rdr => some (read rdr)

def done (a : α) : Decoder α := fun rdr => some (.ok (a, rdr))

def fail (e : FromStreamError) : Decoder α := fun _ => some (.error e)

/-- `?`: what follows a value that was read. -/
def andThen (d : Decoder α) (f : α → Decoder β) : Decoder β := fun rdr =>
  match d rdr with
  | none => none
  | some (.error e) => some (.error e)
  | some (.ok (a, rdr)) => f a rdr

/-- The loop of a collection. -/
def items (d : Decoder α) : Nat → Decoder (List α)
  | 0 => done []
  | n + 1 => d.andThen (fun a => (items d n).andThen (fun as => done (a :: as)))

/-- The loop of a map. -/
def entries [DecidableEq α] (dk : Decoder α) (dv : Decoder β) : Nat → List (α × β) → Decoder (List (α × β))
  | 0, m => done m
  | n + 1, m => dk.andThen (fun k => dv.andThen (fun v => entries dk dv n (Dict.set m k v)))

/-- Values of several types, one after the other. -/
def sequence : List (Decoder α) → Decoder (List α)
  | [] => done []
  | d :: ds => d.andThen (fun a => (sequence ds).andThen (fun as => done (a :: as)))

/-- The length of a collection, which is bounded. -/
def length : Decoder Nat :=
  (ofReader streamU32).andThen (fun len =>
    if maxCollectionItems < len.toNat then fail (.lengthLimitExceeded len.toNat maxCollectionItems) else done len.toNat)

end Decoder

/-- The types at which `let $name = stream.read()?` reads the components of a tuple, as inferred from the result `Ok(($($name),+))`. For one
name that is `Ok(T0)`, so that the read is of the tuple itself. -/
def readTypes (first : StreamType) : List StreamType → List StreamType
  | [] => [.tuple first []]
  | second :: rest => first :: second :: rest

/-- `($($name),+)`: one value in parentheses is the value. -/
def tupleValue : List Value → Value
  | [v] => v
  | vs => .ofList vs

def fromStream : Nat → StreamType → Decoder Value
  | 0, _ => fun _ => none
  | fuel + 1, type =>
    match type with
    | .num kind => (Decoder.ofReader (readNum (readLE kind.width))).andThen (fun bits => .done (.num bits))
    | .bool => (Decoder.ofReader streamU8).andThen (fun b => .done (.bool (b ≠ 0)))
    | .bytes n => (Decoder.ofReader (readNBytes n)).andThen (fun data => .done (.bytes data))
    | .cString => (Decoder.ofReader streamCString).andThen (fun data => .done (.bytes data))
    | .string => (Decoder.ofReader streamString).andThen (fun t => .done (.text t))
    | .vec item => Decoder.length.andThen (fun len => ((fromStream fuel item).items len).andThen (fun vs => .done (.ofList vs)))
    | .hashMap key value =>
      Decoder.length.andThen (fun n =>
        ((fromStream fuel key).entries (fromStream fuel value) n []).andThen (fun m =>
          .done (.ofList (m.map (fun entry => .cons entry.1 entry.2)))))
    | .tuple first rest =>
      (Decoder.sequence ((readTypes first rest).map (fromStream fuel))).andThen (fun vs => .done (tupleValue vs))

/-! ## Types and their components -/

/-- What holds of a type if it holds of its components. -/
@[elab_as_elim]
theorem StreamType.components_induction {P : StreamType → Prop} (num : ∀ kind, P (.num kind)) (bool : P .bool) (bytes : ∀ n, P (.bytes n))
    (cString : P .cString) (string : P .string) (vec : ∀ item, P item → P (.vec item))
    (hashMap : ∀ key value, P key → P value → P (.hashMap key value))
    (tuple : ∀ first rest, P first → (∀ t ∈ rest, P t) → P (.tuple first rest)) (t : StreamType) : P t :=
  @StreamType.rec P (fun ts => ∀ t ∈ ts, P t) num bool bytes cString string vec hashMap tuple
    (fun _ h => absurd h List.not_mem_nil)
    (fun _ _ hfirst hrest _ ht => (List.mem_cons.mp ht).elim (fun heq => heq ▸ hfirst) (hrest _)) t

mutual

/-- How deep a type is nested. -/
def StreamType.height : StreamType → Nat
  | .vec item => item.height + 1
  | .hashMap key value => max key.height value.height + 1
  | .tuple first rest => max first.height (heights rest) + 1
  | _ => 1

def heights : List StreamType → Nat
  | [] => 0
  | t :: ts => max t.height (heights ts)

end

mutual

/-- Some input has a value of the type: none of the components that are always read is an array that is longer than a read may be, or a
tuple of one component. -/
def StreamType.isReadable : StreamType → Bool
  | .bytes n => n ≤ maxLengthPrefixedBytes
  | .tuple first rest => rest ≠ [] && first.isReadable && allReadable rest
  | _ => true

def allReadable : List StreamType → Bool
  | [] => true
  | t :: ts => t.isReadable && allReadable ts

end

mutual

/-- A tuple of one component is the type itself or a component that some input reaches: the components that are read before it have
values. -/
def StreamType.reachesSingle : StreamType → Bool
  | .vec item => item.reachesSingle
  | .hashMap key value => key.reachesSingle || (key.isReadable && value.reachesSingle)
  | .tuple first rest => rest = [] || first.reachesSingle || (first.isReadable && reachesSingleIn rest)
  | _ => false

def reachesSingleIn : List StreamType → Bool
  | [] => false
  | t :: ts => t.reachesSingle || (t.isReadable && reachesSingleIn ts)

end

end Scbl.Rmc
