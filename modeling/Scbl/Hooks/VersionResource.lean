import Scbl.Lib.Bytes
import Scbl.Lib.Loop

/-!
# The parser of version resources

`parse.rs` of the hooks, from the bytes of the version resource on: a tree of three levels, whose nodes tell their lengths. A cursor that
cannot read a number stands at the end of its bytes. A `Dll` is passed on by hand, since what a failing parser wrote into it stays. The loops
have fuel, and tell when it ran out; a slice tells when its bounds are not those of a part of the bytes.
-/

namespace Scbl.Hooks.VersionResource

open Scbl.Lib

/-- The ways a parser ends without a result: an error of the reader, a failed assertion or `unwrap`, a slice out of range, and a loop that
did not end. -/
inductive Stop where
  | unexpectedEof | panic | outOfRange | outOfFuel
  deriving DecidableEq, Repr

structure Cursor where
  inner : Bytes
  position : Nat
  deriving DecidableEq, Repr

structure Dll where
  version : Option (List Char) := none
  company : Option (List Char) := none
  product : Option (List Char) := none
  deriving DecidableEq, Repr

/-! ## Reading -/

/-- A number of some bytes, and the cursor after it. -/
def Cursor.read (width : Nat) (c : Cursor) : Except Stop (Nat × Cursor) :=
  if c.position + width ≤ c.inner.length then
    .ok (leValue ((c.inner.drop c.position).take width), { c with position := c.position + width })
  else .error .unexpectedEof

def Cursor.u8 : Cursor → Except Stop (Nat × Cursor) := Cursor.read 1

def Cursor.u16 : Cursor → Except Stop (Nat × Cursor) := Cursor.read 2

def Cursor.u32 : Cursor → Except Stop (Nat × Cursor) := Cursor.read 4

def Cursor.u64 : Cursor → Except Stop (Nat × Cursor) := Cursor.read 8

/-- `&items[start..stop]`. -/
def slice {α : Type} (items : List α) (start stop : Nat) : Except Stop (List α) :=
  if start ≤ stop ∧ stop ≤ items.length then .ok ((items.drop start).take (stop - start)) else .error .outOfRange

/-- The cursor of a node and the cursor after it. The sum of the position and a `u16` is far below the largest `usize`. -/
def Cursor.subCursorFromLength (c : Cursor) : Except Stop (Cursor × Cursor) := do
  let pos := c.position
  let (size, c) ← c.u16
  let endPos := pos + size
  if endPos > c.inner.length then .error .unexpectedEof
  else
    let inner ← slice c.inner pos endPos
    .ok ({ inner, position := 0 }, { c with position := endPos })

/-- `while version_data.position() % 4 != 0`, each round a byte. -/
def align (fuel : Nat) (c : Cursor) : Except Stop Cursor :=
  loop (.error .outOfFuel)
    (fun c : Cursor =>
      if c.position % 4 ≠ 0 then
        match c.u8 with
        | .ok (_, c) => .inl c
        | .error e => .inr (.error e)
      else .inr (.ok c))
    fuel c

/-- `from_fn(|| version_data.u16().ok()).take_while(|&c| c != 0)`: a number that cannot be read ends the text, as a zero does. -/
def wideText (fuel : Nat) (c : Cursor) : Except Stop (List Nat × Cursor) :=
  loop (.error .outOfFuel)
    (fun s : List Nat × Cursor =>
      match s.2.u16 with
      | .ok (unit, c) => if unit ≠ 0 then .inl (s.1 ++ [unit], c) else .inr (.ok (s.1, c))
      | .error _ => .inr (.ok (s.1, { s.2 with position := s.2.inner.length })))
    fuel ([], c)

/-- `OsString::from_wide` and then its text, if it is one. -/
def fromWide : List Nat → Option (List Char)
  | [] => some []
  | unit :: rest =>
    if 0xD800 ≤ unit ∧ unit < 0xDC00 then
      match rest with
      | low :: rest =>
        if 0xDC00 ≤ low ∧ low < 0xE000 then
          (fromWide rest).map (Char.ofNat (0x10000 + (unit - 0xD800) * 0x400 + (low - 0xDC00)) :: ·)
        else none
      | [] => none
    else if 0xDC00 ≤ unit ∧ unit < 0xE000 then none
    else (fromWide rest).map (Char.ofNat unit :: ·)

/-- `unwrap` of the text of a wide string. -/
def unwrapText (units : List Nat) : Except Stop (List Char) :=
  match fromWide units with
  | some text => .ok text
  | none => .error .panic

/-! ## The parsers -/

def parseFixedFileInfo (c : Cursor) : Except Stop (Dll × Cursor) := do
  let (signature, c) ← c.u32
  if signature ≠ 0xFEEF04BD then .error .panic
  else
    let (_, c) ← c.u32
    let (minor, c) ← c.u16
    let (major, c) ← c.u16
    let (_, c) ← c.u16
    let (patch, c) ← c.u16
    let (_, c) ← c.u64
    let (_, c) ← c.u64
    let (_, c) ← c.u32
    let (_, c) ← c.u32
    let (_, c) ← c.u32
    let (_, c) ← c.u32
    let (_, c) ← c.u32
    let number := fun n => Nat.toDigits 10 n
    .ok ({ version := some (number major ++ '.' :: number minor ++ '.' :: number patch) }, c)

/-- The lengths and the type that begin a node. -/
def header (c : Cursor) : Except Stop Cursor := do
  let (_, c) ← c.u16
  let (_, c) ← c.u16
  let (_, c) ← c.u16
  .ok c

/-- The text of a string, and what is kept of it. -/
def parseStringBody (fuel : Nat) (node : Cursor) (dll : Dll) : Except Stop Dll := do
  let c ← header node
  let (key, c) ← wideText fuel c
  let c ← align fuel c
  let key ← unwrapText key
  let (value, _) ← wideText fuel c
  let value ← unwrapText value
  if key = "CompanyName".toList then .ok { dll with company := some value }
  else if key = "ProductName".toList then .ok { dll with product := some value }
  else .ok dll

def parseString (fuel : Nat) (c : Cursor) (dll : Dll) : Except Stop (Cursor × Dll) := do
  let (node, c) ← c.subCursorFromLength
  let dll ← parseStringBody fuel node dll
  .ok (c, dll)

/-- A round of the loop of `parse_string_table`. -/
def stringTableRound (fuel : Nat) (s : Cursor × Dll) : (Cursor × Dll) ⊕ (Except Stop Unit × Dll) :=
  match align fuel s.1 with
  | .error e => .inr (.error e, s.2)
  | .ok c =>
    match parseString fuel c s.2 with
    | .ok s' => .inl s'
    | .error .unexpectedEof => .inr (.ok (), s.2)
    | .error e => .inr (.error e, s.2)

/-- The strings of a table: the result, and what was written until then. -/
def parseStringTable (fuel : Nat) (c : Cursor) (dll : Dll) : Except Stop Unit × Dll :=
  let start : Except Stop Cursor := do
    let (node, _) ← c.subCursorFromLength
    let c ← header node
    let (_, c) ← wideText fuel c
    .ok c
  match start with
  | .error e => (.error e, dll)
  | .ok c => loop (.error .outOfFuel, dll) (stringTableRound fuel) fuel (c, dll)

/-- An entry of the resource: its key and the cursor in it, and the cursor after it. -/
def parseEntryKey (fuel : Nat) (c : Cursor) : Except Stop (List Char × Cursor × Cursor) := do
  let (node, after) ← c.subCursorFromLength
  let c ← header node
  let (key, c) ← wideText fuel c
  let c ← align fuel c
  let key ← unwrapText key
  .ok (key, c, after)

def parseVersionEntry (fuel : Nat) (c : Cursor) (dll : Dll) : Except Stop Cursor × Dll :=
  match parseEntryKey fuel c with
  | .error e => (.error e, dll)
  | .ok (key, node, after) =>
    if key ≠ "StringFileInfo".toList then (.ok after, dll)
    else
      match parseStringTable fuel node dll with
      | (.ok (), dll) => (.ok after, dll)
      | (.error e, dll) => (.error e, dll)

/-- A round of the loop of `parse_version`. -/
def versionRound (fuel : Nat) (s : Cursor × Dll) : (Cursor × Dll) ⊕ (Except Stop Dll) :=
  match parseVersionEntry fuel s.1 s.2 with
  | (.ok c, dll) => .inl (c, dll)
  | (.error .unexpectedEof, dll) => .inr (.ok dll)
  | (.error e, _) => .inr (.error e)

/-- `(0..16).map(|_| version_data.u16())`, collected. -/
def readUnits : Nat → Cursor → Except Stop (List Nat × Cursor)
  | 0, c => .ok ([], c)
  | n + 1, c => do
    let (unit, c) ← c.u16
    let (units, c) ← readUnits n c
    .ok (unit :: units, c)

/-- The resource up to its entries. -/
def parseVersionStart (fuel : Nat) (c : Cursor) : Except Stop (Dll × Cursor) := do
  let (node, _) ← c.subCursorFromLength
  let c ← header node
  let (key, c) ← readUnits 16 c
  let key ← slice key 0 ((key.findIdx? (· = 0)).getD 0)
  let key ← unwrapText key
  if key ≠ "VS_VERSION_INFO".toList then .error .panic
  else
    let c ← align fuel c
    let (dll, c) ← parseFixedFileInfo c
    let c ← align fuel c
    .ok (dll, c)

def parseVersion (fuel : Nat) (c : Cursor) : Except Stop Dll := do
  let (dll, c) ← parseVersionStart fuel c
  loop (.error .outOfFuel) (versionRound fuel) fuel (c, dll)

end Scbl.Hooks.VersionResource
