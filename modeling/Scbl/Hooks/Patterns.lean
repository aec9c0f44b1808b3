import Scbl.Lib.IpAddress

/-!
# Patterns of bytes

`patterns.rs` of the hooks: a pattern of bytes with wildcards for nibbles, which the hooks look for in the image of the game. A text is the
list of its characters, a slice the list of its bytes.
-/

namespace Scbl.Hooks.Patterns

open Scbl.Lib

inductive PatternNibble where
  | wildcard
  | exact (n : UInt8)
  deriving DecidableEq, Repr

namespace PatternNibble

def parse (c : Char) : Option PatternNibble :=
  if c = '?' then some .wildcard else (hexDigitValue c).map (fun b => .exact b.toUInt8)

def isMatch : PatternNibble → UInt8 → Bool
  | .wildcard, _ => true
  | .exact n, nibble => n = nibble

/-- `Display`: `\x7bn:X\x7d` of an exact nibble. -/
def display : PatternNibble → List Char
  | .wildcard => ['?']
  | .exact n => (Nat.toDigits 16 n.toNat).map Char.toUpper

/-- A nibble is one of a byte. -/
def IsNibble : PatternNibble → Prop
  | .wildcard => True
  | .exact n => n < 16

end PatternNibble

inductive PatternOctet where
  | full (high low : PatternNibble)
  | partialNibble (nibble : PatternNibble)
  deriving DecidableEq, Repr

namespace PatternOctet

def new (byte : UInt8) : PatternOctet := .full (.exact (byte >>> 4)) (.exact (byte &&& 0xF))

def isMatch : PatternOctet → UInt8 → Bool
  | .full high low, byte => high.isMatch (byte >>> 4) && low.isMatch (byte &&& 0xF)
  | .partialNibble nibble, byte => nibble.isMatch (byte >>> 4)

def display : PatternOctet → List Char
  | .full high low => high.display ++ low.display
  | .partialNibble nibble => nibble.display ++ ['?']

/-- The nibbles of an octet are nibbles of a byte. -/
def IsByte : PatternOctet → Prop
  | .full high low => high.IsNibble ∧ low.IsNibble
  | .partialNibble nibble => nibble.IsNibble

end PatternOctet

abbrev Pattern := List PatternOctet

/-- `slice::windows`, for a positive size. -/
def windows {α : Type} (size : Nat) (data : List α) : List (List α) :=
  (List.range (data.length + 1 - size)).map (fun i => (data.drop i).take size)

namespace Pattern

def isMatch (pattern : Pattern) (data : List UInt8) : Bool :=
  if data.length < pattern.length then false else (pattern.zip data).all (fun p => p.1.isMatch p.2)

def search (pattern : Pattern) (data : List UInt8) : Option Nat := (windows pattern.length data).findIdx? pattern.isMatch

/-- The loop of `is_unique`, with what was found before. -/
def isUniqueIn (pattern : Pattern) : Bool → List (List UInt8) → Bool
  | found, [] => found
  | found, window :: rest =>
    if pattern.isMatch window then
      if found then false else isUniqueIn pattern true rest
    else isUniqueIn pattern found rest

def isUnique (pattern : Pattern) (data : List UInt8) : Bool := isUniqueIn pattern false (windows pattern.length data)

/-- `nibbles.chunks(2)`, as octets. -/
def octetsOf : List PatternNibble → List PatternOctet
  | [] => []
  | [nibble] => [.partialNibble nibble]
  | high :: low :: rest => .full high low :: octetsOf rest

def fromStr (s : List Char) : Option Pattern :=
  ((s.filter (· ≠ ' ')).mapM PatternNibble.parse).map octetsOf

/-- The octets, with a space after all but the last. -/
def display : Pattern → List Char
  | [] => []
  | [octet] => octet.display
  | octet :: rest => octet.display ++ ' ' :: display rest

/-- The octets of a pattern are octets of bytes. -/
def IsBytePattern (pattern : Pattern) : Prop := ∀ octet ∈ pattern, octet.IsByte

/-- A pattern fits an image at an offset: its octets match the bytes there, one by one. -/
def MatchesAt (pattern : Pattern) (image : List UInt8) (offset : Nat) : Prop :=
  ∃ before found after, image = before ++ found ++ after ∧ before.length = offset ∧
    List.Forall₂ (fun octet byte => octet.isMatch byte = true) pattern found

end Pattern

/-! ## Patterns are made of nibbles -/

theorem isNibble_of_parse {c : Char} {nibble : PatternNibble} (h : PatternNibble.parse c = some nibble) : nibble.IsNibble := by
  rw [PatternNibble.parse] at h
  split at h
  · obtain rfl := Option.some.inj h
    trivial
  · obtain ⟨b, hb, rfl⟩ := Option.map_eq_some_iff.mp h
    have hlt := hexDigitValue_lt hb
    show b.toUInt8 < 16
    rw [UInt8.lt_iff_toNat_lt]
    simp only [Nat.toUInt8, UInt8.toNat_ofNat', UInt8.reduceToNat]
    omega

theorem isByte_new (byte : UInt8) : (PatternOctet.new byte).IsByte := by
  constructor
  · show byte >>> 4 < 16
    rw [UInt8.lt_iff_toNat_lt, UInt8.toNat_shiftRight]
    have := byte.toNat_lt
    simp only [UInt8.reduceToNat, Nat.reduceMod, Nat.shiftRight_eq_div_pow]
    omega
  · show byte &&& 0xF < 16
    rw [UInt8.lt_iff_toNat_lt, UInt8.toNat_and]
    exact Nat.lt_of_le_of_lt Nat.and_le_right (by decide)

/-- What is read is a pattern of bytes. -/
theorem isBytePattern_fromStr {s : List Char} {pattern : Pattern} (h : Pattern.fromStr s = some pattern) : pattern.IsBytePattern := by
  obtain ⟨nibbles, hparse, rfl⟩ := Option.map_eq_some_iff.mp h
  have hnibbles : ∀ nibble ∈ nibbles, nibble.IsNibble := by
    intro nibble hnibble
    obtain ⟨c, -, hc⟩ := mem_of_mapM hparse nibble hnibble
    exact isNibble_of_parse hc
  clear hparse h
  induction nibbles using Pattern.octetsOf.induct with
  | case1 => nofun
  | case2 nibble =>
    intro octet hoctet
    rw [List.mem_singleton.mp hoctet]
    exact hnibbles nibble List.mem_cons_self
  | case3 high low rest ih =>
    intro octet hoctet
    rcases List.mem_cons.mp hoctet with rfl | hoctet
    · exact ⟨hnibbles high List.mem_cons_self, hnibbles low (List.mem_cons_of_mem _ List.mem_cons_self)⟩
    · exact ih (fun nibble hnibble => hnibbles nibble (List.mem_cons_of_mem _ (List.mem_cons_of_mem _ hnibble))) octet hoctet

end Scbl.Hooks.Patterns
