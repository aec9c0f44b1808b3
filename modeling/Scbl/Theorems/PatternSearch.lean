import Scbl.Hooks.Patterns
import Mathlib.Data.List.Forall2
import Mathlib.Logic.ExistsUnique

/-!
# The search for a pattern is exact

A window of an image matches where the pattern fits (`isMatch_window`), so that the search gives the least offset, and the check for one
occurrence counts the offsets. What is printed of a pattern of bytes is read as the same pattern, with a wildcard where a last nibble is
left out.
-/

namespace Scbl.Hooks.Patterns

open Scbl.Lib

/-! ## Windows -/

theorem getElem?_windows {α : Type} {size : Nat} (data : List α) (i : Nat) :
    (windows size data)[i]? = if i + size < data.length + 1 then some ((data.drop i).take size) else none := by
  rw [windows, List.getElem?_map]
  split
  · rw [List.getElem?_range (by omega)]
    rfl
  · rw [List.getElem?_eq_none (by rw [List.length_range]; omega)]
    rfl

namespace Pattern

/-- A window matches if the pattern fits it. -/
theorem isMatch_iff (pattern : Pattern) (data : List UInt8) (hlength : data.length = pattern.length) :
    pattern.isMatch data = true ↔ List.Forall₂ (fun octet byte => octet.isMatch byte = true) pattern data := by
  rw [isMatch, if_neg (by omega), List.forall₂_iff_zip, List.all_eq_true]
  exact ⟨fun h => ⟨hlength.symm, fun hp => h _ hp⟩, fun h p hp => h.2 hp⟩

/-- The pattern fits an image where the window at the offset matches. -/
theorem matchesAt_iff (pattern : Pattern) (image : List UInt8) (i : Nat) :
    pattern.MatchesAt image i ↔ ∃ window, (windows pattern.length image)[i]? = some window ∧ pattern.isMatch window = true := by
  rw [getElem?_windows]
  constructor
  · rintro ⟨before, found, after, rfl, rfl, hfits⟩
    have hlength := hfits.length_eq
    refine ⟨found, ?_, (isMatch_iff pattern found hlength.symm).mpr hfits⟩
    rw [if_pos (by simp only [List.length_append]; omega), List.append_assoc, List.drop_left, hlength, List.take_left]
  · rintro ⟨window, hwindow, hmatch⟩
    split at hwindow
    · rename_i hin
      obtain rfl := Option.some.inj hwindow
      have hlength : ((image.drop i).take pattern.length).length = pattern.length := by
        rw [List.length_take, List.length_drop]
        omega
      refine ⟨image.take i, _, (image.drop i).drop pattern.length, ?_, ?_, (isMatch_iff pattern _ hlength).mp hmatch⟩
      · rw [List.append_assoc, List.take_append_drop, List.take_append_drop]
      · rw [List.length_take]
        omega
    · nomatch hwindow

/-! ## The search -/

theorem search_eq_some_iff (pattern : Pattern) (image : List UInt8) (i : Nat) :
    pattern.search image = some i ↔ pattern.MatchesAt image i ∧ ∀ j < i, ¬ pattern.MatchesAt image j := by
  have hfirst : ∀ j, (∃ h : j < (windows pattern.length image).length, pattern.isMatch (windows pattern.length image)[j] = true) ↔
      pattern.MatchesAt image j := by
    intro j
    rw [matchesAt_iff]
    constructor
    · exact fun ⟨h, hmatch⟩ => ⟨_, List.getElem?_eq_getElem h, hmatch⟩
    · rintro ⟨window, hwindow, hmatch⟩
      obtain ⟨h, rfl⟩ := List.getElem?_eq_some_iff.mp hwindow
      exact ⟨h, hmatch⟩
  rw [search, List.findIdx?_eq_some_iff_getElem]
  constructor
  · rintro ⟨h, hmatch, hbefore⟩
    refine ⟨(hfirst i).mp ⟨h, hmatch⟩, fun j hj hfits => ?_⟩
    obtain ⟨_, hmatch'⟩ := (hfirst j).mpr hfits
    exact hbefore j hj hmatch'
  · rintro ⟨hfits, hbefore⟩
    obtain ⟨h, hmatch⟩ := (hfirst i).mpr hfits
    exact ⟨h, hmatch, fun j hj hmatch' => hbefore j hj ((hfirst j).mp ⟨Nat.lt_trans hj h, hmatch'⟩)⟩

theorem search_eq_none_iff (pattern : Pattern) (image : List UInt8) :
    pattern.search image = none ↔ ∀ i, ¬ pattern.MatchesAt image i := by
  rw [search, List.findIdx?_eq_none_iff]
  constructor
  · intro h i hfits
    obtain ⟨window, hwindow, hmatch⟩ := (matchesAt_iff pattern image i).mp hfits
    exact Bool.false_ne_true ((h window (List.mem_of_getElem? hwindow)).symm.trans hmatch)
  · intro h window hwindow
    obtain ⟨i, hi⟩ := List.mem_iff_getElem?.mp hwindow
    rw [← Bool.not_eq_true]
    exact fun hmatch => h i ((matchesAt_iff pattern image i).mpr ⟨window, hi, hmatch⟩)

/-- The loop counts the windows that match, with the one found before. -/
theorem isUniqueIn_iff (pattern : Pattern) (found : Bool) (rest : List (List UInt8)) :
    pattern.isUniqueIn found rest = true ↔ found.toNat + rest.countP pattern.isMatch = 1 := by
  induction rest generalizing found with
  | nil => cases found <;> simp [isUniqueIn]
  | cons window rest ih =>
    rw [isUniqueIn, List.countP_cons]
    by_cases hmatch : pattern.isMatch window = true
    · rw [if_pos hmatch, if_pos hmatch]
      cases found with
      | true => simp
      | false =>
        rw [if_neg Bool.false_ne_true, ih]
        simp only [Bool.toNat_true, Bool.toNat_false]
        omega
    · rw [if_neg hmatch, if_neg hmatch, ih]
      rfl

end Pattern

/-- One item of a list has a property if it holds at one index. -/
theorem countP_eq_one_iff {α : Type} (p : α → Bool) (items : List α) :
    items.countP p = 1 ↔ ∃! i : Nat, ∃ item, items[i]? = some item ∧ p item = true := by
  have hzero : ∀ items : List α, items.countP p = 0 ↔ ∀ (i : Nat) (item : α), items[i]? = some item → p item ≠ true := by
    intro items
    rw [List.countP_eq_zero]
    exact ⟨fun h i item hitem => h item (List.mem_of_getElem? hitem), fun h item hitem =>
      (List.mem_iff_getElem?.mp hitem).elim fun i hi => h i item hi⟩
  induction items with
  | nil => simp [ExistsUnique]
  | cons first items ih =>
    rw [List.countP_cons]
    by_cases hfirst : p first = true
    · rw [if_pos hfirst, Nat.add_eq_right, hzero]
      constructor
      · refine fun h => ⟨0, ⟨first, rfl, hfirst⟩, ?_⟩
        rintro (_ | i) ⟨item, hitem, hp⟩
        · rfl
        · exact absurd hp (h i item hitem)
      · rintro ⟨i, -, hunique⟩ j item hitem hp
        have h0 := hunique 0 ⟨first, rfl, hfirst⟩
        have hj := hunique (j + 1) ⟨item, hitem, hp⟩
        omega
    · rw [if_neg hfirst, Nat.add_zero]
      refine ih.trans ?_
      constructor
      · rintro ⟨i, hi, hunique⟩
        refine ⟨i + 1, hi, ?_⟩
        rintro (_ | j) ⟨item, hitem, hp⟩
        · exact absurd (Option.some.inj hitem ▸ hp) hfirst
        · rw [hunique j ⟨item, hitem, hp⟩]
      · rintro ⟨_ | i, ⟨item, hitem, hp⟩, hunique⟩
        · exact absurd (Option.some.inj hitem ▸ hp) hfirst
        · exact ⟨i, ⟨item, hitem, hp⟩, fun j hj => Nat.succ.inj (hunique (j + 1) hj)⟩

theorem Pattern.isUnique_iff (pattern : Pattern) (image : List UInt8) :
    pattern.isUnique image = true ↔ ∃! i, pattern.MatchesAt image i := by
  rw [isUnique, isUniqueIn_iff, Bool.toNat_false, Nat.zero_add, countP_eq_one_iff]
  simp only [matchesAt_iff]

/-! ## Patterns that are printed -/

/-- An octet as it is read again: a nibble that was left out is a wildcard. -/
def PatternOctet.padded : PatternOctet → PatternOctet
  | .full high low => .full high low
  | .partialNibble nibble => .full nibble .wildcard

theorem PatternOctet.isMatch_padded (octet : PatternOctet) : octet.padded.isMatch = octet.isMatch := by
  cases octet with
  | full high low => rfl
  | partialNibble nibble =>
    funext byte
    exact Bool.and_true _

/-- A nibble is printed as one character, which is read as the nibble. -/
theorem display_nibble {nibble : PatternNibble} (h : nibble.IsNibble) :
    ∃ c, nibble.display = [c] ∧ c ≠ ' ' ∧ PatternNibble.parse c = some nibble := by
  cases nibble with
  | wildcard => exact ⟨'?', rfl, by decide, rfl⟩
  | exact n =>
    let digits := fun n => (Nat.toDigits 16 n).map Char.toUpper
    have hdigits : ∀ n < 16, (digits n).length = 1 ∧ (digits n).head? ≠ some ' ' ∧
        (digits n).head?.bind PatternNibble.parse = some (.exact n.toUInt8) := by decide
    obtain ⟨hlength, hspace, hparse⟩ := hdigits n.toNat (UInt8.lt_iff_toNat_lt.mp h)
    obtain ⟨c, hc⟩ := List.length_eq_one_iff.mp hlength
    rw [hc] at hspace hparse
    refine ⟨c, hc, fun heq => hspace (heq ▸ rfl), hparse.trans ?_⟩
    rw [Nat.toUInt8, UInt8.ofNat_toNat]

/-- An octet of a byte is printed as two characters, which are read as its nibbles. -/
theorem display_octet {octet : PatternOctet} (h : octet.IsByte) :
    ∃ a b high low, octet.display = [a, b] ∧ a ≠ ' ' ∧ b ≠ ' ' ∧ PatternNibble.parse a = some high ∧ PatternNibble.parse b = some low ∧
      octet.padded = .full high low := by
  cases octet with
  | full high low =>
    obtain ⟨a, ha, hspace, hparse⟩ := display_nibble h.1
    obtain ⟨b, hb, hspace', hparse'⟩ := display_nibble h.2
    exact ⟨a, b, high, low, by rw [PatternOctet.display, ha, hb]; rfl, hspace, hspace', hparse, hparse', rfl⟩
  | partialNibble nibble =>
    obtain ⟨a, ha, hspace, hparse⟩ := display_nibble h
    exact ⟨a, '?', nibble, .wildcard, by rw [PatternOctet.display, ha]; rfl, hspace, by decide, hparse, rfl, rfl⟩

namespace Pattern

/-- Two characters of an octet are read before the rest. -/
theorem fromStr_cons {a b : Char} {high low : PatternNibble} {rest : List Char} {pattern : Pattern} (ha : a ≠ ' ') (hb : b ≠ ' ')
    (hhigh : PatternNibble.parse a = some high) (hlow : PatternNibble.parse b = some low) (hrest : fromStr rest = some pattern) :
    fromStr (a :: b :: rest) = some (.full high low :: pattern) := by
  obtain ⟨nibbles, hnibbles, rfl⟩ := Option.map_eq_some_iff.mp hrest
  rw [fromStr, List.filter_cons_of_pos (by simpa using ha), List.filter_cons_of_pos (by simpa using hb), List.mapM_cons, hhigh,
    List.mapM_cons, hlow, hnibbles]
  rfl

theorem fromStr_space (rest : List Char) : fromStr (' ' :: rest) = fromStr rest := by
  rw [fromStr, fromStr, List.filter_cons_of_neg (by decide)]

/-- A pattern of bytes is read as it was printed, its octets padded. -/
theorem fromStr_display {pattern : Pattern} (h : pattern.IsBytePattern) :
    fromStr pattern.display = some (pattern.map PatternOctet.padded) := by
  induction pattern using display.induct with
  | case1 => rfl
  | case2 octet =>
    obtain ⟨a, b, high, low, hdisplay, ha, hb, hhigh, hlow, hpadded⟩ := display_octet (h octet List.mem_cons_self)
    rw [display, hdisplay, List.map_cons, hpadded]
    exact fromStr_cons ha hb hhigh hlow rfl
  | case3 octet rest hne ih =>
    obtain ⟨a, b, high, low, hdisplay, ha, hb, hhigh, hlow, hpadded⟩ := display_octet (h octet List.mem_cons_self)
    rw [display.eq_3 _ _ hne, hdisplay, List.map_cons, hpadded]
    have hrest := ih fun octet hoctet => h octet (List.mem_cons_of_mem _ hoctet)
    exact fromStr_cons ha hb hhigh hlow ((fromStr_space _).trans hrest)

theorem matchesAt_padded (pattern : Pattern) (image : List UInt8) (i : Nat) :
    Pattern.MatchesAt (pattern.map PatternOctet.padded) image i ↔ pattern.MatchesAt image i := by
  simp only [MatchesAt, List.forall₂_map_left_iff, PatternOctet.isMatch_padded]

end Pattern

/-! ## The search is exact -/

/-- What is asked of the search for a pattern in an image. -/
structure IsExactIn (pattern : Pattern) (image : List UInt8) : Prop where
  least : ∀ i, pattern.search image = some i ↔ pattern.MatchesAt image i ∧ ∀ j < i, ¬ pattern.MatchesAt image j
  absent : pattern.search image = none ↔ ∀ i, ¬ pattern.MatchesAt image i
  unique : pattern.isUnique image = true ↔ ∃! i, pattern.MatchesAt image i

/-- What is asked of a pattern: the search for it is exact in every image, and when it is a pattern of bytes then it is read as it was
printed. -/
structure IsExact (pattern : Pattern) : Prop where
  inImage : ∀ image, IsExactIn pattern image
  printed : pattern.IsBytePattern → ∃ parsed : Pattern, Pattern.fromStr pattern.display = some parsed ∧ parsed ≠ [] ∧
    ∀ image i, parsed.MatchesAt image i ↔ pattern.MatchesAt image i

/-- The search gives the least offset at which a pattern matches, the check tells whether there is one such offset, and a pattern of bytes
that is printed and read again matches at the same offsets of every image. -/
theorem pattern_search_exact (pattern : Pattern) (hnonempty : pattern ≠ []) : IsExact pattern where
  inImage image := ⟨pattern.search_eq_some_iff image, pattern.search_eq_none_iff image, pattern.isUnique_iff image⟩
  printed h := ⟨_, Pattern.fromStr_display h, mt List.map_eq_nil_iff.mp hnonempty, pattern.matchesAt_padded⟩

/-- A wildcard at the end of the first octet and a nibble left out in the second one. -/
def samplePattern : Pattern := [.full (.exact 8) .wildcard, .partialNibble (.exact 5)]

example : samplePattern.search [0x8D, 0x8B, 0x5C, 0x85, 0x51] = some 1 ∧ samplePattern.isUnique [0x8D, 0x8B, 0x5C, 0x85, 0x51] = false := by
  decide

theorem pattern_search_exact_sample : IsExact samplePattern := pattern_search_exact samplePattern (by decide)

end Scbl.Hooks.Patterns
