import Mathlib.Data.List.Basic

/-!
# Windows of a list

`window` reads a stretch of a list and `overwrite` writes one in place, as a slice of a buffer is read and copied into. An overwritten
stretch reads back as what was written, and a window beside it reads as before.
-/

namespace Scbl.Lib

variable {α : Type}

/-- The `n` items from `off` on. -/
def window (off n : Nat) (xs : List α) : List α := (xs.drop off).take n

/-- The list with `new` written over its items from `off` on. -/
def overwrite (off : Nat) (new xs : List α) : List α := xs.take off ++ new ++ xs.drop (off + new.length)

/-- Overwriting inside a list keeps its length. -/
theorem length_overwrite {off : Nat} {new xs : List α} (h : off + new.length ≤ xs.length) :
    (overwrite off new xs).length = xs.length := by
  simp only [overwrite, List.length_append, List.length_take, List.length_drop]
  omega

/-- An item before the overwritten stretch is as it was. -/
theorem getElem?_overwrite_before {off : Nat} {new xs : List α} (h : off ≤ xs.length) {i : Nat} (hi : i < off) :
    (overwrite off new xs)[i]? = xs[i]? := by
  have hlen : (xs.take off).length = off := List.length_take_of_le h
  rw [overwrite, List.append_assoc, List.getElem?_append_left (hlen.symm ▸ hi), List.getElem?_take_of_lt hi]

/-- An item behind the overwritten stretch is as it was. -/
theorem getElem?_overwrite_behind {off : Nat} {new xs : List α} (h : off ≤ xs.length) {i : Nat} (hi : off + new.length ≤ i) :
    (overwrite off new xs)[i]? = xs[i]? := by
  have hlen : (xs.take off ++ new).length = off + new.length := by rw [List.length_append, List.length_take_of_le h]
  rw [overwrite, List.getElem?_append_right (hlen.symm ▸ hi), hlen, List.getElem?_drop]
  congr 1
  omega

/-- Two windows of one size are equal when their items are. -/
theorem window_congr {off n : Nat} {xs ys : List α} (h : ∀ i, off ≤ i → i < off + n → xs[i]? = ys[i]?) :
    window off n xs = window off n ys := by
  refine List.ext_getElem? fun i => ?_
  rw [window, window]
  by_cases hi : i < n
  · rw [List.getElem?_take_of_lt hi, List.getElem?_take_of_lt hi, List.getElem?_drop, List.getElem?_drop]
    exact h _ (Nat.le_add_right _ _) (by omega)
  · rw [List.getElem?_take_eq_none (Nat.le_of_not_lt hi), List.getElem?_take_eq_none (Nat.le_of_not_lt hi)]

/-- What was written is read back. -/
theorem window_overwrite_self {off : Nat} {new xs : List α} (h : off ≤ xs.length) {n : Nat} (hn : new.length = n) :
    window off n (overwrite off new xs) = new := by
  have hlen : (xs.take off).length = off := List.length_take_of_le h
  rw [window, overwrite, List.append_assoc, List.drop_left' hlen, List.take_left' hn]

/-- A window before the overwritten stretch reads as it did. -/
theorem window_overwrite_before {off : Nat} {new xs : List α} (h : off ≤ xs.length) {a n : Nat} (ha : a + n ≤ off) :
    window a n (overwrite off new xs) = window a n xs :=
  window_congr fun _ _ hi => getElem?_overwrite_before h (Nat.lt_of_lt_of_le hi ha)

/-- A window behind the overwritten stretch reads as it did. -/
theorem window_overwrite_behind {off : Nat} {new xs : List α} (h : off ≤ xs.length) {a n : Nat} (ha : off + new.length ≤ a) :
    window a n (overwrite off new xs) = window a n xs :=
  window_congr fun _ hi _ => getElem?_overwrite_behind h (Nat.le_trans ha hi)

end Scbl.Lib
