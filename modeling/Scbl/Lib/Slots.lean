import Mathlib.Data.List.Nodup

/-!
# Slots

Some items of a list occupy a slot. A list is `Exclusive` when no slot is occupied by two of its items. It stays so when items go,
when items leave their slots, and when an item comes whose slot is vacant.
-/

namespace Scbl.Lib

section Slots

variable {α κ : Type} {slot : α → Option κ} {l l' : List α}

/-- No slot is occupied by two items. -/
def Exclusive (slot : α → Option κ) (l : List α) : Prop := (l.filterMap slot).Nodup

/-- No item of a list occupies the slot of an item. -/
def Vacant (slot : α → Option κ) (l : List α) (a : α) : Prop := ∀ k, slot a = some k → ∀ b ∈ l, slot b ≠ some k

theorem exclusive_nil : Exclusive slot [] := List.nodup_nil

/-- Items go. -/
theorem Exclusive.sublist (h : Exclusive slot l) (hs : l'.Sublist l) : Exclusive slot l' :=
  List.Nodup.sublist (hs.filterMap slot) h

/-- A function that finds what another finds, or nothing, finds a part of the list. -/
theorem filterMap_sublist_filterMap {f g : α → Option κ} (h : ∀ a, f a = g a ∨ f a = none) (l : List α) :
    (l.filterMap f).Sublist (l.filterMap g) := by
  induction l with
  | nil => exact .refl _
  | cons a l ih =>
    rw [List.filterMap_cons, List.filterMap_cons]
    rcases h a with ha | ha
    · rw [ha]
      cases g a with
      | none => exact ih
      | some k => exact ih.cons_cons k
    · rw [ha]
      cases g a with
      | none => exact ih
      | some k => exact ih.cons k

/-- Items keep their slots or leave them. -/
theorem Exclusive.map (h : Exclusive slot l) {f : α → α} (hf : ∀ a, slot (f a) = slot a ∨ slot (f a) = none) :
    Exclusive slot (l.map f) := by
  unfold Exclusive
  rw [List.filterMap_map]
  exact List.Nodup.sublist (filterMap_sublist_filterMap hf l) h

/-- An item comes whose slot is vacant. -/
theorem Exclusive.append (h : Exclusive slot l) {a : α} (ha : Vacant slot l a) : Exclusive slot (l ++ [a]) := by
  unfold Exclusive
  rw [List.filterMap_append, List.filterMap_cons, List.filterMap_nil]
  cases hk : slot a with
  | none => exact (List.append_nil _).symm ▸ h
  | some k =>
    have hnew : k ∉ l.filterMap slot := by
      intro hm
      obtain ⟨b, hb, hbk⟩ := List.mem_filterMap.mp hm
      exact ha k hk b hb hbk
    exact List.nodup_append_comm.mp (List.nodup_cons.mpr ⟨hnew, h⟩)

/-- In an exclusive list at most one item occupies a slot. -/
theorem Exclusive.length_le_one [DecidableEq κ] (h : Exclusive slot l) (k : κ) {p : α → Bool}
    (hp : ∀ a ∈ l, p a = true → slot a = some k) : (l.filter p).length ≤ 1 := by
  have hcount := List.nodup_iff_count_le_one.mp h k
  rw [List.count_filterMap] at hcount
  rw [← List.countP_eq_length_filter]
  refine Nat.le_trans (List.countP_mono_left fun a ha hpa => ?_) hcount
  rw [hp a ha hpa]
  exact beq_self_eq_true (some k)

end Slots

end Scbl.Lib
