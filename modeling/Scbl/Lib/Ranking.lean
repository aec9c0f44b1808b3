import Mathlib.Data.List.Basic
import Mathlib.Order.Lattice

/-!
# The first of a ranking

Items ranked by a key, the highest first: an item is among the first if and only if not too many rank higher.
-/

namespace Scbl.Lib

section Ranking

variable {A S : Type} [LinearOrder S] (key : A → S)

/-- The items with the highest keys first; items with the same key stay in their order. -/
def rankBy (items : List A) : List A := items.mergeSort (fun a b => decide (key b ≤ key a))

/-- How many of the items rank higher. -/
def countHigher (items : List A) (a : A) : Nat := items.countP (fun b => decide (key a < key b))

variable {key}

theorem rankBy_perm (items : List A) : (rankBy key items).Perm items := List.mergeSort_perm _ _

theorem pairwise_rankBy (items : List A) : (rankBy key items).Pairwise (fun a b => key b ≤ key a) := by
  have hsorted := @List.pairwise_mergeSort _ (fun a b : A => decide (key b ≤ key a))
    (fun a b c hab hbc => decide_eq_true (le_trans (of_decide_eq_true hbc) (of_decide_eq_true hab)))
    (fun a b => by simpa using le_total (key b) (key a)) items
  exact hsorted.imp fun h => of_decide_eq_true h

/-- Where the keys fall strictly, an item is among the first if and only if fewer rank higher. -/
theorem mem_take_iff {items : List A} (h : items.Pairwise (fun a b => key b < key a)) (n : Nat) (a : A) :
    a ∈ items.take n ↔ a ∈ items ∧ countHigher key items a < n := by
  induction items generalizing n with
  | nil => simp
  | cons b items ih =>
    obtain ⟨hb, hitems⟩ := List.pairwise_cons.mp h
    cases n with
    | zero => simp
    | succ n =>
      have hcount : countHigher key (b :: items) a = countHigher key items a + if key a < key b then 1 else 0 := by
        simp [countHigher, List.countP_cons]
      rw [List.take_succ_cons, List.mem_cons, List.mem_cons, ih hitems, hcount]
      by_cases hab : a = b
      · subst hab
        have hnone : countHigher key items a = 0 := by
          rw [countHigher, List.countP_eq_zero]
          exact fun c hc => by simpa using le_of_lt (hb c hc)
        simp [hnone]
      · constructor
        · rintro (heq | ⟨hmem, hlt⟩)
          · exact absurd heq hab
          · rw [if_pos (hb a hmem)]
            exact ⟨.inr hmem, Nat.add_lt_add_right hlt 1⟩
        · rintro ⟨heq | hmem, hlt⟩
          · exact absurd heq hab
          · rw [if_pos (hb a hmem)] at hlt
            exact .inr ⟨hmem, Nat.lt_of_add_lt_add_right hlt⟩

/-- An item is among the first of a ranking without ties if and only if fewer rank higher. -/
theorem mem_take_rankBy {items : List A} (hkeys : (items.map key).Nodup) (n : Nat) (a : A) :
    a ∈ (rankBy key items).take n ↔ a ∈ items ∧ countHigher key items a < n := by
  have hperm := @rankBy_perm _ _ _ key items
  have hne : (rankBy key items).Pairwise (fun a b => key a ≠ key b) :=
    List.pairwise_map.mp ((hperm.map key).nodup_iff.mpr hkeys)
  have hstrict : (rankBy key items).Pairwise (fun a b => key b < key a) :=
    ((pairwise_rankBy items).and hne).imp fun h => lt_of_le_of_ne h.1 (Ne.symm h.2)
  rw [mem_take_iff hstrict, hperm.mem_iff, countHigher, hperm.countP_eq, ← countHigher]

end Ranking

end Scbl.Lib
