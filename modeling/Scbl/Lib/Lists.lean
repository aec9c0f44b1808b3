import Mathlib.Data.List.Lattice
import Mathlib.Data.List.Nodup

/-!
# Sets as lists

A set is kept as the list of its members, each of them once. Two lists of one set are permutations of each other.
-/

namespace Scbl.Lib

/-- A list holds the members of a set, each of them once. -/
structure Lists {α : Type} (xs : List α) (holds : α → Prop) : Prop where
  nodup : xs.Nodup
  mem : ∀ x, x ∈ xs ↔ holds x

variable {α : Type} {xs ys : List α} {holds holds' : α → Prop}

theorem Lists.perm (h : Lists xs holds) (h' : Lists ys holds') (hsame : ∀ x, holds x ↔ holds' x) : xs.Perm ys :=
  (List.perm_ext_iff_of_nodup h.nodup h'.nodup).2 fun x => (h.mem x).trans ((hsame x).trans (h'.mem x).symm)

theorem Lists.congr (h : Lists xs holds) (hsame : ∀ x, holds x ↔ holds' x) : Lists xs holds' :=
  ⟨h.nodup, fun x => (h.mem x).trans (hsame x)⟩

theorem Lists.union [BEq α] [LawfulBEq α] (h : Lists xs holds) (h' : Lists ys holds') : Lists (xs ∪ ys) (fun x => holds x ∨ holds' x) where
  nodup := h'.nodup.union xs
  mem x := by rw [List.mem_union_iff, h.mem, h'.mem]

theorem lists_nil : Lists ([] : List α) (fun _ => False) := ⟨List.nodup_nil, fun _ => iff_of_false List.not_mem_nil id⟩

theorem lists_singleton (x : α) : Lists [x] (fun y => x = y) := ⟨List.nodup_singleton x, fun y => by rw [List.mem_singleton, eq_comm]⟩

theorem lists_self (h : xs.Nodup) : Lists xs (· ∈ xs) := ⟨h, fun _ => Iff.rfl⟩

/-- Members that were left when the first occurrence of each was kept differ. -/
theorem nodup_eraseDups [BEq α] [LawfulBEq α] (xs : List α) : xs.eraseDups.Nodup := by
  induction hn : xs.length using Nat.strongRecOn generalizing xs with
  | ind n ih =>
    cases xs with
    | nil => exact List.nodup_nil
    | cons x xs =>
      rw [List.eraseDups_cons, List.nodup_cons]
      refine ⟨?_, ih _ ?_ _ rfl⟩
      · rw [List.mem_eraseDups, List.mem_filter]
        rintro ⟨-, hne⟩
        simp at hne
      · rw [← hn, List.length_cons]
        exact Nat.lt_succ_of_le (List.length_filter_le _ _)

end Scbl.Lib
