import Mathlib.Data.List.AList
import Mathlib.Data.Finset.Card
import Mathlib.Order.Interval.Finset.Nat
import Mathlib.Algebra.Order.BigOperators.Group.List
import Mathlib.Algebra.Order.Ring.Nat

/-!
# Messages cut into pieces that count down

A message cut into `n` chunks numbers them `n - 1, …, 0` in order: `chunkAt chunks i` is the chunk with number `i`. `gather m h`
joins the pieces a map holds under the numbers `h, …, 1`.

A receiver that knows only the highest number it has seen cannot tell a message from a tail of it: `gather_eq` says that the
pieces `h, …, 1` of a message, joined and completed by the last chunk, are the message less its first `n - 1 - h` chunks.
-/

namespace Scbl.Lib

section Gather

variable {α : Type}

/-- The pieces under the numbers `h, …, 1`, joined in this order; `none` when one is missing. -/
def gather (m : Nat → Option (List α)) : Nat → Option (List α)
  | 0 => some []
  | h + 1 => do
    let piece ← m (h + 1)
    let rest ← gather m h
    return piece ++ rest

/-- The chunk with number `i`, counting down to 0. -/
def chunkAt (chunks : List (List α)) (i : Nat) : Option (List α) := chunks.reverse[i]?

/-- A chunk has a number below the number of chunks. -/
theorem chunkAt_isSome_iff (chunks : List (List α)) (i : Nat) : (chunkAt chunks i).isSome ↔ i < chunks.length := by
  rw [chunkAt, isSome_getElem?, List.length_reverse]

/-- The chunk with number `i` is the one at place `n - 1 - i`. -/
theorem chunkAt_eq (chunks : List (List α)) {i : Nat} (hi : i < chunks.length) :
    chunkAt chunks i = chunks[chunks.length - 1 - i]? := by
  rw [chunkAt, List.getElem?_reverse hi]

/-- The chunks numbered `h, …, 1`, joined, are the last `h + 1` chunks less the last one. -/
theorem gather_eq {chunks : List (List α)} {last : List α} {m : Nat → Option (List α)} {h : Nat}
    (hh : h < chunks.length) (hlast : chunkAt chunks 0 = some last)
    (hm : ∀ i, 1 ≤ i → i ≤ h → m i = chunkAt chunks i) :
    ∃ joined, gather m h = some joined ∧ joined ++ last = (chunks.drop (chunks.length - 1 - h)).flatten := by
  induction h with
  | zero =>
    refine ⟨[], rfl, ?_⟩
    rw [chunkAt_eq chunks hh, List.getElem?_eq_getElem (by omega)] at hlast
    rw [List.drop_eq_getElem_cons (by omega), Option.some.inj hlast, List.drop_of_length_le (by omega)]
    simp
  | succ h ih =>
    obtain ⟨joined, hj, hjl⟩ := ih (by omega) (fun i h1 h2 => hm i h1 (by omega))
    have hpiece := hm (h + 1) (by omega) (Nat.le_refl _)
    rw [chunkAt_eq chunks hh, List.getElem?_eq_getElem (by omega)] at hpiece
    refine ⟨_ ++ joined, by rw [gather, hpiece, hj]; rfl, ?_⟩
    rw [List.append_assoc, hjl, List.drop_eq_getElem_cons (show chunks.length - 1 - (h + 1) < chunks.length by omega),
      List.flatten_cons, show chunks.length - 1 - (h + 1) + 1 = chunks.length - 1 - h by omega]

/-- Dropping chunks shortens the message, when no chunk is empty. -/
theorem flatten_drop_ne {chunks : List (List α)} (hne : ∀ c ∈ chunks, c ≠ []) {d : Nat} (hd : 0 < d)
    (hc : chunks ≠ []) : (chunks.drop d).flatten ≠ chunks.flatten := by
  intro he
  have hl : ((chunks.take d).flatten).length = 0 := by
    have hs : (chunks.take d).flatten ++ (chunks.drop d).flatten = chunks.flatten := by
      rw [← List.flatten_append, List.take_append_drop]
    have hlen := congrArg List.length hs
    rw [List.length_append, he] at hlen
    omega
  cases chunks with
  | nil => exact hc rfl
  | cons c cs =>
    obtain ⟨d, rfl⟩ := Nat.exists_eq_succ_of_ne_zero (Nat.pos_iff_ne_zero.mp hd)
    rw [List.take_succ_cons, List.flatten_cons, List.length_append] at hl
    exact hne c List.mem_cons_self (List.length_eq_zero_iff.mp (by omega))

end Gather

/-! ## Counting the numbers -/

/-- Distinct numbers from `1` to `h` that are `h` many are all of them. -/
theorem mem_of_nodup_of_length {ids : List Nat} (hnd : ids.Nodup) {h : Nat} (hb : ∀ i ∈ ids, 1 ≤ i ∧ i ≤ h)
    (hlen : ids.length = h) {i : Nat} (h1 : 1 ≤ i) (h2 : i ≤ h) : i ∈ ids := by
  have hsub : ids.toFinset ⊆ Finset.Icc 1 h := by
    intro j hj
    exact Finset.mem_Icc.mpr (hb j (List.mem_toFinset.mp hj))
  have hcard : (Finset.Icc 1 h).card ≤ ids.toFinset.card := by
    rw [List.toFinset_card_of_nodup hnd, hlen, Nat.card_Icc, Nat.add_sub_cancel]
  have heq := Finset.eq_of_subset_of_card_le hsub hcard
  exact List.mem_toFinset.mp (heq ▸ Finset.mem_Icc.mpr ⟨h1, h2⟩)

/-- Distinct numbers that are exactly `1, …, h` are `h` many. -/
theorem length_of_nodup_of_mem {ids : List Nat} (hnd : ids.Nodup) {h : Nat} (hb : ∀ i, i ∈ ids ↔ 1 ≤ i ∧ i ≤ h) :
    ids.length = h := by
  have heq : ids.toFinset = Finset.Icc 1 h := by
    ext j
    rw [List.mem_toFinset, Finset.mem_Icc, hb]
  rw [← List.toFinset_card_of_nodup hnd, heq, Nat.card_Icc, Nat.add_sub_cancel]

/-- Distinct numbers below `n` weigh at most what all the numbers below `n` weigh. -/
theorem sum_map_le_range {ids : List Nat} (hnd : ids.Nodup) {n : Nat} (hb : ∀ i ∈ ids, i < n) (w : Nat → Nat) :
    (ids.map w).sum ≤ ((List.range n).map w).sum := by
  obtain ⟨l, hperm, hsub⟩ := hnd.subperm (fun i hi => List.mem_range.mpr (hb i hi))
  rw [← (hperm.map w).sum_eq]
  exact (hsub.map w).sum_le_sum (fun _ _ => Nat.zero_le _)

/-- The chunks, by number, have together the length of the message. -/
theorem sum_length_chunkAt {α : Type} (chunks : List (List α)) :
    ((List.range chunks.length).map (fun i => ((chunkAt chunks i).getD []).length)).sum = chunks.flatten.length := by
  have hmap : (List.range chunks.length).map (fun i => ((chunkAt chunks i).getD []).length) =
      chunks.reverse.map List.length := by
    refine List.ext_getElem (by simp) (fun i h1 h2 => ?_)
    have hi : i < chunks.reverse.length := by simpa using h2
    rw [List.getElem_map, List.getElem_map, List.getElem_range, chunkAt, List.getElem?_eq_getElem hi, Option.getD_some]
  rw [hmap, List.map_reverse, List.sum_reverse, List.length_flatten]

/-! ## Cutting a message -/

section Chunks

variable {α : Type}

/-- The consecutive pieces of length `n`, the last one possibly shorter; `fuel` bounds their number. -/
def chunksWithin (n : Nat) : Nat → List α → List (List α)
  | 0, _ => []
  | _ + 1, [] => []
  | fuel + 1, xs => xs.take n :: chunksWithin n fuel (xs.drop n)

/-- The consecutive pieces of length `n` of a list, the last one possibly shorter. -/
def chunks (n : Nat) (xs : List α) : List (List α) := chunksWithin n xs.length xs

/-- With fuel for every element, the pieces make up the list. -/
theorem flatten_chunksWithin {n : Nat} (hn : 0 < n) (fuel : Nat) (xs : List α) (h : xs.length ≤ fuel) :
    (chunksWithin n fuel xs).flatten = xs := by
  induction fuel generalizing xs with
  | zero => rw [List.length_eq_zero_iff.mp (Nat.le_zero.mp h)]; rfl
  | succ fuel ih =>
    cases xs with
    | nil => rfl
    | cons x xs =>
      have hl : ((x :: xs).drop n).length ≤ fuel := by
        rw [List.length_drop]
        simp only [List.length_cons] at h ⊢
        omega
      rw [chunksWithin, List.flatten_cons, ih _ hl, List.take_append_drop]
      exact nofun

/-- The pieces are not empty. -/
theorem ne_nil_of_mem_chunksWithin {n : Nat} (hn : 0 < n) (fuel : Nat) (xs : List α) :
    ∀ c ∈ chunksWithin n fuel xs, c ≠ [] := by
  induction fuel generalizing xs with
  | zero => exact fun c hc => (nomatch hc)
  | succ fuel ih =>
    cases xs with
    | nil => exact fun c hc => (nomatch hc)
    | cons x xs =>
      obtain ⟨n, rfl⟩ := Nat.exists_eq_succ_of_ne_zero (Nat.pos_iff_ne_zero.mp hn)
      intro c hc
      rcases List.mem_cons.mp hc with rfl | hc
      · exact List.cons_ne_nil _ _
      · exact ih _ c hc

/-- The pieces have at most `n` elements. -/
theorem length_le_of_mem_chunksWithin {n : Nat} (fuel : Nat) (xs : List α) : ∀ c ∈ chunksWithin n fuel xs, c.length ≤ n := by
  induction fuel generalizing xs with
  | zero => exact fun c hc => absurd hc List.not_mem_nil
  | succ fuel ih =>
    cases xs with
    | nil => exact fun c hc => absurd hc List.not_mem_nil
    | cons x xs =>
      intro c hc
      rcases List.mem_cons.mp hc with rfl | hc
      · exact List.length_take_le _ _
      · exact ih _ c hc

/-- There are at most `m` pieces of a list of `n * m` elements. -/
theorem length_chunksWithin_le {n : Nat} (fuel m : Nat) (xs : List α) (h : xs.length ≤ n * m) :
    (chunksWithin n fuel xs).length ≤ m := by
  induction fuel generalizing m xs with
  | zero => exact Nat.zero_le m
  | succ fuel ih =>
    cases xs with
    | nil => exact Nat.zero_le m
    | cons x xs =>
      cases m with
      | zero => exact absurd h (by simp)
      | succ m =>
        have hl : ((x :: xs).drop n).length ≤ n * m := by
          rw [List.length_drop, Nat.sub_le_iff_le_add, ← Nat.mul_succ]
          exact h
        exact Nat.succ_le_succ (ih m _ hl)

/-- The pieces make up the list. -/
theorem flatten_chunks {n : Nat} (hn : 0 < n) (xs : List α) : (chunks n xs).flatten = xs :=
  flatten_chunksWithin hn xs.length xs (Nat.le_refl _)

/-- The pieces are not empty. -/
theorem ne_nil_of_mem_chunks {n : Nat} (hn : 0 < n) {xs c : List α} (hc : c ∈ chunks n xs) : c ≠ [] :=
  ne_nil_of_mem_chunksWithin hn xs.length xs c hc

/-- The pieces have at most `n` elements. -/
theorem length_le_of_mem_chunks {n : Nat} {xs c : List α} (hc : c ∈ chunks n xs) : c.length ≤ n :=
  length_le_of_mem_chunksWithin xs.length xs c hc

/-- There are at most `m` pieces of a list of `n * m` elements. -/
theorem length_chunks_le {n m : Nat} {xs : List α} (h : xs.length ≤ n * m) :
    (chunks n xs).length ≤ m :=
  length_chunksWithin_le xs.length m xs h

/-- A list with elements has a piece. -/
theorem chunks_ne_nil {n : Nat} {xs : List α} (h : xs ≠ []) : chunks n xs ≠ [] := by
  cases xs with
  | nil => exact absurd rfl h
  | cons x xs => exact List.cons_ne_nil _ _

end Chunks

end Scbl.Lib
