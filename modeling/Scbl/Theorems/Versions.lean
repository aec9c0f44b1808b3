import Scbl.Launcher.ComponentVersion
import Scbl.Manager.ComponentVersion
import Mathlib.Data.List.Lex
import Mathlib.Order.Compare

/-!
# The order of component versions

The server refuses to publish a version whose tuple is smaller than the published one, and the launcher refuses one that compares as
older. Both read the numbers of a version; the tuples are ordered as lists, the launcher fills the shorter one with zeros and reads
each number as an `int`. The two agree on the versions whose numbers fit and of which neither has only zeros after the other.
-/

namespace Scbl

open Scbl.Lib Scbl.Manager Scbl.Launcher

/-- A version that the server accepts: what was given, the text that is kept, and its tuple. -/
structure AcceptedVersion where
  given : Text
  text : Text
  tuple : List Nat
  valid : validateVersion given = .ok text
  numbered : versionTuple text = .ok tuple

/-- The numbers in a version. -/
def numbersOf (version : Text) : List Nat := (digitRuns version).map digitsValue

/-- The second has the numbers of the first, and then one or more zeros. -/
def ZeroExtends (left right : List Nat) : Prop := ∃ k, 0 < k ∧ right = left ++ List.replicate k 0

/-- Every number fits an `int`, and neither version extends the other by zeros. -/
structure Comparable (left right : List Nat) : Prop where
  fits : ∀ n ∈ left ++ right, n < 2 ^ 31
  notLonger : ¬ ZeroExtends left right
  notShorter : ¬ ZeroExtends right left

namespace VersionAux

/-- The loop, one index at a time. -/
theorem compareNumbers_step {left right : List Nat} (h : ¬ (left = [] ∧ right = [])) :
    compareNumbers left right =
      (compare (left.getD 0 0) (right.getD 0 0)).then (compareNumbers left.tail right.tail) := by
  have hlen : max left.length right.length = max left.tail.length right.tail.length + 1 := by
    have hpos : 0 < left.length ∨ 0 < right.length := by
      simp only [List.length_pos_iff]
      tauto
    simp only [List.length_tail]
    omega
  have htail : ∀ (l : List Nat) (index : Nat), l.getD (index + 1) 0 = l.tail.getD index 0 := by
    intro l index
    cases l with
    | nil => rfl
    | cons a l => rfl
  have hstep : compareAt left right ∘ Nat.succ = compareAt left.tail right.tail := by
    funext index
    simp only [Function.comp_apply, compareAt, htail, Nat.succ_eq_add_one]
  rw [compareNumbers, hlen, List.range_succ_eq_map, List.map_cons, List.map_map, hstep, List.find?_cons]
  cases hcmp : compareAt left right 0 with
  | eq =>
    rw [compareAt] at hcmp
    rw [hcmp]
    rfl
  | lt =>
    rw [compareAt] at hcmp
    rw [hcmp]
    rfl
  | gt =>
    rw [compareAt] at hcmp
    rw [hcmp]
    rfl

theorem compareNumbers_nil : compareNumbers [] [] = .eq := rfl

theorem compareNumbers_cons (a b : Nat) (left right : List Nat) :
    compareNumbers (a :: left) (b :: right) = (compare a b).then (compareNumbers left right) := by
  rw [compareNumbers_step (by simp)]
  rfl

/-- Missing numbers are zeros: against no number, a list is greater unless it has only zeros. -/
theorem compareNumbers_nil_left (right : List Nat) :
    compareNumbers [] right = if ∀ n ∈ right, n = 0 then .eq else .lt := by
  induction right with
  | nil => rfl
  | cons b right ih =>
    rw [compareNumbers_step (by simp), List.tail_nil, List.tail_cons, ih]
    cases b with
    | zero => simp
    | succ b => simp [compare_lt_iff_lt.2 (Nat.succ_pos b)]

theorem compareNumbers_nil_right (left : List Nat) :
    compareNumbers left [] = if ∀ n ∈ left, n = 0 then .eq else .gt := by
  induction left with
  | nil => rfl
  | cons a left ih =>
    rw [compareNumbers_step (by simp), List.tail_nil, List.tail_cons, ih]
    cases a with
    | zero => simp
    | succ a => simp [compare_gt_iff_gt.2 (Nat.succ_pos a)]

/-- A list extends the empty one by zeros when it is not empty and has only zeros. -/
theorem zeroExtends_nil_left {right : List Nat} : ZeroExtends [] right ↔ right ≠ [] ∧ ∀ n ∈ right, n = 0 := by
  constructor
  · rintro ⟨k, hk, rfl⟩
    refine ⟨?_, ?_⟩
    · intro hnil
      have hlen := congrArg List.length hnil
      simp only [List.nil_append, List.length_replicate, List.length_nil] at hlen
      omega
    · intro n hn
      exact List.eq_of_mem_replicate (by simpa using hn)
  · rintro ⟨hne, hzero⟩
    exact ⟨right.length, List.length_pos_iff.2 hne, by rw [List.nil_append, ← List.eq_replicate_iff.2 ⟨rfl, hzero⟩]⟩

/-- No list with a number is extended to the empty one. -/
theorem not_zeroExtends_nil (a : Nat) (left : List Nat) : ¬ ZeroExtends (a :: left) [] := by
  rintro ⟨k, -, h⟩
  nomatch h

theorem zeroExtends_cons {a b : Nat} {left right : List Nat} :
    ZeroExtends (a :: left) (b :: right) ↔ a = b ∧ ZeroExtends left right := by
  simp only [ZeroExtends, List.cons_append, List.cons.injEq]
  constructor
  · rintro ⟨k, hk, rfl, hright⟩
    exact ⟨rfl, k, hk, hright⟩
  · rintro ⟨rfl, k, hk, hright⟩
    exact ⟨k, hk, rfl, hright⟩

/-- The loop and the order of lists agree unless one list extends the other by zeros. -/
theorem compareNumbers_eq_compare (left right : List Nat) :
    compareNumbers left right = compare left right ↔ ¬ ZeroExtends left right ∧ ¬ ZeroExtends right left := by
  induction left generalizing right with
  | nil =>
    cases right with
    | nil => simp [compareNumbers_nil, zeroExtends_nil_left]
    | cons b right =>
      rw [compareNumbers_nil_left, zeroExtends_nil_left]
      have hlt : compare ([] : List Nat) (b :: right) = .lt := rfl
      rw [hlt]
      split
      · rename_i hzero
        exact iff_of_false (by simp) (fun h => h.1 ⟨by simp, hzero⟩)
      · rename_i hzero
        exact iff_of_true rfl ⟨fun h => hzero h.2, not_zeroExtends_nil b right⟩
  | cons a left ih =>
    cases right with
    | nil =>
      rw [compareNumbers_nil_right, zeroExtends_nil_left]
      have hgt : compare (a :: left) ([] : List Nat) = .gt := rfl
      rw [hgt]
      split
      · rename_i hzero
        exact iff_of_false (by simp) (fun h => h.2 ⟨by simp, hzero⟩)
      · rename_i hzero
        exact iff_of_true rfl ⟨not_zeroExtends_nil a left, fun h => hzero h.2⟩
    | cons b right =>
      have hcons : compare (a :: left) (b :: right) = (compare a b).then (compare left right) := by
        rw [List.compare_cons_cons]
      rw [compareNumbers_cons, hcons, zeroExtends_cons, zeroExtends_cons]
      cases hcmp : compare a b with
      | eq =>
        obtain rfl := compare_eq_iff_eq.1 hcmp
        simpa using ih right
      | lt =>
        have hne : a ≠ b := (compare_lt_iff_lt.1 hcmp).ne
        simp [hne, hne.symm]
      | gt =>
        have hne : a ≠ b := (compare_gt_iff_gt.1 hcmp).ne'
        simp [hne, hne.symm]

/-- The numbers are read one after the other, and each has to fit. -/
theorem mapM_parseInt (runs : List Text) :
    runs.mapM parseInt = if ∀ n ∈ runs.map digitsValue, n < 2 ^ 31 then .ok (runs.map digitsValue) else .error .overflow := by
  induction runs with
  | nil => rfl
  | cons run runs ih =>
    rw [List.mapM_cons, ih, parseInt]
    simp only [List.map_cons, List.forall_mem_cons]
    by_cases hrun : digitsValue run < 2 ^ 31
    · by_cases hruns : ∀ n ∈ runs.map digitsValue, n < 2 ^ 31
      · rw [if_pos hrun, if_pos hruns, if_pos ⟨hrun, hruns⟩]
        rfl
      · rw [if_pos hrun, if_neg hruns, if_neg (fun h => hruns h.2)]
        rfl
    · rw [if_neg hrun]
      exact (if_neg (fun h => hrun h.1)).symm

/-- What the launcher makes of two versions that have numbers. -/
theorem compareComponentVersions_eq {current candidate : Text} (hcurrent : numbersOf current ≠ [])
    (hcandidate : numbersOf candidate ≠ []) :
    compareComponentVersions current candidate =
      if ∀ n ∈ numbersOf current ++ numbersOf candidate, n < 2 ^ 31 then
        .ok (compareNumbers (numbersOf current) (numbersOf candidate))
      else .error .overflow := by
  have hlen : ¬ ((numbersOf current).length = 0 ∨ (numbersOf candidate).length = 0) := by
    simp only [List.length_eq_zero_iff]
    tauto
  rw [compareComponentVersions, mapM_parseInt, mapM_parseInt, ← numbersOf, ← numbersOf]
  simp only [List.forall_mem_append]
  by_cases hleft : ∀ n ∈ numbersOf current, n < 2 ^ 31
  · rw [if_pos hleft]
    by_cases hright : ∀ n ∈ numbersOf candidate, n < 2 ^ 31
    · rw [if_pos hright, if_pos ⟨hleft, hright⟩]
      exact if_neg hlen
    · rw [if_neg hright, if_neg (fun h => hright h.2)]
      rfl
  · rw [if_neg hleft]
    exact (if_neg (fun h => hleft h.1)).symm

end VersionAux

open VersionAux

/-- The launcher orders two accepted versions as the server does exactly when their numbers are comparable. -/
theorem versions_ordered_iff (current candidate : AcceptedVersion) :
    compareComponentVersions current.text candidate.text = .ok (compare current.tuple candidate.tuple) ↔
      Comparable (numbersOf current.text) (numbersOf candidate.text) := by
  have htuple : ∀ version : AcceptedVersion, version.tuple = numbersOf version.text ∧ numbersOf version.text ≠ [] := by
    intro version
    have h := version.numbered
    simp only [versionTuple] at h
    split at h
    · nomatch h
    · rename_i hne
      exact ⟨(Except.ok.inj h).symm, hne⟩
  obtain ⟨hleft, hleftNe⟩ := htuple current
  obtain ⟨hright, hrightNe⟩ := htuple candidate
  rw [hleft, hright, compareComponentVersions_eq hleftNe hrightNe]
  constructor
  · intro h
    split at h
    · rename_i hfits
      obtain ⟨hlonger, hshorter⟩ := (compareNumbers_eq_compare _ _).1 (Except.ok.inj h)
      exact { fits := hfits, notLonger := hlonger, notShorter := hshorter }
    · nomatch h
  · intro h
    rw [if_pos h.fits, (compareNumbers_eq_compare _ _).2 ⟨h.notLonger, h.notShorter⟩]

/-- They do not on all: the tuple of `2.0` is smaller than that of `2.0.0`, and the launcher takes the two for equal. -/
theorem versions_ordered_false :
    ¬ ∀ current candidate : AcceptedVersion,
      compareComponentVersions current.text candidate.text = .ok (compare current.tuple candidate.tuple) := by
  intro h
  have hzero := h ⟨"2.0".toList, "2.0".toList, [2, 0], by decide, by decide⟩
    ⟨"2.0.0".toList, "2.0.0".toList, [2, 0, 0], by decide, by decide⟩
  exact absurd hzero (by decide)

end Scbl
