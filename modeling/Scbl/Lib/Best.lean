import Scbl.Lib.Dict
import Mathlib.Data.List.Induction
import Mathlib.Order.Lattice

/-!
# The best value of each key

A loop over some values enters each of them into a dictionary under all its keys, unless the key has a value that scores as high. At
the end a key has the value that scores highest of those under the key.
-/

namespace Scbl.Lib

section Best

variable {K V S : Type} [DecidableEq K] [LinearOrder S] (score : V → S)

/-- Enter a value under a key, if it is the first one or scores higher. -/
def keepBest (value : V) (best : List (K × V)) (key : K) : List (K × V) :=
  match Dict.get best key with
  | none => Dict.set best key value
  | some current => if score current < score value then Dict.set best key value else best

/-- The best value of each key. -/
def bestOf (keys : V → List K) (values : List V) : List (K × V) :=
  values.foldl (fun best value => (keys value).foldl (keepBest score value) best) []

/-- What a key has is a value under the key, and none of those scores higher. -/
def IsBest (keys : V → List K) (values : List V) (key : K) : Option V → Prop
  | none => ∀ v ∈ values, key ∉ keys v
  | some v => v ∈ values ∧ key ∈ keys v ∧ ∀ w ∈ values, key ∈ keys w → score w ≤ score v

/-- A value was taken into account for a key. -/
def Improves (value : V) (old new : Option V) : Prop :=
  ∃ v, new = some v ∧ (v = value ∨ old = some v) ∧ score value ≤ score v ∧ ∀ u, old = some u → score u ≤ score v

variable {score} {keys : V → List K}

theorem Improves.trans {value : V} {old mid new : Option V} (h : Improves score value old mid) (h' : Improves score value mid new) :
    Improves score value old new := by
  obtain ⟨v, rfl, hv, -, hold⟩ := h
  obtain ⟨w, rfl, hw, hscore, hmid⟩ := h'
  have hvw : score v ≤ score w := hmid v rfl
  refine ⟨w, rfl, ?_, hscore, fun u hu => le_trans (hold u hu) hvw⟩
  rcases hw with hw | hw
  · exact .inl hw
  · rw [← Option.some.inj hw]
    exact hv

/-- Entering a value under a key takes it into account for the key. -/
theorem improves_keepBest (value : V) (best : List (K × V)) (key : K) :
    Improves score value (Dict.get best key) (Dict.get (keepBest score value best key) key) := by
  unfold keepBest
  cases h : Dict.get best key with
  | none => exact ⟨value, Dict.get_set_self _ _ _, .inl rfl, le_refl _, fun _ hu => nomatch hu⟩
  | some current =>
    simp only []
    split
    · rename_i hlt
      refine ⟨value, Dict.get_set_self _ _ _, .inl rfl, le_refl _, fun u hu => ?_⟩
      rw [← Option.some.inj hu]
      exact le_of_lt hlt
    · rename_i hle
      refine ⟨current, h, .inr rfl, not_lt.mp hle, fun u hu => ?_⟩
      rw [← Option.some.inj hu]

variable (score)

/-- Entering a value under a key leaves the other keys alone. -/
theorem get_keepBest_other (value : V) (best : List (K × V)) {key key' : K} (h : key' ≠ key) :
    Dict.get (keepBest score value best key) key' = Dict.get best key' := by
  unfold keepBest
  cases Dict.get best key with
  | none => exact Dict.get_set_other _ _ h
  | some current =>
    simp only []
    split
    · exact Dict.get_set_other _ _ h
    · rfl

/-- Entering a value under some keys takes it into account for each of them and leaves the others alone. -/
theorem get_foldl_keepBest (value : V) (ks : List K) (best : List (K × V)) (key : K) :
    (key ∈ ks → Improves score value (Dict.get best key) (Dict.get (ks.foldl (keepBest score value) best) key)) ∧
      (key ∉ ks → Dict.get (ks.foldl (keepBest score value) best) key = Dict.get best key) := by
  induction ks generalizing best with
  | nil => exact ⟨fun h => (nomatch h), fun _ => rfl⟩
  | cons k ks ih =>
    obtain ⟨hin, hout⟩ := ih (keepBest score value best k)
    rw [List.foldl_cons]
    constructor
    · intro h
      by_cases hk : key = k
      · subst hk
        have hfirst : Improves score value (Dict.get best key) (Dict.get (keepBest score value best key) key) := improves_keepBest _ _ _
        by_cases hrest : key ∈ ks
        · exact hfirst.trans (hin hrest)
        · rw [hout hrest]
          exact hfirst
      · have hmem : key ∈ ks := (List.mem_cons.mp h).resolve_left hk
        rw [← get_keepBest_other score value best hk]
        exact hin hmem
    · intro h
      obtain ⟨hk, hrest⟩ := not_or.mp (List.mem_cons.not.mp h)
      rw [hout hrest, get_keepBest_other score value best hk]

variable (keys)

/-- At the end every key has the best value under it. -/
theorem isBest_bestOf (values : List V) (key : K) : IsBest score keys values key (Dict.get (bestOf score keys values) key) := by
  induction values using List.reverseRecOn with
  | nil => exact fun v hv => nomatch hv
  | append_singleton values value ih =>
    have hnext : bestOf score keys (values ++ [value]) = (keys value).foldl (keepBest score value) (bestOf score keys values) := by
      rw [bestOf, List.foldl_append]
      rfl
    obtain ⟨hin, hout⟩ := get_foldl_keepBest score value (keys value) (bestOf score keys values) key
    rw [hnext]
    by_cases hkey : key ∈ keys value
    · obtain ⟨v, hnew, hfrom, hscore, hold⟩ := hin hkey
      rw [hnew]
      generalize hget : Dict.get (bestOf score keys values) key = old at ih hfrom hold
      have hv : v ∈ values ++ [value] ∧ key ∈ keys v := by
        rcases hfrom with rfl | rfl
        · exact ⟨List.mem_append_right _ List.mem_cons_self, hkey⟩
        · exact ⟨List.mem_append_left _ ih.1, ih.2.1⟩
      refine ⟨hv.1, hv.2, fun w hw hkw => ?_⟩
      rcases List.mem_append.mp hw with hw | hw
      · cases old with
        | none => exact absurd hkw (ih w hw)
        | some u => exact le_trans (ih.2.2 w hw hkw) (hold u rfl)
      · rw [List.mem_singleton.mp hw]
        exact hscore
    · rw [hout hkey]
      generalize Dict.get (bestOf score keys values) key = old at ih
      have hnot : ∀ w ∈ values ++ [value], key ∈ keys w → w ∈ values := by
        intro w hw hkw
        rcases List.mem_append.mp hw with hw | hw
        · exact hw
        · rw [List.mem_singleton.mp hw] at hkw
          exact absurd hkw hkey
      cases old with
      | none => exact fun w hw hkw => ih w (hnot w hw hkw) hkw
      | some u => exact ⟨List.mem_append_left _ ih.1, ih.2.1, fun w hw hkw => ih.2.2 w (hnot w hw hkw) hkw⟩

variable {keys}

/-- Where the values of two lists correspond, with the same keys and scores, and no two values of the second list score the same, the
values of a key correspond. -/
theorem bestOf_rel {R : V → V → Prop} {values values' : List V} (hthere : ∀ v ∈ values, ∃ w ∈ values', R v w)
    (hback : ∀ w ∈ values', ∃ v ∈ values, R v w) (hkeys : ∀ v w, R v w → ∀ key, key ∈ keys v ↔ key ∈ keys w)
    (hscore : ∀ v w, R v w → score v = score w) (htie : ∀ w ∈ values', ∀ w' ∈ values', score w = score w' → w = w') (key : K) :
    Option.Rel R (Dict.get (bestOf score keys values) key) (Dict.get (bestOf score keys values') key) := by
  have hbest := isBest_bestOf score keys values key
  have hbest' := isBest_bestOf score keys values' key
  generalize Dict.get (bestOf score keys values) key = best at hbest
  generalize Dict.get (bestOf score keys values') key = best' at hbest'
  cases best with
  | none =>
    cases best' with
    | none => exact .none
    | some w =>
      obtain ⟨v, hv, hvw⟩ := hback w hbest'.1
      exact absurd ((hkeys v w hvw key).2 hbest'.2.1) (hbest v hv)
  | some v =>
    obtain ⟨w, hw, hvw⟩ := hthere v hbest.1
    have hkey : key ∈ keys w := (hkeys v w hvw key).1 hbest.2.1
    cases best' with
    | none => exact absurd hkey (hbest' w hw)
    | some w' =>
      obtain ⟨v', hv', hvw'⟩ := hback w' hbest'.1
      have hle : score w' ≤ score w := by
        rw [← hscore v w hvw, ← hscore v' w' hvw']
        exact hbest.2.2 v' hv' ((hkeys v' w' hvw' key).2 hbest'.2.1)
      rw [← htie w hw w' hbest'.1 (le_antisymm (hbest'.2.2 w hw hkey) hle)]
      exact .some hvw

end Best

end Scbl.Lib
