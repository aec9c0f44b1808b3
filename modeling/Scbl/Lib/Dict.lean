import Mathlib.Data.List.Basic

/-!
# Dictionaries that keep their order

A dictionary is the list of its items, with one item for a key; setting an item replaces it where it stands or puts it at the end.
-/

namespace Scbl.Lib.Dict

variable {K V : Type} [DecidableEq K]

/-- The value of a key. -/
def get (items : List (K × V)) (key : K) : Option V := (items.find? (fun item => item.1 = key)).map (·.2)

/-- Set the value of a key. -/
def set : List (K × V) → K → V → List (K × V)
  | [], key, value => [(key, value)]
  | item :: items, key, value => if item.1 = key then (key, value) :: items else item :: set items key value

@[simp] theorem get_nil (key : K) : get ([] : List (K × V)) key = none := rfl

theorem get_cons (item : K × V) (items : List (K × V)) (key : K) :
    get (item :: items) key = if item.1 = key then some item.2 else get items key := by
  by_cases h : item.1 = key
  · simp [get, h]
  · simp [get, h]

/-- The value of a key is in the first items, or else in the others. -/
theorem get_append (items items' : List (K × V)) (key : K) : get (items ++ items') key = (get items key).or (get items' key) := by
  induction items with
  | nil => rfl
  | cons item items ih =>
    rw [List.cons_append, get_cons, get_cons, ih]
    split <;> rfl

@[simp] theorem get_set_self (items : List (K × V)) (key : K) (value : V) : get (set items key value) key = some value := by
  induction items with
  | nil => simp [set, get_cons]
  | cons item items ih =>
    rw [set]
    split
    · rw [get_cons, if_pos rfl]
    · rename_i hne
      rw [get_cons, if_neg hne, ih]

theorem get_set_other (items : List (K × V)) {key key' : K} (value : V) (h : key' ≠ key) :
    get (set items key value) key' = get items key' := by
  induction items with
  | nil => rw [set, get_cons, if_neg h.symm]
  | cons item items ih =>
    rw [set]
    split
    · rename_i heq
      rw [get_cons, get_cons, if_neg h.symm, if_neg (by rw [heq]; exact h.symm)]
    · rw [get_cons, get_cons, ih]

/-- An item that is there is one that was there, or the new one. -/
theorem mem_set {items : List (K × V)} {key : K} {value : V} {item : K × V} (h : item ∈ set items key value) :
    item = (key, value) ∨ item ∈ items := by
  induction items with
  | nil => exact Or.inl (List.mem_singleton.1 h)
  | cons first items ih =>
    rw [set] at h
    split at h
    · rcases List.mem_cons.1 h with rfl | hmem
      · exact Or.inl rfl
      · exact Or.inr (List.mem_cons_of_mem _ hmem)
    · rcases List.mem_cons.1 h with rfl | hmem
      · exact Or.inr List.mem_cons_self
      · rcases ih hmem with rfl | hmem'
        · exact Or.inl rfl
        · exact Or.inr (List.mem_cons_of_mem _ hmem')

/-- Setting an item leaves one item for a key. -/
theorem nodup_set {items : List (K × V)} {key : K} {value : V} (h : (items.map Prod.fst).Nodup) :
    ((set items key value).map Prod.fst).Nodup := by
  induction items with
  | nil => simp [set]
  | cons first items ih =>
    obtain ⟨hfirst, hrest⟩ := List.nodup_cons.1 h
    rw [set]
    split
    · rename_i heq
      rw [List.map_cons, ← heq]
      exact h
    · rename_i hne
      refine List.nodup_cons.2 ⟨fun hmem => ?_, ih hrest⟩
      obtain ⟨item, hitem, hkey⟩ := List.mem_map.1 hmem
      rcases mem_set hitem with rfl | hitem
      · exact hne hkey.symm
      · exact hfirst (hkey ▸ List.mem_map_of_mem hitem)

/-- The value of a key is one of an item. -/
theorem mem_of_get {items : List (K × V)} {key : K} {value : V} (h : get items key = some value) : (key, value) ∈ items := by
  obtain ⟨item, hfind, rfl⟩ := Option.map_eq_some_iff.1 h
  have hkey : item.1 = key := by simpa using List.find?_some hfind
  subst hkey
  exact List.mem_of_find?_eq_some hfind

/-- The value of an item whose key is there once. -/
theorem get_of_mem {items : List (K × V)} (h : (items.map Prod.fst).Nodup) {key : K} {value : V} (hmem : (key, value) ∈ items) :
    get items key = some value := by
  induction items with
  | nil => nomatch hmem
  | cons item items ih =>
    obtain ⟨hitem, hitems⟩ := List.nodup_cons.1 h
    rw [get_cons]
    rcases List.mem_cons.1 hmem with rfl | hmem
    · rw [if_pos rfl]
    · rw [if_neg fun heq : item.1 = key => hitem (heq ▸ List.mem_map_of_mem hmem), ih hitems hmem]

/-- A key that is there once has its value among some of the items if that is one of them. -/
theorem get_filter {items : List (K × V)} (p : K × V → Bool) (h : (items.map Prod.fst).Nodup) (key : K) :
    get (items.filter p) key = (get items key).filter (fun value => p (key, value)) := by
  induction items with
  | nil => rfl
  | cons item items ih =>
    obtain ⟨hitem, hitems⟩ := List.nodup_cons.1 h
    rw [List.filter_cons, get_cons]
    by_cases hkey : item.1 = key
    · have hnone : get items key = none := by
        cases hget : get items key with
        | none => rfl
        | some value => exact absurd (List.mem_map_of_mem (mem_of_get hget)) (hkey ▸ hitem)
      subst hkey
      by_cases hp : p item = true
      · rw [if_pos hp, get_cons, if_pos rfl, if_pos rfl, Option.filter_some, if_pos hp]
      · rw [if_neg hp, ih hitems, hnone, if_pos rfl, Option.filter_some, if_neg hp]
        rfl
    · rw [if_neg hkey, ← ih hitems]
      split
      · rw [get_cons, if_neg hkey]
      · rfl

/-- A new key goes behind the others. -/
theorem set_of_get_none {items : List (K × V)} {key : K} (value : V) (h : get items key = none) :
    set items key value = items ++ [(key, value)] := by
  induction items with
  | nil => rfl
  | cons item items ih =>
    rw [get_cons] at h
    split at h
    · nomatch h
    · rename_i hne
      rw [set, if_neg hne, ih h, List.cons_append]

theorem set_append {items : List (K × V)} {key : K} (items' : List (K × V)) (value : V) (h : get items key = none) :
    set (items ++ items') key value = items ++ set items' key value := by
  induction items with
  | nil => rfl
  | cons item items ih =>
    rw [get_cons] at h
    split at h
    · nomatch h
    · rename_i hne
      rw [List.cons_append, set, if_neg hne, ih h, List.cons_append]

theorem get_eq_none_iff {items : List (K × V)} {key : K} : get items key = none ↔ key ∉ items.map Prod.fst := by
  induction items with
  | nil => simp
  | cons item items ih =>
    rw [get_cons, List.map_cons, List.mem_cons, not_or, ← ih]
    by_cases hkey : item.1 = key
    · simp [hkey]
    · simp [hkey, Ne.symm hkey]

end Scbl.Lib.Dict
