import Mathlib.Data.List.AList
import Mathlib.Data.List.FinRange

/-!
# Hash maps

A hash map is an `AList`. What it does not fix is the order in which it iterates: a `MapOrder` is one such order, a permutation of
the entries for every number of entries. `mapValues` changes the values under the keys they have, `retain` keeps the entries that
meet a condition.
-/

namespace Scbl.Lib

/-- The order in which a hash map iterates. -/
structure MapOrder where
  perm : ∀ n, Equiv.Perm (Fin n)

/-- The order of the list itself. -/
def MapOrder.listed : MapOrder := { perm := fun _ => Equiv.refl _ }

section

variable {α : Type}

/-- The entries in the order of the map. -/
def MapOrder.apply (order : MapOrder) (entries : List α) : List α :=
  List.ofFn (fun i => entries.get (order.perm entries.length i))

/-- Iterating reaches every entry once. -/
theorem MapOrder.apply_perm (order : MapOrder) (entries : List α) : (order.apply entries).Perm entries := by
  have h := (order.perm entries.length).ofFn_comp_perm entries.get
  rwa [List.ofFn_get] at h

/-- Iterating reaches the entries. -/
@[simp] theorem MapOrder.mem_apply (order : MapOrder) (entries : List α) (a : α) : a ∈ order.apply entries ↔ a ∈ entries :=
  (order.apply_perm entries).mem_iff

@[simp] theorem MapOrder.listed_apply (entries : List α) : MapOrder.listed.apply entries = entries := List.ofFn_get entries

end

section

variable {K V W : Type}

/-- The map with its values changed. -/
def mapValues (f : K → V → W) (m : AList (fun _ : K => V)) : AList (fun _ : K => W) where
  entries := m.entries.map (fun e => ⟨e.1, f e.1 e.2⟩)
  nodupKeys := by
    have h : (m.entries.map (fun e => (⟨e.1, f e.1 e.2⟩ : Sigma fun _ : K => W))).keys = m.entries.keys := by
      rw [List.keys, List.keys, List.map_map]
      rfl
    rw [List.NodupKeys, h]
    exact m.nodupKeys

/-- A lookup in the changed map. -/
theorem lookup_mapValues [DecidableEq K] (f : K → V → W) (m : AList (fun _ : K => V)) (k : K) :
    (mapValues f m).lookup k = (m.lookup k).map (f k) := by
  obtain ⟨entries, hnodup⟩ := m
  simp only [AList.lookup, mapValues]
  induction entries with
  | nil => rfl
  | cons e entries ih =>
    obtain ⟨k', v⟩ := e
    rw [List.map_cons]
    by_cases hk : k = k'
    · subst hk
      rw [List.dlookup_cons_eq, List.dlookup_cons_eq, Option.map_some]
    · rw [List.dlookup_cons_ne _ _ hk, List.dlookup_cons_ne _ _ hk]
      exact ih (List.nodupKeys_cons.mp hnodup).2

/-- The changed map has the keys of the map. -/
@[simp] theorem mem_mapValues [DecidableEq K] (f : K → V → W) (m : AList (fun _ : K => V)) (k : K) :
    k ∈ mapValues f m ↔ k ∈ m := by
  rw [← AList.lookup_isSome, lookup_mapValues, Option.isSome_map, AList.lookup_isSome]

/-- The entries of the map that meet a condition. -/
def retain (p : K → V → Bool) (m : AList (fun _ : K => V)) : AList (fun _ : K => V) where
  entries := m.entries.filter (fun e => p e.1 e.2)
  nodupKeys := List.NodupKeys.sublist List.filter_sublist m.nodupKeys

/-- A lookup in the retained entries. -/
theorem lookup_retain [DecidableEq K] (p : K → V → Bool) (m : AList (fun _ : K => V)) (k : K) :
    (retain p m).lookup k = (m.lookup k).filter (p k) := by
  ext v
  rw [Option.filter_eq_some_iff, ← Option.mem_def, ← Option.mem_def, AList.mem_lookup_iff, AList.mem_lookup_iff]
  exact List.mem_filter

/-- The entries of a list put into a map one after the other; of two entries with one key the last one counts. -/
def insertAll [DecidableEq K] (m : AList (fun _ : K => V)) (entries : List (K × V)) : AList (fun _ : K => V) :=
  entries.foldl (fun m e => m.insert e.1 e.2) m

theorem lookup_insertAll_of_notMem [DecidableEq K] {entries : List (K × V)} {k : K} (h : k ∉ entries.map (·.1))
    (m : AList (fun _ : K => V)) : (insertAll m entries).lookup k = m.lookup k := by
  induction entries generalizing m with
  | nil => rfl
  | cons e entries ih =>
    rw [List.map_cons, List.mem_cons, not_or] at h
    exact (ih h.2 (m.insert e.1 e.2)).trans (AList.lookup_insert_ne h.1)

/-- An entry is found when its key is there once. -/
theorem lookup_insertAll_of_mem [DecidableEq K] {entries : List (K × V)} (hnodup : (entries.map (·.1)).Nodup) {k : K} {v : V}
    (h : (k, v) ∈ entries) (m : AList (fun _ : K => V)) : (insertAll m entries).lookup k = some v := by
  induction entries generalizing m with
  | nil => nomatch h
  | cons e entries ih =>
    rw [List.map_cons, List.nodup_cons] at hnodup
    rcases List.mem_cons.mp h with rfl | h
    · exact (lookup_insertAll_of_notMem hnodup.1 _).trans (AList.lookup_insert _)
    · exact ih hnodup.2 h _

/-- What is found in a map into which entries were put is the last of them with the key, or what was there before. -/
theorem lookup_insertAll [DecidableEq K] (entries : List (K × V)) (m : AList (fun _ : K => V)) (k : K) :
    (insertAll m entries).lookup k = ((entries.reverse.find? (fun e => e.1 = k)).map (·.2)).or (m.lookup k) := by
  induction entries generalizing m with
  | nil => rfl
  | cons e entries ih =>
    have hstep : (insertAll m (e :: entries)).lookup k = (insertAll (m.insert e.1 e.2) entries).lookup k := rfl
    rw [hstep, ih, List.reverse_cons, List.find?_append, Option.map_or, Option.or_assoc]
    congr 1
    by_cases hk : e.1 = k
    · rw [List.find?_cons_of_pos (by simpa using hk), hk, AList.lookup_insert]
      rfl
    · rw [List.find?_cons_of_neg (by simpa using hk), AList.lookup_insert_ne (Ne.symm hk)]
      rfl

/-- What is found in a map into which entries were put is one of them, or was there before. -/
theorem mem_of_lookup_insertAll [DecidableEq K] {entries : List (K × V)} {m : AList (fun _ : K => V)} {k : K} {v : V}
    (h : (insertAll m entries).lookup k = some v) : (k, v) ∈ entries ∨ m.lookup k = some v := by
  induction entries generalizing m with
  | nil => exact Or.inr h
  | cons e entries ih =>
    rcases ih h with hmem | hl
    · exact Or.inl (List.mem_cons_of_mem _ hmem)
    · by_cases hk : k = e.1
      · subst hk
        rw [AList.lookup_insert] at hl
        exact Or.inl (by rw [← Option.some.inj hl]; exact List.mem_cons_self)
      · exact Or.inr (by rwa [AList.lookup_insert_ne hk] at hl)

/-- What is found after one insertion is what was put in, or was there before. -/
theorem lookup_insert_eq_some [DecidableEq K] {m : AList (fun _ : K => V)} {k k' : K} {v v' : V}
    (h : (m.insert k v).lookup k' = some v') : (k' = k ∧ v = v') ∨ m.lookup k' = some v' := by
  by_cases hk : k' = k
  · subst hk
    rw [AList.lookup_insert] at h
    exact .inl ⟨rfl, Option.some.inj h⟩
  · rw [AList.lookup_insert_ne hk] at h
    exact .inr h

/-- What is found after an entry was taken out was there before. -/
theorem lookup_of_erase [DecidableEq K] {m : AList (fun _ : K => V)} {k k' : K} {v' : V} (h : (m.erase k).lookup k' = some v') :
    m.lookup k' = some v' := by
  by_cases hk : k' = k
  · subst hk
    rw [AList.lookup_erase] at h
    cases h
  · rwa [AList.lookup_erase_ne hk] at h

end

end Scbl.Lib
