import Mathlib.Data.List.Infix
import Mathlib.Data.List.Nodup
import Scbl.Lib.Dict
import Scbl.Lib.Program
import Scbl.Lib.Bytes

/-!
# Trees of files

Files and directories below a root, each at the names that lead to it from there. Whatever is in a tree is in a directory, so that nothing
is below a file.
-/

namespace Scbl.Lib

inductive FileNode where
  | file (content : Bytes)
  | directory
  deriving DecidableEq, Repr

/-- How many bytes a file holds. -/
def FileNode.size : FileNode → Nat
  | .file content => content.length
  | .directory => 0

/-- Files and directories, one at each path, and each in a directory. -/
structure FileTree (N : Type) [DecidableEq N] where
  entries : List (List N × FileNode)
  nodup : (entries.map Prod.fst).Nodup
  inDirectory : ∀ path name, (Dict.get entries (path ++ [name])).isSome → Dict.get entries path = some .directory

namespace FileTree

/-- What leads to a path above leads to the path, and is another one. -/
theorem isPrefix_dropLast_iff {N : Type} {path above : List N} (hne : path ≠ []) :
    above <+: path.dropLast ↔ above <+: path ∧ above ≠ path := by
  have hself : ¬ path <+: path.dropLast := by
    intro h
    have hlength := h.length_le
    have hpositive := List.length_pos_iff.mpr hne
    rw [List.length_dropLast] at hlength
    omega
  constructor
  · intro h
    refine ⟨h.trans (List.dropLast_prefix _), ?_⟩
    rintro rfl
    exact hself h
  · rintro ⟨h, hdiffer⟩
    rw [← List.dropLast_append_getLast hne] at h hdiffer
    exact (List.prefix_concat_iff.mp h).resolve_left hdiffer

variable {N : Type} [DecidableEq N]

/-- What is at a path. -/
def node (t : FileTree N) (path : List N) : Option FileNode := Dict.get t.entries path

/-- A directory with nothing in it. -/
def empty : FileTree N where
  entries := [([], .directory)]
  nodup := List.nodup_singleton []
  inDirectory := by
    intro path name h
    rw [Dict.get_cons, if_neg (List.append_ne_nil_of_right_ne_nil path (List.cons_ne_nil name [])).symm] at h
    nomatch h

theorem node_empty (path : List N) : (empty : FileTree N).node path = if path = [] then some .directory else none := by
  rw [node, empty, Dict.get_cons]
  simp only [Dict.get_nil, eq_comm]

/-- Put something at a path at which nothing is, in a directory. -/
def place (path : List N) (node : FileNode) (t : FileTree N) : Option (FileTree N) :=
  if h : path ≠ [] ∧ t.node path.dropLast = some .directory ∧ t.node path = none then
    some
      { entries := t.entries ++ [(path, node)]
        nodup := by
          rw [List.map_append, List.nodup_append]
          refine ⟨t.nodup, List.nodup_singleton path, fun key hkey key' hkey' heq => ?_⟩
          obtain rfl : key' = path := List.mem_singleton.mp hkey'
          obtain ⟨entry, hentry, rfl⟩ := List.mem_map.mp hkey
          have hget := Dict.get_of_mem t.nodup hentry
          rw [heq] at hget
          nomatch h.2.2.symm.trans hget
        inDirectory := by
          intro parent name hsome
          rw [Dict.get_append, Dict.get_cons] at hsome ⊢
          cases hold : Dict.get t.entries (parent ++ [name]) with
          | some _ => rw [t.inDirectory parent name (by rw [hold]; rfl)]; rfl
          | none =>
            rw [hold, Option.none_or] at hsome
            split at hsome
            · rename_i hpath
              have hparent : t.node parent = some .directory := by
                have hdirectory := h.2.1
                rw [show path = parent ++ [name] from hpath, List.dropLast_concat] at hdirectory
                exact hdirectory
              rw [show Dict.get t.entries parent = some .directory from hparent]
              rfl
            · nomatch hsome }
  else none

/-- Make a directory, unless it is there. -/
def makeDirectory (path : List N) (t : FileTree N) : Option (FileTree N) :=
  if t.node path = some .directory then some t else t.place path .directory

/-- Make a directory and those it is in. -/
def makeDirectories (path : List N) (t : FileTree N) : Option (FileTree N) := path.inits.foldlM (fun t path => t.makeDirectory path) t

section Lookup

variable {t t' : FileTree N} {path rest : List N} {node : FileNode}

/-- Above what is there are directories. -/
theorem node_of_append (h : (t.node (path ++ rest)).isSome) (hrest : rest ≠ []) : t.node path = some .directory := by
  induction rest generalizing path with
  | nil => exact absurd rfl hrest
  | cons name rest ih =>
    cases rest with
    | nil => exact t.inDirectory path name h
    | cons next rest =>
      have hnext := @ih (path ++ [name]) (by rw [List.append_assoc]; exact h) (List.cons_ne_nil _ _)
      exact t.inDirectory path name (by rw [show Dict.get t.entries (path ++ [name]) = some .directory from hnext]; rfl)

theorem node_of_isPrefix {above : List N} (h : (t.node path).isSome) (habove : above <+: path) (hne : above ≠ path) :
    t.node above = some .directory := by
  obtain ⟨rest, rfl⟩ := habove
  refine node_of_append h ?_
  rintro rfl
  exact hne (List.append_nil above).symm

/-- What is put somewhere, and what it leaves. -/
theorem place_eq_some (h : t.place path node = some t') :
    (path ≠ [] ∧ t.node path.dropLast = some .directory ∧ t.node path = none) ∧
      ∀ p, t'.node p = if p = path then some node else t.node p := by
  unfold place at h
  split at h
  · rename_i hfree
    refine ⟨hfree, fun p => ?_⟩
    rw [← Option.some.inj h, FileTree.node, Dict.get_append, Dict.get_cons, Dict.get_nil]
    by_cases hp : p = path
    · subst hp
      rw [show Dict.get t.entries p = none from hfree.2.2, if_pos rfl, if_pos rfl]
      rfl
    · rw [if_neg (Ne.symm hp), if_neg hp, Option.or_none]
      rfl
  · nomatch h

theorem exists_place (node : FileNode) (hne : path ≠ []) (hparent : t.node path.dropLast = some .directory) (hfree : t.node path = none) :
    ∃ t', t.place path node = some t' := ⟨_, dif_pos ⟨hne, hparent, hfree⟩⟩

theorem makeDirectory_eq_some (h : t.makeDirectory path = some t') :
    (t.node path = some .directory ∨ t.node path = none) ∧ ∀ p, t'.node p = if p = path then some .directory else t.node p := by
  unfold makeDirectory at h
  split at h
  · rename_i hdirectory
    obtain rfl := Option.some.inj h
    refine ⟨.inl hdirectory, fun p => ?_⟩
    split
    · rename_i hp
      rw [hp, hdirectory]
    · rfl
  · obtain ⟨hfree, hnode⟩ := place_eq_some h
    exact ⟨.inr hfree.2.2, hnode⟩

theorem makeDirectories_concat (path : List N) (name : N) (t : FileTree N) :
    t.makeDirectories (path ++ [name]) = (t.makeDirectories path).bind (fun t => t.makeDirectory (path ++ [name])) := by
  have hinits : (path ++ [name]).inits = path.inits ++ [path ++ [name]] := by simp [List.inits_append]
  rw [makeDirectories, hinits, List.foldlM_append]
  cases hpath : t.makeDirectories path with
  | none =>
    rw [makeDirectories] at hpath
    rw [hpath]
    rfl
  | some t' =>
    rw [makeDirectories] at hpath
    rw [hpath]
    cases hlast : t'.makeDirectory (path ++ [name]) with
    | none => simp [hlast]
    | some t'' => simp [hlast]

/-- The directories that lead to a path, where no file is in the way. -/
theorem makeDirectories_eq_some (h : t.makeDirectories path = some t') :
    (∀ p, p <+: path → t.node p = some .directory ∨ t.node p = none) ∧
      ∀ p, t'.node p = if p <+: path then some .directory else t.node p := by
  induction path using List.reverseRecOn generalizing t' with
  | nil =>
    obtain ⟨hfree, hnode⟩ := @makeDirectory_eq_some _ _ _ _ [] (by simpa [makeDirectories] using h)
    refine ⟨fun p hp => ?_, fun p => ?_⟩
    · rw [List.prefix_nil.mp hp]
      exact hfree
    · rw [hnode]
      simp [List.prefix_nil]
  | append_singleton path name ih =>
    rw [makeDirectories_concat] at h
    obtain ⟨t₁, hpath, hlast⟩ := Option.bind_eq_some_iff.mp h
    obtain ⟨hfree, hnode⟩ := ih hpath
    obtain ⟨hfree', hnode'⟩ := makeDirectory_eq_some hlast
    have hself : ¬ path ++ [name] <+: path := fun hp => by simpa using hp.length_le
    rw [hnode, if_neg hself] at hfree'
    refine ⟨fun p hp => ?_, fun p => ?_⟩
    · rcases List.prefix_concat_iff.mp hp with rfl | hp
      · exact hfree'
      · exact hfree p hp
    · rw [hnode', hnode]
      by_cases hp : p = path ++ [name]
      · rw [if_pos hp, if_pos (hp ▸ List.prefix_rfl)]
      · by_cases hp' : p <+: path
        · rw [if_neg hp, if_pos hp', if_pos (hp'.trans (List.prefix_append _ _))]
        · rw [if_neg hp, if_neg hp', if_neg fun hconcat => (List.prefix_concat_iff.mp hconcat).elim hp hp']

theorem exists_makeDirectories (hroot : t.node [] = some .directory)
    (h : ∀ p, p <+: path → t.node p = some .directory ∨ t.node p = none) : ∃ t', t.makeDirectories path = some t' := by
  induction path using List.reverseRecOn with
  | nil =>
    refine ⟨t, ?_⟩
    simp [makeDirectories, makeDirectory, hroot]
  | append_singleton path name ih =>
    obtain ⟨t₁, hpath⟩ := ih fun p hp => h p (hp.trans (List.prefix_append _ _))
    have hnode := (makeDirectories_eq_some hpath).2
    have hself : ¬ path ++ [name] <+: path := fun hp => by simpa using hp.length_le
    rw [makeDirectories_concat, hpath, Option.bind_some, makeDirectory]
    split
    · exact ⟨t₁, rfl⟩
    · rename_i hdirectory
      refine exists_place _ (List.append_ne_nil_of_right_ne_nil _ (List.cons_ne_nil _ _)) ?_ ?_
      · rw [List.dropLast_concat, hnode, if_pos List.prefix_rfl]
      · have hlast := hnode (path ++ [name])
        rw [if_neg hself] at hlast
        rw [hlast] at hdirectory ⊢
        exact (h _ List.prefix_rfl).resolve_left hdirectory

/-- Something that is put behind directories that are made for it. -/
theorem place_makeDirectories {t₁ : FileTree N} (hmake : t.makeDirectories path.dropLast = some t₁)
    (hplace : t₁.place path node = some t') :
    (path ≠ [] ∧ t.node path = none ∧ ∀ p, p <+: path → p ≠ path → t.node p = some .directory ∨ t.node p = none) ∧
      ∀ p, t'.node p = if p = path then some node else if p <+: path then some .directory else t.node p := by
  obtain ⟨hfree, hnode₁⟩ := makeDirectories_eq_some hmake
  obtain ⟨⟨hne, -, hnone⟩, hnode⟩ := place_eq_some hplace
  have habove : ∀ p, p <+: path.dropLast ↔ p <+: path ∧ p ≠ path := fun p => isPrefix_dropLast_iff hne
  rw [hnode₁, if_neg fun h => ((habove path).mp h).2 rfl] at hnone
  refine ⟨⟨hne, hnone, fun p hp hdiffer => hfree p ((habove p).mpr ⟨hp, hdiffer⟩)⟩, fun p => ?_⟩
  rw [hnode, hnode₁]
  by_cases hp : p = path
  · rw [if_pos hp, if_pos hp]
  · rw [if_neg hp, if_neg hp]
    simp only [habove, hp, ne_eq, not_false_eq_true, and_true]

theorem exists_place_makeDirectories (node : FileNode) (hroot : t.node [] = some .directory) (hne : path ≠ []) (hnone : t.node path = none)
    (hfree : ∀ p, p <+: path → p ≠ path → t.node p = some .directory ∨ t.node p = none) :
    ∃ t₁ t', t.makeDirectories path.dropLast = some t₁ ∧ t₁.place path node = some t' := by
  have habove : ∀ p, p <+: path.dropLast ↔ p <+: path ∧ p ≠ path := fun p => isPrefix_dropLast_iff hne
  obtain ⟨t₁, hmake⟩ := exists_makeDirectories hroot fun p hp => hfree p ((habove p).mp hp).1 ((habove p).mp hp).2
  have hnode₁ := (makeDirectories_eq_some hmake).2
  obtain ⟨t', hplace⟩ := exists_place node hne (by rw [hnode₁, if_pos List.prefix_rfl])
    (by rw [hnode₁, if_neg fun h => ((habove path).mp h).2 rfl, hnone])
  exact ⟨t₁, t', hmake, hplace⟩

end Lookup

/-! ## Replacing, moving and removing -/

/-- Write a file, in the place of one that is there. -/
def write (path : List N) (content : Bytes) (t : FileTree N) : Option (FileTree N) :=
  match hnode : t.node path with
  | some (.file old) =>
    some
      { entries := Dict.set t.entries path (.file content)
        nodup := Dict.nodup_set t.nodup
        inDirectory := by
          intro parent name h
          have hparent : parent ≠ path → Dict.get t.entries parent = some .directory := by
            intro hne
            refine t.inDirectory parent name ?_
            by_cases hpath : parent ++ [name] = path
            · rw [hpath, show Dict.get t.entries path = some (.file old) from hnode]
              rfl
            · rwa [Dict.get_set_other _ _ hpath] at h
          by_cases hpath : parent = path
          · -- nothing is below a file
            subst hpath
            rw [Dict.get_set_other _ _ (by simp)] at h
            nomatch (t.inDirectory parent name h).symm.trans hnode
          · rw [Dict.get_set_other _ _ hpath]
            exact hparent hpath }
  | some .directory => none
  | none => t.place path (.file content)

/-- Where a path is after a move. -/
def moved (source target path : List N) : List N := if source <+: path then target ++ path.drop source.length else path

theorem moved_append (source target rest : List N) : moved source target (source ++ rest) = target ++ rest := by
  rw [moved, if_pos (List.prefix_append _ _), List.drop_left]

theorem moved_of_not {source path : List N} (target : List N) (h : ¬ source <+: path) : moved source target path = path := if_neg h

/-- Where nothing is, nothing is below. -/
theorem node_below_none {t : FileTree N} {path : List N} (h : t.node path = none) (rest : List N) : t.node (path ++ rest) = none := by
  by_contra hsome
  by_cases hrest : rest = []
  · rw [hrest, List.append_nil] at hsome
    exact hsome h
  · nomatch h.symm.trans (node_of_append (Option.isSome_iff_ne_none.mpr hsome) hrest)

/-- Two paths that are moved to one are one, where nothing is at the target. -/
theorem moved_inj {t : FileTree N} {source target path path' : List N} (htarget : t.node target = none) (hpath : (t.node path).isSome)
    (hpath' : (t.node path').isSome) (h : moved source target path = moved source target path') : path = path' := by
  by_cases hin : source <+: path <;> by_cases hin' : source <+: path'
  · obtain ⟨rest, rfl⟩ := hin
    obtain ⟨rest', rfl⟩ := hin'
    rw [moved_append, moved_append] at h
    rw [List.append_cancel_left h]
  · obtain ⟨rest, rfl⟩ := hin
    rw [moved_append, moved_of_not target hin'] at h
    rw [← h, node_below_none htarget] at hpath'
    nomatch hpath'
  · obtain ⟨rest, rfl⟩ := hin'
    rw [moved_append, moved_of_not target hin] at h
    rw [h, node_below_none htarget] at hpath
    nomatch hpath
  · rwa [moved_of_not target hin, moved_of_not target hin'] at h

theorem node_eq_some_iff {t : FileTree N} {path : List N} {node : FileNode} : t.node path = some node ↔ (path, node) ∈ t.entries :=
  ⟨Dict.mem_of_get, Dict.get_of_mem t.nodup⟩

/-- The entries after a move. -/
def movedEntries (source target : List N) (t : FileTree N) : List (List N × FileNode) :=
  t.entries.map (fun entry => (moved source target entry.1, entry.2))

theorem nodup_movedEntries {t : FileTree N} (source : List N) {target : List N} (htarget : t.node target = none) :
    ((t.movedEntries source target).map Prod.fst).Nodup := by
  rw [movedEntries, List.map_map]
  have hkeys := List.pairwise_map.mp t.nodup
  refine List.pairwise_map.mpr (hkeys.imp_of_mem fun {entry entry'} hmem hmem' hne heq => hne ?_)
  exact moved_inj htarget (by rw [node_eq_some_iff.mpr hmem]; rfl) (by rw [node_eq_some_iff.mpr hmem']; rfl) heq

theorem get_movedEntries {t : FileTree N} {source target path : List N} {node : FileNode} (htarget : t.node target = none) :
    Dict.get (t.movedEntries source target) path = some node ↔ ∃ path', t.node path' = some node ∧ moved source target path' = path := by
  constructor
  · intro h
    obtain ⟨⟨path', node'⟩, hentry, heq⟩ := List.mem_map.mp (Dict.mem_of_get h)
    obtain ⟨rfl, rfl⟩ := Prod.mk.inj heq
    exact ⟨path', node_eq_some_iff.mpr hentry, rfl⟩
  · rintro ⟨path', hnode, rfl⟩
    exact Dict.get_of_mem (nodup_movedEntries source htarget) (List.mem_map.mpr ⟨_, node_eq_some_iff.mp hnode, rfl⟩)

/-- Move a file or a directory to a path at which nothing is. -/
def move (source target : List N) (t : FileTree N) : Option (FileTree N) :=
  if h : (t.node source).isSome ∧ t.node target = none ∧ target ≠ [] ∧ t.node target.dropLast = some .directory ∧
      ¬ source <+: target then
    some
      { entries := t.movedEntries source target
        nodup := nodup_movedEntries source h.2.1
        inDirectory := by
          intro parent name hsome
          obtain ⟨node, hget⟩ := Option.isSome_iff_exists.mp hsome
          obtain ⟨path, hnode, hpath⟩ := (get_movedEntries h.2.1).mp hget
          refine (get_movedEntries h.2.1).mpr ?_
          by_cases hsource : source <+: path
          · obtain ⟨rest, rfl⟩ := hsource
            rw [moved_append] at hpath
            rcases List.eq_nil_or_concat' rest with rfl | ⟨rest', last, rfl⟩
            · -- the target itself is in a directory that stays
              rw [List.append_nil] at hpath
              have hparent : target.dropLast = parent := by rw [hpath, List.dropLast_concat]
              refine ⟨target.dropLast, h.2.2.2.1, ?_⟩
              rw [moved_of_not target fun hsub => h.2.2.2.2 (hsub.trans (List.dropLast_prefix _)), hparent]
            · rw [← List.append_assoc] at hpath
              obtain ⟨rfl, -⟩ := List.append_inj' hpath rfl
              rw [← List.append_assoc] at hnode
              have hparent := t.inDirectory _ last (by rw [show Dict.get t.entries _ = some node from hnode]; rfl)
              exact ⟨source ++ rest', hparent, moved_append _ _ _⟩
          · rw [moved_of_not target hsource] at hpath
            subst hpath
            refine ⟨parent, t.inDirectory parent name (by rw [show Dict.get t.entries _ = some node from hnode]; rfl), ?_⟩
            exact moved_of_not target fun hsub => hsource (hsub.trans (List.prefix_append _ _)) }
  else none

/-- What was at the source is at the target. -/
theorem node_move {t t' : FileTree N} {source target : List N} (h : t.move source target = some t') (rest : List N) :
    t'.node (target ++ rest) = t.node (source ++ rest) := by
  unfold move at h
  split at h
  · rename_i hfree
    obtain rfl := Option.some.inj h
    refine Option.ext fun node => ?_
    refine (get_movedEntries hfree.2.1).trans ⟨?_, fun hnode => ⟨_, hnode, moved_append _ _ _⟩⟩
    rintro ⟨path, hnode, hpath⟩
    by_cases hsource : source <+: path
    · obtain ⟨rest', rfl⟩ := hsource
      rw [moved_append] at hpath
      rwa [← List.append_cancel_left hpath]
    · rw [moved_of_not target hsource] at hpath
      rw [hpath, node_below_none hfree.2.1] at hnode
      nomatch hnode
  · nomatch h

/-- Remove a path and what is below it. -/
def removeTree (path : List N) (t : FileTree N) : FileTree N where
  entries := t.entries.filter (fun entry => !path.isPrefixOf entry.1)
  nodup := t.nodup.sublist ((List.filter_sublist).map _)
  inDirectory := by
    intro parent name h
    rw [Dict.get_filter _ t.nodup] at h ⊢
    obtain ⟨node, hget⟩ := Option.isSome_iff_exists.mp h
    obtain ⟨hnode, hkept⟩ := Option.filter_eq_some_iff.mp hget
    refine Option.filter_eq_some_iff.mpr ⟨t.inDirectory parent name (by rw [hnode]; rfl), ?_⟩
    simp only [Bool.not_eq_true', ← Bool.not_eq_true, List.isPrefixOf_iff_prefix] at hkept ⊢
    exact fun hsub => hkept (hsub.trans (List.prefix_append _ _))

theorem write_eq_some {t t' : FileTree N} {path : List N} {content : Bytes} (h : t.write path content = some t') :
    t.node path ≠ some .directory ∧ ∀ p, t'.node p = if p = path then some (.file content) else t.node p := by
  unfold write at h
  split at h
  · rename_i old hnode
    obtain rfl := Option.some.inj h
    refine ⟨fun hdirectory => (nomatch hdirectory.symm.trans hnode), fun p => ?_⟩
    by_cases hp : p = path
    · subst hp
      rw [if_pos rfl]
      exact Dict.get_set_self _ _ _
    · rw [if_neg hp]
      exact Dict.get_set_other _ _ hp
  · nomatch h
  · rename_i hnone
    exact ⟨fun hdirectory => (nomatch hdirectory.symm.trans hnone), (place_eq_some h).2⟩

/-! ## Operations -/

section Operations

variable {ε : Type}

/-- An operation that changes the tree at once, or not at all. -/
def change (io : ε) (f : FileTree N → Option (FileTree N)) : Program (FileTree N) ε Unit :=
  .operation io (fun _ t => t) (fun t => (f t).elim (.error io) (fun t' => .ok ((), t')))

/-- An operation that writes a content, of which the first bytes remain when it stops. -/
def changeContent (io : ε) (f : Bytes → FileTree N → Option (FileTree N)) (content : FileTree N → Option Bytes) :
    Program (FileTree N) ε Unit :=
  .operation io
    (fun k t => if k = 0 then t else ((content t).bind (fun bytes => f (bytes.take (k - 1)) t)).getD t)
    (fun t => ((content t).bind (fun bytes => f bytes t)).elim (.error io) (fun t' => .ok ((), t')))

/-- What a file holds. -/
def contentAt (path : List N) (t : FileTree N) : Option Bytes :=
  match t.node path with
  | some (.file content) => some content
  | _ => none

/-- Read a file; what is raised where there is none, or a directory. -/
def readFile (io absent directory : ε) (path : List N) : Program (FileTree N) ε Bytes :=
  .operation io (fun _ t => t) (fun t =>
    match t.node path with
    | some (.file content) => .ok (content, t)
    | some .directory => .error directory
    | none => .error absent)

/-- Make a directory and those it is in, one by one. -/
def makeAll (io : ε) (path : List N) : Program (FileTree N) ε Unit := path.inits.forM (fun path => change io (makeDirectory path))

/-- Create a file. -/
def createFile (io : ε) (path : List N) (content : Bytes) : Program (FileTree N) ε Unit :=
  changeContent io (fun bytes => place path (.file bytes)) (fun _ => some content)

/-- Copy a file to a path, or into a directory. -/
def copyFile (io : ε) (source target : List N) : Program (FileTree N) ε Unit :=
  changeContent io
    (fun bytes t => t.write (if t.node target = some .directory then target ++ source.getLast?.toList else target) bytes)
    (contentAt source)

variable {G F : FileTree N → Prop} {J : Unit → FileTree N → Prop} {io : ε} {f : FileTree N → Option (FileTree N)} {path : List N}

theorem keeps_change (h : ∀ t t', G t → F t → f t = some t' → G t' ∧ J () t') : (change io f).Keeps G F J := by
  refine Program.keeps_operation fun t a t' hG hF hstep => ?_
  cases hf : f t with
  | none => rw [hf] at hstep; nomatch hstep
  | some t₁ =>
    rw [hf] at hstep
    obtain ⟨-, rfl⟩ := Prod.mk.inj (Except.ok.inj hstep)
    exact h t t₁ hG hF hf

theorem keeps_changeContent {f : Bytes → FileTree N → Option (FileTree N)} {content : FileTree N → Option Bytes}
    (hdone : ∀ t t' bytes, G t → F t → content t = some bytes → f bytes t = some t' → G t' ∧ J () t')
    (hstop : ∀ t t' bytes k, G t → F t → content t = some bytes → f (bytes.take k) t = some t' → G t') :
    (changeContent io f content).Keeps G F J := by
  have hstopped : ∀ t k, G t → F t → G (if k = 0 then t else ((content t).bind (fun bytes => f (bytes.take (k - 1)) t)).getD t) := by
    intro t k hG hF
    split
    · exact hG
    · cases hbind : (content t).bind (fun bytes => f (bytes.take (k - 1)) t) with
      | none => exact hG
      | some t' =>
        obtain ⟨bytes, hcontent, hf⟩ := Option.bind_eq_some_iff.mp hbind
        exact hstop t t' bytes (k - 1) hG hF hcontent hf
  refine Program.meets_operation_any (J := fun a t => G t ∧ J a t) (fun t a t' hs hstep => ?_) (fun _ _ _ hs _ => hs.1)
    (fun _ t k hs => hstopped t k hs.1 hs.2) fun t k hs => hstopped t k hs.1 hs.2
  cases hbind : (content t).bind (fun bytes => f bytes t) with
  | none => rw [hbind] at hstep; nomatch hstep
  | some t₁ =>
    rw [hbind] at hstep
    obtain ⟨-, rfl⟩ := Prod.mk.inj (Except.ok.inj hstep)
    obtain ⟨bytes, hcontent, hf⟩ := Option.bind_eq_some_iff.mp hbind
    exact hdone t t₁ bytes hs.1 hs.2 hcontent hf

theorem contentAt_eq_some {t : FileTree N} {content : Bytes} : t.contentAt path = some content ↔ t.node path = some (.file content) := by
  unfold contentAt
  split
  · rename_i content' hnode
    rw [hnode]
    simp
  · rename_i hnot
    simp only [reduceCtorEq, false_iff]
    exact hnot content

theorem keeps_readFile {absent directory : ε} :
    (readFile io absent directory path).Keeps G F (fun content t => F t ∧ t.node path = some (.file content)) := by
  refine Program.keeps_operation fun t content t' hG hF hstep => ?_
  split at hstep
  · rename_i content' hnode
    obtain ⟨rfl, rfl⟩ := Prod.mk.inj (Except.ok.inj hstep)
    exact ⟨hG, hF, hnode⟩
  · nomatch hstep
  · nomatch hstep

/-- What each directory keeps that is made on the way to a path. -/
theorem keeps_makeAll (h : ∀ p, p <+: path → ∀ t t', G t → F t → t.makeDirectory p = some t' → G t' ∧ F t') :
    (makeAll io path).Keeps G F (fun _ => F) :=
  Program.keeps_forM fun p hp => keeps_change fun t t' hG hF hmake => h p ((List.mem_inits p path).mp hp) t t' hG hF hmake

end Operations

/-! ## Growth below a root -/

section Growth

variable {root path : List N} {limit : Nat} {before after after' : FileTree N} {node : FileNode}

/-- A path below another one. -/
def IsBelow (root path : List N) : Prop := root <+: path ∧ path ≠ root

/-- What the files below a path hold together. -/
def sizeBelow (root : List N) (t : FileTree N) : Nat := ((t.entries.filter (fun entry => root.isPrefixOf entry.1)).map (·.2.size)).sum

/-- A tree to which files and directories were added below a root, which hold no more than a limit. -/
def Grown (root : List N) (limit : Nat) (before after : FileTree N) : Prop :=
  ∃ added, after.entries = before.entries ++ added ∧ (∀ entry ∈ added, IsBelow root entry.1) ∧ (added.map (·.2.size)).sum ≤ limit

theorem Grown.refl (root : List N) (limit : Nat) (t : FileTree N) : Grown root limit t t :=
  ⟨[], (List.append_nil _).symm, fun _ hmem => (nomatch hmem), Nat.zero_le _⟩

theorem Grown.mono {limit' : Nat} (h : Grown root limit before after) (hle : limit ≤ limit') : Grown root limit' before after := by
  obtain ⟨added, hentries, hbelow, hsize⟩ := h
  exact ⟨added, hentries, hbelow, hsize.trans hle⟩

/-- What was there stays. -/
theorem Grown.kept (h : Grown root limit before after) (hnode : before.node path = some node) : after.node path = some node := by
  obtain ⟨added, hentries, -⟩ := h
  rw [FileTree.node, hentries, Dict.get_append, show Dict.get before.entries path = some node from hnode]
  rfl

theorem Grown.node_outside (h : Grown root limit before after) (hpath : ¬ IsBelow root path) : after.node path = before.node path := by
  obtain ⟨added, hentries, hbelow, -⟩ := h
  have hadded : Dict.get added path = none := by
    cases hget : Dict.get added path with
    | none => rfl
    | some node => exact absurd (hbelow _ (Dict.mem_of_get hget)) hpath
  rw [FileTree.node, hentries, Dict.get_append, hadded, Option.or_none]
  rfl

/-- What is put below the root adds its size. -/
theorem Grown.place (h : Grown root limit before after) (hpath : IsBelow root path) (hplace : after.place path node = some after') :
    Grown root (limit + node.size) before after' := by
  obtain ⟨added, hentries, hbelow, hsize⟩ := h
  have hentries' : after'.entries = after.entries ++ [(path, node)] := by
    unfold FileTree.place at hplace
    split at hplace
    · rw [← Option.some.inj hplace]
    · nomatch hplace
  refine ⟨added ++ [(path, node)], ?_, List.forall_mem_append.mpr ⟨hbelow, List.forall_mem_singleton.mpr hpath⟩, ?_⟩
  · rw [hentries', hentries, List.append_assoc]
  · rw [List.map_append, List.sum_append]
    exact Nat.add_le_add hsize (by simp)

/-- Directories are made below the root, or are there. -/
theorem Grown.makeDirectory (h : Grown root limit before after) (hroot : before.node root = some .directory)
    (hpath : path <+: root ∨ IsBelow root path) (hmake : after.makeDirectory path = some after') : Grown root limit before after' := by
  unfold FileTree.makeDirectory at hmake
  split at hmake
  · obtain rfl := Option.some.inj hmake
    exact h
  · rename_i hnot
    refine h.place (hpath.resolve_left fun hprefix => hnot ?_) hmake
    by_cases heq : path = root
    · rw [heq]
      exact h.kept hroot
    · exact node_of_isPrefix (by rw [h.kept hroot]; rfl) hprefix heq

/-- The files below a root that was empty hold no more than the limit. -/
theorem Grown.sizeBelow_le (h : Grown root limit before after) (hroot : before.node root = some .directory)
    (hempty : ∀ path, IsBelow root path → before.node path = none) : after.sizeBelow root ≤ limit := by
  obtain ⟨added, hentries, hbelow, hsize⟩ := h
  have hbefore : ((before.entries.filter (fun entry => root.isPrefixOf entry.1)).map (·.2.size)).sum = 0 := by
    rw [List.sum_eq_zero_iff_forall_eq_nat]
    intro size hmem
    obtain ⟨⟨path, node⟩, hentry, rfl⟩ := List.mem_map.mp hmem
    obtain ⟨hentry, hprefix⟩ := List.mem_filter.mp hentry
    have hnode := node_eq_some_iff.mpr hentry
    by_cases heq : path = root
    · rw [heq, hroot] at hnode
      rw [← Option.some.inj hnode]
      rfl
    · rw [hempty path ⟨List.isPrefixOf_iff_prefix.mp hprefix, heq⟩] at hnode
      nomatch hnode
  have hadded : added.filter (fun entry => root.isPrefixOf entry.1) = added :=
    List.filter_eq_self.mpr fun entry hentry => List.isPrefixOf_iff_prefix.mpr (hbelow entry hentry).1
  rw [sizeBelow, hentries, List.filter_append, List.map_append, List.sum_append, hbefore, hadded, Nat.zero_add]
  exact hsize

end Growth

end FileTree

end Scbl.Lib
