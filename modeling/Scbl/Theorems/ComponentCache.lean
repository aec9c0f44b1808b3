import Scbl.Launcher.ClientStorageMaintenanceService
import Scbl.Lib.Panic

/-!
# What pruning leaves of the component cache

The directories that a pruning deletes are known when it starts; they are none of the recorded ones, which `WriteState` takes from the
paths of the cache.
-/

namespace Scbl.Launcher.ClientStorageMaintenanceService

open Scbl.Lib
open ClientComponentUpdateService

/-! ## The files -/

/-- Files and directories as a file system has them, one at each path. -/
structure DirectoryTree (p : Platform) where
  entries : List Entry
  distinct : (entries.map (fun entry => pathKey p entry.path)).Nodup

section Files

variable {p : Platform} {entries : List Entry} {keep : Entry → Bool} {path directory : PathNames} {name : FileName} {time : Int}

theorem pathKey_append (path rest : PathNames) : pathKey p (path ++ rest) = pathKey p path ++ pathKey p rest := List.map_append

/-- What is at a path is an entry. -/
theorem find_eq_some {node : Node} (h : find p entries path = some node) :
    ∃ entry ∈ entries, pathKey p entry.path = pathKey p path ∧ entry.node = node := by
  obtain ⟨entry, hfind, hnode⟩ := Option.map_eq_some_iff.mp h
  exact ⟨entry, List.mem_of_find?_eq_some hfind, by simpa using List.find?_some hfind, hnode⟩

theorem find_congr (h : pathKey p path = pathKey p directory) : find p entries path = find p entries directory := by
  simp only [find, h]

/-- An entry is what is at its path. -/
theorem find_entry (hdistinct : (entries.map (fun entry => pathKey p entry.path)).Nodup) {entry : Entry} (hentry : entry ∈ entries) :
    find p entries entry.path = some entry.node := by
  cases hfind : find p entries entry.path with
  | none =>
    have hnone := Option.map_eq_none_iff.mp hfind
    exact absurd (by simp) (List.find?_eq_none.mp hnone entry hentry)
  | some node =>
    obtain ⟨other, hother, hkey, hnode⟩ := find_eq_some hfind
    rw [← hnode, List.inj_on_of_nodup_map hdistinct hother hentry hkey]

/-- What is kept at a path stays there. -/
theorem find_filter_kept (h : ∀ entry ∈ entries, pathKey p entry.path = pathKey p path → keep entry = true) :
    find p (entries.filter keep) path = find p entries path := by
  induction entries with
  | nil => rfl
  | cons entry entries ih =>
    obtain ⟨hentry, hentries⟩ := List.forall_mem_cons.mp h
    have hprev := ih hentries
    unfold find at hprev ⊢
    by_cases hkey : pathKey p entry.path = pathKey p path
    · rw [List.filter_cons_of_pos (hentry hkey), List.find?_cons_of_pos (by simpa using hkey), List.find?_cons_of_pos (by simpa using hkey)]
    · rw [List.find?_cons_of_neg (by simpa using hkey)]
      cases hkeep : keep entry with
      | true => rw [List.filter_cons_of_pos hkeep, List.find?_cons_of_neg (by simpa using hkey), hprev]
      | false => rw [List.filter_cons_of_neg (by simp [hkeep]), hprev]

theorem find_filter_removed (h : ∀ entry ∈ entries, pathKey p entry.path = pathKey p path → keep entry = false) :
    find p (entries.filter keep) path = none := by
  cases hfind : find p (entries.filter keep) path with
  | none => rfl
  | some node =>
    obtain ⟨entry, hentry, hkey, -⟩ := find_eq_some hfind
    obtain ⟨hmem, hkeep⟩ := List.mem_filter.mp hentry
    rw [h entry hmem hkey] at hkeep
    nomatch hkeep

theorem mem_enumerateDirectories :
    (name, time) ∈ enumerateDirectories p entries directory ↔
      ∃ entry ∈ entries, entry.node = .directory time ∧ pathKey p entry.parent = pathKey p directory ∧ entry.name = name := by
  rw [enumerateDirectories, List.mem_filterMap]
  constructor
  · rintro ⟨entry, hentry, heq⟩
    split at heq
    · rename_i hnode
      split at heq
      · rename_i hparent
        obtain ⟨rfl, rfl⟩ := Prod.mk.inj (Option.some.inj heq)
        exact ⟨entry, hentry, hnode, hparent, rfl⟩
      · nomatch heq
    · nomatch heq
  · rintro ⟨entry, hentry, hnode, hparent, rfl⟩
    refine ⟨entry, hentry, ?_⟩
    simp only [hnode, if_pos hparent]

/-- Directories that are kept are enumerated as before. -/
theorem enumerateDirectories_filter (h : ∀ entry ∈ entries, pathKey p entry.parent = pathKey p directory → keep entry = true) :
    enumerateDirectories p (entries.filter keep) directory = enumerateDirectories p entries directory := by
  rw [enumerateDirectories, List.filterMap_filter]
  refine List.filterMap_congr fun entry hentry => ?_
  by_cases hparent : pathKey p entry.parent = pathKey p directory
  · rw [h entry hentry hparent, if_pos rfl]
  · cases entry.node <;> simp [hparent]

/-- An enumerated directory is at its path. -/
theorem find_enumerated (hdistinct : (entries.map (fun entry => pathKey p entry.path)).Nodup)
    (h : (name, time) ∈ enumerateDirectories p entries directory) : find p entries (directory ++ [name.1]) = some (.directory time) := by
  obtain ⟨entry, hentry, hnode, hparent, rfl⟩ := mem_enumerateDirectories.mp h
  have hkey : pathKey p (directory ++ [entry.name.1]) = pathKey p entry.path := by
    rw [Entry.path, pathKey_append, pathKey_append, hparent]
  rw [find_congr hkey, find_entry hdistinct hentry, hnode]

/-- The names of enumerated directories differ in more than case. -/
theorem nodup_enumerated (hdistinct : (entries.map (fun entry => pathKey p entry.path)).Nodup) (directory : PathNames) :
    ((enumerateDirectories p entries directory).map (fun item => upperText p item.1.1)).Nodup := by
  rw [List.Nodup, List.pairwise_map, enumerateDirectories, List.pairwise_filterMap]
  refine (List.pairwise_map.mp hdistinct).imp fun {entry other} hne item hitem item' hitem' hname => hne ?_
  have hsplit : ∀ {entry : Entry} {item : FileName × Int}, item ∈ enumerateDirectories p [entry] directory →
      pathKey p entry.path = pathKey p directory ++ [upperText p item.1.1] := by
    intro entry item hmem
    obtain ⟨other, hother, hsome⟩ := List.mem_filterMap.mp hmem
    rw [List.mem_singleton.mp hother] at hsome
    split at hsome
    · split at hsome
      · rename_i hparent
        rw [← Option.some.inj hsome, Entry.path, pathKey_append, hparent]
        rfl
      · cases hsome
    · cases hsome
  rw [hsplit (List.mem_filterMap.mpr ⟨entry, List.mem_singleton_self _, hitem⟩),
    hsplit (List.mem_filterMap.mpr ⟨other, List.mem_singleton_self _, hitem'⟩), hname]

end Files

/-! ## What is deleted -/

section Prune

variable {p : Platform} {faults : Faults} {keep : Int} {root : PathNames} {active : List PathNames} {entries : List Entry}

/-- The keys of paths are compared name by name. -/
local instance lawfulBEq_doomed : LawfulBEq (List Text) := inferInstance

/-- The versions of a component that a pruning deletes. -/
def doomedOf (p : Platform) (faults : Faults) (keep : Int) (root : PathNames) (active : List PathNames) (entries : List Entry)
    (component : FileName × Int) : List PathNames :=
  if faults.versionsFail (root ++ [component.1.1]) then []
  else
    let versions := rankBy (versionKey p) (enumerateDirectories p entries (root ++ [component.1.1]))
    let fullPath := fun version : FileName × Int => normalPath (root ++ [component.1.1] ++ [version.1.1])
    let retained := (versions.take keep.toNat).map (fun version => pathKey p (fullPath version)) ++ active.map (pathKey p)
    (versions.filter (fun version => !decide (pathKey p (fullPath version) ∈ retained))).map fullPath

/-- Whether an entry survives the deletion of some directories. -/
def survives (p : Platform) (faults : Faults) (doomed : List PathNames) (entry : Entry) : Bool :=
  doomed.all (fun directory => !removes p faults directory entry)

theorem filter_survives_nil (entries : List Entry) : entries.filter (survives p faults []) = entries := List.filter_eq_self.mpr fun _ _ => rfl

/-- A loop that deletes directories unless they are retained. -/
theorem foldl_delete {A : Type} (path : A → PathNames) (retained : A → Prop) [DecidablePred retained] (items : List A)
    (entries : List Entry) :
    items.foldl (fun entries item => if retained item then entries else deleteDirectory p faults entries (path item)) entries =
      entries.filter (survives p faults ((items.filter (fun item => !decide (retained item))).map path)) := by
  induction items generalizing entries with
  | nil => exact (filter_survives_nil entries).symm
  | cons item items ih =>
    rw [List.foldl_cons, ih]
    by_cases hretained : retained item
    · rw [if_pos hretained, List.filter_cons_of_neg (by simpa using hretained)]
    · rw [if_neg hretained, List.filter_cons_of_pos (by simpa using hretained), deleteDirectory, List.filter_filter]
      congr 1
      funext entry
      rw [List.map_cons, survives, survives, List.all_cons, Bool.and_comm]

theorem pruneComponent_eq (component : FileName × Int) :
    pruneComponent p faults keep root active entries component =
      entries.filter (survives p faults (doomedOf p faults keep root active entries component)) := by
  by_cases hfail : faults.versionsFail (root ++ [component.1.1]) = true
  · simp only [pruneComponent, doomedOf, if_pos hfail, filter_survives_nil]
  · simp only [pruneComponent, doomedOf, if_neg hfail]
    exact foldl_delete _ _ _ _

/-- A version of a component is in its directory. -/
def versionPath (root : PathNames) (component version : FileName) : PathNames := root ++ [component.1, version.1]

/-- Among the names of files the components directory stays as it is. -/
def IsNormalDirectory (path : PathNames) : Prop :=
  ∀ rest, rest ≠ [] → (∀ name ∈ rest, IsFileName name) → normalPath (path ++ rest) = path ++ rest

theorem normalPath_version (hroot : IsNormalDirectory root) (component version : FileName) :
    normalPath (root ++ [component.1] ++ [version.1]) = versionPath root component version := by
  have hnormal := hroot [component.1, version.1] (List.cons_ne_nil _ _) (by simp [component.2, version.2])
  rwa [List.append_assoc]

/-- What a pruning deletes of a component is one of its versions, is not recorded, and is not among those that were written last. -/
theorem mem_doomedOf (hroot : IsNormalDirectory root) {component : FileName × Int} {directory : PathNames} :
    directory ∈ doomedOf p faults keep root active entries component ↔
      faults.versionsFail (root ++ [component.1.1]) = false ∧ ∃ version ∈ enumerateDirectories p entries (root ++ [component.1.1]),
        directory = versionPath root component.1 version.1 ∧ pathKey p directory ∉ active.map (pathKey p) ∧
          ∀ other ∈ (rankBy (versionKey p) (enumerateDirectories p entries (root ++ [component.1.1]))).take keep.toNat,
            pathKey p (versionPath root component.1 other.1) ≠ pathKey p directory := by
  unfold doomedOf
  split
  · rename_i hfail
    simp [hfail]
  · rename_i hfail
    simp only [List.mem_map, List.mem_filter, normalPath_version hroot, List.mem_append, Bool.not_eq_true', decide_eq_false_iff_not, not_or,
      (rankBy_perm _).mem_iff]
    constructor
    · rintro ⟨version, ⟨hversion, hlast, hactive⟩, rfl⟩
      exact ⟨by simpa using hfail, version, hversion, rfl, hactive, fun other hother heq => hlast ⟨other, hother, heq⟩⟩
    · rintro ⟨-, version, hversion, rfl, hactive, hlast⟩
      exact ⟨version, ⟨hversion, fun ⟨other, hother, heq⟩ => hlast other hother heq, hactive⟩, rfl⟩

theorem pathKey_versionPath (component version : FileName) :
    pathKey p (versionPath root component version) = pathKey p root ++ [upperText p component.1, upperText p version.1] := pathKey_append _ _

/-- An entry that a deletion removes is at the directory or in it. -/
theorem isWithin_of_removes {directory : PathNames} {entry : Entry} (h : removes p faults directory entry = true) :
    pathKey p directory <+: pathKey p entry.path := by
  rw [← List.isPrefixOf_iff_prefix]
  exact (Bool.and_eq_true_iff.mp h).1

/-- What is deleted of one component leaves the directory of another. -/
theorem survives_other (hroot : IsNormalDirectory root) {component other : FileName × Int}
    (hne : upperText p component.1.1 ≠ upperText p other.1.1)
    {entry : Entry} (hentry : pathKey p entry.parent = pathKey p (root ++ [other.1.1])) :
    survives p faults (doomedOf p faults keep root active entries component) entry = true := by
  rw [survives, List.all_eq_true]
  intro directory hdirectory
  rw [Bool.not_eq_true']
  by_contra hremoves
  obtain ⟨-, version, -, rfl, -⟩ := (mem_doomedOf hroot).mp hdirectory
  have hprefix := isWithin_of_removes (by simpa using hremoves)
  rw [Entry.path, pathKey_append, hentry, pathKey_append, pathKey_versionPath, List.append_assoc, List.prefix_append_right_inj] at hprefix
  exact hne (List.cons_prefix_cons.mp hprefix).1

/-- What a pruning deletes. -/
def doomed (p : Platform) (faults : Faults) (keep : Int) (root : PathNames) (active : List PathNames) (entries : List Entry)
    (components : List (FileName × Int)) : List PathNames :=
  components.flatMap (doomedOf p faults keep root active entries)

/-- The loop over the components deletes what was to be deleted when it started. -/
theorem foldl_pruneComponent (hroot : IsNormalDirectory root) (components : List (FileName × Int))
    (hdistinct : (components.map (fun component => upperText p component.1.1)).Nodup) :
    components.foldl (pruneComponent p faults keep root active) entries =
      entries.filter (survives p faults (doomed p faults keep root active entries components)) := by
  suffices hloop : ∀ done rest, done ++ rest = components →
      rest.foldl (pruneComponent p faults keep root active) (entries.filter (survives p faults (doomed p faults keep root active entries done))) =
        entries.filter (survives p faults (doomed p faults keep root active entries components)) by
    have hall := hloop [] components rfl
    rwa [doomed, List.flatMap_nil, filter_survives_nil] at hall
  intro done rest
  induction rest generalizing done with
  | nil =>
    intro hsplit
    rw [List.append_nil] at hsplit
    rw [hsplit]
    rfl
  | cons component rest ih =>
    intro hsplit
    have hnew : ∀ other ∈ done, upperText p other.1.1 ≠ upperText p component.1.1 := by
      intro other hother heq
      rw [← hsplit, List.map_append, List.nodup_append] at hdistinct
      exact hdistinct.2.2 _ (List.mem_map_of_mem hother) _ List.mem_cons_self heq
    have hsame : doomedOf p faults keep root active
        (entries.filter (survives p faults (doomed p faults keep root active entries done))) component =
        doomedOf p faults keep root active entries component := by
      unfold doomedOf
      rw [enumerateDirectories_filter]
      intro entry _ hparent
      rw [survives, doomed, List.all_flatMap, List.all_eq_true]
      exact fun other hother => survives_other hroot (hnew other hother) hparent
    have hnext : done ++ [component] ++ rest = components := by rw [List.append_assoc]; exact hsplit
    rw [List.foldl_cons, pruneComponent_eq, hsame, List.filter_filter, ← ih (done ++ [component]) hnext]
    congr 2
    funext entry
    simp only [survives, doomed, List.flatMap_append, List.flatMap_singleton, List.all_append, Bool.and_comm]

end Prune

/-! ## What is recorded -/

section Recorded

variable {p : Platform} {dataRoot : Text}

/-- A text that is a full path: it names a volume, and no null character stands in it. -/
def IsFullPath (t : Text) : Prop := (volumeLength (pathNames t)).isSome ∧ '\x00' ∉ t

theorem pathNames_combine (t : Text) {names : List Text} (h : ∀ name ∈ names, ∀ c ∈ name, isSeparator c = false) :
    pathNames (combinePath (t :: names)) = pathNames t ++ names := by
  induction names generalizing t with
  | nil => simp [combinePath, joinWith]
  | cons name names ih =>
    obtain ⟨hname, hnames⟩ := List.forall_mem_cons.mp h
    have hcombine : combinePath (t :: name :: names) = combinePath ((t ++ '\\' :: name) :: names) := by simp [combinePath, joinWith]
    have hfirst : pathNames (t ++ '\\' :: name) = pathNames t ++ [name] := by
      rw [pathNames, List.splitOnP_append_cons t name rfl, List.splitOnP_eq_singleton hname]
      rfl
    rw [hcombine, ih _ hnames, hfirst, List.append_assoc]
    rfl

/-- The full path of names behind a full path. -/
theorem getFullPath_combine (h : IsFullPath dataRoot) {names : List Text} (hseparator : ∀ name ∈ names, ∀ c ∈ name, isSeparator c = false)
    (hnull : ∀ name ∈ names, '\x00' ∉ name) :
    getFullPath p (combinePath (dataRoot :: names)) = some (normalPath (pathNames dataRoot ++ names)) := by
  obtain ⟨n, hvolume⟩ := Option.isSome_iff_exists.mp h.1
  have hne : dataRoot ≠ [] := by
    rintro rfl
    nomatch hvolume
  have hguard : ¬ (combinePath (dataRoot :: names) = [] ∨ '\x00' ∈ combinePath (dataRoot :: names)) := by
    rintro (hnil | hmem)
    · exact hne (List.append_eq_nil_iff.mp hnil).1
    · rcases List.mem_append.mp hmem with hmem | hmem
      · exact h.2 hmem
      · obtain ⟨name, hname, hmem⟩ := List.mem_flatMap.mp hmem
        rcases List.mem_cons.mp hmem with heq | hmem
        · exact absurd heq (by decide)
        · exact hnull name hname hmem
  rw [getFullPath, if_neg hguard, pathNames_combine _ hseparator, (volumeLength_append hvolume names).1]
  rfl

def componentsName : Text := "components".toList

/-- The components directory. -/
def componentsRoot (dataRoot : Text) : Text := combinePath [dataRoot, componentsName]

/-- The full path of the components directory. -/
def componentsPath (dataRoot : Text) : PathNames := baseOf (pathNames dataRoot) ++ [componentsName]

theorem isFileName_of_all {name : Text} (h : name ≠ [] ∧ name.getLast? ≠ some '.' ∧ name.getLast? ≠ some ' ')
    (hall : name.all (fun c => !isSeparator c) = true) : IsFileName name := ⟨h.1, h.2.1, h.2.2, by simpa using hall⟩

theorem isFileName_componentsName : IsFileName componentsName := isFileName_of_all (by decide) rfl

theorem isNormal_componentsPath (h : IsFullPath dataRoot) : IsNormalDirectory (componentsPath dataRoot) := by
  intro rest _ hrest
  obtain ⟨n, hvolume⟩ := Option.isSome_iff_exists.mp h.1
  have hnames : ∀ name ∈ componentsName :: rest, IsFileName name := List.forall_mem_cons.mpr ⟨isFileName_componentsName, hrest⟩
  have hnormal := (normalPath_of_isFileName hvolume (List.cons_ne_nil _ _) hnames).2
  rwa [componentsPath, List.append_assoc]

theorem getFullPath_componentsRoot (h : IsFullPath dataRoot) : getFullPath p (componentsRoot dataRoot) = some (componentsPath dataRoot) := by
  obtain ⟨n, hvolume⟩ := Option.isSome_iff_exists.mp h.1
  have hname := isFileName_componentsName
  rw [componentsRoot, getFullPath_combine h (by simpa using hname.2.2.2) (by decide),
    (normalPath_of_isFileName hvolume (List.cons_ne_nil _ _) (by simpa using hname)).1]
  rfl

theorem eq_of_isSeparator {c : Char} (h : ¬ isSeparator c = false) : c = '\\' ∨ c = '/' := by
  have hsep : isSeparator c = true := by simpa using h
  rcases (Bool.or_eq_true _ _).mp hsep with hsep | hsep
  · exact .inl (of_decide_eq_true hsep)
  · exact .inr (of_decide_eq_true hsep)

/-- A name is that of a file if it is in upper case. -/
theorem isFileName_of_upper {name : Text} (h : IsFileName (name.map Char.toUpper)) : IsFileName name := by
  refine ⟨mt (fun hnil => by rw [hnil]; rfl) h.1, fun hlast => h.2.1 ?_, fun hlast => h.2.2.1 ?_, fun c hc => ?_⟩
  · rw [List.getLast?_map, hlast]
    rfl
  · rw [List.getLast?_map, hlast]
    rfl
  · have hupper := h.2.2.2 _ (List.mem_map_of_mem hc)
    by_contra hseparator
    rcases eq_of_isSeparator hseparator with rfl | rfl <;> exact absurd hupper (by decide)

/-- The supported components and their files have names of files. -/
theorem isFileName_supported {name : Text} {spec : ComponentSpec} (h : findSupported name = some spec) :
    (IsFileName name ∧ '\x00' ∉ name) ∧ (IsFileName spec.fileName ∧ '\x00' ∉ spec.fileName) := by
  obtain ⟨item, hfind, rfl⟩ := Option.map_eq_some_iff.mp h
  have hmem := List.mem_of_find?_eq_some hfind
  have hequals : item.1.map Char.toUpper = name.map Char.toUpper := by simpa [equalsIgnoreCase] using List.find?_some hfind
  have hchecked : ∀ item ∈ supportedComponents, (IsFileName (item.1.map Char.toUpper) ∧ '\x00' ∉ item.1.map Char.toUpper) ∧
      (IsFileName item.2.fileName ∧ '\x00' ∉ item.2.fileName) := by
    intro item hitem
    simp only [supportedComponents, List.mem_cons, List.not_mem_nil, or_false] at hitem
    rcases hitem with rfl | rfl | rfl | rfl <;>
      exact ⟨⟨isFileName_of_all (by decide) rfl, by decide⟩, isFileName_of_all (by decide) rfl, by decide⟩
  obtain ⟨⟨hname, hnull⟩, hfile⟩ := hchecked item hmem
  rw [hequals] at hname hnull
  exact ⟨⟨isFileName_of_upper hname, fun hmem => hnull (List.mem_map_of_mem hmem)⟩, hfile⟩

/-- A sanitized text has neither separators nor null characters. -/
theorem sanitizePathSegment_chars (version : Text) :
    (∀ c ∈ sanitizePathSegment version, isSeparator c = false) ∧ '\x00' ∉ sanitizePathSegment version := by
  have hall : ∀ c ∈ sanitizePathSegment version, isSeparator c = false ∧ c ≠ '\x00' := by
    unfold sanitizePathSegment
    dsimp only
    split
    · have hunknown : "unknown".toList.all (fun c => !isSeparator c && c ≠ '\x00') = true := rfl
      simpa using hunknown
    · intro c hc
      obtain ⟨d, -, rfl⟩ := List.mem_map.mp hc
      split
      · decide
      · rename_i hvalid
        refine ⟨?_, ?_⟩
        · by_contra hseparator
          rcases eq_of_isSeparator hseparator with rfl | rfl <;> exact hvalid (by decide)
        · rintro rfl
          exact hvalid (by decide)
  exact ⟨fun c hc => (hall c hc).1, fun hmem => (hall _ hmem).2 rfl⟩

/-- The file of a component in the cache. -/
def IsCached (dataRoot : Text) (component : VerifiedClientComponent) : Prop :=
  ∃ spec, findSupported component.name = some spec ∧
    component.filePath = combinePath [dataRoot, componentsName, component.name, sanitizePathSegment component.version, spec.fileName]

theorem cached_ensureCached {sha256 : Bytes → Text} {uris : Uris} {m : Installation} {e : Surroundings} {name : Text}
    {definition : ClientComponentDefinition} {component : VerifiedClientComponent}
    (h : ensureCachedComponent sha256 uris m e name definition = .ok component) : IsCached m.persistentDataDirectory component := by
  obtain ⟨spec, hspec, h⟩ := bind_eq_ok.1 h
  have hfind : findSupported name = some spec := by
    cases hname : findSupported name with
    | none => rw [hname] at hspec; nomatch hspec
    | some found => rw [hname] at hspec; rw [Except.ok.inj hspec]
  obtain ⟨source, -, h⟩ := bind_eq_ok.1 h
  dsimp only at h
  split at h
  · obtain rfl := Except.ok.inj h
    exact ⟨spec, hfind, rfl⟩
  · obtain ⟨payload, -, h⟩ := bind_eq_ok.1 h
    split at h
    · nomatch h
    · split at h
      · nomatch h
      · split at h
        · nomatch h
        · obtain rfl := Except.ok.inj h
          exact ⟨spec, hfind, rfl⟩

/-- The file of a component is in a directory of the component, in the directory of the component, or in the components directory. -/
theorem getFullPath_cached (h : IsFullPath dataRoot) {component : VerifiedClientComponent} (hcached : IsCached dataRoot component) :
    ∃ name file : Text, ∃ path, getFullPath p component.filePath = some path ∧
      ((∃ version, path = componentsPath dataRoot ++ [name, version, file]) ∨ path = componentsPath dataRoot ++ [name, file] ∨
        path = componentsPath dataRoot ++ [file]) := by
  obtain ⟨spec, hfind, hpath⟩ := hcached
  obtain ⟨⟨hname, hnameNull⟩, hfile, hfileNull⟩ := isFileName_supported hfind
  obtain ⟨hversion, hversionNull⟩ := sanitizePathSegment_chars component.version
  obtain ⟨n, hvolume⟩ := Option.isSome_iff_exists.mp h.1
  have hcomponents := isFileName_componentsName
  have hbase : componentsPath dataRoot =
      (pathNames dataRoot).take n ++ (((pathNames dataRoot).drop n).foldl enterName [] ++ [componentsName]) := by
    rw [componentsPath, baseOf, hvolume, Option.getD_some, List.append_assoc]
  refine ⟨component.name, spec.fileName,
    normalPath (pathNames dataRoot ++ [componentsName, component.name, sanitizePathSegment component.version, spec.fileName]), ?_, ?_⟩
  · rw [hpath]
    refine getFullPath_combine h ?_ ?_
    · simp only [List.forall_mem_cons]
      exact ⟨hcomponents.2.2.2, hname.2.2.2, hversion, hfile.2.2.2, fun _ hmem => by cases hmem⟩
    · simp only [List.forall_mem_cons]
      exact ⟨by decide, hnameNull, hversionNull, hfileNull, fun _ hmem => by cases hmem⟩
  · rw [normalPath_append hvolume (List.cons_ne_nil _ _), hbase]
    have hresolve : ∀ names, resolveNames names [componentsName, component.name, sanitizePathSegment component.version, spec.fileName] =
        enterName (names ++ [componentsName] ++ [component.name]) (sanitizePathSegment component.version) ++ [spec.fileName] := by
      intro names
      rw [← enterLast_of_isFileName hfile, ← enterName_of_isFileName hname, ← enterName_of_isFileName hcomponents]
      rfl
    rw [hresolve]
    rcases enterName_cases (((pathNames dataRoot).drop n).foldl enterName [] ++ [componentsName] ++ [component.name])
      (sanitizePathSegment component.version) with heq | heq | ⟨version, heq⟩
    · exact .inr (.inl (by rw [heq]; simp))
    · exact .inr (.inr (by rw [heq]; simp))
    · exact .inl ⟨version, by rw [heq]; simp⟩

/-- What an update check returns is in the cache. -/
theorem cached_checkComponents {sha256 : Bytes → Text} {uris : Uris} {m : Installation} {e : Surroundings} {verified : VerifiedComponents}
    (h : checkComponents sha256 uris m e = .ok verified) : ∀ item ∈ verified, IsCached m.persistentDataDirectory item.2 := by
  obtain ⟨components, -, h⟩ := bind_eq_ok.1 h
  obtain ⟨verified', hfold, h⟩ := bind_eq_ok.1 h
  split at h
  · nomatch h
  obtain rfl := Except.ok.inj h
  refine foldlM_induction (I := fun verified : VerifiedComponents => ∀ item ∈ verified, IsCached m.persistentDataDirectory item.2)
    (fun verified item verified' hcached hstep => ?_) hfold fun _ hmem => nomatch hmem
  obtain ⟨definition, -, hstep⟩ := bind_eq_ok.1 hstep
  obtain ⟨⟨⟩, -, hstep⟩ := bind_eq_ok.1 hstep
  obtain ⟨provided, -, hstep⟩ := bind_eq_ok.1 hstep
  split at hstep
  · obtain rfl := Except.ok.inj hstep
    exact hcached
  · obtain ⟨component, hcomponent, hstep⟩ := bind_eq_ok.1 hstep
    obtain rfl := Except.ok.inj hstep
    intro other hother
    rcases Dict.mem_set hother with rfl | hother
    · exact cached_ensureCached hcomponent
    · exact hcached other hother

theorem directoryName_components (h : IsFullPath dataRoot) (rest : PathNames) :
    directoryName (componentsPath dataRoot ++ rest) = some (componentsPath dataRoot ++ rest).dropLast := by
  obtain ⟨n, hvolume⟩ := Option.isSome_iff_exists.mp h.1
  obtain ⟨hbase, -, hle, -⟩ := @volumeLength_baseOf (componentsName :: rest) _ _ hvolume (List.cons_ne_nil _ _)
  have hpath : componentsPath dataRoot ++ rest = baseOf (pathNames dataRoot) ++ componentsName :: rest := by simp [componentsPath]
  have hlt : n < (baseOf (pathNames dataRoot) ++ componentsName :: rest).length := by
    rw [List.length_append, List.length_cons]
    omega
  rw [hpath, directoryName, hbase, Option.bind_some, if_pos hlt]

/-- The directories that are read of a state that was written are those of the files of its components. -/
theorem recordedDirectories_state (h : IsFullPath dataRoot) {uriText : SourceUri → Text} {updatedAt channel : Text} {manifestUri : SourceUri}
    {verified : VerifiedComponents} (hcached : ∀ item ∈ verified, IsCached dataRoot item.2) :
    recordedDirectories p (stateDocument uriText updatedAt channel manifestUri verified) =
      some (verified.filterMap (fun item => (getFullPath p item.2.filePath).map List.dropLast)) := by
  have hitem : ∀ item ∈ verified, recordedDirectory p (.object
      [ ("Version".toList, .str item.2.version), ("Sha256".toList, .str (item.2.sha256.map Char.toLower)),
        ("FilePath".toList, .str item.2.filePath), ("Source".toList, .str (uriText item.2.sourceUri)) ]) =
      some ((getFullPath p item.2.filePath).map List.dropLast) := by
    intro item hmem
    obtain ⟨name, file, path, hfull, hcases⟩ := getFullPath_cached (p := p) h (hcached item hmem)
    have hblank : isBlank item.2.filePath = false := by
      obtain ⟨spec, -, hpath⟩ := hcached item hmem
      rw [isBlank, List.all_eq_false]
      refine ⟨'\\', ?_, by decide⟩
      rw [hpath]
      exact List.mem_append_right _ List.mem_cons_self
    have hread : recordedDirectory p (.object
      [ ("Version".toList, .str item.2.version), ("Sha256".toList, .str (item.2.sha256.map Char.toLower)),
        ("FilePath".toList, .str item.2.filePath), ("Source".toList, .str (uriText item.2.sourceUri)) ]) =
        if isBlank item.2.filePath then some none else (getFullPath p item.2.filePath).map directoryName := rfl
    rw [hread, hblank, hfull]
    rcases hcases with ⟨version, rfl⟩ | rfl | rfl <;>
      exact congrArg some (directoryName_components h _)
  have hmembers : recordedDirectories p (stateDocument uriText updatedAt channel manifestUri verified) =
      ((verified.map (fun item => (item.1, Json.object
        [ ("Version".toList, .str item.2.version), ("Sha256".toList, .str (item.2.sha256.map Char.toLower)),
          ("FilePath".toList, .str item.2.filePath), ("Source".toList, .str (uriText item.2.sourceUri)) ]))).mapM
            (fun member => recordedDirectory p member.2)).map (·.filterMap id) := rfl
  have hmap : ∀ items : VerifiedComponents, (∀ item ∈ items, item ∈ verified) →
      (items.map (fun item => (item.1, Json.object
        [ ("Version".toList, .str item.2.version), ("Sha256".toList, .str (item.2.sha256.map Char.toLower)),
          ("FilePath".toList, .str item.2.filePath), ("Source".toList, .str (uriText item.2.sourceUri)) ]))).mapM
            (fun member => recordedDirectory p member.2) =
        some (items.map (fun item => (getFullPath p item.2.filePath).map List.dropLast)) := by
    intro items hitems
    induction items with
    | nil => rfl
    | cons item items ih =>
      obtain ⟨hfirst, hrest⟩ := List.forall_mem_cons.mp hitems
      rw [List.map_cons, List.mapM_cons, hitem item hfirst, ih hrest]
      rfl
  rw [hmembers, hmap verified fun _ hmem => hmem, Option.map_some, List.filterMap_map]
  rfl

end Recorded

/-! ## What is left -/

section Left

variable {p : Platform} {faults : Faults} {dataRoot : Text}

/-- A version of a component. -/
def IsVersion (p : Platform) (entries : List Entry) (root : PathNames) (component version : FileName × Int) : Prop :=
  component ∈ enumerateDirectories p entries root ∧ version ∈ enumerateDirectories p entries (root ++ [component.1.1])

/-- A directory has the recorded file of a component. -/
def IsRecorded (p : Platform) (verified : VerifiedComponents) (directory : PathNames) : Prop :=
  ∃ item ∈ verified, ∃ path, getFullPath p item.2.filePath = some path ∧ pathKey p path.dropLast = pathKey p directory

/-- A version is one of the two that were written last, or is recorded. -/
def IsRetained (p : Platform) (entries : List Entry) (root : PathNames) (verified : VerifiedComponents) (component version : FileName × Int) :
    Prop :=
  countHigher (versionKey p) (enumerateDirectories p entries (root ++ [component.1.1])) version < 2 ∨
    IsRecorded p verified (versionPath root component.1 version.1)

/-- What a pruning leaves: the recorded files, everything outside the versions, and the versions that are to be retained; of the others
nothing, where nothing fails. -/
structure PrunedTo (p : Platform) (faults : Faults) (root : PathNames) (verified : VerifiedComponents) (before after : List Entry) : Prop where
  active : ∀ item ∈ verified, ∀ path, getFullPath p item.2.filePath = some path → ∀ content,
    find p before path = some (.file content) → find p after path = some (.file content)
  outside : ∀ path, (∀ component version, IsVersion p before root component version →
    ¬ pathKey p (versionPath root component.1 version.1) <+: pathKey p path) → find p after path = find p before path
  retained : ∀ component version, IsVersion p before root component version → IsRetained p before root verified component version →
    ∀ path, pathKey p (versionPath root component.1 version.1) <+: pathKey p path → find p after path = find p before path
  deleted : faults.stateUnreadable = false → faults.componentsSeen = none → ∀ component version,
    IsVersion p before root component version → ¬ IsRetained p before root verified component version →
      faults.versionsFail (root ++ [component.1.1]) = false → faults.deletion (versionPath root component.1 version.1) = none →
        ∀ path, pathKey p (versionPath root component.1 version.1) <+: pathKey p path → find p after path = none

variable {entries : List Entry} {active : List PathNames} {components : List (FileName × Int)} {root path : PathNames}

/-- The names of versions give them different ranks. -/
theorem nodup_versionKey (hdistinct : (entries.map (fun entry => pathKey p entry.path)).Nodup) (directory : PathNames) :
    ((enumerateDirectories p entries directory).map (versionKey p)).Nodup := by
  rw [List.Nodup, List.pairwise_map]
  refine (List.pairwise_map.mp (nodup_enumerated hdistinct directory)).imp fun {version other} hne heq => hne ?_
  exact utf16Units_inj (Prod.mk.inj (toLex_inj.mp heq)).2

/-- What is not in a deleted directory is as it was. -/
theorem find_survives {doomed : List PathNames} (h : ∀ directory ∈ doomed, ¬ pathKey p directory <+: pathKey p path) :
    find p (entries.filter (survives p faults doomed)) path = find p entries path := by
  refine find_filter_kept fun entry _ hkey => ?_
  rw [survives, List.all_eq_true]
  intro directory hdirectory
  rw [Bool.not_eq_true']
  by_contra hremoves
  exact h directory hdirectory (hkey ▸ isWithin_of_removes (by simpa using hremoves))

/-- In a deleted directory there is nothing. -/
theorem find_deleted {doomed : List PathNames} {directory : PathNames} (hdirectory : directory ∈ doomed)
    (hdeletion : faults.deletion directory = none) (hpath : pathKey p directory <+: pathKey p path) :
    find p (entries.filter (survives p faults doomed)) path = none := by
  refine find_filter_removed fun entry _ hkey => ?_
  have hwithin : isWithin p directory entry = true := by
    rw [isWithin, List.isPrefixOf_iff_prefix, hkey]
    exact hpath
  rw [survives, List.all_eq_false]
  exact ⟨directory, hdirectory, by simp [removes, hwithin, hdeletion]⟩

/-- The path of a version is no longer than those in it. -/
theorem length_of_within {component version : FileName} (h : pathKey p (versionPath root component version) <+: pathKey p path) :
    root.length + 2 ≤ path.length := by
  have hlength := h.length_le
  rw [pathKey_versionPath, List.length_append] at hlength
  simpa [pathKey] using hlength

/-- A path in a version that is no longer than its own is its own. -/
theorem eq_of_within {component version : FileName} (h : pathKey p (versionPath root component version) <+: pathKey p path)
    (hlength : path.length = root.length + 2) : pathKey p (versionPath root component version) = pathKey p path := by
  refine h.eq_of_length ?_
  rw [pathKey_versionPath, List.length_append]
  simp [pathKey, hlength]

theorem names_of_key {component version component' version' : FileName}
    (h : pathKey p (versionPath root component version) = pathKey p (versionPath root component' version')) :
    upperText p component.1 = upperText p component'.1 ∧ upperText p version.1 = upperText p version'.1 := by
  rw [pathKey_versionPath, pathKey_versionPath] at h
  simpa using List.append_cancel_left h

/-- Two versions with a path in both have one path. -/
theorem key_of_within {component version component' version' : FileName}
    (h : pathKey p (versionPath root component version) <+: pathKey p path)
    (h' : pathKey p (versionPath root component' version') <+: pathKey p path) :
    pathKey p (versionPath root component version) = pathKey p (versionPath root component' version') :=
  List.IsPrefix.eq_of_length (List.prefix_of_prefix_length_le h h' (by simp [pathKey_versionPath])) (by simp [pathKey_versionPath])

/-- The directories of the recorded files. -/
def recordedPaths (p : Platform) (verified : VerifiedComponents) : List PathNames :=
  verified.filterMap (fun item => (getFullPath p item.2.filePath).map List.dropLast)

theorem isRecorded_iff {verified : VerifiedComponents} {directory : PathNames} :
    IsRecorded p verified directory ↔ pathKey p directory ∈ (recordedPaths p verified).map (pathKey p) := by
  simp only [IsRecorded, recordedPaths, List.mem_map, List.mem_filterMap, Option.map_eq_some_iff]
  constructor
  · rintro ⟨item, hitem, path, hpath, hkey⟩
    exact ⟨_, ⟨item, hitem, path, hpath, rfl⟩, hkey⟩
  · rintro ⟨_, ⟨item, hitem, path, hpath, rfl⟩, hkey⟩
    exact ⟨item, hitem, path, hpath, hkey⟩

/-- What a pruning deletes is a version that is not retained. -/
theorem mem_doomed (hroot : IsNormalDirectory root) (hdistinct : (entries.map (fun entry => pathKey p entry.path)).Nodup)
    (hcomponents : ∀ component ∈ components, component ∈ enumerateDirectories p entries root) {verified : VerifiedComponents}
    {directory : PathNames} (h : directory ∈ doomed p faults componentVersionsToKeep root (recordedPaths p verified) entries components) :
    ∃ component version, IsVersion p entries root component version ∧ ¬ IsRetained p entries root verified component version ∧
      directory = versionPath root component.1 version.1 := by
  obtain ⟨component, hcomponent, hdoomed⟩ := List.mem_flatMap.mp h
  obtain ⟨-, version, hversion, rfl, hactive, hlast⟩ := (mem_doomedOf hroot).mp hdoomed
  refine ⟨component, version, ⟨hcomponents component hcomponent, hversion⟩, ?_, rfl⟩
  rintro (hhigher | hrecorded)
  · exact hlast version ((mem_take_rankBy (nodup_versionKey hdistinct _) 2 version).mpr ⟨hversion, hhigher⟩) rfl
  · exact hactive (isRecorded_iff.mp hrecorded)

/-- A version that is not retained is deleted. -/
theorem doomed_of_not_retained (hroot : IsNormalDirectory root) (hdistinct : (entries.map (fun entry => pathKey p entry.path)).Nodup)
    {verified : VerifiedComponents} {component version : FileName × Int} (hversion : IsVersion p entries root component version)
    (hretained : ¬ IsRetained p entries root verified component version) (hfail : faults.versionsFail (root ++ [component.1.1]) = false)
    (hmem : component ∈ components) :
    versionPath root component.1 version.1 ∈
      doomed p faults componentVersionsToKeep root (recordedPaths p verified) entries components := by
  obtain ⟨hhigher, hrecorded⟩ := not_or.mp hretained
  refine List.mem_flatMap.mpr ⟨component, hmem, (mem_doomedOf hroot).mpr ⟨hfail, version, hversion.2, rfl, ?_, ?_⟩⟩
  · exact fun hactive => hrecorded (isRecorded_iff.mpr hactive)
  · intro other hother heq
    obtain ⟨hother, hfirst⟩ := (mem_take_rankBy (nodup_versionKey hdistinct _) 2 other).mp hother
    obtain rfl : other = version := List.inj_on_of_nodup_map (nodup_enumerated hdistinct _) hother hversion.2 (names_of_key heq).2
    exact hhigher hfirst

/-- Versions at one path are one. -/
theorem version_unique (hdistinct : (entries.map (fun entry => pathKey p entry.path)).Nodup)
    {component version component' version' : FileName × Int} (hversion : IsVersion p entries root component version)
    (hversion' : IsVersion p entries root component' version')
    (hkey : pathKey p (versionPath root component.1 version.1) = pathKey p (versionPath root component'.1 version'.1)) :
    component = component' ∧ version = version' := by
  obtain ⟨hcomponent, hname⟩ := names_of_key hkey
  obtain rfl := List.inj_on_of_nodup_map (nodup_enumerated hdistinct _) hversion.1 hversion'.1 hcomponent
  exact ⟨rfl, List.inj_on_of_nodup_map (nodup_enumerated hdistinct _) hversion.2 hversion'.2 hname⟩

/-- What a pruning with the recorded directories leaves. -/
theorem prunedTo_filter (hfull : IsFullPath dataRoot) (hdistinct : (entries.map (fun entry => pathKey p entry.path)).Nodup)
    {verified : VerifiedComponents} (hcached : ∀ item ∈ verified, IsCached dataRoot item.2)
    (hcomponents : ∀ component ∈ components, component ∈ enumerateDirectories p entries (componentsPath dataRoot))
    (hall : faults.componentsSeen = none → components = enumerateDirectories p entries (componentsPath dataRoot)) :
    PrunedTo p faults (componentsPath dataRoot) verified entries (entries.filter (survives p faults
      (doomed p faults componentVersionsToKeep (componentsPath dataRoot) (recordedPaths p verified) entries components))) := by
  have hroot := isNormal_componentsPath hfull
  refine ⟨fun item hitem path hpath content hfind => ?_, fun path houtside => ?_, fun component version hversion hretained path hpath => ?_,
    fun _ hseen component version hversion hretained hfail hdeletion path hpath => ?_⟩
  · rw [find_survives, hfind]
    intro directory hdirectory hprefix
    obtain ⟨component, version, hversion, hretained, rfl⟩ := mem_doomed hroot hdistinct hcomponents hdirectory
    obtain ⟨name, file, path', hpath', hcases⟩ := getFullPath_cached (p := p) hfull (hcached item hitem)
    obtain rfl : path' = path := Option.some.inj (hpath'.symm.trans hpath)
    rcases hcases with ⟨version', rfl⟩ | rfl | rfl
    · -- the version has the file, so that it is recorded
      have hdirectory : componentsPath dataRoot ++ [name, version', file] = componentsPath dataRoot ++ [name, version'] ++ [file] := by simp
      have hkey : pathKey p (versionPath (componentsPath dataRoot) component.1 version.1) =
          pathKey p (componentsPath dataRoot ++ [name, version']) := by
        have hparent : pathKey p (componentsPath dataRoot ++ [name, version']) <+:
            pathKey p (componentsPath dataRoot ++ [name, version', file]) := by
          rw [hdirectory, pathKey_append _ [file]]
          exact List.prefix_append _ _
        exact eq_of_within (List.prefix_of_prefix_length_le hprefix hparent (by simp [versionPath, pathKey])) (by simp)
      refine hretained (.inr ⟨item, hitem, _, hpath, ?_⟩)
      rw [hdirectory, List.dropLast_concat, hkey]
    · -- the path of the file is that of a directory
      have hkey := eq_of_within hprefix (by simp)
      have hdirectory := find_enumerated hdistinct hversion.2
      rw [List.append_assoc] at hdirectory
      have hfile : find p entries (versionPath (componentsPath dataRoot) component.1 version.1) = some (.file content) :=
        (find_congr hkey).trans hfind
      nomatch hfile.symm.trans hdirectory
    · have hlength := length_of_within hprefix
      simp at hlength
  · refine find_survives fun directory hdirectory hprefix => ?_
    obtain ⟨component, version, hversion, -, rfl⟩ := mem_doomed hroot hdistinct hcomponents hdirectory
    exact houtside component version hversion hprefix
  · refine find_survives fun directory hdirectory hprefix => ?_
    obtain ⟨component', version', hversion', hdoomed, rfl⟩ := mem_doomed hroot hdistinct hcomponents hdirectory
    obtain ⟨rfl, rfl⟩ := version_unique hdistinct hversion hversion' (key_of_within hpath hprefix)
    exact hdoomed hretained
  · exact find_deleted (doomed_of_not_retained hroot hdistinct hversion hretained hfail (hall hseen ▸ hversion.1)) hdeletion hpath

end Left

/-! ## The pruning -/

section Pruning

variable {p : Platform} {faults : Faults} {dataRoot : Text} {entries : List Entry}

/-- The components whose versions are looked at. -/
def seenComponents (p : Platform) (faults : Faults) (entries : List Entry) (root : PathNames) : List (FileName × Int) :=
  faults.componentsSeen.elim (enumerateDirectories p entries root) (enumerateDirectories p entries root).take

theorem mem_seenComponents {root : PathNames} {component : FileName × Int} (h : component ∈ seenComponents p faults entries root) :
    component ∈ enumerateDirectories p entries root := by
  unfold seenComponents at h
  cases hseen : faults.componentsSeen with
  | none => rwa [hseen] at h
  | some n => rw [hseen] at h; exact List.mem_of_mem_take h

theorem nodup_seenComponents (hdistinct : (entries.map (fun entry => pathKey p entry.path)).Nodup) (root : PathNames) :
    ((seenComponents p faults entries root).map (fun component => upperText p component.1.1)).Nodup := by
  have hnodup := nodup_enumerated hdistinct root
  unfold seenComponents
  cases faults.componentsSeen with
  | none => exact hnodup
  | some n =>
    rw [Option.elim_some, List.map_take]
    exact hnodup.sublist (List.take_sublist _ _)

/-- A pruning deletes what was to be deleted when it started. -/
theorem prune_eq (hfull : IsFullPath dataRoot) (hdistinct : (entries.map (fun entry => pathKey p entry.path)).Nodup)
    (hdirectory : directoryExists p entries (componentsPath dataRoot) = true) {active : List PathNames}
    (hactive : readActiveComponentDirectories p faults entries (componentsPath dataRoot) = some active) (keep : Int) :
    pruneComponentVersions p faults (componentsRoot dataRoot) keep entries =
      entries.filter (survives p faults (doomed p faults keep (componentsPath dataRoot) active entries
        (seenComponents p faults entries (componentsPath dataRoot)))) := by
  rw [pruneComponentVersions, getFullPath_componentsRoot hfull]
  simp only [hdirectory, hactive, Bool.not_true, Bool.false_eq_true, if_false]
  exact foldl_pruneComponent (isNormal_componentsPath hfull) _ (nodup_seenComponents hdistinct _)

/-- Where all versions are taken for recorded, nothing is deleted. -/
theorem prune_fallback (hfull : IsFullPath dataRoot) (hdistinct : (entries.map (fun entry => pathKey p entry.path)).Nodup)
    (hdirectory : directoryExists p entries (componentsPath dataRoot) = true)
    (hactive : readActiveComponentDirectories p faults entries (componentsPath dataRoot) =
      if faults.fallbackFails then none else some (allVersions p entries (componentsPath dataRoot))) (keep : Int) :
    pruneComponentVersions p faults (componentsRoot dataRoot) keep entries = entries := by
  have hroot := isNormal_componentsPath hfull
  by_cases hfallback : faults.fallbackFails = true
  · rw [if_pos hfallback] at hactive
    rw [pruneComponentVersions, getFullPath_componentsRoot hfull]
    simp only [hdirectory, hactive, Bool.not_true, Bool.false_eq_true, if_false]
  · rw [if_neg hfallback] at hactive
    rw [prune_eq hfull hdistinct hdirectory hactive]
    refine List.filter_eq_self.mpr fun entry _ => ?_
    rw [survives, List.all_eq_true]
    intro directory hdoomed
    obtain ⟨component, hcomponent, hdoomed⟩ := List.mem_flatMap.mp hdoomed
    obtain ⟨-, version, hversion, rfl, hactive, -⟩ := (mem_doomedOf hroot).mp hdoomed
    refine absurd (List.mem_map_of_mem ?_) hactive
    refine List.mem_flatMap.mpr ⟨component, mem_seenComponents hcomponent, List.mem_map.mpr ⟨version, hversion, ?_⟩⟩
    exact hroot [component.1.1, version.1.1] (List.cons_ne_nil _ _) (by simp [component.1.2, version.1.2])

/-- A pruning that changes nothing leaves what it should, if the state could not be read. -/
theorem prunedTo_refl {root : PathNames} {verified : VerifiedComponents} (h : faults.stateUnreadable = true) :
    PrunedTo p faults root verified entries entries :=
  ⟨fun _ _ _ _ _ hfind => hfind, fun _ _ => rfl, fun _ _ _ _ _ _ => rfl, fun hread => absurd (h.symm.trans hread) (by decide)⟩

/-- Whatever fails, a pruning deletes no file that is recorded and nothing outside the versions. Of each component it leaves the two
versions that were written last and the recorded ones; if the state cannot be parsed, it deletes nothing. -/
theorem component_cache_pruned (p : Platform) (faults : Faults) (tree : DirectoryTree p) {dataRoot : Text} (hfull : IsFullPath dataRoot)
    (hdirectory : directoryExists p tree.entries (componentsPath dataRoot) = true) {content : Bytes}
    (hstate : find p tree.entries (componentsPath dataRoot ++ [componentStateName]) = some (.file content)) :
    (∀ (sha256 : Bytes → Text) (uris : Uris) (m : Installation) (e : Surroundings) (verified : VerifiedComponents),
      m.persistentDataDirectory = dataRoot → checkComponents sha256 uris m e = .ok verified →
      ∀ (uriText : SourceUri → Text) (updatedAt channel : Text) (manifestUri : SourceUri),
        p.parse content = some (stateDocument uriText updatedAt channel manifestUri verified) →
        PrunedTo p faults (componentsPath dataRoot) verified tree.entries
          (pruneComponentVersions p faults (componentsRoot dataRoot) componentVersionsToKeep tree.entries)) ∧
    (p.parse content = none →
      pruneComponentVersions p faults (componentsRoot dataRoot) componentVersionsToKeep tree.entries = tree.entries) := by
  constructor
  · intro sha256 uris m e verified hdata hcheck uriText updatedAt channel manifestUri hparse
    have hcached : ∀ item ∈ verified, IsCached dataRoot item.2 := hdata ▸ cached_checkComponents hcheck
    by_cases hread : faults.stateUnreadable = true
    · rw [prune_fallback hfull tree.distinct hdirectory (by simp only [readActiveComponentDirectories, hstate, if_pos hread])]
      exact prunedTo_refl hread
    · have hactive : readActiveComponentDirectories p faults tree.entries (componentsPath dataRoot) = some (recordedPaths p verified) := by
        simp only [readActiveComponentDirectories, hstate, if_neg hread, hparse, Option.bind_some, recordedDirectories_state hfull hcached,
          recordedPaths]
      rw [prune_eq hfull tree.distinct hdirectory hactive]
      refine prunedTo_filter hfull tree.distinct hcached (fun component => mem_seenComponents) fun hseen => ?_
      rw [seenComponents, hseen]
      rfl
  · intro hparse
    refine prune_fallback hfull tree.distinct hdirectory ?_ _
    simp only [readActiveComponentDirectories, hstate, hparse, Option.bind_none, ite_self]

end Pruning

/-! ## A pruning -/

def sampleManifestUri : SourceUri :=
  { scheme := "http".toList, host := "update".toList, port := 80, absolutePath := "/client_components_v2.json".toList }

def sampleUris : Uris where
  absolute _ := none
  relative base t := some { base with absolutePath := '/' :: t }

def sampleDigest (_ : Bytes) : Text := List.replicate 64 '0'

def sampleRoot : Text := "C:\\data".toList

def sampleInstallation : Installation where
  channel := .stable
  packageManifest := none
  componentState := none
  persistentDataDirectory := sampleRoot
  files _ := none

/-- The server offers version 1.0.0 of the hooks. -/
def sampleSurroundings : Surroundings where
  launcherVersion := "1.0.0".toList
  manifestUri := sampleManifestUri
  served := .ok (some
    { schemaVersion := supportedSchemaVersion, channel := "stable".toList
      components := some [(hooksComponentName, some
        { version := "1.0.0".toList, sha256 := sampleDigest [], url := "uplay_r1_loader.dll".toList
          updateMode := "before-game-start".toList, required := true })] })
  download _ := some []
  canWrite _ := true

def sampleComponents : VerifiedComponents :=
  [(upperName hooksComponentName,
    { name := hooksComponentName, version := "1.0.0".toList, sha256 := sampleDigest [], channel := "stable".toList
      filePath := "C:\\data\\components\\hooks\\1.0.0\\uplay_r1_loader.dll".toList
      sourceUri := { sampleManifestUri with absolutePath := "/uplay_r1_loader.dll".toList } })]

def samplePlatform : Platform where
  upper := Char.toUpper
  relativePath _ := none
  parse content := if content = [1] then some (stateDocument SourceUri.absolutePath [] [] sampleManifestUri sampleComponents) else none

/-- Three versions of the hooks, the oldest of which is recorded. -/
def sampleTree : DirectoryTree samplePlatform where
  entries :=
    let hooks : FileName := ⟨hooksComponentName, isFileName_of_all (by decide) rfl⟩
    let root := componentsPath sampleRoot
    [ { parent := root.dropLast, name := ⟨componentsName, isFileName_componentsName⟩, node := .directory 3 },
      { parent := root, name := ⟨componentStateName, isFileName_of_all (by decide) rfl⟩, node := .file [1] },
      { parent := root, name := hooks, node := .directory 2 },
      { parent := root ++ [hooksComponentName], name := ⟨"1.0.0".toList, isFileName_of_all (by decide) rfl⟩, node := .directory 0 },
      { parent := root ++ [hooksComponentName], name := ⟨"1.1.0".toList, isFileName_of_all (by decide) rfl⟩, node := .directory 1 },
      { parent := root ++ [hooksComponentName], name := ⟨"1.2.0".toList, isFileName_of_all (by decide) rfl⟩, node := .directory 2 } ]
  distinct := by decide +kernel

theorem component_cache_pruned_sample : PrunedTo samplePlatform {} (componentsPath sampleRoot) sampleComponents sampleTree.entries
    (pruneComponentVersions samplePlatform {} (componentsRoot sampleRoot) componentVersionsToKeep sampleTree.entries) :=
  have hstate : find samplePlatform sampleTree.entries (componentsPath sampleRoot ++ [componentStateName]) = some (.file [1]) := by
    decide +kernel
  (component_cache_pruned samplePlatform {} sampleTree ⟨by decide +kernel, by decide⟩ (by decide +kernel) hstate).1
    sampleDigest sampleUris sampleInstallation sampleSurroundings sampleComponents rfl (by decide +kernel)
    SourceUri.absolutePath [] [] sampleManifestUri rfl

end Scbl.Launcher.ClientStorageMaintenanceService
