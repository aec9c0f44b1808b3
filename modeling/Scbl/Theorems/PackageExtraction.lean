import Scbl.Lib.Panic
import Scbl.Manager.DeploymentPackage

/-!
# The extraction of verified packages

What is verified is looked up under names in which backslashes are slashes, and compared with sizes that the headers tell; what is extracted
is looked up under the names themselves and written to paths that may meet.
-/

namespace Scbl.Manager.DeploymentManager

open Scbl.Lib Json
open ClientPublisher (pathParts)

section Extraction

variable {unzip : Bytes → Option (List ZipInfo)} {loads : Bytes → Option Json} {sha256 : Bytes → Text} {bundle : List ZipInfo}

/-- What the entry under the path of an artifact holds. -/
def contentNamed (bundle : List ZipInfo) (artifact : Artifact) : Option Bytes := (entryNamed bundle artifact.path).bind ZipInfo.content

/-- Neither path leads to the other. -/
def Apart (a b : Artifact) : Prop := ¬ pathParts a.path <+: pathParts b.path ∧ ¬ pathParts b.path <+: pathParts a.path

instance (a b : Artifact) : Decidable (Apart a b) := inferInstanceAs (Decidable (_ ∧ _))

/-- A package that can be extracted: the path of each artifact is the name of an entry with the declared size and digest, it names more
than the destination, and it neither is the path of another one nor leads to it. -/
structure IsExtractable (sha256 : Bytes → Text) (bundle : List ZipInfo) (artifacts : List Artifact) : Prop where
  declared : ∀ artifact ∈ artifacts, ∃ content, contentNamed bundle artifact = some content ∧ content.length = artifact.size ∧
    sha256 content = artifact.sha256
  named : ∀ artifact ∈ artifacts, pathParts artifact.path ≠ []
  apart : artifacts.Pairwise Apart

/-- The package is extracted: each component is mapped to a file with the declared size and digest, and no two to one. -/
def Extracts (unzip : Bytes → Option (List ZipInfo)) (sha256 : Bytes → Text) (content : Bytes) (package : DeploymentPackage) : Prop :=
  ∃ files tree, extractArtifacts unzip content package FileTree.empty = .ok (files, tree) ∧
    (∀ artifact ∈ package.artifacts, ∃ path file, Dict.get files artifact.component = some path ∧ tree.node path = some (.file file) ∧
      file.length = artifact.size ∧ sha256 file = artifact.sha256) ∧
    ∀ a ∈ package.artifacts, ∀ b ∈ package.artifacts, a.component ≠ b.component →
      Dict.get files a.component ≠ Dict.get files b.component

theorem apart_irrefl {a b : Artifact} (h : pathParts a.path = pathParts b.path) : ¬ Apart a b := fun hapart => hapart.1 (h ▸ List.prefix_rfl)

instance : Std.Symm Apart := ⟨fun _ _ h => ⟨h.2, h.1⟩⟩

/-- The artifacts that are extracted are in the tree, and nothing else but the directories they are in. -/
structure Holds (bundle : List ZipInfo) (done : List Artifact) (tree : FileTree Text) : Prop where
  file : ∀ path content, tree.node path = some (.file content) ↔
    ∃ artifact ∈ done, pathParts artifact.path = path ∧ contentNamed bundle artifact = some content
  directory : ∀ path, tree.node path = some .directory ↔
    path = [] ∨ ∃ artifact ∈ done, path <+: pathParts artifact.path ∧ path ≠ pathParts artifact.path

theorem holds_nil : Holds bundle [] FileTree.empty where
  file path content := by
    rw [FileTree.node_empty]
    constructor
    · intro h
      split at h <;> cases h
    · rintro ⟨_, hmem, -⟩
      cases hmem
  directory path := by
    rw [FileTree.node_empty]
    constructor
    · intro h
      split at h
      · rename_i hpath
        exact .inl hpath
      · cases h
    · rintro (rfl | ⟨_, hmem, -⟩)
      · rfl
      · cases hmem

variable {done : List Artifact} {files files' : ExtractedFiles} {tree tree' : FileTree Text} {artifact : Artifact}

theorem demand_eq_ok {α : Type} {failure : PackageFailure} {value : Option α} {a : α} (h : demand failure value = .ok a) : value = some a := by
  cases value with
  | none => nomatch h
  | some a' => rw [Except.ok.inj h]

/-- An artifact that is extracted has an entry, is apart from those before it, and is in the tree. -/
theorem extractArtifact_eq_ok (hholds : Holds bundle done tree) (hread : ∀ artifact ∈ done, (contentNamed bundle artifact).isSome)
    (h : extractArtifact bundle (files, tree) artifact = .ok (files', tree')) :
    (contentNamed bundle artifact).isSome ∧ pathParts artifact.path ≠ [] ∧ (∀ other ∈ done, Apart other artifact) ∧
      files' = Dict.set files artifact.component (pathParts artifact.path) ∧ Holds bundle (done ++ [artifact]) tree' := by
  obtain ⟨tree₁, hparents, h⟩ := bind_eq_ok.mp h
  obtain ⟨info, hinfo, h⟩ := bind_eq_ok.mp h
  obtain ⟨content, hcontent, h⟩ := bind_eq_ok.mp h
  obtain ⟨tree₂, hplace, h⟩ := bind_eq_ok.mp h
  obtain ⟨rfl, rfl⟩ := Prod.mk.inj (Except.ok.inj h)
  obtain ⟨⟨hne, hnone, hfree⟩, hnode⟩ := FileTree.place_makeDirectories (demand_eq_ok hparents) (demand_eq_ok hplace)
  have hnamed : contentNamed bundle artifact = some content := by
    rw [contentNamed, demand_eq_ok hinfo, Option.bind_some, demand_eq_ok hcontent]
  have hnofile : ∀ path file, path <+: pathParts artifact.path → tree.node path ≠ some (.file file) := by
    intro path file hprefix hfile
    by_cases heq : path = pathParts artifact.path
    · rw [heq, hnone] at hfile
      cases hfile
    · rcases hfree path hprefix heq with hdirectory | hnothing
      · cases hdirectory.symm.trans hfile
      · cases hnothing.symm.trans hfile
  refine ⟨by rw [hnamed]; rfl, hne, fun other hother => ⟨fun hprefix => ?_, fun hprefix => ?_⟩, rfl, fun path file => ?_, fun path => ?_⟩
  · obtain ⟨file, hfile⟩ := Option.isSome_iff_exists.mp (hread other hother)
    exact hnofile _ file hprefix ((hholds.file _ file).mpr ⟨other, hother, rfl, hfile⟩)
  · obtain ⟨file, hfile⟩ := Option.isSome_iff_exists.mp (hread other hother)
    by_cases heq : pathParts artifact.path = pathParts other.path
    · exact hnofile _ file (heq ▸ List.prefix_rfl) ((hholds.file _ file).mpr ⟨other, hother, rfl, hfile⟩)
    · cases hnone.symm.trans ((hholds.directory _).mpr (.inr ⟨other, hother, hprefix, heq⟩))
  · simp only [List.mem_append, List.mem_singleton, or_and_right, exists_or, exists_eq_left]
    rw [← hholds.file path file, hnode]
    by_cases hpath : path = pathParts artifact.path
    · subst hpath
      simp [hnone, hnamed]
    · by_cases hprefix : path <+: pathParts artifact.path
      · simp [hpath, Ne.symm hpath, hprefix, hnofile path file hprefix]
      · simp [hpath, Ne.symm hpath, hprefix]
  · simp only [List.mem_append, List.mem_singleton, or_and_right, exists_or, exists_eq_left]
    rw [← or_assoc, ← hholds.directory path, hnode]
    by_cases hpath : path = pathParts artifact.path
    · subst hpath
      simp [hnone]
    · by_cases hprefix : path <+: pathParts artifact.path
      · simp [hpath, hprefix]
      · simp [hpath, hprefix]

/-- An artifact with an entry that is apart from those before it is extracted. -/
theorem exists_extractArtifact (hholds : Holds bundle done tree) (hread : (contentNamed bundle artifact).isSome)
    (hne : pathParts artifact.path ≠ []) (hapart : ∀ other ∈ done, Apart other artifact) (files : ExtractedFiles) :
    ∃ tree', extractArtifact bundle (files, tree) artifact = .ok (Dict.set files artifact.component (pathParts artifact.path), tree') := by
  obtain ⟨content, hnamed⟩ := Option.isSome_iff_exists.mp hread
  obtain ⟨info, hinfo, hcontent⟩ := Option.bind_eq_some_iff.mp hnamed
  have hroot := (hholds.directory []).mpr (.inl rfl)
  have hfree : ∀ path, path <+: pathParts artifact.path → tree.node path = some .directory ∨ tree.node path = none := by
    intro path hprefix
    cases hnode : tree.node path with
    | none => exact .inr rfl
    | some node =>
      cases node with
      | directory => exact .inl rfl
      | file file =>
        obtain ⟨other, hother, rfl, -⟩ := (hholds.file path file).mp hnode
        exact absurd hprefix (hapart other hother).1
  have hnone : tree.node (pathParts artifact.path) = none := by
    refine (hfree _ List.prefix_rfl).resolve_left fun hdirectory => ?_
    rcases (hholds.directory _).mp hdirectory with hnil | ⟨other, hother, hprefix, -⟩
    · exact hne hnil
    · exact (hapart other hother).2 hprefix
  obtain ⟨tree₁, tree₂, hparents, hplace⟩ :=
    FileTree.exists_place_makeDirectories (.file content) hroot hne hnone fun path hprefix _ => hfree path hprefix
  refine ⟨tree₂, ?_⟩
  simp only [extractArtifact, hparents, hinfo, hcontent, hplace, demand, Option.elim_some, ok_bind]
  rfl

/-! ## The loop -/

variable {artifacts : List Artifact}

/-- The artifacts that are extracted are apart and in the tree. -/
theorem extractArtifacts_eq_ok (hholds : Holds bundle done tree) (hread : ∀ artifact ∈ done, (contentNamed bundle artifact).isSome)
    (hnamed : ∀ artifact ∈ done, pathParts artifact.path ≠ []) (hapart : done.Pairwise Apart)
    (h : artifacts.foldlM (extractArtifact bundle) (files, tree) = .ok (files', tree')) :
    (∀ artifact ∈ done ++ artifacts, (contentNamed bundle artifact).isSome) ∧
      (∀ artifact ∈ done ++ artifacts, pathParts artifact.path ≠ []) ∧ (done ++ artifacts).Pairwise Apart ∧
      files' = artifacts.foldl (fun files artifact => Dict.set files artifact.component (pathParts artifact.path)) files ∧
      Holds bundle (done ++ artifacts) tree' := by
  induction artifacts generalizing done files tree with
  | nil =>
    obtain ⟨rfl, rfl⟩ := Prod.mk.inj (Except.ok.inj h)
    rw [List.append_nil]
    exact ⟨hread, hnamed, hapart, rfl, hholds⟩
  | cons artifact artifacts ih =>
    rw [List.foldlM_cons] at h
    obtain ⟨⟨files₁, tree₁⟩, hfirst, hrest⟩ := bind_eq_ok.mp h
    obtain ⟨hread₁, hne, hothers, rfl, hholds₁⟩ := extractArtifact_eq_ok hholds hread hfirst
    have hall := ih hholds₁ (List.forall_mem_append.mpr ⟨hread, List.forall_mem_singleton.mpr hread₁⟩)
      (List.forall_mem_append.mpr ⟨hnamed, List.forall_mem_singleton.mpr hne⟩)
      (List.pairwise_append.mpr
        ⟨hapart, List.pairwise_singleton _ _, fun other hother _ heq => List.mem_singleton.mp heq ▸ hothers other hother⟩)
      hrest
    rwa [List.append_assoc] at hall

/-- Artifacts that are apart are extracted. -/
theorem exists_extractArtifacts (hholds : Holds bundle done tree)
    (hread : ∀ artifact ∈ done ++ artifacts, (contentNamed bundle artifact).isSome)
    (hnamed : ∀ artifact ∈ artifacts, pathParts artifact.path ≠ []) (hapart : (done ++ artifacts).Pairwise Apart) (files : ExtractedFiles) :
    ∃ result, artifacts.foldlM (extractArtifact bundle) (files, tree) = .ok result := by
  induction artifacts generalizing done files tree with
  | nil => exact ⟨_, rfl⟩
  | cons artifact artifacts ih =>
    obtain ⟨hne, hnamed⟩ := List.forall_mem_cons.mp hnamed
    obtain ⟨hdone, hfirst⟩ := List.forall_mem_append.mp hread
    obtain ⟨tree₁, hextract⟩ := exists_extractArtifact hholds (List.forall_mem_cons.mp hfirst).1 hne
      (fun other hother => (List.pairwise_append.mp hapart).2.2 other hother artifact List.mem_cons_self) files
    obtain ⟨-, -, -, -, hholds₁⟩ := extractArtifact_eq_ok hholds hdone hextract
    rw [List.foldlM_cons, hextract, ok_bind]
    exact ih hholds₁ (by rwa [List.append_assoc]) hnamed (by rwa [List.append_assoc]) _

/-- The path of a component that is there once. -/
theorem get_components (hnodup : (artifacts.map Artifact.component).Nodup) (hmem : artifact ∈ artifacts) :
    Dict.get (artifacts.foldl (fun files artifact => Dict.set files artifact.component (pathParts artifact.path)) files) artifact.component =
      some (pathParts artifact.path) := by
  have hothers : ∀ (artifacts : List Artifact) (files : ExtractedFiles), artifact.component ∉ artifacts.map Artifact.component →
      Dict.get (artifacts.foldl (fun files artifact => Dict.set files artifact.component (pathParts artifact.path)) files) artifact.component =
        Dict.get files artifact.component := by
    intro artifacts
    induction artifacts with
    | nil => exact fun _ _ => rfl
    | cons other artifacts ih =>
      intro files hnot
      obtain ⟨hother, hrest⟩ := not_or.mp (mt List.mem_cons.mpr hnot)
      rw [List.foldl_cons, ih _ hrest, Dict.get_set_other _ _ hother]
  induction artifacts generalizing files with
  | nil => nomatch hmem
  | cons other artifacts ih =>
    obtain ⟨hother, hnodup⟩ := List.nodup_cons.mp hnodup
    rcases List.mem_cons.mp hmem with rfl | hmem
    · rw [List.foldl_cons, hothers _ _ hother, Dict.get_set_self]
    · exact ih hnodup hmem

/-- The components of a package that is verified differ, and its archive can be read. -/
theorem verify_eq_ok {archive : Option Archive} {expectedKind : Text} {package : DeploymentPackage}
    (h : verify unzip loads sha256 archive expectedKind = .ok package) :
    (package.artifacts.map Artifact.component).Nodup ∧ ∃ content bundle, archive.bind Archive.content = some content ∧
      unzip content = some bundle := by
  obtain ⟨expectedType, -, h⟩ := bind_eq_ok.mp h
  obtain ⟨archive', harchive, h⟩ := bind_eq_ok.mp h
  obtain ⟨content, hcontent, h⟩ := bind_eq_ok.mp h
  obtain ⟨-, -, h⟩ := bind_eq_ok.mp h
  obtain ⟨bundle, hbundle, h⟩ := bind_eq_ok.mp h
  -- the files are few and have different names that are safe, with the manifest among them
  obtain ⟨-, -, h⟩ := bind_eq_ok.mp h
  obtain ⟨-, -, h⟩ := bind_eq_ok.mp h
  obtain ⟨-, -, h⟩ := bind_eq_ok.mp h
  obtain ⟨info, -, h⟩ := bind_eq_ok.mp h
  obtain ⟨manifest, -, h⟩ := bind_eq_ok.mp h
  obtain ⟨raw, -, h⟩ := bind_eq_ok.mp h
  obtain ⟨⟨packageType, version, artifacts⟩, hparse, h⟩ := bind_eq_ok.mp h
  -- the manifest is of the expected type and lists the files, which are as it says
  obtain ⟨-, -, h⟩ := bind_eq_ok.mp h
  obtain ⟨-, -, h⟩ := bind_eq_ok.mp h
  obtain ⟨-, -, h⟩ := bind_eq_ok.mp h
  obtain ⟨-, -, h⟩ := bind_eq_ok.mp h
  obtain rfl := Except.ok.inj h
  refine ⟨?_, content, bundle, ?_, demand_eq_ok hbundle⟩
  · obtain ⟨members, -, hparse⟩ := bind_eq_ok.mp hparse
    obtain ⟨_, -, hparse⟩ := bind_eq_ok.mp hparse
    obtain ⟨_, -, hparse⟩ := bind_eq_ok.mp hparse
    split at hparse
    · obtain ⟨artifacts', -, hparse⟩ := bind_eq_ok.mp hparse
      obtain ⟨_, hnodup, hparse⟩ := bind_eq_ok.mp hparse
      obtain ⟨-, hrest⟩ := Prod.mk.inj (Except.ok.inj hparse)
      obtain ⟨-, rfl⟩ := Prod.mk.inj hrest
      by_contra hdouble
      simp [refuseWhen, hdouble] at hnodup
    · nomatch hparse
  · rw [demand_eq_ok harchive, Option.bind_some]
    exact (Option.filter_eq_some_iff.mp (demand_eq_ok hcontent)).1

/-- A verified package is extracted exactly when each artifact is under its path in the archive, with the declared size and digest, names
more than the destination, and no path of an artifact leads to that of another. -/
theorem verified_package_extracts (unzip : Bytes → Option (List ZipInfo)) (loads : Bytes → Option Json) (sha256 : Bytes → Text)
    {archive : Option Archive} {expectedKind : Text} {package : DeploymentPackage}
    (h : verify unzip loads sha256 archive expectedKind = .ok package) :
    Extracts unzip sha256 ((archive.bind Archive.content).getD []) package ↔
      IsExtractable sha256 (((archive.bind Archive.content).bind unzip).getD []) package.artifacts := by
  obtain ⟨hnodup, content, bundle, hcontent, hbundle⟩ := verify_eq_ok h
  rw [hcontent, Option.getD_some, Option.bind_some, hbundle, Option.getD_some]
  constructor
  · rintro ⟨files, tree, hextract, hfiles, -⟩
    obtain ⟨bundle', hbundle', hextract⟩ := bind_eq_ok.mp hextract
    obtain rfl : bundle' = bundle := Option.some.inj ((demand_eq_ok hbundle').symm.trans hbundle)
    obtain ⟨-, hnamed, hapart, rfl, hholds⟩ := extractArtifacts_eq_ok holds_nil (fun _ hmem => nomatch hmem) (fun _ hmem => nomatch hmem)
      List.Pairwise.nil hextract
    refine ⟨fun artifact hartifact => ?_, hnamed, hapart⟩
    obtain ⟨path, file, hpath, hfile, hsize, hdigest⟩ := hfiles artifact hartifact
    obtain rfl := Option.some.inj ((get_components hnodup hartifact).symm.trans hpath)
    obtain ⟨other, hother, heq, hcontent⟩ := (hholds.file _ file).mp hfile
    obtain rfl : other = artifact := by
      by_contra hne
      exact apart_irrefl heq (hapart.forall hother hartifact hne)
    exact ⟨file, hcontent, hsize, hdigest⟩
  · intro hextractable
    have hread : ∀ artifact ∈ package.artifacts, (contentNamed bundle artifact).isSome := by
      intro artifact hartifact
      obtain ⟨file, hfile, -⟩ := hextractable.declared artifact hartifact
      rw [hfile]
      rfl
    obtain ⟨⟨files, tree⟩, hextract⟩ := exists_extractArtifacts holds_nil hread hextractable.named hextractable.apart []
    obtain ⟨-, -, -, hfiles, hholds⟩ := extractArtifacts_eq_ok holds_nil (fun _ hmem => nomatch hmem) (fun _ hmem => nomatch hmem)
      List.Pairwise.nil hextract
    refine ⟨files, tree, ?_, fun artifact hartifact => ?_, fun a ha b hb hne heq => ?_⟩
    · rw [extractArtifacts, hbundle]
      exact hextract
    · obtain ⟨file, hfile, hsize, hdigest⟩ := hextractable.declared artifact hartifact
      have hthere := (hholds.file _ file).mpr ⟨artifact, hartifact, rfl, hfile⟩
      exact ⟨_, file, hfiles ▸ get_components hnodup hartifact, hthere, hsize, hdigest⟩
    · rw [hfiles, get_components hnodup ha, get_components hnodup hb] at heq
      exact apart_irrefl (Option.some.inj heq) (hextractable.apart.forall ha hb (mt (congrArg Artifact.component) hne))

end Extraction

/-! ## A package -/

def sampleDigest (_ : Bytes) : Text := List.replicate 64 '0'

def sampleMember (filename : Text) (content : Bytes) : ZipInfo :=
  { filename, fileSize := content.length, externalAttr := 0, content := some content }

/-- A ZIP file of a manifest and another member. -/
def sampleZip (name : Text) (_ : Bytes) : Option (List ZipInfo) := some [sampleMember packageManifest [], sampleMember name [1, 2, 3]]

/-- A manifest of a patch of the manager. -/
def sampleManifest (_ : Bytes) : Option Json :=
  some (.object
    [ ("schemaVersion".toList, .int 1), ("packageType".toList, .str "scbl-patch".toList), ("version".toList, .str "2.0.7".toList),
      ("artifacts".toList, .list
        [ .object
          [ ("component".toList, .str "server.manager".toList), ("version".toList, .str "2.0.7".toList),
            ("path".toList, .str "manager/scblctl.pyz".toList), ("size".toList, .int 3), ("sha256".toList, .str (sampleDigest [])) ] ]) ])

def sampleArchive : Option Archive := some { name := "update.scblpatch".toList, content := some [] }

def samplePackage : DeploymentPackage where
  packageType := "scbl-patch".toList
  version := "2.0.7".toList
  archive := "update.scblpatch".toList
  artifacts := [{ component := "server.manager".toList, version := "2.0.7".toList, path := "manager/scblctl.pyz".toList, size := 3
                  sha256 := sampleDigest [] }]
  sha256 := sampleDigest []

theorem verified_package_extracts_sample : Extracts (sampleZip "manager/scblctl.pyz".toList) sampleDigest [] samplePackage :=
  (verified_package_extracts (sampleZip "manager/scblctl.pyz".toList) sampleManifest sampleDigest
    (show verify _ _ _ sampleArchive "patch".toList = .ok samplePackage by decide +kernel)).mpr
      ⟨List.forall_mem_singleton.mpr ⟨[1, 2, 3], by decide +kernel, rfl, rfl⟩, List.forall_mem_singleton.mpr (by decide +kernel),
        List.pairwise_singleton _ _⟩

/-- A member whose name has a backslash is verified, but not found. -/
theorem verified_package_lost :
    verify (sampleZip "manager\\scblctl.pyz".toList) sampleManifest sampleDigest sampleArchive "patch".toList = .ok samplePackage ∧
      ¬ Extracts (sampleZip "manager\\scblctl.pyz".toList) sampleDigest [] samplePackage := by
  refine ⟨by decide +kernel, ?_⟩
  rintro ⟨files, tree, hextract, -⟩
  have hlost : extractArtifacts (sampleZip "manager\\scblctl.pyz".toList) [] samplePackage FileTree.empty = .error .key := rfl
  nomatch hlost.symm.trans hextract

end Scbl.Manager.DeploymentManager
