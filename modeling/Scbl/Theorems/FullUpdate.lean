import Scbl.Updater.FullPackage
import Mathlib.Data.Set.Finite.Lemmas
import Mathlib.Tactic.Common

/-!
# A full update that fails

After an exception of the copy the updater restores the launcher and the tools, and rethrows. The package holds other files as well, and
those that were replaced before the exception stay replaced: every file has its old content after every failure exactly when each file
that the package changes is in the snapshot.
-/

namespace Scbl.Updater

open Scbl.Lib

/-- A directory tree: the relative paths of its files, and what is in them. -/
abbrev Tree := List (List Text × Bytes)

/-- What is in a file of a tree. -/
def Tree.content (tree : Tree) (path : List Text) : Option Bytes :=
  if path = [] then none else (tree.find? (fun file => file.1 = path)).map (·.2)

/-- An installation, and the package that is extracted beside it. -/
def start (installed package : Tree) : Disk Place Unit :=
  { files := fun place =>
      match place.root with
      | .content => package.content place.path
      | .target => installed.content place.path
      | .backup => none
    locals := () }

/-- The name of a file that replaces another. -/
def IsTemporary (path : List Text) : Prop := ∃ dir name, path = dir ++ [name ++ newSuffix]

/-- A file that is copied from a directory. -/
structure Copied (relative : List Text) : Prop where
  nonempty : relative ≠ []
  directory : isSkippedDirectory (relativeText relative) = false
  name : isUpdateMetadataFile (relativeText relative) = false

/-- A file that is in the snapshot and restored from it: the launcher, or a file that is copied from the directory of the tools. -/
def Saved (installed : Tree) (path : List Text) : Prop :=
  path = [launcherName] ∨
    (installed.content [toolsName] = none ∧ ∃ relative, path = toolsName :: relative ∧ Copied relative)

/-- Contents that the comparison by length and digest takes for the same. -/
def SameHash (sha256 : Bytes → Text) (first second : Bytes) : Prop :=
  first.length = second.length ∧ equalsIgnoreCase (sha256 first) (sha256 second) = true

/-- Each file that the package changes is saved, and its digest tells that it is changed. -/
def Covered (sha256 : Bytes → Text) (installed package : Tree) : Prop :=
  ∀ path old new, installed.content path = some old → package.content path = some new → Copied path → ¬ IsTemporary path →
    old = new ∨ (Saved installed path ∧ ¬ SameHash sha256 old new)

/-- Nothing fails after the exception of the copy. -/
def RestoreSucceeds (sha256 : Bytes → Text) (listing : Listing) (installed package : Tree) (mishaps : Mishaps) : Prop :=
  Execution.Ends (fun _ _ _ => True) (fun _ mishaps _ => NoFailure mishaps) (fun _ => True)
    ((do
      backupCurrent sha256 listing
      copyDirectory sha256 listing { root := .content, path := [] } { root := .target, path := [] } : UpdateProgram Unit).run
      mishaps (start installed package))

/-- After every update that throws, where the restore succeeds, every file has its old content, the updater's own temporaries apart. -/
def Kept (sha256 : Bytes → Text) (listing : Listing) (installed package : Tree) : Prop :=
  ∀ mishaps e mishaps' after, RestoreSucceeds sha256 listing installed package mishaps →
    (applyFullPackage sha256 listing).run mishaps (start installed package) = .raised e mishaps' after →
    ∀ path old, installed.content path = some old → ¬ IsTemporary path → after.files { root := .target, path } = some old

namespace UpdateAux

variable {sha256 : Bytes → Text} {listing : Listing} {installed package : Tree}

/-! ### Places -/

theorem ne_of_root {place place' : Place} (h : place.root ≠ place'.root) : place ≠ place' := fun heq => h (congrArg Place.root heq)

/-- A file is not its own temporary. -/
theorem self_ne_temporaryOf (place : Place) : place ≠ temporaryOf place := by
  intro heq
  have hlast := congrArg (fun place : Place => (place.path.getLastD []).length) heq
  have hlen : newSuffix.length = 16 := rfl
  simp only [temporaryOf, List.getLastD_concat, List.length_append, hlen] at hlast
  omega

/-! ### One file, whatever befalls -/

variable {I : Disk Place Unit → Prop} {E : UpdaterException → Mishaps → Disk Place Unit → Prop} {K : Disk Place Unit → Prop}
variable {source destination : Place} {label : Text}

/-- Two files are there, and the comparison takes them for the same. -/
def Identical (sha256 : Bytes → Text) (files : Files) (first second : Place) : Prop :=
  ∃ content content', files first = some content ∧ files second = some content' ∧ SameHash sha256 content content'

theorem computeSha256_any {place : Place} (hE : ∀ mishaps d, I d → E .io mishaps d) (hK : ∀ d, I d → K d) :
    (computeSha256 sha256 place).Meets (fun _ d => I d)
      (fun hash _ d => I d ∧ ∃ content, d.files place = some content ∧ hash = sha256 content) E K :=
  Program.meets_bind (Disk.meets_readFile_any hE hK) fun content =>
    Program.meets_pure fun _ _ hs => ⟨hs.1, content, hs.2, rfl⟩

/-- When two files are found identical, they are. -/
theorem filesAreIdentical_any {first second : Place} (hK : ∀ d, I d → K d) :
    (filesAreIdentical sha256 first second).Meets (fun _ d => I d)
      (fun identical _ d => I d ∧ (identical = true → Identical sha256 d.files first second)) E K := by
  refine Program.meets_tryCatch (F := fun _ _ d => I d) ?_ (fun _ => Program.meets_pure fun _ _ hs => ⟨hs, nofun⟩)
  refine Program.meets_bind (R := fun lengths _ d => I d ∧
    lengths = ((d.files first).map List.length, (d.files second).map List.length)) (Program.meets_query fun _ _ hs => ⟨hs, rfl⟩) ?_
  intro lengths
  split
  · rename_i hlengths
    refine Program.meets_bind (R := fun hash _ d => (I d ∧
        lengths = ((d.files first).map List.length, (d.files second).map List.length)) ∧
        ∃ content, d.files first = some content ∧ hash = sha256 content)
      (computeSha256_any (fun _ _ hs => hs.1) (fun d hs => hK d hs.1)) fun firstHash => ?_
    refine Program.meets_bind (computeSha256_any (I := fun d => (I d ∧
        lengths = ((d.files first).map List.length, (d.files second).map List.length)) ∧
        ∃ content, d.files first = some content ∧ firstHash = sha256 content)
      (fun _ _ hs => hs.1.1) (fun d hs => hK d hs.1.1)) fun secondHash => ?_
    refine Program.meets_pure ?_
    rintro mishaps d ⟨⟨⟨hI, hlens⟩, content, hfirst, rfl⟩, content', hsecond, rfl⟩
    refine ⟨hI, fun hequal => ⟨content, content', hfirst, hsecond, ?_, hequal⟩⟩
    have hsame := hlengths.2
    rw [hlens, hfirst, hsecond] at hsame
    exact Option.some.inj hsame
  · exact Program.meets_pure fun _ _ hs => ⟨hs.1, nofun⟩

/-- A file is replaced by a copy or left, and everything else that the invariant speaks of is left. -/
theorem replaceFile_any (hroot : source.root ≠ destination.root) (hK : ∀ d, I d → K d)
    (hwrite : ∀ d content, I d → I (d.write (temporaryOf destination) content))
    (hland : ∀ d content, I d → d.files source = some content → I (d.write destination (some content))) :
    (replaceFile sha256 source destination).Meets (fun _ d => I d)
      (fun _ _ d => I d ∧ Identical sha256 d.files source destination) (fun _ _ d => I d) K := by
  have hsource : source ≠ temporaryOf destination := ne_of_root hroot
  refine Program.meets_bind (Disk.meets_tryDelete_any (fun d hs => hwrite d none hs) hK) fun _ => ?_
  refine Program.meets_bind (Disk.meets_copyFile_any (fun _ => hwrite) (fun _ _ hs => hs) hK) fun _ => ?_
  refine Program.meets_bind (filesAreIdentical_any (fun d hs => hK d hs.1)) fun copied => ?_
  refine Program.meets_bind (R := fun _ _ d => I d ∧ ∃ content, d.files source = some content ∧
    d.files (temporaryOf destination) = some content) ?_ fun _ => ?_
  · refine Program.meets_when (fun _ => ?_) (fun _ _ _ hs => hs.1)
    exact Program.meets_raise fun _ _ hs => hs.1.1
  refine Program.meets_bind (R := fun _ _ d => I d) (Disk.meets_moveFile_any ?_ (fun _ _ hs => hs.1) (fun d hs => hK d hs.1)) fun _ => ?_
  · rintro d content ⟨hI, content', hfile, htemporary⟩ hmoved
    rw [htemporary] at hmoved
    obtain rfl := Option.some.inj hmoved
    exact hland _ _ (hwrite d none hI) ((Disk.write_other d none hsource).trans hfile)
  refine Program.meets_bind (filesAreIdentical_any hK) fun installed => Program.meets_when (fun _ => ?_) ?_
  · exact Program.meets_raise fun _ _ hs => hs.1
  · exact fun hinstalled _ d hs => ⟨hs.1, hs.2 (by simpa using hinstalled)⟩

theorem attemptReplace_any (hroot : source.root ≠ destination.root) (hK : ∀ d, I d → K d)
    (hwrite : ∀ d content, I d → I (d.write (temporaryOf destination) content))
    (hland : ∀ d content, I d → d.files source = some content → I (d.write destination (some content))) (attempts : Nat) :
    (attemptReplace sha256 source destination label attempts).Meets (fun _ d => I d)
      (fun _ _ d => I d ∧ Identical sha256 d.files source destination) (fun _ _ d => I d) K := by
  induction attempts with
  | zero => exact Program.meets_raise fun _ _ hs => hs
  | succ attempts ih =>
    refine Program.meets_bind (R := fun replaced _ d => I d ∧ (replaced = true → Identical sha256 d.files source destination))
      ?_ fun replaced => Program.meets_when (fun _ => ih.from fun _ _ hs => hs.1) ?_
    · refine Program.meets_tryCatch (Program.meets_bind (replaceFile_any hroot hK hwrite hland) fun _ => ?_) fun _ => ?_
      · exact Program.meets_pure fun _ _ hs => ⟨hs.1, fun _ => hs.2⟩
      · exact Program.meets_bind (Disk.meets_tryDelete_any (fun d hs => hwrite d none hs) hK) fun _ =>
          Program.meets_pure fun _ _ hs => ⟨hs, nofun⟩
    · exact fun hreplaced _ d hs => ⟨hs.1, hs.2 (by simpa using hreplaced)⟩

theorem createDirectory_any (hK : ∀ d, I d → K d) :
    createDirectory.Meets (fun _ d => I d) (fun _ _ d => I d) (fun _ _ d => I d) K := by
  refine Program.meets_operation_any (J := fun _ d => I d) ?_ (fun _ _ _ hI _ => hI) (fun _ _ _ hI => hI) (fun d _ => hK d)
  intro d _ d' hI hstep
  obtain ⟨_, rfl⟩ := Prod.mk.inj (Except.ok.inj hstep)
  exact hI

/-- A copy that returns leaves a destination that is identical to the source. -/
theorem copyFileWithRetry_any (hroot : source.root ≠ destination.root) (hK : ∀ d, I d → K d)
    (hwrite : ∀ d content, I d → I (d.write (temporaryOf destination) content))
    (hland : ∀ d content, I d → d.files source = some content → I (d.write destination (some content))) :
    (copyFileWithRetry sha256 source destination label).Meets (fun _ d => I d)
      (fun _ _ d => I d ∧ Identical sha256 d.files source destination) (fun _ _ d => I d) K := by
  refine Program.meets_bind (Disk.meets_fileExists destination) fun destinationExists => ?_
  refine Program.meets_bind (R := fun unchanged _ d => I d ∧ (unchanged = true → Identical sha256 d.files source destination))
    ?_ fun unchanged => Program.meets_when (fun _ => ?_) ?_
  · split
    · exact (filesAreIdentical_any hK).from fun _ _ hs => hs.1
    · exact Program.meets_pure fun _ _ hs => ⟨hs.1, nofun⟩
  · refine Program.meets_bind ((createDirectory_any hK).from fun _ _ hs => hs.1) fun _ => ?_
    exact attemptReplace_any hroot hK hwrite hland 32
  · exact fun hunchanged _ d hs => ⟨hs.1, hs.2 (by simpa using hunchanged)⟩

/-! ### One file without failures -/

variable {d : Disk Place Unit} {content : Bytes}

theorem sameHash_refl (content : Bytes) : SameHash sha256 content content := ⟨rfl, by simp [equalsIgnoreCase]⟩

theorem completes_computeSha256 {place : Place} (hfile : d.files place = some content) :
    (computeSha256 sha256 place).Completes d (fun hash d' => hash = sha256 content ∧ d' = d) :=
  Program.completes_bind (Disk.completes_readFile hfile (Program.completes_pure ⟨rfl, rfl⟩))

/-- The comparison finds what is the case. -/
theorem completes_filesAreIdentical (first second : Place) :
    (filesAreIdentical sha256 first second).Completes d
      (fun identical d' => d' = d ∧ (identical = true ↔ Identical sha256 d.files first second)) := by
  refine Program.completes_tryCatch (Program.completes_bind (Program.completes_query ?_))
  split
  · rename_i hlengths
    obtain ⟨content, hfirst⟩ := Option.isSome_iff_exists.1 (Option.isSome_map ▸ hlengths.1)
    have hsame := hlengths.2
    simp only [hfirst, Option.map_some] at hsame
    obtain ⟨content', hsecond, hlen⟩ := Option.map_eq_some_iff.1 hsame.symm
    refine Program.completes_bind ((completes_computeSha256 hfirst).mono ?_)
    rintro _ _ ⟨rfl, rfl⟩
    refine Program.completes_bind ((completes_computeSha256 hsecond).mono ?_)
    rintro _ _ ⟨rfl, rfl⟩
    refine Program.completes_pure ⟨rfl, fun hequal => ⟨content, content', hfirst, hsecond, hlen.symm, hequal⟩, ?_⟩
    rintro ⟨c, c', hc, hc', -, hequal⟩
    rw [hfirst] at hc
    rw [hsecond] at hc'
    obtain rfl := Option.some.inj hc
    obtain rfl := Option.some.inj hc'
    exact hequal
  · rename_i hlengths
    refine Program.completes_pure ⟨rfl, nofun, ?_⟩
    rintro ⟨c, c', hc, hc', hlen, -⟩
    refine absurd ⟨?_, ?_⟩ hlengths
    · simp [hc]
    · simp [hc, hc', hlen]

/-- A part of an attempt: the source is in the temporary, and the rest is as it was. -/
structure Copying (source destination : Place) (content : Bytes) (d d' : Disk Place Unit) : Prop where
  source : d'.files source = some content
  temporary : d'.files (temporaryOf destination) = some content
  others : ∀ place, place ≠ temporaryOf destination → d'.files place = d.files place

/-- The content is in the destination, and the rest but the temporary is as it was. -/
structure Lands (destination : Place) (content : Bytes) (d d' : Disk Place Unit) : Prop where
  placed : d'.files destination = some content
  others : ∀ place, place ≠ destination → place ≠ temporaryOf destination → d'.files place = d.files place

/-- What an attempt does before it moves the file. -/
theorem copying_written (hroot : source.root ≠ destination.root) (hfile : d.files source = some content) :
    Copying source destination content d
      ((d.write (temporaryOf destination) none).write (temporaryOf destination) (some content)) := by
  have hothers : ∀ place, place ≠ temporaryOf destination →
      ((d.write (temporaryOf destination) none).write (temporaryOf destination) (some content)).files place = d.files place :=
    fun place hne => (Disk.write_other _ _ hne).trans (Disk.write_other _ _ hne)
  exact { source := (hothers source (ne_of_root hroot)).trans hfile, temporary := Disk.write_self _ _ _, others := hothers }

/-- The move. -/
theorem Copying.lands {d' : Disk Place Unit} (h : Copying source destination content d d') :
    Lands destination content d ((d'.write (temporaryOf destination) none).write destination (some content)) := by
  refine { placed := Disk.write_self _ _ _, others := ?_ }
  intro place hne htemporary
  rw [Disk.write_other _ _ hne, Disk.write_other _ _ htemporary]
  exact h.others place htemporary

/-- The source is still there. -/
theorem Lands.keeps_source {d' : Disk Place Unit} (h : Lands destination content d d') (hroot : source.root ≠ destination.root) :
    d'.files source = d.files source :=
  h.others source (ne_of_root hroot) (ne_of_root hroot)

theorem Copying.identical {d' : Disk Place Unit} (h : Copying source destination content d d') :
    Identical sha256 d'.files source (temporaryOf destination) := ⟨content, content, h.source, h.temporary, sameHash_refl content⟩

theorem Lands.identical {d' : Disk Place Unit} (h : Lands destination content d d') (hroot : source.root ≠ destination.root)
    (hfile : d.files source = some content) : Identical sha256 d'.files source destination :=
  ⟨content, content, (h.keeps_source hroot).trans hfile, h.placed, sameHash_refl content⟩

theorem completes_replaceFile (hroot : source.root ≠ destination.root) (hfile : d.files source = some content) :
    (replaceFile sha256 source destination).Completes d (fun _ _ => True) := by
  have hcopying := copying_written hroot hfile
  have hsource : source ≠ temporaryOf destination := ne_of_root hroot
  refine Program.completes_bind (Disk.completes_tryDelete ?_)
  refine Program.completes_bind (Disk.completes_copyFile ((Disk.write_other d none hsource).trans hfile) hsource ?_)
  refine Program.completes_bind ((completes_filesAreIdentical _ _).mono ?_)
  rintro copied _ ⟨rfl, hcopied⟩
  refine Program.completes_bind (Program.completes_when ?_ fun _ => ?_)
  · intro hnot
    simp [hcopied.2 hcopying.identical] at hnot
  refine Program.completes_bind (Disk.completes_moveFile hcopying.temporary ?_)
  refine Program.completes_bind ((completes_filesAreIdentical _ _).mono ?_)
  rintro installed _ ⟨rfl, hinstalled⟩
  refine Program.completes_when ?_ fun _ => trivial
  intro hnot
  simp [hinstalled.2 (hcopying.lands.identical hroot hfile)] at hnot

theorem completes_createDirectory : createDirectory.Completes d (fun _ d' => d' = d) := Program.completes_operation rfl rfl

theorem completes_attemptReplace (hroot : source.root ≠ destination.root) (hfile : d.files source = some content) (attempts : Nat) :
    (attemptReplace sha256 source destination label (attempts + 1)).Completes d (fun _ _ => True) := by
  refine Program.completes_bind (Program.completes_tryCatch (Program.completes_bind ((completes_replaceFile hroot hfile).mono ?_)))
  intro _ d' _
  refine Program.completes_pure (Program.completes_when ?_ fun _ => trivial)
  exact nofun

/-- Where nothing fails, a file that is there is copied. -/
theorem completes_copyFileWithRetry (hroot : source.root ≠ destination.root) (hfile : d.files source = some content) :
    (copyFileWithRetry sha256 source destination label).Completes d (fun _ _ => True) := by
  refine Program.completes_bind (Program.completes_query (Program.completes_bind ?_))
  have hcopy : ∀ unchanged, (Program.when (!unchanged) do
      createDirectory
      attemptReplace sha256 source destination label 32 : UpdateProgram Unit).Completes d (fun _ _ => True) := by
    intro unchanged
    refine Program.completes_when (fun _ => ?_) fun _ => trivial
    refine Program.completes_bind (completes_createDirectory.mono ?_)
    rintro _ _ rfl
    exact completes_attemptReplace hroot hfile 31
  split
  · refine (completes_filesAreIdentical _ _).mono ?_
    rintro unchanged _ ⟨rfl, -⟩
    exact hcopy unchanged
  · exact Program.completes_pure (hcopy false)

/-! ### A copy that fails after the file is replaced -/

/-- The comparison may fail. -/
theorem filesAreIdentical_may (first second : Place) :
    (filesAreIdentical sha256 first second).May d (fun r d' => r = .ok false ∧ d' = d) := by
  refine Program.may_tryCatch (Program.may_bind (Program.Completes.may (Program.completes_query ?_)))
  simp only
  split
  · exact Program.may_bind (Program.may_bind (Program.may_fail 0 (Program.Completes.may (Program.completes_pure ⟨rfl, rfl⟩))))
  · exact Program.Completes.may (Program.completes_pure ⟨rfl, rfl⟩)

/-- An attempt may fail after the move. -/
theorem replaceFile_may (hroot : source.root ≠ destination.root) (hfile : d.files source = some content) :
    (replaceFile sha256 source destination).May d (fun r d' => (∃ e, r = .error e) ∧ Lands destination content d d') := by
  have hcopying := copying_written hroot hfile
  have hsource : source ≠ temporaryOf destination := ne_of_root hroot
  refine Program.may_bind (Program.Completes.may (Disk.completes_tryDelete ?_))
  refine Program.may_bind (Program.Completes.may
    (Disk.completes_copyFile ((Disk.write_other d none hsource).trans hfile) hsource ?_))
  refine Program.may_bind (Program.Completes.may ((completes_filesAreIdentical _ _).mono ?_))
  rintro copied _ ⟨rfl, hcopied⟩
  refine Program.may_bind (Program.Completes.may (Program.completes_when ?_ fun _ => ?_))
  · intro hnot
    simp [hcopied.2 hcopying.identical] at hnot
  refine Program.may_bind (Program.Completes.may (Disk.completes_moveFile hcopying.temporary ?_))
  refine Program.may_bind ((filesAreIdentical_may _ _).mono ?_)
  rintro _ _ ⟨rfl, rfl⟩
  exact Program.may_raise ⟨⟨_, rfl⟩, hcopying.lands⟩

/-- Every attempt may fail after the move. -/
theorem attemptReplace_may (hroot : source.root ≠ destination.root) (attempts : Nat) :
    ∀ d : Disk Place Unit, d.files source = some content → (attempts = 0 → d.files destination = some content) →
      (attemptReplace sha256 source destination label attempts).May d
        (fun r d' => (∃ e, r = .error e) ∧ Lands destination content d d') := by
  induction attempts with
  | zero =>
    intro d _ hplaced
    exact Program.may_raise ⟨⟨_, rfl⟩, { placed := hplaced rfl, others := fun _ _ _ => rfl }⟩
  | succ attempts ih =>
    intro d hfile _
    refine Program.may_bind (Program.may_tryCatch (Program.may_bind ((replaceFile_may hroot hfile).mono ?_)))
    rintro _ d' ⟨⟨e, rfl⟩, hlands⟩
    refine Program.may_bind (Program.Completes.may (Disk.completes_tryDelete ?_))
    have hlands' : Lands destination content d (d'.write (temporaryOf destination) none) :=
      { placed := (Disk.write_other _ _ (self_ne_temporaryOf destination)).trans hlands.placed
        others := fun place hne htemporary => (Disk.write_other _ _ htemporary).trans (hlands.others place hne htemporary) }
    refine Program.Completes.may (Program.completes_pure ?_)
    refine (ih _ ((hlands'.keeps_source hroot).trans hfile) fun _ => hlands'.placed).mono ?_
    rintro r d'' ⟨hraised, hagain⟩
    exact ⟨hraised, { placed := hagain.placed
                      others := fun place hne htemporary =>
                        (hagain.others place hne htemporary).trans (hlands'.others place hne htemporary) }⟩

/-- A copy may fail after the destination is replaced. -/
theorem copyFileWithRetry_may (hroot : source.root ≠ destination.root) (hfile : d.files source = some content) :
    (copyFileWithRetry sha256 source destination label).May d
      (fun r d' => (∃ e, r = .error e) ∧ Lands destination content d d') := by
  have hcopy : (do
      createDirectory
      attemptReplace sha256 source destination label 32 : UpdateProgram Unit).May d
        (fun r d' => (∃ e, r = .error e) ∧ Lands destination content d d') := by
    refine Program.may_bind (Program.Completes.may (completes_createDirectory.mono ?_))
    rintro _ _ rfl
    exact attemptReplace_may hroot 32 _ hfile nofun
  refine Program.may_bind (Program.Completes.may (Program.completes_query ?_))
  refine Program.may_bind ?_
  split
  · refine (filesAreIdentical_may _ _).mono ?_
    rintro _ _ ⟨rfl, rfl⟩
    exact hcopy
  · exact Program.Completes.may (Program.completes_pure hcopy)

/-! ### Directories -/

section Directories

variable {dir dir' : Place} {relative : List Text} {J : List (List Text) → Disk Place Unit → Prop}

/-- The copy of a file is left out. -/
def LeftOut (relative : List Text) : Prop :=
  isSkippedDirectory (relativeText relative) = true ∨ isUpdateMetadataFile (relativeText relative) = true

theorem LeftOut.not_copied {relative : List Text} (h : LeftOut relative) : ¬ Copied relative := by
  rintro ⟨-, hdirectory, hname⟩
  rcases h with hskipped | hmetadata
  · rw [hdirectory] at hskipped
    nomatch hskipped
  · rw [hname] at hmetadata
    nomatch hmetadata

/-- A directory is copied file by file. -/
theorem copyDirectory_any (hK : ∀ before d, J before d → K d)
    (hfinite : ∀ d, J [] d → {place | (d.files place).isSome = true}.Finite)
    (hleft : ∀ before relative d, LeftOut relative → J before d → J (before ++ [relative]) d)
    (hturn : ∀ before relative, Copied relative →
      (copyFileWithRetry sha256 (dir.combine relative) (dir'.combine relative) (relativeText relative)).Meets
        (fun _ d => J before d) (fun _ _ d => J (before ++ [relative]) d) (fun _ _ d => J before d) K) :
    (copyDirectory sha256 listing dir dir').Meets (fun _ d => J [] d)
      (fun _ _ d => ∃ d₀, J [] d₀ ∧ J (listing.getFiles d₀.files dir) d) (fun _ _ d => ∃ before, J before d) K := by
  refine Program.meets_bind ((createDirectory_any (hK [])).weaken (fun _ _ hs => hs) (fun _ _ _ hs => hs)
    (fun _ _ _ hs => ⟨[], hs⟩) (fun _ hs => hs)) fun _ => ?_
  refine Program.meets_bind (R := fun files _ d => J [] d ∧ files = listing.getFiles d.files dir)
    (Program.meets_query fun _ _ hs => ⟨hs, rfl⟩) fun files => ?_
  refine Program.meets_of_imp (φ := ∃ d₀, J [] d₀ ∧ files = listing.getFiles d₀.files dir) (fun _ d hs => ⟨d, hs⟩) ?_
  rintro ⟨d₀, hd₀, rfl⟩
  refine Program.meets_forM (I := fun before _ _ d => J before d) (fun _ _ hs => hs.1) ?_ (fun _ d hs => ⟨d₀, hd₀, hs⟩)
  intro before relative after hsplit
  have hlisted : relative ∈ listing.getFiles d₀.files dir := by
    rw [← hsplit]
    exact List.mem_append_right _ List.mem_cons_self
  have hnonempty := ((listing.mem_getFiles _ _ _ (hfinite d₀ hd₀)).1 hlisted).1
  split
  · rename_i hskipped
    exact Program.meets_pure fun _ d hs => hleft before relative d (Or.inl hskipped) hs
  · split
    · rename_i hmetadata
      exact Program.meets_pure fun _ d hs => hleft before relative d (Or.inr hmetadata) hs
    · rename_i hskipped hmetadata
      have hcopied : Copied relative :=
        { nonempty := hnonempty, directory := by simpa using hskipped, name := by simpa using hmetadata }
      exact (hturn before relative hcopied).weaken (fun _ _ hs => hs) (fun _ _ _ hs => hs) (fun _ _ _ hs => ⟨before, hs⟩)
        (fun _ hs => hs)

/-- A directory of which every file can be copied. -/
theorem completes_copyDirectory (hd : J [] d) (hfinite : {place | (d.files place).isSome = true}.Finite)
    (hleft : ∀ before relative d, LeftOut relative → J before d → J (before ++ [relative]) d)
    (hturn : ∀ before relative d', Copied relative → (d.files (dir.combine relative)).isSome = true → J before d' →
      (copyFileWithRetry sha256 (dir.combine relative) (dir'.combine relative) (relativeText relative)).Completes d'
        (fun _ => J (before ++ [relative]))) :
    (copyDirectory sha256 listing dir dir').Completes d (fun _ => J (listing.getFiles d.files dir)) := by
  refine Program.completes_bind (completes_createDirectory.mono ?_)
  rintro _ d rfl
  refine Program.completes_bind (Program.completes_query ?_)
  refine Program.completes_forM (I := fun before _ d => J before d) hd ?_
  intro before relative after d' hsplit hd'
  have hlisted : relative ∈ listing.getFiles d.files dir := by
    rw [← hsplit]
    exact List.mem_append_right _ List.mem_cons_self
  have hfile := (listing.mem_getFiles _ _ _ hfinite).1 hlisted
  split
  · rename_i hskipped
    exact Program.completes_pure (hleft before relative d' (Or.inl hskipped) hd')
  · split
    · rename_i hmetadata
      exact Program.completes_pure (hleft before relative d' (Or.inr hmetadata) hd')
    · rename_i hskipped hmetadata
      have hcopied : Copied relative :=
        { nonempty := hfile.1, directory := by simpa using hskipped, name := by simpa using hmetadata }
      exact hturn before relative d' hcopied hfile.2 hd'

/-- A directory whose copy may fail in the turn of a file. -/
theorem copyDirectory_may {R : Except UpdaterException PUnit → Disk Place Unit → Prop} (hd : I d)
    (hfinite : {place | (d.files place).isSome = true}.Finite) (hcopied : Copied relative)
    (hfile : (d.files (dir.combine relative)).isSome = true)
    (hturn : ∀ relative' d', Copied relative' → (d.files (dir.combine relative')).isSome = true → I d' →
      (copyFileWithRetry sha256 (dir.combine relative') (dir'.combine relative') (relativeText relative')).Completes d' (fun _ => I))
    (hraise : ∀ d', I d' →
      (copyFileWithRetry sha256 (dir.combine relative) (dir'.combine relative) (relativeText relative)).May d'
        (fun r d'' => ∃ e, r = .error e ∧ R (.error e) d'')) : (copyDirectory sha256 listing dir dir').May d R := by
  refine Program.may_bind (Program.Completes.may (completes_createDirectory.mono ?_))
  rintro _ d rfl
  refine Program.may_bind (Program.Completes.may (Program.completes_query ?_))
  have hmem := fun relative => listing.mem_getFiles d.files dir relative hfinite
  obtain ⟨before, after, hsplit⟩ := List.append_of_mem ((hmem relative).2 ⟨hcopied.nonempty, hfile⟩)
  refine Program.may_forM (I := I) hsplit.symm hd ?_ ?_
  · intro relative' hbefore d' hd'
    have hlisted : relative' ∈ listing.getFiles d.files dir := by
      rw [hsplit]
      exact List.mem_append_left _ hbefore
    have hfile' := (hmem relative').1 hlisted
    split
    · exact Program.completes_pure hd'
    · split
      · exact Program.completes_pure hd'
      · rename_i hskipped hmetadata
        have hcopied' : Copied relative' :=
          { nonempty := hfile'.1, directory := by simpa using hskipped, name := by simpa using hmetadata }
        exact hturn relative' d' hcopied' hfile'.2 hd'
  · intro d' hd'
    rw [if_neg (by simp [hcopied.directory]), if_neg (by simp [hcopied.name])]
    exact hraise d' hd'

end Directories

/-! ### The snapshot -/

/-- The files of a disk are finitely many. -/
def FiniteFiles (d : Disk Place Unit) : Prop := {place | (d.files place).isSome = true}.Finite

theorem FiniteFiles.write (h : FiniteFiles d) (place : Place) (content : Option Bytes) : FiniteFiles (d.write place content) := by
  refine (Set.Finite.insert place h).subset ?_
  intro place' hplace'
  by_cases heq : place' = place
  · exact Or.inl heq
  · rw [Set.mem_ofPred_eq, Disk.write_other d content heq] at hplace'
    exact Or.inr hplace'

theorem finiteFiles_start (installed package : Tree) : FiniteFiles (start installed package) := by
  have hlisted : ∀ (tree : Tree) path, (tree.content path).isSome = true → path ∈ tree.map (·.1) := by
    intro tree path hsome
    rw [Tree.content] at hsome
    split at hsome
    · nomatch hsome
    · rw [Option.isSome_map, List.find?_isSome] at hsome
      obtain ⟨file, hmem, heq⟩ := hsome
      exact List.mem_map.2 ⟨file, hmem, by simpa using heq⟩
  have hfinite := ((package.map (·.1)).map (Place.mk .content) ++ (installed.map (·.1)).map (Place.mk .target)).finite_toSet
  refine hfinite.subset ?_
  rintro ⟨root, path⟩ hsome
  cases root with
  | content => exact List.mem_append_left _ (List.mem_map_of_mem (hlisted package path hsome))
  | target => exact List.mem_append_right _ (List.mem_map_of_mem (hlisted installed path hsome))
  | backup => nomatch hsome

/-- A file that the snapshot of a name holds. -/
def Entry (installed : Tree) (name : Text) (path : List Text) : Prop :=
  path = [name] ∨ (installed.content [name] = none ∧ ∃ relative, path = name :: relative ∧ Copied relative)

/-- A file that the snapshot holds. -/
def InSnapshot (installed : Tree) (path : List Text) : Prop := Entry installed launcherName path ∨ Entry installed toolsName path

/-- While the snapshot is taken: the package and the installation are as they were, what is in the snapshot is right, and what was
already saved is in it. -/
structure BackingUp (installed package : Tree) (saved : List Text → Prop) (d : Disk Place Unit) : Prop where
  finite : FiniteFiles d
  content : ∀ path, d.files { root := .content, path } = package.content path
  target : ∀ path, d.files { root := .target, path } = installed.content path
  backup : ∀ path, ¬ IsTemporary path → (d.files { root := .backup, path }).isSome = true →
    d.files { root := .backup, path } = installed.content path ∧ InSnapshot installed path
  saved : ∀ path, saved path → ¬ IsTemporary path → d.files { root := .backup, path } = installed.content path

variable {saved saved' : List Text → Prop} {path : List Text}

theorem BackingUp.mark (h : BackingUp installed package saved d)
    (hmark : ∀ path, saved' path → saved path ∨ (¬ IsTemporary path → d.files { root := .backup, path } = installed.content path)) :
    BackingUp installed package saved' d := by
  refine { h with saved := ?_ }
  intro path hsaved htemporary
  rcases hmark path hsaved with hold | hnew
  · exact h.saved path hold htemporary
  · exact hnew htemporary

/-- What is not there before the update is not in the snapshot. -/
theorem BackingUp.absent (h : BackingUp installed package saved d) (htemporary : ¬ IsTemporary path)
    (hnone : installed.content path = none) : d.files { root := .backup, path } = installed.content path := by
  cases hfile : d.files { root := .backup, path } with
  | none => exact hnone.symm
  | some content =>
    have hright := (h.backup path htemporary (by rw [hfile]; rfl)).1
    rwa [hfile] at hright

theorem place_ne_of_root {root root' : Root} (h : root ≠ root') (path path' : List Text) : (⟨root, path⟩ : Place) ≠ ⟨root', path'⟩ :=
  ne_of_root h

theorem place_ne_of_path {root : Root} {path path' : List Text} (h : path ≠ path') : (⟨root, path⟩ : Place) ≠ ⟨root, path'⟩ :=
  fun heq => h (congrArg Place.path heq)

/-- A file of the snapshot is written, or a temporary. -/
theorem BackingUp.write (h : BackingUp installed package saved d) {content : Option Bytes}
    (hwrite : ¬ IsTemporary path → content = installed.content path ∧ InSnapshot installed path) :
    BackingUp installed package saved (d.write { root := .backup, path } content) := by
  refine { finite := h.finite.write _ _, content := ?_, target := ?_, backup := ?_, saved := ?_ }
  · intro path'
    rw [Disk.write_other _ _ (place_ne_of_root (by decide) _ _)]
    exact h.content path'
  · intro path'
    rw [Disk.write_other _ _ (place_ne_of_root (by decide) _ _)]
    exact h.target path'
  · intro path' htemporary hsome
    by_cases heq : path' = path
    · subst heq
      rw [Disk.write_self]
      exact hwrite htemporary
    · rw [Disk.write_other _ _ (place_ne_of_path heq)] at hsome ⊢
      exact h.backup path' htemporary hsome
  · intro path' hsaved htemporary
    by_cases heq : path' = path
    · subst heq
      rw [Disk.write_self]
      exact (hwrite htemporary).1
    · rw [Disk.write_other _ _ (place_ne_of_path heq)]
      exact h.saved path' hsaved htemporary

/-- A file is copied to the snapshot. -/
theorem backupFile_any (hentry : InSnapshot installed path) :
    (copyFileWithRetry sha256 { root := .target, path } { root := .backup, path } label).Meets
      (fun _ d => BackingUp installed package saved d)
      (fun _ _ d => BackingUp installed package (fun path' => saved path' ∨ path' = path) d)
      (fun _ _ d => BackingUp installed package saved d) (fun _ => True) := by
  refine (copyFileWithRetry_any (I := BackingUp installed package saved) (show Root.target ≠ Root.backup by decide)
    (fun _ _ => trivial) ?_ ?_).weaken
    (fun _ _ hs => hs) ?_ (fun _ _ _ hs => hs) (fun _ hs => hs)
  · intro d content h
    exact h.write (fun hnot => absurd ⟨_, _, rfl⟩ hnot)
  · intro d content h hfile
    rw [h.target] at hfile
    exact h.write (fun _ => ⟨hfile.symm, hentry⟩)
  · rintro _ _ d ⟨h, content, content', -, hbackup, -⟩
    refine h.mark ?_
    rintro path' (hsaved | rfl)
    · exact Or.inl hsaved
    · exact Or.inr fun htemporary => (h.backup _ htemporary (by rw [hbackup]; rfl)).1

/-- What is saved of one name. -/
def saveEntry (sha256 : Bytes → Text) (listing : Listing) (name : Text) : UpdateProgram Unit := do
  let source : Place := { root := .target, path := [name] }
  let destination : Place := { root := .backup, path := [name] }
  let isFile ← Disk.fileExists source
  let isDirectory ← directoryExists listing source
  if isFile then do
    createDirectory
    copyFileWithRetry sha256 source destination name
  else Program.when isDirectory (copyDirectory sha256 listing source destination)

theorem backupCurrent_eq : backupCurrent sha256 listing = (do
    createDirectory
    [launcherName, toolsName].forM (saveEntry sha256 listing) : UpdateProgram Unit) := rfl

/-- The files of a directory that are copied are the entry of its name. -/
theorem BackingUp.directory {name : Text} {listed : List (List Text)} (hnone : installed.content [name] = none)
    (hlisted : ∀ relative, relative ≠ [] → (installed.content (name :: relative)).isSome = true → relative ∈ listed)
    (h : BackingUp installed package (fun path => saved path ∨ ∃ relative ∈ listed, path = name :: relative ∧ Copied relative) d) :
    BackingUp installed package (fun path => saved path ∨ Entry installed name path) d := by
  refine h.mark ?_
  rintro path (hsaved | rfl | ⟨-, relative, rfl, hcopied⟩)
  · exact Or.inl (Or.inl hsaved)
  · exact Or.inr fun htemporary => h.absent htemporary hnone
  · by_cases hmem : relative ∈ listed
    · exact Or.inl (Or.inr ⟨relative, hmem, rfl, hcopied⟩)
    · refine Or.inr fun htemporary => h.absent htemporary ?_
      rw [← Option.not_isSome_iff_eq_none]
      exact fun hsome => hmem (hlisted relative hcopied.nonempty hsome)

/-- What a directory of the installation lists. -/
theorem BackingUp.listed (h : BackingUp installed package saved d) {name : Text} (relative : List Text) :
    relative ∈ listing.getFiles d.files { root := .target, path := [name] } ↔
      relative ≠ [] ∧ (installed.content (name :: relative)).isSome = true := by
  rw [listing.mem_getFiles _ _ _ h.finite, ← h.target]
  rfl

/-- A directory is copied to the snapshot. -/
theorem backupDirectory_any {name : Text} (hname : ∀ path, Entry installed name path → InSnapshot installed path)
    (hnone : installed.content [name] = none) :
    (copyDirectory sha256 listing { root := .target, path := [name] } { root := .backup, path := [name] }).Meets
      (fun _ d => BackingUp installed package saved d)
      (fun _ _ d => BackingUp installed package (fun path => saved path ∨ Entry installed name path) d)
      (fun _ _ d => ∃ saved, BackingUp installed package saved d) (fun _ => True) := by
  refine (copyDirectory_any (K := fun _ => True) (J := fun before d => BackingUp installed package
    (fun path => saved path ∨ ∃ relative ∈ before, path = name :: relative ∧ Copied relative) d) (fun _ _ _ => trivial)
    (fun d h => h.finite) ?_ ?_).weaken ?_ ?_ ?_ (fun _ hs => hs)
  · intro before relative d hleft h
    refine h.mark ?_
    rintro path (hsaved | ⟨relative', hmem, rfl, hcopied⟩)
    · exact Or.inl (Or.inl hsaved)
    · rcases List.mem_append.1 hmem with hbefore | hlast
      · exact Or.inl (Or.inr ⟨relative', hbefore, rfl, hcopied⟩)
      · rw [List.mem_singleton.1 hlast] at hcopied
        exact absurd hcopied hleft.not_copied
  · intro before relative hcopied
    refine (backupFile_any (hname (name :: relative) (Or.inr ⟨hnone, relative, rfl, hcopied⟩))).weaken (fun _ _ hs => hs) ?_
      (fun _ _ _ hs => hs) (fun _ hs => hs)
    intro _ _ d h
    refine h.mark ?_
    rintro path (hsaved | ⟨relative', hmem, rfl, hcopied'⟩)
    · exact Or.inl (Or.inl (Or.inl hsaved))
    · rcases List.mem_append.1 hmem with hbefore | hlast
      · exact Or.inl (Or.inl (Or.inr ⟨relative', hbefore, rfl, hcopied'⟩))
      · rw [List.mem_singleton.1 hlast]
        exact Or.inl (Or.inr rfl)
  · intro _ d h
    refine h.mark ?_
    rintro path (hsaved | ⟨_, hmem, -⟩)
    · exact Or.inl hsaved
    · nomatch hmem
  · rintro _ _ d ⟨d₀, h₀, h⟩
    refine h.directory hnone fun relative hnonempty hsome => (BackingUp.listed h₀ relative).2 ⟨hnonempty, hsome⟩
  · rintro _ _ d ⟨before, h⟩
    exact ⟨_, h⟩

/-- A directory without files needs no copy. -/
theorem BackingUp.empty {name : Text} (h : BackingUp installed package saved d) (hnone : installed.content [name] = none)
    (hempty : listing.getFiles d.files { root := .target, path := [name] } = []) :
    BackingUp installed package (fun path => saved path ∨ Entry installed name path) d := by
  have hmarked : BackingUp installed package
      (fun path => saved path ∨ ∃ relative ∈ ([] : List (List Text)), path = name :: relative ∧ Copied relative) d := by
    refine h.mark ?_
    rintro path (hsaved | ⟨_, hmem, -⟩)
    · exact Or.inl hsaved
    · nomatch hmem
  refine hmarked.directory hnone fun relative hnonempty hsome => ?_
  rw [← hempty]
  exact (h.listed relative).2 ⟨hnonempty, hsome⟩

/-- A name is saved, with what is below it. -/
theorem saveEntry_any {name : Text} (hname : ∀ path, Entry installed name path → InSnapshot installed path) :
    (saveEntry sha256 listing name).Meets (fun _ d => BackingUp installed package saved d)
      (fun _ _ d => BackingUp installed package (fun path => saved path ∨ Entry installed name path) d)
      (fun _ _ d => ∃ saved, BackingUp installed package saved d) (fun _ => True) := by
  refine Program.meets_bind (Disk.meets_fileExists _) fun isFile => ?_
  refine Program.meets_bind (R := fun isDirectory _ d => (BackingUp installed package saved d ∧
      isFile = (installed.content [name]).isSome) ∧
      isDirectory = decide (listing.getFiles d.files { root := .target, path := [name] } ≠ []))
    (Program.meets_query ?_) fun isDirectory => ?_
  · rintro _ d ⟨h, rfl⟩
    exact ⟨⟨h, by rw [h.target]⟩, rfl⟩
  refine Program.meets_of_imp (φ := isFile = (installed.content [name]).isSome) (fun _ _ hs => hs.1.2) fun hisFile => ?_
  split
  · rename_i hfile
    refine Program.meets_bind ((createDirectory_any (fun _ _ => trivial)).weaken (fun _ _ hs => hs.1.1) (fun _ _ _ hs => hs)
      (fun _ _ _ hs => ⟨saved, hs⟩) (fun _ hs => hs)) fun _ => ?_
    refine (backupFile_any (hname [name] (Or.inl rfl))).weaken (fun _ _ hs => hs) ?_ (fun _ _ _ hs => ⟨saved, hs⟩) (fun _ hs => hs)
    intro _ _ d h
    refine h.mark ?_
    rintro path (hsaved | rfl | ⟨hnone, -⟩)
    · exact Or.inl (Or.inl hsaved)
    · exact Or.inl (Or.inr rfl)
    · simp [hisFile, hnone] at hfile
  · rename_i hfile
    have hnone : installed.content [name] = none := by simpa [hisFile] using hfile
    refine Program.meets_when (fun _ => (backupDirectory_any hname hnone).from fun _ _ hs => hs.1.1) ?_
    rintro hempty _ d ⟨⟨h, -⟩, hdirectory⟩
    rw [hempty] at hdirectory
    exact h.empty hnone (by simpa using hdirectory.symm)

/-- The snapshot is taken, whatever befalls. -/
theorem backupCurrent_any :
    (backupCurrent sha256 listing).Meets (fun _ d => BackingUp installed package (fun _ => False) d)
      (fun _ _ d => BackingUp installed package (InSnapshot installed) d) (fun _ _ d => ∃ saved, BackingUp installed package saved d)
      (fun _ => True) := by
  rw [backupCurrent_eq]
  refine Program.meets_bind ((createDirectory_any (fun _ _ => trivial)).weaken (fun _ _ hs => hs) (fun _ _ _ hs => hs)
    (fun _ _ _ hs => ⟨_, hs⟩) (fun _ hs => hs)) fun _ => ?_
  refine Program.meets_bind (saveEntry_any fun _ => Or.inl) fun _ => Program.meets_bind (saveEntry_any fun _ => Or.inr) fun _ => ?_
  refine Program.meets_pure fun _ d h => h.mark ?_
  rintro path (hlauncher | htools)
  · exact Or.inl (Or.inl (Or.inr hlauncher))
  · exact Or.inl (Or.inr htools)

/-- Where nothing fails, a file of the installation is copied to the snapshot. -/
theorem completes_backupFile (h : BackingUp installed package saved d) (hentry : InSnapshot installed path)
    (hfile : (installed.content path).isSome = true) :
    (copyFileWithRetry sha256 { root := .target, path } { root := .backup, path } label).Completes d
      (fun _ d' => ∃ saved, BackingUp installed package saved d') := by
  obtain ⟨content, hcontent⟩ := Option.isSome_iff_exists.1 hfile
  have hcopied : (copyFileWithRetry sha256 { root := .target, path } { root := .backup, path } label).Completes d (fun _ _ => True) :=
    completes_copyFileWithRetry (by simp) ((h.target path).trans hcontent)
  exact (hcopied.and_meets (backupFile_any hentry) h).mono fun _ _ hs => ⟨_, hs⟩

theorem completes_saveEntry {name : Text} (hname : ∀ path, Entry installed name path → InSnapshot installed path)
    (h : BackingUp installed package saved d) :
    (saveEntry sha256 listing name).Completes d (fun _ d' => ∃ saved, BackingUp installed package saved d') := by
  refine Program.completes_bind (Program.completes_query (Program.completes_bind (Program.completes_query ?_)))
  rw [h.target]
  split
  · rename_i hfile
    refine Program.completes_bind (completes_createDirectory.mono ?_)
    rintro _ _ rfl
    exact completes_backupFile h (hname [name] (Or.inl rfl)) hfile
  · rename_i hfile
    refine Program.completes_when (fun _ => ?_) fun _ => ⟨saved, h⟩
    refine completes_copyDirectory (J := fun _ d' => ∃ saved, BackingUp installed package saved d') ⟨saved, h⟩ h.finite
      (fun _ _ _ _ hs => hs) ?_
    rintro before relative d' hcopied hsome ⟨saved', h'⟩
    have hentry : Entry installed name (name :: relative) := Or.inr ⟨by simpa using hfile, relative, rfl, hcopied⟩
    exact completes_backupFile h' (hname _ hentry) (by rw [← h.target]; exact hsome)

/-- Where nothing fails, the snapshot is taken. -/
theorem completes_backupCurrent (h : BackingUp installed package (fun _ => False) d) :
    (backupCurrent sha256 listing).Completes d (fun _ d' => BackingUp installed package (InSnapshot installed) d') := by
  have hcompletes : (backupCurrent sha256 listing).Completes d (fun _ _ => True) := by
    rw [backupCurrent_eq]
    refine Program.completes_bind (completes_createDirectory.mono ?_)
    rintro _ _ rfl
    refine Program.completes_bind ((completes_saveEntry (fun _ => Or.inl) h).mono ?_)
    rintro _ _ ⟨saved', h'⟩
    refine Program.completes_bind ((completes_saveEntry (fun _ => Or.inr) h').mono ?_)
    exact fun _ _ _ => Program.completes_pure trivial
  exact hcompletes.and_meets backupCurrent_any h

theorem backingUp_start : BackingUp installed package (fun _ => False) (start installed package) where
  finite := finiteFiles_start installed package
  content _ := rfl
  target _ := rfl
  backup _ _ hsome := nomatch hsome
  saved _ hsaved := hsaved.elim

/-! ### The files of the target -/

/-- A snapshot of the installation. -/
structure IsSnapshot (installed : Tree) (snapshot : List Text → Option Bytes) : Prop where
  holds : ∀ path, InSnapshot installed path → ¬ IsTemporary path → snapshot path = installed.content path
  only : ∀ path, ¬ IsTemporary path → (snapshot path).isSome = true → snapshot path = installed.content path ∧ InSnapshot installed path

theorem BackingUp.isSnapshot (h : BackingUp installed package (InSnapshot installed) d) :
    IsSnapshot installed (fun path => d.files { root := .backup, path }) where
  holds := h.saved
  only := h.backup

/-- The package and the snapshot are as they were, and the files of the target are as wanted. -/
structure Replacing (package : Tree) (snapshot : List Text → Option Bytes) (wanted : List Text → Option Bytes → Prop)
    (d : Disk Place Unit) : Prop where
  finite : FiniteFiles d
  content : ∀ path, d.files { root := .content, path } = package.content path
  backup : ∀ path, d.files { root := .backup, path } = snapshot path
  target : ∀ path, ¬ IsTemporary path → wanted path (d.files { root := .target, path })

variable {snapshot : List Text → Option Bytes} {wanted wanted' : List Text → Option Bytes → Prop}

theorem Replacing.mono (h : Replacing package snapshot wanted d)
    (hwanted : ∀ path, ¬ IsTemporary path → wanted path (d.files { root := .target, path }) →
      wanted' path (d.files { root := .target, path })) : Replacing package snapshot wanted' d :=
  { h with target := fun path htemporary => hwanted path htemporary (h.target path htemporary) }

theorem Replacing.write (h : Replacing package snapshot wanted d) {content : Option Bytes}
    (hwrite : ¬ IsTemporary path → wanted path content) :
    Replacing package snapshot wanted (d.write { root := .target, path } content) := by
  refine { finite := h.finite.write _ _, content := ?_, backup := ?_, target := ?_ }
  · intro path'
    rw [Disk.write_other _ _ (place_ne_of_root (by decide) _ _)]
    exact h.content path'
  · intro path'
    rw [Disk.write_other _ _ (place_ne_of_root (by decide) _ _)]
    exact h.backup path'
  · intro path' htemporary
    by_cases heq : path' = path
    · subst heq
      rw [Disk.write_self]
      exact hwrite htemporary
    · rw [Disk.write_other _ _ (place_ne_of_path heq)]
      exact h.target path' htemporary

/-- A file is copied to the target. -/
theorem replace_any {root : Root} (hroot : root ≠ .target)
    (hland : ∀ d content, Replacing package snapshot wanted d → d.files { root, path } = some content → ¬ IsTemporary path →
      wanted path (some content)) :
    (copyFileWithRetry sha256 { root, path } { root := .target, path } label).Meets
      (fun _ d => Replacing package snapshot wanted d)
      (fun _ _ d => Replacing package snapshot wanted d ∧ Identical sha256 d.files { root, path } { root := .target, path })
      (fun _ _ d => Replacing package snapshot wanted d) (fun _ => True) := by
  refine copyFileWithRetry_any hroot (fun _ _ => trivial) ?_ ?_
  · intro d content h
    exact h.write (fun hnot => absurd ⟨_, _, rfl⟩ hnot)
  · intro d content h hfile
    exact h.write (hland d content h hfile)

/-- While the package is copied, a file of the target is as it was or as in the package. -/
def OldOrNew (installed package : Tree) (path : List Text) (content : Option Bytes) : Prop :=
  content = installed.content path ∨ (Copied path ∧ content = package.content path ∧ content.isSome = true)

theorem BackingUp.replacing (h : BackingUp installed package saved d) (hwanted : ∀ path, wanted path (installed.content path)) :
    Replacing package (fun path => d.files { root := .backup, path }) wanted d where
  finite := h.finite
  content := h.content
  backup _ := rfl
  target path _ := (h.target path).symm ▸ hwanted path

/-- The package is copied, whatever befalls. -/
theorem copyPackage_any :
    (copyDirectory sha256 listing { root := .content, path := [] } { root := .target, path := [] }).Meets
      (fun _ d => Replacing package snapshot (OldOrNew installed package) d) (fun _ _ _ => True)
      (fun _ _ d => Replacing package snapshot (OldOrNew installed package) d) (fun _ => True) := by
  refine (copyDirectory_any (K := fun _ => True) (J := fun _ d => Replacing package snapshot (OldOrNew installed package) d)
    (fun _ _ _ => trivial) (fun _ h => h.finite) (fun _ _ _ _ h => h) ?_).weaken (fun _ _ hs => hs) (fun _ _ _ _ => trivial)
    (fun _ _ _ ⟨_, hs⟩ => hs) (fun _ hs => hs)
  intro before relative hcopied
  refine Program.Meets.weaken (replace_any (by decide) ?_) (fun _ _ hs => hs) (fun _ _ _ hs => hs.1) (fun _ _ _ hs => hs)
    (fun _ hs => hs)
  intro d content h hfile _
  exact Or.inr ⟨hcopied, by rw [← h.content, hfile], rfl⟩

/-! ### The restore -/

/-- A file that the restore copies when the snapshot holds it. -/
def Restored (path : List Text) : Prop := path = [launcherName] ∨ ∃ relative, path = toolsName :: relative ∧ Copied relative

/-- The tools are copied from the snapshot, one after the other. -/
theorem completes_restoreTools {J : List (List Text) → Disk Place Unit → Prop} {before : List (List Text)} (hd : J before d)
    (hfinite : FiniteFiles d) (hbackup : ∀ path, d.files { root := .backup, path } = snapshot path)
    (hturn : ∀ before path label d, Restored path → (snapshot path).isSome = true → J before d →
      (copyFileWithRetry sha256 { root := .backup, path } { root := .target, path } label).Completes d
        (fun _ => J (before ++ [path])))
    (hlauncher : (snapshot [launcherName]).isSome = true → [launcherName] ∈ before) :
    (do
      let toolsExists ← directoryExists listing { root := .backup, path := [toolsName] }
      Program.when toolsExists (copyDirectory sha256 listing { root := .backup, path := [toolsName] }
        { root := .target, path := [toolsName] }) : UpdateProgram Unit).Completes d
      (fun _ d' => ∃ before, J before d' ∧ ∀ path, Restored path → (snapshot path).isSome = true → path ∈ before) := by
  have hlisted : ∀ relative, relative ∈ listing.getFiles d.files { root := .backup, path := [toolsName] } ↔
      relative ≠ [] ∧ (snapshot (toolsName :: relative)).isSome = true := by
    intro relative
    rw [listing.mem_getFiles _ _ _ hfinite, ← hbackup]
    rfl
  refine Program.completes_bind (Program.completes_query (Program.completes_when (fun _ => ?_) fun hempty => ?_))
  · refine (completes_copyDirectory (J := fun copied d' => ∃ before, J before d' ∧
      ((snapshot [launcherName]).isSome = true → [launcherName] ∈ before) ∧
      ∀ relative ∈ copied, Copied relative → toolsName :: relative ∈ before) ⟨before, hd, hlauncher, fun _ h => nomatch h⟩
      hfinite ?_ ?_).mono ?_
    · rintro copied relative d' hleft ⟨before', hd', hlauncher', hdone⟩
      refine ⟨before', hd', hlauncher', fun relative' hmem hcopied => ?_⟩
      rcases List.mem_append.1 hmem with hold | hlast
      · exact hdone relative' hold hcopied
      · rw [List.mem_singleton.1 hlast] at hcopied
        exact absurd hcopied hleft.not_copied
    · rintro copied relative d' hcopied hsome ⟨before', hd', hlauncher', hdone⟩
      have hsome' : (snapshot (toolsName :: relative)).isSome = true := by
        rw [← hbackup]
        exact hsome
      refine (hturn before' (toolsName :: relative) _ d' (Or.inr ⟨relative, rfl, hcopied⟩) hsome' hd').mono ?_
      intro _ d'' hd''
      refine ⟨_, hd'', fun h => List.mem_append_left _ (hlauncher' h), fun relative' hmem hcopied' => ?_⟩
      rcases List.mem_append.1 hmem with hold | hlast
      · exact List.mem_append_left _ (hdone relative' hold hcopied')
      · rw [List.mem_singleton.1 hlast]
        exact List.mem_append_right _ List.mem_cons_self
    · rintro _ d' ⟨before', hd', hlauncher', hdone⟩
      refine ⟨before', hd', ?_⟩
      rintro path (rfl | ⟨relative, rfl, hcopied⟩) hsome
      · exact hlauncher' hsome
      · exact hdone relative ((hlisted relative).2 ⟨hcopied.nonempty, hsome⟩) hcopied
  · refine ⟨before, hd, ?_⟩
    rintro path (rfl | ⟨relative, rfl, hcopied⟩) hsome
    · exact hlauncher hsome
    · have hmem := (hlisted relative).2 ⟨hcopied.nonempty, hsome⟩
      rw [show listing.getFiles d.files { root := .backup, path := [toolsName] } = [] by simpa using hempty] at hmem
      nomatch hmem

/-- The restore copies every file of the snapshot, one after the other. -/
theorem completes_restoreBackup {J : List (List Text) → Disk Place Unit → Prop} (hd : J [] d)
    (hfinite : ∀ before d, J before d → FiniteFiles d)
    (hbackup : ∀ before d, J before d → ∀ path, d.files { root := .backup, path } = snapshot path)
    (hturn : ∀ before path label d, Restored path → (snapshot path).isSome = true → J before d →
      (copyFileWithRetry sha256 { root := .backup, path } { root := .target, path } label).Completes d
        (fun _ => J (before ++ [path]))) :
    (restoreBackup sha256 listing).Completes d
      (fun _ d' => ∃ before, J before d' ∧ ∀ path, Restored path → (snapshot path).isSome = true → path ∈ before) := by
  refine Program.completes_tryCatch (Program.completes_bind (Program.completes_query (Program.completes_bind ?_)))
  rw [hbackup [] d hd]
  refine Program.completes_when (fun hlauncher => ?_) fun hnone => ?_
  · refine (hturn [] [launcherName] _ d (Or.inl rfl) hlauncher hd).mono ?_
    intro _ d' hd'
    exact completes_restoreTools hd' (hfinite _ d' hd') (hbackup _ d' hd') hturn fun _ => List.mem_append_right _ List.mem_cons_self
  · exact completes_restoreTools hd (hfinite _ d hd) (hbackup _ d hd) hturn fun hsome => by simp [hnone] at hsome

/-- Where nothing fails, a file of the snapshot is copied to the target. -/
theorem completes_restoreFile (h : Replacing package snapshot wanted d) (hfile : (snapshot path).isSome = true)
    (hland : ∀ content, snapshot path = some content → ¬ IsTemporary path → wanted path (some content)) :
    (copyFileWithRetry sha256 { root := .backup, path } { root := .target, path } label).Completes d
      (fun _ d' => Replacing package snapshot wanted d' ∧
        Identical sha256 d'.files { root := .backup, path } { root := .target, path }) := by
  obtain ⟨content, hcontent⟩ := Option.isSome_iff_exists.1 hfile
  have hcopied : (copyFileWithRetry sha256 { root := .backup, path } { root := .target, path } label).Completes d (fun _ _ => True) :=
    completes_copyFileWithRetry (by simp) ((h.backup path).trans hcontent)
  refine hcopied.and_meets (replace_any (by decide) ?_) h
  intro d' content' h' hfile'
  rw [h'.backup] at hfile'
  exact hland content' hfile'

/-- In the restore, a file that differs from the old one is still to come. -/
def OldOrPending (sha256 : Bytes → Text) (installed : Tree) (settled : List (List Text)) (path : List Text) (content : Option Bytes) :
    Prop :=
  ∀ old, installed.content path = some old →
    content = some old ∨ (Saved installed path ∧ path ∉ settled ∧ ∃ new, content = some new ∧ ¬ SameHash sha256 old new)

/-- What is saved is restored, if the snapshot holds it. -/
theorem restored_of_saved (h : Saved installed path) : Restored path ∧ InSnapshot installed path := by
  rcases h with rfl | ⟨hnone, hbelow⟩
  · exact ⟨Or.inl rfl, Or.inl (Or.inl rfl)⟩
  · exact ⟨Or.inr hbelow, Or.inr (Or.inr ⟨hnone, hbelow⟩)⟩

/-- A restore without failures gives every file its old content back, when those that differ are saved. -/
theorem completes_restore (hsnapshot : IsSnapshot installed snapshot)
    (h : Replacing package snapshot (OldOrPending sha256 installed []) d) :
    (restoreBackup sha256 listing).Completes d (fun _ d' => ∀ path old, installed.content path = some old → ¬ IsTemporary path →
      d'.files { root := .target, path } = some old) := by
  refine (completes_restoreBackup (J := fun settled => Replacing package snapshot (OldOrPending sha256 installed settled)) h
    (fun _ _ h => h.finite) (fun _ _ h => h.backup) ?_).mono ?_
  · intro settled path label d _ hsome h
    refine (completes_restoreFile h hsome ?_).mono ?_
    · intro content hcontent htemporary old hold
      have hright := (hsnapshot.only path htemporary hsome).1
      rw [hcontent, hold] at hright
      exact Or.inl hright
    · rintro _ d' ⟨h', content, content', hbackup, htarget, hsame⟩
      refine h'.mono fun path' htemporary hpending old hold => ?_
      rcases hpending old hold with heq | ⟨hsaved, hnot, new, hnew, hdiffers⟩
      · exact Or.inl heq
      refine Or.inr ⟨hsaved, ?_, new, hnew, hdiffers⟩
      intro hmem
      rcases List.mem_append.1 hmem with hmem | hlast
      · exact hnot hmem
      · obtain rfl := List.mem_singleton.1 hlast
        have hright := (hsnapshot.only path' htemporary hsome).1
        rw [← h'.backup, hbackup, hold] at hright
        rw [htarget] at hnew
        obtain rfl := Option.some.inj hright
        obtain rfl := Option.some.inj hnew
        exact hdiffers hsame
  · rintro _ d' ⟨settled, h', hdone⟩ path old hold htemporary
    rcases h'.target path htemporary old hold with heq | ⟨hsaved, hnot, -⟩
    · exact heq
    · obtain ⟨hrestored, hentry⟩ := restored_of_saved hsaved
      refine absurd (hdone path hrestored ?_) hnot
      rw [hsnapshot.holds path hentry htemporary, hold]
      rfl

/-- When the files that the package changes are covered, those that differ after the copy are saved. -/
theorem pending_of_covered (hcovered : Covered sha256 installed package) (h : Replacing package snapshot (OldOrNew installed package) d) :
    Replacing package snapshot (OldOrPending sha256 installed []) d := by
  refine h.mono fun path htemporary hcontent old hold => ?_
  rcases hcontent with heq | ⟨hcopied, hnew, hsome⟩
  · exact Or.inl (heq.trans hold)
  · obtain ⟨new, hcontent⟩ := Option.isSome_iff_exists.1 hsome
    rw [hcontent] at hnew
    rcases hcovered path old new hold hnew.symm hcopied htemporary with rfl | ⟨hsaved, hdiffers⟩
    · exact Or.inl hcontent
    · exact Or.inr ⟨hsaved, nofun, new, hcontent, hdiffers⟩

/-- The old content is kept when the changes are covered. -/
theorem kept_of_covered (hcovered : Covered sha256 installed package) : Kept sha256 listing installed package := by
  intro mishaps e mishaps' after hrestore hrun path old hold htemporary
  have hbackup := @backupCurrent_any sha256 listing installed package mishaps _ backingUp_start
  change ((backupCurrent sha256 listing).run mishaps (start installed package)).andThen _ = _ at hrun
  change (((backupCurrent sha256 listing).run mishaps (start installed package)).andThen _).Ends _ _ _ at hrestore
  cases hfirst : (backupCurrent sha256 listing).run mishaps (start installed package) with
  | killed d =>
    rw [hfirst] at hrun
    nomatch hrun
  | raised e' mishaps₁ d =>
    rw [hfirst] at hrun hbackup
    obtain ⟨saved, h⟩ := hbackup
    obtain ⟨rfl, rfl, rfl⟩ := Execution.raised.inj hrun
    rw [h.target, hold]
  | done u mishaps₁ d =>
    rw [hfirst] at hrun hbackup hrestore
    have hsnapshot := BackingUp.isSnapshot hbackup
    have hcopy := @copyPackage_any sha256 listing installed package _ mishaps₁ d
      (BackingUp.replacing hbackup fun path => (Or.inl rfl : OldOrNew installed package path (installed.content path)))
    change (((copyDirectory sha256 listing ⟨.content, []⟩ ⟨.target, []⟩).run mishaps₁ d).orElse _) = _ at hrun
    change ((copyDirectory sha256 listing ⟨.content, []⟩ ⟨.target, []⟩).run mishaps₁ d).Ends _ _ _ at hrestore
    cases hsecond : (copyDirectory sha256 listing ⟨.content, []⟩ ⟨.target, []⟩).run mishaps₁ d with
    | killed d' =>
      rw [hsecond] at hrun
      nomatch hrun
    | done u' mishaps₂ d' =>
      rw [hsecond] at hrun
      nomatch hrun
    | raised e' mishaps₂ d' =>
      rw [hsecond] at hrun hcopy hrestore
      obtain ⟨n, _, d'', hd'', hrestored⟩ := @completes_restore sha256 listing installed package _ _ hsnapshot (pending_of_covered hcovered hcopy)
      change ((restoreBackup sha256 listing).run mishaps₂ d').andThen _ = _ at hrun
      rw [hrestored mishaps₂ fun mishap hmem => hrestore mishap (List.mem_of_mem_take hmem)] at hrun
      obtain ⟨-, -, rfl⟩ := Execution.raised.inj hrun
      exact hd'' path old hold htemporary

/-- What the restore copies from a snapshot is saved. -/
theorem saved_of_restored (hrestored : Restored path) (hentry : InSnapshot installed path) : Saved installed path := by
  have hne : toolsName ≠ launcherName := by decide
  rcases hrestored with rfl | ⟨relative, rfl, hcopied⟩
  · exact Or.inl rfl
  · rcases hentry with (heq | ⟨-, _, heq, -⟩) | (heq | hbelow)
    · exact absurd (List.cons.inj heq).1 hne
    · exact absurd (List.cons.inj heq).1 hne
    · exact absurd (List.cons.inj heq).2 hcopied.nonempty
    · exact Or.inr hbelow

/-- A destination that is identical to the source is left as it is. -/
theorem completes_copy_unchanged (hsame : Identical sha256 d.files source destination) :
    (copyFileWithRetry sha256 source destination label).Completes d (fun _ d' => d' = d) := by
  obtain ⟨content, content', -, hdestination, -⟩ := id hsame
  refine Program.completes_bind (Program.completes_query (Program.completes_bind ?_))
  rw [hdestination]
  refine (completes_filesAreIdentical source destination).mono ?_
  rintro unchanged d' ⟨rfl, hunchanged⟩
  rw [hunchanged.2 hsame]
  refine Program.completes_when ?_ fun _ => rfl
  exact nofun

/-- A file that is replaced stays replaced when it is not saved, or its digest does not tell that it was. -/
theorem completes_restore_stays {old new : Bytes} (hsnapshot : IsSnapshot installed snapshot) (hold : installed.content path = some old)
    (htemporary : ¬ IsTemporary path) (hnot : ¬ (Saved installed path ∧ ¬ SameHash sha256 old new))
    (h : Replacing package snapshot (fun path' content => path' = path → content = some new) d) :
    (restoreBackup sha256 listing).Completes d (fun _ d' => d'.files { root := .target, path } = some new) := by
  refine (completes_restoreBackup (J := fun _ => Replacing package snapshot (fun path' content => path' = path → content = some new)) h
    (fun _ _ h => h.finite) (fun _ _ h => h.backup) ?_).mono (fun _ d' ⟨_, h', _⟩ => h'.target path htemporary rfl)
  intro settled path' label d hrestored hsome h
  by_cases heq : path' = path
  · subst heq
    obtain ⟨hright, hentry⟩ := hsnapshot.only path' htemporary hsome
    have hsame : SameHash sha256 old new := by
      by_contra hdiffers
      exact hnot ⟨saved_of_restored hrestored hentry, hdiffers⟩
    have hidentical : Identical sha256 d.files { root := .backup, path := path' } { root := .target, path := path' } :=
      ⟨old, new, by rw [h.backup, hright, hold], h.target path' htemporary rfl, hsame⟩
    refine (completes_copy_unchanged hidentical).mono ?_
    rintro _ _ rfl
    exact h
  · refine (completes_restoreFile h hsome ?_).mono fun _ _ hs => hs.1
    exact fun _ _ _ hpath => absurd hpath heq

/-- The copy of the package may fail after a file is replaced. -/
theorem copyPackage_may {new : Bytes} (hnew : package.content path = some new) (hcopied : Copied path)
    (h : Replacing package snapshot (fun _ _ => True) d) :
    (copyDirectory sha256 listing { root := .content, path := [] } { root := .target, path := [] }).May d
      (fun r d' => ∃ e, r = .error e ∧ Replacing package snapshot (fun path' content => path' = path → content = some new) d') := by
  have hfile : ∀ relative (d' : Disk Place Unit), d'.files { root := .content, path := relative } = package.content relative →
      (d.files { root := .content, path := relative }).isSome = true →
      ∃ content, d'.files { root := .content, path := relative } = some content := by
    intro relative d' heq hsome
    rw [heq, ← h.content]
    exact Option.isSome_iff_exists.1 hsome
  refine copyDirectory_may (I := Replacing package snapshot (fun _ _ => True)) h h.finite hcopied ?_ ?_ ?_
  · show (d.files { root := .content, path }).isSome = true
    rw [h.content, hnew]
    rfl
  · intro relative d' _ hsome h'
    obtain ⟨content, hcontent⟩ := hfile relative d' (h'.content relative) hsome
    have hcompletes : (copyFileWithRetry sha256 { root := .content, path := relative } { root := .target, path := relative }
        (relativeText relative)).Completes d' (fun _ _ => True) := completes_copyFileWithRetry (by simp) hcontent
    exact (hcompletes.and_meets (replace_any (by decide) fun _ _ _ _ _ => trivial) h').mono fun _ _ hs => hs.1
  · intro d' h'
    have hlands : (copyFileWithRetry sha256 { root := .content, path } { root := .target, path } (relativeText path)).May d'
        (fun r d'' => (∃ e, r = .error e) ∧ Lands { root := .target, path } new d' d'') :=
      copyFileWithRetry_may (by simp) ((h'.content path).trans hnew)
    have hkept : (copyFileWithRetry sha256 { root := .content, path } { root := .target, path } (relativeText path)).Meets
        (fun _ d => Replacing package snapshot (fun _ _ => True) d)
        (fun _ _ d => Replacing package snapshot (fun _ _ => True) d ∧
          Identical sha256 d.files { root := .content, path } { root := .target, path })
        (fun _ _ d => Replacing package snapshot (fun _ _ => True) d) (fun _ => True) :=
      replace_any (by decide) fun _ _ _ _ _ => trivial
    refine (hlands.and_meets hkept h').mono ?_
    rintro _ d'' ⟨e, rfl, hlands, h''⟩
    refine ⟨e, rfl, e, rfl, { h'' with target := ?_ }⟩
    rintro _ - rfl
    exact hlands.placed

/-- The old content is kept only when the changes are covered. -/
theorem covered_of_kept (hkept : Kept sha256 listing installed package) : Covered sha256 installed package := by
  intro path old new hold hnew hcopied htemporary
  by_contra hnot
  rw [not_or] at hnot
  have hcompletes : (backupCurrent sha256 listing).May (start installed package)
      (fun r d => r = .ok () ∧ BackingUp installed package (InSnapshot installed) d) :=
    Program.Completes.may ((completes_backupCurrent backingUp_start).mono fun _ _ h => ⟨rfl, h⟩)
  obtain ⟨first, _, d, ⟨rfl, h⟩, hbackup⟩ := hcompletes
  have hreplacing : Replacing package (fun path => d.files { root := .backup, path }) (fun _ _ => True) d :=
    h.replacing fun _ => trivial
  obtain ⟨second, _, d', ⟨e, rfl, h'⟩, hcopy⟩ := @copyPackage_may sha256 listing package _ _ _ _ hnew hcopied hreplacing
  obtain ⟨n, _, d'', hstays, hrestore⟩ := @completes_restore_stays sha256 listing installed package _ _ _ _ _ h.isSnapshot hold
    htemporary hnot.2 h'
  have hbackup' := hbackup (second ++ [])
  have hcopy' := hcopy []
  have hrestore' := hrestore [] (by rw [List.take_nil]; exact nofun)
  have hraises : RestoreSucceeds sha256 listing installed package (first ++ (second ++ [])) := by
    change (((backupCurrent sha256 listing).run _ (start installed package)).andThen _).Ends _ _ _
    rw [hbackup']
    change ((copyDirectory sha256 listing ⟨.content, []⟩ ⟨.target, []⟩).run (second ++ []) d).Ends _ _ _
    rw [hcopy']
    exact fun mishap hmem => nomatch hmem
  have hrun : (applyFullPackage sha256 listing).run (first ++ (second ++ [])) (start installed package) = .raised e [] d'' := by
    change ((backupCurrent sha256 listing).run _ (start installed package)).andThen _ = _
    rw [hbackup']
    change ((copyDirectory sha256 listing ⟨.content, []⟩ ⟨.target, []⟩).run (second ++ []) d).orElse _ = _
    rw [hcopy']
    change ((restoreBackup sha256 listing).run [] d').andThen _ = _
    rw [hrestore', List.drop_nil]
    rfl
  have hkeeps := hkept _ e [] d'' hraises hrun path old hold htemporary
  rw [hstays] at hkeeps
  exact hnot.1 (Option.some.inj hkeeps).symm

open Classical in
/-- Directories can be listed. -/
theorem exists_listing : Nonempty Listing := by
  refine ⟨{ getFiles := fun files dir =>
              if h : {place | (files place).isSome = true}.Finite then
                ((h.toFinset.toList.filter (fun place => place.root = dir.root ∧ dir.path <+: place.path)).map
                  (fun place => place.path.drop dir.path.length)).filter (· ≠ [])
              else []
            mem_getFiles := ?_ }⟩
  intro files dir relative hfinite
  rw [dif_pos hfinite, List.mem_filter, List.mem_map]
  constructor
  · rintro ⟨⟨⟨root, path⟩, hmem, hdrop⟩, hnonempty⟩
    obtain ⟨hmem, hbelow⟩ := List.mem_filter.1 hmem
    obtain ⟨hroot, rest, hpath⟩ := of_decide_eq_true hbelow
    simp only at hroot hpath hdrop
    subst hroot hpath
    rw [List.drop_left] at hdrop
    subst hdrop
    exact ⟨of_decide_eq_true hnonempty, hfinite.mem_toFinset.1 (Finset.mem_toList.1 hmem)⟩
  · rintro ⟨hnonempty, hsome⟩
    refine ⟨⟨dir.combine relative, List.mem_filter.2 ⟨?_, ?_⟩, ?_⟩, decide_eq_true hnonempty⟩
    · exact Finset.mem_toList.2 (hfinite.mem_toFinset.2 hsome)
    · exact decide_eq_true ⟨rfl, List.prefix_append _ _⟩
    · exact List.drop_left

end UpdateAux

end Scbl.Updater
