import Scbl.Launcher.TransactionalComponentInstaller
import Mathlib.Tactic.Common

/-!
# Component installation is all or nothing

When at most one file operation fails, an installation that returns has put the new content in every target, and one that throws leaves
every target as it was. The first loop writes no file but the temporary ones. In the second each prepared file is ready, in its turn or
done, and in all three cases what the rollback needs is beside the target; the files of different targets are apart, so a turn leaves
the others as they are.
-/

namespace Scbl.Launcher.TransactionalComponentInstaller

open Scbl.Lib

/-- The files of a disk by their paths. -/
abbrev Files := Text → Option Bytes

/-- A file with the expected digest is there. -/
def Holds (sha256 : Bytes → Text) (files : Files) (path expected : Text) : Prop :=
  ∃ content, files path = some content ∧ equalsIgnoreCase (sha256 content) expected = true

/-- The targets are distinct, none is a temporary or backup file of another, and no such file is left over. -/
structure Installable (installs : List ComponentFileInstall) (initial : Files) : Prop where
  distinct : (installs.map (·.targetPath)).Nodup
  apart : ∀ f ∈ installs, ∀ g ∈ installs,
    f.targetPath ≠ temporaryPath g.targetPath ∧ f.targetPath ≠ backupPath g.targetPath
  clean : ∀ f ∈ installs, initial (temporaryPath f.targetPath) = none ∧ initial (backupPath f.targetPath) = none

namespace InstallAux

/-- As above, where only backups must not be left over. -/
structure Startable (installs : List ComponentFileInstall) (initial : Files) : Prop where
  distinct : (installs.map (·.targetPath)).Nodup
  apart : ∀ f ∈ installs, ∀ g ∈ installs,
    f.targetPath ≠ temporaryPath g.targetPath ∧ f.targetPath ≠ backupPath g.targetPath
  noBackup : ∀ f ∈ installs, initial (backupPath f.targetPath) = none

/-! ### Paths -/

/-- The paths that the installation of a file writes. -/
def Own (f : ComponentFileInstall) (path : Text) : Prop :=
  path = f.targetPath ∨ path = temporaryPath f.targetPath ∨ path = backupPath f.targetPath

/-- The paths of two files are apart. -/
def Apart (f g : ComponentFileInstall) : Prop := ∀ path, Own f path → ¬ Own g path

theorem Apart.symm {f g : ComponentFileInstall} (h : Apart f g) : Apart g f := fun path hg hf => h path hf hg

variable {sha256 : Bytes → Text} {installs : List ComponentFileInstall} {initial : Files}

/-- Files with different targets are apart. -/
theorem apart_of_ne (h : Startable installs initial) {f g : ComponentFileInstall} (hf : f ∈ installs) (hg : g ∈ installs)
    (hne : f.targetPath ≠ g.targetPath) : Apart f g := by
  rintro path (rfl | rfl | rfl) (heq | heq | heq)
  · exact hne heq
  · exact (h.apart f hf g hg).1 heq
  · exact (h.apart f hf g hg).2 heq
  · exact (h.apart g hg f hf).1 heq.symm
  · exact hne (temporaryPath_inj.1 heq)
  · exact temporaryPath_ne_backupPath _ _ heq
  · exact (h.apart g hg f hf).2 heq.symm
  · exact temporaryPath_ne_backupPath _ _ heq.symm
  · exact hne (backupPath_inj.1 heq)

/-! ### Reading operations -/

variable {I : Disk Text (List PreparedFile) → Prop} {K : Disk Text (List PreparedFile) → Prop}
variable {E : InstallException → Mishaps → Disk Text (List PreparedFile) → Prop}

/-- A digest is computed of the file that is there. -/
theorem computeSha256_once {path : Text} (hraise : ∀ mishaps d, FailsAtMostOnce mishaps → I d → d.files path = none → E .io mishaps d)
    (hfail : ∀ mishaps d, NoFailure mishaps → I d → E .io mishaps d) :
    (computeSha256 sha256 path).Meets (fun mishaps d => FailsAtMostOnce mishaps ∧ I d)
      (fun actual mishaps d => FailsAtMostOnce mishaps ∧ I d ∧ ∃ content, d.files path = some content ∧ actual = sha256 content)
      E K := by
  refine Program.meets_bind (Disk.meets_readFile_once hraise hfail) ?_
  intro content
  exact Program.meets_pure fun mishaps d hs => ⟨hs.1, hs.2.1, content, hs.2.2, rfl⟩

/-- A check that passes has seen the expected digest. -/
theorem verifyHash_once {path expected label : Text} (hE : ∀ e mishaps d, FailsAtMostOnce mishaps → I d → E e mishaps d) :
    (verifyHash sha256 path expected label).Meets (fun mishaps d => FailsAtMostOnce mishaps ∧ I d)
      (fun _ mishaps d => FailsAtMostOnce mishaps ∧ I d ∧ Holds sha256 d.files path expected) E K := by
  refine Program.meets_bind
    (computeSha256_once (fun mishaps d hm hI _ => hE _ mishaps d hm hI) (fun mishaps d hm hI => hE _ mishaps d hm.failsAtMostOnce hI)) ?_
  refine fun actual => Program.meets_when ?_ ?_
  · intro _
    exact Program.meets_raise fun mishaps d hs => hE _ mishaps d hs.1 hs.2.1
  · rintro hequal mishaps d ⟨hm, hI, content, hfile, rfl⟩
    exact ⟨hm, hI, content, hfile, by simpa using hequal⟩

/-- A check of a file with the expected digest passes, unless reading it fails. -/
theorem verifyHash_holds {path expected label : Text} (hholds : ∀ d, I d → Holds sha256 d.files path expected)
    (hE : ∀ mishaps d, NoFailure mishaps → I d → E .io mishaps d) :
    (verifyHash sha256 path expected label).Meets (fun mishaps d => FailsAtMostOnce mishaps ∧ I d)
      (fun _ mishaps d => FailsAtMostOnce mishaps ∧ I d) E K := by
  refine Program.meets_bind (computeSha256_once ?_ hE) ?_
  · intro mishaps d _ hI hnone
    obtain ⟨content, hfile, -⟩ := hholds d hI
    rw [hnone] at hfile
    nomatch hfile
  · refine fun actual => Program.meets_when ?_ ?_
    · intro hequal
      refine Program.meets_raise ?_
      rintro mishaps d ⟨_, hI, content, hfile, rfl⟩
      obtain ⟨content', hfile', hequal'⟩ := hholds d hI
      rw [hfile] at hfile'
      obtain rfl := Option.some.inj hfile'
      rw [hequal'] at hequal
      nomatch hequal
    · exact fun _ mishaps d hs => ⟨hs.1, hs.2.1⟩

theorem createDirectory_once (hE : ∀ e mishaps d, FailsAtMostOnce mishaps → I d → E e mishaps d) :
    createDirectory.Meets (fun mishaps d => FailsAtMostOnce mishaps ∧ I d) (fun _ mishaps d => FailsAtMostOnce mishaps ∧ I d)
      E K := by
  refine Program.meets_operation_once (J := fun _ d => I d) ?_ ?_ ?_
  · intro d _ d' hI hstep
    obtain ⟨_, rfl⟩ := Prod.mk.inj (Except.ok.inj hstep)
    exact hI
  · intro mishaps d e _ _ hstep
    nomatch hstep
  · intro mishaps d _ hm hI
    exact hE _ mishaps d hm.failsAtMostOnce hI

/-- A program that never starts meets everything. -/
theorem meets_of_false {α : Type} {m : Installer α} {P : Mishaps → Disk Text (List PreparedFile) → Prop}
    {Q : α → Mishaps → Disk Text (List PreparedFile) → Prop} (h : ∀ mishaps d, ¬ P mishaps d) : m.Meets P Q E K :=
  fun mishaps d hs => absurd hs (h mishaps d)

/-- The checks of a file change nothing. -/
theorem validateInstall_once {f : ComponentFileInstall} (hE : ∀ e mishaps d, FailsAtMostOnce mishaps → I d → E e mishaps d) :
    (validateInstall sha256 f).Meets (fun mishaps d => FailsAtMostOnce mishaps ∧ I d)
      (fun _ mishaps d => FailsAtMostOnce mishaps ∧ I d) E K := by
  refine Program.meets_bind (Disk.meets_fileExists _) ?_
  intro sourceExists
  split
  · exact Program.meets_raise fun mishaps d hs => hE _ mishaps d hs.1.1 hs.1.2
  · split
    · exact Program.meets_raise fun mishaps d hs => hE _ mishaps d hs.1.1 hs.1.2
    · split
      · exact Program.meets_raise fun mishaps d hs => hE _ mishaps d hs.1.1 hs.1.2
      · exact (verifyHash_once hE).weaken (fun _ _ hs => hs.1) (fun _ _ _ hs => ⟨hs.1, hs.2.1⟩) (fun _ _ _ hs => hs) (fun _ hs => hs)

/-- Without a backup there is nothing to recover. -/
theorem recoverTarget_once {target temporary backup expected : Text} (hdelete : ∀ d, I d → I (d.write temporary none))
    (hbackup : ∀ d, I d → d.files backup = none) :
    (recoverTarget sha256 target temporary backup expected).Meets (fun mishaps d => FailsAtMostOnce mishaps ∧ I d)
      (fun _ mishaps d => FailsAtMostOnce mishaps ∧ I d) E K := by
  refine Program.meets_bind (Disk.meets_tryDelete_once hdelete) ?_
  intro _
  refine Program.meets_bind (Disk.meets_fileExists backup) fun backupExists => Program.meets_when ?_ ?_
  · rintro rfl
    refine meets_of_false ?_
    rintro mishaps d ⟨⟨_, hI⟩, hsome⟩
    rw [hbackup d hI] at hsome
    nomatch hsome
  · exact fun _ _ _ hs => hs.1

/-- The digest of a file is compared with the expected one. -/
theorem hasHash_once {path expected : Text} (hE : ∀ e mishaps d, FailsAtMostOnce mishaps → I d → E e mishaps d) :
    (hasHash sha256 path expected).Meets (fun mishaps d => FailsAtMostOnce mishaps ∧ I d)
      (fun installed mishaps d => FailsAtMostOnce mishaps ∧ I d ∧ (installed = true → Holds sha256 d.files path expected)) E K := by
  refine Program.meets_bind
    (computeSha256_once (fun mishaps d hm hI _ => hE _ mishaps d hm hI) (fun mishaps d hm hI => hE _ mishaps d hm.failsAtMostOnce hI)) ?_
  intro actual
  refine Program.meets_pure ?_
  rintro mishaps d ⟨hm, hI, content, hfile, rfl⟩
  exact ⟨hm, hI, fun hequal => ⟨content, hfile, hequal⟩⟩

/-! ### The first loop -/

/-- What a prepared file says of its target. -/
structure Prepared (initial : Files) (p : PreparedFile) : Prop where
  temporary : p.temporaryPath = temporaryPath p.install.targetPath
  backup : p.backupPath = backupPath p.install.targetPath
  existed : p.targetExisted = (initial p.install.targetPath).isSome

/-- After some files: only temporary files are written, those of the prepared files have the expected digests, and a file that is not
prepared is installed. -/
structure Staged (sha256 : Bytes → Text) (installs : List ComponentFileInstall) (initial : Files)
    (before : List ComponentFileInstall) (d : Disk Text (List PreparedFile)) : Prop where
  untouched : ∀ path, (∀ f ∈ installs, path ≠ temporaryPath f.targetPath) → d.files path = initial path
  sublist : (d.locals.map (·.install)).Sublist before
  prepared : ∀ p ∈ d.locals, Prepared initial p
  ready : ∀ p ∈ d.locals, Holds sha256 d.files (temporaryPath p.install.targetPath) p.install.expectedSha256
  skipped : ∀ f ∈ before, f ∈ d.locals.map (·.install) ∨ Holds sha256 initial f.targetPath f.expectedSha256

variable {before after : List ComponentFileInstall} {f : ComponentFileInstall} {d : Disk Text (List PreparedFile)}

/-- A target is as it was. -/
theorem Staged.target (h : Startable installs initial) (hs : Staged sha256 installs initial before d) (hf : f ∈ installs) :
    d.files f.targetPath = initial f.targetPath :=
  hs.untouched _ (fun g hg => (h.apart f hf g hg).1)

/-- There is no backup. -/
theorem Staged.backup (h : Startable installs initial) (hs : Staged sha256 installs initial before d) (hf : f ∈ installs) :
    d.files (backupPath f.targetPath) = none := by
  rw [hs.untouched _ (fun g _ heq => temporaryPath_ne_backupPath _ _ heq.symm)]
  exact h.noBackup f hf

/-- The files of a list with distinct targets: the others have other targets. -/
theorem target_ne_of_split (h : Startable installs initial) (hsplit : before ++ f :: after = installs) {g : ComponentFileInstall}
    (hg : g ∈ before) : g.targetPath ≠ f.targetPath := by
  have hnodup := h.distinct
  rw [← hsplit, List.map_append, List.map_cons] at hnodup
  intro heq
  have hdisjoint := (List.nodup_append.1 hnodup).2.2 _ (List.mem_map_of_mem hg) _ List.mem_cons_self
  exact hdisjoint heq

/-- The temporary file of the next file may be written. -/
theorem Staged.write (h : Startable installs initial) (hsplit : before ++ f :: after = installs)
    (hs : Staged sha256 installs initial before d) (content : Option Bytes) :
    Staged sha256 installs initial before (d.write (temporaryPath f.targetPath) content) := by
  have hf : f ∈ installs := by
    rw [← hsplit]
    exact List.mem_append_right _ List.mem_cons_self
  refine { untouched := ?_, sublist := hs.sublist, prepared := hs.prepared, ready := ?_, skipped := hs.skipped }
  · intro path hpath
    rw [Disk.write_other _ _ (hpath f hf)]
    exact hs.untouched path hpath
  · intro p hp
    have hmem : p.install ∈ before := hs.sublist.subset (List.mem_map_of_mem hp)
    obtain ⟨stored, hfile, hequal⟩ := hs.ready p hp
    refine ⟨stored, ?_, hequal⟩
    rw [Disk.write_other _ _ (fun heq => target_ne_of_split h hsplit hmem (temporaryPath_inj.1 heq))]
    exact hfile

/-- A file that is installed is skipped. -/
theorem Staged.skip (hs : Staged sha256 installs initial before d) (hholds : Holds sha256 initial f.targetPath f.expectedSha256) :
    Staged sha256 installs initial (before ++ [f]) d := by
  refine { hs with sublist := hs.sublist.trans (List.sublist_append_left _ _), skipped := ?_ }
  intro g hg
  rcases List.mem_append.1 hg with hbefore | hlast
  · exact hs.skipped g hbefore
  · obtain rfl := List.mem_singleton.1 hlast
    exact Or.inr hholds

/-- The next file is prepared. -/
theorem Staged.prepare (h : Startable installs initial) (hf : f ∈ installs) (hs : Staged sha256 installs initial before d)
    {p : PreparedFile} (hp : p.install = f) (htemporary : p.temporaryPath = temporaryPath f.targetPath)
    (hbackup : p.backupPath = backupPath f.targetPath) (hexisted : p.targetExisted = (d.files f.targetPath).isSome)
    (hholds : Holds sha256 d.files (temporaryPath f.targetPath) f.expectedSha256) :
    Staged sha256 installs initial (before ++ [f]) { d with locals := d.locals ++ [p] } := by
  subst hp
  have hprepared : Prepared initial p := by
    rw [hs.target h hf] at hexisted
    exact { temporary := htemporary, backup := hbackup, existed := hexisted }
  refine { untouched := hs.untouched, sublist := ?_, prepared := ?_, ready := ?_, skipped := ?_ }
  · rw [List.map_append]
    exact hs.sublist.append (List.Sublist.refl _)
  · intro q hq
    rcases List.mem_append.1 hq with hold | hnew
    · exact hs.prepared q hold
    · obtain rfl := List.mem_singleton.1 hnew
      exact hprepared
  · intro q hq
    rcases List.mem_append.1 hq with hold | hnew
    · exact hs.ready q hold
    · obtain rfl := List.mem_singleton.1 hnew
      exact hholds
  · intro g hg
    rw [List.map_append, List.mem_append]
    rcases List.mem_append.1 hg with hbefore | hlast
    · exact (hs.skipped g hbefore).imp_left Or.inl
    · exact Or.inl (Or.inr hlast)

/-- A staged disk on which at most one operation still fails. -/
def StagedOnce (sha256 : Bytes → Text) (installs : List ComponentFileInstall) (initial : Files) (mishaps : Mishaps)
    (d : Disk Text (List PreparedFile)) : Prop :=
  FailsAtMostOnce mishaps ∧ ∃ before, before.Sublist installs ∧ Staged sha256 installs initial before d

/-- The body of the first loop stages the next file. -/
theorem prepare_staged (h : Startable installs initial) (hsplit : before ++ f :: after = installs) :
    (prepare sha256 f).Meets (fun mishaps d => FailsAtMostOnce mishaps ∧ Staged sha256 installs initial before d)
      (fun _ mishaps d => FailsAtMostOnce mishaps ∧ Staged sha256 installs initial (before ++ [f]) d)
      (fun _ => StagedOnce sha256 installs initial) K := by
  have hf : f ∈ installs := by
    rw [← hsplit]
    exact List.mem_append_right _ List.mem_cons_self
  have hbefore : before.Sublist installs := by
    rw [← hsplit]
    exact List.sublist_append_left _ _
  have hE : ∀ (e : InstallException) mishaps d, FailsAtMostOnce mishaps → Staged sha256 installs initial before d →
      StagedOnce sha256 installs initial mishaps d := fun _ _ _ hm hs => ⟨hm, before, hbefore, hs⟩
  have hdelete : ∀ d, Staged sha256 installs initial before d →
      Staged sha256 installs initial before (d.write (temporaryPath f.targetPath) none) := fun _ hs => hs.write h hsplit none
  have hcopy : ∀ d content, Staged sha256 installs initial before d →
      Staged sha256 installs initial before (d.write (temporaryPath f.targetPath) content) := fun _ content hs => hs.write h hsplit content
  refine Program.meets_bind (validateInstall_once hE) fun _ => ?_
  refine Program.meets_bind (createDirectory_once hE) fun _ => ?_
  refine Program.meets_bind (recoverTarget_once hdelete fun d hs => hs.backup h hf) fun _ => ?_
  refine Program.meets_bind (Disk.meets_fileExists _) fun targetExists => ?_
  refine Program.meets_bind (R := fun installed mishaps d => FailsAtMostOnce mishaps ∧ Staged sha256 installs initial before d ∧
      (installed = true → Holds sha256 d.files f.targetPath f.expectedSha256)) ?_ fun installed => Program.meets_when ?_ ?_
  · cases targetExists with
    | false => exact Program.meets_pure fun mishaps d hs => ⟨hs.1.1, hs.1.2, nofun⟩
    | true => exact (hasHash_once hE).from fun _ _ hs => hs.1
  · intro _
    refine Program.meets_bind ((Disk.meets_tryDelete_once hdelete).from fun _ _ hs => ⟨hs.1, hs.2.1⟩) fun _ => ?_
    refine Program.meets_bind (Disk.meets_copyFile_once hcopy fun mishaps d hm hs => hE .io mishaps d hm hs) fun _ => ?_
    refine Program.meets_bind (verifyHash_once hE) fun _ => ?_
    refine Program.meets_bind (Disk.meets_fileExists _) fun targetExisted => ?_
    refine Program.meets_assign ?_
    rintro mishaps d ⟨⟨hm, hs, hholds⟩, hexisted⟩
    exact ⟨hm, hs.prepare h hf rfl rfl rfl hexisted hholds⟩
  · rintro hinstalled mishaps d ⟨hm, hs, hholds⟩
    have hholds := hholds (by simpa using hinstalled)
    rw [Holds, hs.target h hf] at hholds
    exact ⟨hm, hs.skip hholds⟩

/-! ### Turns of a loop over the prepared files -/

/-- What holds of a prepared file and the files of the disk. -/
abbrev Item := PreparedFile → Files → Prop

/-- It depends only on the file's own paths. -/
def Local (A : Item) : Prop :=
  ∀ p (files files' : Files), (∀ path, Own p.install path → files' path = files path) → A p files → A p files'

/-- Between two turns: the files whose turn was, those whose turn comes, and the targets that are not prepared. -/
structure Between (installs : List ComponentFileInstall) (initial : Files) (prepared : List PreparedFile) (A B : Item)
    (before after : List PreparedFile) (d : Disk Text (List PreparedFile)) : Prop where
  locals : d.locals = prepared
  others : ∀ f ∈ installs, (∀ p ∈ prepared, ¬ Own p.install f.targetPath) → d.files f.targetPath = initial f.targetPath
  passed : ∀ p ∈ before, A p d.files
  coming : ∀ p ∈ after, B p d.files

/-- The turn of a file, which is apart from the others. -/
structure Turn (prepared before : List PreparedFile) (p : PreparedFile) (after : List PreparedFile) : Prop where
  mem : p ∈ prepared
  before : ∀ q ∈ before, Apart p.install q.install
  after : ∀ q ∈ after, Apart p.install q.install

variable {prepared : List PreparedFile} {A B : Item} {passed coming : List PreparedFile} {p : PreparedFile}

/-- A write to a path of the file whose turn it is. -/
theorem Between.write (hA : Local A) (hB : Local B) (hturn : Turn prepared passed p coming) {path : Text}
    (hown : Own p.install path) (hs : Between installs initial prepared A B passed coming d) (content : Option Bytes) :
    Between installs initial prepared A B passed coming (d.write path content) := by
  have hother : ∀ q, Apart p.install q → ∀ path', Own q path' → (d.write path content).files path' = d.files path' := by
    intro q hapart path' hown'
    refine Disk.write_other _ _ ?_
    rintro rfl
    exact hapart path' hown hown'
  refine { locals := hs.locals, others := ?_, passed := ?_, coming := ?_ }
  · intro f hf hnot
    refine (Disk.write_other _ _ ?_).trans (hs.others f hf hnot)
    rintro rfl
    exact hnot p hturn.mem hown
  · intro q hq
    exact hA q _ _ (hother q.install (hturn.before q hq)) (hs.passed q hq)
  · intro q hq
    exact hB q _ _ (hother q.install (hturn.after q hq)) (hs.coming q hq)

/-- The turn begins. -/
theorem Between.begin (hs : Between installs initial prepared A B passed (p :: coming) d) :
    Between installs initial prepared A B passed coming d ∧ B p d.files :=
  ⟨{ hs with coming := fun q hq => hs.coming q (List.mem_cons_of_mem p hq) }, hs.coming p List.mem_cons_self⟩

/-- The turn ends. -/
theorem Between.finish (hs : Between installs initial prepared A B passed coming d) (hp : A p d.files) :
    Between installs initial prepared A B (passed ++ [p]) coming d := by
  refine { hs with passed := ?_ }
  intro q hq
  rcases List.mem_append.1 hq with hold | hnew
  · exact hs.passed q hold
  · obtain rfl := List.mem_singleton.1 hnew
    exact hp

/-- The paths of the prepared files are apart from each other. -/
def PairwiseApart (prepared : List PreparedFile) : Prop := prepared.Pairwise (fun p q => Apart p.install q.install)

theorem PairwiseApart.turn {order : List PreparedFile} (h : PairwiseApart order) (hsplit : passed ++ p :: coming = order)
    (hmem : ∀ q ∈ order, q ∈ prepared) : Turn prepared passed p coming := by
  subst hsplit
  obtain ⟨-, hcoming, hpassed⟩ := List.pairwise_append.1 h
  refine { mem := hmem p (by simp), before := ?_, after := (List.pairwise_cons.1 hcoming).1 }
  intro q hq
  exact (hpassed q hq p List.mem_cons_self).symm

theorem PairwiseApart.reverse (h : PairwiseApart prepared) : PairwiseApart prepared.reverse :=
  List.pairwise_reverse.2 (h.imp Apart.symm)

/-- The prepared files of a staged disk are apart. -/
theorem Staged.pairwiseApart (h : Startable installs initial) (hbefore : before.Sublist installs)
    (hs : Staged sha256 installs initial before d) : PairwiseApart d.locals := by
  have hsublist := hs.sublist.trans hbefore
  have hnodup : (d.locals.map (·.install.targetPath)).Nodup := by
    have hmap := hsublist.map (·.targetPath)
    rw [List.map_map] at hmap
    exact hmap.nodup h.distinct
  have hmem : ∀ p ∈ d.locals, p.install ∈ installs := fun p hp => hsublist.subset (List.mem_map_of_mem hp)
  refine (List.pairwise_map.1 hnodup).imp_of_mem ?_
  intro p q hp hq hne
  exact apart_of_ne h (hmem p hp) (hmem q hq) hne

/-! ### The second and the third loop -/

/-- The target is as it was, there is no backup, and the new content is in the temporary file. -/
def Ready (sha256 : Bytes → Text) (initial : Files) : Item := fun p files =>
  files p.install.targetPath = initial p.install.targetPath ∧ files (backupPath p.install.targetPath) = none ∧
    Holds sha256 files (temporaryPath p.install.targetPath) p.install.expectedSha256

/-- The old content is in the backup, and the new one still in the temporary file. -/
def Kept (sha256 : Bytes → Text) (initial : Files) : Item := fun p files =>
  files (backupPath p.install.targetPath) = initial p.install.targetPath ∧
    Holds sha256 files (temporaryPath p.install.targetPath) p.install.expectedSha256

/-- The new content is in the target. -/
def Installed (sha256 : Bytes → Text) : Item := fun p files => Holds sha256 files p.install.targetPath p.install.expectedSha256

/-- The new content is in the target, and the old one in the backup. -/
def Done (sha256 : Bytes → Text) (initial : Files) : Item := fun p files =>
  Installed sha256 p files ∧ files (backupPath p.install.targetPath) = initial p.install.targetPath

/-- The old content is in the backup, or the target is as it was. -/
def Recoverable (initial : Files) : Item := fun p files =>
  files (backupPath p.install.targetPath) = initial p.install.targetPath ∨
    (files (backupPath p.install.targetPath) = none ∧ files p.install.targetPath = initial p.install.targetPath)

/-- The target is as it was. -/
def Restored (initial : Files) : Item := fun p files => files p.install.targetPath = initial p.install.targetPath

/-- The target is as it was and there is no backup. -/
def Untouched (initial : Files) : Item := fun p files =>
  Restored initial p files ∧ files (backupPath p.install.targetPath) = none

theorem own_target (f : ComponentFileInstall) : Own f f.targetPath := Or.inl rfl

theorem own_temporary (f : ComponentFileInstall) : Own f (temporaryPath f.targetPath) := Or.inr (Or.inl rfl)

theorem own_backup (f : ComponentFileInstall) : Own f (backupPath f.targetPath) := Or.inr (Or.inr rfl)

theorem local_installed : Local (Installed sha256) := by
  intro p files files' hsame hp
  rw [Installed, Holds, hsame _ (own_target _)]
  exact hp

theorem local_ready : Local (Ready sha256 initial) := by
  intro p files files' hsame hp
  rw [Ready, Holds, hsame _ (own_target _), hsame _ (own_temporary _), hsame _ (own_backup _)]
  exact hp

theorem local_done : Local (Done sha256 initial) := by
  intro p files files' hsame hp
  refine ⟨local_installed p files files' hsame hp.1, ?_⟩
  rw [hsame _ (own_backup _)]
  exact hp.2

theorem local_recoverable : Local (Recoverable initial) := by
  intro p files files' hsame hp
  rw [Recoverable, hsame _ (own_target _), hsame _ (own_backup _)]
  exact hp

theorem local_restored : Local (Restored initial) := by
  intro p files files' hsame hp
  rw [Restored, hsame _ (own_target _)]
  exact hp

theorem local_untouched : Local (Untouched initial) := by
  intro p files files' hsame hp
  refine ⟨local_restored p files files' hsame hp.1, ?_⟩
  rw [hsame _ (own_backup _)]
  exact hp.2

theorem Ready.recoverable {files : Files} (h : Ready sha256 initial p files) : Recoverable initial p files := Or.inr ⟨h.2.1, h.1⟩

theorem Kept.recoverable {files : Files} (h : Kept sha256 initial p files) : Recoverable initial p files := Or.inl h.1

theorem Done.recoverable {files : Files} (h : Done sha256 initial p files) : Recoverable initial p files := Or.inl h.2

theorem Untouched.recoverable {files : Files} (h : Untouched initial p files) : Recoverable initial p files := Or.inr ⟨h.2, h.1⟩

/-- The prepared files can all be recovered, and none of the operations to come fails. -/
def RecoverableNow (installs : List ComponentFileInstall) (initial : Files) (prepared : List PreparedFile) (mishaps : Mishaps)
    (d : Disk Text (List PreparedFile)) : Prop :=
  NoFailure mishaps ∧ Between installs initial prepared (Recoverable initial) (Recoverable initial) [] prepared d

/-- In the turn of a file that can be recovered, all can. -/
theorem Between.recoverable (hs : Between installs initial prepared (Done sha256 initial) (Ready sha256 initial) passed coming d)
    (hp : Recoverable initial p d.files) (hsplit : passed ++ p :: coming = prepared) :
    Between installs initial prepared (Recoverable initial) (Recoverable initial) [] prepared d := by
  subst hsplit
  refine { locals := hs.locals, others := hs.others, passed := nofun, coming := ?_ }
  intro q hq
  rcases List.mem_append.1 hq with hpassed | hrest
  · exact (hs.passed q hpassed).recoverable
  · rcases List.mem_cons.1 hrest with rfl | hcoming
    · exact hp
    · exact (hs.coming q hcoming).recoverable

/-- A target that did not exist was not there. -/
theorem Prepared.absent (hwell : Prepared initial p) (h : p.targetExisted = false) : initial p.install.targetPath = none := by
  rw [hwell.existed] at h
  simpa using h

/-- The target is moved to the backup. -/
theorem Ready.keep (h : Ready sha256 initial p d.files) {content : Bytes} (hfile : d.files p.install.targetPath = some content) :
    Kept sha256 initial p ((d.write p.install.targetPath none).write (backupPath p.install.targetPath) (some content)).files := by
  obtain ⟨htarget, -, stored, hstored, hequal⟩ := h
  refine ⟨?_, stored, ?_, hequal⟩
  · rw [Disk.write_self, ← htarget, hfile]
  · rw [Disk.write_other _ _ (temporaryPath_ne_backupPath _ _), Disk.write_other _ _ (self_ne_temporaryPath _).symm]
    exact hstored

/-- There was no target to keep. -/
theorem Ready.kept_of_absent (h : Ready sha256 initial p d.files) (habsent : initial p.install.targetPath = none) :
    Kept sha256 initial p d.files :=
  ⟨h.2.1.trans habsent.symm, h.2.2⟩

/-- The temporary file is moved to the target. -/
theorem Kept.place (h : Kept sha256 initial p d.files) {content : Bytes}
    (hfile : d.files (temporaryPath p.install.targetPath) = some content) :
    Done sha256 initial p ((d.write (temporaryPath p.install.targetPath) none).write p.install.targetPath (some content)).files := by
  obtain ⟨hkept, stored, hstored, hequal⟩ := h
  rw [hstored] at hfile
  obtain rfl := Option.some.inj hfile
  refine ⟨⟨stored, Disk.write_self _ _ _, hequal⟩, ?_⟩
  rw [Disk.write_other _ _ (self_ne_backupPath _).symm, Disk.write_other _ _ (temporaryPath_ne_backupPath _ _).symm]
  exact hkept

/-- The body of the second loop installs a prepared file; when an operation fails, every prepared file can be recovered. -/
theorem commit_done (hwell : Prepared initial p) (hturn : Turn prepared passed p coming) (hsplit : passed ++ p :: coming = prepared) :
    (commit sha256 p).Meets
      (fun mishaps d => FailsAtMostOnce mishaps ∧
        Between installs initial prepared (Done sha256 initial) (Ready sha256 initial) passed (p :: coming) d)
      (fun _ mishaps d => FailsAtMostOnce mishaps ∧
        Between installs initial prepared (Done sha256 initial) (Ready sha256 initial) (passed ++ [p]) coming d)
      (fun _ => RecoverableNow installs initial prepared) K := by
  have hwrite : ∀ {path d} content, Own p.install path →
      Between installs initial prepared (Done sha256 initial) (Ready sha256 initial) passed coming d →
      Between installs initial prepared (Done sha256 initial) (Ready sha256 initial) passed coming (d.write path content) :=
    fun content hown hs => hs.write local_done local_ready hturn hown content
  -- the turn with the file in one of its states
  let turn (A : Item) : Disk Text (List PreparedFile) → Prop := fun d =>
    Between installs initial prepared (Done sha256 initial) (Ready sha256 initial) passed coming d ∧ A p d.files
  unfold commit
  rw [hwell.temporary, hwell.backup]
  refine Program.meets_bind ((Disk.meets_tryDelete_once (I := turn (Ready sha256 initial)) ?_).from
    fun _ _ hs => ⟨hs.1, hs.2.begin⟩) fun _ => ?_
  · rintro d ⟨hs, hready⟩
    rw [Disk.write_eq_self hready.2.1]
    exact ⟨hs, hready⟩
  refine Program.meets_bind (R := fun _ mishaps d => FailsAtMostOnce mishaps ∧ turn (Kept sha256 initial) d) ?_ fun _ => ?_
  · refine Program.meets_when ?_ ?_
    · intro hexisted
      have hsome : (initial p.install.targetPath).isSome = true := by rw [← hwell.existed, hexisted]
      refine Disk.meets_moveFile_once ?_ ?_ ?_
      · rintro d ⟨-, hready⟩
        rw [hready.1]
        exact hsome
      · rintro d content ⟨hs, hready⟩ hfile
        exact ⟨hwrite _ (own_backup _) (hwrite _ (own_target _) hs), hready.keep hfile⟩
      · rintro mishaps d hm ⟨hs, hready⟩
        exact ⟨hm, hs.recoverable hready.recoverable hsplit⟩
    · rintro hexisted mishaps d ⟨hm, hs, hready⟩
      exact ⟨hm, hs, hready.kept_of_absent (hwell.absent hexisted)⟩
  refine Program.meets_bind (R := fun _ mishaps d => FailsAtMostOnce mishaps ∧ turn (Done sha256 initial) d) ?_ fun _ => ?_
  · refine Disk.meets_moveFile_once ?_ ?_ ?_
    · rintro d ⟨-, -, content, hfile, -⟩
      rw [hfile]
      rfl
    · rintro d content ⟨hs, hkept⟩ hfile
      exact ⟨hwrite _ (own_target _) (hwrite _ (own_temporary _) hs), hkept.place hfile⟩
    · rintro mishaps d hm ⟨hs, hkept⟩
      exact ⟨hm, hs.recoverable hkept.recoverable hsplit⟩
  refine (verifyHash_holds (I := turn (Done sha256 initial)) ?_ ?_).weaken (fun _ _ hs => hs) ?_ (fun _ _ _ hs => hs) (fun _ hs => hs)
  · rintro d ⟨-, hdone⟩
    exact hdone.1
  · rintro mishaps d hm ⟨hs, hdone⟩
    exact ⟨hm, hs.recoverable hdone.recoverable hsplit⟩
  · rintro _ mishaps d ⟨hm, hs, hdone⟩
    exact ⟨hm, hs.finish hdone⟩

/-- The body of the third loop takes the backup away, if it can. -/
theorem cleanup_installed (hwell : Prepared initial p) (hturn : Turn prepared passed p coming) :
    (tryDelete p.backupPath).Meets
      (fun mishaps d => FailsAtMostOnce mishaps ∧
        Between installs initial prepared (Installed sha256) (Installed sha256) passed (p :: coming) d)
      (fun _ mishaps d => FailsAtMostOnce mishaps ∧
        Between installs initial prepared (Installed sha256) (Installed sha256) (passed ++ [p]) coming d) E K := by
  rw [hwell.backup]
  refine (Disk.meets_tryDelete_once (I := fun d =>
    Between installs initial prepared (Installed sha256) (Installed sha256) passed coming d ∧
      Installed sha256 p d.files) ?_).weaken (fun _ _ hs => ⟨hs.1, hs.2.begin⟩) (fun _ _ _ hs => ⟨hs.1, hs.2.1.finish hs.2.2⟩)
      (fun _ _ _ hs => hs) (fun _ hs => hs)
  rintro d ⟨hs, hinstalled⟩
  refine ⟨hs.write local_installed local_installed hturn (own_backup _) none, ?_⟩
  rw [Installed, Holds, Disk.write_other _ _ (self_ne_backupPath _)]
  exact hinstalled

/-! ### The rollback -/

/-- The temporary file is no part of what can be recovered. -/
theorem Recoverable.dropTemporary (h : Recoverable initial p d.files) :
    Recoverable initial p (d.write (temporaryPath p.install.targetPath) none).files := by
  rw [Recoverable, Disk.write_other _ _ (temporaryPath_ne_backupPath _ _).symm, Disk.write_other _ _ (self_ne_temporaryPath _)]
  exact h

/-- A backup that is there holds the old content. -/
theorem Recoverable.kept {files : Files} (h : Recoverable initial p files)
    (hsome : (files (backupPath p.install.targetPath)).isSome = true) :
    files (backupPath p.install.targetPath) = initial p.install.targetPath := by
  rcases h with hkept | ⟨hnone, -⟩
  · exact hkept
  · rw [hnone] at hsome
    nomatch hsome

/-- A target that existed and has no backup is as it was. -/
theorem Recoverable.restored {files : Files} (h : Recoverable initial p files)
    (hnone : files (backupPath p.install.targetPath) = none) (hexisted : (initial p.install.targetPath).isSome = true) :
    Restored initial p files := by
  rcases h with hkept | ⟨-, hrestored⟩
  · rw [← hkept, hnone] at hexisted
    nomatch hexisted
  · exact hrestored

/-- Where no operation fails, the rollback restores a file that can be recovered. -/
theorem rollback_restored (hwell : Prepared initial p) (hturn : Turn prepared passed p coming) :
    (rollback p).Meets
      (fun mishaps d => NoFailure mishaps ∧
        Between installs initial prepared (Restored initial) (Recoverable initial) passed (p :: coming) d)
      (fun _ mishaps d => NoFailure mishaps ∧
        Between installs initial prepared (Restored initial) (Recoverable initial) (passed ++ [p]) coming d) E K := by
  have hwrite : ∀ {path d} content, Own p.install path →
      Between installs initial prepared (Restored initial) (Recoverable initial) passed coming d →
      Between installs initial prepared (Restored initial) (Recoverable initial) passed coming (d.write path content) :=
    fun content hown hs => hs.write local_restored local_recoverable hturn hown content
  let turn : Disk Text (List PreparedFile) → Prop :=
    Between installs initial prepared (Restored initial) (Recoverable initial) passed coming
  unfold rollback
  rw [hwell.temporary, hwell.backup]
  refine Program.meets_bind ((Disk.meets_tryDelete_never (I := fun d => turn d ∧ Recoverable initial p d.files)
    (J := fun d => turn d ∧ Recoverable initial p d.files) ?_).from fun _ _ hs => ⟨hs.1, hs.2.begin⟩) fun _ => ?_
  · rintro d ⟨hs, hp⟩
    exact ⟨hwrite none (own_temporary _) hs, hp.dropTemporary⟩
  refine Program.meets_tryCatch (F := fun _ _ _ => False) ?_ (fun _ _ _ hs => hs.elim)
  refine (Program.meets_bind (Disk.meets_fileExists _) fun backupExists => ?_).weaken (fun _ _ hs => hs)
    (Q := fun _ mishaps d => NoFailure mishaps ∧ turn d ∧ Restored initial p d.files)
    (fun _ _ _ hs => ⟨hs.1, hs.2.1.finish hs.2.2⟩) (fun _ _ _ hs => hs) (fun _ hs => hs)
  split
  · rename_i hexists
    subst hexists
    refine Program.meets_bind (R := fun _ mishaps d => NoFailure mishaps ∧ turn d ∧
      d.files (backupPath p.install.targetPath) = initial p.install.targetPath ∧
      (d.files (backupPath p.install.targetPath)).isSome) ?_ fun _ => ?_
    · refine (Disk.meets_tryDelete_never (I := fun d => turn d ∧ Recoverable initial p d.files ∧
        (d.files (backupPath p.install.targetPath)).isSome) ?_).from fun _ _ hs => ⟨hs.1.1, hs.1.2.1, hs.1.2.2, hs.2.symm⟩
      rintro d ⟨hs, hp, hsome⟩
      rw [Disk.write_other _ _ (self_ne_backupPath _).symm]
      exact ⟨hwrite none (own_target _) hs, hp.kept hsome, hsome⟩
    · refine Disk.meets_moveFile_never (fun d hs => hs.2.2) ?_
      rintro d content ⟨hs, hkept, -⟩ hfile
      refine ⟨hwrite _ (own_target _) (hwrite _ (own_backup _) hs), ?_⟩
      rw [Restored, Disk.write_self, ← hkept, hfile]
  · rename_i hexists
    have hnone : ∀ d : Disk Text (List PreparedFile), backupExists = (d.files (backupPath p.install.targetPath)).isSome →
        d.files (backupPath p.install.targetPath) = none := by
      intro d hd
      rw [hd] at hexists
      simpa using hexists
    refine Program.meets_when ?_ ?_
    · intro hexisted
      have habsent := hwell.absent (by simpa using hexisted)
      refine (Disk.meets_tryDelete_never (I := turn) ?_).from fun _ _ hs => ⟨hs.1.1, hs.1.2.1⟩
      intro d hs
      refine ⟨hwrite none (own_target _) hs, ?_⟩
      rw [Restored, Disk.write_self, habsent]
    · rintro hexisted mishaps d ⟨⟨hm, hs, hp⟩, hd⟩
      have hsome : (initial p.install.targetPath).isSome = true := by simpa [hwell.existed] using hexisted
      exact ⟨hm, hs, hp.restored (hnone d hd) hsome⟩

/-- Where no target was touched, the rollback touches none, whichever operation fails. -/
theorem rollback_untouched (hwell : Prepared initial p) (hturn : Turn prepared passed p coming) :
    (rollback p).Meets
      (fun mishaps d => FailsAtMostOnce mishaps ∧
        Between installs initial prepared (Untouched initial) (Untouched initial) passed (p :: coming) d)
      (fun _ mishaps d => FailsAtMostOnce mishaps ∧
        Between installs initial prepared (Untouched initial) (Untouched initial) (passed ++ [p]) coming d) E K := by
  have hwrite : ∀ {path d} content, Own p.install path →
      Between installs initial prepared (Untouched initial) (Untouched initial) passed coming d →
      Between installs initial prepared (Untouched initial) (Untouched initial) passed coming (d.write path content) :=
    fun content hown hs => hs.write local_untouched local_untouched hturn hown content
  let turn : Disk Text (List PreparedFile) → Prop := fun d =>
    Between installs initial prepared (Untouched initial) (Untouched initial) passed coming d ∧ Untouched initial p d.files
  unfold rollback
  rw [hwell.temporary, hwell.backup]
  refine Program.meets_bind ((Disk.meets_tryDelete_once (I := turn) ?_).from fun _ _ hs => ⟨hs.1, hs.2.begin⟩) fun _ => ?_
  · rintro d ⟨hs, hp⟩
    refine ⟨hwrite none (own_temporary _) hs, ?_⟩
    rw [Untouched, Restored, Disk.write_other _ _ (temporaryPath_ne_backupPath _ _).symm,
      Disk.write_other _ _ (self_ne_temporaryPath _)]
    exact hp
  refine Program.meets_tryCatch (F := fun _ _ _ => False) ?_ (fun _ _ _ hs => hs.elim)
  refine (Program.meets_bind (Disk.meets_fileExists _) fun backupExists => ?_).weaken (fun _ _ hs => hs)
    (Q := fun _ mishaps d => FailsAtMostOnce mishaps ∧ turn d)
    (fun _ _ _ hs => ⟨hs.1, hs.2.1.finish hs.2.2⟩) (fun _ _ _ hs => hs) (fun _ hs => hs)
  split
  · rename_i hexists
    subst hexists
    refine meets_of_false ?_
    rintro mishaps d ⟨⟨-, -, hp⟩, hsome⟩
    rw [hp.2] at hsome
    nomatch hsome
  · refine Program.meets_when ?_ (fun _ _ _ hs => hs.1)
    intro hexisted
    have habsent := hwell.absent (by simpa using hexisted)
    refine (Disk.meets_tryDelete_once (I := turn) ?_).from fun _ _ hs => hs.1
    rintro d ⟨hs, hp⟩
    refine ⟨hwrite none (own_target _) hs, ?_, ?_⟩
    · rw [Restored, Disk.write_self, habsent]
    · rw [Disk.write_other _ _ (self_ne_backupPath _).symm]
      exact hp.2

/-! ### The whole installation -/

/-- What the list of prepared files is throughout. -/
structure Plan (installs : List ComponentFileInstall) (initial : Files) (prepared : List PreparedFile) : Prop where
  well : ∀ p ∈ prepared, Prepared initial p
  apart : PairwiseApart prepared
  listed : ∀ p ∈ prepared, p.install ∈ installs

theorem Staged.plan (h : Startable installs initial) (hbefore : before.Sublist installs)
    (hs : Staged sha256 installs initial before d) : Plan installs initial d.locals :=
  { well := hs.prepared
    apart := hs.pairwiseApart h hbefore
    listed := fun _ hp => (hs.sublist.trans hbefore).subset (List.mem_map_of_mem hp) }

/-- The second loop starts. -/
theorem Staged.between (h : Startable installs initial) (hbefore : before.Sublist installs)
    (hs : Staged sha256 installs initial before d) :
    Between installs initial d.locals (Done sha256 initial) (Ready sha256 initial) [] d.locals d := by
  have hlisted := (hs.plan h hbefore).listed
  refine { locals := rfl, others := fun f hf _ => hs.target h hf, passed := nofun, coming := ?_ }
  intro p hp
  exact ⟨hs.target h (hlisted p hp), hs.backup h (hlisted p hp), hs.ready p hp⟩

/-- The rollback of the first loop starts. -/
theorem Staged.untouched_between (h : Startable installs initial) (hbefore : before.Sublist installs)
    (hs : Staged sha256 installs initial before d) :
    Between installs initial d.locals (Untouched initial) (Untouched initial) [] d.locals d := by
  have hlisted := (hs.plan h hbefore).listed
  refine { locals := rfl, others := fun f hf _ => hs.target h hf, passed := nofun, coming := ?_ }
  intro p hp
  exact ⟨hs.target h (hlisted p hp), hs.backup h (hlisted p hp)⟩

/-- A target that belongs to no prepared file is not touched. -/
theorem Between.other (h : Startable installs initial) (hplan : Plan installs initial prepared)
    (hs : Between installs initial prepared A B passed coming d) (hf : f ∈ installs) (hnot : f ∉ prepared.map (·.install)) :
    d.files f.targetPath = initial f.targetPath := by
  refine hs.others f hf ?_
  intro p hp hown
  have hne : p.install.targetPath ≠ f.targetPath := by
    intro heq
    have hsame := List.inj_on_of_nodup_map h.distinct (hplan.listed p hp) hf heq
    exact hnot (List.mem_map.2 ⟨p, hp, hsame⟩)
  exact apart_of_ne h (hplan.listed p hp) hf hne _ hown (own_target f)

/-- When every prepared file is restored, every target is as it was. -/
theorem Between.restored (h : Startable installs initial) (hplan : Plan installs initial prepared)
    (hs : Between installs initial prepared A B passed coming d) (hall : ∀ p ∈ prepared, Restored initial p d.files) :
    ∀ f ∈ installs, d.files f.targetPath = initial f.targetPath := by
  intro f hf
  by_cases hmem : f ∈ prepared.map (·.install)
  · obtain ⟨p, hp, rfl⟩ := List.mem_map.1 hmem
    exact hall p hp
  · exact hs.other h hplan hf hmem

/-- After an exception of the first loop the rollback changes no target. -/
theorem rollback_staged (h : Startable installs initial) (hplan : Plan installs initial prepared) (e : InstallException) :
    (do
      prepared.reverse.forM rollback
      Program.raise e : Installer Unit).Meets
      (fun mishaps d => FailsAtMostOnce mishaps ∧
        Between installs initial prepared (Untouched initial) (Untouched initial) [] prepared d)
      (fun _ _ d => ∀ f ∈ installs, Holds sha256 d.files f.targetPath f.expectedSha256)
      (fun _ _ d => ∀ f ∈ installs, d.files f.targetPath = initial f.targetPath) K := by
  refine Program.meets_bind (R := fun _ _ d => ∀ f ∈ installs, d.files f.targetPath = initial f.targetPath) ?_
    (fun _ => Program.meets_raise fun _ _ hs => hs)
  refine Program.meets_forM (I := fun passed coming mishaps d => FailsAtMostOnce mishaps ∧
    Between installs initial prepared (Untouched initial) (Untouched initial) passed coming d) ?_ ?_ ?_
  · rintro mishaps d ⟨hm, hs⟩
    exact ⟨hm, { hs with coming := fun p hp => hs.coming p (List.mem_reverse.1 hp) }⟩
  · intro passed p coming hsplit
    have hmem : p ∈ prepared := List.mem_reverse.1 (hsplit ▸ List.mem_append_right _ List.mem_cons_self)
    exact rollback_untouched (hplan.well p hmem) (hplan.apart.reverse.turn hsplit fun q hq => List.mem_reverse.1 hq)
  · rintro mishaps d ⟨-, hs⟩
    exact hs.restored h hplan fun p hp => (hs.passed p (List.mem_reverse.2 hp)).1

/-- After an exception of the second loop the rollback restores every target. -/
theorem rollback_recoverable (h : Startable installs initial) (hplan : Plan installs initial prepared) (e : InstallException) :
    (do
      prepared.reverse.forM rollback
      Program.raise e : Installer Unit).Meets (RecoverableNow installs initial prepared)
      (fun _ _ d => ∀ f ∈ installs, Holds sha256 d.files f.targetPath f.expectedSha256)
      (fun _ _ d => ∀ f ∈ installs, d.files f.targetPath = initial f.targetPath) K := by
  refine Program.meets_bind (R := fun _ _ d => ∀ f ∈ installs, d.files f.targetPath = initial f.targetPath) ?_
    (fun _ => Program.meets_raise fun _ _ hs => hs)
  refine Program.meets_forM (I := fun passed coming mishaps d => NoFailure mishaps ∧
    Between installs initial prepared (Restored initial) (Recoverable initial) passed coming d) ?_ ?_ ?_
  · rintro mishaps d ⟨hm, hs⟩
    exact ⟨hm, { hs with passed := nofun, coming := fun p hp => hs.coming p (List.mem_reverse.1 hp) }⟩
  · intro passed p coming hsplit
    have hmem : p ∈ prepared := List.mem_reverse.1 (hsplit ▸ List.mem_append_right _ List.mem_cons_self)
    exact rollback_restored (hplan.well p hmem) (hplan.apart.reverse.turn hsplit fun q hq => List.mem_reverse.1 hq)
  · rintro mishaps d ⟨-, hs⟩
    exact hs.restored h hplan fun p hp => hs.passed p (List.mem_reverse.2 hp)

/-- The second and the third loop install every prepared file, or leave every one recoverable. -/
theorem commits_installed (hplan : Plan installs initial prepared) :
    (do
      prepared.forM (commit sha256)
      prepared.forM (fun item => tryDelete item.backupPath) : Installer Unit).Meets
      (fun mishaps d => FailsAtMostOnce mishaps ∧
        Between installs initial prepared (Done sha256 initial) (Ready sha256 initial) [] prepared d)
      (fun _ _ d => Between installs initial prepared (Installed sha256) (Installed sha256) prepared [] d)
      (fun _ => RecoverableNow installs initial prepared) K := by
  refine Program.meets_bind (Program.meets_forM (I := fun passed coming mishaps d => FailsAtMostOnce mishaps ∧
    Between installs initial prepared (Done sha256 initial) (Ready sha256 initial) passed coming d)
    (Q := fun _ mishaps d => FailsAtMostOnce mishaps ∧
      Between installs initial prepared (Done sha256 initial) (Ready sha256 initial) prepared [] d)
    (fun _ _ hs => hs) ?_ (fun _ _ hs => hs)) fun _ => ?_
  · intro passed p coming hsplit
    have hmem : p ∈ prepared := hsplit ▸ List.mem_append_right _ List.mem_cons_self
    exact commit_done (hplan.well p hmem) (hplan.apart.turn hsplit fun q hq => hq) hsplit
  · refine Program.meets_forM (I := fun passed coming mishaps d => FailsAtMostOnce mishaps ∧
      Between installs initial prepared (Installed sha256) (Installed sha256) passed coming d) ?_ ?_ (fun _ _ hs => hs.2)
    · rintro mishaps d ⟨hm, hs⟩
      exact ⟨hm, { hs with passed := nofun, coming := fun p hp => (hs.passed p hp).1 }⟩
    · intro passed p coming hsplit
      have hmem : p ∈ prepared := hsplit ▸ List.mem_append_right _ List.mem_cons_self
      exact cleanup_installed (hplan.well p hmem) (hplan.apart.turn hsplit fun q hq => hq)

/-- The first loop stages every file. -/
theorem prepares_staged (h : Startable installs initial) :
    (installs.forM (prepare sha256)).Meets
      (fun mishaps d => FailsAtMostOnce mishaps ∧ Staged sha256 installs initial [] d)
      (fun _ mishaps d => FailsAtMostOnce mishaps ∧ Staged sha256 installs initial installs d)
      (fun _ => StagedOnce sha256 installs initial) K :=
  Program.meets_forM (I := fun before _ mishaps d => FailsAtMostOnce mishaps ∧ Staged sha256 installs initial before d)
    (fun _ _ hs => hs) (fun _ _ _ hsplit => prepare_staged h hsplit) (fun _ _ hs => hs)

/-- Where an exception of the loops leaves the disk: the rollback of what is prepared starts there. -/
def Broken (sha256 : Bytes → Text) (installs : List ComponentFileInstall) (initial : Files) (mishaps : Mishaps)
    (d : Disk Text (List PreparedFile)) : Prop :=
  StagedOnce sha256 installs initial mishaps d ∨
    (Plan installs initial d.locals ∧ RecoverableNow installs initial d.locals mishaps d)

/-- The loops install every file, or leave the disk where the rollback starts. -/
theorem loops_installed (h : Startable installs initial) :
    (do
      installs.forM (prepare sha256)
      let prepared ← Program.query (·.locals)
      prepared.forM (commit sha256)
      prepared.forM (fun item => tryDelete item.backupPath) : Installer Unit).Meets
      (fun mishaps d => FailsAtMostOnce mishaps ∧ Staged sha256 installs initial [] d)
      (fun _ _ d => ∀ f ∈ installs, Holds sha256 d.files f.targetPath f.expectedSha256)
      (fun _ => Broken sha256 installs initial) K := by
  refine Program.meets_bind ((prepares_staged h).weaken (fun _ _ hs => hs) (fun _ _ _ hs => hs) (fun _ _ _ hs => Or.inl hs)
    (fun _ hs => hs)) fun _ => ?_
  refine Program.meets_bind (R := fun prepared mishaps d => FailsAtMostOnce mishaps ∧ Staged sha256 installs initial installs d ∧
    prepared = d.locals) (Program.meets_query fun _ _ hs => ⟨hs.1, hs.2, rfl⟩) fun prepared => ?_
  refine Program.meets_of_imp (φ := Plan installs initial prepared ∧
    ∀ f ∈ installs, f ∈ prepared.map (·.install) ∨ Holds sha256 initial f.targetPath f.expectedSha256) ?_ ?_
  · rintro mishaps d ⟨-, hs, rfl⟩
    exact ⟨hs.plan h (List.Sublist.refl _), hs.skipped⟩
  rintro ⟨hplan, hskipped⟩
  refine (commits_installed hplan).weaken ?_ ?_ ?_ (fun _ hs => hs)
  · rintro mishaps d ⟨hm, hs, rfl⟩
    exact ⟨hm, hs.between h (List.Sublist.refl _)⟩
  · intro _ mishaps d hs f hf
    by_cases hmem : f ∈ prepared.map (·.install)
    · obtain ⟨p, hp, rfl⟩ := List.mem_map.1 hmem
      exact hs.passed p hp
    · rw [Holds, hs.other h hplan hf hmem]
      exact (hskipped f hf).resolve_left hmem
  · rintro e mishaps d ⟨hm, hs⟩
    obtain rfl := hs.locals
    exact Or.inr ⟨hplan, hm, hs⟩

/-- An installation that starts without backups is all or nothing when at most one operation fails. -/
theorem install_startable (disk : Disk Text (List PreparedFile)) (h : Startable installs disk.files) :
    (install sha256 installs).Meets (fun mishaps d => FailsAtMostOnce mishaps ∧ d.files = disk.files)
      (fun _ _ after => ∀ f ∈ installs, Holds sha256 after.files f.targetPath f.expectedSha256)
      (fun _ _ after => ∀ f ∈ installs, after.files f.targetPath = disk.files f.targetPath) (fun _ => False) := by
  unfold install
  split
  · rename_i hempty
    obtain rfl := List.length_eq_zero_iff.1 hempty
    exact Program.meets_pure fun _ _ _ => nofun
  · split
    · refine Program.meets_raise ?_
      rintro mishaps d ⟨-, hsame⟩ f -
      rw [hsame]
    · refine Program.meets_bind (R := fun _ mishaps d => FailsAtMostOnce mishaps ∧ Staged sha256 installs disk.files [] d)
        (Program.meets_assign ?_) fun _ => Program.meets_tryCatch (F := fun _ => Broken sha256 installs disk.files) ?_ fun e => ?_
      · rintro mishaps d ⟨hm, hsame⟩
        exact ⟨hm, { untouched := fun path _ => congrFun hsame path, sublist := List.Sublist.refl _, prepared := nofun,
                     ready := nofun, skipped := nofun }⟩
      · exact loops_installed h
      · refine Program.meets_bind (R := fun prepared mishaps d => Broken sha256 installs disk.files mishaps d ∧ prepared = d.locals)
          (Program.meets_query fun _ _ hs => ⟨hs, rfl⟩) fun prepared => ?_
        rintro mishaps d ⟨hbroken, rfl⟩
        rcases hbroken with ⟨hm, before, hbefore, hs⟩ | ⟨hplan, hrecoverable⟩
        · exact rollback_staged h (hs.plan h hbefore) e mishaps d ⟨hm, hs.untouched_between h hbefore⟩
        · exact rollback_recoverable h hplan e mishaps d hrecoverable

end InstallAux

open InstallAux

/-- When at most one file operation fails, an installation that returns has put the new content in every target, and one that throws
has left every target as it was. -/
theorem install_all_or_nothing (sha256 : Bytes → Text) (installs : List ComponentFileInstall) (disk : Disk Text (List PreparedFile))
    (mishaps : Mishaps) (h : Installable installs disk.files) (hmishaps : FailsAtMostOnce mishaps) :
    ((install sha256 installs).run mishaps disk).Ends
      (fun _ _ after => ∀ f ∈ installs, Holds sha256 after.files f.targetPath f.expectedSha256)
      (fun _ _ after => ∀ f ∈ installs, after.files f.targetPath = disk.files f.targetPath)
      (fun _ => False) :=
  install_startable disk { h with noBackup := fun f hf => (h.clean f hf).2 } mishaps disk ⟨hmishaps, rfl⟩

/-- The second move of an update fails. -/
theorem install_all_or_nothing_move :
    let sha256 : Bytes → Text := fun content =>
      if content = [1] then "4BF5122F344554C53BDE2EBB8CD2B7E3D1600AD631C385A5D7CCE23C7785459A".toList
      else "6E340B9CFFB37A989CA544E6BB780A2C78901D3FB33738768511A30617AFA01D".toList
    let hooks : ComponentFileInstall := { sourcePath := "c:\\cache\\hooks.dll".toList, targetPath := "c:\\game\\hooks.dll".toList
                                          expectedSha256 := sha256 [1] }
    let files : Files := fun path => if path = hooks.sourcePath then some [1] else if path = hooks.targetPath then some [0] else none
    ((install sha256 [hooks]).run (List.replicate 6 none ++ [some (.fail 0)]) { files, locals := [] }).Ends
      (fun _ _ after => ∀ f ∈ [hooks], Holds sha256 after.files f.targetPath f.expectedSha256)
      (fun _ _ after => ∀ f ∈ [hooks], after.files f.targetPath = files f.targetPath) (fun _ => False) := by
  intro sha256 hooks files
  refine install_all_or_nothing sha256 [hooks] { files, locals := [] } _ { distinct := ?_, apart := ?_, clean := ?_ } ?_
  · exact List.nodup_singleton _
  · simp only [List.forall_mem_singleton]
    decide
  · simp only [List.forall_mem_singleton]
    decide
  · exact List.forall_mem_nil _

end Scbl.Launcher.TransactionalComponentInstaller
