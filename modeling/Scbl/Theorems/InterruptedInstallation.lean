import Scbl.Theorems.Installation

/-!
# Recovery from an interrupted installation

The next attempt takes a target with the new content for installed and removes its backup, and puts the backup of any other target back.
Where it is interrupted itself, the files are together only if the first attempt had left them together.
-/

namespace Scbl.Launcher.TransactionalComponentInstaller

open Scbl.Lib

/-- The files can be installed, and no source is a file that the installation writes. -/
structure Transaction (installs : List ComponentFileInstall) (initial : Files) : Prop extends Installable installs initial where
  sources : ∀ f ∈ installs, ∀ g ∈ installs,
    f.sourcePath ≠ g.targetPath ∧ f.sourcePath ≠ temporaryPath g.targetPath ∧ f.sourcePath ≠ backupPath g.targetPath

/-- Every target holds its new content, or every target is as it was. -/
def Together (sha256 : Bytes → Text) (installs : List ComponentFileInstall) (initial : Files) (d : Disk Text (List PreparedFile)) : Prop :=
  (∀ f ∈ installs, Holds sha256 d.files f.targetPath f.expectedSha256) ∨ ∀ f ∈ installs, d.files f.targetPath = initial f.targetPath

open InstallAux

variable {sha256 : Bytes → Text} {installs : List ComponentFileInstall} {initial : Files}

theorem Transaction.startable (h : Transaction installs initial) : Startable installs initial :=
  { h with noBackup := fun f hf => (h.clean f hf).2 }

/-- A source is none of the paths that an installation writes. -/
theorem Transaction.not_own (h : Transaction installs initial) {f g : ComponentFileInstall} (hf : f ∈ installs) (hg : g ∈ installs) :
    ¬Own g f.sourcePath := by
  obtain ⟨htarget, htemporary, hbackup⟩ := h.sources f hf g hg
  rintro (heq | heq | heq)
  · exact htarget heq
  · exact htemporary heq
  · exact hbackup heq

namespace InterruptedAux

/-- The checks of a file pass. -/
structure Checked (sha256 : Bytes → Text) (files : Files) (f : ComponentFileInstall) : Prop where
  source : isBlank f.sourcePath = false
  target : isBlank f.targetPath = false
  digest : (f.expectedSha256.length ≠ 64 || !f.expectedSha256.all isHexDigit) = false
  content : Holds sha256 files f.sourcePath f.expectedSha256

/-- There is no backup, or it holds the old content, and the new one is in the target or nothing. -/
def Backed (sha256 : Bytes → Text) (initial files : Files) (f : ComponentFileInstall) : Prop :=
  files (backupPath f.targetPath) = none ∨
    (initial f.targetPath).isSome ∧ files (backupPath f.targetPath) = initial f.targetPath ∧
      ¬Holds sha256 initial f.targetPath f.expectedSha256 ∧
      (files f.targetPath = none ∨ Holds sha256 files f.targetPath f.expectedSha256)

theorem Backed.congr {files files' : Files} {f : ComponentFileInstall} (h : Backed sha256 initial files f)
    (htarget : files' f.targetPath = files f.targetPath) (hbackup : files' (backupPath f.targetPath) = files (backupPath f.targetPath)) :
    Backed sha256 initial files' f := by
  rw [Backed, Holds, Holds, htarget, hbackup]
  exact h

/-- What an attempt leaves wherever it is interrupted: a backup is there only after all files were checked. -/
structure Left (sha256 : Bytes → Text) (installs : List ComponentFileInstall) (initial : Files) (d : Disk Text (List PreparedFile)) : Prop where
  sources : ∀ f ∈ installs, d.files f.sourcePath = initial f.sourcePath
  backed : ∀ f ∈ installs, Backed sha256 initial d.files f
  checked : ∀ f ∈ installs, d.files (backupPath f.targetPath) ≠ none → ∀ g ∈ installs, Checked sha256 initial g
  prepared : ∀ p ∈ d.locals, Prepared initial p ∧ p.install ∈ installs

variable {d : Disk Text (List PreparedFile)} {f : ComponentFileInstall} {p : PreparedFile}
variable {E : InstallException → Mishaps → Disk Text (List PreparedFile) → Prop} {K : Disk Text (List PreparedFile) → Prop}

/-- A write to a path of one file, after which that file is as it may be left. -/
theorem Left.write (h : Transaction installs initial) (hleft : Left sha256 installs initial d) (hf : f ∈ installs) {path : Text}
    (hown : Own f path) {content : Option Bytes} (hbacked : Backed sha256 initial (d.write path content).files f)
    (hchecked : (d.write path content).files (backupPath f.targetPath) ≠ none → ∀ g ∈ installs, Checked sha256 initial g) :
    Left sha256 installs initial (d.write path content) := by
  have hother : ∀ g ∈ installs, g.targetPath ≠ f.targetPath → ∀ path', Own g path' → (d.write path content).files path' = d.files path' := by
    intro g hg hne path' hown'
    refine Disk.write_other _ _ ?_
    rintro rfl
    exact apart_of_ne h.startable hg hf hne _ hown' hown
  have hsame : ∀ g ∈ installs, g.targetPath = f.targetPath → g = f := fun g hg heq => List.inj_on_of_nodup_map h.distinct hg hf heq
  refine { sources := ?_, backed := ?_, checked := ?_, prepared := hleft.prepared }
  · intro g hg
    rw [Disk.write_other _ _ fun heq => h.not_own hg hf (by rw [heq]; exact hown)]
    exact hleft.sources g hg
  · intro g hg
    by_cases heq : g.targetPath = f.targetPath
    · rw [hsame g hg heq]
      exact hbacked
    · exact (hleft.backed g hg).congr (hother g hg heq _ (own_target g)) (hother g hg heq _ (own_backup g))
  · intro g hg
    by_cases heq : g.targetPath = f.targetPath
    · rw [hsame g hg heq]
      exact hchecked
    · rw [hother g hg heq _ (own_backup g)]
      exact hleft.checked g hg

/-- The temporary file of a file may be written. -/
theorem Left.writeTemporary (h : Transaction installs initial) (hleft : Left sha256 installs initial d) (hf : f ∈ installs)
    (content : Option Bytes) : Left sha256 installs initial (d.write (temporaryPath f.targetPath) content) := by
  have htarget := Disk.write_other d content (self_ne_temporaryPath f.targetPath)
  have hbackup := Disk.write_other d content (temporaryPath_ne_backupPath f.targetPath f.targetPath).symm
  refine hleft.write h hf (own_temporary f) ((hleft.backed f hf).congr htarget hbackup) ?_
  rw [hbackup]
  exact hleft.checked f hf

/-- A backup may be removed. -/
theorem Left.dropBackup (h : Transaction installs initial) (hleft : Left sha256 installs initial d) (hf : f ∈ installs) :
    Left sha256 installs initial (d.write (backupPath f.targetPath) none) :=
  hleft.write h hf (own_backup f) (.inl (Disk.write_self _ _ _)) fun hsome => absurd (Disk.write_self _ _ _) hsome

/-- A target may be removed. -/
theorem Left.dropTarget (h : Transaction installs initial) (hleft : Left sha256 installs initial d) (hf : f ∈ installs) :
    Left sha256 installs initial (d.write f.targetPath none) := by
  have hbackup := Disk.write_other d none (self_ne_backupPath f.targetPath).symm
  refine hleft.write h hf (own_target f) ?_ ?_
  · rw [Backed, hbackup, Disk.write_self]
    exact (hleft.backed f hf).imp_right fun hkept => ⟨hkept.1, hkept.2.1, hkept.2.2.1, .inl rfl⟩
  · rw [hbackup]
    exact hleft.checked f hf

/-- A backup may be moved back. -/
theorem Left.restore (h : Transaction installs initial) (hleft : Left sha256 installs initial d) (hf : f ∈ installs) (content : Bytes) :
    Left sha256 installs initial ((d.write (backupPath f.targetPath) none).write f.targetPath (some content)) := by
  have hbackup : ((d.write (backupPath f.targetPath) none).write f.targetPath (some content)).files (backupPath f.targetPath) = none :=
    (Disk.write_other _ _ (self_ne_backupPath f.targetPath).symm).trans (Disk.write_self _ _ _)
  exact (hleft.dropBackup h hf).write h hf (own_target f) (.inl hbackup) fun hsome => absurd hbackup hsome

/-! ### The first attempt -/

/-- A rollback leaves what an attempt may leave. -/
theorem rollback_left (h : Transaction installs initial) (hwell : Prepared initial p) (hp : p.install ∈ installs) :
    (rollback p).Meets (fun _ => Left sha256 installs initial) (fun _ _ => Left sha256 installs initial) E (Left sha256 installs initial) := by
  unfold rollback
  rw [hwell.temporary, hwell.backup]
  refine Program.meets_bind (Disk.meets_tryDelete_any (fun d hs => Left.writeTemporary h hs hp none) fun _ hs => hs) fun _ => ?_
  refine Program.meets_tryCatch (F := fun _ _ => Left sha256 installs initial) ?_ fun _ => Program.meets_pure fun _ _ hs => hs
  refine Program.meets_bind (Disk.meets_fileExists _) fun backupExists => ?_
  split
  · refine Program.meets_bind (R := fun _ _ => Left sha256 installs initial)
      ((Disk.meets_tryDelete_any (fun d hs => Left.dropTarget h hs hp) fun _ hs => hs).from fun _ _ hs => hs.1) fun _ => ?_
    exact Disk.meets_moveFile_any (fun d content hs _ => Left.restore h hs hp content) (fun _ _ hs => hs) fun _ hs => hs
  · refine Program.meets_when (fun _ => ?_) fun _ _ _ hs => hs.1
    exact (Disk.meets_tryDelete_any (fun d hs => Left.dropTarget h hs hp) fun _ hs => hs).from fun _ _ hs => hs.1

section Any

variable {I : Disk Text (List PreparedFile) → Prop}

/-- A check that passes has seen the expected digest. -/
theorem verifyHash_any {path expected label : Text} (hE : ∀ e mishaps d, I d → E e mishaps d) (hK : ∀ d, I d → K d) :
    (verifyHash sha256 path expected label).Meets (fun _ d => I d) (fun _ _ d => I d ∧ Holds sha256 d.files path expected) E K := by
  refine Program.meets_bind (R := fun actual _ d => I d ∧ ∃ content, d.files path = some content ∧ actual = sha256 content) ?_ fun actual => ?_
  · refine Program.meets_bind (Disk.meets_readFile_any (hE .io) hK) fun content => ?_
    exact Program.meets_pure fun _ d hs => ⟨hs.1, content, hs.2, rfl⟩
  · refine Program.meets_when (fun _ => Program.meets_raise fun mishaps d hs => hE _ mishaps d hs.1) ?_
    rintro hequal _ d ⟨hI, content, hfile, rfl⟩
    exact ⟨hI, content, hfile, by simpa using hequal⟩

/-- The digest of a file tells whether it is the expected one. -/
theorem hasHash_any {path expected : Text} (hE : ∀ e mishaps d, I d → E e mishaps d) (hK : ∀ d, I d → K d) :
    (hasHash sha256 path expected).Meets (fun _ d => I d)
      (fun installed _ d => I d ∧ (installed = true ↔ Holds sha256 d.files path expected)) E K := by
  refine Program.meets_bind (R := fun actual _ d => I d ∧ ∃ content, d.files path = some content ∧ actual = sha256 content) ?_ fun actual => ?_
  · refine Program.meets_bind (Disk.meets_readFile_any (hE .io) hK) fun content => ?_
    exact Program.meets_pure fun _ d hs => ⟨hs.1, content, hs.2, rfl⟩
  · refine Program.meets_pure ?_
    rintro _ d ⟨hI, content, hfile, rfl⟩
    refine ⟨hI, fun hequal => ⟨content, hfile, hequal⟩, ?_⟩
    rintro ⟨content', hfile', hequal⟩
    obtain rfl := Option.some.inj (hfile.symm.trans hfile')
    exact hequal

/-- The checks of a file. -/
theorem validateInstall_any (hE : ∀ e mishaps d, I d → E e mishaps d) (hK : ∀ d, I d → K d) :
    (validateInstall sha256 f).Meets (fun _ d => I d) (fun _ _ d => I d ∧ Checked sha256 d.files f) E K := by
  refine Program.meets_bind (Disk.meets_fileExists _) fun sourceExists => ?_
  split
  · exact Program.meets_raise fun mishaps d hs => hE _ mishaps d hs.1
  · rename_i hsource
    split
    · exact Program.meets_raise fun mishaps d hs => hE _ mishaps d hs.1
    · rename_i htarget
      split
      · exact Program.meets_raise fun mishaps d hs => hE _ mishaps d hs.1
      · rename_i hdigest
        refine ((verifyHash_any hE hK).from fun _ _ hs => hs.1).weaken (fun _ _ hs => hs) ?_ (fun _ _ _ hs => hs) fun _ hs => hs
        rintro _ _ d ⟨hI, hholds⟩
        simp only [Bool.or_eq_true, not_or, Bool.not_eq_true] at hsource
        exact ⟨hI, hsource.1, by simpa using htarget, by simpa using hdigest, hholds⟩

theorem createDirectory_any (hE : ∀ e mishaps d, I d → E e mishaps d) (hK : ∀ d, I d → K d) :
    createDirectory.Meets (fun _ d => I d) (fun _ _ d => I d) E K := by
  refine Program.meets_operation_any (J := fun _ d => I d) ?_ (fun _ _ _ _ hstep => nomatch hstep) (fun mishaps d _ => hE .io mishaps d)
    fun d _ => hK d
  intro d _ d' hI hstep
  obtain ⟨-, rfl⟩ := Prod.mk.inj (Except.ok.inj hstep)
  exact hI

/-- Without a backup there is nothing to recover. -/
theorem recoverTarget_any {target temporary backup expected : Text} (hdelete : ∀ d, I d → I (d.write temporary none))
    (hbackup : ∀ d, I d → d.files backup = none) (hK : ∀ d, I d → K d) :
    (recoverTarget sha256 target temporary backup expected).Meets (fun _ d => I d) (fun _ _ d => I d) E K := by
  refine Program.meets_bind (Disk.meets_tryDelete_any hdelete hK) fun _ => ?_
  refine Program.meets_bind (Disk.meets_fileExists backup) fun backupExists => Program.meets_when ?_ fun _ _ _ hs => hs.1
  rintro rfl
  refine meets_of_false ?_
  rintro mishaps d ⟨hI, hsome⟩
  rw [hbackup d hI] at hsome
  nomatch hsome

end Any

/-- In the first loop: the files before were checked, and those that are prepared hold no new content yet. -/
structure First (sha256 : Bytes → Text) (installs : List ComponentFileInstall) (initial : Files) (before : List ComponentFileInstall)
    (d : Disk Text (List PreparedFile)) : Prop where
  staged : Staged sha256 installs initial before d
  differ : ∀ p ∈ d.locals, ¬Holds sha256 initial p.install.targetPath p.install.expectedSha256
  checked : ∀ f ∈ before, Checked sha256 initial f

variable {before after : List ComponentFileInstall}

theorem First.source (h : Transaction installs initial) (hs : First sha256 installs initial before d) (hf : f ∈ installs) :
    d.files f.sourcePath = initial f.sourcePath :=
  hs.staged.untouched _ fun g hg => (h.sources f hf g hg).2.1

theorem First.left (h : Transaction installs initial) (hbefore : before.Sublist installs) (hs : First sha256 installs initial before d) :
    Left sha256 installs initial d where
  sources _ hf := hs.source h hf
  backed _ hf := .inl (hs.staged.backup h.startable hf)
  checked _ hf hsome := absurd (hs.staged.backup h.startable hf) hsome
  prepared p hp := ⟨hs.staged.prepared p hp, (hs.staged.sublist.trans hbefore).subset (List.mem_map_of_mem hp)⟩

/-- The body of the first loop. -/
theorem prepare_first (h : Transaction installs initial) (hsplit : before ++ f :: after = installs) :
    (prepare sha256 f).Meets (fun _ => First sha256 installs initial before) (fun _ _ => First sha256 installs initial (before ++ [f]))
      (fun _ _ => Left sha256 installs initial) (Left sha256 installs initial) := by
  have hf : f ∈ installs := by
    rw [← hsplit]
    exact List.mem_append_right _ List.mem_cons_self
  have hbefore : before.Sublist installs := by
    rw [← hsplit]
    exact List.sublist_append_left _ _
  -- the file whose turn it is was checked
  let turn (d : Disk Text (List PreparedFile)) : Prop := First sha256 installs initial before d ∧ Checked sha256 initial f
  have hwrite : ∀ d content, turn d → turn (d.write (temporaryPath f.targetPath) content) := fun d content hs =>
    ⟨{ hs.1 with staged := hs.1.staged.write h.startable hsplit content }, hs.2⟩
  have hleft : ∀ d, turn d → Left sha256 installs initial d := fun d hs => hs.1.left h hbefore
  unfold prepare
  refine Program.meets_bind (R := fun _ _ => turn) ?_ fun _ => ?_
  · refine (validateInstall_any (I := First sha256 installs initial before) (fun _ _ d hs => hs.left h hbefore)
      fun d hs => hs.left h hbefore).weaken (fun _ _ hs => hs) ?_ (fun _ _ _ hs => hs) fun _ hs => hs
    rintro _ _ d ⟨hs, hchecked⟩
    refine ⟨hs, { hchecked with content := ?_ }⟩
    have hcontent := hchecked.content
    rwa [Holds, hs.source h hf] at hcontent
  refine Program.meets_bind (createDirectory_any (fun _ _ d hs => hleft d hs) hleft) fun _ => ?_
  refine Program.meets_bind (recoverTarget_any (fun d hs => hwrite d none hs) (fun d hs => hs.1.staged.backup h.startable hf) hleft) fun _ => ?_
  refine Program.meets_bind (Disk.meets_fileExists _) fun targetExists => ?_
  refine Program.meets_bind (R := fun installed _ d => turn d ∧ (installed = true ↔ Holds sha256 d.files f.targetPath f.expectedSha256)) ?_
    fun installed => Program.meets_when ?_ ?_
  · cases targetExists with
    | true => exact (hasHash_any (fun _ _ d hs => hleft d hs) hleft).from fun _ _ hs => hs.1
    | false =>
      refine Program.meets_pure fun _ d hs => ⟨hs.1, (fun h => by cases h), ?_⟩
      rintro ⟨content, hfile, -⟩
      have hnone := hs.2
      rw [hfile] at hnone
      cases hnone
  · intro hinstalled
    have hnot : installed = false := by simpa using hinstalled
    subst hnot
    let other (d : Disk Text (List PreparedFile)) : Prop := turn d ∧ ¬Holds sha256 initial f.targetPath f.expectedSha256
    have hcopy : ∀ d content, other d → other (d.write (temporaryPath f.targetPath) content) := fun d content hs => ⟨hwrite d content hs.1, hs.2⟩
    refine Program.meets_bind ((Disk.meets_tryDelete_any (I := other) (fun d hs => hcopy d none hs) fun d hs => hleft d hs.1).from ?_) fun _ => ?_
    · rintro _ d ⟨hs, hiff⟩
      refine ⟨hs, fun hholds => ?_⟩
      rw [Holds, ← hs.1.staged.target h.startable hf] at hholds
      cases hiff.2 hholds
    refine Program.meets_bind (R := fun _ _ => other)
      ((Disk.meets_copyFile_any (fun _ => hcopy) (fun _ d hs => hleft d hs.1) fun d hs => hleft d hs.1).weaken (fun _ _ hs => hs)
        (fun _ _ _ hs => hs.1) (fun _ _ _ hs => hs) fun _ hs => hs) fun _ => ?_
    refine Program.meets_bind (verifyHash_any (fun _ _ d hs => hleft d hs.1) fun d hs => hleft d hs.1) fun _ => ?_
    refine Program.meets_bind (Disk.meets_fileExists _) fun targetExisted => Program.meets_assign ?_
    rintro _ d ⟨⟨⟨⟨hs, hchecked⟩, hdiffer⟩, hholds⟩, hexisted⟩
    refine { staged := hs.staged.prepare h.startable hf rfl rfl rfl hexisted hholds, differ := ?_, checked := ?_ }
    · intro p hp
      rcases List.mem_append.1 hp with hp | hp
      · exact hs.differ p hp
      · obtain rfl := List.mem_singleton.1 hp
        exact hdiffer
    · intro g hg
      rcases List.mem_append.1 hg with hg | hg
      · exact hs.checked g hg
      · obtain rfl := List.mem_singleton.1 hg
        exact hchecked
  · rintro hinstalled _ d ⟨⟨hs, hchecked⟩, hiff⟩
    have hholds := hiff.1 (by simpa using hinstalled)
    rw [Holds, hs.staged.target h.startable hf] at hholds
    refine { staged := hs.staged.skip hholds, differ := hs.differ, checked := ?_ }
    intro g hg
    rcases List.mem_append.1 hg with hg | hg
    · exact hs.checked g hg
    · obtain rfl := List.mem_singleton.1 hg
      exact hchecked

/-- The old content of a target that differs from the new one is moved to the backup. -/
theorem Left.keep (h : Transaction installs initial) (hleft : Left sha256 installs initial d) (hf : f ∈ installs)
    (hchecked : ∀ g ∈ installs, Checked sha256 initial g) {content : Bytes} (hinitial : initial f.targetPath = some content)
    (hdiffer : ¬Holds sha256 initial f.targetPath f.expectedSha256) :
    Left sha256 installs initial ((d.write f.targetPath none).write (backupPath f.targetPath) (some content)) := by
  refine (hleft.dropTarget h hf).write h hf (own_backup f) (.inr ⟨?_, ?_, hdiffer, .inl ?_⟩) fun _ => hchecked
  · rw [hinitial]
    rfl
  · rw [Disk.write_self, hinitial]
  · exact (Disk.write_other _ _ (self_ne_backupPath f.targetPath)).trans (Disk.write_self _ _ _)

/-- The new content is moved to the target. -/
theorem Left.place (h : Transaction installs initial) (hleft : Left sha256 installs initial d) (hf : f ∈ installs) {content : Bytes}
    (hhash : equalsIgnoreCase (sha256 content) f.expectedSha256 = true) :
    Left sha256 installs initial ((d.write (temporaryPath f.targetPath) none).write f.targetPath (some content)) := by
  have hbackup : ((d.write (temporaryPath f.targetPath) none).write f.targetPath (some content)).files (backupPath f.targetPath) =
      d.files (backupPath f.targetPath) :=
    (Disk.write_other _ _ (self_ne_backupPath f.targetPath).symm).trans
      (Disk.write_other _ _ (temporaryPath_ne_backupPath f.targetPath f.targetPath).symm)
  refine (hleft.writeTemporary h hf none).write h hf (own_target f) ?_ ?_
  · rw [Backed, hbackup]
    exact (hleft.backed f hf).imp_right fun hkept =>
      ⟨hkept.1, hkept.2.1, hkept.2.2.1, .inr ⟨content, Disk.write_self _ _ _, hhash⟩⟩
  · rw [hbackup]
    exact hleft.checked f hf

variable {coming : List PreparedFile}

/-- The body of the second loop; the files whose turn comes stay ready. -/
theorem commit_left (h : Transaction installs initial) (hchecked : ∀ g ∈ installs, Checked sha256 initial g) (hwell : Prepared initial p)
    (hp : p.install ∈ installs) (hdiffer : ¬Holds sha256 initial p.install.targetPath p.install.expectedSha256)
    (hapart : ∀ q ∈ coming, Apart p.install q.install) :
    (commit sha256 p).Meets (fun _ d => Left sha256 installs initial d ∧ ∀ q ∈ p :: coming, Ready sha256 initial q d.files)
      (fun _ _ d => Left sha256 installs initial d ∧ ∀ q ∈ coming, Ready sha256 initial q d.files) (fun _ _ => Left sha256 installs initial)
      (Left sha256 installs initial) := by
  have hcoming : ∀ {path : Text} (d : Disk Text (List PreparedFile)) content, Own p.install path →
      (∀ q ∈ coming, Ready sha256 initial q d.files) → ∀ q ∈ coming, Ready sha256 initial q (d.write path content).files := by
    intro path d content hown hready q hq
    refine local_ready q _ _ (fun path' hown' => Disk.write_other _ _ ?_) (hready q hq)
    rintro rfl
    exact hapart q hq _ hown hown'
  -- the turn with the file in one of its states
  let turn (A : Item) (d : Disk Text (List PreparedFile)) : Prop :=
    Left sha256 installs initial d ∧ (∀ q ∈ coming, Ready sha256 initial q d.files) ∧ A p d.files
  unfold commit
  rw [hwell.temporary, hwell.backup]
  refine Program.meets_bind ((Disk.meets_tryDelete_any (I := turn (Ready sha256 initial)) ?_ fun d hs => hs.1).from
    fun _ d hs => ⟨hs.1, (List.forall_mem_cons.1 hs.2).2, (List.forall_mem_cons.1 hs.2).1⟩) fun _ => ?_
  · rintro d ⟨hleft, hrest, hready⟩
    rw [Disk.write_eq_self hready.2.1]
    exact ⟨hleft, hrest, hready⟩
  refine Program.meets_bind (R := fun _ _ => turn (Kept sha256 initial)) (Program.meets_when ?_ ?_) fun _ => ?_
  · intro _
    refine Disk.meets_moveFile_any ?_ (fun _ d hs => hs.1) fun d hs => hs.1
    rintro d content ⟨hleft, hrest, hready⟩ hfile
    exact ⟨hleft.keep h hp hchecked (hready.1.symm.trans hfile) hdiffer, hcoming _ _ (own_backup _) (hcoming _ _ (own_target _) hrest),
      hready.keep hfile⟩
  · rintro hexisted _ d ⟨hleft, hrest, hready⟩
    exact ⟨hleft, hrest, hready.kept_of_absent (hwell.absent hexisted)⟩
  refine Program.meets_bind (R := fun _ _ => turn (Done sha256 initial)) ?_ fun _ => ?_
  · refine Disk.meets_moveFile_any ?_ (fun _ d hs => hs.1) fun d hs => hs.1
    rintro d content ⟨hleft, hrest, hkept⟩ hfile
    obtain ⟨content', hfile', hhash⟩ := hkept.2
    obtain rfl := Option.some.inj (hfile.symm.trans hfile')
    exact ⟨hleft.place h hp hhash, hcoming _ _ (own_target _) (hcoming _ _ (own_temporary _) hrest), hkept.place hfile⟩
  exact (verifyHash_any (I := turn (Done sha256 initial)) (fun _ _ d hs => hs.1) fun d hs => hs.1).weaken (fun _ _ hs => hs)
    (fun _ _ d hs => ⟨hs.1.1, hs.1.2.1⟩) (fun _ _ _ hs => hs) fun _ hs => hs

/-- Distinct targets are no duplicates. -/
theorem duplicateTargets_eq_nil (h : (installs.map (·.targetPath)).Nodup) : duplicateTargets installs = [] := by
  refine List.filter_eq_nil_iff.2 fun target _ => ?_
  have hcount := List.nodup_iff_count_le_one.1 h target
  simpa using hcount

/-- What is installed when the targets are distinct. -/
theorem install_of_distinct (hne : installs ≠ []) (h : (installs.map (·.targetPath)).Nodup) :
    install sha256 installs = (do
      Disk.setLocals (fun _ => [])
      Program.tryCatch
        (do
          installs.forM (prepare sha256)
          let prepared ← Program.query (·.locals)
          prepared.forM (commit sha256)
          prepared.forM (fun item => tryDelete item.backupPath))
        (fun e => do
          let prepared ← Program.query (·.locals)
          prepared.reverse.forM rollback
          .raise e)) := by
  rw [install, if_neg fun hlength => hne (List.length_eq_zero_iff.1 hlength), if_neg]
  rw [duplicateTargets_eq_nil h]
  exact lt_irrefl 0

/-- A first attempt leaves what can be recovered, whatever befalls it. -/
theorem install_left (h : Transaction installs initial) (hne : installs ≠ []) :
    (install sha256 installs).Meets (fun _ d => d.files = initial) (fun _ _ => Left sha256 installs initial)
      (fun _ _ => Left sha256 installs initial) (Left sha256 installs initial) := by
  rw [install_of_distinct hne h.distinct]
  refine Program.meets_bind (R := fun _ _ => First sha256 installs initial []) (Program.meets_assign ?_) fun _ => ?_
  · rintro _ d hsame
    exact { staged := { untouched := fun path _ => congrFun hsame path, sublist := List.Sublist.refl _, prepared := nofun, ready := nofun,
                        skipped := nofun }
            differ := nofun, checked := nofun }
  refine Program.meets_tryCatch (F := fun _ _ => Left sha256 installs initial) ?_ fun e => ?_
  · refine Program.meets_bind (R := fun _ _ => First sha256 installs initial installs) (Program.meets_forM
      (I := fun before _ _ => First sha256 installs initial before) (fun _ _ hs => hs) (fun _ _ _ hsplit => prepare_first h hsplit)
      fun _ _ hs => hs) fun _ => ?_
    refine Program.meets_bind (R := fun prepared _ d => First sha256 installs initial installs d ∧ prepared = d.locals)
      (Program.meets_query fun _ _ hs => ⟨hs, rfl⟩) fun prepared => ?_
    refine Program.meets_of_imp (φ := Plan installs initial prepared ∧ (∀ f ∈ installs, Checked sha256 initial f) ∧
      ∀ p ∈ prepared, ¬Holds sha256 initial p.install.targetPath p.install.expectedSha256) ?_ ?_
    · rintro _ d ⟨hs, rfl⟩
      exact ⟨hs.staged.plan h.startable (List.Sublist.refl _), hs.checked, hs.differ⟩
    rintro ⟨hplan, hchecked, hdiffer⟩
    refine Program.meets_bind (R := fun _ _ => Left sha256 installs initial) (Program.meets_forM
      (I := fun _ coming _ d => Left sha256 installs initial d ∧ ∀ q ∈ coming, Ready sha256 initial q d.files) ?_ ?_ fun _ _ hs => hs.1)
      fun _ => ?_
    · rintro _ d ⟨hs, rfl⟩
      exact ⟨hs.left h (List.Sublist.refl _), (hs.staged.between h.startable (List.Sublist.refl _)).coming⟩
    · intro passed p coming hsplit
      have hp : p ∈ prepared := hsplit ▸ List.mem_append_right _ List.mem_cons_self
      exact commit_left h hchecked (hplan.well p hp) (hplan.listed p hp) (hdiffer p hp) (hplan.apart.turn hsplit fun q hq => hq).after
    · refine Program.meets_forM (I := fun _ _ _ => Left sha256 installs initial) (fun _ _ hs => hs) ?_ fun _ _ hs => hs
      intro passed p coming hsplit
      have hp : p ∈ prepared := hsplit ▸ List.mem_append_right _ List.mem_cons_self
      rw [(hplan.well p hp).backup]
      exact Disk.meets_tryDelete_any (fun d hs => Left.dropBackup h hs (hplan.listed p hp)) fun _ hs => hs
  · refine Program.meets_bind (R := fun prepared _ d => Left sha256 installs initial d ∧ prepared = d.locals)
      (Program.meets_query fun _ _ hs => ⟨hs, rfl⟩) fun prepared => ?_
    refine Program.meets_of_imp (φ := ∀ p ∈ prepared, Prepared initial p ∧ p.install ∈ installs) ?_ fun hprepared => ?_
    · rintro _ d ⟨hs, rfl⟩
      exact hs.prepared
    refine Program.meets_bind (R := fun _ _ => Left sha256 installs initial) ?_ fun _ => Program.meets_raise fun _ _ hs => hs
    refine Program.meets_forM (I := fun _ _ _ => Left sha256 installs initial) (fun _ _ hs => hs.1) ?_ fun _ _ hs => hs
    intro passed p coming hsplit
    have hp : p ∈ prepared := List.mem_reverse.1 (hsplit ▸ List.mem_append_right _ List.mem_cons_self)
    exact rollback_left h (hprepared p hp).1 (hprepared p hp).2

/-! ### Parts that are completed -/

section Completes

variable {path expected label : Text} {content : Bytes}

theorem completes_computeSha256 {Q : Text → Disk Text (List PreparedFile) → Prop} (hfile : d.files path = some content)
    (hQ : Q (sha256 content) d) : (computeSha256 sha256 path).Completes d Q :=
  Program.completes_bind (Disk.completes_readFile hfile (Program.completes_pure hQ))

theorem completes_hasHash {Q : Bool → Disk Text (List PreparedFile) → Prop} (hfile : d.files path = some content)
    (hQ : Q (equalsIgnoreCase (sha256 content) expected) d) : (hasHash sha256 path expected).Completes d Q :=
  Program.completes_bind (completes_computeSha256 hfile (Program.completes_pure hQ))

theorem completes_verifyHash {Q : Unit → Disk Text (List PreparedFile) → Prop} (hholds : Holds sha256 d.files path expected) (hQ : Q () d) :
    (verifyHash sha256 path expected label).Completes d Q := by
  obtain ⟨content, hfile, hequal⟩ := hholds
  refine Program.completes_bind (completes_computeSha256 hfile (Program.completes_when ?_ fun _ => hQ))
  rw [hequal]
  exact nofun

theorem completes_validateInstall {Q : Unit → Disk Text (List PreparedFile) → Prop} (hchecked : Checked sha256 d.files f) (hQ : Q () d) :
    (validateInstall sha256 f).Completes d Q := by
  obtain ⟨content, hfile, -⟩ := hchecked.content
  refine Program.completes_bind (Program.completes_query ?_)
  rw [hchecked.source, hfile, if_neg (by simp), hchecked.target, if_neg (by decide), if_neg (by rw [hchecked.digest]; decide)]
  exact completes_verifyHash hchecked.content hQ

theorem completes_createDirectory {Q : Unit → Disk Text (List PreparedFile) → Prop} (hQ : Q () d) : createDirectory.Completes d Q :=
  Program.completes_operation rfl hQ

end Completes

/-! ### A retry after all targets were replaced -/

/-- Every target holds its new content. -/
def AllNew (sha256 : Bytes → Text) (installs : List ComponentFileInstall) (d : Disk Text (List PreparedFile)) : Prop :=
  ∀ f ∈ installs, Holds sha256 d.files f.targetPath f.expectedSha256

/-- Nothing is prepared and every target holds its new content. -/
structure Finished (sha256 : Bytes → Text) (installs : List ComponentFileInstall) (initial : Files) (d : Disk Text (List PreparedFile)) :
    Prop where
  left : Left sha256 installs initial d
  locals : d.locals = []
  new : AllNew sha256 installs d

/-- The backup of one target was put back, and every other target holds its new content. -/
structure Reverted (sha256 : Bytes → Text) (installs : List ComponentFileInstall) (initial : Files) (f : ComponentFileInstall)
    (d : Disk Text (List PreparedFile)) : Prop where
  sources : ∀ g ∈ installs, d.files g.sourcePath = initial g.sourcePath
  checked : ∀ g ∈ installs, Checked sha256 initial g
  target : ∃ content, d.files f.targetPath = some content ∧ equalsIgnoreCase (sha256 content) f.expectedSha256 = false
  others : ∀ g ∈ installs, g ≠ f → Holds sha256 d.files g.targetPath g.expectedSha256

/-- Only that target is prepared. -/
structure Again (sha256 : Bytes → Text) (installs : List ComponentFileInstall) (initial : Files) (f : ComponentFileInstall)
    (d : Disk Text (List PreparedFile)) : Prop where
  reverted : Reverted sha256 installs initial f d
  locals : d.locals =
    [{ install := f, temporaryPath := temporaryPath f.targetPath, backupPath := backupPath f.targetPath, targetExisted := true }]
  temporary : Holds sha256 d.files (temporaryPath f.targetPath) f.expectedSha256

theorem Finished.writeTemporary (h : Transaction installs initial) (hs : Finished sha256 installs initial d) (hf : f ∈ installs)
    (content : Option Bytes) : Finished sha256 installs initial (d.write (temporaryPath f.targetPath) content) where
  left := hs.left.writeTemporary h hf content
  locals := hs.locals
  new g hg := by
    rw [Holds, Disk.write_other _ _ (h.apart g hg f hf).1]
    exact hs.new g hg

theorem Finished.dropBackup (h : Transaction installs initial) (hs : Finished sha256 installs initial d) (hf : f ∈ installs) :
    Finished sha256 installs initial (d.write (backupPath f.targetPath) none) where
  left := hs.left.dropBackup h hf
  locals := hs.locals
  new g hg := by
    rw [Holds, Disk.write_other _ _ (h.apart g hg f hf).2]
    exact hs.new g hg

/-- A backup is put back over its target. -/
theorem Finished.revert (h : Transaction installs initial) (hs : Finished sha256 installs initial d) (hf : f ∈ installs) {content : Bytes}
    (hbackup : d.files (backupPath f.targetPath) = some content) :
    Reverted sha256 installs initial f
      (((d.write f.targetPath none).write (backupPath f.targetPath) none).write f.targetPath (some content)) := by
  have hsome : d.files (backupPath f.targetPath) ≠ none := by
    rw [hbackup]
    exact nofun
  obtain ⟨-, hkept, hdiffer, -⟩ := (hs.left.backed f hf).resolve_left hsome
  refine { sources := ?_, checked := hs.left.checked f hf hsome, target := ⟨content, Disk.write_self _ _ _, ?_⟩, others := ?_ }
  · exact (((hs.left.dropTarget h hf).restore h hf content)).sources
  · by_contra hequal
    exact hdiffer ⟨content, hkept.symm.trans hbackup, by simpa using hequal⟩
  · intro g hg hne
    have htarget : g.targetPath ≠ f.targetPath := fun heq => hne (List.inj_on_of_nodup_map h.distinct hg hf heq)
    rw [Holds, Disk.write_other _ _ htarget, Disk.write_other _ _ (h.apart g hg f hf).2, Disk.write_other _ _ htarget]
    exact hs.new g hg

variable {g : ComponentFileInstall}

theorem Reverted.writeTemporary (h : Transaction installs initial) (hs : Reverted sha256 installs initial f d) (hf : f ∈ installs)
    (hg : g ∈ installs) (content : Option Bytes) : Reverted sha256 installs initial f (d.write (temporaryPath g.targetPath) content) where
  sources k hk := (Disk.write_other _ _ (h.sources k hk g hg).2.1).trans (hs.sources k hk)
  checked := hs.checked
  target := by
    rw [Disk.write_other _ _ (h.apart f hf g hg).1]
    exact hs.target
  others k hk hne := by
    rw [Holds, Disk.write_other _ _ (h.apart k hk g hg).1]
    exact hs.others k hk hne

theorem Reverted.dropBackup (h : Transaction installs initial) (hs : Reverted sha256 installs initial f d) (hf : f ∈ installs)
    (hg : g ∈ installs) : Reverted sha256 installs initial f (d.write (backupPath g.targetPath) none) where
  sources k hk := (Disk.write_other _ _ (h.sources k hk g hg).2.2).trans (hs.sources k hk)
  checked := hs.checked
  target := by
    rw [Disk.write_other _ _ (h.apart f hf g hg).2]
    exact hs.target
  others k hk hne := by
    rw [Holds, Disk.write_other _ _ (h.apart k hk g hg).2]
    exact hs.others k hk hne

/-- The checks of every file pass still. -/
theorem Reverted.checked_now (hs : Reverted sha256 installs initial f d) (hg : g ∈ installs) : Checked sha256 d.files g :=
  { hs.checked g hg with content := by rw [Holds, hs.sources g hg]; exact (hs.checked g hg).content }

/-- The digest of a target with the new content is the expected one, unless it cannot be read. -/
theorem hasHash_finished (hf : f ∈ installs) {I : Disk Text (List PreparedFile) → Prop} (hI : ∀ d, I d → AllNew sha256 installs d)
    (hE : ∀ mishaps d, NoFailure mishaps → I d → E .io mishaps d) :
    (hasHash sha256 f.targetPath f.expectedSha256).Meets (fun mishaps d => FailsAtMostOnce mishaps ∧ I d)
      (fun installed mishaps d => FailsAtMostOnce mishaps ∧ I d ∧ installed = true) E K := by
  refine Program.meets_bind (computeSha256_once ?_ hE) fun actual => Program.meets_pure ?_
  · intro mishaps d _ hs hnone
    obtain ⟨content, hfile, -⟩ := hI d hs f hf
    rw [hnone] at hfile
    nomatch hfile
  · rintro mishaps d ⟨hm, hs, content, hfile, rfl⟩
    obtain ⟨content', hfile', hequal⟩ := hI d hs f hf
    obtain rfl := Option.some.inj (hfile.symm.trans hfile')
    exact ⟨hm, hs, hequal⟩

/-- A target with the new content is left, or, where it cannot be read, its backup is put back. -/
theorem recoverTarget_finished (h : Transaction installs initial) (hf : f ∈ installs) :
    (recoverTarget sha256 f.targetPath (temporaryPath f.targetPath) (backupPath f.targetPath) f.expectedSha256).Meets
      (fun mishaps d => FailsAtMostOnce mishaps ∧ Finished sha256 installs initial d)
      (fun _ mishaps d => (FailsAtMostOnce mishaps ∧ Finished sha256 installs initial d) ∨
        NoFailure mishaps ∧ Reverted sha256 installs initial f d ∧ d.locals = []) E K := by
  let kept (d : Disk Text (List PreparedFile)) : Prop :=
    Finished sha256 installs initial d ∧ (d.files (backupPath f.targetPath)).isSome
  refine Program.meets_bind (Disk.meets_tryDelete_once fun d hs => Finished.writeTemporary h hs hf none) fun _ => ?_
  refine Program.meets_bind (Disk.meets_fileExists _) fun backupExists => Program.meets_when ?_ fun _ _ _ hs => .inl hs.1
  rintro rfl
  refine Program.meets_bind (R := fun targetExists mishaps d => FailsAtMostOnce mishaps ∧ kept d ∧ targetExists = true)
    (Program.meets_query ?_) fun targetExists => ?_
  · rintro mishaps d ⟨⟨hm, hs⟩, hsome⟩
    obtain ⟨content, hfile, -⟩ := hs.new f hf
    exact ⟨hm, ⟨hs, hsome.symm⟩, by rw [hfile]; rfl⟩
  refine Program.meets_of_imp (φ := targetExists = true) (fun _ _ hs => hs.2.2) ?_
  rintro rfl
  -- where the target cannot be read, nothing fails from there on
  refine Program.meets_bind (R := fun installed mishaps d =>
    (installed = true ∧ FailsAtMostOnce mishaps ∧ Finished sha256 installs initial d) ∨ installed = false ∧ NoFailure mishaps ∧ kept d) ?_
    fun installed => ?_
  · refine Program.meets_tryCatch (F := fun _ mishaps d => NoFailure mishaps ∧ kept d) ?_ fun _ => Program.meets_pure fun _ _ hs => .inr ⟨rfl, hs⟩
    rw [if_pos rfl]
    refine Program.meets_bind ((hasHash_finished (I := kept) hf (fun d hs => hs.1.new) fun _ _ hm hs => ⟨hm, hs⟩).from
      fun _ _ hs => ⟨hs.1, hs.2.1⟩) fun installed => ?_
    refine Program.meets_of_imp (φ := installed = true) (fun _ _ hs => hs.2.2) ?_
    rintro rfl
    refine Program.meets_bind (R := fun _ mishaps d => FailsAtMostOnce mishaps ∧ Finished sha256 installs initial d) ?_ fun _ =>
      Program.meets_pure fun _ _ hs => .inl ⟨rfl, hs⟩
    exact (Disk.meets_tryDelete_once fun d hs => Finished.dropBackup h hs hf).from fun _ _ hs => ⟨hs.1, hs.2.1.1⟩
  · cases installed with
    | true =>
      refine Program.meets_when nofun fun _ mishaps d hs => ?_
      rcases hs with ⟨-, hs⟩ | ⟨hfalse, -⟩
      · exact .inl hs
      · nomatch hfalse
    | false =>
      refine Program.meets_when (fun _ => ?_) nofun
      refine (Program.meets_of_completes (I := kept) (J := fun _ d => Reverted sha256 installs initial f d ∧ d.locals = []) ?_).weaken ?_
        (fun _ _ _ hs => .inr hs) (fun _ _ _ hs => hs) fun _ hs => hs
      · rintro d ⟨hs, hsome⟩
        obtain ⟨content, hbackup⟩ := Option.isSome_iff_exists.1 hsome
        refine Program.completes_bind (Program.completes_when (fun _ => Disk.completes_tryDelete ?_) nofun)
        refine Disk.completes_moveFile ((Disk.write_other _ _ (self_ne_backupPath _).symm).trans hbackup) ?_
        exact ⟨hs.revert h hf hbackup, hs.locals⟩
      · rintro mishaps d (⟨hfalse, -⟩ | ⟨-, hs⟩)
        · nomatch hfalse
        · exact hs

/-- The same program from two starts. -/
theorem meets_or {α : Type} {m : Installer α} {P P' : Mishaps → Disk Text (List PreparedFile) → Prop}
    {Q : α → Mishaps → Disk Text (List PreparedFile) → Prop} (hm : m.Meets P Q E K) (hm' : m.Meets P' Q E K) :
    m.Meets (fun mishaps d => P mishaps d ∨ P' mishaps d) Q E K :=
  fun mishaps d hs => hs.elim (hm mishaps d) (hm' mishaps d)

/-- In the first loop after all targets were replaced: nothing is prepared, or only a target whose backup was put back. -/
def Retrying (sha256 : Bytes → Text) (installs : List ComponentFileInstall) (initial : Files) (before : List ComponentFileInstall)
    (mishaps : Mishaps) (d : Disk Text (List PreparedFile)) : Prop :=
  (FailsAtMostOnce mishaps ∧ Finished sha256 installs initial d) ∨ ∃ f ∈ before, NoFailure mishaps ∧ Again sha256 installs initial f d

/-- The body of the first loop for a target whose turn comes when nothing is prepared. -/
theorem prepare_finished (h : Transaction installs initial) (hf : f ∈ installs) (hmem : f ∈ before) :
    (prepare sha256 f).Meets (fun mishaps d => FailsAtMostOnce mishaps ∧ Finished sha256 installs initial d)
      (fun _ => Retrying sha256 installs initial before) (fun _ _ => Finished sha256 installs initial) K := by
  have hE : ∀ (e : InstallException) mishaps d, FailsAtMostOnce mishaps → Finished sha256 installs initial d →
      Finished sha256 installs initial d := fun _ _ _ _ hs => hs
  refine Program.meets_bind (validateInstall_once hE) fun _ => ?_
  refine Program.meets_bind (createDirectory_once hE) fun _ => ?_
  refine Program.meets_bind (recoverTarget_finished h hf) fun _ => meets_or ?_ ?_
  · refine Program.meets_bind (R := fun targetExists mishaps d => FailsAtMostOnce mishaps ∧ Finished sha256 installs initial d ∧
      targetExists = true) (Program.meets_query ?_) fun targetExists => ?_
    · rintro mishaps d ⟨hm, hs⟩
      obtain ⟨content, hfile, -⟩ := hs.new f hf
      exact ⟨hm, hs, by rw [hfile]; rfl⟩
    refine Program.meets_of_imp (φ := targetExists = true) (fun _ _ hs => hs.2.2) ?_
    rintro rfl
    refine Program.meets_bind ((hasHash_finished hf (fun d hs => Finished.new hs) fun _ _ _ hs => hs).from fun _ _ hs => ⟨hs.1, hs.2.1⟩)
      fun installed => ?_
    refine Program.meets_of_imp (φ := installed = true) (fun _ _ hs => hs.2.2) ?_
    rintro rfl
    exact Program.meets_when nofun fun _ _ _ hs => .inl ⟨hs.1, hs.2.1⟩
  · refine (Program.meets_of_completes (I := fun d => Reverted sha256 installs initial f d ∧ d.locals = [])
      (J := fun _ => Again sha256 installs initial f) ?_).weaken (fun _ _ hs => hs) (fun _ _ _ hs => .inr ⟨f, hmem, hs⟩) (fun _ _ _ hs => hs)
      fun _ hs => hs
    rintro d ⟨hs, hlocals⟩
    obtain ⟨content, hfile, hdiffer⟩ := hs.target
    obtain ⟨source, hsource, hequal⟩ := (hs.checked_now hf).content
    refine Program.completes_bind (Program.completes_query (Program.completes_bind ?_))
    rw [hfile, Option.isSome_some, if_pos rfl]
    refine completes_hasHash hfile (Program.completes_when (fun _ => ?_) fun hinstalled => ?_)
    · refine Program.completes_bind (Disk.completes_tryDelete (Program.completes_bind ?_))
      refine Disk.completes_copyFile ((Disk.write_other _ _ (h.sources f hf f hf).2.1).trans hsource) (h.sources f hf f hf).2.1 ?_
      refine Program.completes_bind (completes_verifyHash ⟨source, Disk.write_self _ _ _, hequal⟩ ?_)
      refine Program.completes_bind (Program.completes_query ⟨0, (), _, ?_, fun _ _ => rfl⟩)
      have hreverted := (hs.writeTemporary h hf hf none).writeTemporary h hf hf (some source)
      obtain ⟨content', hfile', -⟩ := hreverted.target
      refine { reverted := { hreverted with }, locals := ?_, temporary := ⟨source, Disk.write_self _ _ _, hequal⟩ }
      dsimp only
      rw [hfile']
      simp [hlocals]
    · rw [hdiffer] at hinstalled
      nomatch hinstalled

theorem Again.writeTemporary (h : Transaction installs initial) (hs : Again sha256 installs initial f d) (hf : f ∈ installs)
    (hg : g ∈ installs) (hne : g ≠ f) (content : Option Bytes) : Again sha256 installs initial f (d.write (temporaryPath g.targetPath) content) where
  reverted := hs.reverted.writeTemporary h hf hg content
  locals := hs.locals
  temporary := by
    have hpath : temporaryPath f.targetPath ≠ temporaryPath g.targetPath := fun heq =>
      hne (List.inj_on_of_nodup_map h.distinct hg hf (temporaryPath_inj.1 heq).symm)
    rw [Holds, Disk.write_other _ _ hpath]
    exact hs.temporary

theorem Again.dropBackup (h : Transaction installs initial) (hs : Again sha256 installs initial f d) (hf : f ∈ installs)
    (hg : g ∈ installs) : Again sha256 installs initial f (d.write (backupPath g.targetPath) none) where
  reverted := hs.reverted.dropBackup h hf hg
  locals := hs.locals
  temporary := by
    rw [Holds, Disk.write_other _ _ (temporaryPath_ne_backupPath _ _)]
    exact hs.temporary

/-- The body of the first loop for another target, where no operation fails any more. -/
theorem prepare_again (h : Transaction installs initial) (hf : f ∈ installs) (hg : g ∈ installs) (hne : g ≠ f)
    (hs : Again sha256 installs initial f d) : (prepare sha256 g).Completes d (fun _ => Again sha256 installs initial f) := by
  refine Program.completes_bind (completes_validateInstall (hs.reverted.checked_now hg) ?_)
  refine Program.completes_bind (completes_createDirectory (Program.completes_bind ?_))
  have hrecovered : (recoverTarget sha256 g.targetPath (temporaryPath g.targetPath) (backupPath g.targetPath) g.expectedSha256).Completes d
      (fun _ => Again sha256 installs initial f) := by
    refine Program.completes_bind (Disk.completes_tryDelete (Program.completes_bind (Program.completes_query ?_)))
    have hs := hs.writeTemporary h hf hg hne none
    obtain ⟨content, hfile, hequal⟩ := hs.reverted.others g hg hne
    refine Program.completes_when (fun _ => ?_) fun _ => hs
    refine Program.completes_bind (Program.completes_query (Program.completes_bind (Program.completes_tryCatch ?_)))
    rw [hfile, Option.isSome_some, if_pos rfl]
    refine Program.completes_bind (completes_hasHash hfile ?_)
    rw [hequal]
    refine Program.completes_bind (Program.completes_when (fun _ => Disk.completes_tryDelete (Program.completes_pure ?_)) nofun)
    exact Program.completes_when nofun fun _ => hs.dropBackup h hf hg
  refine hrecovered.mono fun _ d' hs => ?_
  obtain ⟨content, hfile, hequal⟩ := hs.reverted.others g hg hne
  refine Program.completes_bind (Program.completes_query (Program.completes_bind ?_))
  rw [hfile, Option.isSome_some, if_pos rfl]
  refine completes_hasHash hfile (Program.completes_when (fun hinstalled => ?_) fun _ => hs)
  rw [hequal] at hinstalled
  nomatch hinstalled

/-- The second and the third loop for the target whose backup was put back. -/
theorem commits_again (h : Transaction installs initial) (hf : f ∈ installs) (hs : Again sha256 installs initial f d) :
    (do
      d.locals.forM (commit sha256)
      d.locals.forM (fun item => tryDelete item.backupPath) : Installer Unit).Completes d (fun _ => AllNew sha256 installs) := by
  obtain ⟨old, hold, -⟩ := hs.reverted.target
  obtain ⟨new, hnew, hequal⟩ := hs.temporary
  have hother : ∀ g ∈ installs, g ≠ f → ∀ d' : Disk Text (List PreparedFile), d'.files g.targetPath = d.files g.targetPath →
      Holds sha256 d'.files g.targetPath g.expectedSha256 := by
    intro g hg hne d' hsame
    rw [Holds, hsame]
    exact hs.reverted.others g hg hne
  rw [hs.locals]
  refine Program.completes_bind (Program.completes_bind ?_)
  -- the backup is removed, the target moved there, and the temporary file moved to the target
  refine Program.completes_bind (Disk.completes_tryDelete (Program.completes_bind (Program.completes_when (fun _ => ?_) (fun h => by cases h))))
  refine Disk.completes_moveFile ((Disk.write_other _ _ (self_ne_backupPath _)).trans hold) (Program.completes_bind ?_)
  refine Disk.completes_moveFile (?_ : _ = some new) ?_
  · rw [Disk.write_other _ _ (temporaryPath_ne_backupPath _ _), Disk.write_other _ _ (self_ne_temporaryPath _).symm,
      Disk.write_other _ _ (temporaryPath_ne_backupPath _ _)]
    exact hnew
  refine completes_verifyHash ⟨new, Disk.write_self _ _ _, hequal⟩ (Program.completes_pure ?_)
  refine Program.completes_bind (Disk.completes_tryDelete (Program.completes_pure ?_))
  intro g hg
  by_cases hgf : g = f
  · subst hgf
    rw [Holds, Disk.write_other _ _ (self_ne_backupPath _), Disk.write_self]
    exact ⟨new, rfl, hequal⟩
  · have htarget : g.targetPath ≠ f.targetPath := fun heq => hgf (List.inj_on_of_nodup_map h.distinct hg hf heq)
    obtain ⟨htemporary, hbackup⟩ := h.apart g hg f hf
    refine hother g hg hgf _ ?_
    rw [Disk.write_other _ _ hbackup, Disk.write_other _ _ htarget, Disk.write_other _ _ htemporary, Disk.write_other _ _ hbackup,
      Disk.write_other _ _ htarget, Disk.write_other _ _ hbackup]

/-- A retry after all targets were replaced leaves the new contents. -/
theorem install_finished (h : Transaction installs initial) (hne : installs ≠ []) :
    (install sha256 installs).Meets
      (fun mishaps d => FailsAtMostOnce mishaps ∧ Left sha256 installs initial d ∧ AllNew sha256 installs d)
      (fun _ _ => AllNew sha256 installs) (fun _ _ => AllNew sha256 installs) K := by
  rw [install_of_distinct hne h.distinct]
  refine Program.meets_bind (R := fun _ mishaps d => FailsAtMostOnce mishaps ∧ Finished sha256 installs initial d) (Program.meets_assign ?_)
    fun _ => ?_
  · rintro mishaps d ⟨hm, hleft, hnew⟩
    exact ⟨hm, { left := { hleft with prepared := nofun }, locals := rfl, new := hnew }⟩
  refine Program.meets_tryCatch (F := fun _ _ => Finished sha256 installs initial) ?_ fun e => ?_
  · refine Program.meets_bind (R := fun _ => Retrying sha256 installs initial installs) (Program.meets_forM
      (I := fun before _ => Retrying sha256 installs initial before) (fun _ _ => .inl) ?_ fun _ _ hs => hs) fun _ => ?_
    · intro before f after hsplit
      have hf : f ∈ installs := hsplit ▸ List.mem_append_right _ List.mem_cons_self
      refine meets_or (prepare_finished h hf (List.mem_append_right _ (List.mem_singleton_self f))) ?_
      rintro mishaps d ⟨g, hg, hm, hs⟩
      have hginstalls : g ∈ installs := hsplit ▸ List.mem_append_left _ hg
      have hgf : f ≠ g := fun heq => target_ne_of_split h.startable hsplit hg (congrArg _ heq.symm)
      exact (Program.meets_of_completes (I := fun d => Again sha256 installs initial g d) fun d hs =>
        prepare_again h hginstalls hf hgf hs).weaken (fun _ _ hs => hs)
        (fun _ _ _ hs => .inr ⟨g, List.mem_append_left _ hg, hs⟩) (fun _ _ _ hs => hs) (fun _ hs => hs) mishaps d ⟨hm, hs⟩
    · refine Program.meets_bind (R := fun prepared mishaps d => Retrying sha256 installs initial installs mishaps d ∧ prepared = d.locals)
        (Program.meets_query fun _ _ hs => ⟨hs, rfl⟩) fun prepared => ?_
      rintro mishaps d ⟨⟨hm, hs⟩ | ⟨f, hf, hm, hs⟩, rfl⟩
      · rw [hs.locals]
        exact hs.new
      · refine (Program.meets_of_completes (I := fun d' => d' = d) (J := fun _ => AllNew sha256 installs) ?_).weaken (fun _ _ hs => hs)
          (fun _ _ _ hs => hs.2) (fun _ _ _ hs => hs) (fun _ hs => hs) mishaps d ⟨hm, rfl⟩
        rintro d' rfl
        exact commits_again h hf hs
  · refine Program.meets_bind (R := fun prepared _ d => Finished sha256 installs initial d ∧ prepared = d.locals)
      (Program.meets_query fun _ _ hs => ⟨hs, rfl⟩) fun prepared => ?_
    refine Program.meets_of_imp (φ := prepared = []) (fun _ _ hs => hs.2.trans hs.1.locals) ?_
    rintro rfl
    exact Program.meets_bind (R := fun _ _ => Finished sha256 installs initial) (Program.meets_pure fun _ _ hs => hs.1)
      fun _ => Program.meets_raise fun _ _ hs => hs.new

/-- A retry of which the first operation fails leaves the targets as they are. -/
theorem install_failing (h : Transaction installs initial) (hne : installs ≠ []) {files : Files} :
    (install sha256 installs).Meets (fun mishaps d => mishaps = [some (.fail 0)] ∧ d.files = files) (fun _ _ _ => False)
      (fun _ _ d => d.files = files) K := by
  rw [install_of_distinct hne h.distinct]
  refine Program.meets_bind (R := fun _ mishaps d => mishaps = [some (.fail 0)] ∧ d.files = files ∧ d.locals = [])
    (Program.meets_assign fun _ _ hs => ⟨hs.1, hs.2, rfl⟩) fun _ => ?_
  refine Program.meets_tryCatch (F := fun _ _ d => d.files = files ∧ d.locals = []) ?_ fun e => ?_
  · obtain ⟨f, rest, rfl⟩ := List.exists_cons_of_ne_nil hne
    refine Program.meets_bind (R := fun _ _ _ => False) (Program.meets_bind (R := fun _ _ _ => False)
      (Program.meets_bind (R := fun _ _ _ => False) ?_ fun _ => meets_of_false fun _ _ => id) fun _ => meets_of_false fun _ _ => id)
      fun _ => meets_of_false fun _ _ => id
    refine Program.meets_bind (R := fun _ mishaps d => mishaps = [some (.fail 0)] ∧ d.files = files ∧ d.locals = [])
      (Program.meets_query fun _ _ hs => hs) fun sourceExists => ?_
    split
    · exact Program.meets_raise fun _ _ hs => hs.2
    split
    · exact Program.meets_raise fun _ _ hs => hs.2
    split
    · exact Program.meets_raise fun _ _ hs => hs.2
    · rintro mishaps d ⟨rfl, hs⟩
      exact hs
  · refine Program.meets_bind (R := fun prepared _ d => (d.files = files ∧ d.locals = []) ∧ prepared = d.locals)
      (Program.meets_query fun _ _ hs => ⟨hs, rfl⟩) fun prepared => ?_
    refine Program.meets_of_imp (φ := prepared = []) (fun _ _ hs => hs.2.trans hs.1.2) ?_
    rintro rfl
    exact Program.meets_bind (R := fun _ _ d => d.files = files) (Program.meets_pure fun _ _ hs => hs.1.1)
      fun _ => Program.meets_raise fun _ _ hs => hs

/-- What is recovered in a state without new contents has no backups. -/
theorem Left.startable (h : Transaction installs initial) (hleft : Left sha256 installs initial d)
    (hold : ∀ f ∈ installs, d.files f.targetPath = initial f.targetPath) : Startable installs d.files := by
  refine { h with noBackup := fun f hf => (hleft.backed f hf).resolve_right ?_ }
  rintro ⟨hsome, -, hdiffer, hnone | hnew⟩
  · rw [← hold f hf, hnone] at hsome
    nomatch hsome
  · rw [Holds, hold f hf] at hnew
    exact hdiffer hnew

end InterruptedAux

open InterruptedAux

/-- The digests of the files with the bytes 0 and 1. -/
def digestOfByte (content : Bytes) : Text :=
  if content = [1] then "4BF5122F344554C53BDE2EBB8CD2B7E3D1600AD631C385A5D7CCE23C7785459A".toList
  else "6E340B9CFFB37A989CA544E6BB780A2C78901D3FB33738768511A30617AFA01D".toList

/-- A file of the cache over one of the game. -/
def cachedFile (name : Text) : ComponentFileInstall where
  sourcePath := "c:\\cache\\".toList ++ name
  targetPath := "c:\\game\\".toList ++ name
  expectedSha256 := digestOfByte [1]

def twoFiles : List ComponentFileInstall := [cachedFile "core.exe".toList, cachedFile "wintun.dll".toList]

/-- The cache holds the byte 1, the game the byte 0. -/
def twoOldFiles : Disk Text (List PreparedFile) where
  files path :=
    if twoFiles.any (·.sourcePath = path) then some [1] else if twoFiles.any (·.targetPath = path) then some [0] else none
  locals := []

theorem transaction_twoFiles : Transaction twoFiles twoOldFiles.files where
  distinct := by decide
  apart := by decide
  clean := by decide
  sources := by decide

end Scbl.Launcher.TransactionalComponentInstaller
