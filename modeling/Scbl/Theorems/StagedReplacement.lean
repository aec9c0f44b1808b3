import Scbl.Launcher.StagedComponentBootstrapService
import Scbl.Lib.Run

/-!
# What a replacement leaves

A replacement puts the target aside before the new file takes its place, and begins by removing what an earlier one put aside. From a
target in place one of the two versions is at the target or beside it at all times, whatever befalls. An attempt that was killed between
the two moves leaves the old version only beside the target, and there the next attempt removes it.
-/

namespace Scbl.Launcher.StagedComponentBootstrapService

open Scbl.Lib
open TransactionalComponentInstaller (temporaryPath backupPath temporaryPath_ne_backupPath self_ne_temporaryPath self_ne_backupPath)

/-- A path holds one of the two versions, complete. -/
def HoldsVersion (old new : Bytes) (d : Disk Text Unit) (path : Text) : Prop := d.files path = some old ∨ d.files path = some new

/-- One of the two versions is at the target or beside it. -/
def Survives (old new : Bytes) (target : Text) (d : Disk Text Unit) : Prop :=
  HoldsVersion old new d target ∨ HoldsVersion old new d (backupPath target)

/-- The target is in place, and what may be beside it is one of the two versions. -/
def InPlace (old new : Bytes) (target : Text) (d : Disk Text Unit) : Prop :=
  HoldsVersion old new d target ∧ (d.files (backupPath target) = none ∨ HoldsVersion old new d (backupPath target))

/-- The source is the new version, where it is still there. -/
def Sourced (new : Bytes) (source : Text) (d : Disk Text Unit) : Prop := d.files source = none ∨ d.files source = some new

namespace ReplacementAux

variable {sha256 : Bytes → Text} {source target expected : Text} {old new : Bytes} {d : Disk Text Unit}

/-- What is at a path is one of the two versions. -/
def OnlyVersions (old new : Bytes) (d : Disk Text Unit) (path : Text) : Prop :=
  d.files path = none ∨ HoldsVersion old new d path

/-- Only the two versions are at the source, at the target and beside it. -/
structure Versioned (old new : Bytes) (source target : Text) (d : Disk Text Unit) : Prop where
  atSource : OnlyVersions old new d source
  atTarget : OnlyVersions old new d target
  atBackup : OnlyVersions old new d (backupPath target)

/-- What an attempt keeps at all times. -/
structure Kept (old new : Bytes) (source target : Text) (d : Disk Text Unit) : Prop extends Versioned old new source target d where
  survives : Survives old new target d

/-- What an attempt keeps while the target is in place. -/
structure Ready (old new : Bytes) (source target : Text) (d : Disk Text Unit) : Prop extends Versioned old new source target d where
  held : HoldsVersion old new d target

theorem Ready.kept (h : Ready old new source target d) : Kept old new source target d where
  toVersioned := h.toVersioned
  survives := .inl h.held

/-- Removing a file leaves only versions. -/
theorem OnlyVersions.delete {path : Text} (h : OnlyVersions old new d path) (removed : Text) :
    OnlyVersions old new (d.write removed none) path := by
  by_cases hpath : path = removed
  · subst hpath
    exact .inl (Disk.write_self d path none)
  · rwa [OnlyVersions, HoldsVersion, Disk.write_other d none hpath]

/-- Writing one of the versions leaves only versions. -/
theorem OnlyVersions.put {path written : Text} (h : OnlyVersions old new d path) {content : Bytes} (hcontent : content = old ∨ content = new) :
    OnlyVersions old new (d.write written (some content)) path := by
  by_cases hpath : path = written
  · subst hpath
    refine .inr ?_
    rw [HoldsVersion, Disk.write_self]
    exact hcontent.imp (congrArg some) (congrArg some)
  · rwa [OnlyVersions, HoldsVersion, Disk.write_other d _ hpath]

theorem Versioned.delete (h : Versioned old new source target d) (removed : Text) : Versioned old new source target (d.write removed none) :=
  ⟨h.atSource.delete removed, h.atTarget.delete removed, h.atBackup.delete removed⟩

theorem Versioned.put (h : Versioned old new source target d) (written : Text) {content : Bytes} (hcontent : content = old ∨ content = new) :
    Versioned old new source target (d.write written (some content)) :=
  ⟨h.atSource.put hcontent, h.atTarget.put hcontent, h.atBackup.put hcontent⟩

/-- A file that is there is one of the versions. -/
theorem OnlyVersions.version {path : Text} (h : OnlyVersions old new d path) {content : Bytes} (hfile : d.files path = some content) :
    content = old ∨ content = new := by
  rcases h with h | h | h
  · rw [hfile] at h
    nomatch h
  · exact .inl (Option.some.inj (hfile.symm.trans h))
  · exact .inr (Option.some.inj (hfile.symm.trans h))

theorem HoldsVersion.write_other {path written : Text} (h : HoldsVersion old new d path) (content : Option Bytes) (hne : path ≠ written) :
    HoldsVersion old new (d.write written content) path := by
  rwa [HoldsVersion, Disk.write_other d content hne]

/-- Removing a file other than the target keeps it in place. -/
theorem Ready.delete (h : Ready old new source target d) {removed : Text} (hne : target ≠ removed) :
    Ready old new source target (d.write removed none) where
  toVersioned := h.toVersioned.delete removed
  held := HoldsVersion.write_other h.held none hne

/-- Writing the temporary file, which is not the source, keeps the target in place. -/
theorem Ready.writeTemporary (h : Ready old new source target d) (hne : source ≠ temporaryPath target) (content : Option Bytes) :
    Ready old new source target (d.write (temporaryPath target) content) where
  atSource := by
    rw [OnlyVersions, HoldsVersion, Disk.write_other d content hne]
    exact h.atSource
  atTarget := by
    rw [OnlyVersions, HoldsVersion, Disk.write_other d content (self_ne_temporaryPath target)]
    exact h.atTarget
  atBackup := by
    rw [OnlyVersions, HoldsVersion, Disk.write_other d content (temporaryPath_ne_backupPath target target).symm]
    exact h.atBackup
  held := HoldsVersion.write_other h.held content (self_ne_temporaryPath target)

/-- Removing the temporary file keeps a version. -/
theorem Kept.deleteTemporary (h : Kept old new source target d) : Kept old new source target (d.write (temporaryPath target) none) where
  toVersioned := h.toVersioned.delete _
  survives := h.survives.imp (fun hheld => HoldsVersion.write_other hheld none (self_ne_temporaryPath target))
    fun hheld => HoldsVersion.write_other hheld none (temporaryPath_ne_backupPath target target).symm

/-- The target put aside. -/
theorem Ready.putAside (h : Ready old new source target d) {content : Bytes} (hfile : d.files target = some content) :
    Kept old new source target ((d.write target none).write (backupPath target) (some content)) where
  toVersioned := (h.toVersioned.delete target).put _ (h.atTarget.version hfile)
  survives := by
    refine .inr ?_
    rw [HoldsVersion, Disk.write_self]
    exact (h.atTarget.version hfile).imp (congrArg some) (congrArg some)

/-- A version moved to the target is in place. -/
theorem Kept.place (h : Kept old new source target d) (moved : Text) {content : Bytes} (hcontent : content = old ∨ content = new) :
    Ready old new source target ((d.write moved none).write target (some content)) where
  toVersioned := (h.toVersioned.delete moved).put target hcontent
  held := by
    rw [HoldsVersion, Disk.write_self]
    exact hcontent.imp (congrArg some) (congrArg some)

/-! ### An attempt from a target in place -/

section Rules

variable {I : Disk Text Unit → Prop} {E : ReplaceException → Mishaps → Disk Text Unit → Prop} {K : Disk Text Unit → Prop}

theorem createDirectory_any (hE : ∀ mishaps d, I d → E .io mishaps d) (hK : ∀ d, I d → K d) :
    createDirectory.Meets (fun _ d => I d) (fun _ _ d => I d) E K := by
  refine Program.meets_operation_any (J := fun _ d => I d) ?_ nofun (fun mishaps d _ => hE mishaps d) (fun d _ => hK d)
  intro d _ d' hI hstep
  obtain ⟨-, rfl⟩ := Prod.mk.inj (Except.ok.inj hstep)
  exact hI

theorem requireHash_any {path message : Text} (hE : ∀ e mishaps d, I d → E e mishaps d) (hK : ∀ d, I d → K d) :
    (requireHash sha256 path expected message).Meets (fun _ d => I d) (fun _ _ d => I d) E K := by
  refine Program.meets_bind (Disk.meets_readFile_any (fun mishaps d => hE _ mishaps d) hK) fun content => ?_
  refine Program.meets_when (fun _ => ?_) fun _ _ _ hs => hs.1
  exact Program.meets_raise fun mishaps d hs => hE _ mishaps d hs.1

end Rules

/-- The new file takes the place of the target, and one of the versions is kept whatever befalls. -/
theorem exchange_any :
    (do
      Disk.copyFile .io source (temporaryPath target)
      requireHash sha256 (temporaryPath target) expected "staged component temporary file hash mismatch".toList
      let targetExists ← Disk.fileExists target
      Program.when targetExists (Disk.moveFile .io target (backupPath target))
      Disk.moveFile .io (temporaryPath target) target
      requireHash sha256 target expected "staged component installed file hash mismatch".toList
      tryDelete (backupPath target) : Replacement Unit).Meets (fun _ d => Ready old new source target d)
        (fun _ _ d => Kept old new source target d) (fun _ _ d => Kept old new source target d) (Kept old new source target) := by
  refine Program.meets_bind (Disk.meets_copyFile_any (fun hne d content hs => hs.writeTemporary hne content) (fun _ _ hs => hs.kept)
    (fun _ hs => hs.kept)) fun _ => ?_
  refine Program.meets_bind (R := fun _ _ d => Ready old new source target d ∧ HoldsVersion old new d (temporaryPath target)) ?_ fun _ => ?_
  · refine (requireHash_any (I := fun d => Ready old new source target d ∧ HoldsVersion old new d (temporaryPath target))
      (fun _ _ d hs => hs.1.kept) (fun d hs => hs.1.kept)).from ?_
    rintro _ d ⟨hs, content, hsource, htemporary⟩
    refine ⟨hs, ?_⟩
    rw [HoldsVersion, htemporary]
    exact (hs.atSource.version hsource).imp (congrArg some) (congrArg some)
  refine Program.meets_bind (Disk.meets_fileExists target) fun targetExists => ?_
  refine Program.meets_bind (R := fun _ _ d => Kept old new source target d ∧ HoldsVersion old new d (temporaryPath target)) ?_ fun _ => ?_
  · refine Program.meets_when (fun _ => ?_) fun _ _ d hs => ⟨hs.1.1.kept, hs.1.2⟩
    refine (Disk.meets_moveFile_any (I := fun d => Ready old new source target d ∧ HoldsVersion old new d (temporaryPath target))
      (J := fun d => Kept old new source target d ∧ HoldsVersion old new d (temporaryPath target)) ?_
      (fun _ d hs => hs.1.kept) (fun d hs => hs.1.kept)).from fun _ _ hs => hs.1
    rintro d content ⟨hs, htemporary⟩ hfile
    refine ⟨hs.putAside hfile, ?_⟩
    exact HoldsVersion.write_other (HoldsVersion.write_other htemporary none (self_ne_temporaryPath target).symm) _
      (temporaryPath_ne_backupPath target target)
  refine Program.meets_bind (R := fun _ _ d => Ready old new source target d) ?_ fun _ => ?_
  · refine Disk.meets_moveFile_any (I := fun d => Kept old new source target d ∧ HoldsVersion old new d (temporaryPath target)) ?_
      (fun _ d hs => hs.1) (fun d hs => hs.1)
    rintro d content ⟨hs, htemporary⟩ hfile
    exact hs.place _ (OnlyVersions.version (.inr htemporary) hfile)
  refine Program.meets_bind (requireHash_any (fun _ _ d hs => hs.kept) (fun d hs => hs.kept)) fun _ => ?_
  refine (Disk.meets_tryDelete_any (I := Ready old new source target) (fun d hs => hs.delete (self_ne_backupPath target))
    (fun d hs => hs.kept)).weaken (fun _ _ hs => hs) (fun _ _ _ hs => hs.kept) (fun _ _ _ hs => hs) (fun _ hs => hs)

/-- What is put aside is put back, and one of the versions is kept whatever befalls. -/
theorem restore_any (e : ReplaceException) :
    (do
      tryDelete (temporaryPath target)
      let backupExists ← Disk.fileExists (backupPath target)
      Program.when backupExists (Disk.moveFile .io (backupPath target) target)
      .raise e : Replacement Unit).Meets (fun _ d => Kept old new source target d)
        (fun _ _ d => Kept old new source target d) (fun _ _ d => Kept old new source target d) (Kept old new source target) := by
  refine Program.meets_bind (Disk.meets_tryDelete_any (fun d hs => hs.deleteTemporary) fun d hs => hs) fun _ => ?_
  refine Program.meets_bind (Disk.meets_fileExists _) fun backupExists => ?_
  refine Program.meets_bind (R := fun _ _ d => Kept old new source target d) ?_ fun _ => Program.meets_raise fun _ _ hs => hs
  refine Program.meets_when (fun _ => ?_) fun _ _ _ hs => hs.1
  refine (Disk.meets_moveFile_any (I := Kept old new source target) ?_ (fun _ d hs => hs) (fun d hs => hs)).from fun _ _ hs => hs.1
  exact fun d content hs hfile => (hs.place _ (hs.atBackup.version hfile)).kept

/-- An attempt from a target in place keeps one of the versions whatever befalls. -/
theorem replaceFileAtomically_any :
    (replaceFileAtomically sha256 source target expected).Meets (fun _ d => Ready old new source target d)
      (fun _ _ d => Kept old new source target d) (fun _ _ d => Kept old new source target d) (Kept old new source target) := by
  refine Program.meets_bind (createDirectory_any (fun _ d hs => hs.kept) (fun d hs => hs.kept)) fun _ => ?_
  refine Program.meets_bind (Disk.meets_tryDelete_any (fun d hs => hs.delete (self_ne_temporaryPath target)) (fun d hs => hs.kept))
    fun _ => ?_
  refine Program.meets_bind (Disk.meets_tryDelete_any (fun d hs => hs.delete (self_ne_backupPath target)) (fun d hs => hs.kept))
    fun _ => ?_
  exact Program.meets_tryCatch exchange_any restore_any

/-! ### An attempt from any other state -/

variable {Q : Disk Text Unit → Prop}

/-- After an exception the temporary file is removed, and a backup takes the place of the target. -/
theorem may_restore (e : ReplaceException) (habsent : d.files (backupPath target) = none → Q (d.write (temporaryPath target) none))
    (hpresent : ∀ content, d.files (backupPath target) = some content →
      Q (((d.write (temporaryPath target) none).write (backupPath target) none).write target (some content))) :
    (do
      tryDelete (temporaryPath target)
      let backupExists ← Disk.fileExists (backupPath target)
      Program.when backupExists (Disk.moveFile .io (backupPath target) target)
      .raise e : Replacement Unit).May d (fun _ => Q) := by
  have hsame : (d.write (temporaryPath target) none).files (backupPath target) = d.files (backupPath target) :=
    Disk.write_other d none (temporaryPath_ne_backupPath target target).symm
  refine Program.may_bind (Program.Completes.may (Disk.completes_tryDelete ?_))
  refine Program.may_bind (Program.Completes.may (Program.completes_query ?_))
  refine Program.may_bind (Program.Completes.may (Program.completes_when ?_ ?_))
  · intro hfound
    obtain ⟨content, hfile⟩ := Option.isSome_iff_exists.1 hfound
    exact Disk.completes_moveFile hfile (Program.may_raise (hpresent content (hsame ▸ hfile)))
  · intro hmissing
    refine Program.may_raise (habsent ?_)
    rw [← hsame]
    exact Option.not_isSome_iff_eq_none.1 (Bool.eq_false_iff.1 hmissing)

/-- An attempt may end at the copy, after the backup was removed or left. -/
theorem may_end_at_copy (cleared : Disk Text Unit)
    (hbackup : ∀ {R : Except ReplaceException Unit → Disk Text Unit → Prop}, R (.ok ()) cleared →
      (tryDelete (backupPath target)).May (d.write (temporaryPath target) none) R)
    (habsent : cleared.files (backupPath target) = none → Q (cleared.write (temporaryPath target) none))
    (hpresent : ∀ content, cleared.files (backupPath target) = some content →
      Q (((cleared.write (temporaryPath target) none).write (backupPath target) none).write target (some content))) :
    (replaceFileAtomically sha256 source target expected).May d (fun _ => Q) := by
  refine Program.may_bind (Program.Completes.may (Program.completes_operation rfl ?_))
  refine Program.may_bind (Program.Completes.may (Disk.completes_tryDelete ?_))
  refine Program.may_bind (hbackup ?_)
  refine Program.may_tryCatch (Program.may_bind (Disk.may_not_copy ?_))
  exact may_restore .io habsent hpresent

/-- An attempt from a target that is not in place may remove the only version. -/
theorem may_lose_backup (htarget : ¬ HoldsVersion old new d target) :
    (replaceFileAtomically sha256 source target expected).May d (fun _ after => ¬ Survives old new target after) := by
  refine may_end_at_copy ((d.write (temporaryPath target) none).write (backupPath target) none)
    (fun h => Program.Completes.may (Disk.completes_tryDelete h)) ?_ ?_
  · intro hnone
    rintro (h | h)
    · rw [HoldsVersion, Disk.write_other _ _ (self_ne_temporaryPath target), Disk.write_other _ _ (self_ne_backupPath target),
        Disk.write_other _ _ (self_ne_temporaryPath target)] at h
      exact htarget h
    · rw [HoldsVersion, Disk.write_other _ _ (temporaryPath_ne_backupPath target target).symm, hnone] at h
      exact h.elim nofun nofun
  · intro content hfile
    rw [Disk.write_self] at hfile
    nomatch hfile

/-- An attempt beside a backup that is neither of the versions may put it in the place of the target. -/
theorem may_restore_other {content : Bytes} (hfile : d.files (backupPath target) = some content)
    (hother : ¬ HoldsVersion old new d (backupPath target)) :
    (replaceFileAtomically sha256 source target expected).May d (fun _ after => ¬ Survives old new target after) := by
  have hleft : (d.write (temporaryPath target) none).files (backupPath target) = some content :=
    (Disk.write_other d none (temporaryPath_ne_backupPath target target).symm).trans hfile
  refine may_end_at_copy (d.write (temporaryPath target) none) (fun h => Disk.may_keep h) ?_ ?_
  · intro hnone
    rw [hleft] at hnone
    nomatch hnone
  · intro content' hfile'
    obtain rfl := Option.some.inj (hleft.symm.trans hfile')
    rintro (h | h)
    · rw [HoldsVersion, Disk.write_self, ← hfile] at h
      exact hother h
    · rw [HoldsVersion, Disk.write_other _ _ (self_ne_backupPath target).symm, Disk.write_self] at h
      exact h.elim nofun nofun

/-- What may befall an attempt, as its state. -/
theorem exists_mishaps (h : (replaceFileAtomically sha256 source target expected).May d (fun _ => Q)) :
    ∃ mishaps, Q (attempt sha256 source target expected d mishaps).1 := by
  obtain ⟨befalls, r, after, hafter, hrun⟩ := h
  refine ⟨befalls ++ [], ?_⟩
  rw [attempt, hrun]
  cases r with
  | ok _ => exact hafter
  | error _ => exact hafter

/-- What an attempt from a target in place leaves, whatever befalls. -/
theorem attempt_kept (h : InPlace old new target d) (hsource : OnlyVersions old new d source) (mishaps : Mishaps) :
    Kept old new source target (attempt sha256 source target expected d mishaps).1 :=
  replaceFileAtomically_any.state mishaps
    { atSource := hsource, atTarget := .inr h.1, atBackup := h.2, held := h.1 }

/-- An attempt keeps a version whatever befalls exactly when it begins with the target in place. -/
theorem attempt_survives_iff (hsource : OnlyVersions old new d source) :
    (∀ mishaps, Survives old new target (attempt sha256 source target expected d mishaps).1) ↔ InPlace old new target d := by
  constructor
  · intro h
    have hnever : ¬ (replaceFileAtomically sha256 source target expected).May d (fun _ after => ¬ Survives old new target after) := by
      intro hmay
      obtain ⟨mishaps, hlost⟩ := exists_mishaps hmay
      exact hlost (h mishaps)
    have htarget : HoldsVersion old new d target := by
      by_contra htarget
      exact hnever (may_lose_backup htarget)
    refine ⟨htarget, ?_⟩
    cases hfile : d.files (backupPath target) with
    | none => exact .inl rfl
    | some content =>
      refine .inr ?_
      by_contra hother
      exact hnever (may_restore_other hfile hother)
  · exact fun h mishaps => (attempt_kept h hsource mishaps).survives

/-- After attempts that each began with the target in place, one of the versions is kept and the source is as it was. -/
theorem run_kept (htarget : HoldsVersion old new d target) (hsource : OnlyVersions old new d source) {attempts : List Mishaps}
    (hattempts : ∀ t ∈ trace (attempt sha256 source target expected) d attempts, InPlace old new target t.before) :
    OnlyVersions old new (run (attempt sha256 source target expected) d attempts) source ∧
      Survives old new target (run (attempt sha256 source target expected) d attempts) := by
  refine (trace_inv_of (I := fun d => OnlyVersions old new d source ∧ Survives old new target d)
    (fun before _ => InPlace old new target before) ?_ ⟨hsource, .inl htarget⟩ hattempts).2
  intro before mishaps hs hplace
  have hkept : Kept old new source target (attempt sha256 source target expected before mishaps).1 := attempt_kept hplace hs.1 mishaps
  exact ⟨hkept.atSource, hkept.survives⟩

end ReplacementAux

open ReplacementAux

/-- In every run of attempts, each of which may fail or be killed at any operation, and which each began with the target in place, one of
the versions is at the target or beside it; whatever befalls the next attempt, it keeps one exactly when it also begins so. -/
theorem replacement_survives_iff (sha256 : Bytes → Text) (source target expected : Text) (old new : Bytes) (d : Disk Text Unit)
    (hold : d.files target = some old) (hsource : Sourced new source d) (attempts : List Mishaps)
    (hattempts : ∀ t ∈ trace (attempt sha256 source target expected) d attempts, InPlace old new target t.before) :
    let after := run (attempt sha256 source target expected) d attempts
    Survives old new target after ∧
      ((∀ mishaps, Survives old new target (attempt sha256 source target expected after mishaps).1) ↔ InPlace old new target after) := by
  intro after
  obtain ⟨hsource', hsurvives⟩ := run_kept (.inl hold) (hsource.imp_right .inr) hattempts
  exact ⟨hsurvives, attempt_survives_iff hsource'⟩

namespace ReplacementAux

/-- The updater in its first version, and its second version in the cache. -/
def staged : Disk Text Unit where
  files path :=
    if path = "c:\\game\\updater.exe".toList then some [0]
    else if path = "c:\\cache\\updater.exe".toList then some [1]
    else none
  locals := ()

/-- A digest of two files. -/
def digest (content : Bytes) : Text := if content = [1] then ['B'] else ['A']

/-- An attempt to install the second version. -/
def update : Disk Text Unit → Mishaps → Disk Text Unit × Unit :=
  attempt digest "c:\\cache\\updater.exe".toList "c:\\game\\updater.exe".toList ['B']

end ReplacementAux

/-- An attempt that is killed between its two moves keeps the first version. -/
theorem replacement_survives_kill :
    Survives [0] [1] "c:\\game\\updater.exe".toList (run update staged [List.replicate 4 none ++ [some (.kill 0)]]) := by
  refine (replacement_survives_iff digest "c:\\cache\\updater.exe".toList "c:\\game\\updater.exe".toList ['B'] [0] [1] staged rfl
    (.inr rfl) [List.replicate 4 none ++ [some (.kill 0)]] ?_).1
  intro t ht
  obtain rfl := List.mem_singleton.1 ht
  exact ⟨.inl rfl, .inl rfl⟩

/-- The attempt after one that was killed between its two moves removes the only version, and is killed. -/
theorem replacement_survives_false :
    staged.files "c:\\game\\updater.exe".toList = some [0] ∧ staged.files "c:\\cache\\updater.exe".toList = some [1] ∧
      ¬ Survives [0] [1] "c:\\game\\updater.exe".toList
        (run update staged [List.replicate 4 none ++ [some (.kill 0)], List.replicate 3 none ++ [some (.kill 0)]]) := by
  have hlost : (run update staged [List.replicate 4 none ++ [some (.kill 0)], List.replicate 3 none ++ [some (.kill 0)]]).files
        "c:\\game\\updater.exe".toList = none ∧
      (run update staged [List.replicate 4 none ++ [some (.kill 0)], List.replicate 3 none ++ [some (.kill 0)]]).files
        (backupPath "c:\\game\\updater.exe".toList) = none := by decide
  refine ⟨rfl, rfl, ?_⟩
  rintro (h | h)
  · rw [HoldsVersion, hlost.1] at h
    exact h.elim nofun nofun
  · rw [HoldsVersion, hlost.2] at h
    exact h.elim nofun nofun

end Scbl.Launcher.StagedComponentBootstrapService
