import Mathlib.Data.Countable.Basic
import Mathlib.Logic.Equiv.List
import Scbl.Launcher.LauncherSettings
import Scbl.Lib.Run

/-!
# The settings survive interrupted saves

A save first writes beside the settings file and then replaces it. Where it cannot, it copies the file over its backup before it copies the
new one over the file, so that the next save which has to do the same loses the backup of a file that was not written to its end.
-/

namespace Scbl.Launcher.LauncherSettingsService

open Scbl.Lib

/-- A save, and what befalls its operations. -/
structure SaveCall (windows : Windows) where
  settings : LauncherSettings
  guid : Guid windows
  mishaps : Mishaps

/-- The copies are stopped after the first one has begun and before the second one has written a text of some size. -/
def StopsCopies (size : Nat) : Mishaps → Prop
  | some (.fail n) :: _ => n ≠ 0
  | some (.kill n) :: _ => n ≠ 0
  | none :: some (.fail n) :: _ => n ≤ size
  | none :: some (.kill n) :: _ => n ≤ size
  | _ => False

/-- The next call is done, and then the rest befalls. -/
def AfterDone (befalls : Mishaps → Prop) : Mishaps → Prop
  | none :: mishaps => befalls mishaps
  | _ => False

/-- The next call is done or fails, and then the rest befalls. -/
def AfterAttempt (befalls : Mishaps → Prop) : Mishaps → Prop
  | attempt :: mishaps => (∀ k, attempt ≠ some (.kill k)) ∧ befalls mishaps
  | [] => False

/-- The next call fails, and then the rest befalls. -/
def AfterFailure (befalls : Mishaps → Prop) : Mishaps → Prop
  | some (.fail _) :: mishaps => befalls mishaps
  | _ => False

/-- After the temporary file is written and perhaps flushed the file cannot be replaced, and the copies that are made instead are stopped. -/
def StopsInstead (size : Nat) : Mishaps → Prop :=
  AfterDone (AfterDone (AfterDone (AfterDone (AfterAttempt (AfterFailure (StopsCopies size))))))

section Saves

variable (windows : Windows) (json : SettingsJson) (path : Text)

/-- The files after a save, and whether it was completed. -/
def saveStep (d : Disk Text Unit) (call : SaveCall windows) : Disk Text Unit × Bool :=
  let ended := (save windows json path call.guid call.settings).run call.mishaps d
  (ended.state, ended.isDone)

abbrev SaveTransition := Transition (Disk Text Unit) (SaveCall windows) Bool

/-- The copies that a load may find after a save: that of the save if it was completed, or else that or an earlier one. -/
def candidatesAfter (found : List LauncherSettings) (t : SaveTransition windows) : List LauncherSettings :=
  let copies := (savedCopy windows t.input.guid t.input.settings).toList
  if t.output then copies else copies ++ found

/-- The copies that a load may find: that of the last save that was completed, and those of the saves since. -/
def candidates (first : LauncherSettings) (past : List (SaveTransition windows)) : List LauncherSettings :=
  past.foldl (candidatesAfter windows) [first]

/-- A load finds the settings of one of the saves, but for the password, which is not written. -/
def LoadsOneOf (copies : List LauncherSettings) (d : Disk Text Unit) : Prop :=
  ∃ copy ∈ copies, readSettings json path d = some { copy with password := [] }

/-- The save finds a settings file that cannot be read, and is stopped while it copies instead of replacing it. -/
def LosesSettings (d : Disk Text Unit) (call : SaveCall windows) : Prop :=
  tryLoadFile json d path = none ∧
    ∃ copy, savedCopy windows call.guid call.settings = some copy ∧ StopsInstead (json.serialize copy).length call.mishaps

end Saves

namespace SettingsAux

theorem path_ne_backup (path : Text) : path ≠ backupPath path := by
  intro h
  have hlen := congrArg List.length h
  simp [backupPath] at hlen

theorem path_ne_temporary (path : Text) : path ≠ temporaryPath path := by
  intro h
  have hlen := congrArg List.length h
  simp [temporaryPath] at hlen

theorem backup_ne_temporary (path : Text) : backupPath path ≠ temporaryPath path := by
  intro h
  have hlast := List.append_cancel_left h
  nomatch hlast

/-- The file and its backup are as before, and the save is not completed. -/
def LeavesFiles (path : Text) (d : Disk Text Unit) (ended : Execution (Disk Text Unit) SettingsException Unit) : Prop :=
  ended.isDone = false ∧ ended.state.files path = d.files path ∧ ended.state.files (backupPath path) = d.files (backupPath path)

/-- The backup begins like the old file, and the file is the old one or the beginning of the new one beside it. -/
def LosesBackup (path : Text) (old new : Bytes) (ended : Execution (Disk Text Unit) SettingsException Unit) : Prop :=
  ended.isDone = false ∧
    ((ended.state.files path = some old ∧ ∃ n, ended.state.files (backupPath path) = some (old.take n)) ∨
      (∃ n, n < new.length ∧ ended.state.files path = some (new.take n)) ∧ ended.state.files (backupPath path) = some old)

/-- How a save of a new text ends where something is at the file, by whether its copies are stopped. -/
def EndsSave (path : Text) (old new : Bytes) (d : Disk Text Unit) (stops : Prop) (ended : Execution (Disk Text Unit) SettingsException Unit) : Prop :=
  (¬stops ∧ (LeavesFiles path d ended ∨ ended.state.files path = some new)) ∨ (stops ∧ LosesBackup path old new ended)

variable {path : Text} {old new : Bytes} {d : Disk Text Unit}

/-- Writing beside the file and its backup leaves these. -/
theorem EndsSave.of_write {content : Option Bytes} {stops : Prop} {ended : Execution (Disk Text Unit) SettingsException Unit}
    (h : EndsSave path old new (d.write (temporaryPath path) content) stops ended) : EndsSave path old new d stops ended := by
  rw [EndsSave, LeavesFiles, Disk.write_other d content (path_ne_temporary path), Disk.write_other d content (backup_ne_temporary path)] at h
  exact h

theorem endsSave_tryDelete {mishaps : Mishaps} {d' : Disk Text Unit} (h : d'.files path = some new) {stops : Prop} (hstops : ¬stops) :
    EndsSave path old new d stops ((Disk.tryDelete .io (temporaryPath path)).run mishaps d') := by
  refine .inl ⟨hstops, .inr ?_⟩
  refine Program.Meets.state (I := fun d : Disk Text Unit => d.files path = some new)
    (G := fun d : Disk Text Unit => d.files path = some new) ?_ mishaps h
  exact Disk.meets_tryDelete_any (fun d hd => (Disk.write_other d none (path_ne_temporary path)).trans hd) fun _ hd => hd

/-- The second copy, over the file. -/
theorem endsSave_secondCopy {mishaps : Mishaps} {d' : Disk Text Unit} (hnew : d'.files (temporaryPath path) = some new)
    (hpath : d'.files path = some old) (hbackup : d'.files (backupPath path) = some old) :
    EndsSave path old new d (StopsCopies new.length (none :: mishaps))
      ((Disk.copyFile .io (temporaryPath path) path >>= fun _ => Disk.tryDelete .io (temporaryPath path)).run mishaps d') := by
  have hne : temporaryPath path ≠ path := (path_ne_temporary path).symm
  -- what is left where the copy stops
  have hstop : ∀ n, let stopped := Disk.stopWriting path new n d'
      (n ≤ new.length ∧ stopped.files (backupPath path) = some old ∧
          (stopped.files path = some old ∨ ∃ m, m < new.length ∧ stopped.files path = some (new.take m))) ∨
        ¬n ≤ new.length ∧ stopped.files path = some new := by
    intro n
    cases n with
    | zero => exact .inl ⟨Nat.zero_le _, hbackup, .inl hpath⟩
    | succ m =>
      by_cases hm : m < new.length
      · refine .inl ⟨hm, ?_, .inr ⟨m, hm, Disk.write_self _ _ _⟩⟩
        exact (Disk.write_other d' _ (path_ne_backup path).symm).trans hbackup
      · refine .inr ⟨hm, (Disk.write_self _ _ _).trans ?_⟩
        rw [List.take_of_length_le (Nat.not_lt.1 hm)]
  have hended : ∀ n ended, ended.isDone = false → ended.state = Disk.stopWriting path new n d' →
      EndsSave path old new d (n ≤ new.length) ended := by
    intro n ended hdone hstate
    rw [EndsSave, LosesBackup, hstate]
    rcases hstop n with ⟨hn, hbackup', hpath' | hpath'⟩ | ⟨hn, hpath'⟩
    · exact .inr ⟨hn, hdone, .inl ⟨hpath', old.length, by rw [List.take_length, hbackup']⟩⟩
    · exact .inr ⟨hn, hdone, .inr ⟨hpath', hbackup'⟩⟩
    · exact .inl ⟨hn, .inr hpath'⟩
  rw [Program.run_bind, Disk.run_copyFile hnew hne]
  match mishaps with
  | some (.fail n) :: rest => exact hended n _ rfl rfl
  | some (.kill n) :: rest => exact hended n _ rfl rfl
  | none :: rest => exact endsSave_tryDelete (Disk.write_self _ _ _) id
  | [] => exact endsSave_tryDelete (Disk.write_self _ _ _) id

/-- The copies that are made instead. -/
theorem endsSave_copyInstead {mishaps : Mishaps} (hnew : d.files (temporaryPath path) = some new) (hpath : d.files path = some old) :
    EndsSave path old new d (StopsCopies new.length mishaps) ((copyInstead path).run mishaps d) := by
  have hne : path ≠ backupPath path := path_ne_backup path
  have hsome : (d.files path).isSome = true := by rw [hpath]; rfl
  rw [copyInstead, Program.run_bind, Disk.fileExists, Program.run_query, hsome]
  show EndsSave path old new d _ ((Disk.copyFile .io path (backupPath path) >>= fun _ =>
    Disk.copyFile .io (temporaryPath path) path >>= fun _ => Disk.tryDelete .io (temporaryPath path)).run mishaps d)
  have hended : ∀ n ended, ended.isDone = false → ended.state = Disk.stopWriting (backupPath path) old n d →
      EndsSave path old new d (n ≠ 0) ended := by
    intro n ended hdone hstate
    rw [EndsSave, LeavesFiles, LosesBackup, hstate]
    cases n with
    | zero => exact .inl ⟨fun h => h rfl, .inl ⟨hdone, rfl, rfl⟩⟩
    | succ m =>
      refine .inr ⟨Nat.succ_ne_zero m, hdone, .inl ⟨?_, m, Disk.write_self _ _ _⟩⟩
      exact (Disk.write_other d _ hne).trans hpath
  have hcopied : ∀ rest, EndsSave path old new d (StopsCopies new.length (none :: rest))
      ((Disk.copyFile .io (temporaryPath path) path >>= fun _ => Disk.tryDelete .io (temporaryPath path)).run rest
        (d.write (backupPath path) (some old))) := fun rest =>
    endsSave_secondCopy ((Disk.write_other d _ (backup_ne_temporary path).symm).trans hnew) ((Disk.write_other d _ hne).trans hpath)
      (Disk.write_self _ _ _)
  rw [Program.run_bind, Disk.run_copyFile hpath hne]
  match mishaps with
  | some (.fail n) :: rest => exact hended n _ rfl rfl
  | some (.kill n) :: rest => exact hended n _ rfl rfl
  | none :: rest => exact hcopied rest
  | [] => exact hcopied []

/-- The file is replaced, or the copies are made. -/
theorem endsSave_replace (hnew : d.files (temporaryPath path) = some new) (hpath : d.files path = some old) (mishaps : Mishaps) :
    EndsSave path old new d (AfterFailure (StopsCopies new.length) mishaps)
      ((Program.tryCatch
        (do
          let pathExists ← Disk.fileExists path
          if pathExists then replaceFile (temporaryPath path) path (backupPath path) else Disk.moveFile .io (temporaryPath path) path)
        (fun _ => copyInstead path)).run mishaps d) := by
  have hsome : (d.files path).isSome = true := by rw [hpath]; rfl
  rw [Program.run_tryCatch, Program.run_bind, Disk.fileExists, Program.run_query, hsome]
  show EndsSave path old new d _ (((replaceFile (temporaryPath path) path (backupPath path)).run mishaps d).orElse _)
  have hdone : ∀ mishaps : Mishaps, mishaps.head?.join = none → EndsSave path old new d False
      (((replaceFile (temporaryPath path) path (backupPath path)).run mishaps d).orElse fun _ => (copyInstead path).run) := by
    intro mishaps hhead
    rw [replaceFile, Program.run_operation_done hhead (by simp only [hnew, hpath]; rfl)]
    exact .inl ⟨id, .inr (Disk.write_self _ _ _)⟩
  match mishaps with
  | some (.fail n) :: rest =>
    rw [replaceFile, Program.run_operation_fail (k := n) rfl]
    exact endsSave_copyInstead hnew hpath
  | some (.kill n) :: rest =>
    rw [replaceFile, Program.run_operation_kill (k := n) rfl]
    exact .inl ⟨id, .inl ⟨rfl, rfl, rfl⟩⟩
  | none :: rest => exact hdone _ rfl
  | [] => exact hdone [] rfl

/-- A call after which the rest of the save runs, if nothing befalls it. -/
theorem endsSave_otherCall {rest : Saving Unit} {stops : Mishaps → Prop}
    (h : ∀ mishaps, EndsSave path old new d (stops mishaps) (rest.run mishaps d)) (hnil : ¬stops []) (mishaps : Mishaps) :
    EndsSave path old new d (AfterDone stops mishaps)
      ((otherCall >>= fun _ => rest).run mishaps d) := by
  rw [Program.run_bind]
  match mishaps with
  | some (.fail n) :: _ => exact .inl ⟨id, .inl ⟨rfl, rfl, rfl⟩⟩
  | some (.kill n) :: _ => exact .inl ⟨id, .inl ⟨rfl, rfl, rfl⟩⟩
  | none :: mishaps => exact h mishaps
  | [] =>
    have hend := h []
    rw [EndsSave, and_iff_right hnil, or_iff_left fun hand => hnil hand.1] at hend
    exact .inl ⟨id, hend⟩

/-- The temporary file is brought to the disk, if it can be. -/
theorem endsSave_flush {rest : Saving Unit} {stops : Mishaps → Prop}
    (h : ∀ mishaps, EndsSave path old new d (stops mishaps) (rest.run mishaps d)) (hnil : ¬stops []) (mishaps : Mishaps) :
    EndsSave path old new d (AfterAttempt stops mishaps)
      ((Program.tryCatch otherCall (fun _ => pure ()) >>= fun _ => rest).run mishaps d) := by
  rw [Program.run_bind, Program.run_tryCatch]
  match mishaps with
  | some (.fail n) :: mishaps =>
    have hend := h mishaps
    rwa [← and_iff_right (a := ∀ k, some (Mishap.fail n) ≠ some (.kill k)) (b := stops mishaps) nofun] at hend
  | some (.kill n) :: _ => exact .inl ⟨fun hand => hand.1 n rfl, .inl ⟨rfl, rfl, rfl⟩⟩
  | none :: mishaps =>
    have hend := h mishaps
    rwa [← and_iff_right (a := ∀ k, (none : Option Mishap) ≠ some (.kill k)) (b := stops mishaps) nofun] at hend
  | [] =>
    have hend := h []
    rw [EndsSave, and_iff_right hnil, or_iff_left fun hand => hnil hand.1] at hend
    exact .inl ⟨id, hend⟩

/-- The new text is written beside the file. -/
theorem endsSave_write {rest : Saving Unit} {stops : Mishaps → Prop}
    (h : ∀ mishaps, EndsSave path old new (d.write (temporaryPath path) (some new)) (stops mishaps)
      (rest.run mishaps (d.write (temporaryPath path) (some new)))) (hnil : ¬stops []) (mishaps : Mishaps) :
    EndsSave path old new d (AfterDone stops mishaps)
      ((Disk.writeFile .io (temporaryPath path) new >>= fun _ => rest).run mishaps d) := by
  have hleft : ∀ n ended, ended.isDone = false → ended.state = Disk.stopWriting (temporaryPath path) new n d → LeavesFiles path d ended := by
    intro n ended hdone hstate
    rw [LeavesFiles, hstate]
    cases n with
    | zero => exact ⟨hdone, rfl, rfl⟩
    | succ m => exact ⟨hdone, Disk.write_other d _ (path_ne_temporary path), Disk.write_other d _ (backup_ne_temporary path)⟩
  rw [Program.run_bind]
  match mishaps with
  | some (.fail n) :: _ => exact .inl ⟨id, .inl (hleft n _ rfl rfl)⟩
  | some (.kill n) :: _ => exact .inl ⟨id, .inl (hleft n _ rfl rfl)⟩
  | none :: mishaps => exact (h mishaps).of_write
  | [] =>
    have hend := (h []).of_write
    rw [EndsSave, and_iff_right hnil, or_iff_left fun hand => hnil hand.1] at hend
    exact .inl ⟨id, hend⟩

/-- How a save ends, where something is at the file. -/
theorem endsSave_save {windows : Windows} (json : SettingsJson) {guid : Guid windows} {settings copy : LauncherSettings}
    (hcopy : savedCopy windows guid settings = some copy) (hpath : d.files path = some old) (mishaps : Mishaps) :
    EndsSave path old (json.serialize copy) d (StopsInstead (json.serialize copy).length mishaps)
      ((save windows json path guid settings).run mishaps d) := by
  have hnew := Disk.write_self d (temporaryPath path) (some (json.serialize copy))
  have hold := (Disk.write_other d (some (json.serialize copy)) (path_ne_temporary path)).trans hpath
  rw [save, hcopy]
  refine endsSave_otherCall (endsSave_otherCall (endsSave_otherCall (endsSave_write (endsSave_flush ?_ id) ?_) ?_) ?_) ?_ mishaps
  · exact endsSave_replace hnew hold
  · exact id
  · exact id
  · exact id
  · exact id

/-! ### One save -/

section Step

variable {windows : Windows} {json : SettingsJson} {found : List LauncherSettings}

/-- A text that is the beginning of settings. -/
def Torn (json : SettingsJson) (content : Bytes) : Prop :=
  ∃ settings n, n < (json.serialize settings).length ∧ content = (json.serialize settings).take n

theorem Torn.unreadable {content : Bytes} (h : Torn json content) : json.deserialize content = none := by
  obtain ⟨settings, n, hn, rfl⟩ := h
  exact json.deserialize_take settings n hn

theorem Torn.take {content : Bytes} (h : Torn json content) (m : Nat) : Torn json (content.take m) := by
  obtain ⟨settings, n, hn, rfl⟩ := h
  exact ⟨settings, min m n, lt_of_le_of_lt (min_le_right m n) hn, List.take_take⟩

/-- The file holds settings of one of the saves, or its backup does where the file holds the beginning of some. -/
def Recoverable (json : SettingsJson) (path : Text) (found : List LauncherSettings) (d : Disk Text Unit) : Prop :=
  (∃ copy ∈ found, d.files path = some (json.serialize copy)) ∨
    ∃ content, d.files path = some content ∧ Torn json content ∧ ∃ copy ∈ found, d.files (backupPath path) = some (json.serialize copy)

theorem Recoverable.mono {found' : List LauncherSettings} (h : Recoverable json path found d) (hsub : ∀ copy ∈ found, copy ∈ found') :
    Recoverable json path found' d := by
  rcases h with ⟨copy, hcopy, hpath⟩ | ⟨content, hpath, htorn, copy, hcopy, hbackup⟩
  · exact .inl ⟨copy, hsub copy hcopy, hpath⟩
  · exact .inr ⟨content, hpath, htorn, copy, hsub copy hcopy, hbackup⟩

theorem Recoverable.of_same {d' : Disk Text Unit} (h : Recoverable json path found d) (hpath : d'.files path = d.files path)
    (hbackup : d'.files (backupPath path) = d.files (backupPath path)) : Recoverable json path found d' := by
  rwa [Recoverable, hpath, hbackup]

theorem Recoverable.loadsOneOf (h : Recoverable json path found d) : LoadsOneOf json path found d := by
  rcases h with ⟨copy, hcopy, hpath⟩ | ⟨content, hpath, htorn, copy, hcopy, hbackup⟩
  · exact ⟨copy, hcopy, by rw [readSettings, tryLoadFile, hpath, Option.bind_some, json.deserialize_serialize, Option.some_or]⟩
  · refine ⟨copy, hcopy, ?_⟩
    rw [readSettings, tryLoadFile, tryLoadFile, hpath, hbackup, Option.bind_some, Option.bind_some, htorn.unreadable,
      json.deserialize_serialize, Option.none_or]

/-- Where both files hold beginnings of settings nothing is found. -/
theorem not_loadsOneOf {content content' : Bytes} (hpath : d.files path = some content) (hbackup : d.files (backupPath path) = some content')
    (htorn : Torn json content) (htorn' : Torn json content') : ¬LoadsOneOf json path found d := by
  rintro ⟨copy, -, hread⟩
  rw [readSettings, tryLoadFile, tryLoadFile, hpath, hbackup, Option.bind_some, Option.bind_some, htorn.unreadable, htorn'.unreadable] at hread
  nomatch hread

/-- A save keeps what was found as long as it is not completed, and its own copy. -/
theorem mem_candidatesAfter {t : SaveTransition windows} {copy : LauncherSettings} :
    copy ∈ candidatesAfter windows found t ↔
      savedCopy windows t.input.guid t.input.settings = some copy ∨ t.output = false ∧ copy ∈ found := by
  rw [candidatesAfter]
  cases t.output <;> simp

/-- A save leaves settings to be found exactly if it does not lose them. -/
theorem saveStep_recoverable (call : SaveCall windows) (h : Recoverable json path found d) :
    let t : SaveTransition windows := ⟨d, call, (saveStep windows json path d call).2, (saveStep windows json path d call).1⟩
    (¬LosesSettings windows json path d call → Recoverable json path (candidatesAfter windows found t) t.after) ∧
      (LosesSettings windows json path d call → ¬LoadsOneOf json path (candidatesAfter windows found t) t.after) := by
  intro t
  cases hcopy : savedCopy windows call.guid call.settings with
  | none =>
    -- nothing is written when the secrets cannot be encrypted
    have hsame : t.output = false ∧ t.after = d := by
      simp only [t, saveStep, save, hcopy]
      generalize call.mishaps = mishaps
      rcases mishaps with _ | ⟨_ | _ | _, _ | ⟨_ | _ | _, _⟩⟩ <;> exact ⟨rfl, rfl⟩
    refine ⟨fun _ => ?_, fun hloses => ?_⟩
    · rw [hsame.2]
      exact h.mono fun copy hfound => mem_candidatesAfter.2 (.inr ⟨hsame.1, hfound⟩)
    · obtain ⟨-, copy, hsome, -⟩ := hloses
      rw [hcopy] at hsome
      nomatch hsome
  | some copy =>
    have hpath : ∃ content, d.files path = some content := by
      rcases h with ⟨copy, -, hpath⟩ | ⟨content, hpath, -⟩
      · exact ⟨_, hpath⟩
      · exact ⟨content, hpath⟩
    obtain ⟨old, hold⟩ := hpath
    have hloses : LosesSettings windows json path d call ↔
        json.deserialize old = none ∧ StopsInstead (json.serialize copy).length call.mishaps := by
      rw [LosesSettings, tryLoadFile, hold, Option.bind_some, hcopy]
      simp
    have hnew : copy ∈ candidatesAfter windows found t := mem_candidatesAfter.2 (.inl hcopy)
    have hkept : t.output = false → ∀ copy ∈ found, copy ∈ candidatesAfter windows found t := fun hdone copy hfound =>
      mem_candidatesAfter.2 (.inr ⟨hdone, hfound⟩)
    rw [hloses]
    rcases endsSave_save json hcopy hold call.mishaps with ⟨hstops, ⟨hdone, hp, hb⟩ | hp⟩ | ⟨hstops, hdone, hlost⟩
    · exact ⟨fun _ => (h.mono (hkept hdone)).of_same hp hb, fun hl => absurd hl.2 hstops⟩
    · exact ⟨fun _ => .inl ⟨copy, hnew, hp⟩, fun hl => absurd hl.2 hstops⟩
    · rcases h with ⟨copy', hcopy', hpath⟩ | ⟨content, hpath, htorn, -⟩
      · -- the file could be read, and one of the two copies of it is left
        obtain rfl := Option.some.inj (hold.symm.trans hpath)
        refine ⟨fun _ => ?_, fun hl => absurd (hl.1.symm.trans (json.deserialize_serialize copy')) nofun⟩
        rcases hlost with ⟨hp, -⟩ | ⟨⟨n, hn, hp⟩, hb⟩
        · exact .inl ⟨copy', hkept hdone copy' hcopy', hp⟩
        · exact .inr ⟨_, hp, ⟨copy, n, hn, rfl⟩, copy', hkept hdone copy' hcopy', hb⟩
      · obtain rfl := Option.some.inj (hold.symm.trans hpath)
        refine ⟨fun hno => absurd ⟨htorn.unreadable, hstops⟩ hno, fun _ => ?_⟩
        rcases hlost with ⟨hp, n, hb⟩ | ⟨⟨n, hn, hp⟩, hb⟩
        · exact not_loadsOneOf hp hb htorn (htorn.take n)
        · exact not_loadsOneOf hp hb ⟨copy, n, hn, rfl⟩ htorn

end Step

/-- A list with one more element before it, split at one of its elements. -/
theorem forall_split_cons {α : Type} {a : α} {l : List α} {Q : List α → α → Prop} :
    (∀ past t rest, a :: l = past ++ t :: rest → Q past t) ↔ Q [] a ∧ ∀ past t rest, l = past ++ t :: rest → Q (a :: past) t := by
  constructor
  · intro h
    exact ⟨h [] a l rfl, fun past t rest hsplit => h (a :: past) t rest (by rw [hsplit]; rfl)⟩
  · rintro ⟨hfirst, hrest⟩ past t rest hsplit
    cases past with
    | nil =>
      obtain ⟨rfl, -⟩ := List.cons.inj hsplit
      exact hfirst
    | cons b past =>
      obtain ⟨rfl, htail⟩ := List.cons.inj hsplit
      exact hrest past t rest htail

end SettingsAux

open SettingsAux

/-- Settings can be written as texts none of which begins another one. -/
theorem exists_settingsJson : ∃ json : SettingsJson, ∀ settings, json.serialize settings ≠ [] := by
  classical
  have hchar : Countable Char := Function.Injective.countable (f := Char.toNat) fun a b h => Char.toNat_inj.1 h
  have hsettings : Countable LauncherSettings :=
    Function.Injective.countable (f := fun s : LauncherSettings =>
      ((s.username, s.password, s.passwordProtected, s.gameDirectory, s.gameExecutable, s.publicEndpoint, s.tunnelSecret,
        s.tunnelSecretProtected, s.easyTierInstanceId, s.easyTierNetworkName, s.easyTierWssPort),
        (s.forceGameVirtualAdapter, s.saveOverwritePromptHandled, s.language, s.musicEnabled, s.guideCompleted, s.publicUpdatePort,
        s.lastAssignedVirtualIp, s.lastServerVirtualIp, s.lastTunnelConnectedAt, s.lastLatencyMs, s.dismissedStartupAnnouncementId)))
      fun a b h => by cases a; cases b; simp_all
  obtain ⟨code, hcode⟩ := Countable.exists_injective_nat LauncherSettings
  -- as many ones as the number of the settings, and a zero
  let serialize : LauncherSettings → Bytes := fun s => List.replicate (code { s with password := [] }) 1 ++ [0]
  have hinj : ∀ s s', serialize s = serialize s' → { s with password := [] } = { s' with password := [] } := by
    intro s s' h
    have hlen := congrArg List.length h
    simp only [serialize, List.length_append, List.length_replicate] at hlen
    exact hcode (Nat.add_right_cancel hlen)
  refine ⟨⟨serialize, fun content => if h : ∃ s, serialize s = content then some { h.choose with password := [] } else none, ?_, ?_⟩, ?_⟩
  · intro s
    have h : ∃ s', serialize s' = serialize s := ⟨s, rfl⟩
    rw [dif_pos h, hinj _ _ h.choose_spec]
  · intro s n hn
    rw [dif_neg]
    rintro ⟨s', hs'⟩
    have hzero : (0 : UInt8) ∈ (serialize s).take n := by
      rw [← hs']
      simp [serialize]
    simp only [serialize, List.length_append, List.length_replicate, List.length_singleton] at hn
    rw [List.take_append_of_le_length (by simp; omega)] at hzero
    have hone := List.eq_of_mem_replicate (List.mem_of_mem_take hzero)
    nomatch hone
  · intro s
    simp [serialize]

end Scbl.Launcher.LauncherSettingsService
