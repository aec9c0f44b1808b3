import Scbl.Launcher.HookDllService

/-!
# The original game DLL is kept

The backup is copied once and then trusted. A deployment that finds no backup and is stopped inside that copy leaves a part of the original
behind, which the next deployment takes for the backup; where that does not happen the original is never lost.
-/

namespace Scbl.Launcher.HookDllService

open Scbl.Lib

/-! ## Paths -/

section Paths

variable (gameDir : Text)

theorem combine_append (name suffix : Text) : combine gameDir name ++ suffix = combine gameDir (name ++ suffix) := by
  unfold combine
  split
  · exact List.append_assoc _ _ _
  · rw [List.append_assoc]
    rfl

theorem combine_inj {name name' : Text} (h : combine gameDir name = combine gameDir name') : name = name' := by
  unfold combine at h
  split at h
  · exact List.append_cancel_left h
  · exact (List.cons.inj (List.append_cancel_left h)).2

/-- The backup is none of the other files that the calls write. -/
theorem backupPath_ne : backupPath gameDir ≠ dllPath gameDir ∧ backupPath gameDir ≠ temporaryPath (dllPath gameDir) ∧
    backupPath gameDir ≠ rollbackPath (dllPath gameDir) ∧ backupPath gameDir ≠ markerPath gameDir := by
  simp only [backupPath, dllPath, temporaryPath, rollbackPath, markerPath, combine_append]
  exact ⟨fun h => absurd (combine_inj gameDir h) (by decide), fun h => absurd (combine_inj gameDir h) (by decide),
    fun h => absurd (combine_inj gameDir h) (by decide), fun h => absurd (combine_inj gameDir h) (by decide)⟩

end Paths

/-! ## What leaves the backup alone -/

section Leaves

variable (net : DotNet) (gameDir : Text) (s : Surroundings) {path : Text}

theorem leaves_computeHash (file : Text) : Disk.Leaves path (computeFileSha256BestEffort net file) :=
  Disk.leaves_tryCatch (Disk.leaves_bind Disk.leaves_readFile fun _ => Disk.leaves_pure) fun _ => Disk.leaves_pure

theorem leaves_validateProtocol (file : Text) : Disk.Leaves path (validateHooksConfigProtocol file) :=
  Disk.leaves_bind (Disk.leaves_tryCatch Disk.leaves_readFile fun _ => Disk.leaves_raise) fun _ => Disk.leaves_when Disk.leaves_raise

theorem leaves_requireHash (file expected text : Text) : Disk.Leaves path (requireHash net file expected text) :=
  Disk.leaves_bind (leaves_computeHash net file) fun _ => Disk.leaves_when Disk.leaves_raise

theorem leaves_resolveLocal : Disk.Leaves path (resolveLocalTestHook net s) := by
  unfold resolveLocalTestHook
  split
  · exact Disk.leaves_pure
  · refine Disk.leaves_bind Disk.leaves_query fun _ => Disk.leaves_ite Disk.leaves_pure ?_
    exact Disk.leaves_bind (leaves_computeHash net _) fun _ => Disk.leaves_bind (Disk.leaves_when Disk.leaves_raise) fun _ => Disk.leaves_pure

theorem leaves_resolveBootstrap : Disk.Leaves path (resolveBootstrapHook net s) := by
  refine Disk.leaves_bind Disk.leaves_query fun _ => Disk.leaves_bind Disk.leaves_query fun _ =>
    Disk.leaves_bind (Disk.leaves_when Disk.leaves_raise) fun _ => Disk.leaves_bind Disk.leaves_readFile fun text => ?_
  split
  · exact Disk.leaves_raise
  · exact Disk.leaves_bind (leaves_computeHash net _) fun _ => Disk.leaves_bind (Disk.leaves_when Disk.leaves_raise) fun _ => Disk.leaves_pure

theorem leaves_resolveHook : Disk.Leaves path (resolveHook net s) := by
  refine Disk.leaves_bind (leaves_resolveLocal net s) fun localTestHook => ?_
  cases localTestHook with
  | some hook => exact Disk.leaves_pure
  | none =>
    refine Disk.leaves_bind Disk.leaves_ofExcept fun external => ?_
    cases external with
    | some component => exact Disk.leaves_pure
    | none => exact Disk.leaves_bind (leaves_resolveBootstrap net s) fun _ => Disk.leaves_pure

theorem leaves_deployAtomically {target expected : Text} {writeTemporary : Text → Service Unit} (htarget : path ≠ target)
    (htemporary : path ≠ temporaryPath target) (hrollback : path ≠ rollbackPath target)
    (hwrite : Disk.Leaves path (writeTemporary (temporaryPath target))) :
    Disk.Leaves path (deployAtomically net target expected writeTemporary) := by
  refine Disk.leaves_bind (Disk.leaves_tryDelete htemporary) fun _ => Disk.leaves_bind (Disk.leaves_tryDelete hrollback) fun _ =>
    Disk.leaves_tryCatch ?_ fun e => ?_
  · refine Disk.leaves_bind hwrite fun _ => Disk.leaves_bind Disk.leaves_query fun _ =>
      Disk.leaves_bind (Disk.leaves_when Disk.leaves_raise) fun _ => Disk.leaves_bind (leaves_requireHash net _ _ _) fun _ => ?_
    exact Disk.leaves_bind (Disk.leaves_copyFile hrollback) fun _ => Disk.leaves_bind (Disk.leaves_moveFile htemporary htarget) fun _ =>
      Disk.leaves_bind (leaves_requireHash net _ _ _) fun _ => Disk.leaves_tryDelete hrollback
  · exact Disk.leaves_bind (Disk.leaves_tryDelete htemporary) fun _ => Disk.leaves_bind Disk.leaves_query fun _ =>
      Disk.leaves_bind (Disk.leaves_when (Disk.leaves_moveFile hrollback htarget)) fun _ => Disk.leaves_raise

/-- Behind the backup nothing writes to it. -/
theorem leaves_deployHook : Disk.Leaves (backupPath gameDir) (deployHook net gameDir s) := by
  obtain ⟨hdll, htemporary, hrollback, hmarker⟩ := backupPath_ne gameDir
  refine Disk.leaves_bind (leaves_resolveHook net s) fun hook => Disk.leaves_bind Disk.leaves_query fun _ =>
    Disk.leaves_bind (Disk.leaves_when Disk.leaves_raise) fun _ => Disk.leaves_bind (leaves_validateProtocol _) fun _ =>
      Disk.leaves_bind (leaves_computeHash net _) fun _ => ?_
  refine Disk.leaves_bind (leaves_deployAtomically net hdll htemporary hrollback (Disk.leaves_copyFile htemporary)) fun _ => ?_
  exact Disk.leaves_bind (leaves_computeHash net _) fun _ => Disk.leaves_bind (Disk.leaves_when Disk.leaves_raise) fun _ =>
    Disk.leaves_bind (leaves_validateProtocol _) fun _ => Disk.leaves_writeFile hmarker

theorem leaves_currentHash : Disk.Leaves path (currentDllHash net gameDir) :=
  Disk.leaves_bind Disk.leaves_query fun _ => Disk.leaves_ite (leaves_computeHash net _) Disk.leaves_pure

theorem leaves_readMarker : Disk.Leaves path (readDeployMarkerHash net gameDir) := by
  refine Disk.leaves_tryCatch (Disk.leaves_bind Disk.leaves_query fun _ => Disk.leaves_ite Disk.leaves_pure ?_) fun _ => Disk.leaves_pure
  exact Disk.leaves_bind Disk.leaves_readFile fun _ => Disk.leaves_pure

theorem leaves_bootstrapHash : Disk.Leaves path (tryGetBootstrapHash net s) :=
  Disk.leaves_tryCatch (Disk.leaves_bind (leaves_resolveBootstrap net s) fun _ => Disk.leaves_pure) fun _ => Disk.leaves_pure

end Leaves

/-! ## What a call leaves -/

section Calls

variable {net : DotNet} {gameDir : Text} {original : Bytes} {s : Surroundings}

/-- One of the three files holds the original. -/
def HoldsOriginal (gameDir : Text) (original : Bytes) (d : Disk Text Unit) : Prop :=
  d.files (dllPath gameDir) = some original ∨ d.files (backupPath gameDir) = some original ∨
    d.files (rollbackPath (dllPath gameDir)) = some original

/-- The backup holds the original, or there is none and the game has it. -/
def Secured (gameDir : Text) (original : Bytes) (d : Disk Text Unit) : Prop :=
  d.files (backupPath gameDir) = some original ∨ (d.files (backupPath gameDir) = none ∧ d.files (dllPath gameDir) = some original)

theorem Secured.holds {d : Disk Text Unit} (h : Secured gameDir original d) : HoldsOriginal gameDir original d := by
  rcases h with hbackup | ⟨-, hdll⟩
  · exact .inr (.inl hbackup)
  · exact .inl hdll

/-- A deployment comes to the backup and finds none. -/
def MakesBackup (gameDir : Text) (d : Disk Text Unit) (s : Surroundings) : Prop :=
  (∀ file ∈ requiredEmbeddedFiles, s.embeddedFileExists file = true) ∧ s.gameRunning = false ∧ d.files (backupPath gameDir) = none

/-- The first operation stops when it has begun to write and has not written so many bytes. -/
def StopsWithin (size : Nat) (mishaps : Mishaps) : Prop :=
  ∃ n < size, mishaps.head?.join = some (.fail (n + 1)) ∨ mishaps.head?.join = some (.kill (n + 1))

/-- The call does not leave a part of the game DLL as the backup. -/
def CompletesBackup (gameDir : Text) (d : Disk Text Unit) (call : Call) : Prop :=
  call.action = .deploy → MakesBackup gameDir d call.surroundings → ∀ content, d.files (dllPath gameDir) = some content →
    ¬ StopsWithin content.length call.mishaps

/-- The first copy: the original is secured, or the copy was stopped and the game has the original. -/
theorem meets_firstCopy {m₀ : Mishaps} {d₀ : Disk Text Unit} (hdll : d₀.files (dllPath gameDir) = some original) (hbackup : d₀.files (backupPath gameDir) = none) :
    (Disk.copyFile .io (dllPath gameDir) (backupPath gameDir) : Service Unit).Meets (fun mishaps d => mishaps = m₀ ∧ d = d₀)
      (fun _ _ d => d.files (backupPath gameDir) = some original)
      (fun _ _ d => Secured gameDir original d ∨ (StopsWithin original.length m₀ ∧ d.files (dllPath gameDir) = some original))
      (fun d => Secured gameDir original d ∨ (StopsWithin original.length m₀ ∧ d.files (dllPath gameDir) = some original)) := by
  have hne := (backupPath_ne gameDir).1
  have hstop : ∀ stop, m₀.head?.join = some (.fail stop) ∨ m₀.head?.join = some (.kill stop) →
      Secured gameDir original (Disk.stopWriting (backupPath gameDir) original stop d₀) ∨
        (StopsWithin original.length m₀ ∧ (Disk.stopWriting (backupPath gameDir) original stop d₀).files (dllPath gameDir) = some original) := by
    intro stop hhead
    cases stop with
    | zero => exact .inl (.inr ⟨hbackup, hdll⟩)
    | succ n =>
      by_cases hn : n < original.length
      · exact .inr ⟨⟨n, hn, hhead⟩, (Disk.write_other d₀ _ hne.symm).trans hdll⟩
      · refine .inl (.inl ((Disk.write_self d₀ _ _).trans ?_))
        rw [List.take_of_length_le (Nat.not_lt.mp hn)]
  rintro _ _ ⟨rfl, rfl⟩
  rw [Disk.run_copyFile hdll hne.symm]
  split
  · exact hstop _ (.inl ‹_›)
  · exact hstop _ (.inr ‹_›)
  · exact Disk.write_self _ _ _

/-- A deployment secures the original, or it was stopped inside the first copy and the game has the original. -/
theorem deploy_state {d : Disk Text Unit} (h : Secured gameDir original d) (mishaps : Mishaps) :
    Secured gameDir original ((deployHookDllSafely net gameDir s).run mishaps d).state ∨
      (MakesBackup gameDir d s ∧ StopsWithin original.length mishaps ∧
        ((deployHookDllSafely net gameDir s).run mishaps d).state.files (dllPath gameDir) = some original) := by
  let I : Mishaps → Disk Text Unit → Prop := fun mishaps' d' => mishaps' = mishaps ∧ d' = d
  let G : Disk Text Unit → Prop := fun d' => Secured gameDir original d' ∨
    (MakesBackup gameDir d s ∧ StopsWithin original.length mishaps ∧ d'.files (dllPath gameDir) = some original)
  have hstart : ∀ mishaps' d', I mishaps' d' → G d' := fun _ d' hI => .inl (hI.2 ▸ h)
  have hmeets : (deployHookDllSafely net gameDir s).Meets I (fun _ _ => G) (fun _ _ => G) G := by
    have hvalidate : (validateEmbeddedFiles s).Meets I (fun _ mishaps' d' => I mishaps' d' ∧
        ∀ file ∈ requiredEmbeddedFiles, s.embeddedFileExists file = true) (fun _ _ => G) G := by
      refine Program.meets_when (fun _ => Program.meets_raise hstart) fun hmissing mishaps' d' hI => ⟨hI, ?_⟩
      simpa using hmissing
    refine Program.meets_bind hvalidate fun _ => ?_
    refine Program.meets_of_imp (fun _ _ hI => hI.2) fun hembedded => ?_
    refine Program.meets_bind (R := fun _ mishaps' d' => I mishaps' d' ∧ s.gameRunning = false)
      (Program.meets_when (fun _ => Program.meets_raise fun _ _ hI => hstart _ _ hI.1) fun hidle _ _ hI => ⟨hI.1, hidle⟩) fun _ => ?_
    refine Program.meets_of_imp (fun _ _ hI => hI.2) fun hidle => ?_
    refine Program.meets_bind (R := fun _ => I) (Program.meets_query fun _ _ hI => hI.1) fun dllExists => ?_
    refine Program.meets_bind (R := fun _ => I) (Program.meets_when (fun _ => Program.meets_raise hstart) fun _ _ _ hI => hI) fun _ => ?_
    refine Program.meets_bind (Disk.meets_fileExists (backupPath gameDir)) fun backupExists => ?_
    refine Program.meets_bind (R := fun _ _ d' => d'.files (backupPath gameDir) = some original) ?_ fun _ => ?_
    · refine Program.meets_when (fun habsent => ?_) fun hpresent _ _ hI => ?_
      · have hnone : ∀ mishaps' d', I mishaps' d' ∧ backupExists = (d'.files (backupPath gameDir)).isSome →
            d.files (backupPath gameDir) = none := by
          rintro _ _ ⟨⟨-, rfl⟩, hexists⟩
          simpa [hexists] using habsent
        refine Program.meets_of_imp hnone fun hbackup => ?_
        have hdll : d.files (dllPath gameDir) = some original := by
          rcases h with hsome | ⟨-, hdll⟩
          · rw [hbackup] at hsome
            nomatch hsome
          · exact hdll
        refine (meets_firstCopy hdll hbackup).weaken (fun _ _ hI => hI.1) (fun _ _ _ hd => hd) (fun _ _ d' hd => ?_) (fun d' hd => ?_)
        · exact hd.imp_right fun hstop => ⟨⟨hembedded, hidle, hbackup⟩, hstop⟩
        · exact hd.imp_right fun hstop => ⟨⟨hembedded, hidle, hbackup⟩, hstop⟩
      · obtain ⟨⟨-, rfl⟩, hexists⟩ := hI
        rcases h with hsome | ⟨hnone, -⟩
        · exact hsome
        · rw [hexists, hnone] at hpresent
          nomatch hpresent
    · exact (leaves_deployHook net gameDir s (some original)).weaken (fun _ _ hd => ⟨hd, trivial⟩) (fun _ _ _ hd => .inl (.inl hd.1))
        (fun _ _ _ hd => .inl (.inl hd)) (fun _ hd => .inl (.inl hd))
  exact (hmeets mishaps d ⟨rfl, rfl⟩).state_any

/-- A restoration leaves the backup, and what it copies is the backup. -/
theorem keeps_restore :
    (restoreOriginalDllBestEffort net gameDir s).Keeps (fun d => d.files (backupPath gameDir) = some original) (fun _ => True)
      (fun restored d => restored = true → d.files (dllPath gameDir) = some original) := by
  have hne := (backupPath_ne gameDir).1
  have hno : (pure false : Service Bool).Keeps (fun d => d.files (backupPath gameDir) = some original) (fun _ => True)
      (fun restored d => restored = true → d.files (dllPath gameDir) = some original) :=
    Program.keeps_pure fun _ _ _ hrestored => nomatch hrestored
  have hcopy : (Disk.copyFile .io (backupPath gameDir) (dllPath gameDir) : Service Unit).Keeps
      (fun d => d.files (backupPath gameDir) = some original) (fun _ => True) (fun _ d => d.files (dllPath gameDir) = some original) := by
    refine (Disk.meets_copyFile_any (I := fun d : Disk Text Unit => d.files (backupPath gameDir) = some original)
      (E := fun _ _ d => d.files (backupPath gameDir) = some original) (K := fun d => d.files (backupPath gameDir) = some original)
      (fun _ d _ hd => (Disk.write_other d _ hne).trans hd) (fun _ _ hd => hd) (fun _ hd => hd)).weaken (fun _ _ hd => hd.1) ?_
      (fun _ _ _ hd => hd) (fun _ hd => hd)
    rintro _ _ d ⟨hbackup, content, hsource, htarget⟩
    exact ⟨hbackup, htarget.trans (hsource.symm.trans hbackup)⟩
  refine Program.keeps_tryCatch ?_ fun _ => hno
  split
  · exact hno
  refine Program.keeps_bind (Disk.leaves_query (some original)) fun backupExists => ?_
  split
  · exact hno
  refine Program.keeps_bind (leaves_currentHash net gameDir (some original)) fun currentHash => ?_
  refine Program.keeps_bind (leaves_readMarker net gameDir (some original)) fun markerHash => ?_
  refine Program.keeps_bind (leaves_bootstrapHash net s (some original)) fun bootstrapHash => ?_
  split
  · exact Program.keeps_bind hcopy fun _ => Program.keeps_pure fun _ _ hd _ => hd
  · exact hno

/-- Without a backup a restoration does nothing. -/
theorem run_restore_none {d : Disk Text Unit} (hbackup : d.files (backupPath gameDir) = none) (mishaps : Mishaps) :
    (restoreOriginalDllBestEffort net gameDir s).run mishaps d = .done false mishaps d := by
  unfold restoreOriginalDllBestEffort
  split
  · rfl
  · simp only [Program.tryCatch, bind, Disk.fileExists, Program.query, Execution.andThen, hbackup, Option.isSome_none]
    rfl

theorem mem_gameFiles : dllPath gameDir ∈ gameFiles gameDir ∧ backupPath gameDir ∈ gameFiles gameDir := by
  simp [gameFiles]

/-- When a call starts the files in the game directory are as they were. -/
theorem started_files (d : Disk Text Unit) (call : Call) :
    (started gameDir d call).files (dllPath gameDir) = d.files (dllPath gameDir) ∧
      (started gameDir d call).files (backupPath gameDir) = d.files (backupPath gameDir) :=
  ⟨if_pos mem_gameFiles.1, if_pos mem_gameFiles.2⟩

theorem secured_started {d : Disk Text Unit} (h : Secured gameDir original d) (call : Call) :
    Secured gameDir original (started gameDir d call) := by
  rw [Secured, (started_files d call).1, (started_files d call).2]
  exact h

/-- What a call leaves: the original is secured, or a deployment was stopped inside the first copy and the game has the original. -/
theorem callStep_state {d : Disk Text Unit} (h : Secured gameDir original d) (call : Call) :
    Secured gameDir original (callStep net gameDir d call).1 ∨
      (¬ CompletesBackup gameDir d call ∧ (callStep net gameDir d call).1.files (dllPath gameDir) = some original) := by
  have hstarted := secured_started h call
  obtain ⟨hdll, hbackup⟩ := @started_files gameDir d call
  cases haction : call.action with
  | deploy =>
    have hstep : (callStep net gameDir d call).1 =
        ((deployHookDllSafely net gameDir call.surroundings).run call.mishaps (started gameDir d call)).state := by
      rw [callStep, haction]
    rw [hstep]
    refine (deploy_state hstarted call.mishaps).imp_right ?_
    rintro ⟨hmakes, hstop, hkept⟩
    refine ⟨fun hcomplete => hcomplete haction ⟨hmakes.1, hmakes.2.1, hbackup ▸ hmakes.2.2⟩ original ?_ hstop, hkept⟩
    rcases h with hsome | ⟨-, hgame⟩
    · rw [← hbackup, hmakes.2.2] at hsome
      nomatch hsome
    · exact hgame
  | restore =>
    left
    have hstep : (callStep net gameDir d call).1 =
        ((restoreOriginalDllBestEffort net gameDir call.surroundings).run call.mishaps (started gameDir d call)).state := by
      rw [callStep, haction]
      dsimp only
      split <;> simp_all [Execution.state]
    rw [hstep]
    rcases hstarted with hsome | ⟨hnone, hgame⟩
    · exact .inl (keeps_restore.state call.mishaps hsome trivial)
    · rw [run_restore_none hnone]
      exact .inr ⟨hnone, hgame⟩

/-- What a restoration copies is the original. -/
theorem restored_callStep {d : Disk Text Unit} {call : Call} (h : Secured gameDir original d) (hcall : (callStep net gameDir d call).2 = true) :
    (callStep net gameDir d call).1.files (dllPath gameDir) = some original := by
  have hstarted := secured_started h call
  cases haction : call.action with
  | deploy =>
    rw [callStep, haction] at hcall
    nomatch hcall
  | restore =>
    rcases hstarted with hsome | ⟨hnone, -⟩
    · have hrun := @keeps_restore net gameDir original call.surroundings call.mishaps _ ⟨hsome, trivial⟩
      rw [callStep, haction] at hcall ⊢
      dsimp only at hcall ⊢
      split at hcall
      · rename_i hdone
        rw [hdone] at hrun
        exact hrun.2 hcall
      · nomatch hcall
    · rw [callStep, haction] at hcall
      dsimp only at hcall
      rw [run_restore_none hnone] at hcall
      nomatch hcall

end Calls

/-! ## Sequences of calls -/

/-- In every sequence of calls that do not leave a part of the game DLL as the backup, wherever a call may be stopped one of the three
files holds the original, and what a restoration copies is the original. -/
theorem original_dll_kept (net : DotNet) (gameDir : Text) (original : Bytes) (d : Disk Text Unit)
    (hdll : d.files (dllPath gameDir) = some original) (hbackup : d.files (backupPath gameDir) = none) (calls : List Call)
    (hcalls : ∀ t ∈ trace (callStep net gameDir) d calls, CompletesBackup gameDir t.before t.input) :
    HoldsOriginal gameDir original d ∧ ∀ t ∈ trace (callStep net gameDir) d calls,
      (∀ mishaps, HoldsOriginal gameDir original (callStep net gameDir t.before { t.input with mishaps }).1) ∧
        (t.output = true → t.after.files (dllPath gameDir) = some original) := by
  have hsecured : Secured gameDir original d := .inr ⟨hbackup, hdll⟩
  refine ⟨hsecured.holds, fun t ht => ?_⟩
  have hstep : ∀ d call, Secured gameDir original d → CompletesBackup gameDir d call →
      Secured gameDir original (callStep net gameDir d call).1 := by
    intro d call h hcomplete
    rcases callStep_state h call with h | ⟨hstopped, -⟩
    · exact h
    · exact absurd hcomplete hstopped
  have hbefore := ((trace_inv_of _ hstep hsecured hcalls).1 t ht).1
  refine ⟨fun mishaps => ?_, fun houtput => ?_⟩
  · rcases callStep_state hbefore { t.input with mishaps } with h | ⟨-, hgame⟩
    · exact h.holds
    · exact .inl hgame
  · obtain ⟨hafter, hrestored⟩ := Prod.mk.inj (mem_trace ht).2
    rw [← hafter]
    exact restored_callStep hbefore (hrestored.trans houtput)

/-! ## A deployment that is killed -/

/-- A library whose digests are the bytes themselves. -/
def sampleNet : DotNet where
  sha256 content := content.map (fun byte => Char.ofNat (0x30 + byte.toNat))
  sidecarHash _ := none
  marker hash _ _ _ := hash.map (fun c => UInt8.ofNat (c.toNat - 0x30))
  markerHash content := content.map (fun byte => Char.ofNat (0x30 + byte.toNat))

def sampleDir : Text := "C:\\game".toList

def sampleHook : Bytes := asciiBytes requiredHooksConfigProtocol

/-- A hook of the update service, while the game does not run. -/
def sampleSurroundings : Surroundings where
  gameDirExists := true
  embeddedFileExists _ := true
  gameRunning := false
  localHook := none
  component := .ok (some {
    filePath := "D:\\hook.dll".toList, sha256 := sampleNet.sha256 sampleHook, channel := "stable".toList, version := "1".toList })
  bootstrapDll := []

def sampleCall (action : Action) (mishaps : Mishaps) : Call where
  action := action
  surroundings := sampleSurroundings
  elsewhere path := if path = "D:\\hook.dll".toList then some sampleHook else none
  mishaps := mishaps

/-- A game directory with the original in it. -/
def sampleGame : Disk Text Unit where
  files path := if path = dllPath sampleDir then some [1, 2, 3] else none
  locals := ()

/-- What is kept of the original in a deployment and a restoration, and that the restoration brings it back. -/
def KeepsSample : Prop :=
  ∀ t ∈ trace (callStep sampleNet sampleDir) sampleGame [sampleCall .deploy [], sampleCall .restore []],
    (∀ mishaps, HoldsOriginal sampleDir [1, 2, 3] (callStep sampleNet sampleDir t.before { t.input with mishaps }).1) ∧
      (t.output = true → t.after.files (dllPath sampleDir) = some [1, 2, 3])

/-- A deployment and a restoration that nothing befalls. -/
theorem original_dll_kept_sample : KeepsSample := by
  refine (original_dll_kept sampleNet sampleDir [1, 2, 3] sampleGame rfl rfl _ fun t ht _ _ content _ => ?_).2
  have hmishaps : t.input.mishaps = [] := by
    rcases List.mem_cons.mp (mem_trace ht).1 with heq | hmem
    · rw [heq]
      rfl
    · rw [List.mem_singleton.mp hmem]
      rfl
  rw [hmishaps]
  rintro ⟨n, -, hhead⟩
  rcases hhead with hhead | hhead <;> nomatch hhead

/-- A deployment is killed when it has copied one byte of the original, and the next one is completed. -/
theorem original_dll_lost :
    ¬ HoldsOriginal sampleDir [1, 2, 3]
      (run (callStep sampleNet sampleDir) sampleGame [sampleCall .deploy [some (.kill 2)], sampleCall .deploy []]) := by
  unfold HoldsOriginal
  decide +kernel

end Scbl.Launcher.HookDllService
