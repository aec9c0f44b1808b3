import Scbl.Config
import Scbl.Lib.Disk
import Scbl.Lib.Run
import Scbl.Lib.Text

/-!
# The game DLL and its backup

`HookDllService.cs`. A path is a full one, in the case to which the file system folds it. `File.Exists` reports what is there; every
other file operation can fail. Where the components come from, whether the game runs and what .NET makes of the small text files are
given with a call.
-/

namespace Scbl.Launcher.HookDllService

open Scbl.Lib

/-- What a call throws; `io` is what the file operations throw, and `components` what the update service throws. -/
inductive HookException where
  | io
  | components
  | plain (message : Text)
  | ioException (message : Text)
  | fileNotFound (message path : Text)
  | invalidData (message : Text)
  | cryptographic (message : Text)
  deriving DecidableEq, Repr

abbrev Service := Program (Disk Text Unit) HookException

structure BootstrapHook where
  filePath : Text
  sha256 : Text
  deriving DecidableEq, Repr

structure VerifiedClientComponent where
  filePath : Text
  sha256 : Text
  channel : Text
  version : Text
  deriving DecidableEq, Repr

/-- What is deployed, and what the marker says of it. -/
structure SourceHook where
  sourcePath : Text
  expectedHash : Text
  sourceChannel : Text
  sourceVersion : Text
  sourceDescription : Text
  deriving DecidableEq, Repr

/-- The library: the SHA-256 digest of some bytes in hexadecimal, the digest that stands in a sidecar, the deployment marker for a
digest, a channel, a version and a description, and the digest in a marker that can be read. -/
structure DotNet where
  sha256 : Bytes → Text
  sidecarHash : Bytes → Option Text
  marker : Text → Text → Text → Text → Bytes
  markerHash : Bytes → Text

/-- What a call finds: whether the game directory is there, which embedded files are there, whether the game runs, the path of a local
hook in the test channel, what the update service returns, and the hook of the package. -/
structure Surroundings where
  gameDirExists : Bool
  embeddedFileExists : Text → Bool
  gameRunning : Bool
  localHook : Option Text
  component : Except HookException (Option VerifiedClientComponent)
  bootstrapDll : Text

/-! ## Paths -/

/-- `Path.Combine` with the name of a file. -/
def combine (directory name : Text) : Text :=
  if directory = [] ∨ directory.getLast? = some '\\' ∨ directory.getLast? = some '/' ∨ directory.getLast? = some ':' then directory ++ name
  else directory ++ '\\' :: name

def dllPath (gameDir : Text) : Text := combine gameDir "uplay_r1_loader.dll".toList

def backupPath (gameDir : Text) : Text := combine gameDir "uplay_r1_loader.orig.dll".toList

def temporaryPath (targetPath : Text) : Text := targetPath ++ ".scbl-new".toList

def rollbackPath (targetPath : Text) : Text := targetPath ++ ".scbl-rollback".toList

def markerPath (gameDir : Text) : Text := combine gameDir "5th_cn_component.json".toList

/-! ## Checks -/

def newLine : Text := "\r\n".toList

def requiredEmbeddedFiles : List Text := ["00000001.meta", "00000001.sav", "00000002.meta", "00000002.sav"].map String.toList

def validateEmbeddedFiles (s : Surroundings) : Service Unit := do
  let missing := requiredEmbeddedFiles.filter (fun file => !s.embeddedFileExists file)
  Program.when (!missing.isEmpty)
    (.raise (.plain ("缺少内置存档资源：".toList ++ List.intercalate ", ".toList missing ++ newLine ++ "请重新下载完整客户端。".toList)))

section Calls

variable (net : DotNet)

def computeFileSha256BestEffort (path : Text) : Service Text :=
  Program.tryCatch
    (do
      let content ← Disk.readFile .io path
      pure (net.sha256 content))
    (fun _ => pure [])

def requiredHooksConfigProtocol : Text := "SCBL_HOOKS_CONFIG=scbl.toml.v1".toList

/-- `Encoding.ASCII.GetBytes` -/
def asciiBytes (t : Text) : Bytes := t.map (fun c => UInt8.ofNat c.toNat)

def validateHooksConfigProtocol (path : Text) : Service Unit := do
  let content ← Program.tryCatch (Disk.readFile .io path) (fun _ => .raise (.ioException "无法读取 Hooks 组件以验证配置协议。".toList))
  Program.when (!decide (asciiBytes requiredHooksConfigProtocol <:+: content))
    (.raise (.invalidData ("Hooks 组件与 SCBL 2.0 启动器不兼容（组件仍可能读取已停用的 5th_auth.dat）。".toList ++ newLine ++
      "请使用完整的最新客户端修复安装。".toList)))

def tryDelete (path : Text) : Service Unit := Disk.tryDelete .io path

/-- The end of a message about two digests. -/
def expectedActual (expected actual : Text) : Text := "expected=".toList ++ expected ++ ", actual=".toList ++ actual

/-! ## Where the hook comes from -/

def resolveLocalTestHook (s : Surroundings) : Service (Option BootstrapHook) :=
  match s.localHook with
  | none => pure none
  | some path => do
    let present ← Disk.fileExists path
    if !present then pure none
    else do
      let hash ← computeFileSha256BestEffort net path
      Program.when (isBlank hash) (.raise (.ioException ("本地测试 Hooks 无法读取：".toList ++ path)))
      pure (some { filePath := path, sha256 := hash })

def resolveBootstrapHook (s : Surroundings) : Service BootstrapHook := do
  let dll := s.bootstrapDll
  let sidecar := dll ++ ".sha256".toList
  let dllExists ← Disk.fileExists dll
  let sidecarExists ← Disk.fileExists sidecar
  Program.when (!dllExists || !sidecarExists) (.raise (.fileNotFound "完整客户端缺少 bootstrap Hooks 或 SHA256 校验文件。".toList dll))
  let text ← Disk.readFile .io sidecar
  match net.sidecarHash text with
  | none => .raise (.invalidData "bootstrap Hooks SHA256 文件格式无效。".toList)
  | some expected => do
    let actual ← computeFileSha256BestEffort net dll
    Program.when (!equalsIgnoreCase actual expected) 
      (.raise (.cryptographic ("bootstrap Hooks SHA256 不一致。".toList ++ expectedActual expected actual)))
    pure { filePath := dll, sha256 := actual }

def tryGetBootstrapHash (s : Surroundings) : Service Text :=
  Program.tryCatch
    (do
      let hook ← resolveBootstrapHook net s
      pure hook.sha256)
    (fun _ => pure [])

/-- The hook to deploy: the local one, that of the update service, or that of the package. -/
def resolveHook (s : Surroundings) : Service SourceHook := do
  let localTestHook ← resolveLocalTestHook net s
  match localTestHook with
  | some hook =>
    pure {
      sourcePath := hook.filePath, expectedHash := hook.sha256, sourceChannel := "test".toList, sourceVersion := "local-override".toList
      sourceDescription := "local-test-override".toList }
  | none => do
    let external ← Program.ofExcept s.component
    match external with
    | some external =>
      pure {
        sourcePath := external.filePath, expectedHash := external.sha256, sourceChannel := external.channel, sourceVersion := external.version
        sourceDescription := "component:".toList ++ external.channel ++ '/' :: external.version }
    | none => do
      let bootstrap ← resolveBootstrapHook net s
      pure {
        sourcePath := bootstrap.filePath, expectedHash := bootstrap.sha256, sourceChannel := "stable".toList
        sourceVersion := "bootstrap-package".toList, sourceDescription := "bootstrap-package".toList }

/-! ## Deploying -/

/-- Throw unless a file has the expected digest. -/
def requireHash (path expected text : Text) : Service Unit := do
  let hash ← computeFileSha256BestEffort net path
  Program.when (!equalsIgnoreCase hash expected) (.raise (.cryptographic (text ++ expectedActual expected hash)))

def deployAtomically (targetPath expectedHash : Text) (writeTemporary : Text → Service Unit) : Service Unit := do
  let temporary := temporaryPath targetPath
  let rollback := rollbackPath targetPath
  tryDelete temporary
  tryDelete rollback
  Program.tryCatch
    (do
      writeTemporary temporary
      let written ← Disk.fileExists temporary
      Program.when (!written) (.raise (.ioException "Hooks 临时文件未成功写入。".toList))
      requireHash net temporary expectedHash "Hooks 临时文件校验不一致。".toList
      Disk.copyFile .io targetPath rollback
      Disk.moveFile .io temporary targetPath
      requireHash net targetPath expectedHash "Hooks 原子替换后校验不一致。".toList
      tryDelete rollback)
    (fun e => do
      tryDelete temporary
      let rollbackExists ← Disk.fileExists rollback
      Program.when rollbackExists (Disk.moveFile .io rollback targetPath)
      .raise e)

def writeDeployMarker (gameDir dllSha256 channel version sourceDescription : Text) : Service Unit :=
  Disk.writeFile .io (markerPath gameDir) (net.marker dllSha256 channel version sourceDescription)

/-- The part of a deployment behind the backup. -/
def deployHook (gameDir : Text) (s : Surroundings) : Service Unit := do
  let hook ← resolveHook net s
  let sourceExists ← Disk.fileExists hook.sourcePath
  Program.when (isBlank hook.expectedHash || !sourceExists)
    (.raise (.plain "专用联机组件部署失败：没有可用且已校验的 Hooks 组件。请使用完整客户端修复安装。".toList))
  validateHooksConfigProtocol hook.sourcePath
  let _ ← computeFileSha256BestEffort net (dllPath gameDir)
  deployAtomically net (dllPath gameDir) hook.expectedHash (fun temporary => Disk.copyFile .io hook.sourcePath temporary)
  let afterHash ← computeFileSha256BestEffort net (dllPath gameDir)
  Program.when (!equalsIgnoreCase afterHash hook.expectedHash)
    (.raise (.plain "专用联机组件部署失败：写入后的 uplay_r1_loader.dll 校验不一致。请检查杀软或文件权限。".toList))
  validateHooksConfigProtocol (dllPath gameDir)
  writeDeployMarker net gameDir afterHash hook.sourceChannel hook.sourceVersion hook.sourceDescription

def deployHookDllSafely (gameDir : Text) (s : Surroundings) : Service Unit := do
  validateEmbeddedFiles s
  Program.when s.gameRunning (.raise (.plain "检测到游戏正在运行，请先关闭游戏后再启动。".toList))
  let dllExists ← Disk.fileExists (dllPath gameDir)
  Program.when (!dllExists) (.raise (.plain "游戏目录错误：未找到 uplay_r1_loader.dll。".toList))
  let backupExists ← Disk.fileExists (backupPath gameDir)
  Program.when (!backupExists) (Disk.copyFile .io (dllPath gameDir) (backupPath gameDir))
  deployHook net gameDir s

/-! ## Restoring -/

def readDeployMarkerHash (gameDir : Text) : Service Text :=
  Program.tryCatch
    (do
      let present ← Disk.fileExists (markerPath gameDir)
      if !present then pure []
      else do
        let text ← Disk.readFile .io (markerPath gameDir)
        pure (net.markerHash text))
    (fun _ => pure [])

def isScblHook (currentHash markerHash bootstrapHash : Text) : Bool :=
  !isBlank currentHash && ((!isBlank markerHash && equalsIgnoreCase currentHash markerHash) ||
    (!isBlank bootstrapHash && equalsIgnoreCase currentHash bootstrapHash))

def currentDllHash (gameDir : Text) : Service Text := do
  let dllExists ← Disk.fileExists (dllPath gameDir)
  if dllExists then computeFileSha256BestEffort net (dllPath gameDir) else pure []

/-- The result says whether the backup was copied. -/
def restoreOriginalDllBestEffort (gameDir : Text) (s : Surroundings) : Service Bool :=
  Program.tryCatch
    (do
      if isBlank gameDir || !s.gameDirExists || s.gameRunning then pure false
      else do
        let backupExists ← Disk.fileExists (backupPath gameDir)
        if !backupExists then pure false
        else do
          let currentHash ← currentDllHash net gameDir
          let markerHash ← readDeployMarkerHash net gameDir
          let bootstrapHash ← tryGetBootstrapHash net s
          if isScblHook currentHash markerHash bootstrapHash then do
            Disk.copyFile .io (backupPath gameDir) (dllPath gameDir)
            pure true
          else pure false)
    (fun _ => pure false)

/-! ## Sequences of calls -/

inductive Action where
  | deploy | restore
  deriving DecidableEq, Repr

/-- A call with what it finds, the files elsewhere when it starts, and what befalls its operations. -/
structure Call where
  action : Action
  surroundings : Surroundings
  elsewhere : Text → Option Bytes
  mishaps : Mishaps

/-- The files in the game directory that the calls name. -/
def gameFiles (gameDir : Text) : List Text :=
  [dllPath gameDir, backupPath gameDir, temporaryPath (dllPath gameDir), rollbackPath (dllPath gameDir), markerPath gameDir]

/-- The disk when a call starts. -/
def started (gameDir : Text) (d : Disk Text Unit) (call : Call) : Disk Text Unit :=
  { d with files := fun path => if path ∈ gameFiles gameDir then d.files path else call.elsewhere path }

/-- The disk after a call, and whether the call copied the backup over the game DLL. -/
def callStep (gameDir : Text) (d : Disk Text Unit) (call : Call) : Disk Text Unit × Bool :=
  match call.action with
  | .deploy => (((deployHookDllSafely net gameDir call.surroundings).run call.mishaps (started gameDir d call)).state, false)
  | .restore =>
    match (restoreOriginalDllBestEffort net gameDir call.surroundings).run call.mishaps (started gameDir d call) with
    | .done restored _ d => (d, restored)
    | ended => (ended.state, false)

end Calls

end Scbl.Launcher.HookDllService
