import Scbl.Config
import Scbl.Lib.Disk
import Scbl.Lib.Text

/-!
# The transactional component installer

`TransactionalComponentInstaller.cs`. A path is a full one, in the case to which the file system folds it, so that two names of one file
are one path. `File.Exists` reports what is there; every other file operation can fail. The directory of a target is created in a step
that changes no file.
-/

namespace Scbl.Launcher.TransactionalComponentInstaller

open Scbl.Lib

structure ComponentFileInstall where
  sourcePath : Text
  targetPath : Text
  expectedSha256 : Text
  deriving DecidableEq, Repr

structure PreparedFile where
  install : ComponentFileInstall
  temporaryPath : Text
  backupPath : Text
  targetExisted : Bool
  deriving DecidableEq, Repr

/-- What an installation throws. -/
inductive InstallException where
  | io
  | fileNotFound (message path : Text)
  | invalidData (message : Text)
  | cryptographic (message : Text)
  deriving DecidableEq, Repr

/-- The files, and the list `prepared`. -/
abbrev Installer := Program (Disk Text (List PreparedFile)) InstallException

def temporaryPath (target : Text) : Text := target ++ ".component-new".toList

def backupPath (target : Text) : Text := target ++ ".component-backup".toList

theorem temporaryPath_inj {a b : Text} : temporaryPath a = temporaryPath b ↔ a = b := List.append_left_inj _

theorem backupPath_inj {a b : Text} : backupPath a = backupPath b ↔ a = b := List.append_left_inj _

theorem temporaryPath_ne_backupPath (a b : Text) : temporaryPath a ≠ backupPath b := by
  intro h
  have hlast := congrArg List.getLast? h
  simp [temporaryPath, backupPath] at hlast

theorem self_ne_temporaryPath (a : Text) : a ≠ temporaryPath a := by
  intro h
  have hlen := congrArg List.length h
  simp [temporaryPath] at hlen

theorem self_ne_backupPath (a : Text) : a ≠ backupPath a := by
  intro h
  have hlen := congrArg List.length h
  simp [backupPath] at hlen

def isHexDigit (c : Char) : Bool := c.isDigit || ('a' ≤ c && c ≤ 'f') || ('A' ≤ c && c ≤ 'F')

def tryDelete (path : Text) : Installer Unit := Disk.tryDelete .io path

section Hash

-- The SHA-256 digest of some bytes in hexadecimal.
variable (sha256 : Bytes → Text)

def computeSha256 (path : Text) : Installer Text := do
  let content ← Disk.readFile .io path
  pure (sha256 content)

def verifyHash (path expected label : Text) : Installer Unit := do
  let actual ← computeSha256 sha256 path
  Program.when (!equalsIgnoreCase actual expected)
    (.raise (.cryptographic (label ++ " SHA256 不一致。expected=".toList ++ expected ++ ", actual=".toList ++ actual)))

def validateInstall (install : ComponentFileInstall) : Installer Unit := do
  let sourceExists ← Disk.fileExists install.sourcePath
  if isBlank install.sourcePath || !sourceExists then
    .raise (.fileNotFound "组件源文件不存在。".toList install.sourcePath)
  else if isBlank install.targetPath then
    .raise (.invalidData "组件目标文件为空。".toList)
  else if install.expectedSha256.length ≠ 64 || !install.expectedSha256.all isHexDigit then
    .raise (.invalidData "组件文件 SHA256 格式无效。".toList)
  else
    verifyHash sha256 install.sourcePath install.expectedSha256 "组件源文件".toList

/-- Whether a file has the expected digest. -/
def hasHash (path expected : Text) : Installer Bool := do
  let actual ← computeSha256 sha256 path
  pure (equalsIgnoreCase actual expected)

/-- The target may be the new file of an attempt that was interrupted before its backup was removed. -/
def recoverTarget (target temporary backup expectedSha256 : Text) : Installer Unit := do
  tryDelete temporary
  let backupExists ← Disk.fileExists backup
  Program.when backupExists do
    let targetExists ← Disk.fileExists target
    let installed ← Program.tryCatch
      (if targetExists then do
        let installed ← hasHash sha256 target expectedSha256
        Program.when installed (tryDelete backup)
        pure installed
      else pure false)
      (fun _ => pure false)
    Program.when (!installed) do
      Program.when targetExists (tryDelete target)
      Disk.moveFile .io backup target

def createDirectory : Installer Unit := .operation .io (fun _ d => d) (fun d => .ok ((), d))

/-- The body of the first loop: a file that is not yet installed is copied beside its target. -/
def prepare (install : ComponentFileInstall) : Installer Unit := do
  validateInstall sha256 install
  let target := install.targetPath
  let temporary := temporaryPath target
  let backup := backupPath target
  createDirectory
  recoverTarget sha256 target temporary backup install.expectedSha256
  let targetExists ← Disk.fileExists target
  let installed ← (if targetExists then hasHash sha256 target install.expectedSha256 else pure false)
  Program.when (!installed) do
    tryDelete temporary
    Disk.copyFile .io install.sourcePath temporary
    verifyHash sha256 temporary install.expectedSha256 "组件临时文件".toList
    let targetExisted ← Disk.fileExists target
    Disk.setLocals (fun prepared => prepared ++ [{ install, temporaryPath := temporary, backupPath := backup, targetExisted }])

/-- The body of the second loop: the target is put aside and the new file takes its place. -/
def commit (item : PreparedFile) : Installer Unit := do
  tryDelete item.backupPath
  Program.when item.targetExisted (Disk.moveFile .io item.install.targetPath item.backupPath)
  Disk.moveFile .io item.temporaryPath item.install.targetPath
  verifyHash sha256 item.install.targetPath item.install.expectedSha256 "组件安装文件".toList

end Hash

/-- What is done for a prepared file after an exception. -/
def rollback (item : PreparedFile) : Installer Unit := do
  tryDelete item.temporaryPath
  Program.tryCatch
    (do
      let backupExists ← Disk.fileExists item.backupPath
      if backupExists then do
        tryDelete item.install.targetPath
        Disk.moveFile .io item.backupPath item.install.targetPath
      else
        Program.when (!item.targetExisted) (tryDelete item.install.targetPath))
    (fun _ => pure ())

/-- The targets that are listed more than once. -/
def duplicateTargets (files : List ComponentFileInstall) : List Text :=
  let targets := files.map (·.targetPath)
  targets.eraseDups.filter (fun target => 1 < targets.count target)

/-- The test's callback before each commit is left out: it is null elsewhere. -/
def install (sha256 : Bytes → Text) (files : List ComponentFileInstall) : Installer Unit := do
  if files.length = 0 then pure ()
  else if 0 < (duplicateTargets files).length then
    .raise (.invalidData ("组件事务包含重复目标文件：".toList ++ (", ".toList).intercalate (duplicateTargets files)))
  else
    Disk.setLocals (fun _ => [])
    Program.tryCatch
      (do
        files.forM (prepare sha256)
        let prepared ← Program.query (·.locals)
        prepared.forM (commit sha256)
        prepared.forM (fun item => tryDelete item.backupPath))
      (fun e => do
        let prepared ← Program.query (·.locals)
        prepared.reverse.forM rollback
        .raise e)

end Scbl.Launcher.TransactionalComponentInstaller
