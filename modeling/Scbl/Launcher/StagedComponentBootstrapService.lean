import Scbl.Launcher.TransactionalComponentInstaller

/-!
# Replacing a staged component

`ReplaceFileAtomically` of `StagedComponentBootstrapService.cs`. The target is put aside as a backup before the new file takes its
place, and the backup is put back after an exception. The paths beside the target are those of the transactional installer.
-/

namespace Scbl.Launcher.StagedComponentBootstrapService

open Scbl.Lib
open TransactionalComponentInstaller (temporaryPath backupPath)

/-- What a replacement throws. -/
inductive ReplaceException where
  | io
  | cryptographic (message : Text)
  deriving DecidableEq, Repr

/-- The files. -/
abbrev Replacement := Program (Disk Text Unit) ReplaceException

def tryDelete (path : Text) : Replacement Unit := Disk.tryDelete .io path

def createDirectory : Replacement Unit := .operation .io (fun _ d => d) (fun d => .ok ((), d))

section Hash

-- The SHA-256 digest of some bytes in hexadecimal.
variable (sha256 : Bytes → Text)

/-- Throw unless a file has the expected digest. -/
def requireHash (path expected message : Text) : Replacement Unit := do
  let content ← Disk.readFile .io path
  Program.when (!equalsIgnoreCase (sha256 content) expected) (.raise (.cryptographic message))

def replaceFileAtomically (source target expectedHash : Text) : Replacement Unit := do
  createDirectory
  let temporary := temporaryPath target
  let backup := backupPath target
  tryDelete temporary
  tryDelete backup
  Program.tryCatch
    (do
      Disk.copyFile .io source temporary
      requireHash sha256 temporary expectedHash "staged component temporary file hash mismatch".toList
      let targetExists ← Disk.fileExists target
      Program.when targetExists (Disk.moveFile .io target backup)
      Disk.moveFile .io temporary target
      requireHash sha256 target expectedHash "staged component installed file hash mismatch".toList
      tryDelete backup)
    (fun e => do
      tryDelete temporary
      let backupExists ← Disk.fileExists backup
      Program.when backupExists (Disk.moveFile .io backup target)
      .raise e)

/-- An attempt to replace the target, and what befalls its operations. -/
def attempt (source target expectedHash : Text) (d : Disk Text Unit) (mishaps : Mishaps) : Disk Text Unit × Unit :=
  (((replaceFileAtomically sha256 source target expectedHash).run mishaps d).state, ())

end Hash

end Scbl.Launcher.StagedComponentBootstrapService
