import Mathlib.Data.Set.Finite.Basic
import Scbl.Config
import Scbl.Lib.Disk
import Scbl.Lib.Text

/-!
# Full updates of the client

How `SCBL.Updater/Program.cs` applies an extracted package: `ApplyFullPackage` takes a snapshot, copies the package over the installation
and restores the snapshot after an exception. A place is a root and the names below it, in the case to which the file system folds them;
the work directory, named by a GUID, and the snapshot, named by the time, are new and have roots of their own. The log, the pause between
two attempts and the release of the WinDivert driver change no file, and neither does the creation of directories, which can fail.
-/

namespace Scbl.Updater

open Scbl.Lib

/-- The extracted package, the installation, and the snapshot of this update. -/
inductive Root where
  | content
  | target
  | backup
  deriving DecidableEq, Repr

structure Place where
  root : Root
  path : List Text
  deriving DecidableEq, Repr

/-- The place of a relative path. -/
def Place.combine (dir : Place) (relative : List Text) : Place := { dir with path := dir.path ++ relative }

abbrev Files := Place → Option Bytes

/-- How directories list the files below them, in some order. -/
structure Listing where
  getFiles : Files → Place → List (List Text)
  mem_getFiles : ∀ (files : Files) (dir : Place) (relative : List Text), {place | (files place).isSome = true}.Finite →
    (relative ∈ getFiles files dir ↔ relative ≠ [] ∧ (files (dir.combine relative)).isSome = true)

inductive UpdaterException where
  | io
  | mismatch (message : Text)
  | unableToReplace (relative : Text)
  deriving DecidableEq, Repr

abbrev UpdateProgram := Program (Disk Place Unit) UpdaterException

/-- A relative path as it is printed. -/
def relativeText (path : List Text) : Text := joinWith '\\' path

def normalizeRelative (relative : Text) : Text :=
  (trim (relative.map (fun c => if c = '\\' then '/' else c))).dropWhile (· = '/')

/-- A text without the slashes at its end. -/
def trimEndSlash (t : Text) : Text := (t.reverse.dropWhile (· = '/')).reverse

def matchesPattern (relative : Text) (patterns : List Text) : Bool :=
  let relative := normalizeRelative relative
  patterns.any (fun raw =>
    let pattern := normalizeRelative raw
    if isBlank pattern then false
    else if pattern.getLast? = some '/' then
      let pattern := trimEndSlash pattern
      equalsIgnoreCase relative pattern || startsWithIgnoreCase relative (pattern ++ ['/'])
    else equalsIgnoreCase relative (trimEndSlash pattern))

def isSkippedDirectory (relative : Text) : Bool :=
  matchesPattern relative ["temp/".toList, "logs/".toList, "updates/".toList, "backup/".toList]

/-- The name at the end of a normalized path. -/
def fileName (relative : Text) : Text := (relative.splitOn '/').getLastD []

def isUpdateMetadataFile (relative : Text) : Bool :=
  let name := fileName (normalizeRelative relative)
  equalsIgnoreCase name "update_manifest.json".toList || equalsIgnoreCase name "client_update_manifest.json".toList ||
    equalsIgnoreCase name "client_package_info.json".toList

/-- The launcher, in the case of the file system. -/
def launcherName : Text := "splintercellcnlauncher.exe".toList

def toolsName : Text := "tools".toList

def newSuffix : Text := ".scbl-update-new".toList

/-- Where a file is written before it replaces another. -/
def temporaryOf (destination : Place) : Place :=
  { destination with path := destination.path.dropLast ++ [destination.path.getLastD [] ++ newSuffix] }

def tryDelete (place : Place) : UpdateProgram Unit := Disk.tryDelete .io place

def createDirectory : UpdateProgram Unit := .operation .io (fun _ d => d) (fun d => .ok ((), d))

section Hash

-- The SHA-256 digest of some bytes in hexadecimal.
variable (sha256 : Bytes → Text)

def computeSha256 (place : Place) : UpdateProgram Text := do
  let content ← Disk.readFile .io place
  pure (sha256 content)

def filesAreIdentical (first second : Place) : UpdateProgram Bool :=
  Program.tryCatch
    (do
      let lengths ← Program.query (fun d => ((d.files first).map List.length, (d.files second).map List.length))
      if lengths.1.isSome ∧ lengths.1 = lengths.2 then do
        let firstHash ← computeSha256 sha256 first
        let secondHash ← computeSha256 sha256 second
        pure (equalsIgnoreCase firstHash secondHash)
      else pure false)
    (fun _ => pure false)

/-- What one attempt does: the source is copied beside the destination and takes its place. -/
def replaceFile (source destination : Place) : UpdateProgram Unit := do
  let temporary := temporaryOf destination
  tryDelete temporary
  Disk.copyFile .io source temporary
  let copied ← filesAreIdentical sha256 source temporary
  Program.when (!copied) (.raise (.mismatch "temporary file hash mismatch".toList))
  Disk.moveFile .io temporary destination
  let installed ← filesAreIdentical sha256 source destination
  Program.when (!installed) (.raise (.mismatch "installed file hash mismatch".toList))

/-- The loop over the attempts that are left. -/
def attemptReplace (source destination : Place) (relative : Text) : Nat → UpdateProgram Unit
  | 0 => .raise (.unableToReplace relative)
  | attempts + 1 => do
    let replaced ← Program.tryCatch
      (do
        replaceFile sha256 source destination
        pure true)
      (fun _ => do
        tryDelete (temporaryOf destination)
        pure false)
    Program.when (!replaced) (attemptReplace source destination relative attempts)

def copyFileWithRetry (source destination : Place) (relative : Text) : UpdateProgram Unit := do
  let destinationExists ← Disk.fileExists destination
  let unchanged ← (if destinationExists then filesAreIdentical sha256 source destination else pure false)
  Program.when (!unchanged) do
    createDirectory
    attemptReplace sha256 source destination relative 32

variable (listing : Listing)

def copyDirectory (source target : Place) : UpdateProgram Unit := do
  createDirectory
  let files ← Program.query (fun d => listing.getFiles d.files source)
  files.forM (fun relative =>
    if isSkippedDirectory (relativeText relative) then pure ()
    else if isUpdateMetadataFile (relativeText relative) then pure ()
    else copyFileWithRetry sha256 (source.combine relative) (target.combine relative) (relativeText relative))

/-- Whether there are files in a directory: one without files needs no copy. -/
def directoryExists (dir : Place) : UpdateProgram Bool := Program.query (fun d => listing.getFiles d.files dir ≠ [])

def backupCurrent : UpdateProgram Unit := do
  createDirectory
  [launcherName, toolsName].forM (fun name => do
    let source : Place := { root := .target, path := [name] }
    let destination : Place := { root := .backup, path := [name] }
    let isFile ← Disk.fileExists source
    let isDirectory ← directoryExists listing source
    if isFile then do
      createDirectory
      copyFileWithRetry sha256 source destination name
    else Program.when isDirectory (copyDirectory sha256 listing source destination))

def restoreBackup : UpdateProgram Unit :=
  Program.tryCatch
    (do
      let launcher : Place := { root := .backup, path := [launcherName] }
      let launcherExists ← Disk.fileExists launcher
      Program.when launcherExists
        (copyFileWithRetry sha256 launcher { root := .target, path := [launcherName] } "SplinterCellCNLauncher.exe rollback".toList)
      let tools : Place := { root := .backup, path := [toolsName] }
      let toolsExists ← directoryExists listing tools
      Program.when toolsExists (copyDirectory sha256 listing tools { root := .target, path := [toolsName] }))
    (fun _ => pure ())

/-- The package is extracted in the content root. -/
def applyFullPackage : UpdateProgram Unit := do
  backupCurrent sha256 listing
  Program.tryCatch (copyDirectory sha256 listing { root := .content, path := [] } { root := .target, path := [] })
    (fun e => do
      restoreBackup sha256 listing
      .raise e)

end Hash

end Scbl.Updater
