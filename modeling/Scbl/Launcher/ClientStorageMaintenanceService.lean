import Scbl.Launcher.ClientComponentUpdateService
import Scbl.Lib.Ranking
import Scbl.Lib.WindowsPath
import Mathlib.Data.Prod.Lex

/-!
# Pruning the component cache

`PruneComponentVersions` and `ReadActiveComponentDirectories` of `ClientStorageMaintenanceService.cs`. The file system compares names
without regard to case, by a map of characters to upper case. Where an enumeration or a deletion fails is told by the faults; the time at
which something was written is that of the directory itself.
-/

namespace Scbl.Launcher.ClientStorageMaintenanceService

open Scbl.Lib
open ClientComponentUpdateService (tryGetProperty)

/-- A name in a directory. -/
abbrev FileName : Type := { name : Text // IsFileName name }

inductive Node where
  | file (content : Bytes)
  | directory (lastWriteTimeUtc : Int)
  deriving DecidableEq, Repr

/-- A file or a directory, by the directory it is in and its name. -/
structure Entry where
  parent : PathNames
  name : FileName
  node : Node

def Entry.path (entry : Entry) : PathNames := entry.parent ++ [entry.name.1]

/-- The upper case of a character, the path of a text that names no volume, and the reader of JSON, which takes the bytes of a file. -/
structure Platform where
  upper : Char → Char
  relativePath : Text → Option PathNames
  parse : Bytes → Option Json

/-- What fails: reading the state file, enumerating the components behind so many of them, enumerating all versions, enumerating the
versions of a component, and the deletion of a directory, which then keeps some of its files. -/
structure Faults where
  stateUnreadable : Bool := false
  componentsSeen : Option Nat := none
  fallbackFails : Bool := false
  versionsFail : PathNames → Bool := fun _ => false
  deletion : PathNames → Option (PathNames → Bool) := fun _ => none

section Files

variable (p : Platform)

def upperText (t : Text) : Text := t.map p.upper

/-- What two names of a file have in common. -/
def pathKey (path : PathNames) : PathNames := path.map (upperText p)

/-- What is at a path. -/
def find (entries : List Entry) (path : PathNames) : Option Node :=
  (entries.find? (fun entry => decide (pathKey p entry.path = pathKey p path))).map Entry.node

/-- The directories in a directory, with the times at which they were written. -/
def enumerateDirectories (entries : List Entry) (path : PathNames) : List (FileName × Int) :=
  entries.filterMap (fun entry =>
    match entry.node with
    | .directory lastWriteTimeUtc => if pathKey p entry.parent = pathKey p path then some (entry.name, lastWriteTimeUtc) else none
    | .file _ => none)

def directoryExists (entries : List Entry) (path : PathNames) : Bool :=
  match find p entries path with
  | some (.directory _) => true
  | _ => false

/-- Whether an entry is at a directory or in it. -/
def isWithin (directory : PathNames) (entry : Entry) : Bool := (pathKey p directory).isPrefixOf (pathKey p entry.path)

/-- Whether the deletion of a directory removes an entry. -/
def removes (faults : Faults) (directory : PathNames) (entry : Entry) : Bool :=
  isWithin p directory entry &&
    match faults.deletion directory with
    | none => true
    | some kept => decide (pathKey p entry.path ≠ pathKey p directory) && !kept entry.path

/-- `Delete(recursive: true)` -/
def deleteDirectory (faults : Faults) (entries : List Entry) (directory : PathNames) : List Entry :=
  entries.filter (fun entry => !removes p faults directory entry)

/-- `Path.GetFullPath`; `none` is its exception. -/
def getFullPath (t : Text) : Option PathNames :=
  if t = [] ∨ '\x00' ∈ t then none
  else if (volumeLength (pathNames t)).isSome then some (normalPath (pathNames t))
  else p.relativePath t

/-! ## The active components -/

/-- `TryGetProperty` with one name and else with another. -/
def tryGetEither (value : Json) (name other : Text) : Option (Option Json) :=
  (tryGetProperty value name).bind (fun found => if found.isSome then some found else tryGetProperty value other)

/-- The directory of the file of a component, if one is recorded. -/
def recordedDirectory (component : Json) : Option (Option PathNames) :=
  (tryGetEither component "FilePath".toList "filePath".toList).bind (fun found =>
    match found with
    | none | some .null => some none
    | some (.str path) => if isBlank path then some none else (getFullPath p path).map directoryName
    | some _ => none)

/-- The directories of the files of the recorded components; `none` is an exception. -/
def recordedDirectories (document : Json) : Option (List PathNames) :=
  (tryGetEither document "Components".toList "components".toList).bind (fun components =>
    match components with
    | none => some []
    | some components => components.members?.bind (fun members =>
      (members.mapM (fun member => recordedDirectory p member.2)).map (·.filterMap id)))

/-- All directories in directories of the components directory. -/
def allVersions (entries : List Entry) (root : PathNames) : List PathNames :=
  (enumerateDirectories p entries root).flatMap (fun component =>
    (enumerateDirectories p entries (root ++ [component.1.1])).map (fun version => normalPath (root ++ [component.1.1, version.1.1])))

def componentStateName : Text := "component_state.json".toList

def readActiveComponentDirectories (faults : Faults) (entries : List Entry) (root : PathNames) : Option (List PathNames) :=
  let fallback := if faults.fallbackFails then none else some (allVersions p entries root)
  match find p entries (root ++ [componentStateName]) with
  | some (.file content) =>
    if faults.stateUnreadable then fallback
    else
      match (p.parse content).bind (recordedDirectories p) with
      | some directories => some directories
      | none => fallback
  | _ => some []

/-! ## Pruning -/

/-- The keys of paths are compared name by name. -/
local instance lawfulBEq_pathKey : LawfulBEq (List Text) := inferInstance

/-- The order of versions: by the time at which they were written, and then by name. -/
def versionKey (version : FileName × Int) : Int ×ₗ List Nat := toLex (version.2, utf16Units (upperText p version.1.1))

/-- The body of the loop over the components. -/
def pruneComponent (faults : Faults) (keep : Int) (root : PathNames) (active : List PathNames) (entries : List Entry)
    (component : FileName × Int) : List Entry :=
  let componentDirectory := root ++ [component.1.1]
  if faults.versionsFail componentDirectory then entries
  else
    let versions := rankBy (versionKey p) (enumerateDirectories p entries componentDirectory)
    let fullPath := fun version : FileName × Int => normalPath (componentDirectory ++ [version.1.1])
    let retained := (versions.take keep.toNat).map (fun version => pathKey p (fullPath version)) ++ active.map (pathKey p)
    versions.foldl (fun entries version =>
      if pathKey p (fullPath version) ∈ retained then entries else deleteDirectory p faults entries (fullPath version)) entries

def pruneComponentVersions (faults : Faults) (componentsRoot : Text) (keep : Int) (entries : List Entry) : List Entry :=
  match getFullPath p componentsRoot with
  | none => entries
  | some root =>
    if !directoryExists p entries root then entries
    else
      match readActiveComponentDirectories p faults entries root with
      | none => entries
      | some active =>
        let components := enumerateDirectories p entries root
        ((faults.componentsSeen.elim components components.take).foldl (pruneComponent p faults keep root active) entries)

def componentVersionsToKeep : Int := 2

end Files

end Scbl.Launcher.ClientStorageMaintenanceService
