import Scbl.Launcher.ClientComponentUpdateService

/-!
# The staged components

Which of the recorded components a start of the launcher applies (`StagedComponentBootstrapService.cs`, and the two services that catch
what it throws). The serializer reads the names of properties without regard to case; the components are under their names as they are
written. What a reader makes of an archive is a parameter; whether the files of a component can be replaced is told by the surroundings.
-/

namespace Scbl.Launcher.StagedComponentBootstrapService

open Scbl.Lib
open ClientComponentUpdateService (Installation combinePath)

/-- A text may be `null`. -/
structure ComponentStateEntry where
  version : Option Text := some []
  sha256 : Option Text := some []
  filePath : Option Text := some []
  deriving DecidableEq, Repr

structure ComponentStateDocument where
  channel : Option Text := some []
  components : Option (List (Text × Option ComponentStateEntry)) := some []
  deriving DecidableEq, Repr

/-! ## The serializer -/

/-- A text or `null`; the outer `none` is a `JsonException`. -/
def readText : Json → Option (Option Text)
  | .str t => some (some t)
  | .null => some none
  | _ => none

def setEntryProperty (entry : ComponentStateEntry) (member : Text × Json) : Option ComponentStateEntry :=
  if equalsIgnoreCase member.1 "Version".toList then (readText member.2).map (fun version => { entry with version })
  else if equalsIgnoreCase member.1 "Sha256".toList then (readText member.2).map (fun sha256 => { entry with sha256 })
  else if equalsIgnoreCase member.1 "FilePath".toList then (readText member.2).map (fun filePath => { entry with filePath })
  else some entry

def readEntry : Json → Option (Option ComponentStateEntry)
  | .object members => (members.foldlM setEntryProperty {}).map some
  | .null => some none
  | _ => none

def readEntries : Json → Option (Option (List (Text × Option ComponentStateEntry)))
  | .object members =>
    (members.foldlM (fun entries member => (readEntry member.2).map (Dict.set entries member.1)) []).map some
  | .null => some none
  | _ => none

def setStateProperty (state : ComponentStateDocument) (member : Text × Json) : Option ComponentStateDocument :=
  if equalsIgnoreCase member.1 "Channel".toList then (readText member.2).map (fun channel => { state with channel })
  else if equalsIgnoreCase member.1 "Components".toList then (readEntries member.2).map (fun components => { state with components })
  else some state

def readState : Json → Option ComponentStateDocument
  | .object members => members.foldlM setStateProperty {}
  | _ => none

/-- The state, where it is that of the channel of this launch. -/
def loadSelectedChannelState (m : Installation) : Option ComponentStateDocument :=
  (m.componentState.bind readState).filter (fun state => state.channel.any (equalsIgnoreCase · m.channel.name))

/-! ## Applying a component -/

/-- What an archive holds: the full names of its entries, and their contents; `none` is no archive. -/
abbrev ZipReader := Bytes → Option (List (Text × Bytes))

/-- What is not under the control of the launcher while it starts. -/
structure StartSurroundings where
  baseDirectory : Text
  easyTierIsRunning : Bool
  gameIsRunning : Bool
  /-- Whether the files of a component can be replaced; if not, they are as before. -/
  canReplace : Text → Bool

/-- A component that is in place after it was applied. -/
structure AppliedComponent where
  component : Text
  version : Option Text
  content : Bytes
  deriving DecidableEq, Repr

section Digest

-- The SHA-256 digest of some bytes in hexadecimal.
variable (sha256 : Bytes → Text) (zip : ZipReader) (m : Installation) (e : StartSurroundings)

/-- The content of the cached file, where it has the digest that is recorded; `none` is an exception. -/
def verifyCachedComponent (entry : ComponentStateEntry) : Option Bytes :=
  ((entry.filePath.filter (!isBlank ·)).bind m.files).filter (fun content => entry.sha256.any (equalsIgnoreCase (sha256 content)))

def updaterPath : Text := combinePath [e.baseDirectory, "tools".toList, "SCBL.Updater.exe".toList]

/-- The target may have the digest already; `none` is an exception. -/
def applySingleFile (component targetPath : Text) (entry : ComponentStateEntry) : Option AppliedComponent :=
  (verifyCachedComponent sha256 m entry).bind (fun content =>
    if (m.files targetPath).any (fun installed => equalsIgnoreCase (sha256 installed) (sha256 content)) || e.canReplace component then
      some { component, version := entry.version, content }
    else none)

/-- `\` becomes `/`. -/
def normalizeEntryName (fullName : Text) : Text := fullName.map (fun c => if c = '\\' then '/' else c)

def isUnsafeEntryName (normalized : Text) : Bool := "/".toList.isPrefixOf normalized || (normalized.splitOn '/').contains "..".toList

/-- Whether an archive can be opened, has no unsafe path and every expected file. -/
def isBundle (sourceNames : List Text) (content : Bytes) : Bool :=
  (zip content).any (fun entries =>
    entries.all (fun item => !isUnsafeEntryName (normalizeEntryName item.1)) &&
      sourceNames.all (fun sourceName => entries.any (fun item => equalsIgnoreCase (normalizeEntryName item.1) sourceName)))

def applyZipBundle (component : Text) (sourceNames : List Text) (entry : ComponentStateEntry) : Option AppliedComponent :=
  (verifyCachedComponent sha256 m entry).bind (fun content =>
    if isBundle zip sourceNames content && e.canReplace component then some { component, version := entry.version, content } else none)

/-- `TryGetValue`, and what is done with the entry: an entry that is `null` is an exception, and one that is not there changes nothing. -/
def applyEntry (components : List (Text × Option ComponentStateEntry)) (component : Text)
    (apply : ComponentStateEntry → Option AppliedComponent) : Option (List AppliedComponent) :=
  match Dict.get components component with
  | none => some []
  | some entry => (entry.bind apply).map (fun applied => [applied])

def easyTierFiles : List Text := ["easytier-core.exe".toList, "easytier-cli.exe".toList]

def routeGuardFiles : List Text := ["scbl-process-router.exe".toList, "WinDivert.dll".toList, "WinDivert64.sys".toList]

/-- What is applied before an exception stays. -/
def applyUpdaterAndEasyTier : List AppliedComponent :=
  match (loadSelectedChannelState m).bind (·.components) with
  | none => []
  | some components =>
    match applyEntry components "updater".toList (applySingleFile sha256 m e "updater".toList (updaterPath e)) with
    | none => []
    | some updater =>
      let easyTier :=
        if e.easyTierIsRunning then none
        else applyEntry components "easytier".toList (applyZipBundle sha256 zip m e "easytier".toList easyTierFiles)
      updater ++ easyTier.getD []

def applyRouteGuard : List AppliedComponent :=
  match (loadSelectedChannelState m).bind (·.components) with
  | none => []
  | some components =>
    if e.gameIsRunning then []
    else (applyEntry components "route-guard".toList (applyZipBundle sha256 zip m e "route-guard".toList routeGuardFiles)).getD []

end Digest

end Scbl.Launcher.StagedComponentBootstrapService
