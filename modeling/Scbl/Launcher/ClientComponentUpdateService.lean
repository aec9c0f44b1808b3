import Scbl.Launcher.ComponentVersion
import Scbl.Launcher.NetworkBootstrap
import Scbl.Launcher.TransactionalComponentInstaller
import Scbl.Lib.Dict
import Scbl.Lib.Json
import Mathlib.Data.List.Sort
import Mathlib.Data.List.Lex

/-!
# The component updates of the launcher

`ClientComponentUpdateService.cs`: the versions that are taken for installed, the checks of a component that the server offers, and the
update check. A dictionary that ignores the case of its keys has them in upper case; a `null` in a text of the server reads as an empty
text. What .NET makes of URIs and the SHA-256 digest are parameters; whether a download comes and whether a file can be written is told
by the surroundings.
-/

namespace Scbl.Launcher.ClientComponentUpdateService

open Scbl.Lib
open TransactionalComponentInstaller (isHexDigit)

inductive ClientUpdateChannel where
  | stable
  | test
  deriving DecidableEq, Repr

/-- `ComponentUpdateChannelName` -/
def ClientUpdateChannel.name : ClientUpdateChannel → Text
  | .stable => "stable".toList
  | .test => "test".toList

structure ComponentSpec where
  fileName : Text
  updateMode : Text
  deriving DecidableEq, Repr

def supportedSchemaVersion : Int := 2

def hooksComponentName : Text := "hooks".toList

def supportedComponents : List (Text × ComponentSpec) :=
  [ ("hooks".toList, { fileName := "uplay_r1_loader.dll".toList, updateMode := "before-game-start".toList }),
    ("route-guard".toList, { fileName := "route-guard.zip".toList, updateMode := "next-launch".toList }),
    ("easytier".toList, { fileName := "easytier-windows-x86_64.zip".toList, updateMode := "next-launch".toList }),
    ("updater".toList, { fileName := "SCBL.Updater.exe".toList, updateMode := "next-launch".toList }) ]

def findSupported (name : Text) : Option ComponentSpec := (supportedComponents.find? (fun item => equalsIgnoreCase item.1 name)).map (·.2)

/-- The key of a name where case is ignored. -/
def upperName (name : Text) : Text := name.map Char.toUpper

structure ClientComponentDefinition where
  version : Text := []
  sha256 : Text := []
  size : Int := 0
  url : Text := []
  minLauncherVersion : Text := []
  updateMode : Text := []
  required : Bool := false
  deriving DecidableEq, Repr

structure ClientComponentManifest where
  schemaVersion : Int := 0
  channel : Text := []
  /-- `none` is `null`, for the whole and for a component. -/
  components : Option (List (Text × Option ClientComponentDefinition)) := some []
  deriving DecidableEq, Repr

structure SourceUri where
  scheme : Text
  host : Text
  port : Int
  absolutePath : Text
  deriving DecidableEq, Repr

/-- `new Uri` of an absolute text, and of a text against a base; `none` is a `UriFormatException`. -/
structure Uris where
  absolute : Text → Option SourceUri
  relative : SourceUri → Text → Option SourceUri

structure VerifiedClientComponent where
  name : Text
  version : Text
  sha256 : Text
  filePath : Text
  channel : Text
  sourceUri : SourceUri
  deriving DecidableEq, Repr

/-- What ends a check. -/
inductive ReconcileException where
  | update (e : UpdateException)
  | nullReference
  | uriFormat
  | http
  | io
  | cryptographic (message : Text)
  /-- The exception on the test channel, with the one that it reports. -/
  | invalidOperation (inner : ReconcileException)
  deriving DecidableEq, Repr

abbrev Check := Except ReconcileException

def invalidData (message : Text) : ReconcileException := .update (.invalidData message)

/-! ## The versions that are installed -/

/-- `^[0-9a-fA-F]{64}$`, where a line feed may follow. -/
def isSha256 (value : Text) : Bool :=
  let isHex := fun t : Text => t.length = 64 && t.all isHexDigit
  isHex value || (value.getLast? = some '\n' && isHex value.dropLast)

/-- `TryGetProperty`: the last member of the name. The outer `none` is the exception of a value that is no object. -/
def tryGetProperty (value : Json) (name : Text) : Option (Option Json) :=
  value.members?.map (fun members => Dict.get members.reverse name)

/-- `GetString() ?? ""`; `none` is the exception of a value that is no string. -/
def getString : Json → Option Text
  | .str t => some t
  | .null => some []
  | _ => none

/-- The text of a member, which is empty where there is none. -/
def stringProperty (value : Json) (name : Text) : Option Text :=
  (tryGetProperty value name).bind (fun element => element.elim (some []) getString)

/-- The versions and digests of components. -/
abbrev Versions := List (Text × (Text × Text))

/-- The loop over the packaged versions, which an exception ends. -/
def addPackaged (result : Versions) : Json.Object → Versions
  | [] => result
  | (name, value) :: rest =>
    if (findSupported name).isNone then addPackaged result rest
    else
      match getString value with
      | none => result
      | some version =>
        if !isBlank version && version.any (·.isDigit) then addPackaged (Dict.set result (upperName name) (version, [])) rest
        else addPackaged result rest

/-- From `client_package_manifest.json`; `none` is a file that is not there or no JSON. -/
def readPackagedComponentVersions (packageManifest : Option Json) : Versions :=
  match packageManifest.bind (tryGetProperty · "componentVersions".toList) with
  | some (some (.object members)) => addPackaged [] members
  | _ => []

/-- What the state records of a component, where it is well formed. -/
def readRecorded (value : Json) : Option (Option (Text × Text)) :=
  (stringProperty value "Version".toList).bind (fun version =>
    (stringProperty value "Sha256".toList).map (fun sha256 =>
      if !isBlank version && isSha256 sha256 then some (version, sha256) else none))

/-- The loop over the recorded components, which an exception ends. -/
def addRecorded (result : Versions) : Json.Object → Versions
  | [] => result
  | (name, value) :: rest =>
    match readRecorded value with
    | none => result
    | some none => addRecorded result rest
    | some (some installed) => addRecorded (Dict.set result (upperName name) installed) rest

/-- The components that `component_state.json` records for a channel; `none` is a file that is not there or no JSON. -/
def recordedComponents (channel : Text) (componentState : Option Json) : Json.Object :=
  match componentState.bind (stringProperty · "Channel".toList) with
  | some stateChannel =>
    if equalsIgnoreCase stateChannel channel then
      match componentState.bind (tryGetProperty · "Components".toList) with
      | some (some (.object members)) => members
      | _ => []
    else []
  | none => []

def readInstalledComponentVersions (channel : Text) (packageManifest componentState : Option Json) : Versions :=
  addRecorded (readPackagedComponentVersions packageManifest) (recordedComponents channel componentState)

/-! ## The checks of a component -/

def compareVersions (current candidate : Text) : Check Ordering := (compareComponentVersions current candidate).mapError .update

def validateComponentProgression (name currentVersion currentSha256 candidateVersion candidateSha256 : Text) : Check Unit := do
  let comparison ← compareVersions currentVersion candidateVersion
  if comparison = .gt then
    throw (invalidData ("组件 ".toList ++ name ++ " 拒绝降级：current=".toList ++ currentVersion ++ ", candidate=".toList ++ candidateVersion ++
      "。".toList))
  if comparison = .eq ∧ equalsIgnoreCase currentVersion candidateVersion ∧ isSha256 currentSha256 ∧
      !equalsIgnoreCase currentSha256 candidateSha256 then
    throw (invalidData ("组件 ".toList ++ name ++ " 的同一版本出现不同 SHA256；不可变组件不能被同版本覆盖。version=".toList ++ candidateVersion ++
      "。".toList))

/-- `Version.TryParse`: two to four numbers; one that is missing is -1. -/
def tryParseVersion (value : Text) : Option (List Int) :=
  let parts := value.splitOn '.'
  if 2 ≤ parts.length ∧ parts.length ≤ 4 then
    (parts.mapM (fun part => (tryParseInt part).filter (0 ≤ ·))).map (fun numbers => numbers ++ List.replicate (4 - parts.length) (-1))
  else none

/-- `ToString` of a version. -/
def versionText (version : List Int) : Text := joinWith '.' ((version.filter (0 ≤ ·)).map intText)

def parseVersion (value : Text) : Check (List Int) :=
  let clean := (trim value).dropWhile ['v', 'V'].contains
  let clean := clean.takeWhile (fun c => c ≠ '+' && c ≠ '-')
  (tryParseVersion clean).elim (.error (invalidData ("版本号格式无效：".toList ++ value))) .ok

def ensureLauncherCompatibility (launcherVersion minimumVersion : Text) : Check Unit :=
  if isBlank minimumVersion then pure ()
  else do
    let required ← parseVersion minimumVersion
    let current ← parseVersion launcherVersion
    if current < required then
      throw (invalidData ("当前启动器版本 ".toList ++ versionText current ++ " 低于组件要求的最低版本 ".toList ++ versionText required ++
        "。".toList))

/-- What is not under the control of the launcher while it checks for updates. -/
structure Surroundings where
  launcherVersion : Text
  manifestUri : SourceUri
  /-- The manifest that the server sends; it may be `null`. -/
  served : Check (Option ClientComponentManifest)
  download : SourceUri → Option Bytes
  canWrite : Text → Bool

def resolveAndValidateSourceUri (uris : Uris) (manifestUri : SourceUri) (value : Text) : Check SourceUri := do
  let trimmed := trim value
  let source ← Option.elim
    (if startsWithIgnoreCase trimmed "http://".toList || startsWithIgnoreCase trimmed "https://".toList then uris.absolute trimmed
      else uris.relative manifestUri trimmed)
    (.error .uriFormat) .ok
  if !equalsIgnoreCase source.scheme manifestUri.scheme || !equalsIgnoreCase source.host manifestUri.host ||
      source.port ≠ manifestUri.port then
    throw (invalidData "组件下载地址必须与组件清单来自同一更新服务。".toList)
  pure source

def endsWithIgnoreCase (value ending : Text) : Bool := startsWithIgnoreCase value.reverse ending.reverse

/-- The definition, with its digest trimmed. -/
def validateDefinition (uris : Uris) (manifestUri : SourceUri) (name : Text) (definition : Option ClientComponentDefinition) :
    Check ClientComponentDefinition := do
  let spec ← (findSupported name).elim (.error (invalidData ("组件清单包含当前启动器不支持的组件：".toList ++ name))) .ok
  let definition ← definition.elim (.error .nullReference) .ok
  if isBlank definition.version then throw (invalidData ("组件 ".toList ++ name ++ " 版本为空。".toList))
  let definition := { definition with sha256 := trim definition.sha256 }
  if !isSha256 definition.sha256 then throw (invalidData ("组件 ".toList ++ name ++ " SHA256 格式无效。".toList))
  if definition.size < 0 then throw (invalidData ("组件 ".toList ++ name ++ " 大小无效。".toList))
  if isBlank definition.url then throw (invalidData ("组件 ".toList ++ name ++ " 下载地址为空。".toList))
  if !definition.required then throw (invalidData ("组件 ".toList ++ name ++ " 必须标记 required=true。".toList))
  if !equalsIgnoreCase definition.updateMode spec.updateMode then
    throw (invalidData ("组件 ".toList ++ name ++ " updateMode 不匹配：expected=".toList ++ spec.updateMode ++ ", actual=".toList ++
      definition.updateMode ++ "。".toList))
  let source ← resolveAndValidateSourceUri uris manifestUri definition.url
  if !endsWithIgnoreCase source.absolutePath ('/' :: spec.fileName) then
    throw (invalidData ("组件 ".toList ++ name ++ " 下载文件名无效，必须为 ".toList ++ spec.fileName ++ "。".toList))
  pure definition

def parseAndValidateManifest (served : Check (Option ClientComponentManifest)) (expectedChannel : Text) :
    Check (List (Text × Option ClientComponentDefinition)) := do
  let manifest ← (← served).elim (.error (invalidData "组件清单为空或无法解析。".toList)) .ok
  if manifest.schemaVersion ≠ supportedSchemaVersion then
    throw (invalidData ("不支持的组件清单版本：".toList ++ intText manifest.schemaVersion ++ "。".toList))
  if !equalsIgnoreCase manifest.channel expectedChannel then
    throw (invalidData ("组件清单通道不匹配：expected=".toList ++ expectedChannel ++ ", actual=".toList ++ manifest.channel ++ "。".toList))
  manifest.components.elim (.error (invalidData "组件清单 components 无效。".toList)) .ok

/-! ## The update check -/

/-- What is on the disk for a launch: the manifest of the package, the recorded state, and the files. -/
structure Installation where
  channel : ClientUpdateChannel
  packageManifest : Option Json
  componentState : Option Json
  persistentDataDirectory : Text
  files : Text → Option Bytes

def isInvalidFileNameChar (c : Char) : Bool := c.toNat < 32 || ['"', '<', '>', '|', ':', '*', '?', '\\', '/'].contains c

def sanitizePathSegment (value : Text) : Text :=
  let clean := (trim value).map (fun c => if isInvalidFileNameChar c then '_' else c)
  if isBlank clean then "unknown".toList else clean

def combinePath (segments : List Text) : Text := joinWith '\\' segments

def componentStatePath (m : Installation) : Text := combinePath [m.persistentDataDirectory, "components".toList, "component_state.json".toList]

section Digest

-- The SHA-256 digest of some bytes in hexadecimal.
variable (sha256 : Bytes → Text) (uris : Uris) (m : Installation) (e : Surroundings)

/-- The file of a component in the cache, downloaded unless it is there. -/
def ensureCachedComponent (name : Text) (definition : ClientComponentDefinition) : Check VerifiedClientComponent := do
  let spec ← (findSupported name).elim (.error .nullReference) .ok
  let sourceUri ← resolveAndValidateSourceUri uris e.manifestUri definition.url
  let filePath := combinePath
    [m.persistentDataDirectory, "components".toList, name, sanitizePathSegment definition.version, spec.fileName]
  let verified := fun hash : Text =>
    { name, version := definition.version, sha256 := hash, filePath, channel := m.channel.name, sourceUri : VerifiedClientComponent }
  let expectedHash := definition.sha256.map Char.toUpper
  match (m.files filePath).filter (fun existing =>
    equalsIgnoreCase (sha256 existing) expectedHash && (definition.size ≤ 0 || (existing.length : Int) = definition.size)) with
  | some existing => pure (verified (sha256 existing))
  | none =>
    let payload ← (e.download sourceUri).elim (.error .http) .ok
    if 0 < definition.size ∧ (payload.length : Int) ≠ definition.size then
      throw (invalidData ("组件 ".toList ++ name ++ " 文件大小不一致：expected=".toList ++ intText definition.size ++ ", actual=".toList ++
        intText payload.length ++ "。".toList))
    if !equalsIgnoreCase (sha256 payload) expectedHash then
      throw (.cryptographic ("组件 ".toList ++ name ++ " SHA256 校验失败：expected=".toList ++ expectedHash ++ ", actual=".toList ++
        sha256 payload ++ "。".toList))
    if !e.canWrite filePath then throw .io
    pure (verified (sha256 payload))

/-- Whether the package holds the version that is offered, after the check that this is no older one. -/
def alreadyProvided (installed : Versions) (name : Text) (definition : ClientComponentDefinition) : Check Bool :=
  match Dict.get installed (upperName name) with
  | none => pure false
  | some (version, hash) => do
    validateComponentProgression name version hash definition.version definition.sha256
    let comparison ← compareVersions version definition.version
    pure (comparison = .eq && isBlank hash)

abbrev VerifiedComponents := List (Text × VerifiedClientComponent)

/-- The body of the loop over the components. -/
def reconcileComponent (installed : Versions) (verified : VerifiedComponents) (item : Text × Option ClientComponentDefinition) :
    Check VerifiedComponents := do
  let definition ← validateDefinition uris e.manifestUri item.1 item.2
  ensureLauncherCompatibility e.launcherVersion definition.minLauncherVersion
  let provided ← alreadyProvided installed item.1 definition
  if provided then pure verified
  else
    let component ← ensureCachedComponent sha256 uris m e item.1 definition
    pure (Dict.set verified (upperName item.1) component)

/-- `OrderBy` of the names without regard to case. -/
def orderByName (components : List (Text × Option ClientComponentDefinition)) : List (Text × Option ClientComponentDefinition) :=
  components.insertionSort (fun a b => ¬upperName b.1 < upperName a.1)

/-- What is tried. -/
def checkComponents : Check VerifiedComponents := do
  let components ← parseAndValidateManifest e.served m.channel.name
  let installed := readInstalledComponentVersions m.channel.name m.packageManifest m.componentState
  let verified ← (orderByName components).foldlM (reconcileComponent sha256 uris m e installed) []
  if !e.canWrite (componentStatePath m) then throw .io
  pure verified

/-- A failure blocks the test channel; on the stable one the packaged components remain. -/
def reconcileSelectedChannel : Check VerifiedComponents :=
  match checkComponents sha256 uris m e with
  | .ok verified => .ok verified
  | .error ex =>
    match m.channel with
    | .test => .error (.invalidOperation ex)
    | .stable => .ok []

def resolveHooksForSelectedChannel : Check (Option VerifiedClientComponent) := do
  let components ← reconcileSelectedChannel sha256 uris m e
  match Dict.get components (upperName hooksComponentName) with
  | some hooks => pure (some hooks)
  | none => if m.channel = .test then throw (invalidData "测试通道组件清单缺少必需的 hooks 组件。".toList) else pure none

end Digest

/-! ## The state that is written -/

/-- The document of `WriteState`; the text of a URI is given. -/
def stateDocument (uriText : SourceUri → Text) (updatedAt channel : Text) (manifestUri : SourceUri) (components : VerifiedComponents) : Json :=
  .object
    [ ("SchemaVersion".toList, .int supportedSchemaVersion), ("UpdatedAt".toList, .str updatedAt), ("Channel".toList, .str channel),
      ("Manifest".toList, .str (uriText manifestUri)),
      ("Components".toList, .object (components.map (fun item => (item.1, .object
        [ ("Version".toList, .str item.2.version), ("Sha256".toList, .str (item.2.sha256.map Char.toLower)),
          ("FilePath".toList, .str item.2.filePath), ("Source".toList, .str (uriText item.2.sourceUri)) ])))) ]

end Scbl.Launcher.ClientComponentUpdateService
