import Scbl.Lib.Dict
import Scbl.Lib.Program
import Scbl.Manager.ComponentVersion

/-!
# Publishing client components

`ClientComponentPublisher` of `scblctl/client_components.py`. The repository holds the directories of the artifacts, one for each version
of a component, the directory that `mkdtemp` made last, and the manifests of the channels. Every call of the system can fail; the
files that are written beside others and then take their places, the backups, the owners and the modes are not seen in the repository.
-/

namespace Scbl.Manager

open Scbl.Lib

def schemaVersion : Nat := 2

structure ComponentSpec where
  filename : Text
  updateMode : Text
  deriving DecidableEq, Repr

def components : List (Text × ComponentSpec) :=
  [("hooks".toList, { filename := "uplay_r1_loader.dll".toList, updateMode := "before-game-start".toList }),
    ("route-guard".toList, { filename := "route-guard.zip".toList, updateMode := "next-launch".toList }),
    ("easytier".toList, { filename := "easytier-windows-x86_64.zip".toList, updateMode := "next-launch".toList }),
    ("updater".toList, { filename := "SCBL.Updater.exe".toList, updateMode := "next-launch".toList })]

/-- The record of an artifact. -/
structure Entry where
  version : Text
  sha256 : Text
  size : Nat
  url : Text
  minLauncherVersion : Text
  updateMode : Text
  required : Bool
  deriving DecidableEq, Repr

/-- `component.json`. -/
structure Metadata where
  schemaVersion : Nat
  component : Text
  artifact : Entry
  deriving DecidableEq, Repr

/-- The directory of a version: the file of the component, and `component.json`. -/
structure Directory where
  file : Option Bytes
  metadata : Option Metadata
  deriving DecidableEq, Repr

/-- `client_components_v2.json` of a channel. -/
structure Manifest where
  schemaVersion : Nat
  channel : Text
  components : List (Text × Entry)
  deriving DecidableEq, Repr

structure Repository where
  artifacts : Text → Text → Option Directory
  temporary : Directory
  manifests : Text → Option Manifest

namespace Repository

def empty : Repository := { artifacts := fun _ _ => none, temporary := { file := none, metadata := none }, manifests := fun _ => none }

/-- What is in the file of an artifact. -/
def file (s : Repository) (component version : Text) : Option Bytes := (s.artifacts component version).bind (·.file)

def metadata (s : Repository) (component version : Text) : Option Metadata := (s.artifacts component version).bind (·.metadata)

def setTemporary (s : Repository) (directory : Directory) : Repository := { s with temporary := directory }

def setArtifact (s : Repository) (component version : Text) (directory : Directory) : Repository :=
  { s with artifacts := Function.update s.artifacts component (Function.update (s.artifacts component) version (some directory)) }

def setManifest (s : Repository) (channel : Text) (manifest : Manifest) : Repository :=
  { s with manifests := Function.update s.manifests channel (some manifest) }

end Repository

/-- The argument of a publication, where there is one: its name, and what is in it when it is a file. -/
structure Source where
  name : Text
  content : Option Bytes
  deriving DecidableEq, Repr

inductive PublishException where
  | clientComponent (error : ClientComponentError)
  | os
  deriving DecidableEq, Repr

abbrev Publisher := Program Repository PublishException

def refuse {α : Type} (message : Text) : Except ClientComponentError α := .error { message }

/-- Refuse when a condition holds. -/
def refuseWhen (condition : Bool) (message : Text) : Except ClientComponentError Unit := if condition then refuse message else pure ()

/-- A check that refuses raises. -/
def check {α : Type} (x : Except ClientComponentError α) : Publisher α := .ofExcept (x.mapError .clientComponent)

/-- A call of the system that changes nothing that is seen. -/
def unseen : Publisher Unit := .operation .os (fun _ s => s) (fun s => .ok ((), s))

/-- A call that changes the repository as a whole. -/
def change (f : Repository → Repository) : Publisher Unit := .operation .os (fun _ s => s) (fun s => .ok ((), f s))

/-- Read something that may be missing. -/
def readFile {α : Type} (read : Repository → Option α) : Publisher α :=
  .operation .os (fun _ s => s) (fun s =>
    match read s with
    | some a => .ok (a, s)
    | none => .error .os)

def isFile {α : Type} (read : Repository → Option α) : Publisher Bool := .query (fun s => (read s).isSome)

def fileSize (read : Repository → Option Bytes) : Publisher Nat := do
  let content ← readFile read
  pure content.length

/-- What takes the place of a file: the directory and a file beside it are made, written and moved, and what is left is removed. -/
def replaceWhole (write : Publisher Unit) (put : Repository → Repository) : Publisher Unit := do
  unseen
  unseen
  Program.tryFinally
    (do
      write
      unseen
      change put)
    unseen

def copyFile {α : Type} (source : Repository → Option α) (put : Repository → Repository) : Publisher Unit :=
  replaceWhole
    (do
      let _ ← readFile source
      unseen)
    put

def atomicWrite (put : Repository → Repository) : Publisher Unit := replaceWhole unseen put

def readJson {α : Type} (read : Repository → Option α) (path : Text) : Publisher α :=
  Program.tryCatch (readFile read) (fun _ => check (refuse ("JSON 文件无法读取：".toList ++ path)))

def spec (component : Text) : Except ClientComponentError ComponentSpec :=
  match Dict.get components component with
  | some spec => .ok spec
  | none => refuse ("未知客户端组件：".toList ++ component)

def validateChannel (channel : Text) : Except ClientComponentError Unit :=
  refuseWhen (channel ≠ "stable".toList && channel ≠ "test".toList) ("未知客户端组件通道：".toList ++ channel)

def requireRoot (privileged : Bool) : Except ClientComponentError Unit :=
  refuseWhen (!privileged) "客户端组件发布需要在 Linux 服务端使用 root 执行".toList

/-- 512 MiB. -/
def maximumSize : Nat := 512 * 1024 * 1024

def artifactUrl (component version filename : Text) : Text :=
  "/components/artifacts/".toList ++ component ++ ['/'] ++ version ++ ['/'] ++ filename

def isDigest (digest : Text) : Bool := digest.length = 64 && digest.all (fun c => c.isDigit || ('a' ≤ c && c ≤ 'f'))

def validateEntry (component : Text) (entry : Entry) : Except ClientComponentError Unit := do
  let spec ← spec component
  let version ← validateVersion entry.version
  refuseWhen (!isDigest entry.sha256) ("组件 SHA256 无效：".toList ++ component)
  refuseWhen (entry.size = 0 || maximumSize < entry.size) ("组件大小无效：".toList ++ component)
  refuseWhen (entry.url ≠ artifactUrl component version spec.filename || entry.updateMode ≠ spec.updateMode)
    ("组件路径或更新方式无效：".toList ++ component)
  refuseWhen (!entry.required) ("组件必须标记为 required：".toList ++ component)

def emptyManifest (channel : Text) : Manifest := { schemaVersion, channel, components := [] }

/-- `chmod` and `chown` change nothing that is seen. -/
def setUpdateOwner : Publisher Unit := unseen

section Root

-- The root of the repository, which messages name.
variable (root : Text)

def manifestPath (channel : Text) : Text := root ++ "/components/channels/".toList ++ channel ++ "/client_components_v2.json".toList

def metadataPath (component version : Text) : Text :=
  root ++ "/components/artifacts/".toList ++ component ++ ['/'] ++ version ++ "/component.json".toList

def loadManifest (channel : Text) : Publisher Manifest := do
  check (validateChannel channel)
  let pathExists ← isFile (fun s => s.manifests channel)
  if pathExists then do
    let payload ← readJson (fun s => s.manifests channel) (manifestPath root channel)
    check (refuseWhen (payload.schemaVersion ≠ schemaVersion || payload.channel ≠ channel) (channel ++ " 客户端组件清单无效".toList))
    payload.components.forM (fun item => check (validateEntry item.1 item.2))
    pure payload
  else pure (emptyManifest channel)

def writeManifest (channel : Text) (manifest : Manifest) : Publisher Unit := do
  let manifest := { manifest with schemaVersion, channel }
  check (validateChannel channel)
  let pathExists ← isFile (fun s => s.manifests channel)
  Program.when pathExists (copyFile (fun s => s.manifests channel) id)
  atomicWrite (fun s => s.setManifest channel manifest)
  setUpdateOwner

section Hash

-- The SHA-256 digest of some bytes in hexadecimal.
variable (sha256 : Bytes → Text)

def fileDigest (read : Repository → Option Bytes) : Publisher Text := do
  let content ← readFile read
  pure (sha256 content)

/-- A directory that exists has to hold the same artifact. -/
def compareArtifact (component version digest : Text) (entry : Entry) : Publisher Unit := do
  let old ← readJson (fun s => s.metadata component version) (metadataPath root component version)
  let present ← isFile (fun s => s.file component version)
  let same ← (if present then do
      let installed ← fileDigest sha256 (fun s => s.file component version)
      pure (installed = digest && old.artifact = entry)
    else pure false)
  check (refuseWhen (!same) ("不可变组件 ".toList ++ component ++ ['/'] ++ version ++ " 已存在且内容不同，拒绝覆盖".toList))

/-- A directory is written beside the others and takes its place. -/
def createArtifact (component version : Text) (content : Option Bytes) (entry : Entry) : Publisher Unit := do
  unseen
  change (fun s => s.setTemporary { file := none, metadata := none })
  Program.tryCatch
    (do
      unseen
      copyFile (fun _ => content) (fun s => s.setTemporary { s.temporary with file := content })
      atomicWrite (fun s => s.setTemporary { s.temporary with metadata := some { schemaVersion, component, artifact := entry } })
      change (fun s => s.setArtifact component version s.temporary))
    (fun e => do
      Program.tryCatch (change (fun s => s.setTemporary { file := none, metadata := none })) (fun _ => pure ())
      .raise e)

/-- An entry that is published already must not be newer, nor of the same version with another digest. -/
def comparePublished (component version digest : Text) (existing : Entry) : Except ClientComponentError Unit := do
  let oldVersion ← validateVersion existing.version
  let new ← versionTuple version
  let old ← versionTuple oldVersion
  refuseWhen (new < old) ("拒绝降级 ".toList ++ component ++ "：当前 ".toList ++ oldVersion ++ "，上传 ".toList ++ version)
  refuseWhen (version = oldVersion && existing.sha256 ≠ digest) "同一组件版本不能对应不同 SHA256".toList

def publish (privileged : Bool) (component version : Text) (source : Option Source) (channel : Text) : Publisher Entry := do
  check (requireRoot privileged)
  let spec ← check (spec component)
  let version ← check (validateVersion version)
  check (validateChannel channel)
  let source ← readFile (fun _ => source)
  check (refuseWhen (source.content.isNone || !equalsIgnoreCase source.name spec.filename)
    (component ++ " 文件名必须是 ".toList ++ spec.filename))
  let smallest ← fileSize (fun _ => source.content)
  check (refuseWhen (smallest = 0) "客户端组件为空或超过 512 MiB".toList)
  let largest ← fileSize (fun _ => source.content)
  check (refuseWhen (maximumSize < largest) "客户端组件为空或超过 512 MiB".toList)
  let digest ← fileDigest sha256 (fun _ => source.content)
  let size ← fileSize (fun _ => source.content)
  let entry : Entry :=
    { version, sha256 := digest, size, url := artifactUrl component version spec.filename, minLauncherVersion := [],
      updateMode := spec.updateMode, required := true }
  let targetExists ← isFile (fun s => s.artifacts component version)
  (if targetExists then compareArtifact root sha256 component version digest entry
    else createArtifact component version source.content entry)
  unseen
  setUpdateOwner
  setUpdateOwner
  let manifest ← loadManifest root channel
  check (match Dict.get manifest.components component with
    | some existing => comparePublished component version digest existing
    | none => .ok ())
  writeManifest channel { manifest with components := Dict.set manifest.components component entry }
  pure entry

def verifyEntry (component : Text) (entry : Entry) : Publisher Unit := do
  check (validateEntry component entry)
  let present ← isFile (fun s => s.file component entry.version)
  let sized ← (if present then do
      let size ← fileSize (fun s => s.file component entry.version)
      pure (decide (size = entry.size))
    else pure false)
  check (refuseWhen (!sized) ("组件文件缺失或大小不符：".toList ++ component))
  let digest ← fileDigest sha256 (fun s => s.file component entry.version)
  check (refuseWhen (digest ≠ entry.sha256) ("组件文件 SHA256 不符：".toList ++ component))

/-- The entry of the stable channel must not be newer. -/
def comparePromoted (entry current : Entry) : Except ClientComponentError Unit := do
  let new ← versionTuple entry.version
  let old ← versionTuple current.version
  refuseWhen (new < old) "拒绝把较旧的测试组件提升到正式通道".toList

def promote (privileged : Bool) (component : Text) : Publisher Entry := do
  check (requireRoot privileged)
  let _ ← check (spec component)
  let test ← loadManifest root "test".toList
  let entry ← check (match Dict.get test.components component with
    | some entry => .ok entry
    | none => refuse ("测试通道没有 ".toList ++ component))
  verifyEntry sha256 component entry
  let stable ← loadManifest root "stable".toList
  check (match Dict.get stable.components component with
    | some current => comparePromoted entry current
    | none => .ok ())
  writeManifest "stable".toList { stable with components := Dict.set stable.components component entry }
  pure entry

/-- A call of the publisher. -/
inductive Call where
  | publish (privileged : Bool) (component version : Text) (source : Option Source) (channel : Text)
  | promote (privileged : Bool) (component : Text)

def Call.program : Call → Publisher Entry
  | .publish privileged component version source channel => Manager.publish root sha256 privileged component version source channel
  | .promote privileged component => Manager.promote root sha256 privileged component

/-- A call, and what befalls its operations. -/
def step (s : Repository) (call : Call × Mishaps) : Repository × Execution Repository PublishException Entry :=
  let execution := (call.1.program root sha256).run call.2 s
  (execution.state, execution)

end Hash

end Root

end Scbl.Manager
