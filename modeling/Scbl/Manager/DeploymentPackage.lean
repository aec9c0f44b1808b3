import Scbl.Lib.FileTree
import Scbl.Manager.ClientPublish

/-!
# Deployment packages

`DeploymentManager.verify` and `_extract_artifacts` of `scblctl/deployment.py`. What a message quotes of a component that is no string is
left out.
-/

namespace Scbl.Manager.DeploymentManager

open Scbl.Lib Json
open ClientPublisher (pathParts safeName suffix matchesSha256 memberName)

/-- What is raised. -/
inductive PackageFailure where
  | deployment (message : Text)
  | os
  | badZip
  | key
  deriving DecidableEq, Repr

structure Artifact where
  component : Text
  version : Text
  path : Text
  size : Nat
  sha256 : Text
  deriving DecidableEq, Repr

structure DeploymentPackage where
  packageType : Text
  version : Text
  archive : Text
  artifacts : List Artifact
  sha256 : Text
  deriving DecidableEq, Repr

def packageManifest : Text := "scbl-package.json".toList

def packageTypes : List (Text × Text) := [("full".toList, "scbl-full".toList), ("patch".toList, "scbl-patch".toList)]

def knownComponents : List Text := ["server.manager".toList, "server.runtime".toList]

def fullComponents : List Text := knownComponents

/-- 1.5 GiB. -/
def maxPackageSize : Nat := 1536 * 1024 * 1024

/-- Raise when a condition holds. -/
def refuseWhen (condition : Bool) (message : Text) : Except PackageFailure Unit :=
  if condition then .error (.deployment message) else pure ()

/-- A value that has to be there. -/
def demand {α : Type} (failure : PackageFailure) (value : Option α) : Except PackageFailure α := value.elim (.error failure) .ok

/-- `set(value) == keys`, of the keys of a dictionary. -/
def hasKeys (members : Object) (keys : List Text) : Bool :=
  members.all (fun member => keys.contains member.1) && keys.all (fun key => (Dict.get members key).isSome)

def manifestKeys : List Text := ["schemaVersion".toList, "packageType".toList, "version".toList, "artifacts".toList]

def artifactKeys : List Text := ["component".toList, "version".toList, "path".toList, "size".toList, "sha256".toList]

/-- The text of a member, if it is a string that passes a check. -/
def textMember (members : Object) (key : Text) (valid : Text → Bool) : Option Text := ((Dict.get members key).bind text?).filter valid

/-- The body of the loop over the artifacts. -/
def parseArtifact (value : Json) : Except PackageFailure Artifact := do
  let members ← demand (.deployment "部署组件清单字段无效".toList) (value.members?.filter (hasKeys · artifactKeys))
  let named := ((Dict.get members "component".toList).bind text?).getD []
  let component ← demand (.deployment ("未知部署组件：".toList ++ named)) (textMember members "component".toList knownComponents.contains)
  let version ← demand (.deployment ("组件版本无效：".toList ++ component)) (textMember members "version".toList validVersion)
  let path ← demand (.deployment ("组件路径无效：".toList ++ component)) (textMember members "path".toList safeName)
  let size ← (match Dict.get members "size".toList with
    | some (.int (.ofNat size)) =>
      if 0 < size ∧ size ≤ 1024 * 1024 * 1024 then .ok size else .error (.deployment ("组件大小无效：".toList ++ component))
    | _ => .error (.deployment ("组件大小无效：".toList ++ component)))
  let digest ← demand (.deployment ("组件 SHA256 无效：".toList ++ component)) (textMember members "sha256".toList matchesSha256)
  pure { component, version, path, size, sha256 := digest.map Char.toLower }

def parseManifest (raw : Json) : Except PackageFailure (Text × Text × List Artifact) := do
  let members ← demand (.deployment "部署包清单字段或版本无效".toList) (raw.members?.filter (fun members =>
    hasKeys members manifestKeys && ((Dict.get members "schemaVersion".toList).map equalsOne).getD false))
  let packageType ← demand (.deployment "部署包 packageType 无效".toList)
    (textMember members "packageType".toList (packageTypes.map (·.2)).contains)
  let version ← demand (.deployment "部署包版本必须是 X.Y.Z".toList) (textMember members "version".toList validVersion)
  match Dict.get members "artifacts".toList with
  | some (.list (value :: values)) => do
    let artifacts ← (value :: values).mapM parseArtifact
    refuseWhen (!decide (artifacts.map Artifact.component).Nodup) "部署包包含重复组件".toList
    pure (packageType, version, artifacts)
  | _ => .error (.deployment "部署包没有组件".toList)

/-- The entry that `bundle.open` takes for a name, the last of it. -/
def entryNamed (bundle : List ZipInfo) (name : Text) : Option ZipInfo := bundle.reverse.find? (fun info => info.filename = name)

section Library

-- What `zipfile`, `json` and `hashlib` make of some bytes.
variable (unzip : Bytes → Option (List ZipInfo)) (loads : Bytes → Option Json) (sha256 : Bytes → Text)

/-- The body of the loop over the artifacts of a manifest. -/
def verifyArtifact (infos : List ZipInfo) (artifact : Artifact) : Except PackageFailure Unit := do
  let info ← demand .key (infos.find? (fun info => memberName info = artifact.path))
  refuseWhen (info.fileSize ≠ artifact.size) ("组件大小不符：".toList ++ artifact.component)
  let actual ← demand .badZip info.content
  refuseWhen (sha256 actual ≠ artifact.sha256) ("组件 SHA256 不符：".toList ++ artifact.component)

/-- The archive is checked; it is under its path, if there is one. -/
def verify (archive : Option Archive) (expectedKind : Text) : Except PackageFailure DeploymentPackage := do
  let expectedType ← demand (.deployment ("未知包类型：".toList ++ expectedKind)) (Dict.get packageTypes expectedKind)
  let archive ← demand .os archive
  let content ← demand (.deployment "部署包不存在或超过 1.5 GiB".toList)
    (archive.content.filter (fun content => content.length ≤ maxPackageSize))
  let expectedSuffix := if expectedKind = "full".toList then ".scblfull".toList else ".scblpatch".toList
  refuseWhen ((suffix archive.name).map Char.toLower ≠ expectedSuffix) (expectedKind ++ " 包扩展名必须是 ".toList ++ expectedSuffix)
  let bundle ← demand (.deployment "部署包 ZIP 结构已损坏".toList) (unzip content)
  let infos := bundle.filter (fun item => item.filename.getLast? ≠ some '/')
  refuseWhen (32 < infos.length) "部署包文件数量超过限制".toList
  let names := infos.map memberName
  refuseWhen (!decide names.Nodup || names.any (fun name => !safeName name)) "部署包包含不安全或重复路径".toList
  refuseWhen (!names.contains packageManifest) ("部署包缺少 ".toList ++ packageManifest)
  let info ← demand .key (entryNamed bundle packageManifest)
  let manifest ← demand .badZip info.content
  let raw ← demand (.deployment "部署包清单不是有效 UTF-8 JSON".toList) (loads manifest)
  let (packageType, version, artifacts) ← parseManifest raw
  refuseWhen (packageType ≠ expectedType) ("操作需要 ".toList ++ expectedType ++ "，实际为 ".toList ++ packageType)
  let components := artifacts.map Artifact.component
  refuseWhen (expectedKind = "full".toList && !(components.all fullComponents.contains && fullComponents.all components.contains))
    "完整安装包必须同时包含 server.manager 和 server.runtime".toList
  let expectedNames := packageManifest :: artifacts.map Artifact.path
  refuseWhen (!(names.all expectedNames.contains && expectedNames.all names.contains)) "部署包实际文件与清单不一致".toList
  artifacts.forM (verifyArtifact sha256 infos)
  pure { packageType, version, archive := archive.name, artifacts, sha256 := sha256 content }

/-! ## Extraction -/

/-- The files of components that are extracted, below the destination. -/
abbrev ExtractedFiles := List (Text × List Text)

/-- The body of the loop over the artifacts of a package. -/
def extractArtifact (bundle : List ZipInfo) (state : ExtractedFiles × FileTree Text) (artifact : Artifact) :
    Except PackageFailure (ExtractedFiles × FileTree Text) := do
  let target := pathParts artifact.path
  let tree ← demand .os (state.2.makeDirectories target.dropLast)
  let info ← demand .key (entryNamed bundle artifact.path)
  let content ← demand .badZip info.content
  let tree ← demand .os (tree.place target (.file content))
  pure (Dict.set state.1 artifact.component target, tree)

/-- The artifacts of a package, from the bytes of its archive into a directory. -/
def extractArtifacts (content : Bytes) (package : DeploymentPackage) (destination : FileTree Text) :
    Except PackageFailure (ExtractedFiles × FileTree Text) := do
  let bundle ← demand .badZip (unzip content)
  package.artifacts.foldlM (extractArtifact bundle) ([], destination)

end Library

end Scbl.Manager.DeploymentManager
