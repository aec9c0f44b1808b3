import Scbl.Manager.NetworkBootstrap

/-!
# Publishing the client

`ClientPublisher` of `scblctl/client_publish.py`. What a message lists of the paths that are missing or too many, and what it quotes of a
path of the manifest of a package, is left out.
-/

namespace Scbl.Manager

open Scbl.Lib Json

/-- What `publish` raises. -/
inductive PublishFailure where
  | clientPublish (message : Text)
  | os
  | badZip
  | value
  deriving DecidableEq, Repr

/-- A member of a ZIP file; some cannot be read. -/
structure ZipInfo where
  filename : Text
  fileSize : Nat
  externalAttr : Nat
  content : Option Bytes

/-- What there is under the path of an archive: its name, and what is in it when it is a file. -/
structure Archive where
  name : Text
  content : Option Bytes

structure ClientPackage where
  version : Text
  archive : Text
  sha256 : Text
  size : Nat
  deriving DecidableEq, Repr

namespace ClientPublisher

def clientPackageManifest : Text := "client_package_manifest.json".toList

/-- The required files, in their order. -/
def requiredFiles : List Text :=
  ["SplinterCellCNLauncher.exe".toList, "tools/SCBL.Updater.exe".toList, "tools/easytier-core.exe".toList,
    "tools/scbl-process-router.exe".toList, "tools/uplay_r1_loader.dll".toList]

/-- Refuse when a condition holds. -/
def refuseWhen (condition : Bool) (message : Text) : Except PublishFailure Unit :=
  if condition then .error (.clientPublish message) else pure ()

/-- A value that has to be there. -/
def demand {α : Type} (failure : PublishFailure) : Option α → Except PublishFailure α
  | some a => .ok a
  | none => .error failure

def requireRoot (linux privileged : Bool) : Except PublishFailure Unit := do
  refuseWhen (!linux) "客户端发布只能在 Linux 服务端执行".toList
  refuseWhen (!privileged) "客户端发布需要 root 权限".toList

/-- `PurePosixPath(name).parts`, without the root. -/
def pathParts (name : Text) : List Text := (name.splitOn '/').filter (fun part => part ≠ [] && part ≠ ['.'])

/-- The parts of a path are never empty or a single dot. -/
def safeName (name : Text) : Bool :=
  name ≠ [] && !name.contains '\u0000' && !name.contains ':' && name.head? ≠ some '/' && !(pathParts name).contains "..".toList

/-- `suffix`, the end of a name from its last dot on, where that is neither its first character nor its last. -/
def suffix (name : Text) : Text :=
  let last := (name.reverse.takeWhile (· ≠ '.')).reverse
  if last ≠ [] ∧ last.length + 1 < name.length then '.' :: last else []

/-- 1 GiB. -/
def maximumPackage : Nat := 1024 * 1024 * 1024

/-- `re.fullmatch(r"[0-9a-fA-F]{64}", digest)`. -/
def matchesSha256 (digest : Text) : Bool :=
  digest.length = 64 && digest.all (fun c => c.isDigit || ('a' ≤ c && c ≤ 'f') || ('A' ≤ c && c ≤ 'F'))

def itemKeys : List Text := ["path".toList, "size".toList, "sha256".toList]

/-- The files that a manifest declares, after those declared before. -/
def parseFiles : List Json → List (Text × Nat × Text) → Except PublishFailure (List (Text × Nat × Text))
  | [], declared => .ok declared
  | item :: items, declared => do
    let members ← demand (.clientPublish "客户端文件清单字段无效".toList) item.members?
    refuseWhen (!(members.all (fun member => itemKeys.contains member.1) && itemKeys.all (fun key => (Dict.get members key).isSome)))
      "客户端文件清单字段无效".toList
    let name ← demand (.clientPublish "客户端文件路径无效或重复".toList) ((Dict.get members "path".toList).bind text?)
    refuseWhen (!safeName name || (Dict.get declared name).isSome) "客户端文件路径无效或重复".toList
    let size ← (match Dict.get members "size".toList with
      | some (.int (.ofNat size)) => if size ≤ 512 * 1024 * 1024 then .ok size else .error (.clientPublish ("客户端文件大小无效：".toList ++ name))
      | _ => .error (.clientPublish ("客户端文件大小无效：".toList ++ name)))
    let digest ← demand (.clientPublish ("客户端文件 SHA256 无效：".toList ++ name)) ((Dict.get members "sha256".toList).bind text?)
    refuseWhen (!matchesSha256 digest) ("客户端文件 SHA256 无效：".toList ++ name)
    parseFiles items (Dict.set declared name (size, digest.map Char.toLower))

def parseManifest (raw : Json) : Except PublishFailure (Text × List (Text × Nat × Text)) := do
  let members ← demand (.clientPublish "不支持的客户端包清单版本".toList) raw.members?
  refuseWhen (!((Dict.get members "schemaVersion".toList).map equalsOne).getD false) "不支持的客户端包清单版本".toList
  let version ← demand (.clientPublish "客户端版本必须是 X.Y.Z".toList) ((Dict.get members "clientVersion".toList).bind text?)
  refuseWhen (!validVersion version) "客户端版本必须是 X.Y.Z".toList
  match Dict.get members "files".toList with
  | some (.list (item :: items)) => do
    let declared ← parseFiles (item :: items) []
    pure (version, declared)
  | _ => .error (.clientPublish "客户端包清单 files 不能为空".toList)

/-- `item.filename.replace("\\", "/")`. -/
def memberName (item : ZipInfo) : Text := item.filename.map (fun c => if c = '\\' then '/' else c)

/-- `stat.S_ISLNK`, of the mode in the upper half of the attributes. -/
def isLink (item : ZipInfo) : Bool := (item.externalAttr >>> 16) &&& 0o170000 = 0o120000

/-- The names of the members, after those of the members before, and with their size. -/
def memberNames : List ZipInfo → List Text → Nat → Except PublishFailure (List Text)
  | [], names, _ => .ok names
  | item :: infos, names, totalSize => do
    let name := memberName item
    refuseWhen (!safeName name || names.contains name) ("客户端 ZIP 路径不安全或重复：".toList ++ name)
    refuseWhen (isLink item) ("客户端 ZIP 不能包含符号链接：".toList ++ name)
    let totalSize := totalSize + item.fileSize
    refuseWhen (maximumPackage < totalSize) "客户端 ZIP 解压后超过 1 GiB".toList
    memberNames infos (names ++ [name]) totalSize

section Library

-- What `zipfile`, `json` and `hashlib` make of some bytes.
variable (unzip : Bytes → Option (List ZipInfo)) (loads : Bytes → Option Json) (sha256 : Bytes → Text)

/-- A member is as the manifest declares it. -/
def verifyMember (infos : List ZipInfo) (name : Text) (size : Nat) (digest : Text) : Except PublishFailure Unit := do
  let info ← demand .value (infos.find? (fun info => memberName info = name))
  refuseWhen (info.fileSize ≠ size) ("客户端文件大小不符：".toList ++ name)
  let content ← demand .badZip info.content
  refuseWhen (sha256 content ≠ digest) ("客户端文件 SHA256 不符：".toList ++ name)

/-- The archive is checked; it is under its path, if there is one. -/
def verify (archive : Option Archive) : Except PublishFailure ClientPackage := do
  let archive ← demand .os archive
  let content ← demand (.clientPublish "客户端包必须是 ZIP 文件".toList) archive.content
  refuseWhen ((suffix archive.name).map Char.toLower ≠ ".zip".toList) "客户端包必须是 ZIP 文件".toList
  refuseWhen (maximumPackage < content.length) "客户端 ZIP 不能超过 1 GiB".toList
  let bundle ← demand (.clientPublish "客户端 ZIP 已损坏".toList) (unzip content)
  let infos := bundle.filter (fun item => item.filename.getLast? ≠ some '/')
  refuseWhen (256 < infos.length) "客户端 ZIP 文件数量超过限制".toList
  let names ← memberNames infos [] 0
  refuseWhen (!names.contains clientPackageManifest) ("客户端 ZIP 缺少 ".toList ++ clientPackageManifest)
  let manifest ← demand .badZip ((infos.find? (fun info => info.filename = clientPackageManifest)).bind (·.content))
  let raw ← demand (.clientPublish "客户端包清单不是有效 UTF-8 JSON".toList) (loads manifest)
  let (version, declared) ← parseManifest raw
  let expected := declared.map (·.1) ++ [clientPackageManifest]
  refuseWhen (!(names.all expected.contains && expected.all names.contains)) "客户端 ZIP 与清单不一致".toList
  let missing := requiredFiles.filter (fun name => !names.contains name)
  refuseWhen (missing ≠ []) ("客户端包缺少必要文件：".toList ++ (missing.intersperse ", ".toList).flatten)
  declared.forM (fun file => verifyMember sha256 infos file.1 file.2.1 file.2.2)
  pure { version, archive := archive.name, sha256 := sha256 content, size := content.length }

def currentVersion (s : UpdateRoot) : Text := publishedVersion (((s.files clientManifest).bind members?).getD [])

/-- A package that is older than the current version, or is published already, is refused. -/
def compareCurrent (version current : Text) (force : Bool) : Except PublishFailure Unit := do
  if current ≠ [] then do
    let new ← demand .value (versionTuple version)
    let old ← demand .value (versionTuple current)
    refuseWhen (new < old) ("拒绝降级客户端：当前 ".toList ++ current ++ "，上传包 ".toList ++ version)
  refuseWhen (current = version && !force) ("客户端 ".toList ++ version ++ " 已发布；如需覆盖必须明确使用 --force".toList)

/-- The path of a package below the root. -/
def releasePath (version : Text) : Text :=
  "releases/".toList ++ version ++ "/SCBL-Client-v".toList ++ version ++ "-win-x86.zip".toList

/-- What a manifest that is replaced passes on. -/
def keptBootstrap (previous : Option Json) : Object :=
  match ((previous.bind members?).bind (fun members => Dict.get members bootstrapKey)) with
  | some (.object members) => [(bootstrapKey, .object members)]
  | _ => []

/-- The manifest of a package. -/
def manifestPayload (package : ClientPackage) (releaseNotes : Option (List Text)) (s : UpdateRoot) : Object :=
  let notes := match releaseNotes with
    | some (note :: notes) => note :: notes
    | _ => ["SCBL ".toList ++ package.version ++ " 客户端".toList]
  [("version".toList, .str package.version), ("updateMode".toList, .str "full-package".toList),
    ("fullPackage".toList, .str (releasePath package.version)), ("fullPackageSha256".toList, .str package.sha256),
    ("releaseNotes".toList, .list (notes.map .str))] ++
  keptBootstrap (s.files clientManifest) ++
  [("updateAnnouncement".toList, .object (AnnouncementManager.updatePayloadForVersion package.version s))]

def publish (linux privileged : Bool) (archive : Option Archive) (releaseNotes : Option (List Text)) (force : Bool) (s : UpdateRoot) :
    Except PublishFailure (ClientPackage × UpdateRoot) := do
  requireRoot linux privileged
  let package ← verify unzip loads sha256 archive
  compareCurrent package.version (currentVersion s) force
  let content := ((archive.bind (·.content)).getD [])
  let s := s.setRelease (releasePath package.version) content
  let s := s.setFile clientManifest (.object (manifestPayload package releaseNotes s))
  pure ({ package with archive := releasePath package.version }, s)

end Library

end ClientPublisher

/-! ## The writers of the root -/

/-- A call that may change the root. -/
inductive Writer where
  | publish (linux privileged : Bool) (archive : Option Archive) (releaseNotes : Option (List Text)) (force : Bool)
  | set (now kind title body titleEn bodyEn level version : Text) (enabled : Bool)
  | setEnabled (kind : Text) (enabled : Bool)
  | clear (kind : Text)
  | sync (path : Text) (config : ServerConfig)

/-- How a call ends. -/
inductive Outcome where
  | published (package : ClientPackage)
  | announced (status : AnnouncementStatus)
  | synced
  | raised
  deriving DecidableEq, Repr

/-- A call that raises has changed nothing. -/
def settle {ε α : Type} (s : UpdateRoot) (outcome : α → Outcome) : Except ε (α × UpdateRoot) → UpdateRoot × Outcome
  | .ok (a, s') => (s', outcome a)
  | .error _ => (s, .raised)

/-- A writer on the root. -/
def write (unzip : Bytes → Option (List ZipInfo)) (loads : Bytes → Option Json) (sha256 : Bytes → Text) (s : UpdateRoot) :
    Writer → UpdateRoot × Outcome
  | .publish linux privileged archive releaseNotes force =>
    settle s .published (ClientPublisher.publish unzip loads sha256 linux privileged archive releaseNotes force s)
  | .set now kind title body titleEn bodyEn level version enabled =>
    settle s .announced (AnnouncementManager.set now kind title body titleEn bodyEn level version enabled s)
  | .setEnabled kind enabled => settle s .announced (AnnouncementManager.setEnabled kind enabled s)
  | .clear kind => settle s .announced (AnnouncementManager.clear kind s)
  | .sync path config => settle s (fun _ : Unit => .synced) ((syncNetworkBootstrap path config s).map (fun s' => ((), s')))

end Scbl.Manager
