import Scbl.Lib.FileTree
import Scbl.Lib.PyValue
import Scbl.Manager.ClientPublish

/-!
# Runtime packages and releases

`extract_runtime_archive`, `RuntimeManifest` and `stage_release` of `scblctl/release.py`. Any operation on the files may fail. Paths are
those that links lead to, from the root; the names on them are bytes. What a message quotes of a name is left out.
-/

namespace Scbl.Manager.Release

open Scbl.Lib

/-- What is raised. -/
inductive ReleaseFailure where
  | release (message : Text)
  | os
  | value
  deriving DecidableEq, Repr

/-- The name of a file or a directory. -/
abbrev FileName : Type := Bytes

abbrev FilePath : Type := List FileName

abbrev Step : Type → Type := Program (FileTree FileName) ReleaseFailure

def manifestName : FileName := Text.toBytes "server-package.json".toList

/-- The required files, in their order. -/
def requiredRuntimeFiles : List Text :=
  ["data/mp_balancing.ini".toList, "dedicated_server".toList, "easytier-cli".toList, "easytier-core".toList,
    "scbl_control_plane.py".toList, "scbl_update_server.py".toList]

def refuseWhen (condition : Bool) (message : Text) : Step Unit := if condition then .raise (.release message) else pure ()

/-- A value that has to be there. -/
def demand {A : Type} (failure : ReleaseFailure) (value : Option A) : Step A := .ofExcept (value.elim (.error failure) .ok)

/-- A call that changes no tree. -/
def unseenCall : Step Unit := .operation .os (fun _ t => t) (fun t => .ok ((), t))

/-! ## Names -/

/-- `os.fsencode` of a character; a surrogate of the escapes stands for a byte. -/
def fsencodePoint (n : Nat) : Option Bytes :=
  if 0xDC80 ≤ n ∧ n ≤ 0xDCFF then some [UInt8.ofNat (n - 0xDC00)]
  else if n.isValidChar then some (Text.toBytes [Char.ofNat n])
  else none

/-- The name that the system is given, in which no byte may be zero. -/
def osName (name : PyStr) : Option FileName := ((name.mapM fsencodePoint).map List.flatten).filter (fun bytes => !bytes.contains 0)

/-- `PurePosixPath(name).parts`, without the root. -/
def pathParts (name : PyStr) : List PyStr := (name.splitOn '/'.toNat).filter (fun part => part ≠ [] && part ≠ ['.'.toNat])

/-- The path below a directory that a name leads to. -/
def osPath (name : PyStr) : Option FilePath := (pathParts name).mapM osName

/-- `_safe_relative_path`; the parts of a path are never empty. -/
def safeRelativePath (name : PyStr) : Bool :=
  name ≠ [] && name.head? ≠ some '/'.toNat && !(pathParts name).contains (pyStr "..".toList)

/-! ## Manifests -/

/-- The version, and the digests of the files. -/
structure RuntimeManifest where
  version : Text
  files : List (PyStr × Text)
  deriving DecidableEq, Repr

namespace RuntimeManifest

/-- The text of a member, if it is a string that passes a check. -/
def textMember (value : Option PyValue) (valid : Text → Bool) : Option Text := ((value.bind PyValue.str?).bind PyStr.toText?).filter valid

/-- Refuse a manifest when a condition holds. -/
def reject (condition : Bool) (message : Text) : Except ReleaseFailure Unit := if condition then .error (.release message) else pure ()

/-- A part of a manifest that has to be there. -/
def expect {A : Type} (value : Option A) (message : Text) : Except ReleaseFailure A := value.elim (.error (.release message)) .ok

/-- The body of the loop over the files of a manifest. -/
def parseFile (item : PyStr × PyValue) : Except ReleaseFailure (PyStr × Text) := do
  reject (!safeRelativePath item.1) "不安全的运行时文件路径".toList
  let digest ← expect (textMember (some item.2) ClientPublisher.matchesSha256) "SHA256 无效".toList
  pure (item.1, digest.map Char.toLower)

def parse (raw : PyValue) : Except ReleaseFailure RuntimeManifest := do
  let items ← expect raw.items? "运行时清单必须是 JSON 对象".toList
  let get := fun key : Text => Dict.get items (pyStr key)
  reject (!((get "schemaVersion".toList).map PyValue.equalsOne).getD false) "不支持的运行时清单版本".toList
  reject ((get "packageType".toList).bind PyValue.str? ≠ some (pyStr "scbl-server-runtime".toList))
    "补丁包类型不是 scbl-server-runtime".toList
  let version ← expect (textMember (get "version".toList) validVersion) "运行时版本必须是 X.Y.Z".toList
  let files ← expect (((get "files".toList).bind PyValue.items?).filter (fun files => !files.isEmpty)) "运行时清单 files 不能为空".toList
  let normalized ← files.mapM parseFile
  let missing := requiredRuntimeFiles.filter (fun name => !(normalized.map Prod.fst).contains (pyStr name))
  reject (!missing.isEmpty) ("运行时包缺少必要文件：".toList ++ (missing.intersperse ", ".toList).flatten)
  pure { version, files := normalized }

end RuntimeManifest

section Library

-- What `json` makes of the text of a file, and `hashlib` of its bytes.
variable (loads : Bytes → Except ReleaseFailure PyValue) (sha256 : Bytes → Text)

def RuntimeManifest.load (packageDir : FilePath) : Step RuntimeManifest := do
  let content ← FileTree.readFile .os (.release "运行时包缺少 server-package.json".toList) .os (packageDir ++ [manifestName])
  let raw ← .ofExcept (loads content)
  .ofExcept (RuntimeManifest.parse raw)

/-- The body of the loop over the files of a manifest: a file is below the directory, and has the digest. -/
def verifyFile (packageDir : FilePath) (item : PyStr × Text) : Step Unit := do
  let path ← demand .value (osPath item.1)
  refuseWhen (path = []) "运行时文件不是包内普通文件".toList
  let content ← FileTree.readFile .os (.release "清单文件不存在".toList) (.release "运行时文件不是包内普通文件".toList) (packageDir ++ path)
  refuseWhen (sha256 content ≠ item.2) "运行时文件校验失败".toList

def RuntimeManifest.verify (manifest : RuntimeManifest) (packageDir : FilePath) : Step Unit :=
  manifest.files.forM (verifyFile sha256 packageDir)

/-! ## Extraction -/

inductive TarKind where
  | file
  | directory
  | other
  deriving DecidableEq, Repr

/-- A member of a tar archive; as many bytes are read of a file as its size tells. -/
structure TarMember where
  name : PyStr
  kind : TarKind
  size : Nat
  content : Bytes
  length_content : kind = .file → content.length = size

/-- 1 GiB. -/
def maximumSize : Nat := 1024 * 1024 * 1024

/-- The loop over the members, with the names that were seen and the size so far. -/
def extractMembers (destination : FilePath) : List TarMember → List PyStr → Nat → Step Unit
  | [], _, _ => pure ()
  | member :: members, seen, totalSize =>
    let name := (member.name.reverse.dropWhile (· = '/'.toNat)).reverse
    if name = [] then extractMembers destination members seen totalSize
    else do
      refuseWhen (!safeRelativePath name || seen.contains name) "运行时压缩包路径不安全或重复".toList
      refuseWhen (member.kind = .other) "运行时压缩包包含链接或特殊文件".toList
      let totalSize := totalSize + member.size
      refuseWhen (maximumSize < totalSize) "运行时压缩包解压后超过 1 GiB 限制".toList
      let path ← demand .value (osPath name)
      refuseWhen (path = []) "运行时压缩包路径逃逸".toList
      let target := destination ++ path
      if member.kind = .directory then FileTree.makeAll .os target
      else do
        FileTree.makeAll .os target.dropLast
        FileTree.createFile .os target member.content
      extractMembers destination members (name :: seen) totalSize

/-- `rglob` for a manifest. -/
def findManifests (destination : FilePath) : Step (List FilePath) :=
  .operation .os (fun _ t => t) (fun t =>
    .ok ((t.entries.map Prod.fst).filter (fun path =>
      destination.isPrefixOf path && path ≠ destination && path.getLast? = some manifestName), t))

/-- The archive is given by its members, or the exception that ends the attempt to read them. -/
def extractRuntimeArchive (archive : Except ReleaseFailure (List TarMember)) (destination : FilePath) : Step FilePath := do
  FileTree.makeAll .os destination
  let members ← .ofExcept archive
  refuseWhen (512 < members.length) "运行时压缩包文件数量超过限制".toList
  extractMembers destination members [] 0
  let manifests ← findManifests destination
  match manifests with
  | [path] => do
    let packageDir := path.dropLast
    let manifest ← RuntimeManifest.load loads packageDir
    manifest.verify sha256 packageDir
    pure packageDir
  | _ => .raise (.release "运行时压缩包必须且只能包含一个 server-package.json".toList)

/-! ## Staging -/

/-- The body of the loop over the files of a manifest. -/
def stageFile (packageDir temporary : FilePath) (item : PyStr × Text) : Step Unit := do
  let path ← demand .value (osPath item.1)
  let destination := temporary ++ path
  FileTree.makeAll .os destination.dropLast
  unseenCall
  FileTree.copyFile .os (packageDir ++ path) destination
  unseenCall

/-- The part of `stage_release` in its try block. -/
def fillRelease (manifest : RuntimeManifest) (packageDir temporary target : FilePath) : Step Unit := do
  unseenCall
  manifest.files.forM (stageFile packageDir temporary)
  FileTree.copyFile .os (packageDir ++ [manifestName]) (temporary ++ [manifestName])
  manifest.verify sha256 temporary
  FileTree.change .os (FileTree.move temporary target)

/-- `shutil.rmtree`, which ignores errors. -/
def removeIgnoringErrors (path : FilePath) : Step Unit :=
  (FileTree.change .os (fun t => some (t.removeTree path))).tryCatch (fun _ => pure ())

/-- `stage_release`, at a time and with a name that is drawn for the temporary directory. -/
def stageRelease (packageDir releasesDir : FilePath) (stamp : Text) (drawn : FileName) : Step (FilePath × RuntimeManifest) := do
  let manifest ← RuntimeManifest.load loads packageDir
  manifest.verify sha256 packageDir
  let target := releasesDir ++ [Text.toBytes (manifest.version ++ '-' :: stamp)]
  FileTree.makeAll .os releasesDir
  let existing ← Program.query (fun t => (t.node target).isSome)
  refuseWhen existing "发布目录已存在".toList
  let temporary := releasesDir ++ [drawn]
  FileTree.change .os (FileTree.place temporary .directory)
  (fillRelease sha256 manifest packageDir temporary target).tryCatch (fun e => do
    removeIgnoringErrors temporary
    .raise e)
  pure (target, manifest)

end Library

end Scbl.Manager.Release
