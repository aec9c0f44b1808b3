import Scbl.Lib.Bytes
import Scbl.Lib.Json
import Scbl.Manager.ClientVersion
import Scbl.Manager.ComponentVersion

/-!
# Announcements

`AnnouncementManager` of `scblctl/announcements.py`, on the root of the client updates: its JSON files by their names, and the files of
the releases by their paths below the root. A change of a file is one step; owners and modes are not seen.
-/

namespace Scbl.Manager

open Scbl.Lib Json

structure UpdateRoot where
  files : Text → Option Json
  releases : Text → Option Bytes

namespace UpdateRoot

def empty : UpdateRoot := { files := fun _ => none, releases := fun _ => none }

def setFile (s : UpdateRoot) (name : Text) (value : Json) : UpdateRoot := { s with files := Function.update s.files name (some value) }

def setRelease (s : UpdateRoot) (path : Text) (content : Bytes) : UpdateRoot :=
  { s with releases := Function.update s.releases path (some content) }

@[simp] theorem setFile_self (s : UpdateRoot) (name : Text) (value : Json) : (s.setFile name value).files name = some value :=
  Function.update_self _ _ _

theorem setFile_other (s : UpdateRoot) {name name' : Text} (value : Json) (h : name' ≠ name) :
    (s.setFile name value).files name' = s.files name' :=
  Function.update_of_ne h _ _

@[simp] theorem setRelease_files (s : UpdateRoot) (path : Text) (content : Bytes) : (s.setRelease path content).files = s.files := rfl

end UpdateRoot

/-- `client_update_manifest.json`, the manifest that the launcher reads. -/
def clientManifest : Text := "client_update_manifest.json".toList

structure AnnouncementError where
  message : Text
  deriving DecidableEq, Repr

structure AnnouncementStatus where
  kind : Text
  enabled : Bool
  announcementId : Text
  title : Text
  body : Text
  titleEn : Text
  bodyEn : Text
  version : Text
  level : Text
  path : Text
  deriving DecidableEq, Repr

/-- The version that a manifest has, unless it is none. -/
def publishedVersion (manifest : Object) : Text :=
  match (Dict.get manifest "version".toList).bind text? with
  | some version => if validVersion version then version else []
  | none => []

namespace AnnouncementManager

def kinds : List Text := ["active".toList, "startup".toList, "update".toList]

def levels : List Text := ["info".toList, "warning".toList, "error".toList]

/-- Refuse when a condition holds. -/
def refuseWhen (condition : Bool) (message : Text) : Except AnnouncementError Unit :=
  if condition then .error { message } else pure ()

def validateKind (kind : Text) : Except AnnouncementError Unit :=
  refuseWhen (!kinds.contains kind) ("未知公告类型：".toList ++ kind)

/-- `update_announcement.json`, the announcement that is mirrored into the manifest. -/
def updateAnnouncement : Text := "update_announcement.json".toList

/-- The files of the kinds. -/
def paths : List (Text × Text) :=
  [("active".toList, "active_announcement.json".toList), ("startup".toList, "startup_announcement.json".toList),
    ("update".toList, updateAnnouncement)]

def pathFor (kind : Text) : Except AnnouncementError Text := do
  validateKind kind
  pure ((Dict.get paths kind).getD [])

/-- What a file holds; one that is missing or holds no object counts as empty. -/
def readJson (s : UpdateRoot) (path : Text) : Object := ((s.files path).bind members?).getD []

def writeJson (s : UpdateRoot) (path : Text) (payload : Object) : UpdateRoot := s.setFile path (.object payload)

/-- `_text`, of a member that may be missing. -/
def text (value : Option Json) : Text := strip ((value.bind text?).getD [])

def validateText (value label : Text) (maximum : Nat) (required : Bool) : Except AnnouncementError Text := do
  let value := strip value
  refuseWhen (required && value = []) (label ++ "不能为空".toList)
  refuseWhen (maximum < value.length) (label ++ "不能超过 ".toList ++ (toString maximum).toList ++ " 个字符".toList)
  pure value

def currentClientVersion (s : UpdateRoot) : Text := publishedVersion (readJson s clientManifest)

/-- What the status of an update announcement is read from when its file is empty. -/
def embeddedPayload (s : UpdateRoot) : Object :=
  let manifest := readJson s clientManifest
  let embedded := ((Dict.get manifest "updateAnnouncement".toList).bind members?).getD []
  if embedded ≠ [] ∧ Dict.get embedded "version".toList = none then
    Dict.set embedded "version".toList ((Dict.get manifest "version".toList).getD (.str []))
  else embedded

def status (kind : Text) (s : UpdateRoot) : Except AnnouncementError AnnouncementStatus := do
  let path ← pathFor kind
  let payload := readJson s path
  let payload := if kind = "update".toList ∧ payload = [] then embeddedPayload s else payload
  let level := text (Dict.get payload "level".toList)
  pure
    { kind
      enabled := ((Dict.get payload "enabled".toList).map isTrue).getD false
      announcementId := text (Dict.get payload "id".toList)
      title := text (Dict.get payload "title".toList)
      body := text (Dict.get payload "body".toList)
      titleEn := text (Dict.get payload "title_en".toList)
      bodyEn := text (Dict.get payload "body_en".toList)
      version := text (Dict.get payload "version".toList)
      level := if level = [] then "info".toList else level
      path }

/-- The keys of an announcement that the manifest shows. -/
def updateKeys : List Text := ["enabled".toList, "title".toList, "body".toList, "title_en".toList, "body_en".toList]

def updatePayloadForVersion (version : Text) (s : UpdateRoot) : Object :=
  let payload := readJson s updateAnnouncement
  if ((Dict.get payload "enabled".toList).map isTrue).getD false ∧
      (Dict.get payload "version".toList).bind text? = some version ∧
      text (Dict.get payload "title".toList) ≠ [] ∧ text (Dict.get payload "body".toList) ≠ [] then
    updateKeys.filterMap (fun key => (Dict.get payload key).map (fun value => (key, value)))
  else [("enabled".toList, .bool false)]

def syncUpdateManifest (s : UpdateRoot) : UpdateRoot :=
  let manifest := readJson s clientManifest
  match (Dict.get manifest "version".toList).bind text? with
  | some version =>
    if validVersion version then
      writeJson s clientManifest (Dict.set manifest "updateAnnouncement".toList (.object (updatePayloadForVersion version s)))
    else s
  | none => s

/-- What ends every change: the file of the kind is written, and an update announcement is mirrored into the manifest. -/
def store (kind path : Text) (payload : Object) (s : UpdateRoot) : Except AnnouncementError (AnnouncementStatus × UpdateRoot) := do
  let s := writeJson s path payload
  let s := if kind = "update".toList then syncUpdateManifest s else s
  let status ← status kind s
  pure (status, s)

/-- The version that an update announcement gets, which is that of the client where none is given. -/
def announcedVersion (version : Text) (s : UpdateRoot) : Except AnnouncementError Text := do
  let version := if strip version ≠ [] then strip version else currentClientVersion s
  refuseWhen (!validVersion version) "更新公告需要有效的当前客户端版本 X.Y.Z".toList
  pure version

/-- Set the announcement of a kind; its id is the time. -/
def set (now kind title body titleEn bodyEn level version : Text) (enabled : Bool) (s : UpdateRoot) :
    Except AnnouncementError (AnnouncementStatus × UpdateRoot) := do
  validateKind kind
  let title ← validateText title "中文标题".toList 160 true
  let body ← validateText body "中文内容".toList 4000 true
  let titleEn ← validateText titleEn "英文标题".toList 160 false
  let bodyEn ← validateText bodyEn "英文内容".toList 4000 false
  refuseWhen (!levels.contains level) "公告级别必须是 info、warning 或 error".toList
  let payload : Object :=
    [("enabled".toList, .bool enabled), ("id".toList, .str now), ("title".toList, .str title), ("body".toList, .str body),
      ("title_en".toList, .str titleEn), ("body_en".toList, .str bodyEn)]
  let payload ←
    (if kind = "active".toList then pure (payload ++ [("level".toList, .str level), ("showOnce".toList, .bool false)])
    else if kind = "startup".toList then pure (payload ++ [("level".toList, .str level), ("showOnce".toList, .bool true)])
    else do
      let version ← announcedVersion version s
      pure (payload ++ [("version".toList, .str version)]))
  let path ← pathFor kind
  store kind path payload s

def setEnabled (kind : Text) (enabled : Bool) (s : UpdateRoot) : Except AnnouncementError (AnnouncementStatus × UpdateRoot) := do
  let status ← status kind s
  refuseWhen (enabled && (status.title = [] || status.body = [])) "公告没有完整的中文标题和内容，不能启用".toList
  let payload := readJson s status.path
  let payload :=
    if payload = [] ∧ kind = "update".toList then
      [("id".toList, .str status.announcementId), ("title".toList, .str status.title), ("body".toList, .str status.body),
        ("title_en".toList, .str status.titleEn), ("body_en".toList, .str status.bodyEn),
        ("version".toList, .str (if status.version ≠ [] then status.version else currentClientVersion s))]
    else payload
  store kind status.path (Dict.set payload "enabled".toList (.bool enabled)) s

def clear (kind : Text) (s : UpdateRoot) : Except AnnouncementError (AnnouncementStatus × UpdateRoot) := do
  validateKind kind
  let payload : Object :=
    [("enabled".toList, .bool false), ("id".toList, .str []), ("title".toList, .str []), ("body".toList, .str []),
      ("title_en".toList, .str []), ("body_en".toList, .str [])]
  let payload :=
    if kind = "active".toList then payload ++ [("level".toList, .str "info".toList), ("showOnce".toList, .bool false)]
    else if kind = "startup".toList then payload ++ [("level".toList, .str "info".toList), ("showOnce".toList, .bool true)]
    else payload ++ [("version".toList, .str (currentClientVersion s))]
  let path ← pathFor kind
  store kind path payload s

end AnnouncementManager

end Scbl.Manager
