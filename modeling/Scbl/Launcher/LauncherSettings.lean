import Scbl.Launcher.NetworkBootstrap
import Scbl.Lib.Disk

/-!
# The settings of the launcher

How the settings are saved and loaded (`LauncherSettingsService.cs`, `CredentialProtectionService.cs`). The settings file has a backup and
a temporary file beside it. What .NET makes of addresses and of JSON and what Windows encrypts are parameters; a property that is `null`
in the file reads as an empty text.
-/

namespace Scbl.Launcher

open Scbl.Lib

structure LauncherSettings where
  username : Text := []
  password : Text := []
  passwordProtected : Text := []
  gameDirectory : Text := []
  gameExecutable : Text := "Blacklist_game.exe".toList
  publicEndpoint : Text := []
  tunnelSecret : Text := []
  tunnelSecretProtected : Text := []
  easyTierInstanceId : Text := []
  easyTierNetworkName : Text := "scbl-public".toList
  easyTierWssPort : Int := 11010
  forceGameVirtualAdapter : Bool := true
  saveOverwritePromptHandled : Bool := false
  language : Text := "zh-CN".toList
  musicEnabled : Bool := true
  guideCompleted : Bool := false
  publicUpdatePort : Int := 18080
  lastAssignedVirtualIp : Text := []
  lastServerVirtualIp : Text := "10.66.0.1".toList
  lastTunnelConnectedAt : Text := []
  lastLatencyMs : Option Int := none
  dismissedStartupAnnouncementId : Text := []
  deriving DecidableEq, Repr

/-- What the launcher runs on: its addresses, the variable `SCBL_TUNNEL_SECRET`, `Guid.TryParse`, and the encryption of Windows with
base64 around it. -/
structure Windows where
  net : DotNet
  tunnelSecretVariable : Text
  isGuid : Text → Bool
  encrypt : Text → Option Text
  decrypt : Text → Option Text

/-- Reading and writing the settings as JSON. What was written is read back without the password, which is not written; the beginning of
what was written is no JSON. -/
structure SettingsJson where
  serialize : LauncherSettings → Bytes
  deserialize : Bytes → Option LauncherSettings
  deserialize_serialize : ∀ settings, deserialize (serialize settings) = some { settings with password := [] }
  deserialize_take : ∀ settings n, n < (serialize settings).length → deserialize ((serialize settings).take n) = none

/-- A new GUID. -/
abbrev Guid (windows : Windows) : Type := { guid : Text // windows.isGuid guid = true }

namespace LauncherSettingsService

def dpapiPrefix : Text := "dpapi:".toList

/-- The parts of the default secret, decoded. -/
def defaultTunnelSecret : Text := "CHANGE_ME_SCBL_PUBLIC_SECRET_2026".toList

section Windows

variable (windows : Windows)

/-- `CredentialProtectionService.Protect`, which throws when Windows does not encrypt. -/
def protect (plainText : Text) : Option Text :=
  if plainText = [] then some [] else (windows.encrypt plainText).map (dpapiPrefix ++ ·)

/-- `CredentialProtectionService.Unprotect` -/
def unprotect (protectedText : Text) : Text :=
  if isBlank protectedText then []
  else if !startsWithIgnoreCase protectedText dpapiPrefix then []
  else (windows.decrypt (protectedText.drop dpapiPrefix.length)).getD []

def normalizeTunnelSecret (value : Text) : Text :=
  if !isBlank value then trim value
  else if !isBlank windows.tunnelSecretVariable then trim windows.tunnelSecretVariable
  else defaultTunnelSecret

/-- A port, or else the default. -/
def portOr (port other : Int) : Int := if 0 < port ∧ port ≤ 65535 then port else other

def withDefaults (guid : Guid windows) (settings : LauncherSettings) : LauncherSettings :=
  { settings with
    gameExecutable := if isBlank settings.gameExecutable then "Blacklist_game.exe".toList else settings.gameExecutable
    language := if isBlank settings.language then "zh-CN".toList else settings.language
    publicEndpoint :=
      if isBlank settings.publicEndpoint then defaultPublicEndpoint else normalizePublicEndpoint windows.net settings.publicEndpoint
    tunnelSecret :=
      if isBlank settings.tunnelSecret then normalizeTunnelSecret windows windows.tunnelSecretVariable else settings.tunnelSecret
    lastServerVirtualIp := if isBlank settings.lastServerVirtualIp then "10.66.0.1".toList else settings.lastServerVirtualIp
    easyTierNetworkName := if isBlank settings.easyTierNetworkName then "scbl-public".toList else settings.easyTierNetworkName
    easyTierInstanceId := if windows.isGuid settings.easyTierInstanceId then settings.easyTierInstanceId else guid.1
    easyTierWssPort := portOr settings.easyTierWssPort 11010
    publicUpdatePort := portOr settings.publicUpdatePort 18080 }

/-! ## Loading -/

def backupPath (path : Text) : Text := path ++ ".bak".toList

def temporaryPath (path : Text) : Text := path ++ ".tmp".toList

/-- The settings in a file that can be read. -/
def tryLoadFile (json : SettingsJson) (d : Disk Text Unit) (path : Text) : Option LauncherSettings := (d.files path).bind json.deserialize

/-- The settings of the file, or else of its backup. -/
def readSettings (json : SettingsJson) (path : Text) (d : Disk Text Unit) : Option LauncherSettings :=
  (tryLoadFile json d path).or (tryLoadFile json d (backupPath path))

/-- What `Load` returns for the settings that were read, if there are any. -/
def loaded (guid : Guid windows) (settings : Option LauncherSettings) : LauncherSettings :=
  let settings := withDefaults windows guid (settings.getD {})
  let plainSecret :=
    if !isBlank settings.tunnelSecretProtected then unprotect windows settings.tunnelSecretProtected else settings.tunnelSecret
  { settings with
    password := unprotect windows settings.passwordProtected
    tunnelSecret := normalizeTunnelSecret windows plainSecret }

def load (json : SettingsJson) (path : Text) (guid : Guid windows) (d : Disk Text Unit) : LauncherSettings :=
  loaded windows guid (readSettings json path d)

/-! ## Saving -/

/-- What a save throws. -/
inductive SettingsException where
  | io
  | invalidOperation
  deriving DecidableEq, Repr

abbrev Saving := Program (Disk Text Unit) SettingsException

/-- A call that changes no file of the settings. -/
def otherCall : Saving Unit := .operation .io (fun _ d => d) (fun d => .ok ((), d))

/-- `File.Replace`: the file takes the place of the target, which becomes the backup. -/
def replaceFile (source target backup : Text) : Saving Unit :=
  .operation .io (fun _ d => d) (fun d =>
    match d.files source, d.files target with
    | some new, some old => .ok ((), ((d.write source none).write backup (some old)).write target (some new))
    | _, _ => .error .io)

/-- What is done when the file cannot be replaced. -/
def copyInstead (path : Text) : Saving Unit := do
  let pathExists ← Disk.fileExists path
  Program.when pathExists (Disk.copyFile .io path (backupPath path))
  Disk.copyFile .io (temporaryPath path) path
  Disk.tryDelete .io (temporaryPath path)

def atomicWriteText (path : Text) (text : Bytes) : Saving Unit := do
  otherCall
  Disk.writeFile .io (temporaryPath path) text
  Program.tryCatch otherCall (fun _ => pure ())
  Program.tryCatch
    (do
      let pathExists ← Disk.fileExists path
      if pathExists then replaceFile (temporaryPath path) path (backupPath path) else Disk.moveFile .io (temporaryPath path) path)
    (fun _ => copyInstead path)

/-- The copy of the settings that is written, if the secrets can be encrypted. -/
def savedCopy (guid : Guid windows) (settings : LauncherSettings) : Option LauncherSettings := do
  let effectiveSecret := normalizeTunnelSecret windows settings.tunnelSecret
  let passwordProtected ← protect windows settings.password
  let tunnelSecretProtected ← protect windows effectiveSecret
  let copy := withDefaults windows guid
    { settings with
      password := []
      passwordProtected
      tunnelSecret := []
      tunnelSecretProtected
      language := if isBlank settings.language then "zh-CN".toList else settings.language
      lastServerVirtualIp := if isBlank settings.lastServerVirtualIp then "10.66.0.1".toList else settings.lastServerVirtualIp }
  pure { copy with tunnelSecret := [] }

def save (json : SettingsJson) (path : Text) (guid : Guid windows) (settings : LauncherSettings) : Saving Unit := do
  otherCall
  otherCall
  match savedCopy windows guid settings with
  | some copy => atomicWriteText path (json.serialize copy)
  | none => .raise .invalidOperation

end Windows

end LauncherSettingsService

end Scbl.Launcher
