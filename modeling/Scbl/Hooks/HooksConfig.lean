import Scbl.Lib.IpAddress
import Scbl.Lib.Toml

/-!
# The configuration of the hooks as they read it

`hooks-config`: the tables of `scbl.toml` as a `Config`. A field that is missing has its default, if it has one, and other keys are passed
over. The reader of addresses of servers is another library's.
-/

namespace Scbl.Hooks.HooksConfig

open Scbl.Lib

abbrev Text := List Char

/-- What the build decides: whether the hooks for modding are there, and the reader of addresses. -/
structure Build (Url : Type) where
  modding : Bool
  parseUrl : Text → Option Url

/-- The names of the hooks, in the order of the enumeration. -/
def hookNames (modding : Bool) : List Text :=
  ["Printer", "LeaveState", "NextState", "NetResultBase", "Goal", "SetStep", "Thread", "ChangeState", "NetCore", "NetResultCore",
    "NetResultSession", "NetResultRdvSession", "NetResultLobby", "StormHostPortToString", "GetAdaptersInfo", "Gethostbyname", "GenerateID",
    "StormSetState", "StormStateMachineActionExecute", "StormErrorFormatter", "GearStrDestructor", "StormEventDispatcher", "StormPackets",
    "RMCMessages"].map String.toList ++ if modding then ["OverridePackaged".toList] else []

structure User where
  username : Text
  password : Text
  cdKeys : List Text
  accountId : Text

inductive SaveDir where
  | installLocation
  | roaming
  | custom (path : Text)

structure Save where
  saveDir : SaveDir := .roaming

structure Networking where
  ipAddress : Option (List Nat) := none
  adapter : Option Text := none

inductive LogLevel where
  | trace | debug | info | warning | error

structure Logging where
  level : LogLevel := .info

structure Config (Url : Type) where
  user : User
  save : Save
  forwardCalls : List Text
  forwardAllCalls : Bool
  internalCommandLine : Text
  enableHooks : List Text
  enableAllHooks : Bool
  enableOverlay : Bool
  configServer : Option Text
  apiServer : Url
  networking : Networking
  logging : Logging
  autoJoinInvite : Bool

/-! ## Values -/

def readString : TomlValue → Option Text
  | .string value => some value
  | _ => none

def readBool : TomlValue → Option Bool
  | .boolean value => some value
  | _ => none

def readStrings : TomlValue → Option (List Text)
  | .array values => values.mapM readString
  | _ => none

def readTable : TomlValue → Option TomlTable
  | .table items => some items
  | _ => none

/-- A field with a default, or without one. -/
def field {α : Type} (items : TomlTable) (key : Text) (read : TomlValue → Option α) (default : Option α) : Option α :=
  match Dict.get items key with
  | some value => read value
  | none => default

def readUser (value : TomlValue) : Option User := do
  let items ← readTable value
  let username ← field items "Username".toList readString (some "sam_the_fisher".toList)
  let password ← field items "Password".toList readString (some "password1234".toList)
  let cdKeys ← field items "CdKeys".toList readStrings (some [])
  let accountId ← field items "AccountId".toList readString (some "00000000-0000-4000-0000-000000000000".toList)
  some { username, password, cdKeys, accountId }

/-- A variant by its name, or the one with a value as a table of one item. -/
def readSaveDir : TomlValue → Option SaveDir
  | .string value =>
    if value = "InstallLocation".toList then some .installLocation else if value = "Roaming".toList then some .roaming else none
  | .table [(key, .string path)] => if key = "Custom".toList then some (.custom path) else none
  | _ => none

def readSave (value : TomlValue) : Option Save := do
  let items ← readTable value
  let saveDir ← field items "SaveDir".toList readSaveDir (some .roaming)
  some { saveDir }

/-- The names of hooks are compared as texts. -/
local instance lawfulBEq_hookName : LawfulBEq Text := inferInstance

def readHooks (modding : Bool) (value : TomlValue) : Option (List Text) := do
  let names ← readStrings value
  if names.all (· ∈ hookNames modding) then some names.eraseDups else none

def readNetworking (value : TomlValue) : Option Networking := do
  let items ← readTable value
  let ipAddress ← field items "IpAddress".toList (fun value => (readString value).bind (fun t => (ipv4Octets t).map some)) (some none)
  let adapter ← field items "Adapter".toList (fun value => (readString value).map some) (some none)
  some { ipAddress, adapter }

def readLogLevel (value : TomlValue) : Option LogLevel := do
  let name ← readString value
  if name = "TRACE".toList then some .trace else if name = "DEBUG".toList then some .debug else if name = "INFO".toList then some .info
  else if name = "WARNING".toList then some .warning else if name = "ERROR".toList then some .error else none

def readLogging (value : TomlValue) : Option Logging := do
  let items ← readTable value
  let level ← field items "Level".toList readLogLevel (some .info)
  some { level }

/-! ## The configuration -/

variable {Url : Type}

def Config.ofTable (build : Build Url) (items : TomlTable) : Option (Config Url) := do
  let user ← field items "User".toList readUser none
  let save ← field items "Save".toList readSave (some {})
  let forwardCalls ← field items "ForwardCalls".toList readStrings (some [])
  let forwardAllCalls ← field items "ForwardAllCalls".toList readBool (some false)
  let internalCommandLine ← field items "InternalCommandLine".toList readString (some [])
  let enableHooks ← field items "EnableHooks".toList (readHooks build.modding) (some [])
  let enableAllHooks ← field items "EnableAllHooks".toList readBool (some false)
  let enableOverlay ← field items "EnableOverlay".toList readBool (some true)
  let configServer ← field items "ConfigServer".toList (fun value => (readString value).map some) (some none)
  let apiServer ← field items "ApiServer".toList (fun value => (readString value).bind build.parseUrl) none
  let networking ← field items "Networking".toList readNetworking (some {})
  let logging ← field items "Logging".toList readLogging (some {})
  let autoJoinInvite ← field items "AutoJoinInvite".toList readBool (some false)
  some {
    user, save, forwardCalls, forwardAllCalls, internalCommandLine, enableHooks, enableAllHooks, enableOverlay, configServer, apiServer,
    networking, logging, autoJoinInvite }

/-- The hooks that the game needs. -/
def requiredHooks : List Text :=
  ["GetAdaptersInfo", "Gethostbyname", "Goal", "SetStep", "NextState", "ChangeState", "LeaveState", "NetResultBase", "NetResultCore",
    "NetResultSession", "NetResultRdvSession", "NetResultLobby", "RMCMessages", "StormEventDispatcher"].map String.toList

def applyScblRequiredHooks (config : Config Url) : Config Url := { config with enableHooks := config.enableHooks ∪ requiredHooks }

def parseScblConfig (build : Build Url) (content : Text) : Option (Config Url) := do
  let items ← tomlDocument content
  let config ← Config.ofTable build items
  some (applyScblRequiredHooks config)

end Scbl.Hooks.HooksConfig
