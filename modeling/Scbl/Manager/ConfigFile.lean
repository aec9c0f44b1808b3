import Scbl.Lib.Toml
import Scbl.Manager.Config
import Mathlib.Data.Char
import Mathlib.Data.List.Lex

/-!
# The file of the configuration

How `scblctl/config.py` writes a configuration to its file, and how it reads one. What a message says about TOML that cannot be read is left
out.
-/

namespace Scbl.Manager

open Scbl.Lib

/-- A value of a field. -/
inductive FieldValue where
  | text (value : Text)
  | integer (value : Int)
  | boolean (value : Bool)
  deriving DecidableEq, Repr

/-- The sections of `to_mapping`, with the secret hidden or not. -/
def ServerConfig.toMapping (config : ServerConfig) (redact : Bool) : List (Text × List (Text × FieldValue)) :=
  let secret := if redact ∧ config.network.secret ≠ [] then "********".toList else config.network.secret
  [("server".toList, [("public_host".toList, .text config.server.publicHost)]),
    ("network".toList,
      [("public_port".toList, .integer config.network.publicPort), ("wss_port".toList, .integer config.network.wssPort),
        ("secret".toList, .text secret), ("virtual_ip".toList, .text config.network.virtualIp),
        ("virtual_cidr".toList, .text config.network.virtualCidr), ("virtual_network".toList, .text config.network.virtualNetwork),
        ("pool_start".toList, .text config.network.poolStart), ("pool_end".toList, .text config.network.poolEnd),
        ("mtu".toList, .integer config.network.mtu), ("enable_ipv6".toList, .boolean config.network.enableIpv6),
        ("wan_interface".toList, .text config.network.wanInterface)]),
    ("services".toList,
      [("update_port".toList, .integer config.services.updatePort), ("control_port".toList, .integer config.services.controlPort),
        ("heartbeat_ttl".toList, .integer config.services.heartbeatTtl)]),
    ("easytier".toList,
      [("version".toList, .text config.easytier.version), ("network_name".toList, .text config.easytier.networkName),
        ("instance_name".toList, .text config.easytier.instanceName), ("instance_id".toList, .text config.easytier.instanceId),
        ("rpc_port".toList, .integer config.easytier.rpcPort)]),
    ("updates".toList, [("repository".toList, .text config.updates.repository), ("channel".toList, .text config.updates.channel)]),
    ("testing".toList, [("allow_newer_clients".toList, .boolean config.testing.allowNewerClients)]),
    ("ddns".toList,
      [("enabled".toList, .boolean config.ddns.enabled), ("listen".toList, .text config.ddns.listen),
        ("interval_seconds".toList, .integer config.ddns.intervalSeconds), ("config_path".toList, .text config.ddns.configPath),
        ("version".toList, .text config.ddns.version)])]

/-! ## Writing -/

/-- `value.replace(old, new)`, of a character. -/
def replaceChar (old : Char) (new value : Text) : Text := value.flatMap (fun c => if c = old then new else [c])

def tomlValueText : FieldValue → Text
  | .boolean value => if value then "true".toList else "false".toList
  | .integer value => intText value
  | .text value =>
    let escaped := replaceChar '\t' "\\t".toList (replaceChar '\r' "\\r".toList (replaceChar '\n' "\\n".toList
      (replaceChar '"' "\\\"".toList (replaceChar '\\' "\\\\".toList value))))
    "\"".toList ++ escaped ++ "\"".toList

def ServerConfig.dumpToml (config : ServerConfig) (redact : Bool) : Text :=
  joinWith '\n'
    (["schema_version = ".toList ++ intText configSchemaVersion, []] ++
      (config.toMapping redact).flatMap (fun item =>
        ["[".toList ++ item.1 ++ "]".toList] ++ item.2.map (fun field => field.1 ++ " = ".toList ++ tomlValueText field.2) ++ [[]]))

/-! ## Reading -/

inductive ConfigError where
  | notFound (message : Text)
  | invalid (message : Text)
  deriving DecidableEq, Repr

/-- The type of a field. -/
inductive FieldType where
  | text
  | integer
  | boolean
  deriving DecidableEq, Repr

def serverFields : List (Text × FieldType) := [("public_host".toList, .text)]

def networkFields : List (Text × FieldType) :=
  [("public_port".toList, .integer), ("wss_port".toList, .integer), ("secret".toList, .text), ("virtual_ip".toList, .text),
    ("virtual_cidr".toList, .text), ("virtual_network".toList, .text), ("pool_start".toList, .text), ("pool_end".toList, .text),
    ("mtu".toList, .integer), ("enable_ipv6".toList, .boolean), ("wan_interface".toList, .text)]

def servicesFields : List (Text × FieldType) :=
  [("update_port".toList, .integer), ("control_port".toList, .integer), ("heartbeat_ttl".toList, .integer)]

def easytierFields : List (Text × FieldType) :=
  [("version".toList, .text), ("network_name".toList, .text), ("instance_name".toList, .text), ("instance_id".toList, .text),
    ("rpc_port".toList, .integer)]

def updatesFields : List (Text × FieldType) := [("repository".toList, .text), ("channel".toList, .text)]

def testingFields : List (Text × FieldType) := [("allow_newer_clients".toList, .boolean)]

def ddnsFields : List (Text × FieldType) :=
  [("enabled".toList, .boolean), ("listen".toList, .text), ("interval_seconds".toList, .integer), ("config_path".toList, .text),
    ("version".toList, .text)]

/-- `SECTION_TYPES`. -/
def sectionTypes : List (Text × List (Text × FieldType)) :=
  [("server".toList, serverFields), ("network".toList, networkFields), ("services".toList, servicesFields),
    ("easytier".toList, easytierFields), ("updates".toList, updatesFields), ("testing".toList, testingFields), ("ddns".toList, ddnsFields)]

/-- What a message says a value of a type must be, if a value is not of it. -/
def FieldType.mismatch : FieldType → TomlValue → Option Text
  | .integer, .integer _ => none
  | .integer, _ => some " 必须是整数".toList
  | .boolean, .boolean _ => none
  | .boolean, _ => some " 必须是布尔值".toList
  | .text, .string _ => none
  | .text, _ => some " 必须是字符串".toList

/-- `", ".join(sorted(names))`. -/
def sortedNames (names : List Text) : Text :=
  ((names.mergeSort (fun left right => decide (left ≤ right))).intersperse ", ".toList).flatten

/-- The values of a section, if they are of the types of its fields. -/
def sectionValues (raw : TomlTable) (name : Text) (fields : List (Text × FieldType)) : Except ConfigError TomlTable := do
  let values ← match Dict.get raw name with
    | none => .ok []
    | some (.table values) => .ok values
    | some _ => .error (.invalid ("[".toList ++ name ++ "] 必须是 TOML 表".toList))
  let extra := (values.map (·.1)).filter (fun key => (Dict.get fields key).isNone)
  if extra ≠ [] then .error (.invalid ("[".toList ++ name ++ "] 中存在未知项：".toList ++ sortedNames extra))
  else
    values.forM (fun item =>
      match (Dict.get fields item.1).bind (·.mismatch item.2) with
      | some demand => .error (.invalid (name ++ ".".toList ++ item.1 ++ demand))
      | none => .ok ())
    .ok values

/-- The value of a field, or its default. -/
def textOf (values : TomlTable) (key default : Text) : Text :=
  match Dict.get values key with
  | some (.string value) => value
  | _ => default

def integerOf (values : TomlTable) (key : Text) (default : Int) : Int :=
  match Dict.get values key with
  | some (.integer value) => value
  | _ => default

def booleanOf (values : TomlTable) (key : Text) (default : Bool) : Bool :=
  match Dict.get values key with
  | some (.boolean value) => value
  | _ => default

def ServerSection.ofValues (values : TomlTable) : ServerSection :=
  let default : ServerSection := {}
  { publicHost := textOf values "public_host".toList default.publicHost }

def NetworkSection.ofValues (values : TomlTable) : NetworkSection :=
  let default : NetworkSection := {}
  { publicPort := integerOf values "public_port".toList default.publicPort
    wssPort := integerOf values "wss_port".toList default.wssPort
    secret := textOf values "secret".toList default.secret
    virtualIp := textOf values "virtual_ip".toList default.virtualIp
    virtualCidr := textOf values "virtual_cidr".toList default.virtualCidr
    virtualNetwork := textOf values "virtual_network".toList default.virtualNetwork
    poolStart := textOf values "pool_start".toList default.poolStart
    poolEnd := textOf values "pool_end".toList default.poolEnd
    mtu := integerOf values "mtu".toList default.mtu
    enableIpv6 := booleanOf values "enable_ipv6".toList default.enableIpv6
    wanInterface := textOf values "wan_interface".toList default.wanInterface }

def ServicesSection.ofValues (values : TomlTable) : ServicesSection :=
  let default : ServicesSection := {}
  { updatePort := integerOf values "update_port".toList default.updatePort
    controlPort := integerOf values "control_port".toList default.controlPort
    heartbeatTtl := integerOf values "heartbeat_ttl".toList default.heartbeatTtl }

def EasyTierSection.ofValues (values : TomlTable) : EasyTierSection :=
  let default : EasyTierSection := {}
  { version := textOf values "version".toList default.version
    networkName := textOf values "network_name".toList default.networkName
    instanceName := textOf values "instance_name".toList default.instanceName
    instanceId := textOf values "instance_id".toList default.instanceId
    rpcPort := integerOf values "rpc_port".toList default.rpcPort }

def UpdatesSection.ofValues (values : TomlTable) : UpdatesSection :=
  let default : UpdatesSection := {}
  { repository := textOf values "repository".toList default.repository, channel := textOf values "channel".toList default.channel }

def TestingSection.ofValues (values : TomlTable) : TestingSection :=
  let default : TestingSection := {}
  { allowNewerClients := booleanOf values "allow_newer_clients".toList default.allowNewerClients }

def DdnsSection.ofValues (values : TomlTable) : DdnsSection :=
  let default : DdnsSection := {}
  { enabled := booleanOf values "enabled".toList default.enabled
    listen := textOf values "listen".toList default.listen
    intervalSeconds := integerOf values "interval_seconds".toList default.intervalSeconds
    configPath := textOf values "config_path".toList default.configPath
    version := textOf values "version".toList default.version }

def ServerConfig.fromMapping (raw : TomlTable) : Except ConfigError ServerConfig := do
  let allowed := "schema_version".toList :: sectionTypes.map (·.1)
  let unknown := (raw.map (·.1)).filter (fun key => !allowed.contains key)
  if unknown ≠ [] then .error (.invalid ("未知的顶层配置项：".toList ++ sortedNames unknown))
  else
    match Dict.get raw "schema_version".toList with
    | some (.integer version) =>
      if version ≠ configSchemaVersion then
        .error (.invalid ("不支持配置版本 ".toList ++ intText version ++ "；当前支持 ".toList ++ intText configSchemaVersion))
      else
        let server ← sectionValues raw "server".toList serverFields
        let network ← sectionValues raw "network".toList networkFields
        let services ← sectionValues raw "services".toList servicesFields
        let easytier ← sectionValues raw "easytier".toList easytierFields
        let updates ← sectionValues raw "updates".toList updatesFields
        let testing ← sectionValues raw "testing".toList testingFields
        let ddns ← sectionValues raw "ddns".toList ddnsFields
        .ok
          { schemaVersion := version, server := .ofValues server, network := .ofValues network, services := .ofValues services
            easytier := .ofValues easytier, updates := .ofValues updates, testing := .ofValues testing, ddns := .ofValues ddns }
    | _ => .error (.invalid "schema_version 必须是整数".toList)

/-- The configuration of a path and the text of the file there, if there is one. -/
def loadConfig (path : Text) (file : Option Text) : Except ConfigError ServerConfig :=
  match file with
  | none => .error (.notFound ("配置文件不存在：".toList ++ path))
  | some text =>
    match toml text with
    | none => .error (.invalid "TOML 解析失败".toList)
    | some raw => ServerConfig.fromMapping raw

end Scbl.Manager
