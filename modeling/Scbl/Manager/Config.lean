import Scbl.Lib.IpAddress
import Scbl.Manager.ComponentVersion

/-!
# The configuration of the server

The configuration of `scblctl/config.py` with its defaults, and the check it has to pass before a deployment. A number of the file is an
integer of any size. What a message says about a virtual network that cannot be read is left out.
-/

namespace Scbl.Manager

open Scbl.Lib

structure ServerSection where
  publicHost : Text := []
  deriving DecidableEq, Repr

structure NetworkSection where
  publicPort : Int := 11010
  wssPort : Int := 11010
  secret : Text := []
  virtualIp : Text := "10.66.0.1".toList
  virtualCidr : Text := "10.66.0.1/24".toList
  virtualNetwork : Text := "10.66.0.0/24".toList
  poolStart : Text := "10.66.0.2".toList
  poolEnd : Text := "10.66.0.254".toList
  mtu : Int := 1380
  enableIpv6 : Bool := true
  wanInterface : Text := []
  deriving DecidableEq, Repr

structure ServicesSection where
  updatePort : Int := 18080
  controlPort : Int := 19080
  heartbeatTtl : Int := 20
  deriving DecidableEq, Repr

structure EasyTierSection where
  version : Text := "v2.6.4".toList
  networkName : Text := "scbl-public".toList
  instanceName : Text := "scbl-public-server".toList
  instanceId : Text := "00000000-0000-0000-0000-000000000001".toList
  rpcPort : Int := 15966
  deriving DecidableEq, Repr

structure UpdatesSection where
  repository : Text := "caox233/SCBL".toList
  channel : Text := "stable".toList
  deriving DecidableEq, Repr

structure TestingSection where
  allowNewerClients : Bool := false
  deriving DecidableEq, Repr

structure DdnsSection where
  enabled : Bool := true
  listen : Text := "127.0.0.1:9876".toList
  intervalSeconds : Int := 300
  configPath : Text := "/opt/ddns-go/.ddns_go_config.yaml".toList
  version : Text := "latest".toList
  deriving DecidableEq, Repr

def configSchemaVersion : Int := 1

def legacyDefaultSecret : Text := "CHANGE_ME_SCBL_PUBLIC_SECRET_2026".toList

structure ServerConfig where
  schemaVersion : Int := configSchemaVersion
  server : ServerSection := {}
  network : NetworkSection := {}
  services : ServicesSection := {}
  easytier : EasyTierSection := {}
  updates : UpdatesSection := {}
  testing : TestingSection := {}
  ddns : DdnsSection := {}
  deriving DecidableEq, Repr

/-- A new configuration, with the secret that was drawn for it. -/
def ServerConfig.new (publicHost secret : Text) : ServerConfig := { server := { publicHost }, network := { secret } }

/-! ## The check -/

/-- The text fields of the sections, in the order of the loops. -/
def ServerConfig.textFields (config : ServerConfig) : List (Text × Text) :=
  [("server.public_host".toList, config.server.publicHost), ("network.secret".toList, config.network.secret),
    ("network.virtual_ip".toList, config.network.virtualIp), ("network.virtual_cidr".toList, config.network.virtualCidr),
    ("network.virtual_network".toList, config.network.virtualNetwork), ("network.pool_start".toList, config.network.poolStart),
    ("network.pool_end".toList, config.network.poolEnd), ("network.wan_interface".toList, config.network.wanInterface),
    ("easytier.version".toList, config.easytier.version), ("easytier.network_name".toList, config.easytier.networkName),
    ("easytier.instance_name".toList, config.easytier.instanceName), ("easytier.instance_id".toList, config.easytier.instanceId),
    ("updates.repository".toList, config.updates.repository), ("updates.channel".toList, config.updates.channel),
    ("ddns.listen".toList, config.ddns.listen), ("ddns.config_path".toList, config.ddns.configPath),
    ("ddns.version".toList, config.ddns.version)]

/-- The ports, in the order they are checked. -/
def ServerConfig.ports (config : ServerConfig) : List (Text × Int) :=
  [("network.public_port".toList, config.network.publicPort), ("network.wss_port".toList, config.network.wssPort),
    ("services.update_port".toList, config.services.updatePort), ("services.control_port".toList, config.services.controlPort),
    ("easytier.rpc_port".toList, config.easytier.rpcPort)]

/-- `value.strip("[]")`. -/
def stripBrackets (value : Text) : Text :=
  let isBracket := fun c : Char => decide (c = '[' ∨ c = ']')
  ((value.dropWhile isBracket).reverse.dropWhile isBracket).reverse

/-- `(?!-)[A-Za-z0-9-]{1,63}(?<!-)$`, the whole text. -/
def matchesLabel (label : Text) : Bool :=
  1 ≤ label.length ∧ label.length ≤ 63 ∧ label.all (fun c => c.isAlphanum || c = '-') ∧ label.head? ≠ some '-' ∧ label.getLast? ≠ some '-'

/-- `value.rstrip(".")`. -/
def stripDots (value : Text) : Text := (value.reverse.dropWhile (· = '.')).reverse

def validPublicHost (value : Text) : Bool :=
  if value = [] ∨ value.length > 253 ∨ containsText value "://".toList ∨ containsText value "/".toList then false
  else (ipAddress (stripBrackets value)).isSome || ((stripDots value).splitOn '.').all matchesLabel

/-- A character of the name of a repository or of its owner. -/
def isRepositoryChar (c : Char) : Bool := c.isAlphanum || c = '_' || c = '.' || c = '-'

/-- `[A-Za-z0-9_.-]+/[A-Za-z0-9_.-]+`, the whole text. -/
def matchesRepository (value : Text) : Bool :=
  match value.splitOn '/' with
  | [owner, repository] => owner ≠ [] ∧ repository ≠ [] ∧ owner.all isRepositoryChar ∧ repository.all isRepositoryChar
  | _ => false

/-- The exception that comparing addresses of different versions raises, which the check does not handle. -/
inductive CheckException where
  | typeError
  deriving DecidableEq, Repr

/-- `left <= right`, of addresses. -/
def addressLe (left right : IpAddress) : Except CheckException Bool :=
  if left.version ≠ right.version then .error .typeError else .ok (left.value < right.value || left = right)

/-- The error of a check, if it does not hold. -/
def errorUnless (holds : Bool) (error : String) : List Text := if holds then [] else [error.toList]

/-- The errors of the virtual network. -/
def networkErrors (network : NetworkSection) : Except CheckException (List Text) :=
  match ipAddress network.virtualIp, ipInterface network.virtualCidr, ipNetwork network.virtualNetwork, ipAddress network.poolStart,
    ipAddress network.poolEnd with
  | some virtualIp, some (cidrIp, cidrNetwork), some virtualNetwork, some poolStart, some poolEnd => do
    let errors :=
      errorUnless (virtualIp = cidrIp) "network.virtual_ip 与 network.virtual_cidr 的地址不一致" ++
      errorUnless (cidrNetwork = virtualNetwork) "network.virtual_cidr 与 network.virtual_network 不属于同一网段" ++
      errorUnless (virtualNetwork.contains virtualIp) "network.virtual_ip 不在 network.virtual_network 中" ++
      errorUnless (virtualNetwork.contains poolStart && virtualNetwork.contains poolEnd) "虚拟地址池不在 network.virtual_network 中" ++
      errorUnless (poolStart.value ≤ poolEnd.value) "network.pool_start 不能大于 network.pool_end"
    let inside ← (do if ← addressLe poolStart virtualIp then addressLe virtualIp poolEnd else pure false)
    pure (errors ++ errorUnless (!inside) "虚拟地址池不能包含服务端 network.virtual_ip")
  | _, _, _, _, _ => pure (errorUnless false "虚拟网络配置无效")

def ServerConfig.validate (config : ServerConfig) : Except CheckException (List Text) := do
  let textErrors := config.textFields.flatMap (fun field =>
    if field.2.any (fun c => c = '\u0000' || c = '\r' || c = '\n') then [field.1 ++ " 不能包含换行或 NUL 字符".toList] else [])
  let portErrors := config.ports.flatMap (fun port =>
    if 1 ≤ port.2 ∧ port.2 ≤ 65535 then [] else [port.1 ++ " 必须在 1-65535 之间".toList])
  let networkErrors ← networkErrors config.network
  pure
    (textErrors ++
      errorUnless (validPublicHost config.server.publicHost) "server.public_host 不是有效的 IP 地址或域名" ++
      errorUnless (["stable".toList, "test".toList].contains config.updates.channel) "updates.channel 只能是 stable 或 test" ++
      portErrors ++
      errorUnless (576 ≤ config.network.mtu ∧ config.network.mtu ≤ 9000) "network.mtu 必须在 576-9000 之间" ++
      errorUnless (5 ≤ config.services.heartbeatTtl ∧ config.services.heartbeatTtl ≤ 3600) "services.heartbeat_ttl 必须在 5-3600 之间" ++
      errorUnless (10 ≤ config.ddns.intervalSeconds ∧ config.ddns.intervalSeconds ≤ 86400) "ddns.interval_seconds 必须在 10-86400 之间" ++
      errorUnless (24 ≤ config.network.secret.length) "network.secret 至少需要 24 个字符" ++
      errorUnless (config.network.secret ≠ legacyDefaultSecret) "network.secret 仍是旧版公开默认值，必须更换" ++
      networkErrors ++
      errorUnless (matchesRepository config.updates.repository) "updates.repository 必须是 owner/repository 格式")

example : (ServerConfig.new "sc6.example.com".toList "server-specific-network-secret".toList).validate = .ok [] := by decide +kernel

end Scbl.Manager
