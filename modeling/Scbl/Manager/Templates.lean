import Scbl.Lib.Quoting
import Scbl.Manager.Config

/-!
# The configuration files of the services

The files of `scblctl/templates.py`: the environment of the control plane, the configurations of EasyTier and of the dedicated server, and
the units of the services.
-/

namespace Scbl.Manager

open Scbl.Lib

/-- `__version__`. -/
def managerVersion : Text := "2.0.6".toList

/-- `DEPLOYMENT_PATHS.data`. -/
def dataPath : Text := "/var/lib/scbl".toList

def q (value : Text) : Text := jsonQuote value

/-- The exception of a value that a file of variables cannot hold. -/
structure ValueError where
  message : Text
  deriving DecidableEq, Repr

def envQ (value : Text) : Except ValueError Text :=
  if value.any (fun c => c = '\u0000' || c = '\r' || c = '\n') then .error { message := "systemd 环境变量不能包含换行或 NUL 字符".toList }
  else .ok ("\"".toList ++ value.flatMap environmentEscape ++ "\"".toList)

/-- The variables of the control plane. -/
def runtimeValues (config : ServerConfig) (version : Text) : List (Text × Text) :=
  [("SCBL_ROOT".toList, dataPath), ("SCBL_SERVER_IP".toList, config.network.virtualIp),
    ("SCBL_CONTROL_PORT".toList, intText config.services.controlPort), ("SCBL_SECRET".toList, config.network.secret),
    ("SCBL_DB_PATH".toList, dataPath ++ "/dedicated/5th-echelon.db".toList), ("SCBL_SERVER_TOOL_VERSION".toList, version),
    ("SCBL_ALLOW_NEWER_TEST_CLIENTS".toList, if config.testing.allowNewerClients then ['y'] else ['n']),
    ("SCBL_HEARTBEAT_TTL".toList, intText config.services.heartbeatTtl), ("SCBL_VIRTUAL_NET".toList, config.network.virtualNetwork),
    ("SCBL_MTU".toList, intText config.network.mtu), ("SCBL_PORT".toList, intText config.network.publicPort),
    ("SCBL_WSS_PORT".toList, intText config.network.wssPort),
    ("SCBL_ENABLE_IPV6".toList, if config.network.enableIpv6 then ['y'] else ['n']),
    ("EASYTIER_NETWORK_NAME".toList, config.easytier.networkName)]

def renderRuntimeEnv (config : ServerConfig) (version : Text) : Except ValueError Text := do
  let lines ← (runtimeValues config version).mapM (fun item => (envQ item.2).map (fun value => item.1 ++ "=".toList ++ value ++ ['\n']))
  pure lines.flatten

def listeners (config : ServerConfig) : List Text :=
  ["udp://0.0.0.0:".toList ++ intText config.network.publicPort, "wss://0.0.0.0:".toList ++ intText config.network.wssPort] ++
    if config.network.enableIpv6 then
      ["udp://[::]:".toList ++ intText config.network.publicPort, "wss://[::]:".toList ++ intText config.network.wssPort]
    else []

/-- `json.dumps` of a list of texts. -/
def quoteList : List Text → Text
  | [] => "[]".toList
  | value :: values => "[".toList ++ q value ++ values.flatMap (fun value => ", ".toList ++ q value) ++ "]".toList

/-- The lines of the configuration of EasyTier. -/
def easytierLines (config : ServerConfig) : List Text :=
  ["instance_name = ".toList ++ q config.easytier.instanceName, "instance_id = ".toList ++ q config.easytier.instanceId,
    "hostname = \"scbl-public-server\"".toList, "ipv4 = ".toList ++ q config.network.virtualCidr, "dhcp = false".toList,
    "listeners = ".toList ++ quoteList (listeners config), [], "[network_identity]".toList,
    "network_name = ".toList ++ q config.easytier.networkName, "network_secret = ".toList ++ q config.network.secret, [],
    "[flags]".toList, "default_protocol = \"udp\"".toList, "dev_name = \"scbl0\"".toList, "enable_encryption = true".toList,
    "enable_ipv6 = true".toList, "mtu = ".toList ++ intText config.network.mtu, "latency_first = false".toList,
    "disable_p2p = false".toList, "p2p_only = false".toList, "lazy_p2p = false".toList, "need_p2p = true".toList,
    "relay_all_peer_rpc = true".toList, "disable_relay_data = false".toList, "disable_udp_hole_punching = false".toList,
    "disable_tcp_hole_punching = false".toList, "disable_sym_hole_punching = false".toList, "disable_upnp = false".toList,
    "enable_udp_broadcast_relay = true".toList, "enable_kcp_proxy = false".toList, "enable_quic_proxy = false".toList,
    "relay_network_whitelist = ".toList ++ q config.easytier.networkName]

def renderEasytierConfig (config : ServerConfig) : Text := (easytierLines config).flatMap (· ++ ['\n'])

/-- Lines as a text. -/
def linesText (lines : List Text) : Text := lines.flatMap (· ++ ['\n'])

/-! ## The dedicated server and the services -/

/-- `DEPLOYMENT_PATHS.current`. -/
def currentPath : Text := "/opt/scbl/current".toList

def runtimeEnvPath : Text := "/etc/scbl/runtime.env".toList

/-- The lines of the configuration of the dedicated server. -/
def dedicatedLines (serverIp keyLines : Text) : List Text :=
  ["services = [".toList, "    \"sc_bl_auth\",".toList, "    \"onlineconfig\",".toList, "    \"content\",".toList,
    "    \"sc_bl_secure\",".toList, "]".toList, "api_server = \"".toList ++ serverIp ++ ":50051\"".toList, [],
    "[service.content]".toList, "type = \"content\"".toList, "listen = \"".toList ++ serverIp ++ ":8000\"".toList, [],
    "[service.content.files]".toList, "\"/mp_balancing.ini\" = \"./data/mp_balancing.ini\"".toList, [],
    "[service.onlineconfig]".toList, "type = \"config\"".toList, "listen = \"".toList ++ serverIp ++ ":80\"".toList, [],
    "[[service.onlineconfig.content]]".toList, "Name = \"SandboxUrl\"".toList,
    "Values = [\"prudp:/address=".toList ++ serverIp ++ ";port=21126\"]".toList, [], "[[service.onlineconfig.content]]".toList,
    "Name = \"SandboxUrlWS\"".toList, "Values = [\"".toList ++ serverIp ++ ":21126\"]".toList, [],
    "[service.sc_bl_auth]".toList, "type = \"authentication\"".toList, "access_key = \"yl4NG7qZ\"".toList,
    "crypto_key = \"CD&ML\"".toList, "listen = \"".toList ++ serverIp ++ ":21126\"".toList, "vport = 1".toList,
    "secure_server_addr = \"".toList ++ serverIp ++ ":21127\"".toList, "ticket_key = [".toList,
    "    ".toList ++ keyLines ++ ",".toList, "]".toList, [], "[service.sc_bl_auth.settings]".toList, [],
    "[service.sc_bl_secure]".toList, "type = \"secure\"".toList, "access_key = \"yl4NG7qZ\"".toList,
    "crypto_key = \"CD&ML\"".toList, "listen = \"".toList ++ serverIp ++ ":21127\"".toList, "vport = 1".toList,
    "ticket_key = [".toList, "    ".toList ++ keyLines ++ ",".toList, "]".toList, [], "[service.sc_bl_secure.settings]".toList,
    "storage_host = \"".toList ++ serverIp ++ ":8000\"".toList, "storage_path = \"/mp_balancing.ini\"".toList, [],
    "[debug]".toList, "mark_all_as_online = false".toList, "force_joins = false".toList]

/-- The ticket key is the given one, or else the one that was drawn. -/
def renderDedicatedConfig (config : ServerConfig) (ticketKey : Option Bytes) (drawn : Bytes) : Except ValueError Text :=
  let key := match ticketKey with
    | some (b :: key) => b :: key
    | _ => drawn
  if key.length ≠ 32 then .error { message := "ticket key must contain exactly 32 bytes".toList }
  else
    let keyLines := ((key.map (fun b => intText b.toNat)).intersperse ",\n    ".toList).flatten
    .ok (linesText (dedicatedLines config.network.virtualIp keyLines))

def unprivilegedServiceHardening : List Text :=
  ["NoNewPrivileges=true".toList, "PrivateTmp=true".toList, "PrivateDevices=true".toList, "ProtectHome=true".toList,
    "ProtectSystem=strict".toList, "ProtectClock=true".toList, "ProtectControlGroups=true".toList,
    "ProtectKernelLogs=true".toList, "ProtectKernelModules=true".toList, "ProtectKernelTunables=true".toList,
    "ProtectHostname=true".toList, "RestrictNamespaces=true".toList, "RestrictRealtime=true".toList,
    "RestrictSUIDSGID=true".toList, "SystemCallArchitectures=native".toList, "RemoveIPC=true".toList,
    "LockPersonality=true".toList]

def tunnelUnit (config : ServerConfig) : List Text :=
  ["[Unit]".toList, "Description=SCBL EasyTier Virtual Network".toList, "After=network-online.target".toList,
    "Wants=network-online.target".toList, [], "[Service]".toList, "Type=simple".toList,
    "ExecStartPre=/bin/sh -c 'ip link delete scbl0 2>/dev/null || true'".toList,
    "ExecStart=".toList ++ currentPath ++ "/easytier-core --config-file /etc/scbl/easytier.toml --rpc-portal 127.0.0.1:".toList ++
      intText config.easytier.rpcPort ++ " --console-log-level warn --file-log-level off".toList,
    "ExecStartPost=/usr/local/lib/scbl/wait-scbl0 ".toList ++ config.network.virtualIp ++ " 30".toList,
    "Restart=on-failure".toList, "RestartSec=3".toList, "TimeoutStartSec=35".toList, "LimitNOFILE=1048576".toList,
    "NoNewPrivileges=true".toList, "PrivateTmp=true".toList, "ProtectHome=true".toList, "ProtectSystem=strict".toList,
    "ReadOnlyPaths=".toList ++ currentPath ++ " /etc/scbl".toList, "ReadWritePaths=".toList ++ dataPath,
    "CapabilityBoundingSet=CAP_NET_ADMIN CAP_NET_RAW".toList, "AmbientCapabilities=CAP_NET_ADMIN CAP_NET_RAW".toList,
    "RestrictAddressFamilies=AF_INET AF_INET6 AF_UNIX AF_NETLINK".toList, "LockPersonality=true".toList, [], "[Install]".toList,
    "WantedBy=multi-user.target".toList]

def dedicatedUnit (config : ServerConfig) : List Text :=
  ["[Unit]".toList, "Description=SCBL Dedicated Server".toList, "After=scbl-tunnel.service".toList,
    "Requires=scbl-tunnel.service".toList, [], "[Service]".toList, "Type=simple".toList, "User=scbl-game".toList,
    "Group=scbl".toList, "UMask=0027".toList, "EnvironmentFile=".toList ++ runtimeEnvPath,
    "WorkingDirectory=".toList ++ dataPath ++ "/dedicated".toList,
    "ExecStartPre=/usr/local/lib/scbl/wait-scbl0 ".toList ++ config.network.virtualIp,
    "ExecStart=".toList ++ currentPath ++ "/dedicated_server --config /etc/scbl/dedicated.toml".toList, "Restart=always".toList,
    "RestartSec=3".toList, "TimeoutStartSec=25".toList, "TimeoutStopSec=15".toList, "LimitNOFILE=1048576".toList] ++
  unprivilegedServiceHardening ++
  ["ReadOnlyPaths=".toList ++ currentPath ++ " /etc/scbl".toList, "ReadWritePaths=".toList ++ dataPath ++ "/dedicated".toList,
    "CapabilityBoundingSet=CAP_NET_BIND_SERVICE".toList, "AmbientCapabilities=CAP_NET_BIND_SERVICE".toList,
    "RestrictAddressFamilies=AF_INET AF_INET6 AF_UNIX AF_NETLINK".toList, [], "[Install]".toList,
    "WantedBy=multi-user.target".toList]

def controlUnit (config : ServerConfig) : List Text :=
  ["[Unit]".toList, "Description=SCBL Sidecar Control Plane".toList, "After=scbl-tunnel.service scbl-dedicated.service".toList,
    "Requires=scbl-tunnel.service".toList, "Wants=scbl-dedicated.service".toList, [], "[Service]".toList, "Type=simple".toList,
    "User=scbl-control".toList, "Group=scbl".toList, "UMask=0027".toList, "EnvironmentFile=".toList ++ runtimeEnvPath,
    "WorkingDirectory=".toList ++ dataPath, "ExecStartPre=/usr/local/lib/scbl/wait-scbl0 ".toList ++ config.network.virtualIp,
    "ExecStart=/usr/bin/python3 ".toList ++ currentPath ++ "/scbl_control_plane.py".toList, "Restart=always".toList,
    "RestartSec=2".toList, "TimeoutStartSec=25".toList, "TimeoutStopSec=8".toList, "TasksMax=128".toList,
    "MemoryHigh=192M".toList, "MemoryMax=256M".toList] ++
  unprivilegedServiceHardening ++
  ["ReadOnlyPaths=".toList ++ currentPath ++ " /etc/scbl ".toList ++ dataPath, "CapabilityBoundingSet=".toList,
    "RestrictAddressFamilies=AF_INET AF_INET6 AF_UNIX AF_NETLINK".toList, [], "[Install]".toList,
    "WantedBy=multi-user.target".toList]

def updateUnit (config : ServerConfig) : List Text :=
  ["[Unit]".toList, "Description=SCBL Public Client Update Server".toList, "After=network-online.target".toList,
    "Wants=network-online.target".toList, [], "[Service]".toList, "Type=simple".toList, "User=scbl-update".toList,
    "Group=scbl".toList, "UMask=0027".toList,
    "ExecStart=/usr/bin/python3 ".toList ++ currentPath ++ "/scbl_update_server.py --root ".toList ++ dataPath ++
      "/client-updates --port ".toList ++ intText config.services.updatePort ++ " --ipv6 ".toList ++ (if config.network.enableIpv6 then ['y'] else ['n']),
    "Restart=always".toList, "RestartSec=3".toList, "TimeoutStartSec=25".toList, "TimeoutStopSec=8".toList,
    "TasksMax=128".toList, "MemoryHigh=192M".toList, "MemoryMax=256M".toList] ++
  unprivilegedServiceHardening ++
  ["ReadOnlyPaths=".toList ++ currentPath ++ " ".toList ++ dataPath ++ "/client-updates".toList,
    "CapabilityBoundingSet=".toList, "RestrictAddressFamilies=AF_INET AF_INET6 AF_UNIX".toList, [], "[Install]".toList,
    "WantedBy=multi-user.target".toList]

/-- The unit files by their names. -/
def renderSystemdUnits (config : ServerConfig) : List (Text × Text) :=
  [("scbl-tunnel.service".toList, linesText (tunnelUnit config)), ("scbl-dedicated.service".toList, linesText (dedicatedUnit config)),
    ("scbl-control-plane.service".toList, linesText (controlUnit config)), ("scbl-update.service".toList, linesText (updateUnit config))]

/-- `WAIT_SCBL0`, by its lines. -/
def waitScbl0Lines : List Text :=
  ["#!/usr/bin/env bash".toList, "set -euo pipefail".toList, "expected=\"$\x7b1:?expected virtual IP is required\x7d\"".toList,
    "timeout=\"$\x7b2:-20\x7d\"".toList, "for _ in $(seq 1 \"$timeout\"); do".toList,
    "  if ip -4 addr show dev scbl0 2>/dev/null | grep -Fq \"$expected\"; then".toList, "    exit 0".toList, "  fi".toList,
    "  sleep 1".toList, "done".toList, "echo \"scbl0 did not receive $expected within $timeout seconds\" >&2".toList,
    "exit 1".toList]

def waitScbl0 : Text := linesText waitScbl0Lines

end Scbl.Manager
