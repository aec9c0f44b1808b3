import Scbl.Manager.Announcements
import Scbl.Manager.Config

/-!
# The network bootstrap

What the server tells a launcher of its network in the manifest of the client updates, and how it gets there
(`scblctl/network_bootstrap.py`).
-/

namespace Scbl.Manager

open Scbl.Lib

/-- The object under `networkBootstrap`. -/
structure NetworkBootstrap where
  schemaVersion : Int := 1
  publicEndpoint : Text
  publicUpdatePort : Int
  tunnelSecret : Text
  easyTierNetworkName : Text
  easyTierWssPort : Int
  deriving DecidableEq, Repr

def networkBootstrapPayload (config : ServerConfig) : NetworkBootstrap :=
  let host := stripBrackets (strip config.server.publicHost)
  let endpointHost := if ':' ∈ host then "[".toList ++ host ++ "]".toList else host
  { publicEndpoint := endpointHost ++ ":".toList ++ intText config.network.publicPort
    publicUpdatePort := config.services.updatePort
    tunnelSecret := config.network.secret
    easyTierNetworkName := config.easytier.networkName
    easyTierWssPort := config.network.wssPort }

/-! ## The manifest -/

open Json

def bootstrapKey : Text := "networkBootstrap".toList

/-- The object as it is written. -/
def NetworkBootstrap.toJson (bootstrap : NetworkBootstrap) : Json :=
  .object
    [("schemaVersion".toList, .int bootstrap.schemaVersion), ("publicEndpoint".toList, .str bootstrap.publicEndpoint),
      ("publicUpdatePort".toList, .int bootstrap.publicUpdatePort), ("tunnelSecret".toList, .str bootstrap.tunnelSecret),
      ("easyTierNetworkName".toList, .str bootstrap.easyTierNetworkName), ("easyTierWssPort".toList, .int bootstrap.easyTierWssPort)]

def mergeNetworkBootstrap (manifest : Object) (config : ServerConfig) : Object :=
  Dict.set manifest bootstrapKey (networkBootstrapPayload config).toJson

/-- `ValueError` and its message. -/
structure ManifestError where
  message : Text
  deriving DecidableEq, Repr

/-- The manifest of a root on which nothing was published. -/
def initialManifest : Object :=
  [("version".toList, .str "0.0.0".toList), ("updateMode".toList, .str "components".toList), ("components".toList, .list [])]

/-- A manifest, if there is one, with what a configuration tells of the network; messages name its path. -/
def syncedManifest (path : Text) (config : ServerConfig) (content : Option Json) : Except ManifestError Json := do
  let raw ← (match content with
    | none => pure []
    | some (.object members) => pure members
    | some _ => .error { message := "client update manifest must be a JSON object: ".toList ++ path })
  let raw := if raw = [] then initialManifest else raw
  pure (.object (mergeNetworkBootstrap raw config))

def syncNetworkBootstrap (path : Text) (config : ServerConfig) (s : UpdateRoot) : Except ManifestError UpdateRoot :=
  (syncedManifest path config (s.files clientManifest)).map (s.setFile clientManifest)

end Scbl.Manager
