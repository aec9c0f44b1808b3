import Scbl.Config
import Scbl.Lib.Text

/-!
# The network bootstrap in the launcher

How the launcher checks the network of a server that it is told of (`NetworkBootstrapSettings.cs`, `ServerSettingsValidator.cs`), and how
it reads an endpoint (`PublicTunnelConfig.cs`). What .NET makes of URIs and addresses is a parameter.
-/

namespace Scbl.Launcher

open Scbl.Lib

/-- The host and the port of a URI. -/
structure Uri where
  host : Text
  port : Int
  deriving DecidableEq, Repr

/-- `Uri.TryCreate` of an absolute URI, whether `Uri.CheckHostName` knows a name, and whether `IPAddress.TryParse` gives an address of
version 6. -/
structure DotNet where
  tryCreateUri : Text → Option Uri
  checkHostName : Text → Bool
  isIpv6Address : Text → Bool

/-- `int.TryParse`: decimal digits, after an optional sign, with white space around them. -/
def tryParseInt (text : Text) : Option Int :=
  let digitsOf := fun digits : Text => if digits ≠ [] ∧ digits.all (·.isDigit) then some (digitsValue digits) else none
  let value :=
    match trim text with
    | '-' :: digits => (digitsOf digits).map (fun n => -(n : Int))
    | '+' :: digits => (digitsOf digits).map Int.ofNat
    | digits => (digitsOf digits).map Int.ofNat
  value.filter (fun n => -2 ^ 31 ≤ n ∧ n < 2 ^ 31)

/-! ## Endpoints -/

def defaultTunnelPort : Int := 11010

def defaultPublicEndpoint : Text := "sc6.elonline.top:11010".toList

/-- The loop over the prefixes of an endpoint. -/
def withoutPrefix (endpoint : Text) : Text :=
  match ["tcp://".toList, "udp://".toList, "ws://".toList, "wss://".toList].find? (startsWithIgnoreCase endpoint ·) with
  | some scheme => endpoint.drop scheme.length
  | none => endpoint

/-- `value.Trim(chars)`. -/
def trimChars (chars value : Text) : Text := ((value.dropWhile chars.contains).reverse.dropWhile chars.contains).reverse

def trimBrackets (host : Text) : Text := trimChars ['[', ']'] host

def normalizePublicEndpoint (net : DotNet) (value : Text) : Text :=
  let endpoint := withoutPrefix (if isBlank value then defaultPublicEndpoint else trim value)
  let endpoint := trimChars ['/'] (trim endpoint)
  let endpoint := if isBlank endpoint then defaultPublicEndpoint else endpoint
  let port := ":".toList ++ intText defaultTunnelPort
  if "[".toList.isPrefixOf endpoint then
    match endpoint.idxOf? ']' with
    | some close => if close > 0 ∧ (endpoint.length = close + 1 ∨ endpoint[close + 1]? ≠ some ':') then endpoint ++ port else endpoint
    | none => endpoint
  else
    let colonCount := endpoint.count ':'
    if colonCount = 0 then endpoint ++ port
    else if colonCount > 1 ∧ net.isIpv6Address endpoint then "[".toList ++ endpoint ++ "]".toList ++ port
    else endpoint

/-- The index of the last occurrence of a character. -/
def lastIndexOf (c : Char) (text : Text) : Option Nat := (text.reverse.idxOf? c).map (fun i => text.length - 1 - i)

def getEndpointHost (net : DotNet) (endpoint : Text) : Text :=
  let normalized := normalizePublicEndpoint net endpoint
  if "[".toList.isPrefixOf normalized then
    match normalized.idxOf? ']' with
    | some close => if close > 1 then (normalized.take close).drop 1 else normalized
    | none => normalized
  else
    match lastIndexOf ':' normalized with
    | some lastColon => if lastColon > 0 then normalized.take lastColon else normalized
    | none => normalized

def getEndpointPort (net : DotNet) (endpoint : Text) : Int :=
  let normalized := normalizePublicEndpoint net endpoint
  match lastIndexOf ':' normalized with
  | some lastColon =>
    match tryParseInt (normalized.drop (lastColon + 1)) with
    | some port => if 0 < port ∧ port ≤ 65535 then port else defaultTunnelPort
    | none => defaultTunnelPort
  | none => defaultTunnelPort

def formatHost (host : Text) : Text :=
  let host := trimBrackets (trim host)
  if ':' ∈ host then "[".toList ++ host ++ "]".toList else host

def buildEndpoint (host : Text) (port : Int) : Text := formatHost host ++ ":".toList ++ intText port

def toTcpPeerUrl (net : DotNet) (endpoint : Text) : Text := "tcp://".toList ++ normalizePublicEndpoint net endpoint

/-! ## Validation -/

inductive ServerSettingsValidationError where
  | endpointRequired
  | endpointInvalid
  | updatePortInvalid
  deriving DecidableEq, Repr

structure ValidatedServerSettings where
  publicEndpoint : Text
  tunnelPort : Int
  updatePort : Int
  deriving DecidableEq, Repr

/-- The URI of an endpoint, if its host and its port can be used. -/
def endpointUri (net : DotNet) (endpoint : Text) : Option Uri :=
  (net.tryCreateUri ("tcp://".toList ++ normalizePublicEndpoint net endpoint)).filter (fun uri =>
    !isBlank uri.host && decide (0 < uri.port ∧ uri.port ≤ 65535) && net.checkHostName (trimBrackets uri.host))

def tryValidate (net : DotNet) (endpointText updatePortText : Text) : Except ServerSettingsValidationError ValidatedServerSettings :=
  let endpoint := trim endpointText
  if isBlank endpoint then .error .endpointRequired
  else
    let endpoint := withoutPrefix endpoint
    if endpoint.any (['/', '?', '#', '@'].contains ·) then .error .endpointInvalid
    else
      match endpointUri net endpoint with
      | none => .error .endpointInvalid
      | some uri =>
        match (tryParseInt (trim updatePortText)).filter (fun port => 0 < port ∧ port ≤ 65535) with
        | none => .error .updatePortInvalid
        | some updatePort =>
          .ok { publicEndpoint := buildEndpoint (trimBrackets uri.host) uri.port, tunnelPort := uri.port, updatePort }

structure NetworkBootstrapSettings where
  publicEndpoint : Text
  publicUpdatePort : Int
  tunnelSecret : Text
  easyTierNetworkName : Text
  easyTierWssPort : Int
  deriving DecidableEq, Repr

/-- `^[A-Za-z0-9_.-]{1,64}$`, of a text without a newline at its end. -/
def matchesNetworkName (name : Text) : Bool :=
  1 ≤ name.length ∧ name.length ≤ 64 ∧ name.all (fun c => c.isAlphanum || c = '_' || c = '.' || c = '-')

def tryCreate (net : DotNet) (schemaVersion : Int) (publicEndpoint : Option Text) (publicUpdatePort : Int)
    (tunnelSecret easyTierNetworkName : Option Text) (easyTierWssPort : Int) : Option NetworkBootstrapSettings :=
  if schemaVersion ≠ 1 then none
  else
    match tryValidate net (publicEndpoint.getD []) (intText publicUpdatePort) with
    | .error _ => none
    | .ok validated =>
      let secret := trim (tunnelSecret.getD [])
      let networkName := trim (easyTierNetworkName.getD [])
      if utf16Length secret < 16 ∨ utf16Length secret > 256 ∨ secret.any (['\u0000', '\r', '\n'].contains ·) ∨
          ¬ matchesNetworkName networkName ∨ easyTierWssPort ≤ 0 ∨ easyTierWssPort > 65535 then none
      else
        some
          { publicEndpoint := validated.publicEndpoint, publicUpdatePort := validated.updatePort, tunnelSecret := secret
            easyTierNetworkName := networkName, easyTierWssPort }

end Scbl.Launcher
