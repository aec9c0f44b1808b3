import Scbl.Lib.Dict
import Scbl.Launcher.NetworkBootstrap

/-!
# The discovery of peers

The players that a launcher lists (`PeerProbeService.cs`, with the addresses of `PublicTunnelConfig.cs`): the launcher itself, those that
answer a probe and those that the routes name. Probes run side by side and write into one dictionary as they complete.
-/

namespace Scbl.Launcher

open Scbl.Lib

/-- The upper case of a character in an ordinal comparison, which is the usual one in ASCII. -/
structure OrdinalCase where
  upper : Char → Char
  upper_ascii : ∀ c : Char, c.toNat < 128 → upper c = c.toUpper

namespace OrdinalCase

variable (ordinal : OrdinalCase)

/-- A text in upper case: the key of a dictionary that ignores case. -/
def key (text : Text) : Text := text.map ordinal.upper

def equals (a b : Text) : Bool := ordinal.key a = ordinal.key b

def startsWith (text start : Text) : Bool := (ordinal.key start).isPrefixOf (ordinal.key text)

/-- `Distinct`: the first of the texts that are equal. -/
def distinct (texts : List Text) : List Text := texts.foldl (fun found text => if found.any (ordinal.equals text) then found else found ++ [text]) []

end OrdinalCase

structure PeerInfo where
  username : Text
  virtualIp : Text
  version : Text
  latencyMs : Option Int
  isSelf : Bool
  isReachable : Bool
  deriving DecidableEq, Repr

structure PeerProbeResponse where
  username : Option Text
  virtualIp : Option Text
  version : Option Text
  deriving DecidableEq, Repr

/-- What comes of a probe: no connection or a broken one, or a connection after some time and the line that is read in time, if there
is one. -/
inductive ProbeOutcome where
  | noAnswer
  | answered (elapsedMs : Int) (line : Option Text)
  deriving DecidableEq, Repr

namespace PeerProbeService

def clientIpPrefix : Text := "10.66.0.".toList

/-- `value.Split('/')[0]`. -/
def beforeSlash (value : Text) : Text := value.takeWhile (· ≠ '/')

/-- The value, trimmed, unless it is blank. -/
def trimOr (value other : Text) : Text := if isBlank value then other else trim value

def normalizeCandidateIp (value : Text) : Text := if isBlank value then [] else beforeSlash (trim value)

section Case

variable (ordinal : OrdinalCase)

def isScblClientIp (value : Text) : Bool :=
  if isBlank value then false
  else
    let ip := beforeSlash (trim value)
    ordinal.startsWith ip clientIpPrefix && !ordinal.equals ip "10.66.0.1".toList && !ordinal.equals ip "10.66.0.0".toList &&
      !ordinal.equals ip "10.66.0.255".toList

def isValidScblClientIp (value : Text) : Bool := if isBlank value then false else isScblClientIp ordinal value

def routeTargets (selfIp : Text) (candidateIps : List Text) : List Text :=
  ordinal.distinct (((candidateIps.map normalizeCandidateIp).filter (isScblClientIp ordinal)).filter (fun ip => !ordinal.equals ip selfIp))

/-- The address of the subnet that ends with a number. -/
def subnetIp (octet : Nat) : Text := clientIpPrefix ++ Nat.toDigits 10 octet

def buildSubnetScanTargets (selfIp : Text) : List Text :=
  ((List.range' 2 253).map subnetIp).filter (fun ip => !ordinal.equals ip selfIp)

def allTargets (selfIp : Text) (candidateIps : List Text) (scanFallback : Bool) : List Text :=
  let routeTargets := routeTargets ordinal selfIp candidateIps
  let scanTargets :=
    if scanFallback then (buildSubnetScanTargets ordinal selfIp).filter (fun ip => !routeTargets.any (ordinal.equals ip)) else []
  routeTargets ++ scanTargets

/-- The field of an answer, trimmed, unless it is missing or blank. -/
def field (value : Option Text) (other : Text) : Text := trimOr (value.getD []) other

/-- The peer at an address, if the probe of it is answered; `deserialize` gives nothing for a line that cannot be parsed. -/
def probeOne (deserialize : Text → Option PeerProbeResponse) (ip : Text) : ProbeOutcome → Option PeerInfo
  | .noAnswer => none
  | .answered elapsedMs line =>
    let json := line.getD []
    let response := if isBlank json then none else deserialize json
    some
      { username := field (response.bind (·.username)) "Player".toList
        virtualIp := field (response.bind (·.virtualIp)) ip
        version := field (response.bind (·.version)) []
        latencyMs := some (max 1 elapsedMs)
        isSelf := false
        isReachable := true }

/-- The dictionary of peers by their addresses. -/
abbrev Peers := List (Text × PeerInfo)

def setPeer (peers : Peers) (peer : PeerInfo) : Peers := Dict.set peers (ordinal.key peer.virtualIp) peer

/-- `TryAdd`. -/
def tryAddPeer (peers : Peers) (peer : PeerInfo) : Peers :=
  match Dict.get peers (ordinal.key peer.virtualIp) with
  | some _ => peers
  | none => setPeer ordinal peers peer

def selfPeer (username selfIp version : Text) : PeerInfo :=
  { username, virtualIp := selfIp, version, latencyMs := some 0, isSelf := true, isReachable := true }

/-- What is listed of an address that only the routes name. -/
def routedPeer (ip : Text) : PeerInfo :=
  { username := "Player".toList, virtualIp := ip, version := [], latencyMs := none, isSelf := false, isReachable := false }

/-- The task of a probe. -/
def probeTask (deserialize : Text → Option PeerProbeResponse) (outcome : Text → ProbeOutcome) (peers : Peers) (ip : Text) : Peers :=
  match probeOne deserialize ip (outcome ip) with
  | some peer => setPeer ordinal peers peer
  | none => peers

/-- The dictionary at the end, when the probes complete in the order of the list. -/
def discovered (deserialize : Text → Option PeerProbeResponse) (outcome : Text → ProbeOutcome) (completed : List Text)
    (selfIp username version : Text) (candidateIps : List Text) : Peers :=
  let selfIp := trimOr selfIp []
  let username := trimOr username "Player".toList
  let version := trimOr version []
  let peers := if isValidScblClientIp ordinal selfIp then setPeer ordinal [] (selfPeer username selfIp version) else []
  let probed := completed.foldl (probeTask ordinal deserialize outcome) peers
  (routeTargets ordinal selfIp candidateIps).foldl (fun peers ip => tryAddPeer ordinal peers (routedPeer ip)) probed

end Case

def parseLastOctet (ip : Text) : Int :=
  if isBlank ip then 2 ^ 31 - 1
  else (((lastIndexOf '.' ip).map (fun dot => ip.drop (dot + 1))).bind tryParseInt).getD (2 ^ 31 - 1)

/-- `OrderByDescending(p => p.IsSelf).ThenBy(p => ParseLastOctet(p.VirtualIp))`. -/
def orderPeers (peers : List PeerInfo) : List PeerInfo :=
  peers.mergeSort (fun p q => (p.isSelf && !q.isSelf) || (p.isSelf == q.isSelf && decide (parseLastOctet p.virtualIp ≤ parseLastOctet q.virtualIp)))

/-- A list that `DiscoverAsync` can return: the probes complete in some order, and the dictionary lists its values in some order. -/
def DiscoverReturns (ordinal : OrdinalCase) (deserialize : Text → Option PeerProbeResponse) (outcome : Text → ProbeOutcome)
    (selfIp username version : Text) (candidateIps : List Text) (scanFallback : Bool) (peers : List PeerInfo) : Prop :=
  ∃ (completed : List Text) (values : List PeerInfo), completed.Perm (allTargets ordinal (trimOr selfIp []) candidateIps scanFallback) ∧
    values.Perm ((discovered ordinal deserialize outcome completed selfIp username version candidateIps).map (·.2)) ∧
    peers = orderPeers values

end PeerProbeService

end Scbl.Launcher
