import Scbl.ControlPlane.Presence
import Scbl.Lib.PyValue
import Scbl.Manager.ClientVersion

/-!
# The requests of the control plane

`do_GET` and `do_POST` of `scbl_control_plane.py`, with what they call. A request is as `http.server` hands it on; its path and its headers
are texts in Latin-1. The snapshots of the background threads and the environment are given, and the texts in the snapshots are Unicode. A
response that cannot be written is one that is sent. Lines of the log are left out, but what is computed for them is not.
-/

namespace Scbl.ControlPlane.Requests

open Scbl.Lib Presence

/-- A text in Latin-1. -/
abbrev Latin1 : Type := Bytes

def ascii (t : Text) : Latin1 := t.toBytes

def isAscii (t : Latin1) : Bool := t.all (· < 128)

/-- The code points of a text. -/
def decode (t : Latin1) : PyStr := t.map UInt8.toNat

/-- What is raised. -/
inductive PyError where
  | value
  | unicodeEncode
  | type
  | attribute
  | overflow
  deriving DecidableEq, Repr

inductive Method where
  | get
  | post
  deriving DecidableEq, Repr

/-- A request; a header that is not there is empty, or the length `0`. -/
structure Request where
  method : Method
  path : Latin1
  contentLength : Latin1
  timestamp : Latin1
  signature : Latin1
  /-- What follows the headers. -/
  sent : Bytes

structure HealthReport where
  overall : Text
  services : List (Text × Bool)
  userCount : Option Nat
  checkedAtUnixMs : Nat

/-- The settings, the snapshots, the caller, whose address is of version 4, and the time. -/
structure Environment where
  secret : Bytes
  allowLoopback : Bool
  maintenance : Bool
  allowNewerTestClients : Bool
  serverToolVersion : PyStr
  networkName : PyStr
  virtualSubnet : PyStr
  serverIp : PyStr
  mtu : PyStr
  port : PyStr
  wssPort : PyStr
  enableIpv6 : PyStr
  controlPort : Int
  heartbeatTtlSeconds : Nat
  sessions : Snapshot
  sessionMetadata : SnapshotMetadata
  health : Option HealthReport
  healthAgeMs : Option Nat
  healthError : Text
  requiredClientVersion : Text
  accountExists : PyStr → Option Bool
  sourceIp : Text
  nowMs : Int

/-- What the library makes of texts and bytes: whether a host may stand in brackets in a URL, the signature in hexadecimal, the value of
a body in JSON, the text of another value than a text, the number of a text for a float, the letters in lower case, and the fields of a
query. -/
structure Library where
  bracketedHost : Latin1 → Bool
  hmacSha256 : Bytes → Bytes → Latin1
  loads : Bytes → Option PyValue
  strOf : PyValue → PyStr
  floatOf : PyStr → Option PyFloat
  lower : PyStr → PyStr
  parseQs : Latin1 → List (Text × List PyStr)

/-! ## Texts and numbers -/

def isSpace (n : Nat) : Bool :=
  (9 ≤ n && n ≤ 13) || (0x1C ≤ n && n ≤ 0x20) || (0x2000 ≤ n && n ≤ 0x200A) ||
    [0x85, 0xA0, 0x1680, 0x2028, 0x2029, 0x202F, 0x205F, 0x3000].contains n

def stripOf (space : Nat → Bool) (s : PyStr) : PyStr := ((s.dropWhile space).reverse.dropWhile space).reverse

def strip (s : PyStr) : PyStr := stripOf isSpace s

/-- The digits of a number, which single underscores may part. -/
def digitsOf (t : Text) : Option Nat :=
  let groups := t.splitOn '_'
  if groups.all Manager.matchesDecimals && groups.flatten.length ≤ Manager.maximumDigits then some (Manager.decimalsValue groups.flatten)
  else none

/-- The white space that `int` passes over: in a text in ASCII the separators are none. -/
def isIntSpace (s : PyStr) (n : Nat) : Bool := isSpace n && !(s.all (· < 128) && 0x1C ≤ n && n ≤ 0x1F)

/-- `int` of a text; `none` is its ValueError. -/
def intOf (s : PyStr) : Option Int :=
  match (stripOf (isIntSpace s) s).toText? with
  | some ('-' :: t) => (digitsOf t).map (fun n => -(n : Int))
  | some ('+' :: t) => (digitsOf t).map Int.ofNat
  | some t => (digitsOf t).map Int.ofNat
  | none => none

/-- `clean_text`, of a text. -/
def cleanStr (s : PyStr) (limit : Nat) : PyStr := (strip (s.filter (· ≠ 0))).take limit

/-- What `value or ""` decides on. -/
def truthy : PyValue → Bool
  | .none => false
  | .bool b => b
  | .int n => n ≠ 0
  | .float x => x ≠ .finite 0
  | .str s => s ≠ []
  | .list values => !values.isEmpty
  | .dict items => !items.isEmpty

def cleanText (l : Library) (value : PyValue) (limit : Nat) : PyStr :=
  match value with
  | .str s => cleanStr s limit
  | value => if truthy value then cleanStr (l.strOf value) limit else []

def clamp (minimum maximum n : Int) : Int := max minimum (min maximum n)

def cleanInt (value : PyValue) (minimum maximum : Int) : Except PyError (Option Int) :=
  match value with
  | .none => .ok none
  | .str s => .ok ((intOf s).map (clamp minimum maximum))
  | .bool b => .ok (some (clamp minimum maximum (if b then 1 else 0)))
  | .int n => .ok (some (clamp minimum maximum n))
  | .float (.finite q) => .ok (some (clamp minimum maximum (q.num.tdiv q.den)))
  | .float (.infinite _) => .error .overflow
  | .float .nan => .ok none
  | .list _ | .dict _ => .ok none

/-- Integers from this on are too large for a float. -/
def floatLimit : Nat := 2 ^ 1024 - 2 ^ 970

/-- `max(0.0, min(100.0, number))`; a comparison with what is no number fails. -/
def clampPercent : PyFloat → Rat
  | .finite q => max 0 (min 100 q)
  | .infinite negative => if negative then 0 else 100
  | .nan => 100

/-- `clean_float`; the rounding of an integer makes no difference within the limits. -/
def cleanFloat (l : Library) : PyValue → Except PyError (Option Rat)
  | .none => .ok none
  | .str s => .ok (if s = [] then none else (l.floatOf s).map clampPercent)
  | .bool b => .ok (some (if b then 1 else 0))
  | .int n => if n.natAbs < floatLimit then .ok (some (clampPercent (.finite n))) else .error .overflow
  | .float x => .ok (some (clampPercent x))
  | .list _ | .dict _ => .ok none

/-! ## URLs -/

/-- A scheme in front of a URL is taken away. -/
def withoutScheme (url : Latin1) : Latin1 :=
  let scheme := url.takeWhile (· ≠ ':'.toUInt8)
  let isLetter := fun b : UInt8 => (Char.ofNat b.toNat).isAlpha
  let isSchemeChar := fun b : UInt8 => isLetter b || (Char.ofNat b.toNat).isDigit || ['+', '-', '.'].contains (Char.ofNat b.toNat)
  if scheme.length < url.length ∧ scheme.head?.any isLetter ∧ scheme.all isSchemeChar then url.drop (scheme.length + 1) else url

/-- The path and the query of a URL without its scheme and its host. -/
def pathAndQuery (url : Latin1) : Latin1 × Latin1 :=
  let url := url.takeWhile (· ≠ '#'.toUInt8)
  (url.takeWhile (· ≠ '?'.toUInt8), (url.dropWhile (· ≠ '?'.toUInt8)).drop 1)

/-- `urlsplit`: the path and the query, where the brackets in the host match. No character of Latin-1 hides a delimiter of the host. -/
def urlsplit (l : Library) (url : Latin1) : Except PyError (Latin1 × Latin1) :=
  let url := withoutScheme ((url.dropWhile (· ≤ 0x20)).filter (fun b => b ≠ 9 && b ≠ 10 && b ≠ 13))
  if (ascii "//".toList).isPrefixOf url then
    let isDelimiter := fun b : UInt8 => (ascii "/?#".toList).contains b
    let netloc := (url.drop 2).takeWhile (fun b => !isDelimiter b)
    let opens := netloc.contains '['.toUInt8
    let closes := netloc.contains ']'.toUInt8
    if opens ≠ closes ∨ (opens ∧ !l.bracketedHost netloc) then .error .value
    else .ok (pathAndQuery ((url.drop 2).dropWhile (fun b => !isDelimiter b)))
  else .ok (pathAndQuery url)

/-! ## Payloads -/

/-- Whether a text has no surrogate that stands alone. -/
def isUnicode (s : PyStr) : Bool := s.all (fun n => decide n.isValidChar)

/-- A dictionary with its keys. -/
def object (items : List (Text × PyValue)) : PyValue := .dict (items.map (fun item => (pyStr item.1, item.2)))

def text (t : Text) : PyValue := .str (pyStr t)

def number (n : Option Int) : PyValue := n.elim .none .int

mutual

/-- Whether `json.dumps` gives a text that UTF-8 can encode. -/
def encodes : PyValue → Bool
  | .str s => isUnicode s
  | .list values => encodesAll values
  | .dict items => encodesItems items
  | _ => true

def encodesAll : List PyValue → Bool
  | [] => true
  | value :: values => encodes value && encodesAll values

def encodesItems : List (PyStr × PyValue) → Bool
  | [] => true
  | (key, value) :: items => isUnicode key && encodes value && encodesItems items

end

/-! ## Answers -/

structure Response where
  status : Nat
  payload : PyValue

/-- The clients that are present, and what was sent to the caller. -/
structure Server where
  clients : RuntimeState
  responses : List Response

abbrev Handle (α : Type) := EStateM PyError Server α

def ofExcept {α : Type} : Except PyError α → Handle α
  | .ok a => pure a
  | .error e => throw e

/-- `send_json`; the path is split for the metrics when the response is sent. -/
def sendJson (l : Library) (request : Request) (status : Nat) (payload : PyValue) : Handle Unit :=
  if encodes payload then do
    modify (fun s => { s with responses := s.responses ++ [{ status, payload }] })
    discard (ofExcept (urlsplit l request.path))
  else throw .unicodeEncode

def maxBodyBytes : Nat := 32 * 1024

def readBody (request : Request) : Option Bytes :=
  match intOf (decode request.contentLength) with
  | none => none
  | some length => if length < 0 ∨ length > maxBodyBytes then none else some (request.sent.take length.toNat)

/-! ## Authorization -/

def Method.name : Method → Text
  | .get => "GET".toList
  | .post => "POST".toList

/-- A text in Latin-1 as UTF-8. -/
def utf8 (t : Latin1) : Bytes := Text.toBytes (t.map (fun b => Char.ofNat b.toNat))

/-- `expected_signature`, where the timestamp is in ASCII. -/
def expectedSignature (l : Library) (env : Environment) (request : Request) (body : Bytes) : Latin1 :=
  let newline : Bytes := [10]
  l.hmacSha256 env.secret
    (request.timestamp ++ newline ++ ascii request.method.name ++ newline ++ utf8 request.path ++ newline ++ body)

def lowerAscii (t : Latin1) : Latin1 := t.map (fun b => if 65 ≤ b ∧ b ≤ 90 then b + 32 else b)

def maxClockSkewSeconds : Nat := 90

/-- The signature is compared when the timestamp is in ASCII, and so has to be the signature. -/
def compareSignature (l : Library) (env : Environment) (request : Request) (body : Bytes) : Except PyError Text :=
  if !isAscii request.timestamp then .error .unicodeEncode
  else if !isAscii request.signature then .error .type
  else .ok (if expectedSignature l env request body = lowerAscii request.signature then [] else "invalid_signature".toList)

def authorizationFailureReason (l : Library) (env : Environment) (request : Request) (body : Bytes) : Except PyError Text :=
  if env.secret = [] then .ok "server_secret_unavailable".toList
  else if request.timestamp = [] then .ok "missing_timestamp".toList
  else
    match intOf (decode request.timestamp) with
    | none => .ok "invalid_timestamp".toList
    | some ts =>
      if (env.nowMs / 1000 - ts).natAbs > maxClockSkewSeconds then .ok "clock_skew".toList
      else if request.signature = [] then .ok "missing_signature".toList
      else compareSignature l env request body

/-- `log_auth_rejection`, which splits the path. -/
def logAuthRejection (l : Library) (request : Request) : Handle Unit := discard (ofExcept (urlsplit l request.path))

/-- The answer to a request that is not authorized. -/
def unauthorized (l : Library) (env : Environment) (request : Request) (reason : Text) : Handle Unit := do
  logAuthRejection l request
  sendJson l request 401
    (object [("error".toList, text "unauthorized".toList), ("reason".toList, text reason), ("serverTimeUnixMs".toList, .int env.nowMs)])

/-- `require_overlay_source`, with the address of the payload if there is one. -/
def requireOverlaySource (env : Environment) (payloadIp : Option Text) : Bool :=
  let inOverlay := (ipv4Octets env.sourceIp).any (fun octets => octets.take 3 = [10, 66, 0])
  let loopback := env.allowLoopback && (ipv4Octets env.sourceIp).any (fun octets => octets.take 1 = [127])
  if !inOverlay && !loopback then false
  else if payloadIp.any (fun ip => ip ≠ [] && env.sourceIp ≠ ip) then loopback
  else true

/-! ## What is reported -/

/-- An item of `decorated_clients`; the role and the peer of the state are those of the session, if there is one. -/
structure ListedClient where
  state : Presence.ClientState
  gameRoleSource : Text
  gameSessionId : Option Nat
  authoritativeHostVirtualIp : Text

def listedClient (sessions : Snapshot) (client : Presence.ClientState) : ListedClient :=
  match Dict.get sessions client.virtualIp.text with
  | none => { state := client, gameRoleSource := "client".toList, gameSessionId := none, authoritativeHostVirtualIp := [] }
  | some session =>
    let isHost : Bool := client.virtualIp.text = session.hostVirtualIp
    { state :=
        { client with
          gameRole := pyStr (if isHost then "host".toList else "client".toList)
          gamePeerIp := pyStr (if isHost then [] else session.hostVirtualIp) }
      gameRoleSource := "game-server".toList
      gameSessionId := some session.sessionId
      authoritativeHostVirtualIp := session.hostVirtualIp }

def natural (n : Option Nat) : PyValue := number (n.map Int.ofNat)

/-- `public_dict`, and what `decorated_clients` sets. -/
def ListedClient.payload (client : ListedClient) : PyValue :=
  let state := client.state
  object
    [("username".toList, .str state.username), ("virtualIp".toList, text state.virtualIp.text),
      ("instanceId".toList, .str state.instanceId), ("clientVersion".toList, .str state.clientVersion),
      ("easyTierVersion".toList, .str state.easytierVersion), ("gameRunning".toList, .bool state.gameRunning),
      ("gameRole".toList, .str state.gameRole), ("gamePeerIp".toList, .str state.gamePeerIp),
      ("serverLatencyMs".toList, number state.serverLatencyMs), ("serverTransport".toList, .str state.serverTransport),
      ("serverAddressFamily".toList, .str state.serverAddressFamily), ("gameLatencyMs".toList, number state.gameLatencyMs),
      ("gameTransport".toList, .str state.gameTransport), ("gameAddressFamily".toList, .str state.gameAddressFamily),
      ("nextHop".toList, .str state.nextHop), ("hopCount".toList, number state.hopCount),
      ("gameLatencyP50Ms".toList, number state.gameLatencyP50Ms), ("gameLatencyP95Ms".toList, number state.gameLatencyP95Ms),
      ("gameJitterMs".toList, number state.gameJitterMs),
      ("gameLossPercent".toList, state.gameLossPercent.elim .none (fun q => .float (.finite q))),
      ("gameRoleSource".toList, text client.gameRoleSource), ("gameSessionId".toList, natural client.gameSessionId),
      ("authoritativeHostVirtualIp".toList, text client.authoritativeHostVirtualIp), ("lastSeenUnixMs".toList, .int state.lastSeenMs)]

/-- Whether a text holds another one. -/
def contains (t : PyStr) (part : Text) : Bool := t.tails.any ((pyStr part).isPrefixOf ·)

def serverUnderlay (l : Library) (client : ListedClient) : Text :=
  let family := l.lower (cleanStr client.state.serverAddressFamily 16)
  if family = pyStr "ipv6".toList then "ipv6".toList else if family = pyStr "ipv4".toList then "ipv4".toList else "unknown".toList

def serverTransport (l : Library) (client : ListedClient) : Text :=
  let transport := l.lower (cleanStr client.state.serverTransport 32)
  if contains transport "wss".toList then "wss".toList
  else if contains transport "tcp".toList then "tcp".toList
  else if contains transport "udp".toList then "udp".toList
  else "other".toList

def gameRole (l : Library) (client : ListedClient) : Text :=
  let role := l.lower (cleanStr client.state.gameRole 16)
  (["host".toList, "client".toList, "running".toList, "idle".toList].find? (fun known => pyStr known = role)).getD "other".toList

/-- The path to the host, of a client that plays with one. -/
def gamePath (l : Library) (client : ListedClient) : Option Text :=
  let peerIp := cleanStr client.state.gamePeerIp 64
  if gameRole l client ≠ "client".toList ∨ !peerIp.toText?.any isClientOverlayIp then none
  else
    let hopCount := (client.state.hopCount.map (clamp 0 255)).getD 0
    let transport := cleanStr client.state.gameTransport 32
    if hopCount > 1 ∨ contains (l.lower transport) "relay".toList ∨ contains transport "多跳".toList then some "relayed".toList
    else if transport ≠ [] ∨ cleanStr client.state.gameAddressFamily 16 ≠ [] then some "direct".toList
    else some "pending".toList

/-- How often each label is given. -/
def counts (labels : List Text) (given : List Text) : PyValue := object (labels.map (fun label => (label, .int (given.count label))))

def topologySummary (l : Library) (peers : List ListedClient) : PyValue :=
  object
    [("onlineClients".toList, .int peers.length),
      ("serverUnderlay".toList, counts ["ipv4".toList, "ipv6".toList, "unknown".toList] (peers.map (serverUnderlay l))),
      ("serverTransport".toList,
        counts ["udp".toList, "tcp".toList, "wss".toList, "other".toList] (peers.map (serverTransport l))),
      ("gameRoles".toList,
        counts ["host".toList, "client".toList, "running".toList, "idle".toList, "other".toList] (peers.map (gameRole l))),
      ("gamePaths".toList, counts ["direct".toList, "relayed".toList, "pending".toList] (peers.filterMap (gamePath l)))]

/-- `get_health`, of the report that there is. -/
def getHealth (env : Environment) : PyValue :=
  let report := env.health.elim [] (fun health =>
    [("overall".toList, text health.overall), ("services".toList, object (health.services.map (fun item => (item.1, .bool item.2)))),
      ("userCount".toList, natural health.userCount), ("checkedAtUnixMs".toList, .int health.checkedAtUnixMs)])
  object (report ++
    [("snapshotAgeMs".toList, natural env.healthAgeMs), ("stale".toList, .bool (env.healthAgeMs.all (· > 15000))),
      ("snapshotError".toList, text env.healthError)])

/-- `capabilities`, in which `int` reads three of the settings. -/
def capabilities (l : Library) (env : Environment) : Except PyError PyValue :=
  match intOf env.mtu, intOf env.port, intOf env.wssPort with
  | some mtu, some port, some wssPort =>
    .ok (object
      [("networkName".toList, .str env.networkName), ("virtualSubnet".toList, .str env.virtualSubnet),
        ("serverVirtualIp".toList, .str env.serverIp), ("mtu".toList, .int mtu), ("udpPort".toList, .int port),
        ("tcpPort".toList, .none), ("tcpEnabled".toList, .bool false), ("wssPort".toList, .int wssPort),
        ("ipv4Enabled".toList, .bool true),
        ("ipv6Enabled".toList, .bool (["1".toList, "y".toList, "yes".toList, "true".toList, "on".toList].any
          (fun yes => pyStr yes = l.lower env.enableIpv6))),
        ("wssEnabled".toList, .bool true), ("p2pEnabled".toList, .bool true), ("relayEnabled".toList, .bool true),
        ("distributedMesh".toList, .bool true), ("controlPlanePort".toList, .int env.controlPort)])
  | _, _, _ => .error .value

def gameSessionDict (payload : GameSessionPayload) : PyValue :=
  object
    [("active".toList, .bool payload.active), ("authoritative".toList, .bool payload.authoritative),
      ("sessionId".toList, natural payload.sessionId), ("sessionType".toList, natural payload.sessionType),
      ("hostUserId".toList, natural payload.hostUserId), ("hostUsername".toList, text payload.hostUsername),
      ("hostVirtualIp".toList, text payload.hostVirtualIp), ("requesterIsHost".toList, .bool payload.requesterIsHost),
      ("participantCount".toList, .int payload.participantCount), ("source".toList, text payload.source),
      ("snapshotAgeMs".toList, natural payload.snapshotAgeMs), ("snapshotError".toList, text payload.snapshotError),
      ("observedAtUnixMs".toList, .int payload.observedAtUnixMs)]

/-! ## Versions -/

/-- `version_tuple`, zeros for what is no version. -/
def versionTuple (value : PyStr) : Int ×ₗ Int ×ₗ Int :=
  let parts := ((cleanStr value 32).dropWhile (fun n => [118, 86].contains n)).splitOn 46
  match parts.mapM intOf with
  | some [major, minor, patch] => toLex (major, toLex (minor, patch))
  | _ => toLex (0, toLex (0, 0))

def clientVersionAccepted (l : Library) (env : Environment) (clientVersion clientChannel required : PyStr) : Bool :=
  let zero := toLex (0, toLex (0, 0))
  let required := versionTuple required
  let current := versionTuple clientVersion
  if required = zero ∨ current = zero then false
  else if current = required then true
  else env.allowNewerTestClients && l.lower (cleanStr clientChannel 16) = pyStr "test".toList && required < current

/-! ## Heartbeats -/

/-- A field of a heartbeat; one that is not there is `None`. -/
def field (items : List (PyStr × PyValue)) (key : Text) : PyValue := (Dict.get items (pyStr key)).getD .none

/-- The address of a client, checked. -/
def overlayIp? (ip : PyStr) : Option OverlayIp :=
  ip.toText?.bind (fun t => if h : isClientOverlayIp t = true then some ⟨t, h⟩ else none)

/-- The most that a latency can be. -/
def maxLatencyMs : Int := 600000

/-- The state that a heartbeat gives. -/
def heartbeatState (l : Library) (env : Environment) (items : List (PyStr × PyValue)) (virtualIp : OverlayIp) :
    Except PyError Presence.ClientState := do
  let serverLatencyMs ← cleanInt (field items "serverLatencyMs".toList) 0 maxLatencyMs
  let gameLatencyMs ← cleanInt (field items "gameLatencyMs".toList) 0 maxLatencyMs
  let hopCount ← cleanInt (field items "hopCount".toList) 0 255
  let gameLatencyP50Ms ← cleanInt (field items "gameLatencyP50Ms".toList) 0 maxLatencyMs
  let gameLatencyP95Ms ← cleanInt (field items "gameLatencyP95Ms".toList) 0 maxLatencyMs
  let gameJitterMs ← cleanInt (field items "gameJitterMs".toList) 0 maxLatencyMs
  let gameLossPercent ← cleanFloat l (field items "gameLossPercent".toList)
  let username := cleanText l (field items "username".toList) 64
  pure
    { username := if username = [] then pyStr "Player".toList else username
      virtualIp
      instanceId := cleanText l (field items "instanceId".toList) 64
      clientVersion := cleanText l (field items "clientVersion".toList) 32
      easytierVersion := cleanText l (field items "easyTierVersion".toList) 32
      gameRunning := truthy (field items "gameRunning".toList)
      gameRole := cleanText l (field items "gameRole".toList) 16
      gamePeerIp := cleanText l (field items "gamePeerIp".toList) 64
      serverLatencyMs
      serverTransport := cleanText l (field items "serverTransport".toList) 32
      serverAddressFamily := cleanText l (field items "serverAddressFamily".toList) 16
      gameLatencyMs
      gameTransport := cleanText l (field items "gameTransport".toList) 32
      gameAddressFamily := cleanText l (field items "gameAddressFamily".toList) 16
      nextHop := cleanText l (field items "nextHop".toList) 64
      hopCount
      gameLatencyP50Ms
      gameLatencyP95Ms
      gameJitterMs
      gameLossPercent
      lastSeenMs := env.nowMs }

/-- The address that a heartbeat is for, when the source may send it. -/
def acceptedIp (l : Library) (env : Environment) (items : List (PyStr × PyValue)) : Option OverlayIp :=
  (overlayIp? (cleanText l (field items "virtualIp".toList) 64)).filter (fun ip => requireOverlaySource env (some ip.text))

/-! ## The handlers -/

def error (reason : Text) : PyValue := object [("error".toList, text reason)]

/-- The clients that are left, each with its session. -/
def activePeers (env : Environment) : Handle (List ListedClient) :=
  modifyGet (fun s =>
    let active := activeClients env.heartbeatTtlSeconds env.nowMs s.clients
    (active.2.map (listedClient env.sessions), { s with clients := active.1 }))

def sendPeers (l : Library) (env : Environment) (request : Request) : Handle Unit := do
  let peers ← activePeers env
  sendJson l request 200 (object
    [("peers".toList, .list (peers.map ListedClient.payload)), ("onlineCount".toList, .int peers.length),
      ("ttlSeconds".toList, .int env.heartbeatTtlSeconds), ("topology".toList, topologySummary l peers)])

def sendBootstrap (l : Library) (env : Environment) (request : Request) (query : List (Text × List PyStr)) : Handle Unit := do
  let argument := fun (key : Text) (otherwise : PyStr) => ((Dict.get query key).bind List.head?).getD otherwise
  let username := cleanStr (argument "username".toList []) 64
  let clientVersion := cleanStr (argument "clientVersion".toList []) 32
  let clientChannel := cleanStr (argument "clientChannel".toList (pyStr "stable".toList)) 16
  let peers ← activePeers env
  let accepted := clientVersionAccepted l env clientVersion clientChannel (pyStr env.requiredClientVersion)
  let capable ← ofExcept (capabilities l env)
  sendJson l request 200 (object
    [("serverToolVersion".toList, .str env.serverToolVersion), ("requiredClientVersion".toList, text env.requiredClientVersion),
      ("clientVersionAccepted".toList, .bool accepted), ("updateRequired".toList, .bool !accepted),
      ("maintenance".toList, .bool env.maintenance),
      ("accountExists".toList, (env.accountExists username).elim .none .bool), ("onlineCount".toList, .int peers.length),
      ("topology".toList, topologySummary l peers), ("health".toList, getHealth env), ("capabilities".toList, capable),
      ("serverTimeUnixMs".toList, .int env.nowMs)])

/-- What an authorized request from the overlay reads. -/
def answerGet (l : Library) (env : Environment) (request : Request) : Handle Unit := do
  let parsed ← ofExcept (urlsplit l request.path)
  if parsed.1 = ascii "/v1/health".toList then
    sendJson l request 200 (object [("health".toList, getHealth env), ("serverTimeUnixMs".toList, .int env.nowMs)])
  else if parsed.1 = ascii "/v1/peers".toList then sendPeers l env request
  else if parsed.1 = ascii "/v1/game-session".toList then
    sendJson l request 200 (gameSessionDict (gameSessionPayload env.sessions env.sessionMetadata env.sourceIp))
  else if parsed.1 = ascii "/v1/bootstrap".toList then sendBootstrap l env request (l.parseQs parsed.2)
  else sendJson l request 404 (error "not found".toList)

def doGet (l : Library) (env : Environment) (request : Request) : Handle Unit := do
  let reason ← ofExcept (authorizationFailureReason l env request [])
  if reason ≠ [] then unauthorized l env request reason
  else if !requireOverlaySource env none then sendJson l request 403 (error "overlay source required".toList)
  else answerGet l env request

/-- A heartbeat; what is no dictionary has no `get`. -/
def heartbeat (l : Library) (env : Environment) (request : Request) (payload : PyValue) : Handle Unit :=
  match payload.items? with
  | none => throw .attribute
  | some items =>
    match acceptedIp l env items with
    | none => sendJson l request 403 (error "heartbeat virtual ip must match overlay source".toList)
    | some virtualIp => do
      let state ← ofExcept (heartbeatState l env items virtualIp)
      modify (fun s => { s with clients := upsert env.heartbeatTtlSeconds env.nowMs s.clients state })
      sendJson l request 200
        (object [("ok".toList, .bool true), ("serverTimeUnixMs".toList, .int env.nowMs), ("nextHeartbeatSeconds".toList, .int 5)])

/-- `json.loads`, of what there is. -/
def loadsBody (l : Library) (body : Bytes) : Option PyValue := if body = [] then some (.dict []) else l.loads body

/-- What an authorized request writes. -/
def answerPost (l : Library) (env : Environment) (request : Request) (body : Bytes) : Handle Unit :=
  match loadsBody l body with
  | none => sendJson l request 400 (error "invalid json".toList)
  | some payload => do
    let parsed ← ofExcept (urlsplit l request.path)
    if parsed.1 = ascii "/v1/heartbeat".toList then heartbeat l env request payload
    else sendJson l request 404 (error "not found".toList)

def doPost (l : Library) (env : Environment) (request : Request) : Handle Unit :=
  match readBody request with
  | none => sendJson l request 413 (error "invalid body size".toList)
  | some body => do
    let reason ← ofExcept (authorizationFailureReason l env request body)
    if reason ≠ [] then unauthorized l env request reason else answerPost l env request body

def handle (l : Library) (env : Environment) (request : Request) : Handle Unit :=
  match request.method with
  | .get => doGet l env request
  | .post => doPost l env request

end Scbl.ControlPlane.Requests
