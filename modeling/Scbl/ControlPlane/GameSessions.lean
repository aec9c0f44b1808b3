import Scbl.Lib.Best
import Scbl.Lib.IpAddress
import Scbl.Manager.ComponentVersion
import Scbl.Storage.Statements
import Mathlib.Data.List.Sort
import Mathlib.Data.Prod.Lex

/-!
# The game sessions of the control plane

How `scbl_control_plane.py` finds out from the tables of the game server who plays with whom. It reads the active sessions with their
participants and the overlay addresses of these, and keeps for each address the session with the highest score. From this snapshot it
answers which session an address is in, and tells the role of each client. A set is the list of its members; a dictionary keeps the order
in which its keys were entered.
-/

namespace Scbl.ControlPlane

open Scbl.Lib Scbl.Storage

def cleanText (value : Text) (limit : Nat) : Text := (Manager.strip (value.filter (· ≠ '\u0000'))).take limit

/-! ## Overlay addresses -/

/-- No address of version 6 is in the network. -/
def isClientOverlayIp (value : Text) : Bool :=
  match ipv4Octets value with
  | some [10, 66, 0, n] => n ∉ [0, 1, 255]
  | _ => false

/-- `[2-9]|[1-9][0-9]|1[0-9]{2}|2[0-4][0-9]|25[0-4]`, for the digits up to the next character that is none. -/
def matchesHost : Text → Bool
  | [c] => '2' ≤ c
  | [b, _] => b ≠ '0'
  | [a, b, c] => a = '1' || (a = '2' && (b ≤ '4' || (b = '5' && c ≤ '4')))
  | _ => false

def overlayPrefix : Text := "10.66.0.".toList

/-- The match of `_OVERLAY_IP_REGEX` at a place in a text, after the character before it. -/
def overlayIpAt (before : Option Char) (t : Text) : Option Text :=
  if before.any (·.isDigit) ∨ !overlayPrefix.isPrefixOf t then none
  else
    let host := (t.drop overlayPrefix.length).takeWhile (·.isDigit)
    if matchesHost host then some (overlayPrefix ++ host) else none

/-- `findall`: after a match the search goes on behind it, which leaves out as many characters as are still to be skipped. -/
def findOverlayIps : Nat → Option Char → Text → List Text
  | _, _, [] => []
  | skip + 1, _, c :: t => findOverlayIps skip (some c) t
  | 0, before, c :: t =>
    match overlayIpAt before (c :: t) with
    | some ip => ip :: findOverlayIps (ip.length - 1) (some c) t
    | none => findOverlayIps 0 (some c) t

def extractOverlayIps (value : Text) : List Text := (findOverlayIps 0 none value).eraseDups.filter isClientOverlayIp

/-- `int(x.rsplit(".", 1)[-1])`, of an overlay address. -/
def lastOctet (ip : Text) : Nat := digitsValue (((ip.splitOn '.').getLast?).getD [])

/-! ## Authoritative sessions -/

structure AuthoritativeGameSession where
  sessionId : Nat
  sessionType : Nat
  hostUserId : Nat
  hostUsername : Text
  hostVirtualIp : Text := []
  participantCount : Nat := 0
  participantIps : List Text := []
  participantUserIds : List Nat := []
  deriving DecidableEq, Repr

/-- The tuples a session is compared by. -/
abbrev Score := Nat ×ₗ Nat ×ₗ Nat

def AuthoritativeGameSession.score (session : AuthoritativeGameSession) : Score :=
  toLex (session.participantIps.length, toLex (session.participantCount, session.sessionId))

/-- A row of the query. -/
structure SessionRow where
  sessionId : Nat
  sessionType : Nat
  creatorId : Nat
  hostUsername : Text
  userId : Nat
  url : Text

/-- `LEFT JOIN station_urls`, and `COALESCE` of the column. -/
def leftJoinUrls (t : Tables) (userId : Nat) : List Text :=
  match (t.stationUrls.filter (·.userId = userId)).map (·.url) with
  | [] => [[]]
  | urls => urls

/-- The rows of the query of `_load_authoritative_sessions`. -/
def sessionRows (t : Tables) : List SessionRow :=
  ((t.gameSessions.filter (·.destroyedAt = none)).insertionSort (fun g h => h.id ≤ g.id)).flatMap (fun g =>
    (t.users.filter (·.id = g.creatorId)).flatMap (fun host =>
      (t.participants.filter (·.gameId = g.id)).flatMap (fun p =>
        (leftJoinUrls t p.userId).map (fun url =>
          { sessionId := g.id, sessionType := g.typeId, creatorId := g.creatorId, hostUsername := host.username, userId := p.userId, url }))))

abbrev Sessions := List (Nat × AuthoritativeGameSession)

abbrev UserIps := List ((Nat × Nat) × List Text)

/-- The new session of a row. -/
def SessionRow.session (row : SessionRow) : AuthoritativeGameSession :=
  { sessionId := row.sessionId, sessionType := row.sessionType, hostUserId := row.creatorId, hostUsername := cleanText row.hostUsername 64 }

/-- A row adds a participant to its session, and addresses to the participant. -/
def addRow (found : Sessions × UserIps) (row : SessionRow) : Sessions × UserIps :=
  let session := (Dict.get found.1 row.sessionId).getD row.session
  let session := { session with participantUserIds := session.participantUserIds ∪ [row.userId] }
  let ips := (Dict.get found.2 (row.sessionId, row.userId)).getD []
  (Dict.set found.1 row.sessionId session, Dict.set found.2 (row.sessionId, row.userId) (ips ∪ extractOverlayIps row.url))

/-- `sorted(ips, ...)[0]`. -/
def firstIp (ips : List Text) : Text := ((ips.insertionSort (fun a b => lastOctet a ≤ lastOctet b)).head?).getD []

/-- A participant adds its addresses to the session, and the host its first one. -/
def addParticipant (userIps : UserIps) (session : AuthoritativeGameSession) (userId : Nat) : AuthoritativeGameSession :=
  let ips := (Dict.get userIps (session.sessionId, userId)).getD []
  let session := { session with participantIps := session.participantIps ∪ ips }
  if userId = session.hostUserId ∧ ips ≠ [] ∧ session.hostVirtualIp = [] then { session with hostVirtualIp := firstIp ips } else session

def completed (userIps : UserIps) (session : AuthoritativeGameSession) : AuthoritativeGameSession :=
  let session := { session with participantCount := session.participantUserIds.length }
  session.participantUserIds.foldl (addParticipant userIps) session

/-- A session that is not left out: its host has an address, and there are two participants and two addresses. -/
def isPlayable (session : AuthoritativeGameSession) : Bool :=
  !(session.hostVirtualIp = [] || session.participantCount < 2 || session.participantIps.length < 2)

/-- The playable sessions of the tables. -/
def playableSessions (t : Tables) : List AuthoritativeGameSession :=
  let found := (sessionRows t).foldl addRow ([], [])
  (found.1.map (fun item => completed found.2 item.2)).filter isPlayable

/-- The session of each address. -/
abbrev Snapshot := List (Text × AuthoritativeGameSession)

def loadAuthoritativeSessions (t : Tables) : Snapshot :=
  bestOf AuthoritativeGameSession.score (·.participantIps) (playableSessions t)

/-! ## The answers -/

/-- What is known of the snapshot itself, and the time of the answer. -/
structure SnapshotMetadata where
  ageMs : Option Nat
  error : Text
  observedAtUnixMs : Nat

structure GameSessionPayload where
  active : Bool
  authoritative : Bool
  sessionId : Option Nat
  sessionType : Option Nat
  hostUserId : Option Nat
  hostUsername : Text
  hostVirtualIp : Text
  requesterIsHost : Bool
  participantCount : Nat
  source : Text
  snapshotAgeMs : Option Nat
  snapshotError : Text
  observedAtUnixMs : Nat
  deriving DecidableEq, Repr

def gameSessionPayload (sessions : Snapshot) (metadata : SnapshotMetadata) (sourceIp : Text) : GameSessionPayload :=
  match Dict.get sessions sourceIp with
  | none =>
    { active := false, authoritative := true, sessionId := none, sessionType := none, hostUserId := none, hostUsername := [],
      hostVirtualIp := [], requesterIsHost := false, participantCount := 0, source := "game-server".toList,
      snapshotAgeMs := metadata.ageMs, snapshotError := metadata.error, observedAtUnixMs := metadata.observedAtUnixMs }
  | some session =>
    { active := true, authoritative := true, sessionId := some session.sessionId, sessionType := some session.sessionType,
      hostUserId := some session.hostUserId, hostUsername := session.hostUsername, hostVirtualIp := session.hostVirtualIp,
      requesterIsHost := sourceIp = session.hostVirtualIp, participantCount := session.participantCount,
      source := "game-server".toList, snapshotAgeMs := metadata.ageMs, snapshotError := metadata.error,
      observedAtUnixMs := metadata.observedAtUnixMs }

/-- The state of a client that its role depends on. -/
structure ClientState where
  username : Text
  virtualIp : Text
  gameRole : Text
  gamePeerIp : Text
  deriving DecidableEq, Repr

/-- A client as it is listed, with the role it has. -/
structure PublicClient where
  username : Text
  virtualIp : Text
  gameRole : Text
  gamePeerIp : Text
  gameRoleSource : Text
  gameSessionId : Option Nat
  authoritativeHostVirtualIp : Text
  deriving DecidableEq, Repr

def ClientState.publicDict (client : ClientState) : PublicClient :=
  { username := client.username, virtualIp := client.virtualIp, gameRole := client.gameRole, gamePeerIp := client.gamePeerIp,
    gameRoleSource := "client".toList, gameSessionId := none, authoritativeHostVirtualIp := [] }

def decoratedClient (sessions : Snapshot) (client : ClientState) : PublicClient :=
  let item := client.publicDict
  match Dict.get sessions client.virtualIp with
  | none => item
  | some session =>
    let isHost : Bool := client.virtualIp = session.hostVirtualIp
    { item with
      gameRole := if isHost then "host".toList else "client".toList
      gamePeerIp := if isHost then [] else session.hostVirtualIp
      gameRoleSource := "game-server".toList
      gameSessionId := some session.sessionId
      authoritativeHostVirtualIp := session.hostVirtualIp }

def decoratedClients (sessions : Snapshot) (clients : List ClientState) : List PublicClient := clients.map (decoratedClient sessions)

example : extractOverlayIps "prudps:/address=10.66.0.25;port=13000;a=110.66.0.3;b=10.66.0.10.66.0.5".toList =
    ["10.66.0.25".toList, "10.66.0.10".toList] := by decide

end Scbl.ControlPlane
