import Scbl.Storage.Operations
import Mathlib.Data.Char
import Mathlib.Data.List.Lex

/-!
# The queries of the session store

What `storage/mod.rs` reads for the services: the searches for game sessions, with their participants and the endpoints of these,
the session of an accepted invitation, and the lookups of users. A result that no `ORDER BY` sorts comes in the order of the table.
-/

namespace Scbl.Storage

/-- A participant of a session and its endpoints. -/
structure Participant where
  userId : Nat
  name : Text
  stationUrls : List Text
  deriving DecidableEq, Repr

/-- A game session and its participants. -/
structure GameSession where
  sessionType : Nat
  sessionId : Nat
  creatorId : Nat
  attributes : Text
  participants : List Participant
  deriving DecidableEq, Repr

/-- The session of an accepted invitation. -/
structure InvitedGameSession where
  inviteId : Nat
  kind : Nat
  senderId : Nat
  session : GameSession
  deriving DecidableEq, Repr

namespace Tables

/-- The name of a user. -/
def usernameOf (t : Tables) (userId : Nat) : Option Text := (t.users.find? (·.id = userId)).map (·.username)

/-- The endpoints of a user. -/
def urlsOf (t : Tables) (userId : Nat) : List Text := (t.stationUrls.filter (·.userId = userId)).map (·.url)

/-- The endpoints of a user, `ORDER BY url`. -/
def urlsByUrl (t : Tables) (userId : Nat) : List Text := (t.urlsOf userId).insertionSort (fun u v => u ≤ v)

/-- The participant with an id, and the endpoints that are read for it. -/
def participant (t : Tables) (urls : Nat → List Text) (userId : Nat) : Option Participant :=
  (t.usernameOf userId).map (fun name => { userId, name, stationUrls := urls userId })

/-- The session of a row; its attributes are decoded as a text. -/
def decodeSession (g : GameSessionRow) (participants : List Participant) : Except StorageError GameSession :=
  match g.attributes with
  | none => .error .unexpectedNull
  | some attributes =>
    .ok { sessionType := g.typeId, sessionId := g.id, creatorId := g.creatorId, attributes, participants }

/-- A session of a row, its participants in the order of their ids. -/
def sessionByUser (t : Tables) (g : GameSessionRow) : Except StorageError GameSession :=
  decodeSession g ((t.participantIds g.id).filterMap (t.participant t.urlsByUrl))

end Tables

/-- The host takes part in the session and has an endpoint. -/
def GameSession.hasLiveHost (session : GameSession) : Bool :=
  session.participants.any (fun p => p.userId = session.creatorId ∧ p.stationUrls ≠ [])

/-- The active sessions of a type, but for those of a user, whose own endpoints are not read. -/
def searchSessions (typeId : Nat) (excludeUser : Option Nat) (t : Tables) : Except StorageError (List GameSession) := do
  let rows := t.gameSessions.filter (fun g => g.typeId = typeId ∧ some g.creatorId ≠ excludeUser ∧ g.destroyedAt = none)
  let urls (userId : Nat) : List Text := if excludeUser = some userId then [] else t.urlsOf userId
  let sessions ← rows.mapM (fun g => Tables.decodeSession g
    (((t.participants.filter (·.gameId = g.id)).map (·.userId)).filterMap (t.participant urls)))
  return sessions.filter (·.hasLiveHost)

/-- The active sessions of a type in which one of some users takes part; all of them when no user is named. -/
def searchSessionsWithParticipants (typeId : Nat) (participantIds : List Nat) (t : Tables) :
    Except StorageError (List GameSession) := do
  let rows := (t.gameSessions.filter (fun g => g.typeId = typeId ∧ g.destroyedAt = none ∧
    (participantIds = [] ∨ participantIds.any (t.isParticipant g.id)))).insertionSort (fun g h => g.id ≤ h.id)
  let sessions ← rows.mapM t.sessionByUser
  return sessions.filter (·.hasLiveHost)

/-- The newest invitation to a session of a type that a user has accepted and that can still be followed; with `manualOnly`, one
that does not follow a party. -/
def Tables.acceptedInvite (t : Tables) (now : Time) (receiverId sessionType : Nat) (manualOnly : Bool) : Option InviteRow :=
  newest (t.invites.filter (fun i => i.receiver = receiverId ∧ i.sessionType = sessionType ∧
    (manualOnly → i.kind = INVITE_KIND_PRIVATE_ROOM ∨ i.kind = INVITE_KIND_LOBBY_PARTY ∨ i.kind = INVITE_KIND_LOBBY_RESTORE) ∧
    i.acceptedAt ≠ none ∧ i.consumedAt = none ∧ now < i.expiresAt ∧ t.validTarget i.kind i.sender i.sessionType i.sessionId))

/-- The session of an accepted invitation; that of an invitation to a private room with the class of a lobby. -/
def findAcceptedInvitedSession (receiverId sessionType : Nat) (manualOnly : Bool) (now : Time) (t : Tables) :
    Except StorageError (Option InvitedGameSession) :=
  match t.acceptedInvite now receiverId sessionType manualOnly with
  | none => .ok none
  | some i =>
    match t.gameSessions.find? (fun g => g.id = i.sessionId ∧ g.typeId = i.sessionType) with
    | none => .ok none
    | some g => do
      let session ← t.sessionByUser g
      let session := if i.kind = INVITE_KIND_PRIVATE_ROOM then
          { session with attributes := projectPrivateInviteSessionClassOnly session.attributes }
        else session
      return some { inviteId := i.rowid, kind := i.kind, senderId := i.sender, session }

/-- Whether a session is active. -/
def gameSessionIsActive (typeId sessionId : Nat) (t : Tables) : Bool := (t.activeSession typeId sessionId).isSome

/-- The active sessions that a user hosts from an endpoint, the last one first; their participants are not read. -/
def findHostSessions (userId : Nat) (t : Tables) : Except StorageError (List GameSession) :=
  ((t.gameSessions.filter (fun g => g.creatorId = userId ∧ g.destroyedAt = none ∧ t.isParticipant g.id g.creatorId ∧
    t.hasEndpoint g.creatorId)).insertionSort (fun g h => h.id ≤ g.id)).mapM (Tables.decodeSession · [])

/-- A user, as the services read it. -/
structure User where
  id : Nat
  username : Text
  ubiId : Text
  isOnline : Bool
  deriving DecidableEq, Repr

/-- The user with an id; its account id is decoded as a text. -/
def findUserById (id : Nat) (t : Tables) : Except StorageError (Option User) :=
  match t.users.find? (·.id = id) with
  | none => .ok none
  | some u =>
    match u.ubiId with
    | none => .error .unexpectedNull
    | some ubiId => .ok (some { id := u.id, username := u.username, ubiId, isOnline := u.isOnline })

/-- The account id of a user. -/
def findUbiIdByUserId (userId : Nat) (t : Tables) : Option Text := (t.users.find? (·.id = userId)).bind (·.ubiId)

/-- The user with an account id. -/
def findUserIdByUbiId (ubiId : Text) (t : Tables) : Option Nat := (t.users.find? (·.ubiId = some ubiId)).map (·.id)

end Scbl.Storage
